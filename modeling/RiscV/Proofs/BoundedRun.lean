import RiscV.Command.Simulation
import RiscV.Proofs.Call

/-!
# Bounded runs

A bounded run is over at once, or it is a step and a run with a limit that is one less.  So runs
compose, a run is as many steps as it counts, and the loop of the command, which tests in another
order and may end at a trap as well, is a bounded run with a limit of its own.
-/

namespace RiscV

namespace Hart

variable {x : Xlen} {stop : Option (Word x)}

theorem advance_fst_le (stop : Option (Word x)) (budget : Nat) (hart : Hart x) :
    (advance stop budget hart).1 ≤ budget := by
  induction budget generalizing hart with
  | zero => exact Nat.le_refl 0
  | succ budget ih =>
      rw [advance]
      split
      · exact Nat.le_refl _
      · exact Nat.le_succ_of_le (ih hart.step.2)

@[simp]
theorem runSteps_zero (stop : Option (Word x)) (hart : Hart x) :
    runSteps 0 stop hart = (0, hart) := rfl

theorem runSteps_of_stop {hart : Hart x} (arrived : stop = some hart.pc) (limit : Nat) :
    runSteps limit stop hart = (0, hart) := by
  cases limit with
  | zero => rfl
  | succ limit => simp [runSteps, advance, arrived]

theorem runSteps_succ {hart : Hart x} (away : stop ≠ some hart.pc) (limit : Nat) :
    runSteps (limit + 1) stop hart =
      ((runSteps limit stop hart.step.2).1 + 1, (runSteps limit stop hart.step.2).2) := by
  have left := advance_fst_le stop limit hart.step.2
  simp only [runSteps, advance, away, if_false, Prod.mk.injEq, and_true]
  omega

theorem runSteps_add (stop : Option (Word x)) (m n : Nat) (hart : Hart x) :
    runSteps (m + n) stop hart =
      ((runSteps m stop hart).1 + (runSteps n stop (runSteps m stop hart).2).1,
        (runSteps n stop (runSteps m stop hart).2).2) := by
  induction m generalizing hart with
  | zero => simp
  | succ m ih =>
      by_cases arrived : stop = some hart.pc
      · simp only [runSteps_of_stop arrived]
      · rw [Nat.add_right_comm, runSteps_succ arrived, runSteps_succ arrived, ih hart.step.2]
        simp only [Prod.mk.injEq, and_true]
        omega

/-- Going on from a hart for at most `limit` steps and no further than `stop` takes `count` steps,
and ends in `last`. -/
structure BoundedRun (stop : Option (Word x)) (limit : Nat) (hart : Hart x) (count : Nat)
    (last : Hart x) : Prop where
  count_le : count ≤ limit
  last_eq : last = follow (List.replicate count .step) hart
  /-- No step is taken at the stop address. -/
  away : ∀ taken < count, stop ≠ some (follow (List.replicate taken .step) hart).pc
  /-- Only the stop address ends a run short of its limit. -/
  arrived : count < limit → stop = some last.pc

namespace BoundedRun

theorem here {limit : Nat} {hart : Hart x} (arrived : 0 < limit → stop = some hart.pc) :
    BoundedRun stop limit hart 0 hart where
  count_le := Nat.zero_le limit
  last_eq := rfl
  away _ taken := absurd taken (Nat.not_lt_zero _)
  arrived := arrived

theorem step {limit count : Nat} {hart last : Hart x} (away : stop ≠ some hart.pc)
    (rest : BoundedRun stop limit hart.step.2 count last) :
    BoundedRun stop (limit + 1) hart (count + 1) last where
  count_le := Nat.succ_le_succ rest.count_le
  last_eq := rest.last_eq
  away taken before := by
    cases taken with
    | zero => exact away
    | succ taken => exact rest.away taken (Nat.lt_of_succ_lt_succ before)
  arrived short := rest.arrived (Nat.lt_of_succ_lt_succ short)

end BoundedRun

theorem boundedRun_runSteps (stop : Option (Word x)) (limit : Nat) (hart : Hart x) :
    BoundedRun stop limit hart (runSteps limit stop hart).1 (runSteps limit stop hart).2 := by
  induction limit generalizing hart with
  | zero => exact .here fun positive => absurd positive (Nat.lt_irrefl 0)
  | succ limit ih =>
      by_cases arrived : stop = some hart.pc
      · rw [runSteps_of_stop arrived]
        exact .here fun _ => arrived
      · rw [runSteps_succ arrived]
        exact .step arrived (ih hart.step.2)

/-- The number of the first event that is a trap, counted from one, or else the given number. -/
def firstTrap (limit : Nat) (events : List (Event x)) : Nat :=
  (events.findIdx? (·.outcome.isTrap)).elim limit (· + 1)

theorem firstTrap_cons (limit : Nat) (event : Event x) (events : List (Event x)) :
    firstTrap (limit + 1) (event :: events) =
      if event.outcome.isTrap then 1 else firstTrap limit events + 1 := by
  rw [firstTrap, firstTrap, List.findIdx?_cons]
  split
  · rfl
  · cases events.findIdx? (·.outcome.isTrap) <;> rfl

end Hart

namespace Command

open Hart

variable {x : Xlen} {stop : Option (Word x)}

theorem drive_zero (stop : Option (Word x)) (stopOnTrap : Bool) (hart : Hart x) :
    drive stop stopOnTrap 0 hart = (0, hart) := by
  rw [drive]
  split <;> rfl

theorem drive_of_stop {hart : Hart x} (arrived : stop = some hart.pc) (stopOnTrap : Bool)
    (budget : Nat) : drive stop stopOnTrap budget hart = (budget, hart) := by
  rw [drive.eq_def, if_pos arrived]

theorem drive_succ {hart : Hart x} (away : stop ≠ some hart.pc) (stopOnTrap : Bool)
    (budget : Nat) :
    drive stop stopOnTrap (budget + 1) hart =
      if hart.step.1.isTrap && stopOnTrap then (budget, hart.step.2)
      else drive stop stopOnTrap budget hart.step.2 := by
  rw [drive, if_neg away]

theorem drive_fst_le (stop : Option (Word x)) (stopOnTrap : Bool) (budget : Nat)
    (hart : Hart x) : (drive stop stopOnTrap budget hart).1 ≤ budget := by
  induction budget generalizing hart with
  | zero => simp [drive_zero]
  | succ budget ih =>
      by_cases arrived : stop = some hart.pc
      · simp [drive_of_stop arrived]
      · rw [drive_succ arrived]
        split
        · exact Nat.le_succ budget
        · exact Nat.le_succ_of_le (ih hart.step.2)

/-- The loop that does not stop at traps tests what a run tests. -/
theorem drive_false (stop : Option (Word x)) (budget : Nat) (hart : Hart x) :
    drive stop false budget hart = advance stop budget hart := by
  induction budget generalizing hart with
  | zero => rw [drive_zero, advance]
  | succ budget ih =>
      by_cases arrived : stop = some hart.pc
      · rw [drive_of_stop arrived, advance, if_pos arrived]
      · rw [drive_succ arrived, Bool.and_false, if_neg Bool.false_ne_true, advance,
          if_neg arrived, ih hart.step.2]

/-- The loop that stops at traps is the run that ends with the first trap of the run without
it. -/
theorem drive_true (stop : Option (Word x)) (limit : Nat) (hart : Hart x) :
    (limit - (drive stop true limit hart).1, (drive stop true limit hart).2) =
      runSteps (firstTrap limit
        (history (List.replicate (runSteps limit stop hart).1 .step) hart)) stop hart := by
  induction limit generalizing hart with
  | zero => simp [drive_zero, firstTrap, history]
  | succ limit ih =>
      by_cases arrived : stop = some hart.pc
      · simp [drive_of_stop arrived, runSteps_of_stop arrived]
      · rw [drive_succ arrived, runSteps_succ arrived, List.replicate_succ, history,
          show hart.answer .step = hart.step from rfl, firstTrap_cons, Bool.and_true]
        by_cases trap : hart.step.1.isTrap = true
        · -- The step is the last one, also when the limit leaves more.
          rw [if_pos trap, if_pos trap, ← Nat.zero_add 1, runSteps_succ arrived, runSteps_zero]
          simp
        · have left := drive_fst_le stop true limit hart.step.2
          rw [if_neg trap, if_neg trap, runSteps_succ arrived, ← ih hart.step.2]
          simp only [Prod.mk.injEq, and_true]
          omega

/-- Runs with limits compose, and they step as often as they count: at most up to the limit, never
at the stop address, and short of the limit only to arrive there.  The loop of the command takes
the steps of a run with its limit, or, if it stops at traps, of a run with the number of the first
step of that run which traps for its limit. -/
theorem drive_runSteps (stop : Option (Word x)) (hart : Hart x) :
    (∀ m n, runSteps (m + n) stop hart =
      let (first, middle) := runSteps m stop hart
      let (second, last) := runSteps n stop middle
      (first + second, last)) ∧
    ∀ limit,
      let (count, last) := runSteps limit stop hart
      let (left, driven) := drive stop false limit hart
      let (left', driven') := drive stop true limit hart
      BoundedRun stop limit hart count last ∧
      left ≤ limit ∧ (limit - left, driven) = (count, last) ∧
      left' ≤ limit ∧ (limit - left', driven') =
        runSteps (firstTrap limit (history (List.replicate count .step) hart)) stop hart := by
  refine ⟨fun m n => runSteps_add stop m n hart, fun limit => ?_⟩
  refine ⟨boundedRun_runSteps stop limit hart, drive_fst_le stop false limit hart, ?_,
    drive_fst_le stop true limit hart, drive_true stop limit hart⟩
  rw [drive_false]

end Command

end RiscV
