import RiscV.Proofs.Call

/-!
# Lock step

A call traps before it comes to an instruction, or it executes the one that its bits mean.  A
relation between harts that executing an instruction keeps, and that traps keep too, makes two harts
go in lock step: from harts that are related, a list of calls has the same outcomes and ends in
harts that are related, as long as the instructions executed are of a kind that keeps the relation.
-/

namespace RiscV

namespace Execution

variable {x : Xlen}

/-- Both actions complete, or both end in the same fault, and the harts they end in are related. -/
def Matches (related : Hart x → Hart x → Prop) :
    EStateM.Result (Fault x) (Hart x) Unit → EStateM.Result (Fault x) (Hart x) Unit → Prop
  | .ok _ left, .ok _ right => related left right
  | .error fault left, .error fault' right => fault = fault' ∧ related left right
  | _, _ => False

end Execution

namespace Hart

open Execution

variable {x : Xlen}

/-- The bits that a call performs, or the trap that a step takes instead: an interrupt, or the
fault of fetching them. -/
def bits (hart : Hart x) : Call → Except (Cause × Word x) InstructionBits
  | .perform bits => .ok bits
  | .step =>
      match hart.interrupt? with
      | some interrupt => .error (.interrupt interrupt, 0)
      | none =>
          match hart.fetch hart.pc with
          | .ok bits => .ok bits
          | .error fault => .error (.exception fault.exception, fault.value)

/-- The instruction that a call executes, with its bits, or the trap that comes before it. -/
def dispatch (hart : Hart x) (call : Call) :
    Except (Cause × Word x) (InstructionBits × Instruction) :=
  match hart.bits call with
  | .error trap => .error trap
  | .ok bits =>
      match hart.decode? bits with
      | some instruction => .ok (bits, instruction)
      | none => .error (.exception .illegalInstruction, bits.value)

/-- The instructions that are executed to answer a list of calls, each with the outcome. -/
def executions : List Call → Hart x → List (Instruction × Outcome x)
  | [], _ => []
  | call :: calls, hart =>
      match hart.dispatch call with
      | .ok (_, instruction) =>
          (instruction, (hart.answer call).1) :: executions calls (hart.answer call).2
      | .error _ => executions calls (hart.answer call).2

theorem forall_executions_cons {call : Call} {calls : List Call} {hart : Hart x}
    {p : Instruction × Outcome x → Prop} :
    (∀ execution ∈ executions (call :: calls) hart, p execution) ↔
      (∀ bits instruction, hart.dispatch call = .ok (bits, instruction) →
        p (instruction, (hart.answer call).1)) ∧
        ∀ execution ∈ executions calls (hart.answer call).2, p execution := by
  cases dispatched : hart.dispatch call with
  | error trap => simp [executions, dispatched]
  | ok performed =>
      obtain ⟨bits, instruction⟩ := performed
      simp only [executions, dispatched, List.forall_mem_cons, Except.ok.injEq, Prod.mk.injEq]
      refine and_congr_left fun _ => ⟨?_, fun each => each bits instruction ⟨rfl, rfl⟩⟩
      rintro first bits' instruction' ⟨rfl, rfl⟩
      exact first

theorem decode?_of_dispatch {hart : Hart x} {call : Call} {bits : InstructionBits}
    {instruction : Instruction} (dispatched : hart.dispatch call = .ok (bits, instruction)) :
    hart.bits call = .ok bits ∧ hart.decode? bits = some instruction := by
  unfold dispatch at dispatched
  split at dispatched
  · cases dispatched
  · rename_i performed
    split at dispatched
    · rename_i decoded
      cases dispatched
      exact ⟨performed, decoded⟩
    · cases dispatched

/-- A call traps, or it executes the instruction that it comes to. -/
theorem answer_eq (hart : Hart x) (call : Call) :
    hart.answer call =
      match hart.dispatch call with
      | .error (cause, value) => hart.trapped cause value
      | .ok (bits, instruction) =>
          match execute hart.pc bits instruction (hart.advanced bits) with
          | .ok _ after => (.retired, after.retire)
          | .error fault _ => hart.trapped (.exception fault.exception) fault.value := by
  cases call with
  | perform bits =>
      simp only [answer, perform_eq, dispatch, Hart.bits]
      cases hart.decode? bits <;> rfl
  | step =>
      simp only [answer, step_eq, dispatch, Hart.bits]
      cases hart.interrupt? with
      | some interrupt => rfl
      | none =>
          cases hart.fetch hart.pc with
          | error fault => rfl
          | ok bits =>
              simp only [perform_eq]
              cases hart.decode? bits <;> rfl

/-- A relation that harts keep while they go on, as long as they execute instructions of some
kind. -/
structure LockStep (related : Hart x → Hart x → Prop) (kind : Instruction → Prop) : Prop where
  pc : ∀ {left right}, related left right → right.pc = left.pc
  /-- Both come to the same instruction. -/
  dispatch : ∀ {left right}, related left right → ∀ {call},
    (∀ bits instruction, left.dispatch call = .ok (bits, instruction) → kind instruction) →
      right.dispatch call = left.dispatch call
  advanced : ∀ {left right}, related left right → ∀ bits,
    related (left.advanced bits) (right.advanced bits)
  execute : ∀ {left right}, related left right → ∀ {instruction}, kind instruction →
    ∀ pc bits, Matches related (execute pc bits instruction left)
      (execute pc bits instruction right)
  retire : ∀ {left right}, related left right → related left.retire right.retire
  trapped : ∀ {left right}, related left right → ∀ cause value,
    related (left.trapped cause value).2 (right.trapped cause value).2

namespace LockStep

variable {related : Hart x → Hart x → Prop} {kind : Instruction → Prop} {left right : Hart x}

theorem trap (lock : LockStep related kind) (start : related left right) (cause : Cause)
    (value : Word x) :
    (left.trapped cause value).1 = (right.trapped cause value).1 ∧
      related (left.trapped cause value).2 (right.trapped cause value).2 := by
  refine ⟨?_, lock.trapped start cause value⟩
  rw [Hart.trapped, Hart.trapped, lock.pc start]

theorem answer (lock : LockStep related kind) (start : related left right) {call : Call}
    (found : ∀ bits instruction, left.dispatch call = .ok (bits, instruction) →
      kind instruction) :
    (left.answer call).1 = (right.answer call).1 ∧
      related (left.answer call).2 (right.answer call).2 := by
  rw [answer_eq, answer_eq, lock.dispatch start found, lock.pc start]
  cases dispatched : left.dispatch call with
  | error trap => exact lock.trap start trap.1 trap.2
  | ok performed =>
      obtain ⟨bits, instruction⟩ := performed
      have same := lock.execute (lock.advanced start bits) (found bits instruction dispatched)
        left.pc bits
      simp only
      revert same
      cases Hart.execute left.pc bits instruction (left.advanced bits) with
      | ok _ after =>
          cases Hart.execute left.pc bits instruction (right.advanced bits) with
          | ok _ after' => exact fun same => ⟨rfl, lock.retire same⟩
          | error => exact False.elim
      | error fault after =>
          cases Hart.execute left.pc bits instruction (right.advanced bits) with
          | ok => exact False.elim
          | error fault' after' =>
              rintro ⟨rfl, -⟩
              exact lock.trap start _ _

theorem follow (lock : LockStep related kind) (start : related left right) {calls : List Call}
    (found : ∀ execution ∈ executions calls left, kind execution.1) :
    (history calls left).map (·.outcome) = (history calls right).map (·.outcome) ∧
      related (follow calls left) (follow calls right) := by
  induction calls generalizing left right with
  | nil => exact ⟨rfl, start⟩
  | cons call calls ih =>
      rw [forall_executions_cons] at found
      obtain ⟨outcome, remains⟩ := lock.answer start found.1
      obtain ⟨outcomes, ends⟩ := ih remains found.2
      refine ⟨?_, ends⟩
      rw [history, history, List.map_cons, List.map_cons, outcomes]
      exact congrArg (· :: _) outcome

end LockStep

end Hart

end RiscV
