import RiscV.Proofs.CsrLegality
import RiscV.Proofs.Noninterference

/-!
# Selection of interrupts

A step takes an interrupt exactly if one is pending and enabled while interrupts are open, and it
takes the most urgent one.  No other bit can be set in both interrupt registers, since enabling does
not reach it.  Taking an interrupt acknowledges nothing: what is pending at the level of machine
mode is up to the outside.
-/

namespace RiscV

namespace Interrupt

/-- The place of the interrupt in the order of urgency. -/
def rank : Interrupt → Nat
  | machineExternal => 0
  | machineSoftware => 1
  | machineTimer => 2
  | supervisorExternal => 3
  | supervisorSoftware => 4
  | supervisorTimer => 5
  | userExternal => 6
  | userSoftware => 7
  | userTimer => 8

theorem mem_byPriority (interrupt : Interrupt) : interrupt ∈ byPriority := by
  cases interrupt <;> decide

theorem pairwise_byPriority :
    byPriority.Pairwise fun earlier later => earlier.rank < later.rank := by
  decide

/-- Every place where an interrupt can be enabled is the place of one. -/
theorem exists_code : ∀ index < 12, (0xBBB : InterruptSet).getLsbD index = true →
    ∃ interrupt ∈ byPriority, interrupt.code = index := by
  decide

end Interrupt

namespace Interrupts

variable {interrupts : Interrupts} {interrupt : Interrupt}

/-- The interrupt is pending and enabled, and no earlier one is both. -/
structure Selects (interrupts : Interrupts) (interrupt : Interrupt) : Prop where
  pending : InterruptSet.has interrupts.pending interrupt = true
  enabled : InterruptSet.has interrupts.enabled interrupt = true
  first : ∀ earlier : Interrupt, earlier.rank < interrupt.rank →
    ¬ (InterruptSet.has interrupts.pending earlier = true ∧
      InterruptSet.has interrupts.enabled earlier = true)

theorem selects_of_highest? (found : interrupts.highest? = some interrupt) :
    interrupts.Selects interrupt := by
  obtain ⟨waits, before, after, split, passed⟩ := List.find?_eq_some_iff_append.mp found
  obtain ⟨pending, enabled⟩ := Bool.and_eq_true_iff.mp waits
  refine ⟨pending, enabled, fun earlier lower both => ?_⟩
  have sorted := Interrupt.pairwise_byPriority
  have member := earlier.mem_byPriority
  rw [split] at sorted member
  rcases List.mem_append.mp member with ahead | behind
  · have blocked := passed earlier ahead
    rw [both.1, both.2] at blocked
    cases blocked
  · have tail := (List.pairwise_append.mp sorted).2.1
    rcases List.mem_cons.mp behind with rfl | behind
    · exact Nat.lt_irrefl _ lower
    · have higher := List.rel_of_pairwise_cons tail behind
      exact Nat.lt_asymm lower higher

/-- If only interrupts can be enabled, then none is selected only if no bit is set in both
registers. -/
theorem highest?_eq_none_iff (within : interrupts.enabled &&& ~~~0xBBB = 0) :
    interrupts.highest? = Option.none ↔ interrupts.pending &&& interrupts.enabled = 0 := by
  refine ⟨fun absent => ?_, highest?_eq_none⟩
  apply BitVec.eq_of_getLsbD_eq
  intro index low
  refine Eq.trans ?_ BitVec.getLsbD_zero.symm
  rw [← and_eq_self within, BitVec.getLsbD_and, BitVec.getLsbD_and]
  -- Outside of the mask nothing is enabled, and inside every place is that of an interrupt.
  cases place : (0xBBB : InterruptSet).getLsbD index with
  | false => rw [Bool.and_false, Bool.and_false]
  | true =>
      obtain ⟨interrupt, member, rfl⟩ := Interrupt.exists_code index low place
      have neither := List.find?_eq_none.mp absent interrupt member
      rw [Bool.and_true]
      exact Bool.not_eq_true _ ▸ neither

/-- The interrupts that only the outside makes pending. -/
def driven : List Interrupt := [.machineSoftware, .machineTimer, .machineExternal]

/-- Software does not reach what the outside drives. -/
theorem driven_of_write (member : interrupt ∈ driven) (value : InterruptSet) :
    InterruptSet.has (interrupts.writePending value).pending interrupt =
        InterruptSet.has interrupts.pending interrupt ∧
      InterruptSet.has (interrupts.writeSupervisorPending value).pending interrupt =
        InterruptSet.has interrupts.pending interrupt := by
  have masked : ∀ interrupt ∈ driven,
      (InterruptSet.supervisor ||| InterruptSet.user).getLsbD interrupt.code = false ∧
        InterruptSet.supervisorSoftware.getLsbD interrupt.code = false := by
    decide
  obtain ⟨software, supervisor⟩ := masked interrupt member
  constructor
  · refine (InterruptSet.getLsbD_merge ..).trans ?_
    rw [software]
    rfl
  · refine (InterruptSet.getLsbD_merge ..).trans ?_
    rw [supervisor]
    rfl

end Interrupts

/-- The operation acts on an interrupt from outside. -/
def CsrOperation.Drives {x : Xlen} (interrupt : Interrupt) : CsrOperation x → Prop
  | .reset => True
  | .setPending other _ => other = interrupt
  | _ => False

/-- The request acts on an interrupt from outside. -/
def Request.Drives {x : Xlen} (interrupt : Interrupt) : Request x → Prop
  | .reset | .selfTest => True
  | .setPending other _ => other = interrupt
  | .onCsrs operation => operation.Drives interrupt
  | _ => False

namespace CsrFile

open Interrupts (driven driven_of_write)

variable {x : Xlen} {file after : CsrFile x} {interrupt : Interrupt}

theorem driven_of_assign? (member : interrupt ∈ driven) {csr : Csr} {value : Word x}
    (assigned : file.assign? csr value = some after) :
    InterruptSet.has after.interrupts.pending interrupt =
      InterruptSet.has file.interrupts.pending interrupt := by
  cases csr with
  | mip =>
      cases assigned
      exact (driven_of_write member _).1
  | sip =>
      cases assigned
      exact (driven_of_write member _).2
  | mcycle | minstret | mcycleh | minstreth | cycle | instret | cycleh | instreth =>
      obtain ⟨_, _, rfl⟩ := counters_of_assign? rfl assigned
      rfl
  | mvendorid | marchid | mimpid | mhartid => cases assigned
  | _ =>
      cases assigned
      rfl

theorem driven_operate (member : interrupt ∈ driven) {operation : CsrOperation x}
    (silent : ¬ operation.Drives interrupt) :
    InterruptSet.has (file.operate operation).interrupts.pending interrupt =
      InterruptSet.has file.interrupts.pending interrupt := by
  cases operation with
  | write number value level =>
      rcases file.operate_write_cases number value level with same | ⟨csr, -, -, assigned⟩
      · rw [same]
      · exact driven_of_assign? member assigned
  | setPending other isPending =>
      have distinct : ¬ other = interrupt := silent
      have put := InterruptSet.has_put file.interrupts.pending other interrupt isPending
      rwa [if_neg distinct] at put
  | reset => exact absurd trivial silent
  | setEpc mode | setCause mode | setTrapValue mode => cases mode <;> rfl
  | status | tick | retire => rfl

theorem driven_operateAll (member : interrupt ∈ driven) {operations : List (CsrOperation x)}
    (silent : ∀ operation ∈ operations, ¬ operation.Drives interrupt) :
    InterruptSet.has (operateAll operations file).interrupts.pending interrupt =
      InterruptSet.has file.interrupts.pending interrupt := by
  induction operations generalizing file with
  | nil => rfl
  | cons operation operations ih =>
      rw [List.forall_mem_cons] at silent
      exact (ih silent.2).trans (driven_operate member silent.1)

end CsrFile

namespace Hart

open Execution
open Interrupts (driven highest?_eq_none_iff selects_of_highest?)

variable {x : Xlen} {hart : Hart x} {interrupt : Interrupt}

theorem instructionOperations_silent (hart : Hart x) (interrupt : Interrupt)
    (instruction : Instruction) :
    ∀ operation ∈ hart.instructionOperations instruction, ¬ operation.Drives interrupt := by
  by_cases plain : instruction.usesCsrs = false
  · rw [hart.instructionOperations_plain plain]
    exact nofun
  · cases instruction with
    | csr =>
        rw [instructionOperations]
        split
        · simp [CsrOperation.Drives]
        · exact nofun
    | mret | sret => simp [instructionOperations, CsrOperation.Drives]
    | _ => exact absurd rfl plain

theorem callOperations_silent (hart : Hart x) (interrupt : Interrupt) (call : Call) :
    ∀ operation ∈ hart.callOperations call, ¬ operation.Drives interrupt := by
  unfold callOperations
  cases (hart.answer call).1 with
  | trap => simp [entryOperations, CsrOperation.Drives]
  | retired =>
      cases hart.instruction? call with
      | none => simp [CsrOperation.Drives]
      | some instruction =>
          have silent := hart.instructionOperations_silent interrupt instruction
          simp only [Option.elim_some, List.forall_mem_append]
          exact ⟨silent, by simp [CsrOperation.Drives]⟩

theorem operations_silent {request : Request x} (silent : ¬ request.Drives interrupt) :
    ∀ operation ∈ hart.operations request, ¬ operation.Drives interrupt := by
  cases request with
  | call call => exact hart.callOperations_silent interrupt call
  | enterTrap => simp [operations, entryOperations, CsrOperation.Drives]
  | reset | selfTest => exact absurd trivial silent
  | setPc | setRegisters | setMemory => exact fun _ member => absurd member List.not_mem_nil
  | setPending | onCsrs =>
      intro operation member
      rw [List.mem_singleton.mp member]
      exact silent

theorem driven_serve (member : interrupt ∈ driven) {request : Request x}
    (silent : ¬ request.Drives interrupt) :
    InterruptSet.has (hart.serve request).csrs.interrupts.pending interrupt =
      InterruptSet.has hart.csrs.interrupts.pending interrupt := by
  rw [serve_csrs]
  exact CsrFile.driven_operateAll member (operations_silent silent)

theorem driven_served (member : interrupt ∈ driven) {requests : List (Request x)}
    (silent : ∀ request ∈ requests, ¬ request.Drives interrupt) :
    InterruptSet.has (served requests hart).csrs.interrupts.pending interrupt =
      InterruptSet.has hart.csrs.interrupts.pending interrupt := by
  induction requests generalizing hart with
  | nil => rfl
  | cons request requests ih =>
      rw [List.forall_mem_cons] at silent
      exact (ih silent.2).trans (driven_serve member silent.1)

/-! ## Steps -/

theorem interrupt?_eq_some_iff :
    hart.interrupt? = some interrupt ↔
      (hart.mode < .machine ∨ hart.csrs.status.mie = true) ∧
        hart.csrs.interrupts.highest? = some interrupt := by
  unfold interrupt?
  split
  · rename_i isOpen
    exact (and_iff_right isOpen).symm
  · rename_i isClosed
    exact ⟨nofun, fun both => absurd both.1 isClosed⟩

theorem perform_ne_interrupt (hart : Hart x) (bits : InstructionBits) (interrupt : Interrupt)
    (epc value : Word x) : (hart.perform bits).1 ≠ .trap (.interrupt interrupt) epc value := by
  rw [perform_eq]
  cases hart.decode? bits with
  | none => exact nofun
  | some instruction =>
      intro traps
      cases executed : execute hart.pc bits instruction (hart.advanced bits) with
      | ok =>
          simp only [executed] at traps
          cases traps
      | error =>
          simp only [executed] at traps
          cases traps

/-- A step traps on the interrupt that is due, if there is one. -/
theorem step_interrupt_iff :
    (∃ epc value, hart.step.1 = .trap (.interrupt interrupt) epc value) ↔
      hart.interrupt? = some interrupt := by
  rw [step_eq]
  constructor
  · rintro ⟨epc, value, traps⟩
    cases due : hart.interrupt? with
    | some taken =>
        rw [due] at traps
        cases traps
        rfl
    | none =>
        rw [due] at traps
        cases fetched : hart.fetch hart.pc with
        | ok bits =>
            simp only [fetched] at traps
            exact absurd traps (hart.perform_ne_interrupt bits interrupt epc value)
        | error fault =>
            simp only [fetched] at traps
            cases traps
  · intro due
    rw [due]
    exact ⟨hart.pc, 0, rfl⟩

/-- In whatever state a hart comes to be, a step takes an interrupt exactly if interrupts are open
and some bit is set in both interrupt registers.  It takes the most urgent interrupt of these and
leaves both registers as they are; otherwise it goes on with the instruction at the program counter.
No request but a reset or one about the interrupt itself changes whether an interrupt of machine
mode is pending. -/
theorem served_interrupts (config : Config) (requests : List (Request x)) :
    let hart := served requests (initial config)
    let interrupts := hart.csrs.interrupts
    let due := (hart.mode < .machine ∨ hart.csrs.status.mie = true) ∧
      interrupts.pending &&& interrupts.enabled ≠ 0
    ((∃ interrupt epc value, hart.step.1 = .trap (.interrupt interrupt) epc value) ↔ due) ∧
      (∀ interrupt epc value, hart.step.1 = .trap (.interrupt interrupt) epc value →
        interrupts.Selects interrupt ∧ hart.step.2.csrs.interrupts = interrupts) ∧
      (¬ due → hart.step =
        match hart.fetch hart.pc with
        | .ok bits => hart.perform bits
        | .error fault => hart.takeException hart.pc fault) ∧
      ∀ interrupt ∈ [Interrupt.machineSoftware, .machineTimer, .machineExternal],
        ∀ later : List (Request x), (∀ request ∈ later, ¬ request.Drives interrupt) →
          InterruptSet.has (served later hart).csrs.interrupts.pending interrupt =
            InterruptSet.has interrupts.pending interrupt := by
  intro hart interrupts due
  have legal : hart.csrs.Legal := legal_served (CsrFile.legal_initial config.compressed) requests
  have absent := highest?_eq_none_iff legal.enabled
  have due_iff : due ↔ ∃ interrupt, hart.interrupt? = some interrupt := by
    simp only [interrupt?_eq_some_iff, exists_and_left, ← Option.isSome_iff_exists,
      Option.isSome_iff_ne_none]
    exact and_congr_right fun _ => not_congr absent.symm
  refine ⟨?_, ?_, ?_, fun interrupt member later => driven_served member⟩
  · rw [due_iff]
    exact exists_congr fun _ => step_interrupt_iff
  · intro interrupt epc value traps
    have taken := step_interrupt_iff.mp ⟨epc, value, traps⟩
    refine ⟨selects_of_highest? (interrupt?_eq_some_iff.mp taken).2, ?_⟩
    rw [step_eq, taken]
    rfl
  · intro quiet
    have none : hart.interrupt? = none :=
      Option.eq_none_iff_forall_ne_some.mpr fun interrupt found => quiet (due_iff.mpr ⟨_, found⟩)
    have stepped := step_eq hart
    rw [none] at stepped
    exact stepped

end Hart

end RiscV
