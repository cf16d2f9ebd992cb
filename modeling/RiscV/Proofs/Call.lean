import RiscV.Hart.Run
import RiscV.Proofs.Effect

/-!
# Calls

A hart is driven by calls, each of which takes a step or performs given bits as if they had been
fetched.  A call either enters a trap from the hart as it stands or completes an instruction.  The
history of a list of calls records every answer with the hart before and after it.
-/

namespace RiscV

/-- A request to a hart to go on. -/
inductive Call where
  /-- Take a step. -/
  | step
  /-- Perform an instruction as if it had been fetched at the program counter. -/
  | perform (bits : InstructionBits)
  deriving DecidableEq, Repr

/-- A call that was answered. -/
structure Event (x : Xlen) where
  /-- The hart before the call. -/
  before : Hart x
  /-- How the call ended. -/
  outcome : Outcome x
  /-- The hart after the call. -/
  after : Hart x

namespace Hart

open Execution

variable {x : Xlen}

/-- What a hart does on a call. -/
def answer (hart : Hart x) : Call → Outcome x × Hart x
  | .step => hart.step
  | .perform bits => hart.perform bits

/-- The hart after a list of calls. -/
def follow : List Call → Hart x → Hart x
  | [], hart => hart
  | call :: calls, hart => follow calls (hart.answer call).2

/-- The answers to a list of calls. -/
def history : List Call → Hart x → List (Event x)
  | [], _ => []
  | call :: calls, hart =>
      ⟨hart, (hart.answer call).1, (hart.answer call).2⟩ ::
        history calls (hart.answer call).2

/-- A trap out of the hart as it stands, which takes a cycle. -/
def trapped (hart : Hart x) (cause : Cause) (value : Word x) : Outcome x × Hart x :=
  (.trap cause hart.pc value, (hart.enterTrap cause hart.pc value).tick)

/-- The hart at the start of the execution of bits of the given size. -/
def advanced (hart : Hart x) (bits : InstructionBits) : Hart x :=
  hart.setPc (hart.pc + BitVec.ofNat x.bits bits.size)

/-- The address at which machine mode handles a trap.  It is the base address, or above it by four
bytes a code for an interrupt in the vectored mode. -/
def handlerAddress (hart : Hart x) (cause : Cause) : Word x :=
  let vector := hart.csrs.machine.vector.bits
  if vector.getLsbD 0 ∧ cause.isInterrupt then
    (vector &&& ~~~3) + BitVec.ofNat x.bits (4 * cause.code)
  else vector &&& ~~~3

theorem trapped_pc (hart : Hart x) (cause : Cause) (value : Word x) :
    (hart.trapped cause value).2.pc = hart.handlerAddress cause := by
  simp only [trapped, tick, enterTrap, CsrFile.setEpc, CsrFile.setCause, CsrFile.setTrapValue,
    CsrFile.modifyTraps, TrapVector.handler, TrapVector.isVectored, TrapVector.base,
    Bool.and_eq_true, handlerAddress]

/-- Every event of a history is the answer to a call. -/
theorem answer_of_mem_history {calls : List Call} {hart : Hart x} {event : Event x}
    (member : event ∈ history calls hart) :
    ∃ call, event.before.answer call = (event.outcome, event.after) := by
  induction calls generalizing hart with
  | nil => cases member
  | cons call calls ih =>
      rcases List.mem_cons.mp member with rfl | later
      · exact ⟨call, rfl⟩
      · exact ih later

theorem decode?_eq_some_iff {hart : Hart x} {bits : InstructionBits}
    {instruction : Instruction} :
    hart.decode? bits = some instruction ↔
      (bits.size = 2 → hart.config.compressed = true) ∧ bits.meaning? x = some instruction ∧
        ∀ register ∈ instruction.registers, hart.registers.Contains register := by
  unfold decode?
  split
  · rename_i unsupported
    simp [unsupported]
  · rename_i supported
    simp_all [Option.filter_eq_some_iff]

theorem perform_eq (hart : Hart x) (bits : InstructionBits) :
    hart.perform bits =
      match hart.decode? bits with
      | none => hart.trapped (.exception .illegalInstruction) bits.value
      | some instruction =>
          match execute hart.pc bits instruction (hart.advanced bits) with
          | .ok _ after => (.retired, after.retire)
          | .error fault _ => hart.trapped (.exception fault.exception) fault.value := by
  have decoded : (hart.advanced bits).decode? bits = hart.decode? bits := rfl
  simp only [perform, executeBits, bind_apply, get_apply]
  rw [show hart.setPc (hart.pc + BitVec.ofNat x.bits bits.size) = hart.advanced bits from rfl,
    decoded]
  cases hart.decode? bits with
  | none => rfl
  | some instruction =>
      cases executed : execute hart.pc bits instruction (hart.advanced bits) with
      | ok => simp only [executed]
      | error fault after =>
          obtain rfl := execute_error _ _ _ executed
          simp only [executed]
          rfl

theorem perform_cases (hart : Hart x) (bits : InstructionBits) :
    (∃ cause value, hart.perform bits = hart.trapped cause value) ∨
      ∃ instruction after, hart.decode? bits = some instruction ∧
        execute hart.pc bits instruction (hart.advanced bits) = .ok () after ∧
        hart.perform bits = (.retired, after.retire) := by
  rw [perform_eq]
  cases hart.decode? bits with
  | none => exact .inl ⟨_, _, rfl⟩
  | some instruction =>
      rcases execute_error_or_ok hart.pc bits (hart.advanced bits) instruction with
        ⟨_, fault⟩ | ⟨after, completes⟩
      · simp only [fault]
        exact .inl ⟨_, _, rfl⟩
      · simp only [completes]
        exact .inr ⟨_, _, rfl, completes, rfl⟩

theorem step_eq (hart : Hart x) :
    hart.step =
      match hart.interrupt? with
      | some interrupt => hart.trapped (.interrupt interrupt) 0
      | none =>
          match hart.fetch hart.pc with
          | .ok bits => hart.perform bits
          | .error fault => hart.trapped (.exception fault.exception) fault.value := rfl

/-- A call traps out of the hart as it stands, or it completes an instruction. -/
theorem answer_cases (hart : Hart x) (call : Call) :
    (∃ cause value, hart.answer call = hart.trapped cause value) ∨
      ∃ bits instruction after,
        (call = .perform bits ∨
          call = .step ∧ hart.interrupt? = none ∧ hart.fetch hart.pc = .ok bits) ∧
        hart.decode? bits = some instruction ∧
        execute hart.pc bits instruction (hart.advanced bits) = .ok () after ∧
        hart.answer call = (.retired, after.retire) := by
  cases call with
  | perform bits =>
      rcases perform_cases hart bits with trap | ⟨instruction, after, completes⟩
      · exact .inl trap
      · exact .inr ⟨bits, instruction, after, .inl rfl, completes⟩
  | step =>
      have stepped : hart.answer .step = _ := step_eq hart
      rw [stepped]
      cases hart.interrupt? with
      | some => exact .inl ⟨_, _, rfl⟩
      | none =>
          cases hart.fetch hart.pc with
          | error => exact .inl ⟨_, _, rfl⟩
          | ok bits =>
              rcases perform_cases hart bits with trap | ⟨instruction, after, completes⟩
              · exact .inl trap
              · exact .inr ⟨bits, instruction, after, .inr ⟨rfl, rfl, rfl⟩, completes⟩

end Hart

end RiscV
