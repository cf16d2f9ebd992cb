import RiscV.Proofs.Containment
import RiscV.Proofs.Frame

/-!
# Noninterference in user mode

User mode can read no control register but the counters and can write none.  So two harts in user
mode that differ only in the other control registers, without an interrupt in sight, act alike up
to and including the first trap.
-/

namespace RiscV

theorem Interrupts.highest?_eq_none {interrupts : Interrupts}
    (quiet : interrupts.pending &&& interrupts.enabled = 0) :
    interrupts.highest? = Option.none := by
  refine List.find?_eq_none.mpr fun interrupt _ => ?_
  have bit := congrArg (·.getLsbD interrupt.code) quiet
  simpa [InterruptSet.has] using bit

namespace CsrFile

variable {x : Xlen} {left right : CsrFile x}

theorem peek?_user (cycles : left.cycles = right.cycles) (retired : left.retired = right.retired)
    {csr : Csr} (sufficient : csr.number.requiredLevel ≤ Privilege.user.level) :
    left.peek? csr = right.peek? csr := by
  rcases Csr.counter_of_user sufficient with rfl | rfl | rfl | rfl
  · simp only [peek?, cycles]
  · simp only [peek?, retired]
  · simp only [peek?, cycles]
  · simp only [peek?, retired]

/-- User mode reads the counters only. -/
theorem read_user (cycles : left.cycles = right.cycles) (retired : left.retired = right.retired)
    (number : CsrNumber) : left.read number .user = right.read number .user := by
  unfold read
  cases checked : checkAccess number .user with
  | error error => rfl
  | ok =>
      have sufficient := (checkAccess_eq_ok_iff.mp checked).2
      have peeked : left.peekNumber? number = right.peekNumber? number := by
        unfold peekNumber?
        cases named : Csr.ofNumber? number with
        | none => rfl
        | some csr =>
            obtain rfl := Csr.number_of_ofNumber? named
            exact peek?_user cycles retired sufficient
      rw [peeked]

/-- User mode writes nothing. -/
theorem write_user (number : CsrNumber) (value : Word x) (file : CsrFile x) :
    ∃ error, write number value .user file = .error error file := by
  cases written : write number value .user file with
  | ok result after =>
      obtain ⟨csr, -, sufficient, writable, -⟩ := exists_of_write written
      exact absurd (Csr.readOnly_of_user sufficient) writable
  | error error after =>
      obtain rfl := write_error written
      exact ⟨error, rfl⟩

end CsrFile

namespace Hart

open Execution

variable {x : Xlen} {left right : Hart x}

/-- Harts that look the same to a program in user mode, apart from the program counter. -/
structure SameView (left right : Hart x) : Prop where
  registers : left.registers = right.registers
  memory : left.memory = right.memory
  cycles : left.csrs.cycles = right.csrs.cycles
  retired : left.csrs.retired = right.csrs.retired

/-- Harts in user mode that look the same and wait for no interrupt. -/
structure UserAlike (left right : Hart x) : Prop extends SameView left right where
  config : left.config = right.config
  pc : left.pc = right.pc
  leftMode : left.mode = .user
  rightMode : right.mode = .user
  leftQuiet : left.csrs.interrupts.pending &&& left.csrs.interrupts.enabled = 0
  rightQuiet : right.csrs.interrupts.pending &&& right.csrs.interrupts.enabled = 0

/-- Answers of harts that look the same: the outcomes are equal, the harts still look the same, and
they are still alike unless there was a trap. -/
structure SameAnswer (left right : Outcome x × Hart x) : Prop where
  outcome : left.1 = right.1
  view : SameView left.2 right.2
  alike : left.1 = .retired → UserAlike left.2 right.2

/-- Harts that are alike have the same future but for what other control registers hold. -/
theorem UserAlike.eq_withCsrs (alike : UserAlike left right) :
    right = withCsrs right.csrs left := by
  obtain ⟨⟨registers, memory, -, -⟩, config, pc, leftMode, rightMode, -, -⟩ := alike
  cases left
  cases right
  simp only at registers memory config pc leftMode rightMode
  subst registers memory config pc leftMode rightMode
  rfl

theorem interrupt?_eq_none {hart : Hart x}
    (quiet : hart.csrs.interrupts.pending &&& hart.csrs.interrupts.enabled = 0) :
    hart.interrupt? = none := by
  rw [interrupt?, Interrupts.highest?_eq_none quiet, ite_self]

theorem changeCsr_user {hart : Hart x} {csrs : CsrFile x} (user : hart.mode = .user)
    (cycles : hart.csrs.cycles = csrs.cycles) (retired : hart.csrs.retired = csrs.retired)
    (op : CsrOp) (dest : Register) (operand : CsrOperand) (number : CsrNumber)
    (bits : InstructionBits) :
    changeCsr op dest operand number bits (withCsrs csrs hart) =
      carry (withCsrs csrs) (changeCsr op dest operand number bits hart) := by
  have mode : (withCsrs csrs hart).mode = .user := user
  have reads : (withCsrs csrs hart).csrs.read number .user = hart.csrs.read number .user :=
    (CsrFile.read_user cycles retired number).symm
  simp only [changeCsr_apply, mode, user, reads]
  cases (if op = .csrrw ∧ dest = 0 then .ok 0 else hart.csrs.read number .user :
    Except AccessError (Word x)) with
  | error error => rfl
  | ok old =>
      by_cases writes : op = .csrrw ∨ operand.field ≠ 0
      · have value : operandValue (withCsrs csrs hart).registers operand =
            operandValue hart.registers operand := rfl
        obtain ⟨_, fails⟩ := CsrFile.write_user number
          (op.eval old (operandValue hart.registers operand)) hart.csrs
        obtain ⟨_, fails'⟩ := CsrFile.write_user number
          (op.eval old (operandValue hart.registers operand)) (withCsrs csrs hart).csrs
        simp only [if_pos writes, value, fails, fails']
        rfl
      · simp only [if_neg writes]
        rfl

theorem execute_user {hart : Hart x} {csrs : CsrFile x} (user : hart.mode = .user)
    (cycles : hart.csrs.cycles = csrs.cycles) (retired : hart.csrs.retired = csrs.retired)
    (pc : Word x) (bits : InstructionBits) (instruction : Instruction) :
    execute pc bits instruction (withCsrs csrs hart) =
      carry (withCsrs csrs) (execute pc bits instruction hart) := by
  by_cases plain : instruction.usesCsrs = false
  · exact execute_pcFrame (pcFrame_withCsrs csrs _) plain pc bits hart
  · cases instruction with
    | csr op dest operand number => exact changeCsr_user user cycles retired ..
    | mret =>
        have low : hart.mode < .machine := by rw [user]; decide
        rw [execute_mret, execute_mret, if_pos low]
        exact if_pos low
    | sret =>
        have low : hart.mode < .supervisor := by rw [user]; decide
        rw [execute_sret, execute_sret, if_pos low]
        exact if_pos low
    | _ => exact absurd rfl plain

theorem UserAlike.same_trapped (alike : UserAlike left right) (cause : Cause) (value : Word x) :
    SameAnswer (left.trapped cause value) (right.trapped cause value) where
  outcome := by rw [trapped, trapped, alike.pc]
  view :=
    { registers := alike.registers
      memory := alike.memory
      cycles := congrArg (· + 1) alike.cycles
      retired := alike.retired }
  alike retires := by cases retires

theorem UserAlike.same_retire (alike : UserAlike left right) {after : Hart x}
    (mode : after.mode = .user) (csrs : after.csrs = left.csrs) :
    SameAnswer (.retired, after.retire) (.retired, (withCsrs right.csrs after).retire) := by
  have cycles : after.csrs.cycles = right.csrs.cycles := by rw [csrs, alike.cycles]
  have retired : after.csrs.retired = right.csrs.retired := by rw [csrs, alike.retired]
  have quiet : after.csrs.interrupts.pending &&& after.csrs.interrupts.enabled = 0 := by
    rw [csrs, alike.leftQuiet]
  have view : SameView after.retire (withCsrs right.csrs after).retire :=
    { registers := rfl
      memory := rfl
      cycles := congrArg (· + 1) cycles
      retired := congrArg (· + 1) retired }
  exact
    { outcome := rfl
      view
      alike := fun _ =>
        { view with
          config := rfl
          pc := rfl
          leftMode := mode
          rightMode := mode
          leftQuiet := quiet
          rightQuiet := alike.rightQuiet } }

theorem UserAlike.same_perform (alike : UserAlike left right) (bits : InstructionBits) :
    SameAnswer (left.perform bits) (right.perform bits) := by
  have decoded : right.decode? bits = left.decode? bits := by
    rw [alike.eq_withCsrs]
    rfl
  have advances : right.advanced bits = withCsrs right.csrs (left.advanced bits) := by
    conv => lhs; rw [alike.eq_withCsrs]
    rfl
  have executes : ∀ instruction, execute right.pc bits instruction (right.advanced bits) =
      carry (withCsrs right.csrs) (execute left.pc bits instruction (left.advanced bits)) := by
    intro instruction
    have mode : (left.advanced bits).mode = .user := alike.leftMode
    rw [advances, alike.pc]
    exact execute_user mode alike.cycles alike.retired right.pc bits instruction
  rw [perform_eq, perform_eq, decoded]
  cases left.decode? bits with
  | none => exact alike.same_trapped _ _
  | some instruction =>
      simp only [executes]
      cases completes : execute left.pc bits instruction (left.advanced bits) with
      | error fault after => exact alike.same_trapped _ _
      | ok result after =>
          obtain ⟨mode, csrs⟩ := (contained_of_execute completes).user alike.leftMode
          rw [CsrFile.counted_zero] at csrs
          exact alike.same_retire mode csrs

/-- Harts that are alike give the same answer to every call. -/
theorem UserAlike.same_answer (alike : UserAlike left right) (call : Call) :
    SameAnswer (left.answer call) (right.answer call) := by
  cases call with
  | perform bits => exact alike.same_perform bits
  | step =>
      have fetched : right.fetch right.pc = left.fetch left.pc := by
        rw [alike.eq_withCsrs]
        rfl
      simp only [answer, step_eq, interrupt?_eq_none alike.leftQuiet,
        interrupt?_eq_none alike.rightQuiet, fetched]
      cases left.fetch left.pc with
      | error fault => exact alike.same_trapped _ _
      | ok bits => exact alike.same_perform bits

theorem UserAlike.follow (alike : UserAlike left right) {calls : List Call}
    (retire : ∀ event ∈ history calls left, event.outcome = .retired) :
    (history calls left).map (·.outcome) = (history calls right).map (·.outcome) ∧
      UserAlike (follow calls left) (follow calls right) := by
  induction calls generalizing left right with
  | nil => exact ⟨rfl, alike⟩
  | cons call calls ih =>
      rw [history, List.forall_mem_cons] at retire
      have same := alike.same_answer call
      obtain ⟨outcomes, remain⟩ := ih (same.alike retire.1) retire.2
      refine ⟨?_, remain⟩
      rw [history, history, List.map_cons, List.map_cons, outcomes]
      exact congrArg (· :: _) same.outcome

/-- What a program in user mode can see does not depend on the control registers other than the
counters: as long as one hart does not trap, the other one does the same, and the first trap has the
same cause, address and value in both. -/
theorem user_noninterference (alike : UserAlike left right) (calls : List Call) (call : Call)
    (retire : ∀ event ∈ history calls left, event.outcome = .retired) :
    (history calls left).map (·.outcome) = (history calls right).map (·.outcome) ∧
      UserAlike (follow calls left) (follow calls right) ∧
      SameAnswer ((follow calls left).answer call) ((follow calls right).answer call) := by
  obtain ⟨outcomes, remain⟩ := alike.follow retire
  exact ⟨outcomes, remain, remain.same_answer call⟩

/-- A program that asks for the machine's scratch register learns nothing about it. -/
theorem user_noninterference_scratch :
    let left : Hart .rv32 := { initial { memorySize := 0 } with mode := .user }
    let right : Hart .rv32 := withCsrs (left.csrs.setScratch .machine 7) left
    let calls : List Call := [.perform (.long 0x00100093)]
    let call : Call := .perform (.long 0x340020F3)
    left.csrs.machine.scratch ≠ right.csrs.machine.scratch ∧
      (∀ event ∈ history calls left, event.outcome = .retired) ∧
      SameAnswer ((follow calls left).answer call) ((follow calls right).answer call) := by
  intro left right calls call
  have alike : UserAlike left right :=
    { registers := rfl
      memory := rfl
      cycles := rfl
      retired := rfl
      config := rfl
      pc := rfl
      leftMode := rfl
      rightMode := rfl
      leftQuiet := by decide
      rightQuiet := by decide }
  have retire : ∀ event ∈ history calls left, event.outcome = .retired := by
    intro event member
    rw [List.mem_singleton.mp member]
    decide
  exact ⟨by decide, retire, (user_noninterference alike calls call retire).2.2⟩

end Hart

end RiscV
