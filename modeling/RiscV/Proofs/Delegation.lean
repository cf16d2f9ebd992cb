import RiscV.Proofs.Frame
import RiscV.Proofs.LockStep
import RiscV.Proofs.TrapEntry

/-!
# Delegation has no effect

All traps go to machine mode.  What is marked as delegated, where supervisor mode would handle its
traps, and what both modes have noted about a trap is kept for software that asks for it, but
nothing else depends on it.  So two harts that differ in these registers only go in lock step, as
long as no instruction names one of them.
-/

namespace RiscV

namespace Csr

/-- Whether only instructions that name the register depend on it. -/
def isPassive : Csr → Bool
  | medeleg | mideleg | mscratch | mcause | mtval | stvec | sscratch | scause | stval => true
  | _ => false

end Csr

namespace Instruction

/-- The instruction names a register on which nothing else depends. -/
def NamesPassive : Instruction → Prop
  | csr _ _ _ number => ∃ csr : Csr, csr.isPassive = true ∧ csr.number = number.setWidth 16
  | _ => False

end Instruction

namespace CsrFile

variable {x : Xlen}

/-- The file with the registers on which nothing else depends taken from another one. -/
def withPassive (file other : CsrFile x) : CsrFile x :=
  { file with
    medeleg := other.medeleg
    mideleg := other.mideleg
    machine :=
      { file.machine with
        scratch := other.machine.scratch
        cause := other.machine.cause
        value := other.machine.value }
    supervisor := { other.supervisor with epc := file.supervisor.epc } }

variable {file other : CsrFile x} {csr : Csr} {number : CsrNumber}

theorem peek?_withPassive (active : csr.isPassive = false) :
    (file.withPassive other).peek? csr = file.peek? csr := by
  cases csr with
  | medeleg | mideleg | mscratch | mcause | mtval | stvec | sscratch | scause | stval =>
      cases active
  | _ => rfl

theorem assign?_withPassive (active : csr.isPassive = false) (value : Word x) :
    (file.withPassive other).assign? csr value =
      (file.assign? csr value).map (·.withPassive other) := by
  cases csr with
  | medeleg | mideleg | mscratch | mcause | mtval | stvec | sscratch | scause | stval =>
      cases active
  | mcycleh | minstreth =>
      simp only [assign?]
      split <;> rfl
  | _ => rfl

theorem read_withPassive (active : ∀ csr : Csr, csr.number = number → csr.isPassive = false)
    (level : Privilege) : (file.withPassive other).read number level = file.read number level := by
  have peeked : (file.withPassive other).peekNumber? number = file.peekNumber? number := by
    unfold peekNumber?
    cases named : Csr.ofNumber? number with
    | none => rfl
    | some csr => exact peek?_withPassive (active csr (Csr.number_of_ofNumber? named))
  rw [read, read, peeked]

theorem write_withPassive (active : ∀ csr : Csr, csr.number = number → csr.isPassive = false)
    (value : Word x) (level : Privilege) :
    write number value level (file.withPassive other) =
      match write number value level file with
      | .ok _ after => .ok () (after.withPassive other)
      | .error error after => .error error (after.withPassive other) := by
  have assigned : (Csr.ofNumber? number).bind ((file.withPassive other).assign? · value) =
      ((Csr.ofNumber? number).bind (file.assign? · value)).map (·.withPassive other) := by
    cases named : Csr.ofNumber? number with
    | none => rfl
    | some csr => exact assign?_withPassive (active csr (Csr.number_of_ofNumber? named)) value
  simp only [write, assigned]
  cases checkAccess number level with
  | error error => rfl
  | ok =>
      by_cases readOnly : number.ReadOnly
      · simp only [if_pos readOnly]
      · simp only [if_neg readOnly]
        cases (Csr.ofNumber? number).bind (file.assign? · value) <;> rfl

end CsrFile

namespace Execution

variable {x : Xlen}

theorem matches_carry {related : Hart x → Hart x → Prop} {change : Hart x → Hart x}
    (changed : ∀ hart, related hart (change hart))
    (result : EStateM.Result (Fault x) (Hart x) Unit) :
    Matches related result (carry change result) := by
  cases result with
  | ok _ after => exact changed after
  | error fault after => exact ⟨rfl, changed after⟩

end Execution

namespace Hart

open Execution

variable {x : Xlen} {hart left right : Hart x} {other : CsrFile x}

/-- The hart with the control registers on which nothing else depends taken from a file. -/
def withPassive (hart : Hart x) (other : CsrFile x) : Hart x :=
  { hart with csrs := hart.csrs.withPassive other }

/-- The harts are equal but for control registers on which nothing else depends. -/
def SameButPassive (left right : Hart x) : Prop := ∃ other, right = left.withPassive other

theorem pcFrame_withPassive (other : CsrFile x) (named : List Register) :
    PcFrame (fun hart : Hart x => hart.withPassive other) named where
  alignment _ := rfl
  misaligned _ := rfl
  mode _ := rfl
  memory _ := rfl
  setMemory _ _ := rfl
  read _ _ _ := rfl
  setRegister _ _ _ _ := rfl
  pc _ := rfl
  setPc _ _ := rfl

theorem changeCsr_withPassive {op : CsrOp} {dest : Register} {operand : CsrOperand}
    {number : CsrNumber} (active : ∀ csr : Csr, csr.number = number → csr.isPassive = false)
    (bits : InstructionBits) :
    changeCsr op dest operand number bits (hart.withPassive other) =
      carry (·.withPassive other) (changeCsr op dest operand number bits hart) := by
  have mode : (hart.withPassive other).mode = hart.mode := rfl
  have value : operandValue (hart.withPassive other).registers operand =
      operandValue hart.registers operand := rfl
  have reads : (hart.withPassive other).csrs.read number hart.mode =
      hart.csrs.read number hart.mode := CsrFile.read_withPassive active hart.mode
  have writes (new : Word x) :
      CsrFile.write number new hart.mode (hart.withPassive other).csrs = _ :=
    CsrFile.write_withPassive active new hart.mode
  simp only [changeCsr_apply, mode, value, reads, writes]
  cases (if op = .csrrw ∧ dest = 0 then .ok 0 else hart.csrs.read number hart.mode :
    Except AccessError (Word x)) with
  | error error => rfl
  | ok old =>
      by_cases replaces : op = .csrrw ∨ operand.field ≠ 0
      · simp only [if_pos replaces]
        cases CsrFile.write number (op.eval old (operandValue hart.registers operand)) hart.mode
          hart.csrs <;> rfl
      · simp only [if_neg replaces]
        rfl

theorem execute_withPassive {instruction : Instruction} (active : ¬ instruction.NamesPassive)
    (pc : Word x) (bits : InstructionBits) :
    execute pc bits instruction (hart.withPassive other) =
      carry (·.withPassive other) (execute pc bits instruction hart) := by
  have mode : (hart.withPassive other).mode = hart.mode := rfl
  by_cases plain : instruction.usesCsrs = false
  · exact execute_pcFrame (pcFrame_withPassive other _) plain pc bits hart
  · cases instruction with
    | csr op dest operand number =>
        refine changeCsr_withPassive (fun csr named => ?_) bits
        exact Bool.eq_false_iff.mpr fun passive => active ⟨csr, passive, named⟩
    | mret =>
        rw [execute_mret, execute_mret, mode]
        split <;> rfl
    | sret =>
        rw [execute_sret, execute_sret, mode]
        split <;> rfl
    | _ => exact absurd rfl plain

namespace SameButPassive

theorem lockStep :
    LockStep (SameButPassive (x := x)) fun instruction => ¬ instruction.NamesPassive where
  pc := by
    rintro left _ ⟨other, rfl⟩
    rfl
  dispatch := by
    rintro left _ ⟨other, rfl⟩ call -
    cases call <;> rfl
  advanced := by
    rintro left _ ⟨other, rfl⟩ bits
    exact ⟨other, rfl⟩
  execute := by
    rintro left _ ⟨other, rfl⟩ instruction active pc bits
    rw [execute_withPassive active]
    exact matches_carry (fun hart => ⟨other, rfl⟩) _
  retire := by
    rintro left _ ⟨other, rfl⟩
    exact ⟨other, rfl⟩
  trapped := by
    rintro left _ ⟨other, rfl⟩ cause value
    -- The trap notes its cause and value in both harts.
    exact ⟨((left.withPassive other).trapped cause value).2.csrs, rfl⟩

end SameButPassive

/-- A trap out of any mode goes on in machine mode, at the handler of machine mode. -/
theorem handled_of_mem_history {calls : List Call} {event : Event x}
    (member : event ∈ history calls hart) {cause : Cause} {epc value : Word x}
    (traps : event.outcome = .trap cause epc value) :
    event.after.mode = .machine ∧ event.after.pc = event.before.handlerAddress cause := by
  obtain ⟨call, answered⟩ := answer_of_mem_history member
  rw [traps] at answered
  have entered : event.after = (event.before.trapped cause value).2 :=
    congrArg Prod.snd (eq_trapped answered).2
  rw [entered]
  exact ⟨rfl, trapped_pc event.before cause value⟩

/-- Harts that differ only in the marks of delegation, the handler of supervisor mode and the notes
about traps give the same answers, and go on to differ only in these registers, as long as no
instruction names one of them.  All traps, whatever mode they come from, go to machine mode and to
the handler that its own vector gives. -/
theorem passive_registers_inert (same : left.SameButPassive right) {calls : List Call}
    (active : ∀ execution ∈ executions calls left, ¬ execution.1.NamesPassive) :
    (history calls left).map (·.outcome) = (history calls right).map (·.outcome) ∧
      (follow calls left).SameButPassive (follow calls right) ∧
      ∀ event ∈ history calls left ++ history calls right, ∀ cause epc value,
        event.outcome = .trap cause epc value →
          event.after.mode = .machine ∧ event.after.pc = event.before.handlerAddress cause := by
  obtain ⟨outcomes, remains⟩ := SameButPassive.lockStep.follow same active
  refine ⟨outcomes, remains, fun event member cause epc value traps => ?_⟩
  rcases List.mem_append.mp member with ofLeft | ofRight
  · exact handled_of_mem_history ofLeft traps
  · exact handled_of_mem_history ofRight traps

/-- A call out of user mode and the return from it do not depend on whether the call is marked as
delegated. -/
theorem passive_registers_inert_call :
    let left : Hart .rv32 :=
      { initial { memorySize := 0 } with
        csrs := (CsrFile.initial true).setVector .machine 0x40
        mode := .user }
    let right : Hart .rv32 :=
      left.withPassive
        { (CsrFile.initial true).setVector .supervisor 0x80 with
          medeleg := 0xB3FF
          mideleg := 0x222 }
    let calls : List Call := [.perform (.long 0x00000073), .perform (.long 0x30200073)]
    left.SameButPassive right ∧
      (∀ execution ∈ executions calls left, ¬ execution.1.NamesPassive) ∧
      (history calls left).map (·.outcome) = [.trap (.exception .userCall) 0 0, .retired] ∧
      (history calls left).map (·.outcome) = (history calls right).map (·.outcome) ∧
      (follow calls left).SameButPassive (follow calls right) ∧
      (right.answer (.perform (.long 0x00000073))).2.pc = 0x40 := by
  intro left right calls
  have same : left.SameButPassive right := ⟨_, rfl⟩
  have executed : executions calls left =
      [(.ecall, .trap (.exception .userCall) 0 0), (.mret, .retired)] := by decide
  have active : ∀ execution ∈ executions calls left, ¬ execution.1.NamesPassive := by
    intro execution member
    rw [executed, List.mem_cons, List.mem_singleton] at member
    rcases member with rfl | rfl <;> exact id
  obtain ⟨outcomes, remains, handled⟩ := passive_registers_inert same active
  have first : ⟨right, (right.answer (.perform (.long 0x00000073))).1,
      (right.answer (.perform (.long 0x00000073))).2⟩ ∈
        history calls left ++ history calls right :=
    List.mem_append_right _ List.mem_cons_self
  have traps : (right.answer (.perform (.long 0x00000073))).1 =
      .trap (.exception .userCall) 0 0 := by decide
  have reached := (handled _ first _ _ _ traps).2
  exact ⟨same, active, by decide, outcomes, remains, reached.trans (by decide)⟩

end Hart

end RiscV
