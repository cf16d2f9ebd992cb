import RiscV.Proofs.Effect

/-!
# Frames

A change of the hart that an instruction cannot notice commutes with executing it: the instruction
has the same result on the changed hart, and the change carries over to the hart afterwards.  An
instruction sees the registers that it names, and only jumps and branches see the program counter.
-/

namespace RiscV

namespace Execution

variable {x : Xlen}

/-- The result of an action with a change of the hart it ends in. -/
def carry {α : Type} (change : Hart x → Hart x) :
    EStateM.Result (Fault x) (Hart x) α → EStateM.Result (Fault x) (Hart x) α
  | .ok result after => .ok result (change after)
  | .error fault after => .error fault (change after)

/-- A change that cannot be noticed through the named registers, except in the program counter and
the control registers. -/
structure Frame (change : Hart x → Hart x) (named : List Register) : Prop where
  alignment : ∀ hart, (change hart).config.alignment = hart.config.alignment
  misaligned : ∀ hart, (change hart).config.misaligned = hart.config.misaligned
  mode : ∀ hart, (change hart).mode = hart.mode
  memory : ∀ hart, (change hart).memory = hart.memory
  setMemory : ∀ hart memory, { change hart with memory } = change { hart with memory }
  read : ∀ hart, ∀ register ∈ named,
    (change hart).registers.read register = hart.registers.read register
  setRegister : ∀ hart, ∀ register ∈ named, ∀ value,
    (change hart).setRegister register value = change (hart.setRegister register value)

/-- A change that cannot be noticed through the named registers, except in the control
registers. -/
structure PcFrame (change : Hart x → Hart x) (named : List Register) : Prop
    extends Frame change named where
  pc : ∀ hart, (change hart).pc = hart.pc
  setPc : ∀ hart target, (change hart).setPc target = change (hart.setPc target)

end Execution

namespace Instruction

/-- Whether the instruction can go on elsewhere than behind itself. -/
def isTransfer : Instruction → Bool
  | jal .. | jalr .. | branch .. => true
  | _ => false

end Instruction

namespace Hart

open Execution

variable {x : Xlen} {change : Hart x → Hart x} {instruction : Instruction}

theorem execute_frame (frame : Frame change instruction.registers)
    (straight : instruction.isTransfer = false) (plain : instruction.usesCsrs = false)
    (pc : Word x) (bits : InstructionBits) (hart : Hart x) :
    execute pc bits instruction (change hart) =
      carry change (execute pc bits instruction hart) := by
  have read := frame.read hart
  have setRegister := frame.setRegister hart
  cases instruction with
  | jal | jalr | branch => cases straight
  | csr | mret | sret => cases plain
  | immediate | shift | immediateWord | shiftWord | auipc | lui | register | registerWord =>
      simp_all [execute, bind_apply, Instruction.registers, carry]
  | load op dest base offset =>
      rw [execute_load, execute_load, read base (by simp [Instruction.registers]),
        frame.memory, frame.misaligned]
      split
      · split
        · rw [setRegister dest (by simp [Instruction.registers])]
          rfl
        · rfl
      · rfl
  | store op src base offset =>
      simp only [execute, bind_apply, readRegister_apply, store_apply,
        read src (by simp [Instruction.registers]), read base (by simp [Instruction.registers]),
        frame.memory, frame.misaligned, frame.setMemory]
      split
      · split <;> rfl
      · rfl
  | fence | fenceI | ebreak => rfl
  | ecall =>
      simp only [execute, call_apply, frame.mode]
      rfl
  | wfi =>
      simp only [execute, requireMode_apply, frame.mode]
      split <;> rfl

theorem execute_pcFrame (frame : PcFrame change instruction.registers)
    (plain : instruction.usesCsrs = false) (pc : Word x) (bits : InstructionBits)
    (hart : Hart x) :
    execute pc bits instruction (change hart) =
      carry change (execute pc bits instruction hart) := by
  by_cases straight : instruction.isTransfer = false
  · exact execute_frame frame.toFrame straight plain pc bits hart
  · have read := frame.read hart
    have setRegister := frame.setRegister hart
    cases instruction with
    | jal dest offset =>
        simp only [execute, jump_apply, frame.alignment, frame.pc,
          setRegister dest (by simp [Instruction.registers]), frame.setPc]
        split <;> rfl
    | jalr dest base offset =>
        simp only [execute, bind_apply, readRegister_apply, jump_apply, frame.alignment, frame.pc,
          read base (by simp [Instruction.registers]),
          setRegister dest (by simp [Instruction.registers]), frame.setPc]
        split <;> rfl
    | branch condition left right offset =>
        simp only [execute, bind_apply, readRegister_apply, branch_apply, frame.alignment,
          read left (by simp [Instruction.registers]),
          read right (by simp [Instruction.registers]), frame.setPc]
        split
        · rfl
        · split <;> rfl
    | _ => exact absurd rfl straight

/-- The program counter matters to jumps and branches only. -/
theorem frame_setPc (target : Word x) (named : List Register) :
    Frame (fun hart : Hart x => hart.setPc target) named where
  alignment _ := rfl
  misaligned _ := rfl
  mode _ := rfl
  memory _ := rfl
  setMemory _ _ := rfl
  read _ _ _ := rfl
  setRegister _ _ _ _ := rfl

/-- The hart with other control registers. -/
def withCsrs (csrs : CsrFile x) (hart : Hart x) : Hart x := { hart with csrs }

/-- The control registers matter only to the instructions on them. -/
theorem pcFrame_withCsrs (csrs : CsrFile x) (named : List Register) :
    PcFrame (withCsrs csrs) named where
  alignment _ := rfl
  misaligned _ := rfl
  mode _ := rfl
  memory _ := rfl
  setMemory _ _ := rfl
  read _ _ _ := rfl
  setRegister _ _ _ _ := rfl
  pc _ := rfl
  setPc _ _ := rfl

end Hart

end RiscV
