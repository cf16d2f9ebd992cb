import RiscV.Hart.Arithmetic
import RiscV.Hart.Basic
import RiscV.Instruction.Bits

/-!
# Execution of instructions

The effect of each instruction on a hart whose program counter already points behind it.  An
instruction either has its whole effect or ends in a fault.  The state survives a fault, and every
check comes before the first change, so a faulting instruction leaves no trace.
-/

namespace RiscV

/-- An action of a hart that may end in a fault. -/
abbrev Execution (x : Xlen) := EStateM (Fault x) (Hart x)

namespace Execution

variable {x : Xlen}

/-- Ends in a fault. -/
def raise {α : Type} (exception : Exception) (value : Word x) : Execution x α :=
  throw ⟨exception, value⟩

/-- The contents of a register. -/
def readRegister (register : Register) : Execution x (Word x) := do
  return (← get).registers.read register

/-- Changes the contents of a register. -/
def writeRegister (register : Register) (value : Word x) : Execution x Unit :=
  modify (·.setRegister register value)

/-- Ends in a fault below the given mode. -/
def requireMode (mode : Privilege) (bits : InstructionBits) : Execution x Unit := do
  if (← get).mode < mode then raise .illegalInstruction bits.value

/-- Ends in a fault unless there can be instructions at the address. -/
def requireTarget (target : Word x) : Execution x Unit := do
  if ¬ (← get).config.alignment.Aligned target.toNat then
    raise .instructionAddressMisaligned target

/-- Jumps to an address and leaves that of the next instruction in a register. -/
def jump (dest : Register) (target : Word x) : Execution x Unit := do
  requireTarget target
  modify fun hart => (hart.setRegister dest hart.pc).setPc target

/-- Goes on at an address if a condition holds. -/
def branch (taken : Bool) (target : Word x) : Execution x Unit := do
  if taken then
    requireTarget target
    modify (·.setPc target)

/-- Ends in a fault if an access is misaligned and the hart does not support that. -/
def requireAligned (size : AccessSize) (address : Word x) (exception : Exception) :
    Execution x Unit := do
  if ¬ (← get).config.misaligned ∧ ¬ size.Aligned address.toNat then raise exception address

/-- Loads a number from memory. -/
def load (size : AccessSize) (address : Word x) : Execution x (BitVec (8 * size.bytes)) := do
  requireAligned size address .loadAddressMisaligned
  match (← get).memory.load size address.toNat with
  | .ok value => return value
  | .error _ => raise .loadAccessFault address

/-- Stores a number in memory. -/
def store (size : AccessSize) (address : Word x) (value : BitVec (8 * size.bytes)) :
    Execution x Unit := do
  requireAligned size address .storeAddressMisaligned
  EStateM.adaptExcept (fun _ => ⟨.storeAccessFault, address⟩)
    (Hart.onMemory (Memory.store size address.toNat value))

/-- Asks the execution environment for a service. -/
def call : Execution x Unit := do
  match (← get).mode with
  | .user => raise .userCall 0
  | .supervisor => raise .supervisorCall 0
  | .machine => raise .machineCall 0

/-- Returns from a trap into machine mode. -/
def returnFromMachine (bits : InstructionBits) : Execution x Unit := do
  requireMode .machine bits
  modify fun hart =>
    { hart.setStatus hart.csrs.status.leave with
      mode := hart.csrs.status.mpp
      pc := hart.csrs.machine.epc }

/-- Returns from a trap into supervisor mode. -/
def returnFromSupervisor (bits : InstructionBits) : Execution x Unit := do
  requireMode .supervisor bits
  modify fun hart =>
    { hart.setStatus hart.csrs.status.leaveSupervisor with
      mode := hart.csrs.status.spp
      pc := hart.csrs.supervisor.epc }

/-- The operand of a control register instruction. -/
def readOperand : CsrOperand → Execution x (Word x)
  | .register source => readRegister source
  | .immediate value => return value.setWidth x.bits

/-- The contents of a control register, as far as the mode may read it. -/
def readCsr (number : CsrNumber) (fault : Fault x) : Execution x (Word x) := do
  let hart ← get
  match hart.csrs.read number hart.mode with
  | .ok value => return value
  | .error _ => throw fault

/-- Changes a control register, as far as the mode may write it. -/
def writeCsr (number : CsrNumber) (value : Word x) (fault : Fault x) : Execution x Unit := do
  let mode := (← get).mode
  EStateM.adaptExcept (fun _ => fault) (Hart.onCsrs (CsrFile.write number value mode))

/-- Reads a control register, changes it and leaves its old contents in a register.  An exchange
does not read if nobody sees what it reads, and the other changes do not write if the operand is
named as zero. -/
def changeCsr (op : CsrOp) (dest : Register) (operand : CsrOperand) (number : CsrNumber)
    (bits : InstructionBits) : Execution x Unit := do
  let fault : Fault x := ⟨.illegalInstruction, bits.value⟩
  let value ← readOperand operand
  let old ← if op = .csrrw ∧ dest = 0 then pure 0 else readCsr number fault
  if op = .csrrw ∨ operand.field ≠ 0 then writeCsr number (op.eval old value) fault
  writeRegister dest old

end Execution

namespace Hart

open Execution

variable {x : Xlen}

/-- The effect of the instruction at `pc`, whose bits are given for the report of a fault. -/
def execute (pc : Word x) (bits : InstructionBits) : Instruction → Execution x Unit
  | .immediate op dest src value => do
      writeRegister dest (op.eval (← readRegister src) (value.signExtend x.bits))
  | .shift op dest src amount => do
      writeRegister dest (op.eval (← readRegister src) (amount.toNat % x.bits))
  | .immediateWord dest src value => do
      let word := (← readRegister src).setWidth 32 + value.signExtend 32
      writeRegister dest (word.signExtend x.bits)
  | .shiftWord op dest src amount => do
      let word := op.eval ((← readRegister src).setWidth 32) amount.toNat
      writeRegister dest (word.signExtend x.bits)
  | .auipc dest upper => writeRegister dest (pc + (upper ++ 0#12).signExtend x.bits)
  | .lui dest upper => writeRegister dest ((upper ++ 0#12).signExtend x.bits)
  | .register op dest left right => do
      writeRegister dest (op.eval (← readRegister left) (← readRegister right))
  | .registerWord op dest left right => do
      writeRegister dest (op.eval (← readRegister left) (← readRegister right))
  | .jal dest offset => jump dest (pc + (Instruction.bytes offset).signExtend x.bits)
  | .jalr dest base offset => do
      jump dest (((← readRegister base) + offset.signExtend x.bits) &&& ~~~1)
  | .branch condition left right offset => do
      let taken := condition.holds (← readRegister left) (← readRegister right)
      branch taken (pc + (Instruction.bytes offset).signExtend x.bits)
  | .load op dest base offset => do
      let value ← load op.size ((← readRegister base) + offset.signExtend x.bits)
      writeRegister dest (op.extend value)
  | .store op src base offset => do
      let value ← readRegister src
      store op.size ((← readRegister base) + offset.signExtend x.bits) (value.setWidth _)
  | .fence _ _ | .fenceI => pure ()
  | .csr op dest operand number => changeCsr op dest operand (number.setWidth 16) bits
  | .ecall => call
  | .ebreak => raise .breakpoint 0
  | .mret => returnFromMachine bits
  | .sret => returnFromSupervisor bits
  | .wfi => requireMode .supervisor bits

end Hart

end RiscV
