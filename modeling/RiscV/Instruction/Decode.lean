import RiscV.Instruction.Code
import RiscV.Instruction.Format

/-!
# Decoding

A word is decoded by its opcode, then by its function codes.  Fields that a fence does not use are
ignored; every other instruction is accepted only in its canonical word.
-/

namespace RiscV

/-- Why a word is no instruction. -/
inductive DecodeError where
  /-- The major opcode is not known. -/
  | unsupportedOpcode
  /-- The opcode is known, and the other fields form no instruction. -/
  | illegal
  deriving DecidableEq, Repr

namespace DecodeError

/-- The report of a word that is no instruction. -/
def message : DecodeError → String
  | unsupportedOpcode => "instruction has unsupported opcode"
  | illegal => "illegal instruction"

end DecodeError

namespace Instruction

open Format

/-- A shift by an immediate amount, which has to be below the width of a register. -/
def decodeShift? (x : Xlen) (word : BitVec 32) : Option Instruction :=
  if (shamt6 word).toNat < x.bits then
    (ShiftOp.ofFunct? (funct6 word) (funct3 word)).map fun op =>
      shift op (rd word) (rs1 word) (shamt6 word)
  else none

/-- An operation with an immediate. -/
def decodeImmediate? (x : Xlen) (word : BitVec 32) : Option Instruction :=
  match ImmediateOp.ofFunct3? (funct3 word) with
  | some op => some (immediate op (rd word) (rs1 word) (immI word))
  | none => decodeShift? x word

/-- An operation on a low word with an immediate. -/
def decodeImmediateWord? (word : BitVec 32) : Option Instruction :=
  if funct3 word = 0 then some (immediateWord (rd word) (rs1 word) (immI word))
  else if word.extractLsb' 25 1 = 0 then
    (ShiftOp.ofFunct? (funct6 word) (funct3 word)).map fun op =>
      shiftWord op (rd word) (rs1 word) (shamt5 word)
  else none

/-- A fence. -/
def decodeFence? (word : BitVec 32) : Option Instruction :=
  if funct3 word = 0 then
    some (fence (FenceSet.ofBits (word.extractLsb' 24 4)) (FenceSet.ofBits (word.extractLsb' 20 4)))
  else if funct3 word = 1 then some fenceI
  else none

/-- An instruction without operands. -/
def decodeSystem? (word : BitVec 32) : Option Instruction :=
  if rd word = 0 ∧ rs1 word = 0 then
    if immI word = 0x000 then some ecall
    else if immI word = 0x001 then some ebreak
    else if immI word = 0x102 then some sret
    else if immI word = 0x302 then some mret
    else if immI word = 0x105 then some wfi
    else none
  else none

/-- A change of a control register. -/
def decodeCsr? (word : BitVec 32) : Option Instruction :=
  (CsrOp.ofCode? ((funct3 word).extractLsb' 0 2)).map fun op =>
    csr op (rd word) (CsrOperand.ofField ((funct3 word).extractLsb' 2 1) (rs1 word)) (immI word)

/-- The instruction of a word whose opcode is known. -/
def decodeFields? (x : Xlen) (word : BitVec 32) : Opcode → Option Instruction
  | .opImm => decodeImmediate? x word
  | .opImm32 => decodeImmediateWord? word
  | .auipc => some (auipc (rd word) (immU word))
  | .lui => some (lui (rd word) (immU word))
  | .op =>
      (RegisterOp.ofFunct? (funct7 word) (funct3 word)).map fun op =>
        register op (rd word) (rs1 word) (rs2 word)
  | .op32 =>
      (WordOp.ofFunct? (funct7 word) (funct3 word)).map fun op =>
        registerWord op (rd word) (rs1 word) (rs2 word)
  | .jal => some (jal (rd word) (immJ word))
  | .jalr => if funct3 word = 0 then some (jalr (rd word) (rs1 word) (immI word)) else none
  | .branch =>
      (Condition.ofFunct3? (funct3 word)).map fun condition =>
        branch condition (rs1 word) (rs2 word) (immB word)
  | .load =>
      (LoadOp.ofFunct3? x (funct3 word)).map fun op => load op (rd word) (rs1 word) (immI word)
  | .store =>
      (StoreOp.ofFunct3? x (funct3 word)).map fun op => store op (rs2 word) (rs1 word) (immS word)
  | .miscMem => decodeFence? word
  | .system => if funct3 word = 0 then decodeSystem? word else decodeCsr? word

/-- The instruction of a word, for registers of the given width. -/
def decode (x : Xlen) (word : BitVec 32) : Except DecodeError Instruction :=
  match Opcode.ofCode? x (opcode word) with
  | none => .error .unsupportedOpcode
  | some code =>
      match decodeFields? x word code with
      | none => .error .illegal
      | some instruction => .ok instruction

end Instruction

end RiscV
