import RiscV.Instruction.Basic

/-!
# Opcodes and function codes

The codes that tell instructions apart within a word.  Each kind of operation has a table from
operations to codes; reading a code searches the table, so the two directions agree.
-/

namespace RiscV

/-- The major opcodes. -/
inductive Opcode where
  | load | miscMem | opImm | auipc | opImm32 | store | op | lui | op32 | branch | jalr | jal
  | system
  deriving DecidableEq, Repr

namespace Opcode

def all : List Opcode :=
  [load, miscMem, opImm, auipc, opImm32, store, op, lui, op32, branch, jalr, jal, system]

/-- The seven-bit code of the opcode. -/
def code : Opcode → BitVec 7
  | load => 0b0000011
  | miscMem => 0b0001111
  | opImm => 0b0010011
  | auipc => 0b0010111
  | opImm32 => 0b0011011
  | store => 0b0100011
  | op => 0b0110011
  | lui => 0b0110111
  | op32 => 0b0111011
  | branch => 0b1100011
  | jalr => 0b1100111
  | jal => 0b1101111
  | system => 0b1110011

/-- Whether only wide registers have the opcode. -/
def isWide : Opcode → Bool
  | opImm32 | op32 => true
  | _ => false

def ofCode? (x : Xlen) (code : BitVec 7) : Option Opcode :=
  all.find? fun opcode => opcode.code == code && (!opcode.isWide || x.isWide)

end Opcode

namespace ImmediateOp

def all : List ImmediateOp := [addi, slti, sltiu, xori, ori, andi]

/-- The function code of the operation. -/
def funct3 : ImmediateOp → BitVec 3
  | addi => 0b000
  | slti => 0b010
  | sltiu => 0b011
  | xori => 0b100
  | ori => 0b110
  | andi => 0b111

def ofFunct3? (code : BitVec 3) : Option ImmediateOp := all.find? (·.funct3 == code)

end ImmediateOp

namespace ShiftOp

def all : List ShiftOp := [slli, srli, srai]

/-- The function code next to the destination register. -/
def funct3 : ShiftOp → BitVec 3
  | slli => 0b001
  | srli | srai => 0b101

/-- The function code above the shift amount. -/
def funct6 : ShiftOp → BitVec 6
  | slli | srli => 0b000000
  | srai => 0b010000

def ofFunct? (funct6 : BitVec 6) (funct3 : BitVec 3) : Option ShiftOp :=
  all.find? fun op => op.funct6 == funct6 && op.funct3 == funct3

end ShiftOp

namespace RegisterOp

def all : List RegisterOp :=
  [add, slt, sltu, and, or, xor, sll, srl, sub, sra, mul, mulh, mulhsu, mulhu, div, divu, rem, remu]

/-- The function code next to the destination register. -/
def funct3 : RegisterOp → BitVec 3
  | add | sub | mul => 0b000
  | sll | mulh => 0b001
  | slt | mulhsu => 0b010
  | sltu | mulhu => 0b011
  | xor | div => 0b100
  | srl | sra | divu => 0b101
  | or | rem => 0b110
  | and | remu => 0b111

/-- The function code in the top seven bits. -/
def funct7 : RegisterOp → BitVec 7
  | add | slt | sltu | and | or | xor | sll | srl => 0b0000000
  | sub | sra => 0b0100000
  | mul | mulh | mulhsu | mulhu | div | divu | rem | remu => 0b0000001

def ofFunct? (funct7 : BitVec 7) (funct3 : BitVec 3) : Option RegisterOp :=
  all.find? fun op => op.funct7 == funct7 && op.funct3 == funct3

end RegisterOp

namespace WordOp

def all : List WordOp := [addw, subw, sllw, srlw, sraw, mulw, divw, divuw, remw, remuw]

/-- The function code next to the destination register. -/
def funct3 : WordOp → BitVec 3
  | addw | subw | mulw => 0b000
  | sllw => 0b001
  | divw => 0b100
  | srlw | sraw | divuw => 0b101
  | remw => 0b110
  | remuw => 0b111

/-- The function code in the top seven bits. -/
def funct7 : WordOp → BitVec 7
  | addw | sllw | srlw => 0b0000000
  | subw | sraw => 0b0100000
  | mulw | divw | divuw | remw | remuw => 0b0000001

def ofFunct? (funct7 : BitVec 7) (funct3 : BitVec 3) : Option WordOp :=
  all.find? fun op => op.funct7 == funct7 && op.funct3 == funct3

end WordOp

namespace Condition

def all : List Condition := [beq, bne, blt, bltu, bge, bgeu]

/-- The function code of the comparison. -/
def funct3 : Condition → BitVec 3
  | beq => 0b000
  | bne => 0b001
  | blt => 0b100
  | bge => 0b101
  | bltu => 0b110
  | bgeu => 0b111

def ofFunct3? (code : BitVec 3) : Option Condition := all.find? (·.funct3 == code)

end Condition

namespace LoadOp

def all : List LoadOp := [lb, lh, lw, ld, lbu, lhu, lwu]

/-- The function code of the load. -/
def funct3 : LoadOp → BitVec 3
  | lb => 0b000
  | lh => 0b001
  | lw => 0b010
  | ld => 0b011
  | lbu => 0b100
  | lhu => 0b101
  | lwu => 0b110

def ofFunct3? (x : Xlen) (code : BitVec 3) : Option LoadOp :=
  all.find? fun op => op.funct3 == code && (!op.isWide || x.isWide)

end LoadOp

namespace StoreOp

def all : List StoreOp := [sb, sh, sw, sd]

/-- The function code of the store. -/
def funct3 : StoreOp → BitVec 3
  | sb => 0b000
  | sh => 0b001
  | sw => 0b010
  | sd => 0b011

def ofFunct3? (x : Xlen) (code : BitVec 3) : Option StoreOp :=
  all.find? fun op => op.funct3 == code && (!op.isWide || x.isWide)

end StoreOp

namespace CsrOp

def all : List CsrOp := [csrrw, csrrs, csrrc]

/-- The low two bits of the function code; the third tells the kind of the operand. -/
def code : CsrOp → BitVec 2
  | csrrw => 0b01
  | csrrs => 0b10
  | csrrc => 0b11

def ofCode? (code : BitVec 2) : Option CsrOp := all.find? (·.code == code)

end CsrOp

namespace CsrOperand

/-- The top bit of the function code. -/
def kind : CsrOperand → BitVec 1
  | register _ => 0
  | immediate _ => 1

/-- The field that holds the operand. -/
def field : CsrOperand → BitVec 5
  | register source => source
  | immediate value => value

/-- The operand of the given kind in the given field. -/
def ofField (kind : BitVec 1) (field : BitVec 5) : CsrOperand :=
  if kind = 0 then register field else immediate field

end CsrOperand

namespace FenceSet

/-- The four bits of the set. -/
def bits (set : FenceSet) : BitVec 4 :=
  BitVec.ofBool set.input ++ BitVec.ofBool set.output ++ BitVec.ofBool set.reads ++
    BitVec.ofBool set.writes

/-- The set with the given bits. -/
def ofBits (bits : BitVec 4) : FenceSet :=
  { input := bits.getLsbD 3
    output := bits.getLsbD 2
    reads := bits.getLsbD 1
    writes := bits.getLsbD 0 }

end FenceSet

end RiscV
