import RiscV.Instruction.Code
import RiscV.Instruction.Format

/-!
# Encoding

Every instruction has one canonical word.  Fields that an instruction does not use are zero.
-/

namespace RiscV

namespace Instruction

/-- The word of an instruction that has no operands. -/
def encodeSystem (funct12 : BitVec 12) : BitVec 32 :=
  Format.encodeI funct12 0 0 0 Opcode.system.code

/-- The canonical word of the instruction. -/
def encode : Instruction → BitVec 32
  | immediate op dest src value => Format.encodeI value src op.funct3 dest Opcode.opImm.code
  | shift op dest src amount =>
      Format.encodeI (op.funct6 ++ amount) src op.funct3 dest Opcode.opImm.code
  | immediateWord dest src value => Format.encodeI value src 0 dest Opcode.opImm32.code
  | shiftWord op dest src amount =>
      Format.encodeI (op.funct6 ++ 0#1 ++ amount) src op.funct3 dest Opcode.opImm32.code
  | auipc dest upper => Format.encodeU upper dest Opcode.auipc.code
  | lui dest upper => Format.encodeU upper dest Opcode.lui.code
  | register op dest left right =>
      Format.encodeR op.funct7 right left op.funct3 dest Opcode.op.code
  | registerWord op dest left right =>
      Format.encodeR op.funct7 right left op.funct3 dest Opcode.op32.code
  | jal dest offset => Format.encodeJ offset dest Opcode.jal.code
  | jalr dest base offset => Format.encodeI offset base 0 dest Opcode.jalr.code
  | branch condition left right offset =>
      Format.encodeB offset right left condition.funct3 Opcode.branch.code
  | load op dest base offset => Format.encodeI offset base op.funct3 dest Opcode.load.code
  | store op src base offset => Format.encodeS offset src base op.funct3 Opcode.store.code
  | fence predecessor successor =>
      Format.encodeI (0#4 ++ predecessor.bits ++ successor.bits) 0 0 0 Opcode.miscMem.code
  | fenceI => Format.encodeI 0 0 1 0 Opcode.miscMem.code
  | csr op dest operand number =>
      Format.encodeI number operand.field (operand.kind ++ op.code) dest Opcode.system.code
  | ecall => encodeSystem 0x000
  | ebreak => encodeSystem 0x001
  | sret => encodeSystem 0x102
  | mret => encodeSystem 0x302
  | wfi => encodeSystem 0x105

end Instruction

end RiscV
