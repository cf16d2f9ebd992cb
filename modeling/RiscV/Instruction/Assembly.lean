import RiscV.Csr.Name
import RiscV.Instruction.Code
import RiscV.Text.Numeral

/-!
# Assembly text

The text of an instruction is a mnemonic, followed by its operands with a comma and a blank between
them.  Immediates and offsets are signed decimal numbers, offsets counting bytes; upper immediates
are hexadecimal; control registers go by their names as far as they have one.
-/

namespace RiscV

namespace ImmediateOp

def mnemonic : ImmediateOp → String
  | addi => "addi"
  | slti => "slti"
  | sltiu => "sltiu"
  | xori => "xori"
  | ori => "ori"
  | andi => "andi"

end ImmediateOp

namespace ShiftOp

def mnemonic : ShiftOp → String
  | slli => "slli"
  | srli => "srli"
  | srai => "srai"

end ShiftOp

namespace RegisterOp

def mnemonic : RegisterOp → String
  | add => "add"
  | slt => "slt"
  | sltu => "sltu"
  | and => "and"
  | or => "or"
  | xor => "xor"
  | sll => "sll"
  | srl => "srl"
  | sub => "sub"
  | sra => "sra"
  | mul => "mul"
  | mulh => "mulh"
  | mulhsu => "mulhsu"
  | mulhu => "mulhu"
  | div => "div"
  | divu => "divu"
  | rem => "rem"
  | remu => "remu"

end RegisterOp

namespace WordOp

def mnemonic : WordOp → String
  | addw => "addw"
  | subw => "subw"
  | sllw => "sllw"
  | srlw => "srlw"
  | sraw => "sraw"
  | mulw => "mulw"
  | divw => "divw"
  | divuw => "divuw"
  | remw => "remw"
  | remuw => "remuw"

end WordOp

namespace Condition

def mnemonic : Condition → String
  | beq => "beq"
  | bne => "bne"
  | blt => "blt"
  | bltu => "bltu"
  | bge => "bge"
  | bgeu => "bgeu"

end Condition

namespace LoadOp

def mnemonic : LoadOp → String
  | lb => "lb"
  | lh => "lh"
  | lw => "lw"
  | ld => "ld"
  | lbu => "lbu"
  | lhu => "lhu"
  | lwu => "lwu"

end LoadOp

namespace StoreOp

def mnemonic : StoreOp → String
  | sb => "sb"
  | sh => "sh"
  | sw => "sw"
  | sd => "sd"

end StoreOp

namespace CsrOp

def mnemonic : CsrOp → String
  | csrrw => "csrrw"
  | csrrs => "csrrs"
  | csrrc => "csrrc"

end CsrOp

namespace FenceSet

/-- A letter for each kind of access, or zero for none. -/
def text (set : FenceSet) : String :=
  if set.bits = 0 then "0"
  else
    (if set.input then "i" else "") ++ (if set.output then "o" else "") ++
      (if set.reads then "r" else "") ++ (if set.writes then "w" else "")

end FenceSet

namespace Assembly

/-- An operand in assembly text. -/
inductive Operand where
  | register (number : Register)
  | decimal (value : Int)
  | hex (value : Nat)
  /-- An address relative to a register. -/
  | address (offset : Int) (base : Register)
  | csr (number : BitVec 12)
  | accesses (set : FenceSet)
  deriving DecidableEq, Repr

/-- The text of a control register, which is its number in case it has no name. -/
def csrText (number : BitVec 12) : String :=
  match Csr.ofNumber? (number.setWidth 16) with
  | some csr => csr.name
  | none => Text.Numeral.hex 3 number.toNat

namespace Operand

def text : Operand → String
  | register number => number.name
  | decimal value => toString value
  | hex value => Text.Numeral.hex 1 value
  | address offset base => toString offset ++ "(" ++ base.name ++ ")"
  | csr number => csrText number
  | accesses set => set.text

end Operand

end Assembly

namespace CsrOperand

/-- The operand in assembly text. -/
def assembly : CsrOperand → Assembly.Operand
  | register source => .register source
  | immediate value => .decimal value.toNat

end CsrOperand

namespace Instruction

/-- The word that starts the text of an instruction. -/
def mnemonic : Instruction → String
  | immediate op _ _ _ => op.mnemonic
  | shift op _ _ _ => op.mnemonic
  | immediateWord .. => "addiw"
  | shiftWord op _ _ _ => op.mnemonic ++ "w"
  | auipc .. => "auipc"
  | lui .. => "lui"
  | register op _ _ _ => op.mnemonic
  | registerWord op _ _ _ => op.mnemonic
  | jal .. => "jal"
  | jalr .. => "jalr"
  | branch condition _ _ _ => condition.mnemonic
  | load op _ _ _ => op.mnemonic
  | store op _ _ _ => op.mnemonic
  | fence .. => "fence"
  | fenceI => "fence.i"
  | csr op _ (.register _) _ => op.mnemonic
  | csr op _ (.immediate _) _ => op.mnemonic ++ "i"
  | ecall => "ecall"
  | ebreak => "ebreak"
  | mret => "mret"
  | sret => "sret"
  | wfi => "wfi"

/-- The operands of an instruction in the order in which they are written. -/
def operands : Instruction → List Assembly.Operand
  | immediate _ dest src value | immediateWord dest src value =>
      [.register dest, .register src, .decimal value.toInt]
  | shift _ dest src amount => [.register dest, .register src, .decimal amount.toNat]
  | shiftWord _ dest src amount => [.register dest, .register src, .decimal amount.toNat]
  | auipc dest upper | lui dest upper => [.register dest, .hex upper.toNat]
  | register _ dest left right | registerWord _ dest left right =>
      [.register dest, .register left, .register right]
  | jal dest offset => [.register dest, .decimal (bytes offset).toInt]
  | jalr dest base offset => [.register dest, .address offset.toInt base]
  | branch _ left right offset =>
      [.register left, .register right, .decimal (bytes offset).toInt]
  | load _ dest base offset => [.register dest, .address offset.toInt base]
  | store _ src base offset => [.register src, .address offset.toInt base]
  | fence predecessor successor => [.accesses predecessor, .accesses successor]
  | csr _ dest operand number => [.register dest, .csr number, operand.assembly]
  | fenceI | ecall | ebreak | mret | sret | wfi => []

def text (instruction : Instruction) : String :=
  match instruction.operands with
  | [] => instruction.mnemonic
  | operands => instruction.mnemonic ++ " " ++ ", ".intercalate (operands.map (·.text))

end Instruction

end RiscV
