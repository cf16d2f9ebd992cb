import RiscV.AccessSize
import RiscV.Register
import RiscV.Xlen

/-!
# Instructions

The instructions of the base instruction sets with the extensions for multiplication, control
registers and privileged execution.  Immediates keep the width in which they are encoded and are
extended where they are used; the offsets of jumps and branches count halfwords.  Compressed
instructions have no form of their own, for each stands for one of these.
-/

namespace RiscV

/-- Operations on a register and a twelve-bit immediate. -/
inductive ImmediateOp where
  | addi | slti | sltiu | xori | ori | andi
  deriving DecidableEq, Repr

/-- Shifts by an immediate amount. -/
inductive ShiftOp where
  | slli | srli | srai
  deriving DecidableEq, Repr

/-- Operations on two registers. -/
inductive RegisterOp where
  | add | slt | sltu | and | or | xor | sll | srl | sub | sra
  | mul | mulh | mulhsu | mulhu | div | divu | rem | remu
  deriving DecidableEq, Repr

/-- Operations on the low words of two wide registers. -/
inductive WordOp where
  | addw | subw | sllw | srlw | sraw | mulw | divw | divuw | remw | remuw
  deriving DecidableEq, Repr

/-- Comparisons that decide a branch. -/
inductive Condition where
  | beq | bne | blt | bltu | bge | bgeu
  deriving DecidableEq, Repr

/-- Loads, the last three of which extend with zeros. -/
inductive LoadOp where
  | lb | lh | lw | ld | lbu | lhu | lwu
  deriving DecidableEq, Repr

/-- Stores. -/
inductive StoreOp where
  | sb | sh | sw | sd
  deriving DecidableEq, Repr

/-- Ways to change a control register. -/
inductive CsrOp where
  /-- Exchange it with the operand. -/
  | csrrw
  /-- Set the bits of the operand. -/
  | csrrs
  /-- Clear the bits of the operand. -/
  | csrrc
  deriving DecidableEq, Repr

/-- The operand of a control register instruction. -/
inductive CsrOperand where
  /-- The contents of a register. -/
  | register (source : Register)
  /-- A small number without a sign. -/
  | immediate (value : BitVec 5)
  deriving DecidableEq, Repr

/-- The accesses that a fence orders. -/
structure FenceSet where
  input : Bool
  output : Bool
  reads : Bool
  writes : Bool
  deriving DecidableEq, Repr

/-- A decoded instruction. -/
inductive Instruction where
  /-- An operation with an immediate. -/
  | immediate (op : ImmediateOp) (dest src : Register) (value : BitVec 12)
  /-- A shift by an immediate amount. -/
  | shift (op : ShiftOp) (dest src : Register) (amount : BitVec 6)
  /-- The addition of an immediate to a low word, on wide registers only. -/
  | immediateWord (dest src : Register) (value : BitVec 12)
  /-- A shift of a low word by an immediate amount, on wide registers only. -/
  | shiftWord (op : ShiftOp) (dest src : Register) (amount : BitVec 5)
  /-- An upper immediate added to the address of the instruction. -/
  | auipc (dest : Register) (upper : BitVec 20)
  | lui (dest : Register) (upper : BitVec 20)
  /-- An operation on two registers. -/
  | register (op : RegisterOp) (dest left right : Register)
  /-- An operation on the low words of two registers, on wide registers only. -/
  | registerWord (op : WordOp) (dest left right : Register)
  /-- A jump relative to the instruction, with a link. -/
  | jal (dest : Register) (offset : BitVec 20)
  /-- A jump relative to a register, with a link. -/
  | jalr (dest base : Register) (offset : BitVec 12)
  /-- A conditional jump relative to the instruction. -/
  | branch (condition : Condition) (left right : Register) (offset : BitVec 12)
  | load (op : LoadOp) (dest base : Register) (offset : BitVec 12)
  | store (op : StoreOp) (src base : Register) (offset : BitVec 12)
  /-- An order on memory accesses. -/
  | fence (predecessor successor : FenceSet)
  /-- An order of instruction fetches after earlier stores. -/
  | fenceI
  /-- A change of a control register. -/
  | csr (op : CsrOp) (dest : Register) (operand : CsrOperand) (number : BitVec 12)
  /-- A request to the execution environment. -/
  | ecall
  /-- A transfer to the debugger. -/
  | ebreak
  /-- The return from a trap handled in machine mode. -/
  | mret
  /-- The return from a trap handled in supervisor mode. -/
  | sret
  /-- A hint that the hart may wait for an interrupt. -/
  | wfi
  deriving DecidableEq, Repr

namespace LoadOp

/-- The unit that is loaded. -/
def size : LoadOp → AccessSize
  | lb | lbu => .byte
  | lh | lhu => .halfword
  | lw | lwu => .word
  | ld => .doubleword

/-- Whether the loaded number has a sign. -/
def isSigned : LoadOp → Bool
  | lb | lh | lw | ld => true
  | lbu | lhu | lwu => false

/-- Whether only wide registers have the load. -/
def isWide : LoadOp → Bool
  | ld | lwu => true
  | lb | lh | lw | lbu | lhu => false

end LoadOp

namespace StoreOp

/-- The unit that is stored. -/
def size : StoreOp → AccessSize
  | sb => .byte
  | sh => .halfword
  | sw => .word
  | sd => .doubleword

/-- Whether only wide registers have the store. -/
def isWide : StoreOp → Bool
  | sd => true
  | sb | sh | sw => false

end StoreOp

namespace Instruction

/-- The distance in bytes of a jump or branch whose offset counts halfwords. -/
def bytes {width : Nat} (offset : BitVec width) : BitVec (width + 1) := offset ++ 0#1

/-- The registers that the instruction names, the destination first. -/
def registers : Instruction → List Register
  | immediate _ dest src _ | shift _ dest src _ | immediateWord dest src _
  | shiftWord _ dest src _ => [dest, src]
  | auipc dest _ | lui dest _ | jal dest _ => [dest]
  | register _ dest left right | registerWord _ dest left right => [dest, left, right]
  | jalr dest base _ | load _ dest base _ => [dest, base]
  | branch _ left right _ => [left, right]
  | store _ src base _ => [src, base]
  | csr _ dest (.register source) _ => [dest, source]
  | csr _ dest (.immediate _) _ => [dest]
  | fence _ _ | fenceI | ecall | ebreak | mret | sret | wfi => []

/-- The instruction exists for registers of the given width. -/
def WellFormed (x : Xlen) : Instruction → Prop
  | shift _ _ _ amount => amount.toNat < x.bits
  | immediateWord .. | shiftWord .. | registerWord .. => x.isWide = true
  | load op _ _ _ => op.isWide = true → x.isWide = true
  | store op _ _ _ => op.isWide = true → x.isWide = true
  | _ => True

instance (x : Xlen) (instruction : Instruction) : Decidable (instruction.WellFormed x) := by
  cases instruction <;> simp only [WellFormed] <;> infer_instance

end Instruction

end RiscV
