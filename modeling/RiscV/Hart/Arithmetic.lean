import RiscV.Instruction.Basic

/-!
# Arithmetic

The results of operations on register values.  All arithmetic is modulo the register width.
Shifts take their amount modulo the width.  Division by zero and the overflow of signed division
have defined results, so every operation is total.
-/

namespace RiscV

/-- The amount of a shift, given by the low bits of an operand. -/
def shiftAmount {width : Nat} (operand : BitVec width) : Nat := operand.toNat % width

/-- The quotient rounded toward zero; dividing by zero gives all ones. -/
def quotient {width : Nat} (a b : BitVec width) : BitVec width :=
  if b = 0 then BitVec.allOnes width else a.sdiv b

/-- The remainder with the sign of the dividend; dividing by zero gives the dividend. -/
def remainder {width : Nat} (a b : BitVec width) : BitVec width := if b = 0 then a else a.srem b

/-- The quotient of numbers without sign; dividing by zero gives all ones. -/
def unsignedQuotient {width : Nat} (a b : BitVec width) : BitVec width :=
  if b = 0 then BitVec.allOnes width else a / b

/-- The remainder of numbers without sign; dividing by zero gives the dividend. -/
def unsignedRemainder {width : Nat} (a b : BitVec width) : BitVec width :=
  if b = 0 then a else a % b

/-- The upper half of a number of twice the width. -/
def upperHalf {width : Nat} (product : BitVec (2 * width)) : BitVec width :=
  product.extractLsb' width width

/-- The upper half of the product of two signed numbers. -/
def mulHigh {width : Nat} (a b : BitVec width) : BitVec width :=
  upperHalf (a.signExtend (2 * width) * b.signExtend (2 * width))

/-- The upper half of the product of a signed number and one without sign. -/
def mulHighMixed {width : Nat} (a b : BitVec width) : BitVec width :=
  upperHalf (a.signExtend (2 * width) * b.setWidth (2 * width))

/-- The upper half of the product of two numbers without sign. -/
def mulHighUnsigned {width : Nat} (a b : BitVec width) : BitVec width :=
  upperHalf (a.setWidth (2 * width) * b.setWidth (2 * width))

variable {x : Xlen}

namespace ImmediateOp

/-- The result of the operation on a register value and an extended immediate. -/
def eval (op : ImmediateOp) (a imm : Word x) : Word x :=
  match op with
  | addi => a + imm
  | slti => Word.ofBool (a.slt imm)
  | sltiu => Word.ofBool (a.ult imm)
  | xori => a ^^^ imm
  | ori => a ||| imm
  | andi => a &&& imm

end ImmediateOp

namespace ShiftOp

/-- The result of shifting a value by an amount. -/
def eval {width : Nat} (op : ShiftOp) (a : BitVec width) (amount : Nat) : BitVec width :=
  match op with
  | slli => a <<< amount
  | srli => a >>> amount
  | srai => a.sshiftRight amount

end ShiftOp

namespace RegisterOp

/-- The result of the operation on two register values. -/
def eval (op : RegisterOp) (a b : Word x) : Word x :=
  match op with
  | add => a + b
  | slt => Word.ofBool (a.slt b)
  | sltu => Word.ofBool (a.ult b)
  | and => a &&& b
  | or => a ||| b
  | xor => a ^^^ b
  | sll => a <<< shiftAmount b
  | srl => a >>> shiftAmount b
  | sub => a - b
  | sra => a.sshiftRight (shiftAmount b)
  | mul => a * b
  | mulh => mulHigh a b
  | mulhsu => mulHighMixed a b
  | mulhu => mulHighUnsigned a b
  | div => quotient a b
  | divu => unsignedQuotient a b
  | rem => remainder a b
  | remu => unsignedRemainder a b

end RegisterOp

namespace WordOp

/-- The result of the operation on two low words. -/
def evalWord (op : WordOp) (a b : BitVec 32) : BitVec 32 :=
  match op with
  | addw => a + b
  | subw => a - b
  | sllw => a <<< shiftAmount b
  | srlw => a >>> shiftAmount b
  | sraw => a.sshiftRight (shiftAmount b)
  | mulw => a * b
  | divw => quotient a b
  | divuw => unsignedQuotient a b
  | remw => remainder a b
  | remuw => unsignedRemainder a b

/-- The result of the operation on two register values, which is the extended word. -/
def eval (op : WordOp) (a b : Word x) : Word x :=
  (op.evalWord (a.setWidth 32) (b.setWidth 32)).signExtend x.bits

end WordOp

namespace Condition

/-- Whether two register values compare as required. -/
def holds (condition : Condition) (a b : Word x) : Bool :=
  match condition with
  | beq => a == b
  | bne => a != b
  | blt => a.slt b
  | bltu => a.ult b
  | bge => !a.slt b
  | bgeu => !a.ult b

end Condition

namespace LoadOp

/-- A loaded number at the register width. -/
def extend (op : LoadOp) (value : BitVec (8 * op.size.bytes)) : Word x :=
  if op.isSigned then value.signExtend x.bits else value.setWidth x.bits

end LoadOp

namespace CsrOp

/-- The new contents of a control register. -/
def eval (op : CsrOp) (old operand : Word x) : Word x :=
  match op with
  | csrrw => operand
  | csrrs => old ||| operand
  | csrrc => old &&& ~~~operand

end CsrOp

end RiscV
