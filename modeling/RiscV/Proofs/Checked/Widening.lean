import RiscV.Proofs.Checked.Arithmetic

/-!
# Arithmetic through 64 bits

Arithmetic that serves both widths of registers.  Words are extended to 64 bits, most of them with
zeros and some with their sign, and the low bits of the result are kept.  The results are those of
arithmetic at the width of the registers: the low bits of a sum, a difference, a product or a
bitwise operation depend on no higher bits, and a signed number stays the same when it is extended
with its sign.
-/

namespace RiscV

namespace Word

variable {x : Xlen}

/-- A condition as a word. -/
def ofCondition (condition : Bool) : Word x := ofDouble ((BitVec.ofBool condition).setWidth 64)

/-- A signed number of 32 bits as a word. -/
def ofSigned (number : BitVec 32) : Word x := ofDouble (number.signExtend 64)

theorem ofCondition_eq (condition : Bool) : (ofCondition condition : Word x) = ofBool condition :=
  BitVec.setWidth_setWidth_of_le _ x.bits_le

theorem ofSigned_eq (number : BitVec 32) : (ofSigned number : Word x) = number.signExtend x.bits :=
  Checked.setWidth_signExtend number x.bits_le

/-! ## Low bits of results -/

variable (a b : BitVec 64)

theorem ofDouble_add : (ofDouble (a + b) : Word x) = ofDouble a + ofDouble b :=
  BitVec.setWidth_add a b x.bits_le

theorem ofDouble_sub : (ofDouble (a - b) : Word x) = ofDouble a - ofDouble b := by
  have opposite : (ofDouble (-b) : Word x) = -ofDouble b := BitVec.setWidth_neg_of_le x.bits_le
  rw [BitVec.sub_eq_add_neg, ofDouble_add, opposite, BitVec.sub_eq_add_neg]

theorem ofDouble_mul : (ofDouble (a * b) : Word x) = ofDouble a * ofDouble b :=
  BitVec.setWidth_mul a b x.bits_le

theorem ofDouble_and : (ofDouble (a &&& b) : Word x) = ofDouble a &&& ofDouble b :=
  BitVec.setWidth_and

theorem ofDouble_or : (ofDouble (a ||| b) : Word x) = ofDouble a ||| ofDouble b :=
  BitVec.setWidth_or

theorem ofDouble_xor : (ofDouble (a ^^^ b) : Word x) = ofDouble a ^^^ ofDouble b :=
  BitVec.setWidth_xor

end Word

namespace Checked

open Word

variable {x : Xlen}

/-- The result of an operation on two register values. -/
def widenRegister (op : RegisterOp) (a b : Word x) : Checked (Word x) :=
  match op with
  | .add => return ofDouble (a.toDouble + b.toDouble)
  | .sub => return ofDouble (a.toDouble - b.toDouble)
  | .mul => return ofDouble (a.toDouble * b.toDouble)
  | .and => return ofDouble (a.toDouble &&& b.toDouble)
  | .or => return ofDouble (a.toDouble ||| b.toDouble)
  | .xor => return ofDouble (a.toDouble ^^^ b.toDouble)
  | .slt => return ofCondition (a.slt b)
  | .sltu => return ofCondition (a.ult b)
  | .sll | .srl | .sra | .mulh | .mulhsu | .mulhu | .div | .divu | .rem | .remu =>
      evalRegister op a b

/-- The result of an operation on a register value and a signed immediate. -/
def widenImmediate (op : ImmediateOp) (a : Word x) (imm : BitVec 32) : Word x :=
  match op with
  | .addi => ofDouble (a.toDouble + imm.signExtend 64)
  | .slti => ofCondition (a.toSignedDouble.slt (imm.signExtend 64))
  | .sltiu => ofCondition (a.ult (ofSigned imm))
  | .xori => ofDouble (a.toDouble ^^^ (ofSigned imm : Word x).toDouble)
  | .ori => ofDouble (a.toDouble ||| (ofSigned imm : Word x).toDouble)
  | .andi => ofDouble (a.toDouble &&& (ofSigned imm : Word x).toDouble)

/-- The sum of a low word and a signed immediate, which is extended. -/
def widenLow (a : Word x) (imm : BitVec 32) : Word x := ofSigned (a.toDouble.setWidth 32 + imm)

/-- An address moved by a signed immediate without its low twelve bits. -/
def widenUpper (address : Word x) (imm : BitVec 32) : Word x :=
  ofDouble (address.toDouble + (imm &&& ~~~0xFFF).signExtend 64)

theorem widenRegister_eq (op : RegisterOp) (a b : Word x) :
    widenRegister op a b = .ok (op.eval a b) := by
  cases op with
  | add | sub | mul | and | or | xor =>
      simp only [widenRegister, ofDouble_add, ofDouble_sub, ofDouble_mul, ofDouble_and,
        ofDouble_or, ofDouble_xor, ofDouble_toDouble, RegisterOp.eval, pure_eq_ok]
  | slt | sltu => rw [widenRegister, ofCondition_eq]; rfl
  | sll | srl | sra | mulh | mulhsu | mulhu | div | divu | rem | remu =>
      rw [widenRegister, evalRegister_eq]

theorem word_le_bits : 32 ≤ x.bits := by cases x <;> decide

theorem widenImmediate_eq (op : ImmediateOp) (a : Word x) (imm : BitVec 32) :
    widenImmediate op a imm = op.eval a (imm.signExtend x.bits) := by
  have low : (ofDouble (imm.signExtend 64) : Word x) = imm.signExtend x.bits := ofSigned_eq imm
  cases op with
  | addi => rw [widenImmediate, ofDouble_add, ofDouble_toDouble, low]; rfl
  | slti =>
      -- Both sides compare the same signed numbers, at the two widths.
      rw [widenImmediate, ofCondition_eq, BitVec.slt_eq_decide, toInt_toSignedDouble,
        BitVec.toInt_signExtend_of_le (by decide), ImmediateOp.eval, BitVec.slt_eq_decide,
        BitVec.toInt_signExtend_of_le word_le_bits]
  | sltiu => rw [widenImmediate, ofCondition_eq, ofSigned_eq]; rfl
  | xori | ori | andi =>
      simp only [widenImmediate, ofDouble_and, ofDouble_or, ofDouble_xor, ofDouble_toDouble,
        ofSigned_eq, ImmediateOp.eval]

/-- An immediate of an instruction is extended to 32 bits when it is decoded. -/
theorem signExtend_decoded (imm : BitVec 12) :
    (imm.signExtend 32).signExtend x.bits = imm.signExtend x.bits := by
  have le : 12 ≤ x.bits := Nat.le_trans (by decide) word_le_bits
  apply BitVec.eq_of_toInt_eq
  rw [BitVec.toInt_signExtend_of_le word_le_bits, BitVec.toInt_signExtend_of_le (by decide),
    BitVec.toInt_signExtend_of_le le]

theorem widenLow_eq (a : Word x) (imm : BitVec 32) :
    widenLow a imm = (a.setWidth 32 + imm).signExtend x.bits := by
  have low : a.toDouble.setWidth 32 = a.setWidth 32 :=
    BitVec.setWidth_setWidth_of_le a (by decide)
  rw [widenLow, ofSigned_eq, low]

theorem widenUpper_eq (address : Word x) (imm : BitVec 32) :
    widenUpper address imm = address + (imm &&& ~~~0xFFF).signExtend x.bits := by
  rw [widenUpper, ofDouble_add, ofDouble_toDouble]
  exact congrArg _ (ofSigned_eq _)

end Checked

end RiscV
