import RiscV.Hart.Arithmetic
import RiscV.Proofs.Checked.Operation

/-!
# Checked arithmetic

Arithmetic on register values that are widened to 64 bits, and to 128 bits for products.  Amounts
of shifts are masked, zero is never a divisor, and the widened products have room, so that every
operation on registers of either width has a result.
-/

namespace RiscV

namespace Checked

variable {x : Xlen}

/-! ## Shifts -/

/-- The mask for amounts of shifts. -/
def shiftMask (x : Xlen) : Checked (BitVec 32) := sub (BitVec.ofNat 32 x.bits) 1

/-- The word whose only set bit is the most significant one. -/
def signBit : Checked (Word x) := do
  let place ← sub (BitVec.ofNat 32 x.bits) 1
  return Word.ofDouble (← shiftLeft 1 place.toNat)

/-- A shift of a register value. -/
def shift (op : ShiftOp) (value : Word x) (amount : Nat) : Checked (Word x) :=
  match op with
  | .slli => do return Word.ofDouble (← shiftLeft value.toDouble amount)
  | .srli => do return Word.ofDouble (← shiftRight value.toDouble amount)
  | .srai => do return Word.ofDouble (← shiftRightSigned value.toSignedDouble amount)

/-- A shift of a low word. -/
def shiftLow (op : ShiftOp) (word : BitVec 32) (amount : Nat) : Checked (BitVec 32) :=
  match op with
  | .slli => shiftLeft word amount
  | .srli => shiftRight word amount
  | .srai => shiftRightSigned word amount

/-- A shift of a register value by an immediate amount. -/
def shiftImmediate (op : ShiftOp) (value : Word x) (amount : BitVec 6) : Checked (Word x) := do
  let mask ← shiftMask x
  shift op value (amount.setWidth 32 &&& mask).toNat

/-- A shift of the low word of a register value by an immediate amount. -/
def shiftImmediateLow (op : ShiftOp) (value : Word x) (amount : BitVec 5) : Checked (Word x) := do
  let mask ← shiftMask x
  let word ← shiftLow op (value.setWidth 32) (amount.setWidth 32 &&& 0x1F &&& mask).toNat
  return word.signExtend x.bits

/-- The amount of a shift that a register value gives. -/
def amount (operand : Word x) : Checked Nat := do
  let mask ← shiftMask x
  return (operand.toDouble.setWidth 32 &&& mask).toNat

section Shifts

variable (op : ShiftOp)

theorem shiftMask_eq : shiftMask x = .ok (BitVec.ofNat 32 x.shiftMask) := by
  cases x <;> rfl

theorem signBit_eq : signBit = .ok (Word.signBit : Word x) := by
  cases x <;> rfl

/-- Shifting an extended number shifts the number. -/
theorem setWidth_sshiftRight_signExtend {width total : Nat} {value : BitVec width} {amount : Nat}
    (le : width ≤ total) :
    ((value.signExtend total).sshiftRight amount).setWidth width = value.sshiftRight amount := by
  rcases Nat.eq_or_lt_of_le le with rfl | less
  · rw [BitVec.signExtend_eq, BitVec.setWidth_eq]
  · apply BitVec.eq_of_getLsbD_eq
    intro index below
    have within : index < total := Nat.lt_trans below less
    have sign : (value.signExtend total).msb = value.msb := by
      rw [BitVec.msb_signExtend]
      simp [Nat.zero_lt_of_lt less, Nat.not_le_of_lt less]
    rw [BitVec.getLsbD_setWidth, BitVec.getLsbD_sshiftRight, BitVec.getLsbD_sshiftRight, sign,
      BitVec.getLsbD_signExtend]
    have low : ¬ width ≤ index := Nat.not_le_of_lt below
    have high : ¬ total ≤ index := Nat.not_le_of_lt within
    by_cases inside : amount + index < width
    · simp [below, low, high, inside, Nat.lt_trans inside less]
    · simp +contextual [below, low, high, inside]

theorem shift_eq {value : Word x} {amount : Nat} (inside : amount < x.bits) :
    shift op value amount = .ok (op.eval value amount) := by
  have below : amount < 64 := Nat.lt_of_lt_of_le inside x.bits_le
  have le := x.bits_le
  cases op with
  | slli =>
      rw [shift, shiftLeft_eq below, ok_bind, pure_eq_ok, Word.ofDouble, Word.toDouble,
        BitVec.setWidth_shiftLeft_of_le le, BitVec.setWidth_setWidth_of_le _ le,
        BitVec.setWidth_eq]
      rfl
  | srli =>
      rw [shift, shiftRight_eq below, ok_bind, pure_eq_ok, Word.ofDouble, Word.toDouble,
        ← BitVec.setWidth_ushiftRight le, BitVec.setWidth_setWidth_of_le _ le, BitVec.setWidth_eq]
      rfl
  | srai =>
      rw [shift, shiftRightSigned_eq below, ok_bind, pure_eq_ok, Word.ofDouble,
        Word.toSignedDouble, setWidth_sshiftRight_signExtend le]
      rfl

theorem shiftLow_eq {word : BitVec 32} {amount : Nat} (inside : amount < 32) :
    shiftLow op word amount = .ok (op.eval word amount) := by
  cases op with
  | slli => exact shiftLeft_eq inside
  | srli => exact shiftRight_eq inside
  | srai => exact shiftRightSigned_eq inside

/-- The mask keeps the amount modulo the width. -/
theorem toNat_and_shiftMask (value : BitVec 32) :
    (value &&& BitVec.ofNat 32 x.shiftMask).toNat = value.toNat % x.bits := by
  cases x with
  | rv32 => exact Nat.and_two_pow_sub_one_eq_mod value.toNat 5
  | rv64 => exact Nat.and_two_pow_sub_one_eq_mod value.toNat 6

theorem shiftImmediate_eq (value : Word x) (amount : BitVec 6) :
    shiftImmediate op value amount = .ok (op.eval value (amount.toNat % x.bits)) := by
  have number : (amount.setWidth 32).toNat = amount.toNat := by
    have bound := amount.isLt
    rw [BitVec.toNat_setWidth]
    omega
  rw [shiftImmediate, shiftMask_eq, ok_bind, toNat_and_shiftMask, number,
    shift_eq op (Nat.mod_lt _ x.bits_pos)]

theorem shiftImmediateLow_eq (value : Word x) (amount : BitVec 5) :
    shiftImmediateLow op value amount =
      .ok ((op.eval (value.setWidth 32) amount.toNat).signExtend x.bits) := by
  have number : (amount.setWidth 32 &&& 0x1F &&& BitVec.ofNat 32 x.shiftMask).toNat =
      amount.toNat := by
    cases x <;> revert amount <;> decide
  rw [shiftImmediateLow, shiftMask_eq, ok_bind, number, shiftLow_eq op amount.isLt]
  rfl

theorem amount_eq (operand : Word x) : amount operand = .ok (shiftAmount operand) := by
  have low : (operand.toDouble.setWidth 32).toNat % x.bits = shiftAmount operand := by
    have divides : x.bits ∣ 2 ^ 32 := by cases x <;> decide
    have divides' : x.bits ∣ 2 ^ 64 := by cases x <;> decide
    rw [Word.toDouble, BitVec.toNat_setWidth, BitVec.toNat_setWidth,
      Nat.mod_mod_of_dvd _ divides, Nat.mod_mod_of_dvd _ divides', shiftAmount]
  rw [amount, shiftMask_eq, ok_bind, toNat_and_shiftMask, low]
  rfl

end Shifts

/-! ## Products -/

/-- The upper half of the product of two signed numbers. -/
def mulHigh (a b : Word x) : Checked (Word x) := do
  let product ← mulSigned (a.toSignedDouble.signExtend 128) (b.toSignedDouble.signExtend 128)
  return Word.ofDouble ((← shiftRightSigned product x.bits).setWidth 64)

/-- The upper half of the product of a signed number and one without sign. -/
def mulHighMixed (a b : Word x) : Checked (Word x) := do
  let product ← mulSigned (a.toSignedDouble.signExtend 128) (b.toDouble.setWidth 128)
  return Word.ofDouble ((← shiftRightSigned product x.bits).setWidth 64)

/-- The upper half of the product of two numbers without sign. -/
def mulHighUnsigned (a b : Word x) : Checked (Word x) := do
  let product ← mul (a.toDouble.setWidth 128) (b.toDouble.setWidth 128)
  return Word.ofDouble ((← shiftRight product x.bits).setWidth 64)

section Products

variable (a b : Word x)

theorem bits_lt : x.bits < 128 := Nat.lt_of_le_of_lt x.bits_le (by decide)

theorem bits_le_room : x.bits ≤ 128 := Nat.le_of_lt bits_lt

theorem two_mul_bits_le : 2 * x.bits ≤ 128 := Nat.mul_le_mul_left 2 x.bits_le

theorem natAbs_toInt_le : a.toInt.natAbs ≤ 2 ^ 63 := by
  have least := BitVec.le_toInt a
  have greatest := BitVec.toInt_lt (x := a)
  have room : (2 : Int) ^ (x.bits - 1) ≤ 2 ^ 63 := by cases x <;> decide
  omega

theorem toNat_lt : a.toNat < 2 ^ 64 :=
  Nat.lt_of_lt_of_le a.isLt (Nat.pow_le_pow_right (by decide) x.bits_le)

theorem toInt_setWidth_room : (a.setWidth 128).toInt = a.toNat := by
  have bound := toNat_lt a
  rw [BitVec.toInt_setWidth]
  exact Int.bmod_eq_of_le (by omega) (by omega)

theorem natAbs_lt_of_product {left right : Int} (left_le : left.natAbs ≤ 2 ^ 63)
    (right_lt : right.natAbs < 2 ^ 64) : (left * right).natAbs < 2 ^ 127 := by
  rw [Int.natAbs_mul]
  calc left.natAbs * right.natAbs ≤ 2 ^ 63 * (2 ^ 64 - 1) :=
        Nat.mul_le_mul left_le (Nat.le_sub_one_of_lt right_lt)
    _ < 2 ^ 127 := by decide

/-- The upper half of a product that is computed with more room. -/
theorem ofDouble_shiftRight (product : BitVec 128) :
    (Word.ofDouble ((product >>> x.bits).setWidth 64) : Word x) =
      upperHalf (product.setWidth (2 * x.bits)) := by
  apply BitVec.eq_of_getLsbD_eq
  intro index below
  have inside : x.bits + index < 2 * x.bits := by omega
  simp [Word.ofDouble, upperHalf, below, inside, Nat.lt_of_lt_of_le below x.bits_le]

theorem ofDouble_sshiftRight (product : BitVec 128) :
    (Word.ofDouble ((product.sshiftRight x.bits).setWidth 64) : Word x) =
      upperHalf (product.setWidth (2 * x.bits)) := by
  have le := x.bits_le
  rw [← ofDouble_shiftRight]
  apply BitVec.eq_of_getLsbD_eq
  intro index below
  have within : index < 64 := Nat.lt_of_lt_of_le below le
  have inside : x.bits + index < 128 := by omega
  have low : ¬ 128 ≤ index := by omega
  simp only [Word.ofDouble, BitVec.getLsbD_setWidth, BitVec.getLsbD_sshiftRight,
    BitVec.getLsbD_ushiftRight, inside, low, if_true, decide_false, Bool.not_false, Bool.true_and]

theorem signExtend_toSignedDouble : a.toSignedDouble.signExtend 128 = a.signExtend 128 := by
  apply BitVec.eq_of_toInt_eq
  rw [BitVec.toInt_signExtend_of_le (by decide), Word.toSignedDouble,
    BitVec.toInt_signExtend_of_le x.bits_le, BitVec.toInt_signExtend_of_le bits_le_room]

theorem setWidth_toDouble : a.toDouble.setWidth 128 = a.setWidth 128 :=
  BitVec.setWidth_setWidth fun ⟨narrower, _⟩ => Nat.not_lt_of_le x.bits_le narrower

theorem mulHigh_eq : mulHigh a b = .ok (RiscV.mulHigh a b) := by
  have left : (a.signExtend 128).toInt = a.toInt := BitVec.toInt_signExtend_of_le bits_le_room
  have right : (b.signExtend 128).toInt = b.toInt := BitVec.toInt_signExtend_of_le bits_le_room
  have room : (a.toInt * b.toInt).natAbs < 2 ^ 127 :=
    natAbs_lt_of_product (natAbs_toInt_le a) (Nat.lt_of_le_of_lt (natAbs_toInt_le b) (by decide))
  rw [mulHigh, signExtend_toSignedDouble, signExtend_toSignedDouble,
    mulSigned_eq (by rw [left, right]; omega) (by rw [left, right]; omega), ok_bind,
    shiftRightSigned_eq bits_lt, ok_bind, pure_eq_ok, ofDouble_sshiftRight,
    BitVec.setWidth_mul _ _ two_mul_bits_le, setWidth_signExtend _ two_mul_bits_le,
    setWidth_signExtend _ two_mul_bits_le]
  rfl

theorem mulHighMixed_eq : mulHighMixed a b = .ok (RiscV.mulHighMixed a b) := by
  have left : (a.signExtend 128).toInt = a.toInt := BitVec.toInt_signExtend_of_le bits_le_room
  have right : (b.setWidth 128).toInt = b.toNat := toInt_setWidth_room b
  have room : (a.toInt * b.toNat).natAbs < 2 ^ 127 :=
    natAbs_lt_of_product (natAbs_toInt_le a) (toNat_lt b)
  rw [mulHighMixed, signExtend_toSignedDouble, setWidth_toDouble,
    mulSigned_eq (by rw [left, right]; omega) (by rw [left, right]; omega), ok_bind,
    shiftRightSigned_eq bits_lt, ok_bind, pure_eq_ok, ofDouble_sshiftRight,
    BitVec.setWidth_mul _ _ two_mul_bits_le, setWidth_signExtend _ two_mul_bits_le,
    BitVec.setWidth_setWidth_of_le _ two_mul_bits_le]
  rfl

theorem mulHighUnsigned_eq : mulHighUnsigned a b = .ok (RiscV.mulHighUnsigned a b) := by
  have number (value : Word x) : (value.setWidth 128).toNat = value.toNat :=
    BitVec.toNat_setWidth_of_le bits_le_room
  have room : (a.setWidth 128).toNat * (b.setWidth 128).toNat < 2 ^ 128 := by
    rw [number, number]
    calc a.toNat * b.toNat < 2 ^ 64 * 2 ^ 64 := Nat.mul_lt_mul'' (toNat_lt a) (toNat_lt b)
      _ = 2 ^ 128 := by decide
  rw [mulHighUnsigned, setWidth_toDouble, setWidth_toDouble, mul_eq room, ok_bind,
    shiftRight_eq bits_lt, ok_bind, pure_eq_ok, ofDouble_shiftRight,
    BitVec.setWidth_mul _ _ two_mul_bits_le, BitVec.setWidth_setWidth_of_le _ two_mul_bits_le,
    BitVec.setWidth_setWidth_of_le _ two_mul_bits_le]
  rfl

end Products

/-! ## Quotients and remainders -/

/-- The quotient rounded toward zero. -/
def quotient (a b : Word x) : Checked (Word x) := do
  if b = 0 then return BitVec.allOnes x.bits
  else if a = (← signBit) ∧ b = BitVec.allOnes x.bits then return a
  else return Word.ofDouble (← divideSigned a.toSignedDouble b.toSignedDouble)

/-- The remainder with the sign of the dividend. -/
def remainder (a b : Word x) : Checked (Word x) := do
  if b = 0 then return a
  else if a = (← signBit) ∧ b = BitVec.allOnes x.bits then return 0
  else return Word.ofDouble (← moduloSigned a.toSignedDouble b.toSignedDouble)

/-- The quotient of numbers without sign. -/
def unsignedQuotient (a b : Word x) : Checked (Word x) := do
  if b = 0 then return BitVec.allOnes x.bits
  else return Word.ofDouble (← divide a.toDouble b.toDouble)

/-- The remainder of numbers without sign. -/
def unsignedRemainder (a b : Word x) : Checked (Word x) := do
  if b = 0 then return a
  else return Word.ofDouble (← modulo a.toDouble b.toDouble)

section Quotients

variable (a b : Word x)

theorem toDouble_ne_zero {b : Word x} (nonzero : b ≠ 0) : b.toDouble ≠ 0 := by
  intro zero
  apply nonzero
  rw [← Word.ofDouble_toDouble b, zero]
  exact BitVec.setWidth_zero ..

theorem toInt_ofDouble (value : BitVec 64) :
    (Word.ofDouble value : Word x).toInt = value.toInt.bmod (2 ^ x.bits) := by
  rw [Word.ofDouble, ← BitVec.signExtend_eq_setWidth_of_le _ x.bits_le,
    BitVec.toInt_signExtend_eq_toInt_bmod_of_le _ x.bits_le]

theorem toInt_toSignedDouble : a.toSignedDouble.toInt = a.toInt :=
  BitVec.toInt_signExtend_of_le x.bits_le

theorem toSignedDouble_ne_zero {b : Word x} (nonzero : b ≠ 0) : b.toSignedDouble ≠ 0 := by
  intro zero
  apply nonzero
  apply BitVec.eq_of_toInt_eq
  rw [← toInt_toSignedDouble, zero]
  exact BitVec.toInt_zero.trans BitVec.toInt_zero.symm

theorem ofDouble_sdiv : Word.ofDouble (a.toSignedDouble.sdiv b.toSignedDouble) = a.sdiv b := by
  apply BitVec.eq_of_toInt_eq
  rw [toInt_ofDouble, BitVec.toInt_sdiv, BitVec.toInt_sdiv, toInt_toSignedDouble,
    toInt_toSignedDouble, Int.bmod_bmod_of_dvd (Nat.pow_dvd_pow 2 x.bits_le)]

theorem ofDouble_srem : Word.ofDouble (a.toSignedDouble.srem b.toSignedDouble) = a.srem b := by
  apply BitVec.eq_of_toInt_eq
  rw [toInt_ofDouble, BitVec.toInt_srem, toInt_toSignedDouble, toInt_toSignedDouble,
    ← BitVec.toInt_srem, BitVec.toInt_bmod_cancel]

theorem toNat_toDouble : a.toDouble.toNat = a.toNat := BitVec.toNat_setWidth_of_le x.bits_le

theorem ofDouble_udiv : Word.ofDouble (a.toDouble / b.toDouble) = a / b := by
  apply BitVec.eq_of_toNat_eq
  rw [Word.ofDouble, BitVec.toNat_setWidth, BitVec.toNat_udiv, BitVec.toNat_udiv, toNat_toDouble,
    toNat_toDouble]
  exact Nat.mod_eq_of_lt (Nat.lt_of_le_of_lt (Nat.div_le_self ..) a.isLt)

theorem ofDouble_umod : Word.ofDouble (a.toDouble % b.toDouble) = a % b := by
  apply BitVec.eq_of_toNat_eq
  rw [Word.ofDouble, BitVec.toNat_setWidth, BitVec.toNat_umod, BitVec.toNat_umod, toNat_toDouble,
    toNat_toDouble]
  exact Nat.mod_eq_of_lt (Nat.lt_of_le_of_lt (Nat.mod_le ..) a.isLt)

theorem signBit_sdiv_allOnes :
    (Word.signBit : Word x).sdiv (BitVec.allOnes x.bits) = Word.signBit := by
  cases x <;> decide

theorem signBit_srem_allOnes :
    (Word.signBit : Word x).srem (BitVec.allOnes x.bits) = 0 := by
  cases x <;> decide

theorem quotient_eq : quotient a b = .ok (RiscV.quotient a b) := by
  unfold quotient RiscV.quotient
  split
  · rfl
  · rename_i nonzero
    rw [signBit_eq, ok_bind]
    split
    · rename_i overflow
      rw [overflow.1, overflow.2, signBit_sdiv_allOnes]
      rfl
    · rw [divideSigned_eq (toSignedDouble_ne_zero nonzero), ok_bind, ofDouble_sdiv]
      rfl

theorem remainder_eq : remainder a b = .ok (RiscV.remainder a b) := by
  unfold remainder RiscV.remainder
  split
  · rfl
  · rename_i nonzero
    rw [signBit_eq, ok_bind]
    split
    · rename_i overflow
      rw [overflow.1, overflow.2, signBit_srem_allOnes]
      rfl
    · rw [moduloSigned_eq (toSignedDouble_ne_zero nonzero), ok_bind, ofDouble_srem]
      rfl

theorem unsignedQuotient_eq : unsignedQuotient a b = .ok (RiscV.unsignedQuotient a b) := by
  unfold unsignedQuotient RiscV.unsignedQuotient
  split
  · rfl
  · rename_i nonzero
    rw [divide_eq (toDouble_ne_zero nonzero), ok_bind, ofDouble_udiv]
    rfl

theorem unsignedRemainder_eq : unsignedRemainder a b = .ok (RiscV.unsignedRemainder a b) := by
  unfold unsignedRemainder RiscV.unsignedRemainder
  split
  · rfl
  · rename_i nonzero
    rw [modulo_eq (toDouble_ne_zero nonzero), ok_bind, ofDouble_umod]
    rfl

end Quotients

/-! ## Operations -/

/-- The result of an operation on two register values. -/
def evalRegister (op : RegisterOp) (a b : Word x) : Checked (Word x) :=
  match op with
  | .sll => do shift .slli a (← amount b)
  | .srl => do shift .srli a (← amount b)
  | .sra => do shift .srai a (← amount b)
  | .mulh => mulHigh a b
  | .mulhsu => mulHighMixed a b
  | .mulhu => mulHighUnsigned a b
  | .div => quotient a b
  | .divu => unsignedQuotient a b
  | .rem => remainder a b
  | .remu => unsignedRemainder a b
  | .add | .slt | .sltu | .and | .or | .xor | .sub | .mul => return op.eval a b

/-- The result of an operation on two low words. -/
def evalLow (op : WordOp) (a b : BitVec 32) : Checked (BitVec 32) :=
  match op with
  | .sllw => shiftLow .slli a (b &&& 0x1F).toNat
  | .srlw => shiftLow .srli a (b &&& 0x1F).toNat
  | .sraw => shiftLow .srai a (b &&& 0x1F).toNat
  | .divw => if b = 0 then return -1 else divideSigned a b
  | .divuw => if b = 0 then return -1 else divide a b
  | .remw => if b = 0 then return a else moduloSigned a b
  | .remuw => if b = 0 then return a else modulo a b
  | .addw | .subw | .mulw => return op.evalWord a b

/-- The result of an operation on two low words, which is extended. -/
def evalWord (op : WordOp) (a b : Word x) : Checked (Word x) := do
  return (← evalLow op (a.setWidth 32) (b.setWidth 32)).signExtend x.bits

theorem evalRegister_eq (op : RegisterOp) (a b : Word x) :
    evalRegister op a b = .ok (op.eval a b) := by
  have inside : shiftAmount b < x.bits := Nat.mod_lt _ x.bits_pos
  cases op with
  | sll | srl | sra => rw [evalRegister, amount_eq, ok_bind, shift_eq _ inside]; rfl
  | mulh => exact mulHigh_eq a b
  | mulhsu => exact mulHighMixed_eq a b
  | mulhu => exact mulHighUnsigned_eq a b
  | div => exact quotient_eq a b
  | divu => exact unsignedQuotient_eq a b
  | rem => exact remainder_eq a b
  | remu => exact unsignedRemainder_eq a b
  | add | slt | sltu | and | or | xor | sub | mul => rfl

theorem evalLow_eq (op : WordOp) (a b : BitVec 32) : evalLow op a b = .ok (op.evalWord a b) := by
  have masked : (b &&& 0x1F).toNat = shiftAmount b := Nat.and_two_pow_sub_one_eq_mod b.toNat 5
  have inside : shiftAmount b < 32 := Nat.mod_lt _ (by decide)
  cases op with
  | sllw | srlw | sraw => rw [evalLow, masked, shiftLow_eq _ inside]; rfl
  | divw | divuw | remw | remuw =>
      by_cases zero : b = 0
      · simp [evalLow, WordOp.evalWord, RiscV.quotient, RiscV.unsignedQuotient, RiscV.remainder,
          RiscV.unsignedRemainder, zero]
      · simp only [evalLow, WordOp.evalWord, RiscV.quotient, RiscV.unsignedQuotient,
          RiscV.remainder, RiscV.unsignedRemainder, zero, if_false, divideSigned_eq, divide_eq,
          moduloSigned_eq, modulo_eq, ne_eq, not_false_eq_true]
  | addw | subw | mulw => rfl

theorem evalWord_eq (op : WordOp) (a b : Word x) : evalWord op a b = .ok (op.eval a b) := by
  rw [evalWord, evalLow_eq]
  rfl

end Checked

end RiscV
