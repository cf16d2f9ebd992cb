import Mathlib.Algebra.Ring.Int.Defs
import RiscV.Proofs.Checked.Arithmetic
import RiscV.Proofs.Computation

/-!
# Products

The upper half and the lower half of a product, put together, are the whole product: of two
signed numbers, of two numbers without sign, and of one of each.  Twice the width has room for the
whole product, and the lower half is the same for all three.
-/

namespace RiscV

section Law

variable {width : Nat}

/-! ## Halves -/

/-- The halves of a number of twice the width make up that number. -/
theorem upperHalf_append (product : BitVec (2 * width)) :
    upperHalf product ++ product.setWidth width = product.cast (Nat.two_mul width) := by
  apply BitVec.eq_of_getLsbD_eq
  intro index below
  rw [BitVec.getLsbD_append, BitVec.getLsbD_cast]
  by_cases low : index < width
  · simp [low]
  · have within : index - width < width := by omega
    have place : width + (index - width) = index := by omega
    simp [upperHalf, low, within, place]

theorem toNat_upperHalf_append {product : BitVec (2 * width)} {low : BitVec width}
    (lower : product.setWidth width = low) :
    (upperHalf product ++ low).toNat = product.toNat := by
  rw [← lower, upperHalf_append, BitVec.toNat_cast]

theorem toInt_upperHalf_append {product : BitVec (2 * width)} {low : BitVec width}
    (lower : product.setWidth width = low) :
    (upperHalf product ++ low).toInt = product.toInt := by
  have room : 2 ^ (width + width) = 2 ^ (2 * width) := congrArg (2 ^ ·) (Nat.two_mul width).symm
  rw [BitVec.toInt_eq_toNat_bmod, BitVec.toInt_eq_toNat_bmod, toNat_upperHalf_append lower, room]

/-! ## Room for products -/

variable (a b : BitVec width)

theorem two_mul_natAbs_toInt_le : 2 * a.toInt.natAbs ≤ 2 ^ width := by
  have bound := a.isLt
  rw [BitVec.toInt_eq_toNat_cond]
  split <;> omega

theorem natAbs_toInt_lt : a.toInt.natAbs < 2 ^ width := by
  have bound := two_mul_natAbs_toInt_le a
  have pos := Nat.two_pow_pos width
  omega

/-- Twice the width has room for the product of a signed number and one without sign. -/
theorem toInt_mul_of_room {left right : BitVec (2 * width)}
    (left_le : 2 * left.toInt.natAbs ≤ 2 ^ width) (right_lt : right.toInt.natAbs < 2 ^ width) :
    (left * right).toInt = left.toInt * right.toInt := by
  have room : 2 * (left.toInt * right.toInt).natAbs < 2 ^ (2 * width) := by
    calc 2 * (left.toInt * right.toInt).natAbs
        = 2 * left.toInt.natAbs * right.toInt.natAbs := by rw [Int.natAbs_mul, Nat.mul_assoc]
      _ ≤ 2 ^ width * right.toInt.natAbs := Nat.mul_le_mul_right _ left_le
      _ < 2 ^ width * 2 ^ width := Nat.mul_lt_mul_of_pos_left right_lt (Nat.two_pow_pos width)
      _ = 2 ^ (2 * width) := by rw [← Nat.pow_add, Nat.two_mul]
  rw [BitVec.toInt_mul]
  exact Int.bmod_eq_of_le_mul_two (by omega) (by omega)

theorem le_double : width ≤ 2 * width := Nat.le_mul_of_pos_left width Nat.two_pos

theorem toInt_signExtend_double : (a.signExtend (2 * width)).toInt = a.toInt :=
  BitVec.toInt_signExtend_of_le le_double

theorem toNat_setWidth_double : (a.setWidth (2 * width)).toNat = a.toNat :=
  BitVec.toNat_setWidth_of_le le_double

theorem toInt_setWidth_double : (a.setWidth (2 * width)).toInt = a.toNat := by
  have above : width ≤ 2 * width - 1 := by omega
  have positive : (a.setWidth (2 * width)).msb = false := by
    rw [BitVec.msb_setWidth, BitVec.getLsbD_of_ge a _ above, Bool.and_false]
  rw [BitVec.toInt_eq_toNat_of_msb positive, toNat_setWidth_double]

/-! ## Products -/

theorem setWidth_signExtend_double : (a.signExtend (2 * width)).setWidth width = a := by
  rw [Checked.setWidth_signExtend _ le_double, BitVec.signExtend_eq]

theorem setWidth_setWidth_double : (a.setWidth (2 * width)).setWidth width = a := by
  rw [BitVec.setWidth_setWidth_of_le _ le_double, BitVec.setWidth_eq]

theorem toInt_mulHigh_append : (mulHigh a b ++ a * b).toInt = a.toInt * b.toInt := by
  have lower : (a.signExtend (2 * width) * b.signExtend (2 * width)).setWidth width = a * b := by
    rw [BitVec.setWidth_mul _ _ le_double, setWidth_signExtend_double,
      setWidth_signExtend_double]
  rw [mulHigh, toInt_upperHalf_append lower, toInt_mul_of_room, toInt_signExtend_double,
    toInt_signExtend_double]
  · rw [toInt_signExtend_double]
    exact two_mul_natAbs_toInt_le a
  · rw [toInt_signExtend_double]
    exact natAbs_toInt_lt b

theorem toInt_mulHighMixed_append : (mulHighMixed a b ++ a * b).toInt = a.toInt * b.toNat := by
  have lower : (a.signExtend (2 * width) * b.setWidth (2 * width)).setWidth width = a * b := by
    rw [BitVec.setWidth_mul _ _ le_double, setWidth_signExtend_double, setWidth_setWidth_double]
  rw [mulHighMixed, toInt_upperHalf_append lower, toInt_mul_of_room, toInt_signExtend_double,
    toInt_setWidth_double]
  · rw [toInt_signExtend_double]
    exact two_mul_natAbs_toInt_le a
  · rw [toInt_setWidth_double]
    exact b.isLt

theorem toNat_mulHighUnsigned_append :
    (mulHighUnsigned a b ++ a * b).toNat = a.toNat * b.toNat := by
  have lower : (a.setWidth (2 * width) * b.setWidth (2 * width)).setWidth width = a * b := by
    rw [BitVec.setWidth_mul _ _ le_double, setWidth_setWidth_double, setWidth_setWidth_double]
  have room : a.toNat * b.toNat < 2 ^ (2 * width) := by
    calc a.toNat * b.toNat < 2 ^ width * 2 ^ width := Nat.mul_lt_mul'' a.isLt b.isLt
      _ = 2 ^ (2 * width) := by rw [← Nat.pow_add, Nat.two_mul]
  rw [mulHighUnsigned, toNat_upperHalf_append lower, BitVec.toNat_mul, toNat_setWidth_double,
    toNat_setWidth_double, Nat.mod_eq_of_lt room]

end Law

namespace Hart

variable {x : Xlen}

/-- The instructions for the halves of products always complete and leave in their register the
halves of the products of the numbers.  On their way the upper halves pass through 128 bits, which
no product exceeds. -/
theorem leaves_product (hart : Hart x) (dest left right : Register) :
    let a := hart.registers.read left
    let b := hart.registers.read right
    ∃ low, hart.Yields (.register .mul dest left right) dest low ∧
      (∃ high, hart.Yields (.register .mulh dest left right) dest high ∧
        (high ++ low).toInt = a.toInt * b.toInt ∧ Checked.mulHigh a b = .ok high) ∧
      (∃ high, hart.Yields (.register .mulhu dest left right) dest high ∧
        (high ++ low).toNat = a.toNat * b.toNat ∧ Checked.mulHighUnsigned a b = .ok high) ∧
      ∃ high, hart.Yields (.register .mulhsu dest left right) dest high ∧
        (high ++ low).toInt = a.toInt * b.toNat ∧ Checked.mulHighMixed a b = .ok high := by
  intro a b
  have yields := hart.yields_register dest left right
  exact
    ⟨_, yields .mul,
      ⟨_, yields .mulh, toInt_mulHigh_append a b, Checked.mulHigh_eq a b⟩,
      ⟨_, yields .mulhu, toNat_mulHighUnsigned_append a b, Checked.mulHighUnsigned_eq a b⟩,
      ⟨_, yields .mulhsu, toInt_mulHighMixed_append a b, Checked.mulHighMixed_eq a b⟩⟩

/-- The halves of the products of the least signed number and minus one, which is the greatest
number without sign. -/
theorem leaves_product_extreme :
    let hart : Hart .rv64 :=
      ((initial { memorySize := 4 }).setRegister 1 0x8000000000000000).setRegister 2
        0xFFFFFFFFFFFFFFFF
    let result (bits : BitVec 32) := (hart.perform (.long bits)).2.registers.get? 3
    result 0x022081B3 = some 0x8000000000000000 ∧ result 0x022091B3 = some 0 ∧
      result 0x0220A1B3 = some 0x8000000000000000 ∧
      result 0x0220B1B3 = some 0x7FFFFFFFFFFFFFFF := by
  intro hart result
  have three : (3 : Register) ≠ 0 := by decide
  obtain ⟨low, lower, ⟨signed, signedHalf, signed_eq, _⟩, ⟨plain, plainHalf, plain_eq, _⟩,
    mixed, mixedHalf, mixed_eq, _⟩ := leaves_product hart 3 1 2
  have upper {high low' : Word .rv64} (whole : BitVec 128) (same : high ++ low' = whole) :
      high = whole.extractLsb' 64 64 :=
    BitVec.extractLsb'_append_eq_left.symm.trans (congrArg (·.extractLsb' 64 64) same)
  have signed_whole : signed ++ low = 0x8000000000000000#128 :=
    BitVec.eq_of_toInt_eq (signed_eq.trans (by decide))
  have plain_whole : plain ++ low = 0x7FFFFFFFFFFFFFFF8000000000000000#128 :=
    BitVec.eq_of_toNat_eq (plain_eq.trans (by decide))
  have mixed_whole : mixed ++ low = 0x80000000000000008000000000000000#128 :=
    BitVec.eq_of_toInt_eq (mixed_eq.trans (by decide))
  have low_eq : low = 0x8000000000000000 :=
    BitVec.extractLsb'_append_eq_right.symm.trans (congrArg (·.extractLsb' 0 64) signed_whole)
  subst low_eq
  obtain rfl := upper _ signed_whole
  obtain rfl := upper _ plain_whole
  obtain rfl := upper _ mixed_whole
  exact ⟨lower.get?_perform three (by decide), signedHalf.get?_perform three (by decide),
    mixedHalf.get?_perform three (by decide), plainHalf.get?_perform three (by decide)⟩

end Hart

end RiscV
