import Mathlib.Algebra.Ring.Int.Defs
import RiscV.Proofs.Computation

/-!
# Division

The quotient and the remainder of two numbers make up the dividend again, whatever the divisor is.
They are those of the integers that the numbers stand for, except that there is no quotient by
zero, and that the least signed number divided by minus one is too large for the width.  The
instructions leave these results in their register at both widths.
-/

namespace RiscV

section Law

variable {width : Nat}

/-- A quotient and a remainder of two signed numbers. -/
structure IsSignedDivision (a b q r : BitVec width) : Prop where
  recomposes : q * b + r = a
  /-- Where there is a quotient that fits, it is rounded toward zero. -/
  rounds : b ≠ 0 → ¬ (a = BitVec.intMin width ∧ b = -1) →
    q.toInt = a.toInt.tdiv b.toInt ∧ r.toInt.natAbs < b.toInt.natAbs ∧
      (r = 0 ∨ r.toInt.sign = a.toInt.sign)
  byZero : b = 0 → q = BitVec.allOnes width ∧ r = a
  overflows : a = BitVec.intMin width → b = -1 → q = a ∧ r = 0

/-- A quotient and a remainder of two numbers without sign. -/
structure IsUnsignedDivision (a b q r : BitVec width) : Prop where
  recomposes : q * b + r = a
  rounds : b ≠ 0 → q.toNat = a.toNat / b.toNat ∧ r.toNat < b.toNat
  byZero : b = 0 → q = BitVec.allOnes width ∧ r = a

variable {a b : BitVec width}

theorem toInt_ne_zero (nonzero : b ≠ 0) : b.toInt ≠ 0 := fun zero =>
  nonzero (BitVec.toInt_inj.mp (zero.trans BitVec.toInt_zero.symm))

theorem sdiv_mul_add_srem (a b : BitVec width) : a.sdiv b * b + a.srem b = a := by
  apply BitVec.eq_of_toInt_eq
  calc (a.sdiv b * b + a.srem b).toInt
      = (a.toInt.tdiv b.toInt * b.toInt + a.toInt.tmod b.toInt).bmod (2 ^ width) := by
        rw [BitVec.toInt_add, BitVec.toInt_mul, BitVec.toInt_sdiv, BitVec.toInt_srem,
          Int.bmod_mul_bmod, Int.bmod_add_bmod]
    _ = a.toInt := by rw [Int.tdiv_mul_add_tmod, BitVec.toInt_bmod_cancel]

/-- The remainder is closer to zero than the divisor, and on the side of the dividend. -/
theorem srem_bounds (nonzero : b ≠ 0) :
    (a.srem b).toInt.natAbs < b.toInt.natAbs ∧
      (a.srem b = 0 ∨ (a.srem b).toInt.sign = a.toInt.sign) := by
  have positive : 0 < b.toInt.natAbs := Int.natAbs_pos.mpr (toInt_ne_zero nonzero)
  constructor
  · rw [BitVec.toInt_srem, Int.natAbs_tmod]
    exact Nat.mod_lt _ positive
  · by_cases divides : b.toInt ∣ a.toInt
    · left
      apply BitVec.eq_of_toInt_eq
      rw [BitVec.toInt_srem, Int.tmod_eq_zero_of_dvd divides]
      exact BitVec.toInt_zero.symm
    · right
      rw [BitVec.toInt_srem, Int.sign_tmod, if_neg divides]

theorem toNat_pos (nonzero : b ≠ 0) : 0 < b.toNat :=
  Nat.pos_of_ne_zero fun zero => nonzero (BitVec.eq_of_toNat_eq zero)

theorem udiv_mul_add_umod (a b : BitVec width) : a / b * b + a % b = a := by
  apply BitVec.eq_of_toNat_eq
  calc (a / b * b + a % b).toNat
      = (a.toNat / b.toNat * b.toNat + a.toNat % b.toNat) % 2 ^ width := by
        rw [BitVec.toNat_add, BitVec.toNat_mul, BitVec.toNat_udiv, BitVec.toNat_umod,
          Nat.mod_add_mod]
    _ = a.toNat := by rw [Nat.div_add_mod', Nat.mod_eq_of_lt a.isLt]

theorem allOnes_mul_zero_add (a : BitVec width) : BitVec.allOnes width * 0 + a = a :=
  (congrArg (· + a) BitVec.mul_zero).trans (BitVec.zero_add a)

/-- The opposite of the least number is that number, so that nothing remains. -/
theorem intMin_srem_neg_one : (BitVec.intMin width).srem (-1) = 0 := by
  have makesUp := sdiv_mul_add_srem (BitVec.intMin width) (-1)
  have unchanged : (BitVec.intMin width).sdiv (-1) = BitVec.intMin width :=
    BitVec.intMin_sdiv_neg_one
  have product : BitVec.intMin width * -1 = BitVec.intMin width :=
    calc BitVec.intMin width * -1 = -(BitVec.intMin width * 1) := BitVec.mul_neg ..
      _ = -BitVec.intMin width := congrArg _ (BitVec.mul_one _)
      _ = BitVec.intMin width := BitVec.neg_intMin
  rw [unchanged, product, BitVec.add_comm] at makesUp
  exact BitVec.add_left_eq_self.mp makesUp

theorem isSignedDivision (a b : BitVec width) :
    IsSignedDivision a b (quotient a b) (remainder a b) := by
  by_cases zero : b = 0
  · have byZero : quotient a b = BitVec.allOnes width ∧ remainder a b = a :=
      ⟨if_pos zero, if_pos zero⟩
    refine ⟨?_, fun nonzero => absurd zero nonzero, fun _ => byZero, fun _ minusOne => ?_⟩
    · rw [byZero.1, byZero.2, zero, allOnes_mul_zero_add]
    · -- Zero is minus one only where there are no bits.
      have none : width = 0 := BitVec.zero_eq_neg_one_iff.mp (zero.symm.trans minusOne)
      exact ⟨BitVec.eq_of_zero_length none, BitVec.eq_of_zero_length none⟩
  · rw [quotient, remainder, if_neg zero, if_neg zero]
    refine ⟨sdiv_mul_add_srem a b, fun _ fits => ⟨?_, srem_bounds zero⟩,
      fun zero' => absurd zero' zero, fun least minusOne => ?_⟩
    · exact BitVec.toInt_sdiv_of_ne_or_ne a b (Decidable.not_and_iff_not_or_not.mp fits)
    · rw [least, minusOne]
      exact ⟨BitVec.intMin_sdiv_neg_one, intMin_srem_neg_one⟩

theorem isUnsignedDivision (a b : BitVec width) :
    IsUnsignedDivision a b (unsignedQuotient a b) (unsignedRemainder a b) := by
  by_cases zero : b = 0
  · have byZero : unsignedQuotient a b = BitVec.allOnes width ∧ unsignedRemainder a b = a :=
      ⟨if_pos zero, if_pos zero⟩
    refine ⟨?_, fun nonzero => absurd zero nonzero, fun _ => byZero⟩
    rw [byZero.1, byZero.2, zero, allOnes_mul_zero_add]
  · rw [unsignedQuotient, unsignedRemainder, if_neg zero, if_neg zero]
    refine ⟨udiv_mul_add_umod a b, fun _ => ⟨BitVec.toNat_udiv, ?_⟩,
      fun zero' => absurd zero' zero⟩
    rw [BitVec.toNat_umod]
    exact Nat.mod_lt _ (toNat_pos zero)

end Law

namespace Hart

variable {x : Xlen}

/-- The instructions for quotients and remainders always complete and leave in their register
what the law of division asks for, those on low words with copies of the sign above it. -/
theorem leaves_division (hart : Hart x) (dest left right : Register) :
    let a := hart.registers.read left
    let b := hart.registers.read right
    (∃ q r, IsSignedDivision a b q r ∧
      hart.Yields (.register .div dest left right) dest q ∧
      hart.Yields (.register .rem dest left right) dest r) ∧
    (∃ q r, IsUnsignedDivision a b q r ∧
      hart.Yields (.register .divu dest left right) dest q ∧
      hart.Yields (.register .remu dest left right) dest r) ∧
    (∃ q r, IsSignedDivision (a.setWidth 32) (b.setWidth 32) q r ∧
      hart.Yields (.registerWord .divw dest left right) dest (q.signExtend x.bits) ∧
      hart.Yields (.registerWord .remw dest left right) dest (r.signExtend x.bits)) ∧
    ∃ q r, IsUnsignedDivision (a.setWidth 32) (b.setWidth 32) q r ∧
      hart.Yields (.registerWord .divuw dest left right) dest (q.signExtend x.bits) ∧
      hart.Yields (.registerWord .remuw dest left right) dest (r.signExtend x.bits) := by
  intro a b
  have full := hart.yields_register dest left right
  have low := hart.yields_registerWord dest left right
  exact
    ⟨⟨_, _, isSignedDivision a b, full .div, full .rem⟩,
      ⟨_, _, isUnsignedDivision a b, full .divu, full .remu⟩,
      ⟨_, _, isSignedDivision (a.setWidth 32) (b.setWidth 32), low .divw, low .remw⟩,
      ⟨_, _, isUnsignedDivision (a.setWidth 32) (b.setWidth 32), low .divuw, low .remuw⟩⟩

/-- The least number divided by minus one is itself and leaves nothing.  Divided by zero it gives
minus one and leaves itself. -/
theorem leaves_division_least :
    let hart : Hart .rv32 :=
      ((initial { memorySize := 4 }).setRegister 1 0x80000000).setRegister 2 0xFFFFFFFF
    let result (bits : BitVec 32) := (hart.perform (.long bits)).2.registers.get? 3
    result 0x0220C1B3 = some 0x80000000 ∧ result 0x0220E1B3 = some 0 ∧
      result 0x0200C1B3 = some 0xFFFFFFFF ∧ result 0x0200E1B3 = some 0x80000000 := by
  intro hart result
  have least : hart.registers.read 1 = 0x80000000 := by decide
  obtain ⟨q, r, law, quotient, rest⟩ := (leaves_division hart 3 1 2).1
  obtain ⟨q_eq, r_eq⟩ := law.overflows least (by decide)
  obtain ⟨q', r', law', quotient', rest'⟩ := (leaves_division hart 3 1 0).1
  obtain ⟨q'_eq, r'_eq⟩ := law'.byZero (by decide)
  rw [least] at q_eq r'_eq
  subst q_eq r_eq q'_eq r'_eq
  have three : (3 : Register) ≠ 0 := by decide
  exact ⟨quotient.get?_perform three (by decide), rest.get?_perform three (by decide),
    quotient'.get?_perform three (by decide), rest'.get?_perform three (by decide)⟩

end Hart

end RiscV
