import Mathlib.Algebra.Ring.Int.Defs
import Mathlib.Algebra.Ring.Nat
import RiscV.Register

/-!
# Operations that can be undefined

On numbers of fixed width some operations have no result for some operands: a shift by the width or
more, a division by zero, a sum, difference or product that does not fit, and access to bits or
bytes outside of what there is.  A checked computation ends with the reason as soon as one of its
operations has no result.
-/

namespace RiscV

/-- Why an operation has no result. -/
inductive Undefined where
  /-- A number does not fit into the field that is to hold it. -/
  | range (error : RangeError)
  /-- A shift by all places or more. -/
  | shift
  /-- A sum, difference or product that does not fit. -/
  | overflow
  /-- A division by zero. -/
  | division
  /-- An access to bits or bytes outside of what there is. -/
  | bounds
  /-- A register with contents that it cannot hold. -/
  | reserved
  deriving DecidableEq, Repr

/-- A computation that ends at the first operation without a result. -/
abbrev Checked := Except Undefined

namespace Checked

variable {α β : Type} {width : Nat}

@[simp]
theorem ok_bind (value : α) (next : α → Checked β) : (Except.ok value >>= next) = next value := rfl

@[simp]
theorem pure_eq_ok (value : α) : (pure value : Checked α) = .ok value := rfl

theorem mapM_ok (f : α → β) (option : Option α) :
    option.mapM (fun item => (.ok (f item) : Checked β)) = .ok (option.map f) := by
  cases option <;> rfl

/-- A number in the field that is to hold it. -/
def fit (field : Except RangeError α) : Checked α := field.mapError .range

/-- The shift to the left. -/
def shiftLeft (value : BitVec width) (amount : Nat) : Checked (BitVec width) :=
  if amount < width then .ok (value <<< amount) else .error .shift

/-- The shift to the right that fills with zeros. -/
def shiftRight (value : BitVec width) (amount : Nat) : Checked (BitVec width) :=
  if amount < width then .ok (value >>> amount) else .error .shift

/-- The shift to the right that fills with the sign. -/
def shiftRightSigned (value : BitVec width) (amount : Nat) : Checked (BitVec width) :=
  if amount < width then .ok (value.sshiftRight amount) else .error .shift

/-- The sum of numbers without sign. -/
def add (left right : BitVec width) : Checked (BitVec width) :=
  if left.uaddOverflow right then .error .overflow else .ok (left + right)

/-- The difference of numbers without sign. -/
def sub (left right : BitVec width) : Checked (BitVec width) :=
  if left.usubOverflow right then .error .overflow else .ok (left - right)

/-- The product of numbers without sign. -/
def mul (left right : BitVec width) : Checked (BitVec width) :=
  if left.umulOverflow right then .error .overflow else .ok (left * right)

/-- The product of numbers with sign. -/
def mulSigned (left right : BitVec width) : Checked (BitVec width) :=
  if left.smulOverflow right then .error .overflow else .ok (left * right)

/-- The quotient of numbers without sign. -/
def divide (left right : BitVec width) : Checked (BitVec width) :=
  if right = 0 then .error .division else .ok (left / right)

/-- The remainder of numbers without sign. -/
def modulo (left right : BitVec width) : Checked (BitVec width) :=
  if right = 0 then .error .division else .ok (left % right)

/-- The quotient of numbers with sign, which wraps around. -/
def divideSigned (left right : BitVec width) : Checked (BitVec width) :=
  if right = 0 then .error .division else .ok (left.sdiv right)

/-- The remainder of numbers with sign. -/
def moduloSigned (left right : BitVec width) : Checked (BitVec width) :=
  if right = 0 then .error .division else .ok (left.srem right)

/-- A single bit. -/
def bit (value : BitVec width) (place : Nat) : Checked Bool :=
  if place < width then .ok (value.getLsbD place) else .error .bounds

/-- A range of bits. -/
def bitRange (value : BitVec width) (start length : Nat) : Checked (BitVec length) :=
  if start + length ≤ width then .ok (value.extractLsb' start length) else .error .bounds

/-- The value with a single bit replaced. -/
def withBit (value : BitVec width) (place : Nat) (isSet : Bool) : BitVec width :=
  if isSet then value ||| BitVec.twoPow width place else value &&& ~~~BitVec.twoPow width place

/-- The value with a range of bits replaced. -/
def withRange {length : Nat} (value : BitVec width) (start : Nat) (field : BitVec length) :
    BitVec width :=
  (value &&& ~~~((BitVec.allOnes length).setWidth width <<< start)) |||
    field.setWidth width <<< start

/-- Replaces a single bit. -/
def putBit (value : BitVec width) (place : Nat) (isSet : Bool) : Checked (BitVec width) :=
  if place < width then .ok (withBit value place isSet) else .error .bounds

/-- Replaces a range of bits. -/
def putRange {length : Nat} (value : BitVec width) (start : Nat) (field : BitVec length) :
    Checked (BitVec width) :=
  if start + length ≤ width then .ok (withRange value start field) else .error .bounds

/-- The bytes from one place to another. -/
def slice (bytes : ByteArray) (start stop : Nat) : Checked ByteArray :=
  if start ≤ stop ∧ stop ≤ bytes.size then .ok (bytes.extract start stop) else .error .bounds

/-- A row of bytes of the expected size. -/
def ofSize (size : Nat) (bytes : ByteArray) : Checked ByteArray :=
  if bytes.size = size then .ok bytes else .error .bounds

/-- The bytes with those from one place to another replaced by as many others. -/
def replace (bytes : ByteArray) (start stop : Nat) (data : ByteArray) : Checked ByteArray :=
  if (start ≤ stop ∧ stop ≤ bytes.size) ∧ stop - start = data.size then
    .ok (data.copySlice 0 bytes start data.size)
  else .error .bounds

@[simp]
theorem fit_ok (value : α) : fit (.ok value) = .ok value := rfl

theorem fit_ofNat {bits number : Nat} {field : BitVec bits} (same : number = field.toNat) :
    fit (Field.ofNat bits number) = .ok field := by
  rw [same, Field.ofNat_toNat, fit_ok]

variable {value left right : BitVec width} {amount place : Nat}

theorem shiftLeft_eq (inside : amount < width) : shiftLeft value amount = .ok (value <<< amount) :=
  if_pos inside

theorem shiftRight_eq (inside : amount < width) :
    shiftRight value amount = .ok (value >>> amount) := if_pos inside

theorem shiftRightSigned_eq (inside : amount < width) :
    shiftRightSigned value amount = .ok (value.sshiftRight amount) := if_pos inside

theorem sub_eq (le : right.toNat ≤ left.toNat) : sub left right = .ok (left - right) := by
  have fits : left.usubOverflow right = false := by
    simpa [BitVec.usubOverflow] using le
  rw [sub, fits]
  rfl

theorem mul_eq (fits : left.toNat * right.toNat < 2 ^ width) :
    mul left right = .ok (left * right) := by
  have fits : left.umulOverflow right = false := by
    simpa [BitVec.umulOverflow] using fits
  rw [mul, fits]
  rfl

theorem mulSigned_eq (least : -2 ^ (width - 1) ≤ left.toInt * right.toInt)
    (greatest : left.toInt * right.toInt < 2 ^ (width - 1)) :
    mulSigned left right = .ok (left * right) := by
  have fits : left.smulOverflow right = false := by
    simpa [BitVec.smulOverflow] using ⟨greatest, least⟩
  rw [mulSigned, fits]
  rfl

theorem divide_eq (nonzero : right ≠ 0) : divide left right = .ok (left / right) :=
  if_neg nonzero

theorem modulo_eq (nonzero : right ≠ 0) : modulo left right = .ok (left % right) :=
  if_neg nonzero

theorem divideSigned_eq (nonzero : right ≠ 0) :
    divideSigned left right = .ok (left.sdiv right) := if_neg nonzero

theorem moduloSigned_eq (nonzero : right ≠ 0) :
    moduloSigned left right = .ok (left.srem right) := if_neg nonzero

theorem bit_eq (inside : place < width) : bit value place = .ok (value.getLsbD place) :=
  if_pos inside

theorem bitRange_eq {start length : Nat} (inside : start + length ≤ width) :
    bitRange value start length = .ok (value.extractLsb' start length) := if_pos inside

theorem putBit_eq {isSet : Bool} (inside : place < width) :
    putBit value place isSet = .ok (withBit value place isSet) := if_pos inside

theorem putRange_eq {start length : Nat} {field : BitVec length}
    (inside : start + length ≤ width) :
    putRange value start field = .ok (withRange value start field) := if_pos inside

theorem slice_eq {bytes : ByteArray} {start stop : Nat} (ordered : start ≤ stop)
    (inside : stop ≤ bytes.size) : slice bytes start stop = .ok (bytes.extract start stop) :=
  if_pos ⟨ordered, inside⟩

theorem ofSize_eq {bytes : ByteArray} {size : Nat} (same : bytes.size = size) :
    ofSize size bytes = .ok bytes := if_pos same

theorem replace_eq {bytes data : ByteArray} {start stop : Nat} (ordered : start ≤ stop)
    (inside : stop ≤ bytes.size) (same : stop - start = data.size) :
    replace bytes start stop data = .ok (data.copySlice 0 bytes start data.size) :=
  if_pos ⟨⟨ordered, inside⟩, same⟩

/-- Low bits that are cut out by a mask. -/
theorem shiftRight_and {start length : Nat} {mask : BitVec width}
    (ones : mask = (BitVec.allOnes length).setWidth width) :
    value >>> start &&& mask = (value.extractLsb' start length).setWidth width := by
  subst ones
  apply BitVec.eq_of_getLsbD_eq
  intro index inside
  simp only [BitVec.getLsbD_and, BitVec.getLsbD_ushiftRight, BitVec.getLsbD_setWidth,
    BitVec.getLsbD_allOnes, BitVec.getLsbD_extractLsb', inside, decide_true, Bool.true_and]
  exact Bool.and_comm ..

theorem and_mask {length : Nat} {mask : BitVec width}
    (ones : mask = (BitVec.allOnes length).setWidth width) :
    value &&& mask = (value.setWidth length).setWidth width := by
  subst ones
  apply BitVec.eq_of_getLsbD_eq
  intro index inside
  simp only [BitVec.getLsbD_and, BitVec.getLsbD_setWidth, BitVec.getLsbD_allOnes, inside,
    decide_true, Bool.true_and]
  exact Bool.and_comm ..

/-- Bits that are cut out of a cut. -/
theorem extractLsb'_extractLsb' {start length start' length' : Nat}
    (inside : start' + length' ≤ length) :
    (value.extractLsb' start length).extractLsb' start' length' =
      value.extractLsb' (start + start') length' := by
  apply BitVec.eq_of_getLsbD_eq
  intro index below
  have within : start' + index < length := by omega
  simp [below, within, Nat.add_assoc]

/-- An extended number without the copies of its sign above some place. -/
theorem setWidth_signExtend {length total : Nat} (value : BitVec width) (inside : length ≤ total) :
    (value.signExtend total).setWidth length = value.signExtend length := by
  apply BitVec.eq_of_getLsbD_eq
  intro index below
  have within : index < total := by omega
  rw [BitVec.getLsbD_setWidth, BitVec.getLsbD_signExtend, BitVec.getLsbD_signExtend]
  simp [below, within]

theorem getLsbD_withBit {index : Nat} (isSet : Bool) (inside : index < width) :
    (withBit value place isSet).getLsbD index =
      if index = place then isSet else value.getLsbD index := by
  by_cases same : index = place
  · subst same
    cases isSet <;> simp [withBit, inside]
  · cases isSet <;> simp [withBit, inside, same]

theorem getLsbD_withRange {start length index : Nat} (field : BitVec length)
    (apart : index < start ∨ start + length ≤ index) :
    (withRange value start field).getLsbD index = value.getLsbD index := by
  by_cases inside : index < width
  · rcases apart with below | above
    · simp [withRange, below, inside]
    · have low : ¬ index < start := by omega
      have outside : length ≤ index - start := by omega
      simp +contextual [withRange, low, inside, outside]
  · have outside : width ≤ index := Nat.le_of_not_lt inside
    rw [BitVec.getLsbD_of_ge _ _ outside, BitVec.getLsbD_of_ge _ _ outside]

theorem extractLsb'_withBit {start length : Nat} (isSet : Bool)
    (apart : place < start ∨ start + length ≤ place) (inside : start + length ≤ width) :
    (withBit value place isSet).extractLsb' start length = value.extractLsb' start length := by
  apply BitVec.eq_of_getLsbD_eq
  intro index below
  have other : start + index ≠ place := by omega
  rw [BitVec.getLsbD_extractLsb', BitVec.getLsbD_extractLsb',
    getLsbD_withBit isSet (by omega), if_neg other]

theorem extractLsb'_withRange {start length : Nat} (field : BitVec length)
    (inside : start + length ≤ width) :
    (withRange value start field).extractLsb' start length = field := by
  apply BitVec.eq_of_getLsbD_eq
  intro index below
  have within : start + index < width := by omega
  have high : ¬ start + index < start := by omega
  simp [withRange, below, within, high]

/-- The parts of a joined number at their places. -/
theorem setWidth_append_eq_or {high low total : Nat} (upper : BitVec high) (lower : BitVec low) :
    (upper ++ lower).setWidth total = upper.setWidth total <<< low ||| lower.setWidth total := by
  apply BitVec.eq_of_getLsbD_eq
  intro index inside
  by_cases below : index < low
  · simp [BitVec.getLsbD_append, below, inside]
  · have outside : lower.getLsbD index = false :=
      BitVec.getLsbD_of_ge lower index (Nat.le_of_not_lt below)
    simp [BitVec.getLsbD_append, below, inside, outside]

end Checked

end RiscV
