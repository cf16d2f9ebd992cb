import RiscV.Instruction.Compressed
import RiscV.Proofs.Checked.Operation

/-!
# Checked immediates

The immediates of compressed instructions, gathered by shifts and masks on 32-bit words.  Each one
is a list of pieces, every piece a range of bits of the parcel with the place that it moves to; the
pieces are listed from the lowest place to the highest and leave no gaps.  No shift is by the width
or more, and no mask underflows.
-/

namespace RiscV

namespace Checked

open Compressed

/-! ## Fields -/

/-- The bits of a parcel from one place on. -/
def field (code : BitVec 16) (start length : Nat) : Checked (BitVec 32) := do
  let shifted ← shiftRight (code.setWidth 32) start
  let power ← shiftLeft 1 length
  let mask ← sub power 1
  return shifted &&& mask

/-- A number of some bits with sign. -/
def signed (value bits : BitVec 32) : Checked (BitVec 32) := do
  let left ← sub 32 bits
  let shifted ← shiftLeft value left.toNat
  let right ← sub 32 bits
  shiftRightSigned shifted right.toNat

section Fields

/-- The mask for some low bits. -/
theorem one_shiftLeft_sub_one (length : Nat) (inside : length < 32) :
    ((1 : BitVec 32) <<< length) - 1 = (BitVec.allOnes length).setWidth 32 := by
  revert length
  decide

theorem one_le_shiftLeft (length : Nat) (inside : length < 32) :
    (1 : BitVec 32).toNat ≤ ((1 : BitVec 32) <<< length).toNat := by
  revert length
  decide

theorem field_eq (code : BitVec 16) {start length : Nat} (inside : start + length < 32) :
    field code start length = .ok ((bits code start length).setWidth 32) := by
  have start_inside : start < 32 := by omega
  have length_inside : length < 32 := by omega
  rw [field, shiftRight_eq start_inside, ok_bind, shiftLeft_eq length_inside, ok_bind,
    sub_eq (one_le_shiftLeft length length_inside), ok_bind, pure_eq_ok,
    shiftRight_and (one_shiftLeft_sub_one length length_inside), bits,
    BitVec.extractLsb'_setWidth_of_le (Nat.le_of_lt inside)]

theorem signed_eq {width : Nat} (value : BitVec width) (positive : 0 < width) (le : width ≤ 32) :
    signed (value.setWidth 32) (BitVec.ofNat 32 width) = .ok (value.signExtend 32) := by
  have bits : (BitVec.ofNat 32 width).toNat = width := by
    rw [BitVec.toNat_ofNat]
    omega
  have amount : ((32 : BitVec 32) - BitVec.ofNat 32 width).toNat = 32 - width := by
    rw [BitVec.toNat_sub_of_le (by simpa [BitVec.le_def, bits] using le), bits]
    rfl
  have inside : 32 - width < 32 := by omega
  rw [signed, sub_eq (by rw [bits]; exact le), ok_bind, amount, shiftLeft_eq inside, ok_bind,
    ok_bind, amount, shiftRightSigned_eq inside]
  congr 1
  apply BitVec.eq_of_getLsbD_eq
  intro index below
  rw [BitVec.getLsbD_sshiftRight, BitVec.getLsbD_signExtend, BitVec.msb_eq_getLsbD_last,
    BitVec.msb_eq_getLsbD_last]
  rcases Nat.lt_or_ge index width with small | large
  · have shifted : 32 - width + index < 32 := by omega
    have low : ¬ 32 - width + index < 32 - width := by omega
    simp [small, shifted, low, below]
  · have outside : ¬ 32 - width + index < 32 := by omega
    have last : 31 - (32 - width) = width - 1 := by omega
    have sign : ¬ 31 < 32 - width := by omega
    simp [below, Nat.not_le_of_lt below, Nat.not_lt_of_le large, outside, last, sign]

end Fields

/-! ## Pieces -/

/-- A range of bits of a parcel, and the place that it moves to. -/
structure Piece where
  start : Nat
  length : Nat
  place : Nat

/-- The number that has the pieces of a parcel at their places. -/
def gather (code : BitVec 16) : List Piece → Checked (BitVec 32)
  | [] => return 0
  | piece :: pieces => do
      let bits ← field code piece.start piece.length
      return (← shiftLeft bits piece.place) ||| (← gather code pieces)

/-- The pieces of a parcel, joined without checks. -/
def joined (code : BitVec 16) : List Piece → BitVec 32
  | [] => 0
  | piece :: pieces =>
      (bits code piece.start piece.length).setWidth 32 <<< piece.place ||| joined code pieces

section Pieces

variable {code : BitVec 16} {pieces : List Piece}

theorem gather_eq
    (fits : ∀ piece ∈ pieces, piece.start + piece.length < 32 ∧ piece.place < 32) :
    gather code pieces = .ok (joined code pieces) := by
  induction pieces with
  | nil => rfl
  | cons piece pieces ih =>
      obtain ⟨inside, place_inside⟩ := fits piece List.mem_cons_self
      rw [gather, field_eq code inside, ok_bind, shiftLeft_eq place_inside, ok_bind,
        ih fun other member => fits other (List.mem_cons_of_mem piece member)]
      rfl

/-- Above the highest piece there are zeros. -/
theorem joined_nil {zeros place : Nat} :
    joined code [] = (0 : BitVec zeros).setWidth 32 <<< place := by
  rw [BitVec.ofNat_eq_ofNat, BitVec.setWidth_zero, BitVec.zero_shiftLeft]
  rfl

theorem joined_singleton {start length place : Nat} :
    joined code [⟨start, length, place⟩] = (bits code start length).setWidth 32 <<< place :=
  BitVec.or_zero

/-- A piece goes right below those that follow it. -/
theorem joined_cons {width start length place : Nat} {high : BitVec width}
    (above : joined code pieces = high.setWidth 32 <<< (length + place)) :
    joined code (⟨start, length, place⟩ :: pieces) =
      (high ++ bits code start length).setWidth 32 <<< place := by
  rw [joined, above, setWidth_append_eq_or, BitVec.shiftLeft_or_distrib, ← BitVec.shiftLeft_add,
    BitVec.or_comm]

/-- Below the lowest piece there are zeros. -/
theorem joined_zeros {width zeros : Nat} {high : BitVec width}
    (above : joined code pieces = high.setWidth 32 <<< zeros) :
    joined code pieces = (high ++ (0 : BitVec zeros)).setWidth 32 := by
  rw [above, setWidth_append_eq_or, BitVec.ofNat_eq_ofNat, BitVec.setWidth_zero, BitVec.or_zero]

end Pieces

/-! ## Immediates -/

def small (code : BitVec 16) : Checked (BitVec 32) := gather code [⟨2, 5, 0⟩, ⟨12, 1, 5⟩]

def immediate (code : BitVec 16) : Checked (BitVec 32) := do
  signed (← small code) 6

def frameIncrement (code : BitVec 16) : Checked (BitVec 32) :=
  gather code [⟨6, 1, 2⟩, ⟨5, 1, 3⟩, ⟨11, 2, 4⟩, ⟨7, 4, 6⟩]

def stackIncrement (code : BitVec 16) : Checked (BitVec 32) :=
  gather code [⟨6, 1, 4⟩, ⟨2, 1, 5⟩, ⟨5, 1, 6⟩, ⟨3, 2, 7⟩, ⟨12, 1, 9⟩]

/-- The upper immediate at its place within a word, with its sign still to be extended. -/
def upper (code : BitVec 16) : Checked (BitVec 32) := gather code [⟨2, 5, 12⟩, ⟨12, 1, 17⟩]

def wordOffset (code : BitVec 16) : Checked (BitVec 32) :=
  gather code [⟨6, 1, 2⟩, ⟨10, 3, 3⟩, ⟨5, 1, 6⟩]

def doublewordOffset (code : BitVec 16) : Checked (BitVec 32) :=
  gather code [⟨10, 3, 3⟩, ⟨5, 2, 6⟩]

def wordLoadOffset (code : BitVec 16) : Checked (BitVec 32) :=
  gather code [⟨4, 3, 2⟩, ⟨12, 1, 5⟩, ⟨2, 2, 6⟩]

def doublewordLoadOffset (code : BitVec 16) : Checked (BitVec 32) :=
  gather code [⟨5, 2, 3⟩, ⟨12, 1, 5⟩, ⟨2, 3, 6⟩]

def wordStoreOffset (code : BitVec 16) : Checked (BitVec 32) :=
  gather code [⟨9, 4, 2⟩, ⟨7, 2, 6⟩]

def doublewordStoreOffset (code : BitVec 16) : Checked (BitVec 32) :=
  gather code [⟨10, 3, 3⟩, ⟨7, 3, 6⟩]

def jumpOffset (code : BitVec 16) : Checked (BitVec 32) := do
  let offset ← gather code [⟨3, 3, 1⟩, ⟨11, 1, 4⟩, ⟨2, 1, 5⟩, ⟨7, 1, 6⟩, ⟨6, 1, 7⟩, ⟨9, 2, 8⟩,
    ⟨8, 1, 10⟩, ⟨12, 1, 11⟩]
  signed offset 12

def branchOffset (code : BitVec 16) : Checked (BitVec 32) := do
  let offset ← gather code [⟨3, 2, 1⟩, ⟨10, 2, 3⟩, ⟨2, 1, 5⟩, ⟨5, 2, 6⟩, ⟨12, 1, 8⟩]
  signed offset 9

section Immediates

variable (code : BitVec 16)

theorem small_eq : small code = .ok ((Compressed.small code).setWidth 32) := by
  rw [small, gather_eq (by decide), joined_cons joined_singleton, BitVec.shiftLeft_zero]
  rfl

theorem immediate_eq : immediate code = .ok ((Compressed.small code).signExtend 32) := by
  rw [immediate, small_eq, ok_bind]
  exact signed_eq _ (by decide) (by decide)

theorem frameIncrement_eq :
    frameIncrement code = .ok ((Compressed.frameIncrement code).setWidth 32) := by
  rw [frameIncrement, gather_eq (by decide)]
  exact congrArg _ (joined_zeros (joined_cons (joined_cons (joined_cons (joined_cons joined_nil)))))

theorem stackIncrement_eq :
    stackIncrement code = .ok ((Compressed.stackIncrement code).setWidth 32) := by
  rw [stackIncrement, gather_eq (by decide)]
  exact congrArg _ (joined_zeros
    (joined_cons (joined_cons (joined_cons (joined_cons joined_singleton)))))

theorem wordOffset_eq : wordOffset code = .ok ((Compressed.wordOffset code).setWidth 32) := by
  rw [wordOffset, gather_eq (by decide)]
  exact congrArg _ (joined_zeros (joined_cons (joined_cons (joined_cons joined_nil))))

theorem doublewordOffset_eq :
    doublewordOffset code = .ok ((Compressed.doublewordOffset code).setWidth 32) := by
  rw [doublewordOffset, gather_eq (by decide)]
  exact congrArg _ (joined_zeros (joined_cons (joined_cons joined_nil)))

theorem wordLoadOffset_eq :
    wordLoadOffset code = .ok ((Compressed.wordLoadOffset code).setWidth 32) := by
  rw [wordLoadOffset, gather_eq (by decide)]
  exact congrArg _ (joined_zeros (joined_cons (joined_cons (joined_cons joined_nil))))

theorem doublewordLoadOffset_eq :
    doublewordLoadOffset code = .ok ((Compressed.doublewordLoadOffset code).setWidth 32) := by
  rw [doublewordLoadOffset, gather_eq (by decide)]
  exact congrArg _ (joined_zeros (joined_cons (joined_cons (joined_cons joined_nil))))

theorem wordStoreOffset_eq :
    wordStoreOffset code = .ok ((Compressed.wordStoreOffset code).setWidth 32) := by
  rw [wordStoreOffset, gather_eq (by decide)]
  exact congrArg _ (joined_zeros (joined_cons (joined_cons joined_nil)))

theorem doublewordStoreOffset_eq :
    doublewordStoreOffset code = .ok ((Compressed.doublewordStoreOffset code).setWidth 32) := by
  rw [doublewordStoreOffset, gather_eq (by decide)]
  exact congrArg _ (joined_zeros (joined_cons (joined_cons joined_nil)))

/-- An extended number without the zeros below it. -/
theorem extractLsb'_signExtend_append {width zeros length : Nat} (value : BitVec width)
    (positive : 0 < width) (inside : zeros + length ≤ 32) :
    ((value ++ (0 : BitVec zeros)).signExtend 32).extractLsb' zeros length =
      value.signExtend length := by
  apply BitVec.eq_of_getLsbD_eq
  intro index below
  have within : zeros + index < 32 := by omega
  have sign : (value ++ (0 : BitVec zeros)).msb = value.msb := by
    rw [BitVec.msb_append]
    simp [Nat.ne_of_gt positive]
  rw [BitVec.getLsbD_extractLsb', BitVec.getLsbD_signExtend, BitVec.getLsbD_signExtend, sign]
  rcases Nat.lt_or_ge index width with small | large
  · rw [Nat.add_comm] at within
    rw [BitVec.getLsbD_append]
    simp [below, within, small, Nat.add_comm zeros]
  · have beyond : ¬ zeros + index < width + zeros := by omega
    simp [below, within, Nat.not_lt_of_le large, beyond]

theorem upper_eq : upper code = .ok ((Compressed.small code ++ 0#12).setWidth 32) := by
  rw [upper, gather_eq (by decide)]
  exact congrArg _ (joined_zeros (joined_cons joined_singleton))

/-- The upper immediate of a move. -/
theorem signed_upper_eq :
    ∃ imm, (upper code >>= fun value => signed value 18) = .ok imm ∧
      imm.extractLsb' 12 20 = (Compressed.small code).signExtend 20 := by
  refine ⟨(Compressed.small code ++ 0#12).signExtend 32, ?_,
    extractLsb'_signExtend_append _ (by decide) (by decide)⟩
  rw [upper_eq, ok_bind]
  exact signed_eq _ (by decide) (by decide)

theorem jumpOffset_eq :
    ∃ offset, jumpOffset code = .ok offset ∧
      offset.extractLsb' 1 20 = Compressed.jumpOffset code := by
  refine ⟨_, ?_, extractLsb'_signExtend_append _ (by decide) (by decide)⟩
  rw [jumpOffset, gather_eq (by decide), ok_bind, joined_zeros (joined_cons (joined_cons
    (joined_cons (joined_cons (joined_cons (joined_cons (joined_cons joined_singleton)))))))]
  exact signed_eq _ (by decide) (by decide)

theorem branchOffset_eq :
    ∃ offset, branchOffset code = .ok offset ∧
      offset.extractLsb' 1 12 = Compressed.branchOffset code := by
  refine ⟨_, ?_, extractLsb'_signExtend_append _ (by decide) (by decide)⟩
  rw [branchOffset, gather_eq (by decide), ok_bind, joined_zeros (joined_cons (joined_cons
    (joined_cons (joined_cons joined_singleton))))]
  exact signed_eq _ (by decide) (by decide)

end Immediates

end Checked

end RiscV
