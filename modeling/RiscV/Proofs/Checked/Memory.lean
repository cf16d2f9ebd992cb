import RiscV.Memory
import RiscV.Xlen
import RiscV.Proofs.Checked.Operation

/-!
# Checked accesses to memory

Whether an address is aligned is seen from its low bits, and bytes are taken from memory by slices.
The bounds of an access are checked before it is sliced, so that no slice reaches outside.
-/

namespace RiscV

namespace Checked

/-- Whether an address is aligned to a unit. -/
def aligned (size : AccessSize) (address : BitVec 64) : Checked Bool := do
  let mask ← sub (BitVec.ofNat 64 size.bytes) 1
  return address &&& mask == 0

/-- The end of the `count` bytes from `start` on, if there are that many among the first `size`. -/
def stop? {width : Nat} (size : Nat) (start count : BitVec width) : Option (BitVec width) :=
  if start.uaddOverflow count then none
  else if size < (start + count).toNat then none
  else some (start + count)

/-- The width of the addresses of bytes.  It is 64 bits for every memory whose size has as many. -/
def addressWidth (memory : Memory) : Nat := max 64 (memory.size.log2 + 1)

/-- The end of the `count` bytes from an address on, if memory has all of them. -/
def stopIn? (memory : Memory) (address count : BitVec 64) : Option Nat :=
  let width := addressWidth memory
  (stop? memory.size (address.setWidth width) (count.setWidth width)).map BitVec.toNat

/-- The bytes from an address on. -/
def read (memory : Memory) (address count : BitVec 64) :
    Checked (Except AccessFault ByteArray) := do
  match stopIn? memory address count with
  | none => return .error {}
  | some stop =>
      return .ok (← ofSize count.toNat (← slice memory.bytes address.toNat stop))

/-- Replaces the bytes from an address on, or none of them. -/
def write (address : BitVec 64) (data : ByteArray) (memory : Memory) :
    Checked (EStateM.Result AccessFault Memory Unit) := do
  match stopIn? memory address (BitVec.ofNat 64 data.size) with
  | none => return .error {} memory
  | some stop => return .ok () ⟨← replace memory.bytes address.toNat stop data⟩

/-- Clears the bytes from an address on, or none of them. -/
def clear (address count : BitVec 64) (memory : Memory) :
    Checked (EStateM.Result AccessFault Memory Unit) := do
  match stopIn? memory address count with
  | none => return .error {} memory
  | some stop =>
      let zeros := (Memory.zeros count.toNat).bytes
      return .ok () ⟨← replace memory.bytes address.toNat stop zeros⟩

/-- The number stored in a unit at an address. -/
def load (memory : Memory) (size : AccessSize) (address : BitVec 64) :
    Checked (Except AccessFault (BitVec (8 * size.bytes))) := do
  return (← read memory address (BitVec.ofNat 64 size.bytes)).map fun bytes =>
    BitVec.ofNat _ (LittleEndian.toNat bytes.data.toList)

/-- Stores a number in a unit at an address. -/
def store (size : AccessSize) (address : BitVec 64) (value : BitVec (8 * size.bytes))
    (memory : Memory) : Checked (EStateM.Result AccessFault Memory Unit) :=
  write address (LittleEndian.ofNat size.bytes value.toNat).toByteArray memory

/-- The low bits of a number are zero if a power of two divides it. -/
theorem and_eq_zero_iff {mask address : BitVec 64} {length : Nat}
    (ones : mask = (BitVec.allOnes length).setWidth 64) (inside : length ≤ 64) :
    address &&& mask = 0 ↔ 2 ^ length ∣ address.toNat := by
  rw [and_mask ones, BitVec.toNat_eq, BitVec.toNat_setWidth_of_le inside, BitVec.toNat_setWidth,
    Nat.dvd_iff_mod_eq_zero]
  rfl

theorem aligned_eq {x : Xlen} (size : AccessSize) (address : Word x) :
    aligned size address.toDouble = .ok (decide (size.Aligned address.toNat)) := by
  have number : address.toDouble.toNat = address.toNat := BitVec.toNat_setWidth_of_le x.bits_le
  have divides (mask : BitVec 64) (length : Nat)
      (ones : mask = (BitVec.allOnes length).setWidth 64) (inside : length ≤ 64) :
      (address.toDouble &&& mask == 0) = decide (2 ^ length ∣ address.toNat) := by
    rw [Bool.eq_iff_iff, beq_iff_eq, decide_eq_true_iff, and_eq_zero_iff ones inside, number]
  cases size with
  | byte => exact congrArg Except.ok (divides 0 0 rfl (by decide))
  | halfword => exact congrArg Except.ok (divides 1 1 rfl (by decide))
  | word => exact congrArg Except.ok (divides 3 2 rfl (by decide))
  | doubleword => exact congrArg Except.ok (divides 7 3 rfl (by decide))

section Stops

variable {width size : Nat} {start count stop : BitVec width}

/-- An end that wraps around is found out, and no other is taken for one. -/
theorem stop?_eq_some_iff (bounded : size < 2 ^ width) :
    stop? size start count = some stop ↔
      start.toNat + count.toNat ≤ size ∧ stop.toNat = start.toNat + count.toNat := by
  unfold stop?
  by_cases wraps : 2 ^ width ≤ start.toNat + count.toNat
  · have overflow : start.uaddOverflow count = true := decide_eq_true wraps
    rw [overflow, if_pos rfl]
    exact iff_of_false nofun fun inside =>
      Nat.not_lt_of_le (Nat.le_trans wraps inside.1) bounded
  · have fits : start.uaddOverflow count = false := decide_eq_false wraps
    have sum : (start + count).toNat = start.toNat + count.toNat := by
      rw [BitVec.toNat_add, Nat.mod_eq_of_lt (Nat.lt_of_not_le wraps)]
    rw [fits, if_neg Bool.false_ne_true, ← sum, BitVec.toNat_inj]
    split
    · rename_i beyond
      exact iff_of_false nofun fun inside => Nat.not_lt_of_le inside.1 beyond
    · rename_i within
      rw [Option.some_inj, and_iff_right (Nat.le_of_not_lt within), eq_comm]

theorem stop?_eq_none_iff (bounded : size < 2 ^ width) :
    stop? size start count = none ↔ size < start.toNat + count.toNat := by
  constructor
  · intro beyond
    refine Nat.lt_of_not_le fun inside => ?_
    have sum : (start + count).toNat = start.toNat + count.toNat :=
      BitVec.toNat_add_of_lt (Nat.lt_of_le_of_lt inside bounded)
    cases beyond.symm.trans ((stop?_eq_some_iff bounded).mpr ⟨inside, sum⟩)
  · intro beyond
    refine Option.eq_none_iff_forall_ne_some.mpr fun stop found => ?_
    exact Nat.not_lt_of_le ((stop?_eq_some_iff bounded).mp found).1 beyond

/-- The end as a number, where the whole size has one. -/
theorem map_toNat_stop? (bounded : size < 2 ^ width) :
    (stop? size start count).map BitVec.toNat =
      if start.toNat + count.toNat ≤ size then some (start.toNat + count.toNat) else none := by
  cases found : stop? size start count with
  | none => exact (if_neg (Nat.not_le_of_lt ((stop?_eq_none_iff bounded).mp found))).symm
  | some stop =>
      obtain ⟨inside, sum⟩ := (stop?_eq_some_iff bounded).mp found
      rw [if_pos inside, Option.map_some, sum]

end Stops

section Accesses

variable (memory : Memory) (address count : BitVec 64)

theorem stopIn?_eq :
    stopIn? memory address count =
      if memory.Holds address.toNat count.toNat then some (address.toNat + count.toNat)
      else none := by
  have bounded : memory.size < 2 ^ addressWidth memory :=
    Nat.lt_of_lt_of_le Nat.lt_log2_self (Nat.pow_le_pow_right (by decide) (Nat.le_max_right ..))
  have wide (number : BitVec 64) : (number.setWidth (addressWidth memory)).toNat = number.toNat :=
    BitVec.toNat_setWidth_of_le (Nat.le_max_left ..)
  rw [stopIn?, map_toNat_stop? bounded, wide, wide]
  rfl

/-- The end is found in 64 bits if the size has as many. -/
theorem stopIn?_of_lt (addressed : memory.size < 2 ^ 64) :
    stopIn? memory address count = (stop? memory.size address count).map BitVec.toNat := by
  rw [stopIn?_eq, map_toNat_stop? addressed]
  rfl

theorem read_eq :
    read memory address count = .ok (memory.read address.toNat count.toNat) := by
  simp only [read, stopIn?_eq, Memory.read]
  by_cases inside : memory.Holds address.toNat count.toNat
  · have stop : address.toNat + count.toNat ≤ memory.bytes.size := inside
    have size : (memory.bytes.extract address.toNat (address.toNat + count.toNat)).size =
        count.toNat := by
      rw [ByteArray.size_extract, Nat.min_eq_left stop, Nat.add_sub_cancel_left]
    simp only [if_pos inside, slice_eq (Nat.le_add_right ..) stop, ok_bind, ofSize_eq size]
    rfl
  · simp only [if_neg inside]
    rfl

theorem write_eq {data : ByteArray} (bounded : data.size < 2 ^ 64) :
    write address data memory = .ok (Memory.write address.toNat data memory) := by
  have count : (BitVec.ofNat 64 data.size).toNat = data.size := Nat.mod_eq_of_lt bounded
  simp only [write, stopIn?_eq, Memory.write, count]
  by_cases inside : memory.Holds address.toNat data.size
  · simp only [if_pos inside,
      replace_eq (Nat.le_add_right ..) inside (Nat.add_sub_cancel_left ..), ok_bind]
    rfl
  · simp only [if_neg inside]
    rfl

theorem clear_eq :
    clear address count memory = .ok (Memory.clear address.toNat count.toNat memory) := by
  have size : (Memory.zeros count.toNat).bytes.size = count.toNat := Memory.size_zeros _
  simp only [clear, stopIn?_eq, Memory.clear]
  by_cases inside : memory.Holds address.toNat count.toNat
  · simp only [if_pos inside,
      replace_eq (Nat.le_add_right ..) inside (by rw [size, Nat.add_sub_cancel_left]), ok_bind]
    rfl
  · simp only [if_neg inside]
    rfl

end Accesses

section Units

variable {x : Xlen} (memory : Memory) (size : AccessSize) (address : Word x)

theorem bytes_lt : size.bytes < 2 ^ 64 := by
  cases size <;> decide

theorem load_eq : load memory size address.toDouble = .ok (memory.load size address.toNat) := by
  have number : address.toDouble.toNat = address.toNat := BitVec.toNat_setWidth_of_le x.bits_le
  have count : (BitVec.ofNat 64 size.bytes).toNat = size.bytes := Nat.mod_eq_of_lt (bytes_lt size)
  rw [load, read_eq, number, count]
  rfl

theorem store_eq (value : BitVec (8 * size.bytes)) :
    store size address.toDouble value memory =
      .ok (Memory.store size address.toNat value memory) := by
  have number : address.toDouble.toNat = address.toNat := BitVec.toNat_setWidth_of_le x.bits_le
  have count : (LittleEndian.ofNat size.bytes value.toNat).toByteArray.size = size.bytes := by
    simp
  have bounded := Nat.lt_of_le_of_lt (Nat.le_of_eq count) (bytes_lt size)
  rw [store, write_eq memory _ bounded, number]
  rfl

end Units

end Checked

end RiscV
