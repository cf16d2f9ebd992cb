import RiscV.Memory

/-!
# Memory byte by byte

Memory is seen through the bytes at its addresses.  A number is spelled by as many bytes as it is
wide, its least significant byte first: a load succeeds with the number that memory spells at the
address, and a store changes memory so that it spells the number there, and changes nothing else.
-/

namespace RiscV

namespace LittleEndian

theorem getElem?_ofNat {count index : Nat} (inside : index < count) (value : Nat) :
    (ofNat count value)[index]? = some (UInt8.ofNat (value >>> (8 * index))) := by
  induction count generalizing index value with
  | zero => cases inside
  | succ count ih =>
      cases index with
      | zero => rfl
      | succ index =>
          have byte : value / 256 = value >>> 8 := (Nat.shiftRight_eq_div_pow value 8).symm
          have shifted : (value / 256) >>> (8 * index) = value >>> (8 * (index + 1)) := by
            rw [byte, ← Nat.shiftRight_add, Nat.mul_succ, Nat.add_comm]
          rw [ofNat, List.getElem?_cons_succ, ih (Nat.lt_of_succ_lt_succ inside), shifted]

/-- The digits of a number that is read from a list are the list. -/
theorem ofNat_toNat (bytes : List UInt8) : ofNat bytes.length (toNat bytes) = bytes := by
  induction bytes with
  | nil => rfl
  | cons byte rest ih =>
      have bound := byte.toNat_lt
      have low : UInt8.ofNat (byte.toNat + 256 * toNat rest) = byte := by
        apply UInt8.toNat_inj.mp
        rw [UInt8.toNat_ofNat']
        omega
      have high : (byte.toNat + 256 * toNat rest) / 256 = toNat rest := by omega
      rw [List.length_cons, toNat, ofNat, low, high, ih]

theorem toNat_lt (bytes : List UInt8) : toNat bytes < 1 <<< (8 * bytes.length) := by
  rw [← ofNat_toNat bytes, toNat_ofNat, length_ofNat]
  exact Nat.mod_lt _ (by rw [Nat.one_shiftLeft]; exact Nat.two_pow_pos _)

end LittleEndian

namespace Memory

variable {memory after : Memory} {address count index : Nat} {data : ByteArray}

/-- The byte at an address, if there is memory. -/
def byte? (memory : Memory) (address : Nat) : Option UInt8 := memory.bytes.data[address]?

/-- The bytes from the address on are those of the number, its least significant byte first. -/
def Spells (memory : Memory) (address count : Nat) (value : BitVec (8 * count)) : Prop :=
  ∀ index < count,
    memory.byte? (address + index) = some (UInt8.ofBitVec (value.extractLsb' (8 * index) 8))

instance (memory : Memory) (address count : Nat) (value : BitVec (8 * count)) :
    Decidable (memory.Spells address count value) :=
  inferInstanceAs (Decidable (∀ index < count, _))

theorem byte?_eq_none_iff : memory.byte? address = none ↔ memory.size ≤ address :=
  Array.getElem?_eq_none_iff

/-- Memory is nothing but the bytes at its addresses. -/
theorem ext_byte? (same : ∀ index, after.byte? index = memory.byte? index) : after = memory := by
  have bytes : after.bytes.data = memory.bytes.data := Array.ext_getElem? same
  cases after
  cases memory
  exact congrArg Memory.mk (ByteArray.ext bytes)

theorem byte?_overwrite (held : memory.Holds address data.size) (index : Nat) :
    (memory.overwrite address data).byte? index =
      if address ≤ index ∧ index < address + data.size then data.data[index - address]?
      else memory.byte? index := by
  have inside : address + data.data.size ≤ memory.bytes.data.size := held
  simp only [overwrite, byte?, ByteArray.copySlice_eq_append, ByteArray.data_append,
    ByteArray.data_extract, Array.getElem?_append, Array.getElem?_extract, Array.size_append,
    Array.size_extract, ByteArray.size]
  grind

namespace Spells

variable {value : BitVec (8 * count)}

/-- Part of what is spelled is spelled where it starts. -/
theorem slice (spells : memory.Spells address count value) {start length : Nat}
    (inside : start + length ≤ count) :
    memory.Spells (address + start) length (value.extractLsb' (8 * start) (8 * length)) := by
  intro index below
  have byte := spells (start + index) (by omega)
  have place : (value.extractLsb' (8 * start) (8 * length)).extractLsb' (8 * index) 8 =
      value.extractLsb' (8 * (start + index)) 8 := by
    apply BitVec.eq_of_getLsbD_eq
    intro bit low
    have within : 8 * index + bit < 8 * length := by omega
    simp only [BitVec.getLsbD_extractLsb', low, within, decide_true, Bool.true_and,
      Nat.mul_add, Nat.add_assoc]
  rw [place, Nat.add_assoc]
  exact byte

theorem unique (spells : memory.Spells address count value) {value' : BitVec (8 * count)}
    (spells' : memory.Spells address count value') : value' = value := by
  apply BitVec.eq_of_getLsbD_eq
  intro bit inside
  have below : bit / 8 < count := by omega
  have byte := (spells' _ below).symm.trans (spells _ below)
  have same : value'.extractLsb' (8 * (bit / 8)) 8 = value.extractLsb' (8 * (bit / 8)) 8 :=
    congrArg UInt8.toBitVec (Option.some.inj byte)
  have low : bit % 8 < 8 := Nat.mod_lt _ (by decide)
  have bits := congrArg (·.getLsbD (bit % 8)) same
  simpa only [BitVec.getLsbD_extractLsb', low, decide_true, Bool.true_and, Nat.div_add_mod]
    using bits

/-- What is spelled depends on the bytes in its place only. -/
theorem congr (spells : memory.Spells address count value)
    (same : ∀ index, address ≤ index → index < address + count →
      after.byte? index = memory.byte? index) : after.Spells address count value := by
  intro index below
  rw [same _ (Nat.le_add_right ..) (Nat.add_lt_add_left below _)]
  exact spells index below

theorem holds (spells : memory.Spells address count value) (positive : 0 < count) :
    memory.Holds address count := by
  have last := spells (count - 1) (by omega)
  have inside : ¬ memory.size ≤ address + (count - 1) := by
    intro outside
    cases last.symm.trans (byte?_eq_none_iff.mpr outside)
  unfold Holds
  omega

end Spells

/-- The number with given digits is spelled by them. -/
theorem spells_toNat {bytes : List UInt8} (length : bytes.length = count)
    (found : ∀ index < count, memory.byte? (address + index) = bytes[index]?) :
    memory.Spells address count (BitVec.ofNat (8 * count) (LittleEndian.toNat bytes)) := by
  subst length
  intro index below
  have digit := LittleEndian.getElem?_ofNat below (LittleEndian.toNat bytes)
  rw [LittleEndian.ofNat_toNat] at digit
  have bound := LittleEndian.toNat_lt bytes
  rw [Nat.one_shiftLeft] at bound
  rw [found index below, digit]
  congr 1
  apply UInt8.toNat_inj.mp
  rw [UInt8.toNat_ofNat', UInt8.toNat_ofBitVec, BitVec.extractLsb'_toNat, BitVec.toNat_ofNat,
    Nat.mod_eq_of_lt bound]

theorem load_of_holds {size : AccessSize} (held : memory.Holds address size.bytes) :
    ∃ value, memory.load size address = .ok value ∧ memory.Spells address size.bytes value := by
  have inside : address + size.bytes ≤ memory.bytes.data.size := held
  refine ⟨_, by rw [load, read, if_pos held]; rfl, spells_toNat ?_ fun index below => ?_⟩
  · rw [Array.length_toList, ByteArray.data_extract, Array.size_extract]
    omega
  · rw [Array.getElem?_toList, ByteArray.data_extract, Array.getElem?_extract, if_pos (by omega)]
    rfl

theorem load_eq_ok_iff {size : AccessSize} {value : BitVec (8 * size.bytes)} :
    memory.load size address = .ok value ↔ memory.Spells address size.bytes value := by
  constructor
  · intro loaded
    by_cases held : memory.Holds address size.bytes
    · obtain ⟨value', loaded', spells⟩ := load_of_holds held
      cases loaded.symm.trans loaded'
      exact spells
    · rw [load, read, if_neg held] at loaded
      cases loaded
  · intro spells
    obtain ⟨value', loaded, spells'⟩ := load_of_holds (spells.holds size.bytes_pos)
    rw [loaded, spells.unique spells']

theorem load_of_not_holds {size : AccessSize} (outside : ¬ memory.Holds address size.bytes) :
    memory.load size address = .error {} := by
  rw [load, read, if_neg outside]
  rfl

/-- A load depends on the bytes in its place only. -/
theorem load_congr {size : AccessSize}
    (same : ∀ index, address ≤ index → index < address + size.bytes →
      after.byte? index = memory.byte? index) :
    after.load size address = memory.load size address := by
  by_cases held : memory.Holds address size.bytes
  · obtain ⟨value, loaded, spells⟩ := load_of_holds held
    rw [loaded, load_eq_ok_iff]
    exact spells.congr same
  · have held' : ¬ after.Holds address size.bytes := by
      intro held'
      obtain ⟨value, -, spells⟩ := load_of_holds held'
      exact held ((spells.congr fun index low high => (same index low high).symm).holds
        size.bytes_pos)
    rw [load_of_not_holds held, load_of_not_holds held']

/-! ## Stores -/

/-- Memory with a number put in a unit at the address. -/
def put (memory : Memory) (size : AccessSize) (address : Nat) (value : BitVec (8 * size.bytes)) :
    Memory :=
  memory.overwrite address (LittleEndian.ofNat size.bytes value.toNat).toByteArray

section Put

variable {size : AccessSize} {value : BitVec (8 * size.bytes)}

theorem size_put (held : memory.Holds address size.bytes) :
    (memory.put size address value).size = memory.size := by
  have count : (LittleEndian.ofNat size.bytes value.toNat).toByteArray.size = size.bytes := by simp
  exact size_overwrite (count.symm ▸ held)

theorem byte?_put (held : memory.Holds address size.bytes) (index : Nat) :
    (memory.put size address value).byte? index =
      if address ≤ index ∧ index < address + size.bytes then
        (LittleEndian.ofNat size.bytes value.toNat)[index - address]?
      else memory.byte? index := by
  have count : (LittleEndian.ofNat size.bytes value.toNat).toByteArray.size = size.bytes := by simp
  have written := byte?_overwrite (count.symm ▸ held) index
  rwa [count, List.data_toByteArray, List.getElem?_toArray] at written

theorem spells_put (held : memory.Holds address size.bytes) :
    (memory.put size address value).Spells address size.bytes value := by
  intro index below
  rw [byte?_put held, if_pos ⟨Nat.le_add_right .., Nat.add_lt_add_left below _⟩,
    Nat.add_sub_cancel_left, LittleEndian.getElem?_ofNat below]
  congr 1

theorem byte?_put_outside (held : memory.Holds address size.bytes)
    (outside : ¬ (address ≤ index ∧ index < address + size.bytes)) :
    (memory.put size address value).byte? index = memory.byte? index := by
  rw [byte?_put held, if_neg outside]

end Put

end Memory

end RiscV
