import RiscV.AccessSize
import RiscV.LittleEndian

/-!
# Main memory

Memory is a row of bytes that starts at address zero.  An access succeeds exactly if it lies wholly
inside, and one that fails leaves the memory as it was.  Numbers are stored with their least
significant byte first.
-/

namespace RiscV

/-- A row of bytes, the first of them at address zero. -/
structure Memory where
  /-- The bytes in the order of their addresses. -/
  bytes : ByteArray

instance : DecidableEq Memory := fun a b =>
  decidable_of_iff (a.bytes.data = b.bytes.data) (by
    cases a
    cases b
    simp [ByteArray.ext_iff])

/-- An access reached outside of memory. -/
structure AccessFault where
  deriving DecidableEq, Repr

namespace AccessFault

def message (_ : AccessFault) : String := "access fault"

end AccessFault

namespace Memory

/-- A row of equal bytes. -/
def filled (size : Nat) (byte : UInt8) : Memory := ⟨⟨Array.replicate size byte⟩⟩

/-- Memory of the given size in which every byte is zero. -/
def zeros (size : Nat) : Memory := filled size 0

/-- Number of bytes. -/
def size (memory : Memory) : Nat := memory.bytes.size

/-- Memory of the same size in which every byte is zero. -/
def reset (memory : Memory) : Memory := zeros memory.size

/-- All `count` bytes from the address on lie in memory. -/
def Holds (memory : Memory) (address count : Nat) : Prop := address + count ≤ memory.size

instance (memory : Memory) (address count : Nat) : Decidable (memory.Holds address count) :=
  inferInstanceAs (Decidable (address + count ≤ memory.size))

/-- The `count` bytes from the address on. -/
def read (memory : Memory) (address count : Nat) : Except AccessFault ByteArray :=
  if memory.Holds address count then .ok (memory.bytes.extract address (address + count))
  else .error {}

/-- Memory with some bytes from the address on replaced by others. -/
def overwrite (memory : Memory) (address : Nat) (data : ByteArray) : Memory :=
  ⟨data.copySlice 0 memory.bytes address data.size⟩

/-- Replaces the bytes from the address on, or none of them. -/
def write (address : Nat) (data : ByteArray) : EStateM AccessFault Memory Unit := fun memory =>
  if memory.Holds address data.size then .ok () (memory.overwrite address data)
  else .error {} memory

/-- Clears the `count` bytes from the address on, or none of them. -/
def clear (address count : Nat) : EStateM AccessFault Memory Unit := fun memory =>
  if memory.Holds address count then .ok () (memory.overwrite address (zeros count).bytes)
  else .error {} memory

/-- The number stored in a unit at the address. -/
def load (memory : Memory) (size : AccessSize) (address : Nat) :
    Except AccessFault (BitVec (8 * size.bytes)) :=
  (memory.read address size.bytes).map fun bytes =>
    BitVec.ofNat _ (LittleEndian.toNat bytes.data.toList)

/-- Stores a number in a unit at the address. -/
def store (size : AccessSize) (address : Nat) (value : BitVec (8 * size.bytes)) :
    EStateM AccessFault Memory Unit :=
  write address (LittleEndian.ofNat size.bytes value.toNat).toByteArray

@[simp]
theorem size_filled (size : Nat) (byte : UInt8) : (filled size byte).size = size := by
  simp [filled, Memory.size, ByteArray.size]

@[simp]
theorem size_zeros (size : Nat) : (zeros size).size = size := size_filled size 0

@[simp]
theorem size_reset (memory : Memory) : memory.reset.size = memory.size := size_zeros memory.size

theorem size_overwrite {memory : Memory} {address : Nat} {data : ByteArray}
    (h : memory.Holds address data.size) : (memory.overwrite address data).size = memory.size := by
  simp only [Holds, size] at h
  simp only [overwrite, size, ByteArray.copySlice_eq_append, ByteArray.size_append,
    ByteArray.size_extract, ByteArray.size_data]
  omega

end Memory

end RiscV
