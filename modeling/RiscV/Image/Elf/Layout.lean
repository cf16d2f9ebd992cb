import RiscV.LittleEndian

/-!
# The layout of executables

The numbers in an executable have one of two byte orders, and its tables one of two layouts, for
files of 32 and of 64 bits.  A number can be read if it lies within the file.
-/

namespace RiscV

namespace Elf

/-- How the numbers of a file are laid out. -/
structure Layout where
  /-- Whether the file has the layout of 64 bits. -/
  isWide : Bool
  /-- Whether numbers start with their most significant byte. -/
  isBigEndian : Bool
  deriving DecidableEq, Repr

/-- A place in a table entry. -/
structure Place where
  /-- The first byte, counted from the start of the entry. -/
  offset : Nat
  width : Nat
  deriving DecidableEq, Repr

/-- A number of a table entry, with its place in each of the layouts. -/
structure Field where
  /-- The place in the layout of 32 bits. -/
  narrow : Place
  /-- The place in the layout of 64 bits. -/
  wide : Place
  deriving DecidableEq, Repr

/-- The size of a table entry in each of the layouts. -/
structure EntrySize where
  /-- The size in the layout of 32 bits. -/
  narrow : Nat
  /-- The size in the layout of 64 bits. -/
  wide : Nat
  deriving DecidableEq, Repr

/-- The bytes from `start` on are within the file. -/
def Within (file : ByteArray) (start count : Nat) : Prop := start + count ≤ file.size

instance (file : ByteArray) (start count : Nat) : Decidable (Within file start count) :=
  inferInstanceAs (Decidable (start + count ≤ file.size))

/-- The bytes from `start` on, if they are within the file. -/
def slice? (file : ByteArray) (start count : Nat) : Option ByteArray :=
  if Within file start count then some (file.extract start (start + count)) else none

namespace Layout

/-- The place of a field. -/
def place (layout : Layout) (field : Field) : Place :=
  if layout.isWide then field.wide else field.narrow

/-- The size of an entry. -/
def size (layout : Layout) (entry : EntrySize) : Nat :=
  if layout.isWide then entry.wide else entry.narrow

/-- The number that some bytes stand for. -/
def number (layout : Layout) (bytes : List UInt8) : Nat :=
  LittleEndian.toNat (if layout.isBigEndian then bytes.reverse else bytes)

/-- The number in a field of the entry that starts at `base`. -/
def field? (layout : Layout) (file : ByteArray) (base : Nat) (field : Field) : Option Nat :=
  let place := layout.place field
  (slice? file (base + place.offset) place.width).map fun bytes =>
    layout.number bytes.data.toList

end Layout

end Elf

end RiscV
