/-!
# Sizes of memory accesses

Memory is accessed in units of one, two, four or eight bytes.  An address is aligned to a unit if
the unit's size divides it.
-/

namespace RiscV

/-- A unit of memory access. -/
inductive AccessSize where
  | byte
  | halfword
  | word
  | doubleword
  deriving DecidableEq, Repr

namespace AccessSize

/-- Number of bytes in the unit. -/
def bytes : AccessSize → Nat
  | byte => 1
  | halfword => 2
  | word => 4
  | doubleword => 8

/-- The address is a multiple of the unit. -/
def Aligned (size : AccessSize) (address : Nat) : Prop := size.bytes ∣ address

instance (size : AccessSize) (address : Nat) : Decidable (size.Aligned address) :=
  inferInstanceAs (Decidable (size.bytes ∣ address))

theorem bytes_pos (size : AccessSize) : 0 < size.bytes := by cases size <;> decide

@[simp]
theorem aligned_byte (address : Nat) : byte.Aligned address := Nat.one_dvd address

end AccessSize

end RiscV
