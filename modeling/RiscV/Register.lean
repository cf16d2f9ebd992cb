import RiscV.Field

/-!
# Register numbers

Instructions name an integer register in five bits.  Compressed instructions name the eight
registers from `x8` on in three bits.
-/

namespace RiscV

/-- The number of an integer register. -/
abbrev Register := BitVec 5

namespace Register

/-- The register that holds return addresses by convention. -/
def ra : Register := 1

/-- The register that holds the stack pointer by convention. -/
def sp : Register := 2

/-- The register named by a three-bit field of a compressed instruction. -/
def ofCompressed (code : BitVec 3) : Register := 0b01#2 ++ code

/-- The register with the given number. -/
def ofNat (index : Nat) : Except RangeError Register := Field.ofNat 5 index

/-- The register that a compressed instruction names by the given number. -/
def ofCompressedNat (index : Nat) : Except RangeError Register :=
  (Field.ofNat 3 index).map ofCompressed

def name (register : Register) : String := "x" ++ toString register.toNat

end Register

end RiscV
