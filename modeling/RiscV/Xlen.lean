/-!
# Register widths

A base instruction set fixes the width of a register.  Words are bit vectors of that width.  The
conversions relate them to the 64-bit values in which counters and configured addresses are kept.
-/

namespace RiscV

/-- The register width of a base instruction set. -/
inductive Xlen where
  /-- Registers and addresses have 32 bits. -/
  | rv32
  /-- Registers and addresses have 64 bits. -/
  | rv64
  deriving DecidableEq, Repr

namespace Xlen

/-- Number of bits in a register. -/
def bits : Xlen → Nat
  | rv32 => 32
  | rv64 => 64

/-- Whether registers have 64 bits. -/
def isWide : Xlen → Bool
  | rv32 => false
  | rv64 => true

/-- The two-bit code of the width that the machine reports about itself. -/
def mxl : Xlen → BitVec 2
  | rv32 => 1
  | rv64 => 2

/-- The bits of a register that give the amount of a register-wide shift. -/
def shiftMask (x : Xlen) : Nat := x.bits - 1

theorem bits_pos (x : Xlen) : 0 < x.bits := by cases x <;> decide

theorem bits_le (x : Xlen) : x.bits ≤ 64 := by cases x <;> decide

end Xlen

/-- The contents of a register. -/
abbrev Word (x : Xlen) := BitVec x.bits

namespace Word

variable {x : Xlen}

/-- The low bits of a 64-bit value. -/
def ofDouble (value : BitVec 64) : Word x := value.setWidth x.bits

/-- The word with zeros above it. -/
def toDouble (word : Word x) : BitVec 64 := word.setWidth 64

/-- The word with copies of its sign above it. -/
def toSignedDouble (word : Word x) : BitVec 64 := word.signExtend 64

/-- The word whose only set bit is the most significant one. -/
def signBit : Word x := BitVec.twoPow x.bits (x.bits - 1)

/-- One for a true condition and zero for a false one. -/
def ofBool (condition : Bool) : Word x := (BitVec.ofBool condition).setWidth x.bits

@[simp]
theorem ofDouble_toDouble (word : Word x) : ofDouble word.toDouble = word := by
  simp [ofDouble, toDouble, BitVec.setWidth_setWidth_of_le, x.bits_le]

end Word

end RiscV
