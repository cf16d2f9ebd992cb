import RiscV.Register
import RiscV.Xlen

/-!
# The integer registers

A hart has between one and 32 integer registers.  Register zero always holds zero: writing it does
nothing.  Naming a register that does not exist reads zero and writes nothing.
-/

namespace RiscV

/-- The integer registers of a hart. -/
structure Registers (x : Xlen) where
  /-- The contents of the registers in the order of their numbers. -/
  values : Array (Word x)
  deriving DecidableEq, Repr

namespace Registers

variable {x : Xlen}

/-- The greatest number of registers that instructions can name. -/
def maxCount : Nat := 32

/-- Registers that all hold zero; their number is the nearest one that is possible. -/
def zeros (count : Nat) : Registers x := ⟨Array.replicate (max 1 (min count maxCount)) 0⟩

/-- How many registers there are. -/
def count (registers : Registers x) : Nat := registers.values.size

/-- The register exists. -/
def Contains (registers : Registers x) (register : Register) : Prop :=
  register.toNat < registers.count

instance (registers : Registers x) (register : Register) :
    Decidable (registers.Contains register) :=
  inferInstanceAs (Decidable (register.toNat < registers.count))

/-- The contents of the register with the given number, if it exists. -/
def get? (registers : Registers x) (index : Nat) : Option (Word x) := registers.values[index]?

/-- The contents of a register, zero for one that does not exist. -/
def read (registers : Registers x) (register : Register) : Word x :=
  (registers.get? register.toNat).getD 0

/-- Sets the contents of a register other than register zero. -/
def write (registers : Registers x) (register : Register) (value : Word x) : Registers x :=
  if register = 0 then registers else ⟨registers.values.setIfInBounds register.toNat value⟩

/-- Sets the contents of a register, and gives those it had. -/
def exchange (registers : Registers x) (register : Register) (value : Word x) :
    Word x × Registers x :=
  (if register = 0 then 0 else registers.read register, registers.write register value)

/-- Registers of the same number that all hold zero. -/
def reset (registers : Registers x) : Registers x := ⟨Array.replicate registers.count 0⟩

@[simp]
theorem count_write (registers : Registers x) (register : Register) (value : Word x) :
    (registers.write register value).count = registers.count := by
  unfold write
  split <;> simp [count]

@[simp]
theorem count_reset (registers : Registers x) : registers.reset.count = registers.count := by
  simp [reset, count]

theorem count_zeros {number : Nat} (positive : 1 ≤ number) (bounded : number ≤ maxCount) :
    (zeros number : Registers x).count = number := by
  simp only [zeros, count, Array.size_replicate]
  omega

theorem get?_zeros {number index : Nat} (inside : index < (zeros number : Registers x).count) :
    (zeros number : Registers x).get? index = some 0 := by
  simp only [zeros, count, Array.size_replicate] at inside
  simp [zeros, get?, inside]

theorem get?_write (registers : Registers x) (register : Register) (value : Word x) (index : Nat) :
    (registers.write register value).get? index =
      if register ≠ 0 ∧ register.toNat = index then (registers.get? index).map fun _ => value
      else registers.get? index := by
  by_cases zero : register = 0
  · simp [write, zero]
  · rw [write, if_neg zero]
    simp only [get?, Array.getElem?_setIfInBounds]
    by_cases same : register.toNat = index
    · subst same
      have named : register ≠ 0 ∧ register.toNat = register.toNat := ⟨zero, rfl⟩
      rw [if_pos rfl, if_pos named]
      by_cases inside : register.toNat < registers.values.size <;> simp [inside]
    · simp [same]

theorem read_write (registers : Registers x) (register other : Register) (value : Word x) :
    (registers.write register value).read other =
      if register = other ∧ register ≠ 0 ∧ registers.Contains register then value
      else registers.read other := by
  by_cases zero : register = 0
  · simp [write, zero]
  · simp only [write, if_neg zero, read, get?, Contains, count, Array.getElem?_setIfInBounds]
    by_cases same : register = other
    · subst same
      by_cases inside : register.toNat < registers.values.size
      · simp only [inside, if_true, Option.getD_some, ne_eq, zero, not_false_eq_true, and_self]
      · simp [inside]
    · have distinct : register.toNat ≠ other.toNat := fun h => same (BitVec.eq_of_toNat_eq h)
      simp [same, distinct]

theorem read_write_self {registers : Registers x} {register : Register} {value : Word x}
    (nonzero : register ≠ 0) (contains : registers.Contains register) :
    (registers.write register value).read register = value := by
  rw [read_write, if_pos ⟨rfl, nonzero, contains⟩]

theorem read_write_of_ne {registers : Registers x} {register other : Register} {value : Word x}
    (distinct : register ≠ other) :
    (registers.write register value).read other = registers.read other := by
  rw [read_write, if_neg fun ⟨same, _⟩ => distinct same]

/-- No write changes register zero. -/
theorem get?_zero_write (registers : Registers x) (register : Register) (value : Word x) :
    (registers.write register value).get? 0 = registers.get? 0 := by
  rw [get?_write, if_neg fun ⟨nonzero, zero⟩ => nonzero (BitVec.eq_of_toNat_eq zero)]

theorem get?_reset {registers : Registers x} {index : Nat} (inside : index < registers.count) :
    registers.reset.get? index = some 0 := by
  simp [reset, get?, inside]

end Registers

end RiscV
