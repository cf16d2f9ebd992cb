/-!
# Little-endian numbers

A list of bytes is a number in base 256 with its least significant digit first.  Writing a number
into a fixed count of bytes keeps its low digits, and reading undoes it.
-/

namespace RiscV

namespace LittleEndian

/-- The number with the given digits in base 256, the least significant first. -/
def toNat : List UInt8 → Nat
  | [] => 0
  | byte :: rest => byte.toNat + 256 * toNat rest

/-- The low `count` digits of a number in base 256, the least significant first. -/
def ofNat : (count : Nat) → Nat → List UInt8
  | 0, _ => []
  | count + 1, value => UInt8.ofNat value :: ofNat count (value / 256)

@[simp]
theorem length_ofNat (count value : Nat) : (ofNat count value).length = count := by
  induction count generalizing value with
  | zero => rfl
  | succ count ih => simp [ofNat, ih]

theorem toNat_ofNat (count value : Nat) :
    toNat (ofNat count value) = value % (1 <<< (8 * count)) := by
  induction count generalizing value with
  | zero => simp [ofNat, toNat, Nat.mod_one]
  | succ count ih =>
      have split : 1 <<< (8 * (count + 1)) = 256 * (1 <<< (8 * count)) := by
        simp only [Nat.one_shiftLeft, Nat.mul_add, Nat.pow_add]
        omega
      rw [ofNat, toNat, ih, split, Nat.mod_mul]
      simp

end LittleEndian

end RiscV
