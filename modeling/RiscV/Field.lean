/-!
# Fields of fixed width

A field of an instruction or register holds numbers below a power of two.  A number that does not
fit is refused with the width of the field.
-/

namespace RiscV

/-- A number was given to a field that is too narrow for it. -/
structure RangeError where
  bits : Nat
  deriving DecidableEq, Repr

namespace RangeError

/-- The report of a number that does not fit. -/
def message (error : RangeError) : String :=
  "out of range u" ++ toString error.bits ++ " used"

end RangeError

namespace Field

/-- The contents of a field of the given width that holds the number. -/
def ofNat (bits value : Nat) : Except RangeError (BitVec bits) :=
  if value < 1 <<< bits then .ok (BitVec.ofNat bits value) else .error ⟨bits⟩

theorem ofNat_toNat {bits : Nat} (field : BitVec bits) : ofNat bits field.toNat = .ok field := by
  simp [ofNat, Nat.one_shiftLeft, field.isLt]

end Field

end RiscV
