import RiscV.Field

/-!
# Privilege levels

A privilege level is written in two bits.  Three of the four codes are levels at which a hart can
run; the code 2 is reserved, and still has its place in the order of required levels.
-/

namespace RiscV

/-- A level at which a hart can run: that of applications, of the operating system, or of trusted
code with access to the whole machine. -/
inductive Privilege where
  | user
  | supervisor
  | machine
  deriving DecidableEq, Repr

/-- The two-bit code of a privilege level, reserved or not. -/
abbrev Level := BitVec 2

/-- A code stands for no level. -/
structure ReservedLevel where
  level : Level
  deriving DecidableEq, Repr

namespace ReservedLevel

def message (error : ReservedLevel) : String :=
  "privilege level " ++ toString error.level.toNat ++ " is reserved"

end ReservedLevel

namespace Privilege

/-- The two-bit code of the level. -/
def level : Privilege → Level
  | user => 0
  | supervisor => 1
  | machine => 3

/-- The level with the given code. -/
def ofLevel? (code : Level) : Option Privilege :=
  [user, supervisor, machine].find? (·.level == code)

/-- The level with the given code, or the report that the code is reserved. -/
def ofLevel (code : Level) : Except ReservedLevel Privilege :=
  match ofLevel? code with
  | some privilege => .ok privilege
  | none => .error ⟨code⟩

/-- Levels are ordered by their codes. -/
instance : LT Privilege := ⟨fun a b => a.level < b.level⟩

/-- Levels are ordered by their codes. -/
instance : LE Privilege := ⟨fun a b => a.level ≤ b.level⟩

instance (a b : Privilege) : Decidable (a < b) := inferInstanceAs (Decidable (a.level < b.level))

instance (a b : Privilege) : Decidable (a ≤ b) := inferInstanceAs (Decidable (a.level ≤ b.level))

def letter : Privilege → String
  | user => "U"
  | supervisor => "S"
  | machine => "M"

@[simp]
theorem ofLevel?_level (privilege : Privilege) : ofLevel? privilege.level = some privilege := by
  cases privilege <;> rfl

end Privilege

namespace Level

/-- The abbreviation of a code, a reserved one being its own number. -/
def letter (code : Level) : String :=
  match Privilege.ofLevel? code with
  | some privilege => privilege.letter
  | none => toString code.toNat

end Level

end RiscV
