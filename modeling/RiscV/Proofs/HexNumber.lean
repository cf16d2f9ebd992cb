import Mathlib.Data.List.Induction
import RiscV.Proofs.Numeral
import RiscV.Text.Blank

/-!
# Numbers of base sixteen

What a number of base sixteen looks like, as a grammar that knows nothing of how numbers are read.
It has one or more digits; what is read as a number may start with a plus sign, too, and `signs`
tells whether the grammar has such numbers.
-/

namespace RiscV

namespace Text

namespace Numeral

/-- A decimal digit, or a letter of either case, writes a digit of base sixteen. -/
def WritesDigit (c : Char) (digit : Nat) : Prop :=
  digit < 16 ∧ (c = digit.digitChar ∨ c = digit.digitChar.toUpper)

instance (c : Char) (digit : Nat) : Decidable (WritesDigit c digit) :=
  inferInstanceAs (Decidable (_ ∧ _))

/-- A number is written with one or more digits of base sixteen, the most significant first. -/
inductive Writes : List Char → Nat → Prop
  | one {c : Char} {digit : Nat} (last : WritesDigit c digit) : Writes [c] digit
  | more {text : List Char} {value digit : Nat} {c : Char} (front : Writes text value)
      (last : WritesDigit c digit) : Writes (text ++ [c]) (16 * value + digit)

/-- A number is written, and where signs are allowed, a plus sign may stand in front of it. -/
def WritesSigned (signs : Bool) (text : List Char) (value : Nat) : Prop :=
  Writes text value ∨ signs ∧ ∃ digits, text = '+' :: digits ∧ Writes digits value

theorem toNat_lt_of_digitValue? {c : Char} {value : Nat} (read : digitValue? c = some value) :
    c.toNat < 128 := by
  have code : c.toNat = c.val.toNat := rfl
  have nine : '9'.val.toNat = 57 := rfl
  have lastSmall : 'z'.val.toNat = 122 := rfl
  have lastCapital : 'Z'.val.toNat = 90 := rfl
  unfold digitValue? at read
  simp only [Char.le_def, UInt32.le_iff_toNat_le] at read
  split at read
  · omega
  · split at read
    · omega
    · split at read
      · omega
      · cases read

theorem digit?_eq_some_iff {c : Char} {digit : Nat} :
    digit? 16 c = some digit ↔ WritesDigit c digit := by
  constructor
  · intro read
    have ascii : c.toNat < 128 := by
      obtain ⟨value, -⟩ := Option.filter_eq_some_iff.mp read
      exact toNat_lt_of_digitValue? value
    have known : ∀ code < 128, ∀ digit ∈ digit? 16 (Char.ofNat code),
        WritesDigit (Char.ofNat code) digit := by
      decide +kernel
    rw [← Char.ofNat_toNat c] at read ⊢
    exact known c.toNat ascii digit read
  · rintro ⟨bound, rfl | rfl⟩
    · exact digit?_digitChar (Nat.le_refl 16) bound
    · have known : ∀ digit < 16, digit? 16 digit.digitChar.toUpper = some digit := by decide
      exact known digit bound

theorem WritesDigit.utf8Size_eq_one {c : Char} {digit : Nat} (writes : WritesDigit c digit) :
    c.utf8Size = 1 := by
  have known : ∀ digit < 16,
      digit.digitChar.utf8Size = 1 ∧ digit.digitChar.toUpper.utf8Size = 1 := by
    decide
  obtain ⟨bound, rfl | rfl⟩ := writes
  · exact (known digit bound).1
  · exact (known digit bound).2

/-- A mark that is no digit writes none. -/
theorem WritesDigit.ne {c mark : Char} {digit : Nat} (writes : WritesDigit c digit)
    (noDigit : digit? 16 mark = none) : c ≠ mark := by
  rintro rfl
  cases (digit?_eq_some_iff.mpr writes).symm.trans noDigit

variable {text : List Char} {value : Nat}

theorem Writes.mem (writes : Writes text value) : ∀ c ∈ text, ∃ digit, WritesDigit c digit := by
  induction writes with
  | one last => exact fun c member => ⟨_, List.mem_singleton.mp member ▸ last⟩
  | more front last ih =>
      intro c member
      rcases List.mem_append.mp member with member | member
      · exact ih c member
      · exact ⟨_, List.mem_singleton.mp member ▸ last⟩

theorem Writes.ne_nil (writes : Writes text value) : text ≠ [] := by
  cases writes with
  | one => exact List.cons_ne_nil _ _
  | more => simp

/-- The digits are written in the order in which they are read. -/
theorem writes_iff :
    Writes text value ↔
      text ≠ [] ∧ ∃ digits, text.mapM (digit? 16) = some digits ∧ ofDigits 16 digits = value := by
  constructor
  · intro writes
    refine ⟨writes.ne_nil, ?_⟩
    induction writes with
    | @one c digit last =>
        exact ⟨[digit], by simp [digit?_eq_some_iff.mpr last], by simp [ofDigits]⟩
    | @more text value digit c front last ih =>
        obtain ⟨digits, read, rfl⟩ := ih
        refine ⟨digits ++ [digit], ?_, ofDigits_append digits digit⟩
        simp [List.mapM_append, read, digit?_eq_some_iff.mpr last]
  · rintro ⟨letters, digits, read, rfl⟩
    induction text using List.reverseRecOn generalizing digits with
    | nil => exact absurd rfl letters
    | append_singleton text c ih =>
        rw [List.mapM_append] at read
        obtain ⟨front, readFront, read⟩ := Option.bind_eq_some_iff.mp read
        obtain ⟨last, readLast, ⟨⟩⟩ := Option.bind_eq_some_iff.mp read
        simp only [List.mapM_cons, List.mapM_nil, Option.bind_eq_bind, Option.bind_eq_some_iff,
          Option.pure_def, Option.some.injEq] at readLast
        obtain ⟨digit, readDigit, _, rfl, rfl⟩ := readLast
        have last := digit?_eq_some_iff.mp readDigit
        rw [ofDigits_append]
        cases text with
        | nil =>
            cases readFront
            simpa [ofDigits] using Writes.one last
        | cons => exact .more (ih (List.cons_ne_nil _ _) front readFront) last

theorem writesSigned_true_iff : WritesSigned true text value ↔ Writes (unsigned text) value := by
  unfold unsigned
  split
  · rename_i digits
    constructor
    · rintro (writes | ⟨-, _, ⟨⟩, writes⟩)
      · obtain ⟨digit, sign⟩ := writes.mem '+' List.mem_cons_self
        exact absurd rfl (sign.ne rfl)
      · exact writes
    · exact fun writes => .inr ⟨rfl, digits, rfl, writes⟩
  · rename_i bare
    constructor
    · rintro (writes | ⟨-, digits, rfl, -⟩)
      · exact writes
      · exact (bare digits rfl).elim
    · exact .inl

theorem read?_eq_some_iff {bits : Nat} :
    read? 16 bits text = some value ↔ WritesSigned true text value ∧ value < 2 ^ bits := by
  rw [writesSigned_true_iff, writes_iff, ← Nat.one_shiftLeft, read?]
  split
  · rename_i empty
    simp [empty]
  · rename_i letters
    simp only [Option.filter_eq_some_iff, Option.map_eq_some_iff, decide_eq_true_eq]
    exact and_congr_left fun _ => (and_iff_right letters).symm

/-- The characters of a number are digits, or plus signs where these are allowed. -/
theorem WritesSigned.mem {signs : Bool} (writes : WritesSigned signs text value) :
    ∀ c ∈ text, c = '+' ∧ signs ∨ ∃ digit, WritesDigit c digit := by
  intro c member
  rcases writes with writes | ⟨allowed, digits, rfl, writes⟩
  · exact .inr (writes.mem c member)
  · rcases List.mem_cons.mp member with rfl | member
    · exact .inl ⟨rfl, allowed⟩
    · exact .inr (writes.mem c member)

/-- Without signs there are the numbers in which no sign stands. -/
theorem writesSigned_false_iff :
    WritesSigned false text value ↔ WritesSigned true text value ∧ '+' ∉ text := by
  constructor
  · intro writes
    refine ⟨writes.imp_right nofun, fun sign => ?_⟩
    obtain ⟨-, ⟨⟩⟩ | ⟨digit, isDigit⟩ := writes.mem '+' sign
    exact isDigit.ne rfl rfl
  · rintro ⟨writes | ⟨-, digits, rfl, -⟩, bare⟩
    · exact .inl writes
    · exact absurd List.mem_cons_self bare

theorem WritesSigned.byteLength {signs : Bool} (writes : WritesSigned signs text value) :
    byteLength text = text.length := by
  have single : ∀ c ∈ text, c.utf8Size = 1 := by
    intro c member
    obtain ⟨rfl, -⟩ | ⟨digit, isDigit⟩ := writes.mem c member
    · rfl
    · exact isDigit.utf8Size_eq_one
  clear writes
  induction text with
  | nil => rfl
  | cons c text ih =>
      obtain ⟨first, rest⟩ := List.forall_mem_cons.mp single
      rw [Text.byteLength, List.foldr_cons, first, List.length_cons, Nat.add_comm, ← ih rest]
      rfl

end Numeral

end Text

end RiscV
