import Mathlib.Algebra.Ring.Nat
import RiscV.Text.Numeral

/-!
# Numerals are unambiguous

The digits of a written number determine it, however many zeros stand in front of them.
-/

namespace RiscV

namespace Text

namespace Numeral

variable {base : Nat}

theorem digit?_digitChar (small : base ≤ 16) {digit : Nat} (inside : digit < base) :
    digit? base digit.digitChar = some digit := by
  have known : ∀ digit < 16, digitValue? digit.digitChar = some digit := by decide
  rw [digit?, known digit (Nat.lt_of_lt_of_le inside small), Option.filter_some,
    if_pos (decide_eq_true inside)]

theorem ofDigits_append (digits : List Nat) (last : Nat) :
    ofDigits base (digits ++ [last]) = base * ofDigits base digits + last := by
  simp only [ofDigits, List.foldl_append, List.foldl_cons, List.foldl_nil]

theorem ofDigits_replicate_zero (count : Nat) (digits : List Nat) :
    ofDigits base (List.replicate count 0 ++ digits) = ofDigits base digits := by
  induction count with
  | zero => rfl
  | succ count ih => simpa [ofDigits, List.replicate_succ] using ih

/-- The digits of a number read as that number. -/
theorem mapM_digit?_toDigits (large : 1 < base) (small : base ≤ 16) (value : Nat) :
    ∃ digits, (Nat.toDigits base value).mapM (digit? base) = some digits ∧
      ofDigits base digits = value := by
  induction value using Nat.strongRecOn with
  | ind value ih =>
      rw [Nat.toDigits_eq_if large]
      split
      · rename_i inside
        exact ⟨[value], by simp [digit?_digitChar small inside], by simp [ofDigits]⟩
      · rename_i outside
        have positive : 0 < value := by omega
        obtain ⟨digits, read, same⟩ := ih (value / base) (Nat.div_lt_self positive large)
        have last : value % base < base := Nat.mod_lt value (Nat.lt_trans Nat.one_pos large)
        refine ⟨digits ++ [value % base], ?_, ?_⟩
        · simp [List.mapM_append, read, digit?_digitChar small last]
        · rw [ofDigits_append, same, Nat.div_add_mod]

theorem mapM_digit?_padded (large : 1 < base) (small : base ≤ 16) (count value : Nat) :
    ∃ digits, (padded count (Nat.toDigits base value)).mapM (digit? base) = some digits ∧
      ofDigits base digits = value := by
  obtain ⟨digits, read, same⟩ := mapM_digit?_toDigits large small value
  have zero : digit? base '0' = some 0 := digit?_digitChar small (Nat.lt_trans Nat.one_pos large)
  have zeros (count : Nat) :
      (List.replicate count '0').mapM (digit? base) = some (List.replicate count 0) := by
    induction count with
    | zero => rfl
    | succ count ih => simp [List.replicate_succ, ih, zero]
  let missing := count - (Nat.toDigits base value).length
  refine ⟨List.replicate missing 0 ++ digits, ?_, ?_⟩
  · simp only [padded, List.mapM_append, zeros, read]
    rfl
  · exact (ofDigits_replicate_zero missing digits).trans same

theorem isSome_of_mapM {α β : Type} {f : α → Option β} {list : List α} {results : List β}
    (all : list.mapM f = some results) : ∀ item ∈ list, (f item).isSome := by
  induction list generalizing results with
  | nil => exact nofun
  | cons head list ih =>
      simp only [List.mapM_cons, Option.bind_eq_bind, Option.bind_eq_some_iff] at all
      obtain ⟨result, first, others, rest, -⟩ := all
      intro item member
      rcases List.mem_cons.mp member with rfl | later
      · exact Option.isSome_of_eq_some first
      · exact ih rest item later

theorem toList_hex (least value : Nat) :
    (hex least value).toList = '0' :: 'x' :: padded least (Nat.toDigits 16 value) := by
  simp [hex]

theorem hex_injective {left right least most : Nat} (same : hex least left = hex most right) :
    left = right := by
  obtain ⟨digits, read, rfl⟩ := @mapM_digit?_padded 16 (by decide) (by decide) least left
  obtain ⟨others, readOthers, rfl⟩ := @mapM_digit?_padded 16 (by decide) (by decide) most right
  have texts := congrArg String.toList same
  simp only [toList_hex, List.cons.injEq, true_and] at texts
  rw [texts] at read
  cases read.symm.trans readOthers
  rfl

theorem mem_hex {least value : Nat} {c : Char} (member : c ∈ (hex least value).toList) :
    c = 'x' ∨ (digit? 16 c).isSome := by
  obtain ⟨_, read, -⟩ := @mapM_digit?_padded 16 (by decide) (by decide) least value
  rw [toList_hex] at member
  rcases List.mem_cons.mp member with rfl | member
  · exact .inr (by decide)
  · rcases List.mem_cons.mp member with rfl | member
    · exact .inl rfl
    · exact .inr (isSome_of_mapM read c member)

/-- A number that needs no more digits than the least count has just that many. -/
theorem length_hex {count value : Nat} (positive : 0 < count) (bound : value < 16 ^ count) :
    (hex count value).toList.length = count + 2 := by
  have few : (Nat.toDigits 16 value).length ≤ count :=
    (Nat.length_toDigits_le_iff (by decide) positive).mpr bound
  simp only [toList_hex, padded, List.length_cons, List.length_append, List.length_replicate]
  omega

theorem mem_toString_int {value : Int} {c : Char} (member : c ∈ (toString value).toList) :
    c = '-' ∨ c.isDigit := by
  have digits {n : Nat} (member : c ∈ n.repr.toList) : c.isDigit := by
    rw [Nat.toList_repr] at member
    exact Nat.isDigit_of_mem_toDigits (by decide) (by decide) member
  rw [Int.toString_eq_repr, Int.repr_eq_if] at member
  split at member
  · exact .inr (digits member)
  · rw [String.toList_append] at member
    rcases List.mem_append.mp member with sign | member
    · exact .inl (List.mem_singleton.mp sign)
    · exact .inr (digits member)

/-- A mark that is no sign and no digit does not occur in a number. -/
theorem notMem_toString_int {mark : Char} (value : Int) (sign : mark ≠ '-')
    (digit : ¬ mark.isDigit) : mark ∉ (toString value).toList := by
  intro member
  rcases mem_toString_int member with isSign | isDigit
  · exact sign isSign
  · exact digit isDigit

end Numeral

end Text

end RiscV
