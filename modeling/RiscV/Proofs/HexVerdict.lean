import Mathlib.Tactic.ByContra
import RiscV.Proofs.HexLoading

/-!
# The verdict on a hex file

A hex file whose bytes have room in memory is loaded if all its lines belong to the grammar with
signs, and else the first line that does not is reported.  The grammar without signs gives the same
verdict unless the first line outside of it has a sign.
-/

namespace RiscV

namespace Hex

open Text HexLine

/-! ## The first line that does not fit -/

/-- A line is reached: it has some lines in front of it, and they all fit. -/
structure Reaches (fits : List Char → Prop) (lines : List (List Char)) (count : Nat)
    (line : List Char) : Prop where
  fitting : ∀ other ∈ lines.take count, fits other
  here : lines[count]? = some line

section Reaches

variable {fits loose strict : List Char → Prop} {lines : List (List Char)} {count count' : Nat}
  {line line' : List Char}

theorem Reaches.mem (reached : Reaches fits lines count line) : line ∈ lines :=
  List.mem_of_getElem? reached.here

theorem Reaches.imp (reached : Reaches strict lines count line)
    (weaker : ∀ line, strict line → loose line) : Reaches loose lines count line :=
  ⟨fun other member => weaker other (reached.fitting other member), reached.here⟩

theorem Reaches.cons (reached : Reaches fits lines count line) {first : List Char}
    (fit : fits first) : Reaches fits (first :: lines) (count + 1) line :=
  ⟨List.forall_mem_cons.mpr ⟨fit, reached.fitting⟩, reached.here⟩

/-- No other line is reached behind one that does not fit. -/
theorem Reaches.le (reached : Reaches fits lines count line) (unfit : ¬ fits line)
    (reached' : Reaches fits lines count' line') : count' ≤ count := by
  by_contra behind
  have member : line ∈ lines.take count' := by
    refine List.mem_of_getElem? (i := count) ?_
    rw [List.getElem?_take_of_lt (Nat.lt_of_not_le behind), reached.here]
  exact unfit (reached'.fitting line member)

theorem Reaches.unique (reached : Reaches fits lines count line) (unfit : ¬ fits line)
    (reached' : Reaches fits lines count' line') (unfit' : ¬ fits line') : count = count' :=
  Nat.le_antisymm (reached'.le unfit' reached) (reached.le unfit reached')

theorem exists_reaches_of_unfit (unfit : ¬ ∀ line ∈ lines, fits line) :
    ∃ count line, Reaches fits lines count line ∧ ¬ fits line := by
  induction lines with
  | nil => exact absurd nofun unfit
  | cons first lines ih =>
      by_cases fit : fits first
      · have others : ¬ ∀ line ∈ lines, fits line := fun all =>
          unfit (List.forall_mem_cons.mpr ⟨fit, all⟩)
        obtain ⟨count, line, reached, bad⟩ := ih others
        exact ⟨count + 1, line, reached.cons fit, bad⟩
      · exact ⟨0, first, ⟨nofun, rfl⟩, fit⟩

/-- A file is loaded if all its lines fit, and else the first line that does not fit is reported by
its number, the lines being counted from one. -/
structure Judges (fits : List Char → Prop) (lines : List (List Char))
    (result : EStateM.Result LoadError Memory Unit) : Prop where
  loaded : (∃ after, result = .ok () after) ↔ ∀ line ∈ lines, fits line
  malformed : (¬ ∀ line ∈ lines, fits line) →
    ∃ count line flaw after, Reaches fits lines count line ∧ ¬ fits line ∧
      result = .error (.malformed (count + 1) flaw) after

/-- Judged by a stricter grammar, a file gets the same verdict exactly if the first line that the
stricter one rejects is rejected by the other one, too. -/
theorem Judges.strict_iff {result : EStateM.Result LoadError Memory Unit}
    (judges : Judges loose lines result) (weaker : ∀ line, strict line → loose line) :
    Judges strict lines result ↔
      ∀ count line, Reaches strict lines count line → loose line → strict line := by
  constructor
  · intro judges' count line reached accepted
    by_contra unfit
    obtain ⟨count', line', flaw, after, reached', unfit', failed⟩ :=
      judges'.malformed fun all => unfit (all line reached.mem)
    have rejected : ¬ ∀ line ∈ lines, loose line := by
      intro all
      obtain ⟨after', loaded⟩ := judges.loaded.mpr all
      cases loaded.symm.trans failed
    obtain ⟨count'', line'', flaw'', after'', reached'', unfit'', failed''⟩ :=
      judges.malformed rejected
    -- Both verdicts are about one line, which the looser grammar would have to reject.
    cases failed''.symm.trans failed
    cases reached.unique unfit reached' unfit'
    cases reached''.here.symm.trans reached.here
    exact unfit'' accepted
  · intro agree
    have same : (∀ line ∈ lines, loose line) ↔ ∀ line ∈ lines, strict line := by
      refine ⟨fun all => ?_, fun all line member => weaker line (all line member)⟩
      by_contra rejected
      obtain ⟨count, line, reached, unfit⟩ := exists_reaches_of_unfit rejected
      exact unfit (agree count line reached (all line reached.mem))
    refine ⟨judges.loaded.trans same, fun rejected => ?_⟩
    obtain ⟨count, line, reached, unfit⟩ := exists_reaches_of_unfit rejected
    obtain ⟨count', line', flaw, after, reached', unfit', failed⟩ :=
      judges.malformed (mt same.mp rejected)
    have bad : ¬ loose line := mt (agree count line reached) unfit
    cases (reached.imp weaker).unique bad reached' unfit'
    exact ⟨count, line, flaw, after, reached, unfit, failed⟩

end Reaches

/-! ## The verdict -/

/-- Some bytes of a file have no room in memory. -/
def RunsOut (result : EStateM.Result LoadError Memory Unit) : Prop :=
  ∃ address count after, result = .error (.outOfBounds address count) after

theorem judges_loadLines {lines : List (List Char)} {memory : Memory}
    (room : ¬ RunsOut (loadLines 1 0 lines memory)) :
    Judges (Fits true) lines (loadLines 1 0 lines memory) := by
  rcases loadLines_cases 1 0 lines memory with
    ⟨said, after, each, loaded⟩ |
      ⟨earlier, line, later, said, after, error, rfl, each, -, refuses, failed⟩
  · have all : ∀ line ∈ lines, Fits true line := exists_of_forall₂ each
    exact ⟨iff_of_true ⟨after, loaded⟩ all, fun unfit => absurd all unfit⟩
  · cases refuses with
    | malformed flaw unfit =>
        have reached : Reaches (Fits true) (earlier ++ line :: later) earlier.length line :=
          ⟨by rw [List.take_left]; exact exists_of_forall₂ each, by simp⟩
        rw [Nat.add_comm] at failed
        refine ⟨iff_of_false ?_ fun all => unfit (all line reached.mem), fun _ => ?_⟩
        · rintro ⟨after', loaded⟩
          cases loaded.symm.trans failed
        · exact ⟨earlier.length, line, flaw, after, reached, unfit, failed⟩
    | outOfBounds => exact absurd ⟨_, _, _, failed⟩ room

/-- Unless memory has no room for its bytes, a hex file is judged by the grammar with signs.  It is
judged by the grammar without signs exactly if, behind lines of this grammar, there is no line with
a sign that the other grammar has. -/
theorem load_judges (text : String) (memory : Memory) (room : ¬ RunsOut (load text memory)) :
    Judges (Fits true) (readLines text.toList) (load text memory) ∧
      (Judges (Fits false) (readLines text.toList) (load text memory) ↔
        ∀ count line, Reaches (Fits false) (readLines text.toList) count line →
          Fits true line → ¬ HasSign line) := by
  rw [load_eq] at room ⊢
  have judges := judges_loadLines room
  refine ⟨judges, ?_⟩
  rw [judges.strict_iff fun line fits => (fits_false_iff.mp fits).1]
  refine forall₂_congr fun count line => imp_congr_right fun _ => imp_congr_right fun fits => ?_
  rw [fits_false_iff, and_iff_right fits]

/-- The second line has a byte with a digit that is none. -/
theorem load_judges_misspelled :
    ¬ RunsOut (load "@4 // here\r\n01 2g\n" (Memory.zeros 16)) ∧
      Judges (Fits false) (readLines "@4 // here\r\n01 2g\n".toList)
        (load "@4 // here\r\n01 2g\n" (Memory.zeros 16)) ∧
      ∃ flaw after, load "@4 // here\r\n01 2g\n" (Memory.zeros 16) =
        .error (.malformed 2 flaw) after := by
  have failed : load "@4 // here\r\n01 2g\n" (Memory.zeros 16) =
      .error (.malformed 2 (.byte "2g")) (Memory.zeros 16) := rfl
  have room : ¬ RunsOut (load "@4 // here\r\n01 2g\n" (Memory.zeros 16)) := by
    rintro ⟨address, count, after, ranOut⟩
    cases failed.symm.trans ranOut
  have bare : ∀ line ∈ readLines "@4 // here\r\n01 2g\n".toList, ¬ HasSign line := by
    simp only [hasSign_iff]
    decide
  have judges := (load_judges _ _ room).2.mpr fun count line reached _ => bare line reached.mem
  exact ⟨room, judges, _, _, failed⟩

/-- A sign and a digit are loaded as a byte. -/
theorem load_signed_byte :
    ¬ RunsOut (load "+5" (Memory.zeros 16)) ∧
      ¬ Judges (Fits false) (readLines "+5".toList) (load "+5" (Memory.zeros 16)) := by
  have loaded : ∃ after, load "+5" (Memory.zeros 16) = .ok () after := ⟨_, rfl⟩
  constructor
  · rintro ⟨address, count, after, ranOut⟩
    obtain ⟨_, loaded⟩ := loaded
    cases loaded.symm.trans ranOut
  · intro judges
    have fits : Fits false "+5".toList := judges.loaded.mp loaded _ List.mem_cons_self
    exact (fits_false_iff.mp fits).2 (hasSign_iff.mpr (by decide))

end Hex

end RiscV
