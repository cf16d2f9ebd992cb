import Mathlib.Data.List.Forall2
import Mathlib.Data.List.Induction
import Mathlib.Data.List.TakeWhile
import RiscV.Text.Blank

/-!
# Texts taken apart

What is left between the outer blanks of a text, its words, and its lines, each stated about the
text as a whole, and found by the functions that take the text apart.
-/

namespace RiscV

namespace Text

variable {text : List Char}

/-! ## Outer blanks -/

/-- A text is some content with blanks around it, and the content has no blank at its own ends. -/
structure Trims (text content : List Char) : Prop where
  around : ∃ before after, text = before ++ content ++ after ∧
    (∀ c ∈ before, isBlank c) ∧ ∀ c ∈ after, isBlank c
  first : ∀ c ∈ content.head?, ¬ isBlank c
  last : ∀ c ∈ content.getLast?, ¬ isBlank c

theorem head?_dropWhile_isBlank (text : List Char) :
    ∀ c ∈ (text.dropWhile isBlank).head?, ¬ isBlank c := by
  intro c first
  have kept := List.head?_dropWhile_not isBlank text
  rw [Option.mem_def.mp first] at kept
  exact Bool.eq_false_iff.mp kept

theorem dropWhile_isBlank_of_head? (first : ∀ c ∈ text.head?, ¬ isBlank c) :
    text.dropWhile isBlank = text := by
  cases text with
  | nil => rfl
  | cons c rest => exact List.dropWhile_cons_of_neg (first c rfl)

theorem trims_trim (text : List Char) : Trims text (trim text) := by
  let rest := text.dropWhile isBlank
  have behind : rest = trim text ++ (rest.reverse.takeWhile isBlank).reverse := by
    rw [trim, ← List.reverse_append, List.takeWhile_append_dropWhile, List.reverse_reverse]
  refine ⟨⟨text.takeWhile isBlank, (rest.reverse.takeWhile isBlank).reverse, ?_, ?_, ?_⟩, ?_, ?_⟩
  · rw [List.append_assoc, ← behind, List.takeWhile_append_dropWhile]
  · exact fun c => List.mem_takeWhile_imp
  · exact fun c member => List.mem_takeWhile_imp (List.mem_reverse.mp member)
  · intro c first
    refine head?_dropWhile_isBlank text c ?_
    change c ∈ rest.head?
    rw [behind, List.head?_append, Option.mem_def.mp first]
    rfl
  · intro c last
    rw [trim, List.getLast?_reverse] at last
    exact head?_dropWhile_isBlank _ c last

theorem trim_eq_iff {content : List Char} : trim text = content ↔ Trims text content := by
  constructor
  · rintro rfl
    exact trims_trim text
  · rintro ⟨⟨before, after, rfl, blankBefore, blankAfter⟩, first, last⟩
    rw [trim, List.append_assoc, List.dropWhile_append_of_pos blankBefore]
    cases content with
    | nil => simp [List.dropWhile_eq_nil_iff.mpr blankAfter]
    | cons c rest =>
        rw [List.cons_append, List.dropWhile_cons_of_neg (first c rfl), ← List.cons_append,
          List.reverse_append, List.dropWhile_append_of_pos, dropWhile_isBlank_of_head?,
          List.reverse_reverse]
        · rwa [← List.getLast?_eq_head?_reverse]
        · exact fun c member => blankAfter c (List.mem_reverse.mp member)

/-- Only blanks are trimmed. -/
theorem Trims.mem_iff {content : List Char} {c : Char} (trims : Trims text content)
    (letter : ¬ isBlank c) : c ∈ text ↔ c ∈ content := by
  obtain ⟨before, after, rfl, blankBefore, blankAfter⟩ := trims.around
  have notBefore : c ∉ before := fun member => letter (blankBefore c member)
  have notAfter : c ∉ after := fun member => letter (blankAfter c member)
  simp only [List.mem_append, notBefore, notAfter, false_or, or_false]

theorem trim_append_of_isBlank {c : Char} (blank : isBlank c) : trim (text ++ [c]) = trim text := by
  obtain ⟨⟨before, after, split, blankBefore, blankAfter⟩, first, last⟩ := trims_trim text
  refine trim_eq_iff.mpr ⟨⟨before, after ++ [c], ?_, blankBefore, ?_⟩, first, last⟩
  · rw [← List.append_assoc, ← split]
  · intro d member
    rcases List.mem_append.mp member with member | member
    · exact blankAfter d member
    · exact List.mem_singleton.mp member ▸ blank

/-! ## Pieces -/

section Pieces

variable {isSeparator : Char → Bool}

theorem pieces_cons_of_pos {c : Char} (separates : isSeparator c) (text : List Char) :
    pieces isSeparator (c :: text) = [] :: pieces isSeparator text := by
  change addToPieces isSeparator c (pieces isSeparator text) = _
  unfold addToPieces
  rw [if_pos separates]

/-- A part of a text without separators is the start of its first piece. -/
theorem pieces_append {part piece : List Char} {others : List (List Char)}
    (solid : ∀ c ∈ part, ¬ isSeparator c) (cut : pieces isSeparator text = piece :: others) :
    pieces isSeparator (part ++ text) = (part ++ piece) :: others := by
  induction part with
  | nil => exact cut
  | cons c part ih =>
      obtain ⟨first, rest⟩ := List.forall_mem_cons.mp solid
      change addToPieces isSeparator c (pieces isSeparator (part ++ text)) = _
      unfold addToPieces
      rw [if_neg first, ih rest]
      rfl

end Pieces

/-! ## Words -/

/-- The words of a text, in order: texts without blanks, with blanks between any two of them. -/
inductive Words : List Char → List (List Char) → Prop
  | none {text : List Char} (blank : ∀ c ∈ text, isBlank c) : Words text []
  | word (before word : List Char) {rest : List Char} {words : List (List Char)}
      (blank : ∀ c ∈ before, isBlank c) (letters : word ≠ []) (solid : ∀ c ∈ word, ¬ isBlank c)
      (ends : ∀ c ∈ rest.head?, isBlank c) (later : Words rest words) :
      Words (before ++ word ++ rest) (word :: words)

theorem Words.blank_cons {words : List (List Char)} {c : Char} (blank : isBlank c)
    (split : Words text words) : Words (c :: text) words := by
  cases split with
  | none blanks => exact .none (List.forall_mem_cons.mpr ⟨blank, blanks⟩)
  | word before word blanks letters solid ends later =>
      exact .word (c :: before) word (List.forall_mem_cons.mpr ⟨blank, blanks⟩) letters solid ends
        later

/-- A letter starts a word of its own, or comes in front of the first word. -/
theorem Words.exists_solid_cons {words : List (List Char)} {c : Char} (letter : ¬ isBlank c)
    (split : Words text words) : ∃ words, Words (c :: text) words := by
  have alone : ∀ d ∈ [c], ¬ isBlank d := fun d member => List.mem_singleton.mp member ▸ letter
  cases split with
  | none blanks =>
      refine ⟨_, .word [] [c] nofun (List.cons_ne_nil c []) alone ?_ (.none blanks)⟩
      exact fun d first => blanks d (List.mem_of_mem_head? first)
  | word before word blanks letters solid ends later =>
      cases before with
      | nil =>
          exact ⟨_, .word [] (c :: word) nofun (List.cons_ne_nil c word)
            (List.forall_mem_cons.mpr ⟨letter, solid⟩) ends later⟩
      | cons d before =>
          refine ⟨_, .word [] [c] nofun (List.cons_ne_nil c []) alone ?_
            (.word (d :: before) word blanks letters solid ends later)⟩
          rintro _ ⟨⟩
          exact blanks d List.mem_cons_self

/-- Only blanks stand outside of the words. -/
theorem Words.mem_iff {words : List (List Char)} {c : Char} (split : Words text words)
    (letter : ¬ isBlank c) : c ∈ text ↔ ∃ word ∈ words, c ∈ word := by
  induction split with
  | @none text blanks =>
      have notBlank : c ∉ text := fun member => letter (blanks c member)
      simp only [notBlank, List.not_mem_nil, false_and, exists_false]
  | word before word blanks letters solid ends later ih =>
      have notBefore : c ∉ before := fun member => letter (blanks c member)
      simp only [List.mem_append, notBefore, ih, List.exists_mem_cons_iff, false_or]

theorem exists_words (text : List Char) : ∃ words, Words text words := by
  induction text with
  | nil => exact ⟨[], .none nofun⟩
  | cons c text ih =>
      obtain ⟨words, split⟩ := ih
      by_cases blank : isBlank c
      · exact ⟨words, split.blank_cons blank⟩
      · exact split.exists_solid_cons blank

theorem words_cons_of_isBlank {c : Char} (blank : isBlank c) (text : List Char) :
    words (c :: text) = words text := by
  unfold words
  rw [pieces_cons_of_pos blank]
  rfl

theorem words_append_of_isBlank {before : List Char} (blank : ∀ c ∈ before, isBlank c) :
    words (before ++ text) = words text := by
  induction before with
  | nil => rfl
  | cons c before ih =>
      obtain ⟨first, rest⟩ := List.forall_mem_cons.mp blank
      rw [List.cons_append, words_cons_of_isBlank first, ih rest]

theorem words_append_of_solid {word : List Char} (letters : word ≠ [])
    (solid : ∀ c ∈ word, ¬ isBlank c) (ends : ∀ c ∈ text.head?, isBlank c) :
    words (word ++ text) = word :: words text := by
  obtain ⟨others, cut, kept⟩ :
      ∃ others, pieces isBlank text = [] :: others ∧ words text = others.filter (!·.isEmpty) := by
    cases text with
    | nil => exact ⟨[], rfl, rfl⟩
    | cons c text =>
        have blank : isBlank c := ends c rfl
        exact ⟨_, pieces_cons_of_pos blank text, words_cons_of_isBlank blank text⟩
  have whole : pieces isBlank (word ++ text) = word :: others := by
    rw [pieces_append solid cut, List.append_nil]
  rw [words, whole, kept, List.filter_cons_of_pos (by simpa using letters)]

theorem words_eq_iff {list : List (List Char)} : words text = list ↔ Words text list := by
  have unique {list : List (List Char)} (split : Words text list) : words text = list := by
    induction split with
    | @none text blank =>
        rw [← List.append_nil text, words_append_of_isBlank blank]
        rfl
    | word before word blank letters solid ends _ ih =>
        rw [List.append_assoc, words_append_of_isBlank blank,
          words_append_of_solid letters solid ends, ih]
  refine ⟨?_, unique⟩
  rintro rfl
  obtain ⟨list, split⟩ := exists_words text
  exact (unique split).symm ▸ split

/-! ## Lines -/

/-- The lines of a text.  A line ends in a line feed, with or without a carriage return before it,
and the last one may have no end. -/
def readLines : List Char → List (List Char)
  | [] => []
  | '\n' :: rest => [] :: readLines rest
  | '\r' :: '\n' :: rest => [] :: readLines rest
  | c :: rest =>
      match readLines rest with
      | [] => [[c]]
      | line :: later => (c :: line) :: later

/-- A piece between line feeds is a line, perhaps with a carriage return behind it. -/
def Encloses (line piece : List Char) : Prop := piece = line ∨ piece = line ++ ['\r']

theorem lines_feed (rest : List Char) : lines ('\n' :: rest) = [] :: lines rest :=
  pieces_cons_of_pos rfl rest

theorem lines_cons {c : Char} {rest piece : List Char} {others : List (List Char)}
    (solid : c ≠ '\n') (cut : lines rest = piece :: others) :
    lines (c :: rest) = (c :: piece) :: others := by
  have alone : ∀ d ∈ [c], ¬ (d == '\n') := by simpa using solid
  exact pieces_append alone cut

theorem readLines_eq_nil_iff : readLines text = [] ↔ text = [] := by
  refine ⟨fun none => ?_, fun empty => empty ▸ rfl⟩
  unfold readLines at none
  split at none
  · rfl
  · cases none
  · cases none
  · split at none <;> cases none

/-- The pieces between line feeds are the lines, and an empty piece behind the last line feed. -/
theorem lines_readLines (text : List Char) :
    ∃ pieces, List.Forall₂ Encloses (readLines text) pieces ∧
      (lines text = pieces ∨ lines text = pieces ++ [[]]) := by
  fun_induction readLines text with
  | case1 => exact ⟨[], .nil, .inr rfl⟩
  | case2 rest ih =>
      obtain ⟨pieces, enclosed, cut⟩ := ih
      refine ⟨[] :: pieces, .cons (.inl rfl) enclosed, ?_⟩
      rw [lines_feed]
      exact cut.imp (congrArg _) (congrArg _)
  | case3 rest ih =>
      obtain ⟨pieces, enclosed, cut⟩ := ih
      refine ⟨['\r'] :: pieces, .cons (.inr rfl) enclosed, ?_⟩
      rw [lines_cons (by decide) (lines_feed rest)]
      exact cut.imp (congrArg _) (congrArg _)
  | case4 c rest feed _ none ih =>
      cases readLines_eq_nil_iff.mp none
      exact ⟨[[c]], .cons (.inl rfl) .nil, .inl (lines_cons feed rfl)⟩
  | case5 c rest feed _ line later some ih =>
      obtain ⟨pieces, enclosed, cut⟩ := ih
      rw [some] at enclosed
      obtain ⟨piece, pieces, first, others, rfl⟩ := List.forall₂_cons_left_iff.mp enclosed
      refine ⟨(c :: piece) :: pieces, .cons (first.imp (congrArg _) (congrArg _)) others, ?_⟩
      exact cut.imp (lines_cons feed) (lines_cons feed)

/-- The first few lines are those of a first part of the text. -/
theorem exists_prefix_of_readLines {earlier later : List (List Char)}
    (split : readLines text = earlier ++ later) :
    ∃ start rest, text = start ++ rest ∧ readLines start = earlier := by
  fun_induction readLines text generalizing earlier with
  | case1 => exact ⟨[], [], rfl, (List.append_eq_nil_iff.mp split.symm).1.symm⟩
  | case2 rest ih =>
      cases earlier with
      | nil => exact ⟨[], _, rfl, rfl⟩
      | cons _ earlier =>
          obtain ⟨rfl, behind⟩ := List.cons.inj split
          obtain ⟨start, rest, rfl, read⟩ := ih behind
          exact ⟨'\n' :: start, rest, rfl, congrArg (List.cons []) read⟩
  | case3 rest ih =>
      cases earlier with
      | nil => exact ⟨[], _, rfl, rfl⟩
      | cons _ earlier =>
          obtain ⟨rfl, behind⟩ := List.cons.inj split
          obtain ⟨start, rest, rfl, read⟩ := ih behind
          exact ⟨'\r' :: '\n' :: start, rest, rfl, congrArg (List.cons []) read⟩
  | case4 c rest feed bare none ih =>
      cases earlier with
      | nil => exact ⟨[], _, rfl, rfl⟩
      | cons _ earlier =>
          obtain ⟨rfl, behind⟩ := List.cons.inj split
          rw [(List.append_eq_nil_iff.mp behind.symm).1]
          refine ⟨c :: rest, [], (List.append_nil _).symm, ?_⟩
          rw [readLines.eq_4 c rest feed bare, none]
  | case5 c rest feed bare line later' some ih =>
      cases earlier with
      | nil => exact ⟨[], _, rfl, rfl⟩
      | cons _ earlier =>
          obtain ⟨rfl, behind⟩ := List.cons.inj split
          -- The first line goes on in the rest, so its part there has to be in the prefix.
          have whole : readLines rest = (line :: earlier) ++ later := by rw [some, behind]; rfl
          obtain ⟨start, rest, rfl, read⟩ := ih whole
          refine ⟨c :: start, rest, rfl, ?_⟩
          rw [readLines.eq_4 c start feed ?_, read]
          rintro after return' rfl
          exact bare _ return' rfl

end Text

end RiscV
