import RiscV.Image.Hex
import RiscV.Proofs.Blank
import RiscV.Proofs.HexNumber

/-!
# The grammar of hex files

What the lines of a hex file look like, as a grammar that knows nothing of how lines are read.  A
line is read as what it means in the grammar with signs, and as a flaw if it does not belong to it.
The lines of the grammar without signs are those in which no plus sign stands outside of a comment.
-/

namespace RiscV

/-! ## Lists -/

theorem exists_of_forall₂ {α β : Type} {relation : α → β → Prop} {left : List α} {right : List β}
    (each : List.Forall₂ relation left right) : ∀ a ∈ left, ∃ b, relation a b := by
  induction each with
  | nil => exact nofun
  | cons first _ ih => exact List.forall_mem_cons.mpr ⟨⟨_, first⟩, ih⟩

theorem mapM_eq_ok_iff {α β ε : Type} {f : α → Except ε β} {list : List α} {results : List β} :
    list.mapM f = .ok results ↔ List.Forall₂ (fun a b => f a = .ok b) list results := by
  constructor
  · intro succeeds
    induction list generalizing results with
    | nil =>
        cases succeeds
        exact .nil
    | cons a list ih =>
        rw [List.mapM_cons] at succeeds
        cases first : f a with
        | error error =>
            rw [first] at succeeds
            cases succeeds
        | ok b =>
            rw [first] at succeeds
            cases others : list.mapM f with
            | error error =>
                rw [others] at succeeds
                cases succeeds
            | ok rest =>
                rw [others] at succeeds
                cases succeeds
                exact .cons first (ih others)
  · intro each
    induction each with
    | nil => rfl
    | cons first _ ih =>
        rw [List.mapM_cons, first, ih]
        rfl

namespace HexLine

open Text

/-! ## Lines -/

/-- The part of a line in front of the first two slashes in a row, or else the whole line. -/
inductive Uncommented (line : List Char) : List Char → Prop
  | whole (bare : ¬ ['/', '/'] <:+: line) : Uncommented line line
  | cut {kept : List Char} (comment : List Char) (split : line = kept ++ ['/', '/'] ++ comment)
      (first : ¬ ['/', '/'] <:+: kept ++ ['/']) : Uncommented line kept

/-- A byte is a number of two characters. -/
def WritesByte (signs : Bool) (word : List Char) (byte : UInt8) : Prop :=
  word.length = 2 ∧ Numeral.WritesSigned signs word byte.toNat

/-- What a line tells that has no comment and no outer blanks. -/
inductive Tells (signs : Bool) : List Char → HexLine → Prop
  | blank : Tells signs [] .blank
  | address {text number : List Char} {value : Nat} (trims : Trims text number)
      (writes : Numeral.WritesSigned signs number value) (fits : value < 2 ^ 64) :
      Tells signs ('@' :: text) (.address (BitVec.ofNat 64 value))
  | data {content : List Char} {words : List (List Char)} {bytes : List UInt8}
      (letters : content ≠ []) (split : Words content words)
      (writes : List.Forall₂ (WritesByte signs) words bytes) : Tells signs content (.data bytes)

/-- What a line tells once its comment and outer blanks are gone. -/
def Means (signs : Bool) (line : List Char) (said : HexLine) : Prop :=
  ∃ kept content, Uncommented line kept ∧ Trims kept content ∧ Tells signs content said

/-- A line belongs to the grammar. -/
def Fits (signs : Bool) (line : List Char) : Prop := ∃ said, Means signs line said

/-! ## Comments -/

theorem uncommented_withoutComment (line : List Char) : Uncommented line (withoutComment line) := by
  fun_induction withoutComment line with
  | case1 => exact .whole (by simp)
  | case2 comment => exact .cut comment rfl (by decide)
  | case3 c rest open' ih =>
      have opens : ¬ ['/', '/'] <+: c :: rest := by
        rintro ⟨comment, same⟩
        cases same
        exact open' comment rfl rfl
      generalize withoutComment rest = kept at ih
      cases ih with
      | whole bare =>
          refine .whole fun mark => ?_
          exact (List.infix_cons_iff.mp mark).elim opens bare
      | cut comment split first =>
          refine .cut comment (congrArg (c :: ·) split) fun mark => ?_
          refine (List.infix_cons_iff.mp mark).elim (fun front => opens (front.trans ?_)) first
          exact ⟨'/' :: comment, by simp [split]⟩

theorem withoutComment_eq_iff {line kept : List Char} :
    withoutComment line = kept ↔ Uncommented line kept := by
  constructor
  · rintro rfl
    exact uncommented_withoutComment line
  · intro uncommented
    fun_induction withoutComment line generalizing kept with
    | case1 =>
        cases uncommented with
        | whole => rfl
        | cut _ split => simp at split
    | case2 comment =>
        have front : ['/', '/'] <+: '/' :: '/' :: comment := ⟨comment, rfl⟩
        cases uncommented with
        | whole bare => exact absurd front.isInfix bare
        | cut comment' split first =>
            cases kept with
            | nil => rfl
            | cons c kept =>
                -- A longer part would hold the two slashes that the line starts with.
                have part : c :: kept ++ ['/'] <+: '/' :: '/' :: comment :=
                  ⟨'/' :: comment', by simp [split]⟩
                have short : ['/', '/'].length ≤ (c :: kept ++ ['/']).length := by simp
                exact absurd (List.prefix_of_prefix_length_le front part short).isInfix first
    | case3 c rest open' ih =>
        cases uncommented with
        | whole bare =>
            refine congrArg (c :: ·) (ih (.whole fun mark => bare ?_))
            exact List.infix_cons_iff.mpr (.inr mark)
        | cut comment split first =>
            cases kept with
            | nil =>
                cases split
                exact (open' comment rfl rfl).elim
            | cons d kept =>
                obtain ⟨rfl, behind⟩ := List.cons.inj split
                refine congrArg (c :: ·) (ih (.cut comment behind fun mark => first ?_))
                exact List.infix_cons_iff.mpr (.inr mark)

/-! ## Words -/

variable {signs : Bool} {word content line : List Char} {byte : UInt8} {said : HexLine}

theorem byte?_eq_some_iff : byte? word = some byte ↔ WritesByte true word byte := by
  unfold byte? WritesByte
  constructor
  · intro read
    split at read
    · rename_i two
      obtain ⟨value, number, rfl⟩ := Option.map_eq_some_iff.mp read
      obtain ⟨writes, bound⟩ := Numeral.read?_eq_some_iff.mp number
      have same : (UInt8.ofNat value).toNat = value := UInt8.toNat_ofNat_of_lt' bound
      exact ⟨writes.byteLength ▸ two, same.symm ▸ writes⟩
    · cases read
  · rintro ⟨two, writes⟩
    have number := Numeral.read?_eq_some_iff.mpr ⟨writes, byte.toNat_lt⟩
    rw [if_pos (writes.byteLength.trans two), number, Option.map_some, UInt8.ofNat_toNat]

theorem byte_eq_ok_iff : HexLine.byte word = .ok byte ↔ WritesByte true word byte := by
  rw [← byte?_eq_some_iff, HexLine.byte]
  cases byte? word <;> simp

theorem mapM_byte_eq_ok_iff {words : List (List Char)} {bytes : List UInt8} :
    words.mapM HexLine.byte = .ok bytes ↔ List.Forall₂ (WritesByte true) words bytes := by
  rw [mapM_eq_ok_iff]
  simp only [byte_eq_ok_iff]

/-- A word that starts with the mark of an address is no byte. -/
theorem not_writesByte_of_address {text : List Char} {words : List (List Char)}
    {bytes : List UInt8} (split : Words ('@' :: text) words) :
    ¬ List.Forall₂ (WritesByte true) words bytes := by
  intro writes
  obtain ⟨word, member, mark⟩ := (split.mem_iff (by decide)).mp List.mem_cons_self
  obtain ⟨byte, -, number⟩ := exists_of_forall₂ writes word member
  obtain ⟨sign, -⟩ | ⟨digit, isDigit⟩ := number.mem '@' mark
  · cases sign
  · exact isDigit.ne rfl rfl

theorem ofContent_eq_ok_iff : ofContent content = .ok said ↔ Tells true content said := by
  unfold ofContent
  split
  · constructor
    · rintro ⟨⟩
      exact .blank
    · intro tells
      cases tells with
      | blank => rfl
      | data letters => exact absurd rfl letters
  · rename_i text
    constructor
    · intro read
      split at read
      · rename_i value number
        obtain ⟨writes, fits⟩ := Numeral.read?_eq_some_iff.mp number
        cases read
        exact .address (trims_trim text) writes fits
      · cases read
    · intro tells
      cases tells with
      | address trims writes fits =>
          rw [trim_eq_iff.mpr trims, Numeral.read?_eq_some_iff.mpr ⟨writes, fits⟩]
      | data _ split writes => exact absurd writes (not_writesByte_of_address split)
  · rename_i letters noAddress
    constructor
    · intro read
      cases bytes : (words content).mapM HexLine.byte with
      | error flaw =>
          rw [bytes] at read
          cases read
      | ok list =>
          rw [bytes] at read
          cases read
          exact .data letters (words_eq_iff.mp rfl) (mapM_byte_eq_ok_iff.mp bytes)
    · intro tells
      cases tells with
      | blank => exact absurd rfl letters
      | address => exact absurd rfl (noAddress _)
      | data _ split writes =>
          rw [words_eq_iff.mpr split, mapM_byte_eq_ok_iff.mpr writes]
          rfl

/-- A line is read as what it means in the grammar with signs. -/
theorem ofText_eq_ok_iff : ofText line = .ok said ↔ Means true line said := by
  constructor
  · intro read
    exact ⟨_, _, withoutComment_eq_iff.mp rfl, trim_eq_iff.mp rfl, ofContent_eq_ok_iff.mp read⟩
  · rintro ⟨kept, content, uncommented, trims, tells⟩
    rw [ofText, withoutComment_eq_iff.mpr uncommented, trim_eq_iff.mpr trims]
    exact ofContent_eq_ok_iff.mpr tells

theorem Means.unique {said' : HexLine} (means : Means true line said)
    (means' : Means true line said') : said = said' :=
  Except.ok.inj ((ofText_eq_ok_iff.mpr means).symm.trans (ofText_eq_ok_iff.mpr means'))

theorem withoutComment_append_return (line : List Char) :
    withoutComment (line ++ ['\r']) = withoutComment line ++ ['\r'] ∨
      withoutComment (line ++ ['\r']) = withoutComment line := by
  have uncommented := uncommented_withoutComment line
  generalize withoutComment line = kept at uncommented
  cases uncommented with
  | whole bare =>
      refine .inl (withoutComment_eq_iff.mpr (.whole fun mark => ?_))
      rcases List.infix_concat_iff.mp mark with last | inside
      · obtain ⟨front, same⟩ := last
        have ends := congrArg List.getLast? same
        simp at ends
      · exact bare inside
  | cut comment split first =>
      refine .inr (withoutComment_eq_iff.mpr (.cut (comment ++ ['\r']) ?_ first))
      rw [split, List.append_assoc]

/-- A carriage return at the end of a line does not matter. -/
theorem ofText_append_return (line : List Char) : ofText (line ++ ['\r']) = ofText line := by
  unfold ofText
  rcases withoutComment_append_return line with same | same
  · rw [same, trim_append_of_isBlank (by decide)]
  · rw [same]

/-! ## Signs -/

/-- A plus sign stands in front of any comment of a line. -/
def HasSign (line : List Char) : Prop := ∃ kept, Uncommented line kept ∧ '+' ∈ kept

theorem hasSign_iff : HasSign line ↔ '+' ∈ withoutComment line := by
  constructor
  · rintro ⟨kept, uncommented, sign⟩
    rwa [withoutComment_eq_iff.mpr uncommented]
  · exact fun sign => ⟨_, uncommented_withoutComment line, sign⟩

theorem writesByte_false_iff :
    WritesByte false word byte ↔ '+' ∉ word ∧ WritesByte true word byte := by
  unfold WritesByte
  rw [Numeral.writesSigned_false_iff]
  constructor
  · exact fun ⟨two, writes, bare⟩ => ⟨bare, two, writes⟩
  · exact fun ⟨bare, two, writes⟩ => ⟨two, writes, bare⟩

theorem forall₂_writesByte_false_iff {words : List (List Char)} {bytes : List UInt8}
    (split : Words content words) :
    List.Forall₂ (WritesByte false) words bytes ↔
      List.Forall₂ (WritesByte true) words bytes ∧ '+' ∉ content := by
  have signs : '+' ∉ content ↔ ∀ word ∈ words, '+' ∉ word := by
    simp [split.mem_iff (show ¬ isBlank '+' by decide)]
  have bytes : (WritesByte false) = fun word byte => '+' ∉ word ∧ WritesByte true word byte := by
    funext word byte
    exact propext writesByte_false_iff
  rw [bytes, List.forall₂_and_left, signs, and_comm]

theorem tells_false_iff : Tells false content said ↔ Tells true content said ∧ '+' ∉ content := by
  have letter : ¬ isBlank '+' := by decide
  constructor
  · intro tells
    cases tells with
    | blank => exact ⟨.blank, List.not_mem_nil⟩
    | @address text number value trims writes fits =>
        obtain ⟨writes, bare⟩ := Numeral.writesSigned_false_iff.mp writes
        refine ⟨.address trims writes fits, fun sign => bare ?_⟩
        exact (trims.mem_iff letter).mp (List.mem_of_ne_of_mem (by decide) sign)
    | data letters split writes =>
        obtain ⟨writes, bare⟩ := (forall₂_writesByte_false_iff split).mp writes
        exact ⟨.data letters split writes, bare⟩
  · rintro ⟨tells, bare⟩
    cases tells with
    | blank => exact .blank
    | @address text number value trims writes fits =>
        refine .address trims (Numeral.writesSigned_false_iff.mpr ⟨writes, fun sign => ?_⟩) fits
        exact bare (List.mem_cons_of_mem '@' ((trims.mem_iff letter).mpr sign))
    | data letters split writes =>
        exact .data letters split ((forall₂_writesByte_false_iff split).mpr ⟨writes, bare⟩)

/-- The two grammars differ in lines with signs only. -/
theorem fits_false_iff : Fits false line ↔ Fits true line ∧ ¬ HasSign line := by
  have letter : ¬ isBlank '+' := by decide
  constructor
  · rintro ⟨said, kept, content, uncommented, trims, tells⟩
    obtain ⟨tells, bare⟩ := tells_false_iff.mp tells
    refine ⟨⟨said, kept, content, uncommented, trims, tells⟩, fun sign => bare ?_⟩
    rw [hasSign_iff, withoutComment_eq_iff.mpr uncommented] at sign
    exact (trims.mem_iff letter).mp sign
  · rintro ⟨⟨said, kept, content, uncommented, trims, tells⟩, bare⟩
    refine ⟨said, kept, content, uncommented, trims, tells_false_iff.mpr ⟨tells, fun sign => ?_⟩⟩
    exact bare ⟨kept, uncommented, (trims.mem_iff letter).mpr sign⟩

end HexLine

end RiscV
