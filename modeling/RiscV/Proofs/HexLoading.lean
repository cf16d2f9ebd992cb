import RiscV.Proofs.HexGrammar

/-!
# Loading a hex file line by line

A line that fits into the grammar stores its bytes at the cursor and moves the cursor on.  The first
line that does not fit, or whose bytes have no room, ends the loading and is reported, and memory
stays as the lines before it left it.
-/

namespace RiscV

namespace Hex

open Text HexLine

/-! ## One line -/

/-- Where the cursor is after a line. -/
def next (cursor : BitVec 64) : HexLine → BitVec 64
  | .blank => cursor
  | .address value => value
  | .data bytes => cursor + BitVec.ofNat 64 bytes.length

/-- What is left in memory by a line that can be loaded. -/
inductive Stores (cursor : Nat) (memory : Memory) : HexLine → Memory → Prop
  | blank : Stores cursor memory .blank memory
  | address (value : BitVec 64) : Stores cursor memory (.address value) memory
  | data {bytes : List UInt8} (inside : memory.Holds cursor bytes.length) :
      Stores cursor memory (.data bytes) (memory.overwrite cursor bytes.toByteArray)

/-- Why a line cannot be loaded. -/
inductive Refuses (number cursor : Nat) (memory : Memory) (line : List Char) : LoadError → Prop
  | malformed (flaw : HexFlaw) (unfit : ¬ Fits true line) :
      Refuses number cursor memory line (.malformed number flaw)
  | outOfBounds {bytes : List UInt8} (means : Means true line (.data bytes))
      (outside : ¬ memory.Holds cursor bytes.length) :
      Refuses number cursor memory line (.outOfBounds cursor bytes.length)

/-- What is refused depends on the size of memory only. -/
theorem Refuses.of_size {number cursor : Nat} {memory after : Memory} {line : List Char}
    {error : LoadError} (refuses : Refuses number cursor after line error)
    (size : after.size = memory.size) : Refuses number cursor memory line error := by
  cases refuses with
  | malformed flaw unfit => exact .malformed flaw unfit
  | outOfBounds means outside =>
      refine .outOfBounds means ?_
      unfold Memory.Holds at outside ⊢
      rwa [← size]

theorem loadLines_data {line : List Char} {bytes : List UInt8}
    (read : ofText line = .ok (.data bytes)) (number : Nat) (cursor : BitVec 64)
    (rest : List (List Char)) (memory : Memory) :
    loadLines number cursor (line :: rest) memory =
      if memory.Holds cursor.toNat bytes.length then
        loadLines (number + 1) (next cursor (.data bytes)) rest
          (memory.overwrite cursor.toNat bytes.toByteArray)
      else .error (.outOfBounds cursor.toNat bytes.length) memory := by
  have size : bytes.toByteArray.size = bytes.length := List.size_toByteArray
  have written : Memory.write cursor.toNat bytes.toByteArray memory =
      if memory.Holds cursor.toNat bytes.length then
        .ok () (memory.overwrite cursor.toNat bytes.toByteArray)
      else .error {} memory := by
    rw [Memory.write, size]
  rw [loadLines, read]
  change EStateM.bind (EStateM.adaptExcept _ (Memory.write _ _)) _ memory = _
  rw [EStateM.bind, EStateM.adaptExcept, written]
  by_cases inside : memory.Holds cursor.toNat bytes.length
  · rw [if_pos inside, if_pos inside]
    rfl
  · rw [if_neg inside, if_neg inside]

/-- A line is loaded, and the lines behind it are loaded from where it leaves off; or it is refused
and leaves memory as it is. -/
theorem loadLines_cons (number : Nat) (cursor : BitVec 64) (line : List Char) (memory : Memory) :
    (∃ said after, Means true line said ∧ Stores cursor.toNat memory said after ∧
      ∀ rest, loadLines number cursor (line :: rest) memory =
        loadLines (number + 1) (next cursor said) rest after) ∨
    ∃ error, Refuses number cursor.toNat memory line error ∧
      ∀ rest, loadLines number cursor (line :: rest) memory = .error error memory := by
  cases read : ofText line with
  | error flaw =>
      have unfit : ¬ Fits true line := by
        rintro ⟨said, means⟩
        cases read.symm.trans (ofText_eq_ok_iff.mpr means)
      refine .inr ⟨_, .malformed flaw unfit, fun rest => ?_⟩
      rw [loadLines, read]
      rfl
  | ok said =>
      have means := ofText_eq_ok_iff.mp read
      cases said with
      | blank =>
          refine .inl ⟨.blank, memory, means, .blank, fun rest => ?_⟩
          rw [loadLines, read]
          rfl
      | address value =>
          refine .inl ⟨.address value, memory, means, .address value, fun rest => ?_⟩
          rw [loadLines, read]
          rfl
      | data bytes =>
          by_cases inside : memory.Holds cursor.toNat bytes.length
          · refine .inl ⟨.data bytes, _, means, .data inside, fun rest => ?_⟩
            rw [loadLines_data read, if_pos inside]
          · refine .inr ⟨_, .outOfBounds means inside, fun rest => ?_⟩
            rw [loadLines_data read, if_neg inside]

/-! ## All lines -/

/-- Either all lines fit and are loaded, or a line is refused after those in front of it are
loaded. -/
theorem loadLines_cases (number : Nat) (cursor : BitVec 64) (lines : List (List Char))
    (memory : Memory) :
    (∃ said after, List.Forall₂ (Means true) lines said ∧
      loadLines number cursor lines memory = .ok () after) ∨
    ∃ earlier line later said after error, lines = earlier ++ line :: later ∧
      List.Forall₂ (Means true) earlier said ∧
      loadLines number cursor earlier memory = .ok () after ∧
      Refuses (number + earlier.length) (said.foldl next cursor).toNat after line error ∧
      loadLines number cursor lines memory = .error error after := by
  induction lines generalizing number cursor memory with
  | nil => exact .inl ⟨[], memory, .nil, rfl⟩
  | cons line lines ih =>
      rcases loadLines_cons number cursor line memory with
        ⟨said, stored, means, -, goesOn⟩ | ⟨error, refuses, fails⟩
      · rcases ih (number + 1) (next cursor said) stored with
          ⟨others, after, each, loaded⟩ |
            ⟨earlier, bad, later, others, after, error, rfl, each, loaded, refuses, failed⟩
        · exact .inl ⟨said :: others, after, .cons means each, (goesOn lines).trans loaded⟩
        · have count : number + 1 + earlier.length = number + (line :: earlier).length := by
            rw [List.length_cons, Nat.add_right_comm, Nat.add_assoc]
          exact .inr ⟨line :: earlier, bad, later, said :: others, after, error, rfl,
            .cons means each, (goesOn earlier).trans loaded, count ▸ refuses,
            (goesOn _).trans failed⟩
      · exact .inr ⟨[], line, lines, [], memory, error, rfl, .nil, rfl, refuses, fails lines⟩

/-- Lines that are read alike are loaded alike. -/
theorem loadLines_congr {lines lines' : List (List Char)}
    (alike : List.Forall₂ (fun line line' => ofText line' = ofText line) lines lines')
    (number : Nat) (cursor : BitVec 64) :
    loadLines number cursor lines' = loadLines number cursor lines := by
  induction alike generalizing number cursor with
  | nil => rfl
  | cons same _ ih => simp only [loadLines, same, ih]

theorem loadLines_append_empty (number : Nat) (cursor : BitVec 64) (lines : List (List Char)) :
    loadLines number cursor (lines ++ [[]]) = loadLines number cursor lines := by
  induction lines generalizing number cursor with
  | nil => rfl
  | cons line lines ih => simp only [List.cons_append, loadLines, ih]

/-- A hex file is loaded line by line, however its lines end. -/
theorem load_eq (text : String) : load text = loadLines 1 0 (readLines text.toList) := by
  obtain ⟨pieces, enclosed, cut⟩ := lines_readLines text.toList
  have alike : List.Forall₂ (fun line piece => ofText piece = ofText line)
      (readLines text.toList) pieces := by
    refine enclosed.imp fun line piece encloses => ?_
    rcases encloses with rfl | rfl
    · rfl
    · exact ofText_append_return line
  rw [load, ← loadLines_congr alike]
  rcases cut with cut | cut
  · rw [cut]
  · rw [cut, loadLines_append_empty]

end Hex

end RiscV
