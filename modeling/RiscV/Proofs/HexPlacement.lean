import RiscV.Proofs.HexLoading
import RiscV.Proofs.Placement

/-!
# Where a hex file places its bytes

The lines of a hex file place rows of bytes in memory, each at the end of the one before it or at a
given address.  A file that is loaded has placed the bytes of all its lines; one that is not has
placed those of the lines in front of the one that is refused, and nothing of this line.
-/

namespace RiscV

namespace Hex

open Text HexLine

/-- The rows of bytes that lines place from the cursor on.  Here the cursor never wraps. -/
def placements (cursor : Nat) : List HexLine → List Placement
  | [] => []
  | .blank :: rest => placements cursor rest
  | .address value :: rest => placements value.toNat rest
  | .data bytes :: rest => ⟨cursor, bytes⟩ :: placements (cursor + bytes.length) rest

/-- Where the cursor is behind some lines. -/
def cursorAfter (cursor : Nat) : List HexLine → Nat
  | [] => cursor
  | .blank :: rest => cursorAfter cursor rest
  | .address value :: rest => cursorAfter value.toNat rest
  | .data bytes :: rest => cursorAfter (cursor + bytes.length) rest

/-- Lines that are read and place their bytes in memory. -/
structure Loads (lines : List (List Char)) (memory : Memory) (said : List HexLine)
    (after : Memory) : Prop where
  reads : List.Forall₂ (Means true) lines said
  yields : Placement.Yields memory (placements 0 said) after

variable {memory after : Memory}

/-- The cursor does not wrap behind bytes that lie in memory. -/
theorem toNat_next_data (bounded : memory.size < 2 ^ 64) {cursor : BitVec 64} {bytes : List UInt8}
    (inside : memory.Holds cursor.toNat bytes.length) :
    (next cursor (.data bytes)).toNat = cursor.toNat + bytes.length := by
  unfold Memory.Holds at inside
  rw [next, BitVec.toNat_add, BitVec.toNat_ofNat, Nat.add_mod_mod, Nat.mod_eq_of_lt]
  omega

theorem toNat_foldl_next (bounded : memory.size < 2 ^ 64) (said : List HexLine) (cursor : BitVec 64)
    (inside : ∀ placement ∈ placements cursor.toNat said, placement.Inside memory) :
    (said.foldl next cursor).toNat = cursorAfter cursor.toNat said := by
  induction said generalizing cursor with
  | nil => rfl
  | cons first said ih =>
      cases first with
      | blank => exact ih cursor inside
      | address value => exact ih value inside
      | data bytes =>
          obtain ⟨held, others⟩ := List.forall_mem_cons.mp inside
          have moved := toNat_next_data bounded held
          rw [List.foldl_cons, ih _ (moved ▸ others), moved]
          rfl

/-- Lines that are read are loaded exactly if all their bytes lie in memory, and then memory has
what they place there. -/
theorem loadLines_eq_ok_iff (bounded : memory.size < 2 ^ 64) {lines : List (List Char)}
    {said : List HexLine} (reads : List.Forall₂ (Means true) lines said) (number : Nat)
    (cursor : BitVec 64) :
    loadLines number cursor lines memory = .ok () after ↔
      Placement.Yields memory (placements cursor.toNat said) after := by
  induction reads generalizing number cursor memory with
  | nil =>
      rw [placements, Placement.yields_nil_iff]
      constructor
      · rintro ⟨⟩
        rfl
      · rintro rfl
        rfl
  | @cons line first lines said means _ ih =>
      rcases loadLines_cons number cursor line memory with
        ⟨first', stored, means', stores, goesOn⟩ | ⟨error, refuses, fails⟩
      · cases means.unique means'
        rw [goesOn]
        cases stores with
        | blank => exact ih bounded (number + 1) cursor
        | address value => exact ih bounded (number + 1) value
        | @data bytes inside =>
            -- Memory keeps its size, so the cursor does not wrap behind later lines either.
            have held : Placement.Inside ⟨cursor.toNat, bytes⟩ memory := inside
            have size := Placement.size_put held
            rw [placements, Placement.yields_cons_iff, and_iff_right held,
              ← toNat_next_data bounded inside]
            exact ih (size.symm ▸ bounded) (number + 1) _
      · rw [fails]
        refine iff_of_false nofun fun yields => ?_
        cases refuses with
        | malformed _ unfit => exact unfit ⟨first, means⟩
        | outOfBounds means' outside =>
            cases means.unique means'
            exact outside (Placement.yields_cons_iff.mp yields).1

theorem load_eq_ok_iff {text : String} (bounded : memory.size < 2 ^ 64) :
    load text memory = .ok () after ↔ ∃ said, Loads (readLines text.toList) memory said after := by
  rw [load_eq]
  constructor
  · intro loaded
    rcases loadLines_cases 1 0 (readLines text.toList) memory with
      ⟨said, _, reads, _⟩ | ⟨_, _, _, _, _, error, _, _, _, _, failed⟩
    · exact ⟨said, reads, (loadLines_eq_ok_iff bounded reads 1 0).mp loaded⟩
    · cases loaded.symm.trans failed
  · rintro ⟨said, reads, yields⟩
    exact (loadLines_eq_ok_iff bounded reads 1 0).mpr yields

/-- The lines in front of the one that is refused are those of the first part of the file. -/
theorem refuses_of_load_eq_error {text : String} {error : LoadError}
    (bounded : memory.size < 2 ^ 64) (failed : load text memory = .error error after) :
    ∃ start rest line later said, text.toList = start ++ rest ∧
      readLines text.toList = readLines start ++ line :: later ∧
      load (String.ofList start) memory = .ok () after ∧
      Loads (readLines start) memory said after ∧
      Refuses ((readLines start).length + 1) (cursorAfter 0 said) memory line error := by
  rw [load_eq] at failed
  rcases loadLines_cases 1 0 (readLines text.toList) memory with
    ⟨_, _, _, loaded⟩ |
      ⟨earlier, line, later, said, _, _, split, reads, loaded, refuses, failed'⟩
  · cases loaded.symm.trans failed
  · cases failed'.symm.trans failed
    obtain ⟨start, rest, whole, rfl⟩ := exists_prefix_of_readLines split
    have yields := (loadLines_eq_ok_iff bounded reads 1 0).mp loaded
    refine ⟨start, rest, line, later, said, whole, split, ?_, ⟨reads, yields⟩, ?_⟩
    · rw [load_eq, String.toList_ofList]
      exact loaded
    · rw [toNat_foldl_next bounded said 0 yields.inside, Nat.add_comm] at refuses
      exact refuses.of_size yields.size

/-- A file is loaded exactly if all its lines are read and all their bytes lie in memory, and then
memory has what they place there.  If a line is refused, memory is what the part of the file in
front of this line makes of it, and an error about missing room names the cursor and the number of
bytes of this line.  An address has 64 bits, so there is no larger memory. -/
theorem load_places (text : String) (memory : Memory) (bounded : memory.size < 2 ^ 64) :
    (∀ after, load text memory = .ok () after ↔
      ∃ said, Loads (readLines text.toList) memory said after) ∧
    ∀ error after, load text memory = .error error after →
      ∃ start rest line later said, text.toList = start ++ rest ∧
        readLines text.toList = readLines start ++ line :: later ∧
        load (String.ofList start) memory = .ok () after ∧
        Loads (readLines start) memory said after ∧
        Refuses ((readLines start).length + 1) (cursorAfter 0 said) memory line error :=
  ⟨fun _ => load_eq_ok_iff bounded, fun _ _ => refuses_of_load_eq_error bounded⟩

/-- The second line has one byte more than there is room. -/
theorem load_places_overlong :
    (Memory.zeros 2).size < 2 ^ 64 ∧
      ∃ start line said after,
        load "01\n02 03\n" (Memory.zeros 2) = .error (.outOfBounds 1 2) after ∧
        load (String.ofList start) (Memory.zeros 2) = .ok () after ∧
        Loads (readLines start) (Memory.zeros 2) said after ∧
        Refuses ((readLines start).length + 1) (cursorAfter 0 said) (Memory.zeros 2) line
          (.outOfBounds 1 2) := by
  have bounded : (Memory.zeros 2).size < 2 ^ 64 := by decide
  obtain ⟨after, failed⟩ : ∃ after, load "01\n02 03\n" (Memory.zeros 2) =
      .error (.outOfBounds 1 2) after := ⟨_, rfl⟩
  obtain ⟨start, rest, line, later, said, -, -, loaded, loads, refuses⟩ :=
    (load_places _ _ bounded).2 _ _ failed
  exact ⟨bounded, start, line, said, after, failed, loaded, loads, refuses⟩

end Hex

end RiscV
