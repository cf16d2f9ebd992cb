import RiscV.Proofs.MemoryBytes

/-!
# Rows of bytes placed in memory

Rows of bytes are placed in memory one after the other.  Then memory has at each address the byte
that was placed there last, and elsewhere the byte that it had before.
-/

namespace RiscV

/-- A row of bytes and the address of the first of them. -/
structure Placement where
  address : Nat
  bytes : List UInt8
  deriving DecidableEq, Repr

namespace Placement

/-- The byte that is placed at an address, if there is one. -/
def byte? (placement : Placement) (index : Nat) : Option UInt8 :=
  if placement.address ≤ index then placement.bytes[index - placement.address]? else none

/-- There is memory for all bytes. -/
def Inside (placement : Placement) (memory : Memory) : Prop :=
  memory.Holds placement.address placement.bytes.length

/-- Memory after one row is placed. -/
def put (placement : Placement) (memory : Memory) : Memory :=
  memory.overwrite placement.address placement.bytes.toByteArray

/-- The byte that is placed last at an address. -/
def lastByte? (placements : List Placement) (index : Nat) : Option UInt8 :=
  placements.reverse.findSome? (·.byte? index)

/-- What becomes of memory if some rows, which all lie inside of it, are placed in order. -/
structure Yields (memory : Memory) (placements : List Placement) (after : Memory) : Prop where
  inside : ∀ placement ∈ placements, placement.Inside memory
  size : after.size = memory.size
  byte : ∀ index, after.byte? index = (lastByte? placements index).or (memory.byte? index)

theorem lastByte?_append (earlier later : List Placement) (index : Nat) :
    lastByte? (earlier ++ later) index =
      (lastByte? later index).or (lastByte? earlier index) := by
  rw [lastByte?, List.reverse_append, List.findSome?_append, lastByte?, lastByte?]

theorem lastByte?_cons (first : Placement) (placements : List Placement) (index : Nat) :
    lastByte? (first :: placements) index =
      (lastByte? placements index).or (first.byte? index) :=
  (lastByte?_append [first] placements index).trans
    (congrArg _ (List.findSome?_singleton ..))

section Put

variable {placement : Placement} {memory : Memory}

theorem size_put (inside : placement.Inside memory) :
    (placement.put memory).size = memory.size := by
  have length : placement.bytes.toByteArray.size = placement.bytes.length := List.size_toByteArray
  exact Memory.size_overwrite (length.symm ▸ inside)

theorem byte?_put (inside : placement.Inside memory) (index : Nat) :
    (placement.put memory).byte? index = (placement.byte? index).or (memory.byte? index) := by
  have length : placement.bytes.toByteArray.size = placement.bytes.length := List.size_toByteArray
  rw [put, Memory.byte?_overwrite (length.symm ▸ inside), length, byte?, List.data_toByteArray,
    List.getElem?_toArray]
  by_cases before : placement.address ≤ index
  · rw [if_pos before]
    by_cases within : index < placement.address + placement.bytes.length
    · have offset : index - placement.address < placement.bytes.length := by omega
      rw [if_pos ⟨before, within⟩, List.getElem?_eq_getElem offset, Option.some_or]
    · have offset : placement.bytes.length ≤ index - placement.address := by omega
      rw [if_neg fun both => within both.2, List.getElem?_eq_none offset, Option.none_or]
  · rw [if_neg before, if_neg fun both => before both.1, Option.none_or]

end Put

/-! ## Rows in order -/

variable {memory after : Memory} {first : Placement} {placements : List Placement}

theorem yields_nil_iff : Yields memory [] after ↔ after = memory := by
  constructor
  · intro yields
    exact Memory.ext_byte? yields.byte
  · rintro rfl
    exact ⟨nofun, rfl, fun _ => rfl⟩

theorem yields_cons_iff :
    Yields memory (first :: placements) after ↔
      first.Inside memory ∧ Yields (first.put memory) placements after := by
  constructor
  · rintro ⟨inside, size, byte⟩
    obtain ⟨held, others⟩ := List.forall_mem_cons.mp inside
    have kept := size_put held
    refine ⟨held, fun placement member => ?_, size.trans kept.symm, fun index => ?_⟩
    · unfold Inside Memory.Holds
      rw [kept]
      exact others placement member
    · rw [byte, lastByte?_cons, Option.or_assoc, byte?_put held]
  · rintro ⟨held, inside, size, byte⟩
    have kept := size_put held
    refine ⟨List.forall_mem_cons.mpr ⟨held, fun placement member => ?_⟩, size.trans kept,
      fun index => ?_⟩
    · have held := inside placement member
      unfold Inside Memory.Holds at held
      rwa [kept] at held
    · rw [byte, lastByte?_cons, Option.or_assoc, byte?_put held]

end Placement

end RiscV
