import RiscV.Proofs.Alignment
import RiscV.Proofs.MemoryLaws

/-!
# Fetching instructions

A step that takes no interrupt performs the instruction at the program counter.  What stands in the
way of fetching it is found in order: a misaligned program counter, no memory for the first parcel,
and, if this one asks for a second parcel, no memory for that.  The second parcel is two bytes
further on, where addresses wrap around.
-/

namespace RiscV

namespace Hart

variable {x : Xlen}

/-- The address of the second parcel of an instruction at the program counter. -/
def secondParcel (hart : Hart x) : Word x := BitVec.ofNat x.bits (hart.pc.toNat + 2)

/-- What a step does that takes no interrupt. -/
structure Fetches (hart : Hart x) : Prop where
  misaligned : ¬ hart.Admits hart.pc →
    hart.step = hart.trapped (.exception .instructionAddressMisaligned) hart.pc
  outside : hart.Admits hart.pc → hart.memory.size < hart.pc.toNat + 2 →
    hart.step = hart.trapped (.exception .instructionAccessFault) hart.pc
  /-- Where there is memory for a parcel there is one. -/
  spelled : ∀ address, address + 2 ≤ hart.memory.size →
    ∃ parcel, hart.memory.Spells address 2 parcel
  /-- A single parcel is performed, be there memory behind it or not. -/
  short : hart.Admits hart.pc → ∀ low, hart.memory.Spells hart.pc.toNat 2 low →
    low.extractLsb' 0 2 ≠ 3 → hart.step = hart.perform (.short low)
  beyond : hart.Admits hart.pc → ∀ low, hart.memory.Spells hart.pc.toNat 2 low →
    low.extractLsb' 0 2 = 3 → hart.memory.size < hart.secondParcel.toNat + 2 →
      hart.step = hart.trapped (.exception .instructionAccessFault) hart.secondParcel
  long : hart.Admits hart.pc → ∀ low, hart.memory.Spells hart.pc.toNat 2 low →
    low.extractLsb' 0 2 = 3 → ∀ high, hart.memory.Spells hart.secondParcel.toNat 2 high →
      hart.step = hart.perform (.long (high ++ low))
  /-- Two parcels in a row are the word at the program counter. -/
  word : hart.pc.toNat + 2 < 2 ^ x.bits →
    ∀ low, hart.memory.Spells hart.pc.toNat 2 low →
      ∀ high, hart.memory.Spells hart.secondParcel.toNat 2 high →
        hart.memory.load .word hart.pc.toNat = .ok (high ++ low)

variable {hart : Hart x} {address : Word x} {low high : BitVec 16}

theorem toNat_secondParcel (hart : Hart x) :
    hart.secondParcel.toNat = (hart.pc.toNat + 2) % 2 ^ x.bits := BitVec.toNat_ofNat ..

theorem secondParcel_eq (hart : Hart x) : hart.secondParcel = hart.pc + 2 := by
  rw [secondParcel, BitVec.ofNat_add, BitVec.ofNat_toNat, BitVec.setWidth_eq]
  rfl

/-! ## Parcels -/

theorem fetchParcel_of_spells (spells : hart.memory.Spells address.toNat 2 low) :
    hart.fetchParcel address = .ok low := by
  have loaded : hart.memory.load .halfword address.toNat = .ok low :=
    Memory.load_eq_ok_iff.mpr spells
  rw [fetchParcel, loaded]
  rfl

theorem fetchParcel_of_outside (outside : hart.memory.size < address.toNat + 2) :
    hart.fetchParcel address = .error ⟨.instructionAccessFault, address⟩ := by
  have failed : hart.memory.load .halfword address.toNat = .error {} :=
    Memory.load_of_not_holds (Nat.not_le_of_lt outside)
  rw [fetchParcel, failed]
  rfl

theorem isShort_iff : Compressed.isShort low = true ↔ low.extractLsb' 0 2 ≠ 3 := bne_iff_ne

/-- Parcels one behind the other make up a word. -/
theorem spells_word (low_spells : hart.memory.Spells hart.pc.toNat 2 low)
    (high_spells : hart.memory.Spells (hart.pc.toNat + 2) 2 high) :
    hart.memory.Spells hart.pc.toNat 4 (high ++ low) := by
  have lower : (high ++ low).extractLsb' 0 16 = low := BitVec.extractLsb'_append_eq_right
  have upper : (high ++ low).extractLsb' 16 16 = high := BitVec.extractLsb'_append_eq_left
  exact Memory.Spells.join rfl (lower ▸ low_spells) (upper ▸ high_spells)

/-! ## Instructions -/

section Fetch

variable (aligned : hart.config.alignment.Aligned address.toNat)
include aligned

theorem fetch_of_outside (outside : hart.memory.size < address.toNat + 2) :
    hart.fetch address = .error ⟨.instructionAccessFault, address⟩ := by
  rw [fetch, if_neg (not_not_intro aligned), fetchParcel_of_outside outside]
  rfl

theorem fetch_of_short (spells : hart.memory.Spells address.toNat 2 low)
    (short : Compressed.isShort low = true) : hart.fetch address = .ok (.short low) := by
  rw [fetch, if_neg (not_not_intro aligned), fetchParcel_of_spells spells]
  simp only [bind, Except.bind, pure, Except.pure, short, if_true]

theorem fetch_of_long (spells : hart.memory.Spells address.toNat 2 low)
    (long : Compressed.isShort low = false) :
    hart.fetch address =
      (hart.fetchParcel (address + 2)).map fun high => .long (high ++ low) := by
  rw [fetch, if_neg (not_not_intro aligned), fetchParcel_of_spells spells]
  simp only [bind, Except.bind, pure, Except.pure, long, Bool.false_eq_true, if_false]
  rfl

end Fetch

/-- A step that takes no interrupt traps for the first of these reasons that there is: a misaligned
program counter, no memory for the first parcel, or no memory for a second one that is asked for.
If there is none it performs the parcel, or the word of both parcels. -/
theorem fetches_of_quiet (hart : Hart x) (quiet : hart.interrupt? = none) : hart.Fetches := by
  have stepped := step_eq hart
  rw [quiet] at stepped
  have long_of {low : BitVec 16} (marked : low.extractLsb' 0 2 = 3) :
      Compressed.isShort low = false :=
    Bool.eq_false_iff.mpr fun short => isShort_iff.mp short marked
  constructor
  case misaligned =>
    intro misaligned
    rw [stepped, fetch, if_pos (admits_iff.not.mp misaligned)]
  case outside =>
    intro aligned outside
    rw [stepped, fetch_of_outside (admits_iff.mp aligned) outside]
  case spelled =>
    intro address held
    have held : hart.memory.Holds address AccessSize.halfword.bytes := held
    obtain ⟨parcel, -, spells⟩ := Memory.load_of_holds held
    exact ⟨parcel, spells⟩
  case short =>
    intro aligned low spells unmarked
    rw [stepped, fetch_of_short (admits_iff.mp aligned) spells (isShort_iff.mpr unmarked)]
  case beyond =>
    intro aligned low spells marked beyond
    rw [stepped, fetch_of_long (admits_iff.mp aligned) spells (long_of marked),
      ← secondParcel_eq, fetchParcel_of_outside beyond]
    rfl
  case long =>
    intro aligned low spells marked high spells'
    rw [stepped, fetch_of_long (admits_iff.mp aligned) spells (long_of marked),
      ← secondParcel_eq, fetchParcel_of_spells spells']
    rfl
  case word =>
    intro room low spells high spells'
    rw [toNat_secondParcel, Nat.mod_eq_of_lt room] at spells'
    exact Memory.load_eq_ok_iff.mpr (spells_word spells spells')

/-- In the last two bytes of memory a compressed instruction completes, and a longer one has no
second parcel. -/
theorem fetches_of_quiet_last :
    let hart (low : UInt8) : Hart .rv32 :=
      { (initial { memorySize := 6 } : Hart .rv32) with
        memory := ⟨⟨#[0, 0, 0, 0, low, 0]⟩⟩, pc := 4 }
    (hart 1).interrupt? = none ∧ (hart 3).interrupt? = none ∧
      (hart 1).step = (hart 1).perform (.short 1) ∧ (hart 1).step.1 = .retired ∧
      (hart 3).step = (hart 3).trapped (.exception .instructionAccessFault) 6 := by
  intro hart
  have performed : (hart 1).step = (hart 1).perform (.short 1) :=
    (fetches_of_quiet (hart 1) rfl).short (by decide) 1 (by decide) (by decide)
  have completes : (hart 1).perform (.short 1) = (.retired, _) := rfl
  refine ⟨rfl, rfl, performed, congrArg Prod.fst (performed.trans completes), ?_⟩
  exact (fetches_of_quiet (hart 3) rfl).beyond (by decide) 3 (by decide) (by decide) (by decide)

end Hart

end RiscV
