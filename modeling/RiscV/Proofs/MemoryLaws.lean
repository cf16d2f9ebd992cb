import Mathlib.Algebra.Ring.Nat
import RiscV.Proofs.Checked.Memory
import RiscV.Proofs.Loading
import RiscV.Proofs.MemoryBytes

/-!
# Laws of memory

Memory is changed by replacing, clearing or storing a row of bytes.  A change that does not lie
wholly inside of memory does nothing, and one that does is seen by exactly the reads that meet its
row.  Changes of rows that do not meet commute, and a unit is as good as its two halves.
-/

namespace RiscV

/-- No place is in both rows, which are given by their starts and counts. -/
def Apart (start count start' count' : Nat) : Prop :=
  ∀ index, start ≤ index → index < start + count → start' ≤ index → ¬ index < start' + count'

theorem Apart.symm {start count start' count' : Nat} (apart : Apart start count start' count') :
    Apart start' count' start count :=
  fun index low' high' low high => apart index low high low' high'

/-- Rows are apart if one of them ends before the other starts. -/
theorem Apart.of_le {start count start' count' : Nat} (before : start + count ≤ start') :
    Apart start count start' count' :=
  fun _ _ high low => absurd (Nat.le_trans before low) (Nat.not_le_of_lt high)

namespace Memory

/-- A change of memory from an address on. -/
inductive Change where
  /-- Replaces some bytes by others. -/
  | write (address : Nat) (data : ByteArray)
  /-- Clears some bytes. -/
  | clear (address count : Nat)
  /-- Stores a number in a unit. -/
  | store (size : AccessSize) (address : Nat) (value : BitVec (8 * size.bytes))

namespace Change

/-- The address of the first byte that is changed. -/
def address : Change → Nat
  | write address _ | clear address _ | store _ address _ => address

/-- How many bytes are changed. -/
def count : Change → Nat
  | write _ data => data.size
  | clear _ count => count
  | store size _ _ => size.bytes

/-- What the bytes become. -/
def data : Change → ByteArray
  | write _ data => data
  | clear _ count => (zeros count).bytes
  | store size _ value => (LittleEndian.ofNat size.bytes value.toNat).toByteArray

/-- The change as an action. -/
def action : Change → EStateM AccessFault Memory Unit
  | write address data => Memory.write address data
  | clear address count => Memory.clear address count
  | store size address value => Memory.store size address value

/-- Memory after some changes, of which those that fail are passed over. -/
def applied (changes : List Change) (memory : Memory) : Memory :=
  changes.foldl (fun memory change => finalState (change.action memory)) memory

end Change

variable {memory after middle : Memory} {address count start index : Nat}

/-! ## Reads -/

theorem read_eq_ok_iff {bytes : ByteArray} :
    memory.read address count = .ok bytes ↔
      memory.Holds address count ∧ bytes.size = count ∧
        ∀ index < count, memory.byte? (address + index) = bytes.data[index]? := by
  rw [read]
  by_cases held : memory.Holds address count
  · have inside : address + count ≤ memory.bytes.data.size := held
    rw [if_pos held, and_iff_right held]
    constructor
    · rintro ⟨⟩
      refine ⟨?_, fun index below => ?_⟩
      · rw [ByteArray.size_extract]
        exact Nat.sub_eq_of_eq_add' (Nat.min_eq_left inside)
      · rw [ByteArray.data_extract, Array.getElem?_extract, if_pos (by omega)]
        rfl
    · rintro ⟨size, found⟩
      have length : bytes.data.size = count := size
      congr 1
      apply ByteArray.ext
      apply Array.ext_getElem?
      intro index
      rw [ByteArray.data_extract, Array.getElem?_extract]
      by_cases below : index < count
      · rw [if_pos (by omega), ← found index below]
        rfl
      · rw [if_neg (by omega), Array.getElem?_eq_none (by omega)]
  · rw [if_neg held]
    constructor
    · intro found
      cases found
    · rintro ⟨inside, -⟩
      exact absurd inside held

theorem read_of_not_holds (outside : ¬ memory.Holds address count) :
    memory.read address count = .error {} := if_neg outside

theorem exists_read_iff :
    (∃ bytes, memory.read address count = .ok bytes) ↔ address + count ≤ memory.size := by
  constructor
  · rintro ⟨bytes, found⟩
    exact (read_eq_ok_iff.mp found).1
  · intro held
    exact ⟨_, if_pos held⟩

theorem exists_load_iff {size : AccessSize} :
    (∃ value, memory.load size address = .ok value) ↔ address + size.bytes ≤ memory.size := by
  constructor
  · rintro ⟨value, loaded⟩
    exact (load_eq_ok_iff.mp loaded).holds size.bytes_pos
  · intro held
    obtain ⟨value, loaded, -⟩ := load_of_holds held
    exact ⟨value, loaded⟩

/-- A read depends on the bytes in its place and on the size of memory only. -/
theorem read_congr (size : after.size = memory.size)
    (same : ∀ index, address ≤ index → index < address + count →
      after.byte? index = memory.byte? index) :
    after.read address count = memory.read address count := by
  have holds_iff : after.Holds address count ↔ memory.Holds address count := by
    rw [Holds, size, Holds]
  by_cases held : memory.Holds address count
  · obtain ⟨bytes, found⟩ := exists_read_iff.mpr held
    obtain ⟨-, length, spelled⟩ := read_eq_ok_iff.mp found
    rw [found, read_eq_ok_iff]
    refine ⟨holds_iff.mpr held, length, fun index below => ?_⟩
    rw [same _ (Nat.le_add_right ..) (Nat.add_lt_add_left below _), spelled index below]
  · rw [read_of_not_holds held, read_of_not_holds (holds_iff.not.mpr held)]

/-! ## Changes -/

theorem seq_eq_ok_iff {first second : EStateM AccessFault Memory Unit} :
    (do first; second : EStateM AccessFault Memory Unit) memory = .ok () after ↔
      ∃ middle, first memory = .ok () middle ∧ second middle = .ok () after := by
  change EStateM.bind first (fun _ => second) memory = .ok () after ↔ _
  unfold EStateM.bind
  cases first memory with
  | ok result middle => simp
  | error fault middle => simp

namespace Change

variable {change other : Change}

theorem size_data (change : Change) : change.data.size = change.count := by
  cases change with
  | write => rfl
  | clear address count => exact size_zeros count
  | store => rw [data, count, List.size_toByteArray, LittleEndian.length_ofNat]

/-- Every change replaces all of its bytes or none of them. -/
theorem action_apply (change : Change) (memory : Memory) :
    change.action memory =
      if memory.Holds change.address change.count then
        .ok () (memory.overwrite change.address change.data)
      else .error {} memory := by
  rw [← size_data]
  cases change with
  | write => rfl
  | store => rfl
  | clear address count =>
      have length : (zeros count).bytes.size = count := size_zeros count
      rw [action, Memory.clear, data, length]
      rfl

theorem action_eq_ok_iff :
    change.action memory = .ok () after ↔
      memory.Holds change.address change.count ∧
        after = memory.overwrite change.address change.data := by
  rw [action_apply]
  split
  · rename_i held
    rw [and_iff_right held]
    exact ⟨fun | rfl => rfl, fun | rfl => rfl⟩
  · rename_i outside
    exact iff_of_false nofun fun found => outside found.1

theorem byte?_of_action (completes : change.action memory = .ok () after) (index : Nat) :
    after.byte? index =
      if change.address ≤ index ∧ index < change.address + change.count then
        change.data.data[index - change.address]?
      else memory.byte? index := by
  obtain ⟨held, rfl⟩ := action_eq_ok_iff.mp completes
  have changed := byte?_overwrite (change.size_data.symm ▸ held) index
  rwa [size_data] at changed

theorem keepsSize (change : Change) : KeepsSize change.action := by
  cases change with
  | write address data => exact keepsSize_write address data
  | clear address count => exact keepsSize_clear address count
  | store size address value => exact keepsSize_write address _

theorem size_of_action (completes : change.action memory = .ok () after) :
    after.size = memory.size := by
  have kept := change.keepsSize memory
  rwa [completes] at kept

theorem size_applied (changes : List Change) (memory : Memory) :
    (applied changes memory).size = memory.size := by
  induction changes generalizing memory with
  | nil => rfl
  | cons change changes ih => exact (ih _).trans (change.keepsSize memory)

theorem exists_action_iff :
    (∃ after, change.action memory = .ok () after) ↔
      change.address + change.count ≤ memory.size := by
  simp only [action_eq_ok_iff, exists_and_left, exists_eq, and_true]
  rfl

theorem eq_of_action_error {fault : AccessFault}
    (fails : change.action memory = .error fault after) : after = memory := by
  rw [action_apply] at fails
  split at fails <;> cases fails
  rfl

/-- A read inside of what a change replaced finds what it was replaced by. -/
theorem read_inside (completes : change.action memory = .ok () after)
    (low : change.address ≤ start) (high : start + count ≤ change.address + change.count) :
    after.read start count =
      .ok (change.data.extract (start - change.address) (start - change.address + count)) := by
  have held : change.address + change.count ≤ memory.size := (action_eq_ok_iff.mp completes).1
  have size := size_of_action completes
  have length : change.data.data.size = change.count := change.size_data
  rw [read_eq_ok_iff]
  refine ⟨by unfold Holds; omega, ?_, fun index below => ?_⟩
  · rw [ByteArray.size_extract, size_data]
    omega
  · rw [byte?_of_action completes, if_pos (by omega), ByteArray.data_extract,
      Array.getElem?_extract, if_pos (by omega), Nat.sub_add_comm low]

/-- A read of other bytes than those that a change replaced finds what it found before. -/
theorem read_apart (completes : change.action memory = .ok () after)
    (apart : Apart start count change.address change.count) :
    after.read start count = memory.read start count := by
  refine read_congr (size_of_action completes) fun index low high => ?_
  rw [byte?_of_action completes, if_neg fun ⟨low', high'⟩ => apart index low high low' high']

/-! ## Two changes -/

theorem then_comm_of_apart
    (apart : Apart change.address change.count other.address other.count)
    (completes : (do change.action; other.action : EStateM AccessFault Memory Unit) memory =
      .ok () after) :
    (do other.action; change.action : EStateM AccessFault Memory Unit) memory = .ok () after := by
  obtain ⟨middle, first, second⟩ := seq_eq_ok_iff.mp completes
  have size := size_of_action first
  -- Each of the changes has its room whether it comes first or second.
  have held := exists_action_iff.mp ⟨middle, first⟩
  have held' := exists_action_iff.mp ⟨after, second⟩
  obtain ⟨middle', first'⟩ := exists_action_iff.mpr (size ▸ held')
  have size' := size_of_action first'
  obtain ⟨after', second'⟩ := exists_action_iff.mpr (size' ▸ held)
  have same : after' = after := by
    apply ext_byte?
    intro index
    rw [byte?_of_action second', byte?_of_action first', byte?_of_action second,
      byte?_of_action first]
    by_cases within : change.address ≤ index ∧ index < change.address + change.count
    · have beyond : ¬ (other.address ≤ index ∧ index < other.address + other.count) :=
        fun within' => apart index within.1 within.2 within'.1 within'.2
      rw [if_pos within, if_pos within, if_neg beyond]
    · rw [if_neg within, if_neg within]
  exact seq_eq_ok_iff.mpr ⟨middle', first', same ▸ second'⟩

end Change

/-! ## Halves of units -/

/-- Two rows, one behind the other, spell what their bytes make up. -/
theorem Spells.join {length rest : Nat} {value : BitVec (8 * count)} (whole : length + rest = count)
    (low : memory.Spells address length (value.extractLsb' 0 (8 * length)))
    (high : memory.Spells (address + length) rest (value.extractLsb' (8 * length) (8 * rest))) :
    memory.Spells address count value := by
  intro index below
  by_cases first : index < length
  · rw [low index first, Checked.extractLsb'_extractLsb' (by omega), Nat.zero_add]
  · have place : address + index = address + length + (index - length) := by omega
    have bits : 8 * length + 8 * (index - length) = 8 * index := by omega
    rw [place, high (index - length) (by omega), Checked.extractLsb'_extractLsb' (by omega), bits]

/-- Memory is known from what it spells in one place and from its bytes elsewhere. -/
theorem Spells.ext {value : BitVec (8 * count)} (spells : memory.Spells address count value)
    (spells' : after.Spells address count value)
    (same : ∀ index, ¬ (address ≤ index ∧ index < address + count) →
      after.byte? index = memory.byte? index) : after = memory := by
  apply ext_byte?
  intro index
  by_cases within : address ≤ index ∧ index < address + count
  · have place : index = address + (index - address) := by omega
    have below : index - address < count := by omega
    rw [place, spells' _ below, spells _ below]
  · exact same index within

section Halves

variable {size wide : AccessSize}

theorem load_halves (double : wide.bytes = 2 * size.bytes)
    (held : memory.Holds address wide.bytes) :
    ∃ low high value,
      memory.load size address = .ok low ∧
      memory.load size (address + size.bytes) = .ok high ∧
      memory.load wide address = .ok value ∧
      value.toNat = low.toNat + 2 ^ (8 * size.bytes) * high.toNat := by
  obtain ⟨value, loaded, spells⟩ := load_of_holds held
  have low : memory.Spells (address + 0) size.bytes
      (value.extractLsb' (8 * 0) (8 * size.bytes)) := spells.slice (by omega)
  have high : memory.Spells (address + size.bytes) size.bytes
      (value.extractLsb' (8 * size.bytes) (8 * size.bytes)) := spells.slice (by omega)
  refine ⟨_, _, value, load_eq_ok_iff.mpr low, load_eq_ok_iff.mpr high, loaded, ?_⟩
  have bound : value.toNat < 2 ^ (8 * size.bytes) * 2 ^ (8 * size.bytes) := by
    rw [← Nat.pow_add, ← Nat.two_mul, ← Nat.mul_left_comm, ← double]
    exact value.isLt
  rw [BitVec.extractLsb'_toNat, BitVec.extractLsb'_toNat, Nat.mul_zero, Nat.shiftRight_zero,
    Nat.shiftRight_eq_div_pow, Nat.mod_eq_of_lt (Nat.div_lt_of_lt_mul bound), Nat.mod_add_div]

theorem store_of_holds (held : memory.Holds address size.bytes) (value : BitVec (8 * size.bytes)) :
    store size address value memory = .ok () (memory.put size address value) :=
  (Change.action_apply (.store size address value) memory).trans (if_pos held)

theorem holds_halves (double : wide.bytes = 2 * size.bytes)
    (held : memory.Holds address wide.bytes) (low : BitVec (8 * size.bytes)) :
    memory.Holds address size.bytes ∧
      (memory.put size address low).Holds (address + size.bytes) size.bytes := by
  unfold Holds at held
  have first : memory.Holds address size.bytes := by
    unfold Holds
    omega
  have kept : (memory.put size address low).size = memory.size := size_put first
  refine ⟨first, ?_⟩
  unfold Holds
  omega

theorem put_halves (double : wide.bytes = 2 * size.bytes)
    (held : memory.Holds address wide.bytes) (value : BitVec (8 * wide.bytes)) :
    (memory.put size address (value.extractLsb' 0 _)).put size (address + size.bytes)
        (value.extractLsb' (8 * size.bytes) _) =
      memory.put wide address value := by
  obtain ⟨first, second⟩ := holds_halves double held (value.extractLsb' 0 _)
  have outside {index : Nat}
      (away : ¬ (address + size.bytes ≤ index ∧ index < address + size.bytes + size.bytes)) :
      ((memory.put size address (value.extractLsb' 0 _)).put size (address + size.bytes)
        (value.extractLsb' (8 * size.bytes) _)).byte? index =
      (memory.put size address (value.extractLsb' 0 _)).byte? index :=
    byte?_put_outside second away
  -- The second half leaves the first one alone.
  have low := (spells_put first).congr fun index _ below =>
    outside fun away => Nat.not_lt_of_le away.1 below
  have both := low.join (double.trans (Nat.two_mul _)).symm (spells_put second)
  refine (spells_put held).ext both fun index away => ?_
  rw [outside (by omega), byte?_put_outside first (by omega), byte?_put_outside held away]

theorem store_halves (double : wide.bytes = 2 * size.bytes)
    (held : memory.Holds address wide.bytes) (value : BitVec (8 * wide.bytes)) :
    store wide address value memory =
      (do
        store size address (value.extractLsb' 0 (8 * size.bytes))
        store size (address + size.bytes) (value.extractLsb' (8 * size.bytes) (8 * size.bytes)) :
        EStateM AccessFault Memory Unit) memory := by
  obtain ⟨first, second⟩ := holds_halves double held (value.extractLsb' 0 _)
  rw [store_of_holds held, ← put_halves double held]
  exact (seq_eq_ok_iff.mpr ⟨_, store_of_holds first _, store_of_holds second _⟩).symm

end Halves

/-! ## The laws -/

/-- How a change of memory ends, and what is read after it. -/
structure Change.Exact (change : Change) (memory : Memory) : Prop where
  succeeds : (∃ after, change.action memory = .ok () after) ↔
    change.address + change.count ≤ memory.size
  fails : ∀ fault after, change.action memory = .error fault after → after = memory
  /-- Inside of the row what it became is found, be it as bytes or as a number. -/
  inside : ∀ after, change.action memory = .ok () after → ∀ start count,
    change.address ≤ start → start + count ≤ change.address + change.count →
      let bytes := change.data.extract (start - change.address) (start - change.address + count)
      after.read start count = .ok bytes ∧
        ∀ size : AccessSize, size.bytes = count →
          after.load size start = .ok (BitVec.ofNat _ (LittleEndian.toNat bytes.data.toList))
  /-- Away from the row the same is found as before, even if this is nothing. -/
  apart : ∀ after, change.action memory = .ok () after → ∀ start count,
    Apart start count change.address change.count →
      after.read start count = memory.read start count ∧
        ∀ size : AccessSize, size.bytes = count →
          after.load size start = memory.load size start

theorem Change.exact (change : Change) (memory : Memory) : change.Exact memory where
  succeeds := exists_action_iff
  fails _ _ := eq_of_action_error
  inside after completes start count low high := by
    intro bytes
    have found := read_inside completes low high
    refine ⟨found, ?_⟩
    rintro size rfl
    rw [load, found]
    rfl
  apart after completes start count away := by
    have same := read_apart completes away
    refine ⟨same, ?_⟩
    rintro size rfl
    rw [load, same, load]

/-- A unit holds the same number as its halves, and is stored as its halves are. -/
structure Splits (memory : Memory) (size wide : AccessSize) (address : Nat) : Prop where
  loads : ∃ low high value,
    memory.load size address = .ok low ∧
    memory.load size (address + size.bytes) = .ok high ∧
    memory.load wide address = .ok value ∧
    value.toNat = low.toNat + 2 ^ (8 * size.bytes) * high.toNat
  stores : ∀ value : BitVec (8 * wide.bytes),
    store wide address value memory =
      (do
        store size address (value.extractLsb' 0 (8 * size.bytes))
        store size (address + size.bytes) (value.extractLsb' (8 * size.bytes) (8 * size.bytes)) :
        EStateM AccessFault Memory Unit) memory

/-- Reads and changes succeed exactly inside of memory, also where the end of a row as a number of
64 bits would wrap around.  A change that fails does nothing, one that succeeds is found by the
reads inside of its row and by no other, and changes of rows apart commute.  Units are made up of
their halves, and memory keeps its size. -/
theorem memory_laws (memory : Memory) :
    (∀ address count,
      (∃ bytes, memory.read address count = .ok bytes) ↔ address + count ≤ memory.size) ∧
    (∀ size address,
      (∃ value, memory.load size address = .ok value) ↔ address + size.bytes ≤ memory.size) ∧
    (memory.size < 2 ^ 64 → ∀ address count stop : BitVec 64,
      Checked.stop? memory.size address count = some stop ↔
        address.toNat + count.toNat ≤ memory.size ∧
          stop.toNat = address.toNat + count.toNat) ∧
    (∀ change : Change, change.Exact memory) ∧
    (∀ size address value after,
      store size address value memory = .ok () after → after.load size address = .ok value) ∧
    (∀ change other : Change, Apart change.address change.count other.address other.count →
      ∀ after,
        (do change.action; other.action : EStateM AccessFault Memory Unit) memory =
            .ok () after ↔
          (do other.action; change.action : EStateM AccessFault Memory Unit) memory =
            .ok () after) ∧
    (∀ size wide : AccessSize, wide.bytes = 2 * size.bytes →
      ∀ address, address + wide.bytes ≤ memory.size → memory.Splits size wide address) ∧
    (∀ changes, (Change.applied changes memory).size = memory.size) ∧
    memory.reset.size = memory.size := by
  refine ⟨fun _ _ => exists_read_iff, fun _ _ => exists_load_iff,
    fun bounded _ _ _ => Checked.stop?_eq_some_iff bounded, fun change => change.exact memory,
    fun size address value after stored => ?_,
    fun change other apart after =>
      ⟨Change.then_comm_of_apart apart, Change.then_comm_of_apart apart.symm⟩,
    fun size wide double address held => ⟨load_halves double held, store_halves double held⟩,
    fun changes => Change.size_applied changes memory, size_reset memory⟩
  have changed : (Change.store size address value).action memory = .ok () after := stored
  obtain ⟨held, rfl⟩ := Change.action_eq_ok_iff.mp changed
  exact load_eq_ok_iff.mpr (spells_put held)

/-- A halfword in the last two bytes, and three bytes that are cleared in front of it. -/
theorem memory_laws_last :
    let memory := filled 8 0xFF
    let change : Change := .store .halfword 6 0x1234
    let other : Change := .clear 2 3
    ∃ after both, change.action memory = .ok () after ∧
      after.read 7 1 = .ok ⟨#[0x12]⟩ ∧ after.read 4 2 = memory.read 4 2 ∧
      (do other.action; change.action : EStateM AccessFault Memory Unit) memory = .ok () both ∧
      (do change.action; other.action : EStateM AccessFault Memory Unit) memory = .ok () both ∧
      after.Splits .word .doubleword 0 ∧
      (∀ stop : BitVec 64, Checked.stop? memory.size 0xFFFFFFFFFFFFFFFF 2 ≠ some stop) := by
  intro memory change other
  obtain ⟨-, -, bounds, changes, -, comm, -⟩ := memory_laws memory
  obtain ⟨after, completes⟩ := (changes change).succeeds.mpr (by decide)
  obtain ⟨both, ordered⟩ : ∃ both,
    (do other.action; change.action : EStateM AccessFault Memory Unit) memory = .ok () both :=
      ⟨_, rfl⟩
  have size : after.size = 8 := Change.size_of_action completes
  have near : Apart 4 2 change.address change.count := .of_le (by decide)
  have cleared : Apart other.address other.count change.address change.count := .of_le (by decide)
  refine ⟨after, both, completes, ?_, ((changes change).apart after completes 4 2 near).1, ordered,
    (comm other change cleared both).mp ordered, ?_, ?_⟩
  · exact ((changes change).inside after completes 7 1 (by decide) (by decide)).1
  · exact (memory_laws after).2.2.2.2.2.2.1 .word .doubleword rfl 0 (Nat.le_of_eq size.symm)
  · intro stop found
    exact absurd ((bounds (by decide) _ _ _).mp found).1 (by decide)

end Memory

end RiscV
