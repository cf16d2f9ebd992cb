import RiscV.Proofs.Call
import RiscV.Proofs.Decoding
import RiscV.Proofs.Expansion
import RiscV.Proofs.MemoryBytes

/-!
# Loads and stores

A load or store first checks that its address is aligned, then that memory holds the whole unit,
and completes if both are so.  A load leaves the number that memory spells at the address in a
register, extended to its width; a store has memory spell the low part of a register there, and
changes no other byte.  In a run a byte of memory changes only by a store to it that completes.
-/

namespace RiscV

namespace LoadOp

variable {x : Xlen}

/-- The word is the loaded number, which has a sign if the load is one of signed numbers. -/
def Extends (op : LoadOp) (value : BitVec (8 * op.size.bytes)) (word : Word x) : Prop :=
  if op.isSigned then word.toInt = value.toInt else word.toNat = value.toNat

/-- A unit that can be loaded fits in a register. -/
theorem size_le {op : LoadOp} (exists_on : op.isWide = true → x.isWide = true) :
    8 * op.size.bytes ≤ x.bits := by
  cases x with
  | rv32 =>
      cases op with
      | ld | lwu => cases exists_on rfl
      | _ => decide
  | rv64 => cases op <;> decide

theorem extends_extend {op : LoadOp} (exists_on : op.isWide = true → x.isWide = true)
    (value : BitVec (8 * op.size.bytes)) : op.Extends value (op.extend value : Word x) := by
  have fits := size_le exists_on
  unfold Extends extend
  split
  · exact BitVec.toInt_signExtend_of_le fits
  · exact BitVec.toNat_setWidth_of_le fits

end LoadOp

namespace InstructionBits

/-- Bits mean only instructions that exist for the width of the registers. -/
theorem wellFormed_of_meaning? {x : Xlen} {bits : InstructionBits} {instruction : Instruction}
    (meaning : bits.meaning? x = some instruction) : instruction.WellFormed x := by
  cases bits with
  | short code => exact (Compressed.compressible_of_expand? meaning).wellFormed
  | long word =>
      cases decoded : Instruction.decode x word with
      | error error =>
          rw [meaning?, decoded] at meaning
          cases meaning
      | ok found =>
          rw [meaning?, decoded] at meaning
          cases meaning
          exact (Instruction.means_of_decode decoded).wellFormed

end InstructionBits

namespace Hart

open Execution

variable {x : Xlen}

/-- The address at an offset from the contents of a register. -/
def effective (hart : Hart x) (base : Register) (offset : BitVec 12) : Word x :=
  hart.registers.read base + offset.signExtend x.bits

/-- The unit at the address is aligned, or the hart supports that it is not. -/
def Permits (hart : Hart x) (size : AccessSize) (address : Word x) : Prop :=
  hart.config.misaligned = true ∨ size.bytes ∣ address.toNat

instance (hart : Hart x) (size : AccessSize) (address : Word x) :
    Decidable (hart.Permits size address) :=
  inferInstanceAs (Decidable (_ ∨ _))

section Perform

variable {hart : Hart x} {bits : InstructionBits} {base : Register} {offset : BitVec 12}

theorem perform_load {op : LoadOp} {dest : Register}
    (decoded : hart.decode? bits = some (.load op dest base offset)) :
    hart.perform bits =
      if hart.Permits op.size (hart.effective base offset) then
        match hart.memory.load op.size (hart.effective base offset).toNat with
        | .ok value =>
            (.retired,
              { (hart.advanced bits).retire with
                registers := hart.registers.write dest (op.extend value) })
        | .error _ => hart.trapped (.exception .loadAccessFault) (hart.effective base offset)
      else hart.trapped (.exception .loadAddressMisaligned) (hart.effective base offset) := by
  have executed : execute hart.pc bits (.load op dest base offset) (hart.advanced bits) =
      if hart.Permits op.size (hart.effective base offset) then
        match hart.memory.load op.size (hart.effective base offset).toNat with
        | .ok value => .ok () ((hart.advanced bits).setRegister dest (op.extend value))
        | .error _ =>
            .error ⟨.loadAccessFault, hart.effective base offset⟩ (hart.advanced bits)
      else .error ⟨.loadAddressMisaligned, hart.effective base offset⟩ (hart.advanced bits) :=
    execute_load ..
  simp only [perform_eq, decoded, executed]
  by_cases permitted : hart.Permits op.size (hart.effective base offset)
  · simp only [if_pos permitted]
    cases hart.memory.load op.size (hart.effective base offset).toNat <;> rfl
  · simp only [if_neg permitted]

theorem perform_store {op : StoreOp} {src : Register}
    (decoded : hart.decode? bits = some (.store op src base offset)) :
    hart.perform bits =
      if hart.Permits op.size (hart.effective base offset) then
        if hart.memory.Holds (hart.effective base offset).toNat op.size.bytes then
          (.retired,
            { (hart.advanced bits).retire with
              memory := hart.memory.put op.size (hart.effective base offset).toNat
                ((hart.registers.read src).setWidth _) })
        else hart.trapped (.exception .storeAccessFault) (hart.effective base offset)
      else hart.trapped (.exception .storeAddressMisaligned) (hart.effective base offset) := by
  have executed : execute hart.pc bits (.store op src base offset) (hart.advanced bits) =
      if hart.Permits op.size (hart.effective base offset) then
        if hart.memory.Holds (hart.effective base offset).toNat op.size.bytes then
          .ok ()
            { hart.advanced bits with
              memory := hart.memory.put op.size (hart.effective base offset).toNat
                ((hart.registers.read src).setWidth _) }
        else .error ⟨.storeAccessFault, hart.effective base offset⟩ (hart.advanced bits)
      else .error ⟨.storeAddressMisaligned, hart.effective base offset⟩ (hart.advanced bits) :=
    store_apply ..
  simp only [perform_eq, decoded, executed]
  by_cases permitted : hart.Permits op.size (hart.effective base offset)
  · by_cases held : hart.memory.Holds (hart.effective base offset).toNat op.size.bytes
    · simp only [if_pos permitted, if_pos held]
      rfl
    · simp only [if_pos permitted, if_neg held]
  · simp only [if_neg permitted]

end Perform

/-! ## Single instructions -/

/-- How the load of a unit at an address into a register ends. -/
structure Loads (hart : Hart x) (bits : InstructionBits) (op : LoadOp) (dest : Register)
    (address : Word x) : Prop where
  /-- That the address is misaligned counts first, be there memory or not. -/
  misaligned : ¬ hart.Permits op.size address →
    hart.perform bits = hart.trapped (.exception .loadAddressMisaligned) address
  outside : hart.Permits op.size address → hart.memory.size < address.toNat + op.size.bytes →
    hart.perform bits = hart.trapped (.exception .loadAccessFault) address
  /-- Only the register changes, and what changes with every instruction that completes. -/
  inside : hart.Permits op.size address → address.toNat + op.size.bytes ≤ hart.memory.size →
    ∃ value word, hart.memory.Spells address.toNat op.size.bytes value ∧ op.Extends value word ∧
      hart.perform bits =
        (.retired,
          { (hart.advanced bits).retire with registers := hart.registers.write dest word })

/-- How the store of the low part of a register in a unit at an address ends. -/
structure Stores (hart : Hart x) (bits : InstructionBits) (op : StoreOp) (src : Register)
    (address : Word x) : Prop where
  misaligned : ¬ hart.Permits op.size address →
    hart.perform bits = hart.trapped (.exception .storeAddressMisaligned) address
  outside : hart.Permits op.size address → hart.memory.size < address.toNat + op.size.bytes →
    hart.perform bits = hart.trapped (.exception .storeAccessFault) address
  /-- Only the unit changes, and what changes with every instruction that completes. -/
  inside : hart.Permits op.size address → address.toNat + op.size.bytes ≤ hart.memory.size →
    ∃ memory, memory.Spells address.toNat op.size.bytes ((hart.registers.read src).setWidth _) ∧
      (∀ index, ¬ (address.toNat ≤ index ∧ index < address.toNat + op.size.bytes) →
        memory.byte? index = hart.memory.byte? index) ∧
      hart.perform bits = (.retired, { (hart.advanced bits).retire with memory })

section Single

variable {hart : Hart x} {bits : InstructionBits} {base : Register} {offset : BitVec 12}

theorem loads_of_decode? {op : LoadOp} {dest : Register}
    (decoded : hart.decode? bits = some (.load op dest base offset)) :
    hart.Loads bits op dest (hart.effective base offset) := by
  have performed := perform_load decoded
  constructor
  case misaligned =>
    intro forbidden
    rw [performed, if_neg forbidden]
  case outside =>
    intro permitted beyond
    have beyond : ¬ hart.memory.Holds _ op.size.bytes := Nat.not_le_of_lt beyond
    rw [performed, if_pos permitted, Memory.load_of_not_holds beyond]
  case inside =>
    intro permitted held
    obtain ⟨value, loaded, spells⟩ := Memory.load_of_holds held
    have wellFormed := InstructionBits.wellFormed_of_meaning? (decode?_eq_some_iff.mp decoded).2.1
    refine ⟨value, _, spells, LoadOp.extends_extend wellFormed value, ?_⟩
    rw [performed, if_pos permitted, loaded]

theorem stores_of_decode? {op : StoreOp} {src : Register}
    (decoded : hart.decode? bits = some (.store op src base offset)) :
    hart.Stores bits op src (hart.effective base offset) := by
  have performed := perform_store decoded
  constructor
  case misaligned =>
    intro forbidden
    rw [performed, if_neg forbidden]
  case outside =>
    intro permitted beyond
    have beyond : ¬ hart.memory.Holds _ _ := Nat.not_le_of_lt beyond
    rw [performed, if_pos permitted, if_neg beyond]
  case inside =>
    intro permitted (held : hart.memory.Holds _ _)
    refine ⟨_, Memory.spells_put held, fun _ => Memory.byte?_put_outside held, ?_⟩
    rw [performed, if_pos permitted, if_pos held]

/-- A store that completes was permitted, and memory held its unit. -/
theorem eq_of_store_retired {op : StoreOp} {src : Register} {stored : Hart x}
    (decoded : hart.decode? bits = some (.store op src base offset))
    (completes : hart.perform bits = (.retired, stored)) :
    hart.Permits op.size (hart.effective base offset) ∧
      hart.memory.Holds (hart.effective base offset).toNat op.size.bytes ∧
      stored =
        { (hart.advanced bits).retire with
          memory := hart.memory.put op.size (hart.effective base offset).toNat
            ((hart.registers.read src).setWidth _) } := by
  rw [perform_store decoded] at completes
  split at completes
  · rename_i permitted
    split at completes
    · rename_i held
      cases completes
      exact ⟨permitted, held, rfl⟩
    · cases completes
  · cases completes

end Single

/-! ## Loads after a store -/

/-- How a load ends that follows on a store at an address. -/
structure LoadsAfter (hart stored : Hart x) (op : StoreOp) (src : Register) (address : Word x)
    (bits : InstructionBits) (op' : LoadOp) (dest : Register) (address' : Word x) : Prop where
  /-- In the unit that was stored it finds what was stored. -/
  same : op'.size = op.size → address' = address →
    ∃ word, op'.Extends ((hart.registers.read src).setWidth _) word ∧
      stored.perform bits =
        (.retired,
          { (stored.advanced bits).retire with registers := stored.registers.write dest word })
  /-- Away from it the load ends as if memory were still what it was. -/
  apart : address'.toNat + op'.size.bytes ≤ address.toNat ∨
      address.toNat + op.size.bytes ≤ address'.toNat →
    stored.perform bits =
      let (outcome, after) := { stored with memory := hart.memory }.perform bits
      (outcome, { after with memory := stored.memory })

section After

variable {hart stored : Hart x} {bits bits' : InstructionBits} {op : StoreOp} {op' : LoadOp}
  {src base dest base' : Register} {offset offset' : BitVec 12}

/-- A load depends on memory only through what it loads. -/
theorem perform_load_withMemory {left right : Memory}
    (decoded : hart.decode? bits = some (.load op' dest base offset))
    (same : right.load op'.size (hart.effective base offset).toNat =
      left.load op'.size (hart.effective base offset).toNat) :
    { hart with memory := right }.perform bits =
      let (outcome, after) := { hart with memory := left }.perform bits
      (outcome, { after with memory := right }) := by
  have onLeft : { hart with memory := left }.decode? bits = some (.load op' dest base offset) :=
    decoded
  have onRight : { hart with memory := right }.decode? bits = some (.load op' dest base offset) :=
    decoded
  have place (memory : Memory) :
      { hart with memory }.effective base offset = hart.effective base offset := rfl
  have permits (memory : Memory) :
      { hart with memory }.Permits op'.size (hart.effective base offset) ↔
        hart.Permits op'.size (hart.effective base offset) := Iff.rfl
  simp only [perform_load onLeft, perform_load onRight, place, permits, same]
  by_cases permitted : hart.Permits op'.size (hart.effective base offset)
  · simp only [if_pos permitted]
    cases left.load op'.size (hart.effective base offset).toNat <;> rfl
  · simp only [if_neg permitted]
    rfl

theorem loadsAfter_store (decoded : hart.decode? bits = some (.store op src base offset))
    (completes : hart.perform bits = (.retired, stored))
    (decoded' : stored.decode? bits' = some (.load op' dest base' offset')) :
    LoadsAfter hart stored op src (hart.effective base offset) bits' op' dest
      (stored.effective base' offset') := by
  obtain ⟨permitted, held, changed⟩ := eq_of_store_retired decoded completes
  have config : stored.config = hart.config := by rw [changed]; rfl
  have memory : stored.memory = hart.memory.put op.size (hart.effective base offset).toNat
      ((hart.registers.read src).setWidth _) := by rw [changed]
  constructor
  case same =>
    intro sameSize sameAddress
    have permitted' : stored.Permits op'.size (stored.effective base' offset') := by
      rw [Permits, config, sameSize, sameAddress]
      exact permitted
    have found (size : AccessSize) (same : size = op.size) :
        stored.memory.load size (stored.effective base' offset').toNat =
          .ok ((hart.registers.read src).setWidth _) := by
      subst same
      rw [sameAddress, memory, Memory.load_eq_ok_iff]
      exact Memory.spells_put held
    have wellFormed := InstructionBits.wellFormed_of_meaning? (decode?_eq_some_iff.mp decoded').2.1
    refine ⟨_, LoadOp.extends_extend wellFormed _, ?_⟩
    rw [perform_load decoded', if_pos permitted', found _ sameSize]
  case apart =>
    intro disjoint
    refine perform_load_withMemory decoded' (Memory.load_congr fun index low high => ?_)
    rw [memory]
    exact Memory.byte?_put_outside held (by omega)

end After

end Hart

/-! ## Runs -/

/-- The event is a store that completes and writes the byte at the address. -/
def Event.StoresTo {x : Xlen} (event : Event x) (address : Nat) : Prop :=
  ∃ bits op src base offset, event.before.decode? bits = some (.store op src base offset) ∧
    event.before.perform bits = (event.outcome, event.after) ∧ event.outcome = .retired ∧
    (event.before.effective base offset).toNat ≤ address ∧
    address < (event.before.effective base offset).toNat + op.size.bytes

namespace Hart

open Execution

variable {x : Xlen}

/-- Of the instructions only stores change memory. -/
theorem execute_memory {hart after : Hart x} {pc : Word x} {bits : InstructionBits}
    {instruction : Instruction} (completes : execute pc bits instruction hart = .ok () after) :
    (∃ op src base offset, instruction = .store op src base offset) ∨
      after.memory = hart.memory := by
  cases instruction with
  | immediate | shift | immediateWord | shiftWord | auipc | lui | register | registerWord
  | fence | fenceI =>
      cases completes
      exact .inr rfl
  | store op src base offset => exact .inl ⟨op, src, base, offset, rfl⟩
  | jal | jalr =>
      simp only [execute, bind_apply, readRegister_apply, jump_apply] at completes
      split at completes
      · cases completes
        exact .inr rfl
      · cases completes
  | branch =>
      simp only [execute, bind_apply, readRegister_apply, branch_apply] at completes
      split at completes
      · cases completes
        exact .inr rfl
      · split at completes
        · cases completes
          exact .inr rfl
        · cases completes
  | load =>
      rw [execute_load] at completes
      split at completes
      · split at completes
        · cases completes
          exact .inr rfl
        · cases completes
      · cases completes
  | csr op dest operand number =>
      rcases execute_csr pc bits hart op dest operand number with
        ⟨_, fails⟩ | ⟨csrs, old, -, changed⟩
      · cases fails.symm.trans completes
      · cases changed.symm.trans completes
        exact .inr rfl
  | ecall => cases (call_apply hart).symm.trans completes
  | ebreak => cases completes
  | mret =>
      rw [execute_mret] at completes
      split at completes
      · cases completes
      · cases completes
        exact .inr rfl
  | sret =>
      rw [execute_sret] at completes
      split at completes
      · cases completes
      · cases completes
        exact .inr rfl
  | wfi =>
      simp only [execute, requireMode_apply] at completes
      split at completes
      · cases completes
      · cases completes
        exact .inr rfl

/-- A call performs the bits that it comes to. -/
theorem answer_eq_perform {hart : Hart x} {call : Call} {bits : InstructionBits}
    (origin : call = .perform bits ∨
      call = .step ∧ hart.interrupt? = none ∧ hart.fetch hart.pc = .ok bits) :
    hart.answer call = hart.perform bits := by
  rcases origin with rfl | ⟨rfl, quiet, fetched⟩
  · rfl
  · rw [answer, step_eq, quiet, fetched]

theorem storesTo_of_answer {event : Event x} {call : Call} {address : Nat}
    (answered : event.before.answer call = (event.outcome, event.after))
    (changed : event.after.memory.byte? address ≠ event.before.memory.byte? address) :
    event.StoresTo address := by
  rcases answer_cases event.before call with
    ⟨cause, value, trap⟩ | ⟨bits, instruction, after, origin, decoded, completes, retires⟩
  · have kept : event.after = (event.before.trapped cause value).2 :=
      congrArg Prod.snd (answered.symm.trans trap)
    rw [kept] at changed
    exact absurd rfl changed
  · have performed := (answer_eq_perform origin).symm
    have ends := Prod.mk.inj (answered.symm.trans retires)
    rcases execute_memory completes with ⟨op, src, base, offset, rfl⟩ | kept
    · obtain ⟨-, held, stored⟩ := eq_of_store_retired decoded (performed.trans retires)
      refine ⟨bits, op, src, base, offset, decoded, performed.trans answered, ends.1, ?_⟩
      refine Decidable.byContradiction fun outside => changed ?_
      rw [ends.2, stored]
      exact Memory.byte?_put_outside held outside
    · rw [ends.2] at changed
      exact absurd (congrArg (·.byte? address) kept) changed

theorem storesTo_of_follow {hart : Hart x} {calls : List Call} {address : Nat}
    (changed : (follow calls hart).memory.byte? address ≠ hart.memory.byte? address) :
    ∃ event ∈ history calls hart, event.StoresTo address := by
  induction calls generalizing hart with
  | nil => exact absurd rfl changed
  | cons call calls ih =>
      -- The byte changes in the first call, or it changes later.
      by_cases kept : (hart.answer call).2.memory.byte? address = hart.memory.byte? address
      · have later : (follow calls (hart.answer call).2).memory.byte? address ≠
            (hart.answer call).2.memory.byte? address := fun same => changed (same.trans kept)
        obtain ⟨event, member, stores⟩ := ih later
        exact ⟨event, List.mem_cons_of_mem _ member, stores⟩
      · exact ⟨_, List.mem_cons_self, storesTo_of_answer rfl kept⟩

/-- Loads and stores of every hart end as told by their address.  A load after a store finds what
was stored, or is not concerned by it.  In a run the bytes of memory change only by stores to them
that complete. -/
theorem loads_and_stores (x : Xlen) :
    (∀ (hart : Hart x) bits op dest base offset,
      hart.decode? bits = some (.load op dest base offset) →
        hart.Loads bits op dest (hart.effective base offset)) ∧
    (∀ (hart : Hart x) bits op src base offset,
      hart.decode? bits = some (.store op src base offset) →
        hart.Stores bits op src (hart.effective base offset) ∧
        ∀ stored, hart.perform bits = (.retired, stored) →
          ∀ bits' op' dest base' offset',
            stored.decode? bits' = some (.load op' dest base' offset') →
              LoadsAfter hart stored op src (hart.effective base offset) bits' op' dest
                (stored.effective base' offset')) ∧
    ∀ (hart : Hart x) calls,
      (∀ event ∈ history calls hart, ∀ address,
        event.after.memory.byte? address ≠ event.before.memory.byte? address →
          event.StoresTo address) ∧
      ∀ address, (follow calls hart).memory.byte? address ≠ hart.memory.byte? address →
        ∃ event ∈ history calls hart, event.StoresTo address := by
  refine ⟨fun _ _ _ _ _ _ decoded => loads_of_decode? decoded, fun _ _ _ _ _ _ decoded => ?_,
    fun hart calls => ⟨fun event member address changed => ?_, fun _ => storesTo_of_follow⟩⟩
  · refine ⟨stores_of_decode? decoded, fun stored completes => ?_⟩
    exact fun _ _ _ _ _ decoded' => loadsAfter_store decoded completes decoded'
  · obtain ⟨call, answered⟩ := answer_of_mem_history member
    exact storesTo_of_answer answered changed

/-- A halfword with its top bit set is stored in the last bytes of memory and loaded with its sign.
A word at the same address is misaligned, which counts before that there is no memory for it. -/
theorem loads_and_stores_halfword :
    let hart : Hart .rv64 := (initial { memorySize := 4 }).setRegister 1 0x12348A5B
    let stored := (hart.perform (.long 0x00101123)).2
    hart.perform (.long 0x00102123) = hart.trapped (.exception .storeAddressMisaligned) 2 ∧
      (∃ word : Word .rv64, word.toInt = -30117 ∧
        stored.perform (.long 0x00201103) =
          (.retired,
            { (stored.advanced (.long 0x00201103)).retire with
              registers := stored.registers.write 2 word })) ∧
      ∃ event ∈ history [.perform (.long 0x00101123)] hart, event.StoresTo 3 := by
  intro hart stored
  obtain ⟨-, stores, runs⟩ := loads_and_stores .rv64
  have word : hart.decode? (.long 0x00102123) = some (.store .sw 1 0 2) := by decide
  have half : hart.decode? (.long 0x00101123) = some (.store .sh 1 0 2) := by decide
  have completes : hart.perform (.long 0x00101123) = (.retired, stored) := by decide
  have load : stored.decode? (.long 0x00201103) = some (.load .lh 2 0 2) := by decide
  refine ⟨(stores hart _ _ _ _ _ word).1.misaligned (by decide), ?_, ?_⟩
  · obtain ⟨word, signed, loaded⟩ :=
      ((stores hart _ _ _ _ _ half).2 stored completes _ _ _ _ _ load).same rfl (by decide)
    have signed : word.toInt = ((hart.registers.read 1).setWidth 16).toInt := signed
    exact ⟨word, signed.trans (by decide), loaded⟩
  · exact (runs hart _).2 3 (by decide)

end Hart

end RiscV
