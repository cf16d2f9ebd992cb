import RiscV.Proofs.CsrLegality
import RiscV.Proofs.TrapEntry

/-!
# Alignment of the program counter

Wherever the program counter comes from, it is the address of an instruction: the next one, the
target of a jump or branch, which is checked, the handler of a trap, the return address of one, or
the reset vector.  Only the target of a jump or branch can be misaligned, and even that one is even.
-/

namespace RiscV

namespace AccessSize

variable {x : Xlen} {size : AccessSize}

/-- How many low bits of an aligned address are zero. -/
def places : AccessSize → Nat
  | byte => 0
  | halfword => 1
  | word => 2
  | doubleword => 3

theorem aligned_iff_setWidth {word : Word x} :
    size.Aligned word.toNat ↔ word.setWidth size.places = 0 := by
  have power : size.bytes = 2 ^ size.places := by
    cases size <;> rfl
  rw [Aligned, power, Nat.dvd_iff_mod_eq_zero, ← BitVec.toNat_setWidth]
  exact BitVec.toNat_inj (y := 0#_)

theorem places_le (x : Xlen) (size : AccessSize) : size.places ≤ x.bits := by
  cases x <;> cases size <;> decide

theorem aligned_add {left right : Word x} (alignedLeft : size.Aligned left.toNat)
    (alignedRight : size.Aligned right.toNat) : size.Aligned (left + right).toNat := by
  rw [aligned_iff_setWidth] at *
  rw [BitVec.setWidth_add _ _ (places_le x size), alignedLeft, alignedRight]
  exact BitVec.add_zero _

theorem aligned_and {left mask : Word x} (alignedMask : size.Aligned mask.toNat) :
    size.Aligned (left &&& mask).toNat := by
  rw [aligned_iff_setWidth] at *
  rw [BitVec.setWidth_and, alignedMask]
  exact BitVec.and_zero

end AccessSize

theorem Instruction.even_bytes {x : Xlen} {width : Nat} (offset : BitVec width) :
    AccessSize.halfword.Aligned ((bytes offset).signExtend x.bits).toNat := by
  have last : (bytes offset).getLsbD 0 = false := by
    rw [bytes, BitVec.getLsbD_append, if_pos Nat.one_pos, BitVec.getLsbD_zero]
  rw [AccessSize.aligned_iff_setWidth]
  apply BitVec.eq_of_getLsbD_eq
  intro index low
  obtain rfl : index = 0 := Nat.lt_one_iff.mp low
  rw [BitVec.getLsbD_setWidth, BitVec.getLsbD_signExtend, last, if_pos (Nat.succ_pos width),
    Bool.and_false, Bool.and_false]
  exact BitVec.getLsbD_zero.symm

namespace Config

variable {config : Config} {address : Nat}

theorem alignment_aligned_iff :
    config.alignment.Aligned address ↔ (if config.compressed then 2 else 4) ∣ address := by
  unfold alignment
  cases config.compressed <;> rfl

theorem aligned_of_word (aligned : AccessSize.word.Aligned address) :
    config.alignment.Aligned address := by
  unfold alignment
  split
  · exact Nat.dvd_trans (by decide) aligned
  · exact aligned

theorem even_of_aligned (aligned : config.alignment.Aligned address) :
    AccessSize.halfword.Aligned address := by
  unfold alignment at aligned
  split at aligned
  · exact aligned
  · exact Nat.dvd_trans (by decide) aligned

/-- An even address is misaligned only if there are no compressed instructions. -/
theorem of_misaligned (even : AccessSize.halfword.Aligned address)
    (misaligned : ¬ config.alignment.Aligned address) :
    config.compressed = false ∧ address % 4 = 2 := by
  unfold alignment at misaligned
  split at misaligned
  · exact absurd even misaligned
  · rename_i short
    have even : 2 ∣ address := even
    have misaligned : ¬ 4 ∣ address := misaligned
    exact ⟨Bool.not_eq_true _ ▸ short, by omega⟩

theorem aligned_of_legal {x : Xlen} {traps : TrapRegisters x}
    (legal : traps.Legal config.compressed) : config.alignment.Aligned traps.epc.toNat := by
  have forced := congrArg (·.setWidth config.alignment.places) legal.epc
  have ones : (if config.compressed then 1 else 3 : Word x).setWidth config.alignment.places =
      BitVec.allOnes config.alignment.places := by
    unfold alignment
    cases config.compressed <;> cases x <;> rfl
  rw [BitVec.setWidth_and, ones, BitVec.and_allOnes] at forced
  exact AccessSize.aligned_iff_setWidth.mpr (forced.trans (BitVec.setWidth_zero ..))

end Config

namespace Hart

variable {x : Xlen}

/-- There can be an instruction at the address. -/
def Admits (hart : Hart x) (address : Word x) : Prop :=
  (if hart.config.compressed then 2 else 4) ∣ address.toNat

instance (hart : Hart x) (address : Word x) : Decidable (hart.Admits address) :=
  inferInstanceAs (Decidable (_ ∣ _))

theorem admits_iff {hart : Hart x} {address : Word x} :
    hart.Admits address ↔ hart.config.alignment.Aligned address.toNat :=
  Config.alignment_aligned_iff.symm

end Hart

/-- A handler is at a multiple of four bytes. -/
theorem TrapVector.aligned_handler {x : Xlen} (config : Config) (vector : TrapVector x.bits)
    (isInterrupt : Bool) (code : Nat) :
    config.alignment.Aligned (vector.handler isInterrupt code).toNat := by
  have cleared : AccessSize.word.Aligned (~~~3 : Word x).toNat := by
    cases x <;> decide
  have base : AccessSize.word.Aligned vector.base.toNat := AccessSize.aligned_and cleared
  have entry : AccessSize.word.Aligned (BitVec.ofNat x.bits (4 * code)).toNat := by
    have power : 4 ∣ 2 ^ x.bits := by
      cases x <;> decide
    rw [BitVec.toNat_ofNat]
    exact (Nat.dvd_mod_iff power).mpr (Nat.dvd_mul_right 4 code)
  unfold handler
  split
  · exact Config.aligned_of_word (AccessSize.aligned_add base entry)
  · exact Config.aligned_of_word base

namespace Hart

open Execution

variable {x : Xlen}

/-- Where an instruction leaves the program counter, and what a misaligned target looks like. -/
def Lands (hart : Hart x) : EStateM.Result (Fault x) (Hart x) Unit → Prop
  | .ok _ after =>
      after.config = hart.config ∧
        (after.pc = hart.pc ∨ after.pc = hart.csrs.machine.epc ∨
          after.pc = hart.csrs.supervisor.epc ∨ hart.config.alignment.Aligned after.pc.toNat)
  | .error fault _ =>
      fault.exception = .instructionAddressMisaligned →
        AccessSize.halfword.Aligned fault.value.toNat ∧
          ¬ hart.config.alignment.Aligned fault.value.toNat

/-! ## One instruction -/

theorem lands_jump (hart : Hart x) (dest : Register) {target : Word x}
    (even : AccessSize.halfword.Aligned target.toNat) : hart.Lands (jump dest target hart) := by
  rw [jump_apply]
  split
  · rename_i aligned
    exact ⟨rfl, .inr (.inr (.inr aligned))⟩
  · rename_i misaligned
    exact fun _ => ⟨even, misaligned⟩

theorem lands_branch (hart : Hart x) (taken : Bool) {target : Word x}
    (even : AccessSize.halfword.Aligned target.toNat) : hart.Lands (branch taken target hart) := by
  rw [branch_apply]
  split
  · exact ⟨rfl, .inl rfl⟩
  · split
    · rename_i aligned
      exact ⟨rfl, .inr (.inr (.inr aligned))⟩
    · rename_i misaligned
      exact fun _ => ⟨even, misaligned⟩

theorem lands_error (hart : Hart x) {fault : Fault x} {after : Hart x}
    (other : fault.exception ≠ .instructionAddressMisaligned) :
    hart.Lands (.error fault after) :=
  fun misaligned => absurd misaligned other

theorem lands_execute (hart : Hart x) {pc : Word x} (even : AccessSize.halfword.Aligned pc.toNat)
    (bits : InstructionBits) (instruction : Instruction) :
    hart.Lands (execute pc bits instruction hart) := by
  cases instruction with
  | immediate | shift | immediateWord | shiftWord | auipc | lui | register | registerWord
  | fence | fenceI => exact ⟨rfl, .inl rfl⟩
  | jal dest offset =>
      exact hart.lands_jump dest (AccessSize.aligned_add even (Instruction.even_bytes offset))
  | jalr dest base offset =>
      have cleared : AccessSize.halfword.Aligned (~~~1 : Word x).toNat := by
        cases x <;> decide
      exact hart.lands_jump dest (AccessSize.aligned_and cleared)
  | branch condition left right offset =>
      exact hart.lands_branch _ (AccessSize.aligned_add even (Instruction.even_bytes offset))
  | load =>
      rw [execute_load]
      split
      · split
        · exact ⟨rfl, .inl rfl⟩
        · exact hart.lands_error (by simp)
      · exact hart.lands_error (by simp)
  | store =>
      simp only [execute, bind_apply, readRegister_apply, store_apply]
      split
      · split
        · exact ⟨rfl, .inl rfl⟩
        · exact hart.lands_error (by simp)
      · exact hart.lands_error (by simp)
  | csr op dest operand number =>
      simp only [execute, changeCsr_apply]
      split
      · exact hart.lands_error (by simp)
      · split
        · exact hart.lands_error (by simp)
        · exact ⟨rfl, .inl rfl⟩
  | ecall =>
      rw [execute, call_apply]
      cases hart.mode <;> exact hart.lands_error (by simp)
  | ebreak => exact hart.lands_error (by simp)
  | mret =>
      rw [execute_mret]
      split
      · exact hart.lands_error (by simp)
      · exact ⟨rfl, .inr (.inl rfl)⟩
  | sret =>
      rw [execute_sret]
      split
      · exact hart.lands_error (by simp)
      · exact ⟨rfl, .inr (.inr (.inl rfl))⟩
  | wfi =>
      simp only [execute, requireMode_apply]
      split
      · exact hart.lands_error (by simp)
      · exact ⟨rfl, .inl rfl⟩

theorem fetchParcel_ne_misaligned {hart : Hart x} {address : Word x} {fault : Fault x}
    (fails : hart.fetchParcel address = .error fault) :
    fault.exception ≠ .instructionAddressMisaligned := by
  unfold fetchParcel at fails
  cases loaded : hart.memory.load .halfword address.toNat with
  | ok parcel =>
      rw [loaded] at fails
      cases fails
  | error =>
      rw [loaded] at fails
      cases fails
      exact nofun

/-! ## Calls and requests -/

/-- The program counter and the return addresses are addresses of instructions. -/
structure Placed (config : Config) (hart : Hart x) : Prop where
  configured : hart.config = config
  compressed : hart.csrs.compressed = config.compressed
  legal : hart.csrs.Legal
  reset : config.alignment.Aligned (Word.ofDouble config.resetVector : Word x).toNat
  pc : config.alignment.Aligned hart.pc.toNat

namespace Placed

variable {config : Config} {hart : Hart x}

theorem epc (placed : hart.Placed config) (mode : TrapMode) :
    config.alignment.Aligned (hart.csrs.traps mode).epc.toNat := by
  have legal : (hart.csrs.traps mode).Legal hart.csrs.compressed := by
    cases mode with
    | machine => exact placed.legal.machine
    | supervisor => exact placed.legal.supervisor
  rw [placed.compressed] at legal
  exact Config.aligned_of_legal legal

theorem even (placed : hart.Placed config) : AccessSize.halfword.Aligned hart.pc.toNat :=
  Config.even_of_aligned placed.pc

/-- Control registers that have changed by operations are no obstacle. -/
theorem of_operateAll (placed : hart.Placed config) {after : Hart x}
    {operations : List (CsrOperation x)} (same : after.config = hart.config)
    (csrs : after.csrs = CsrFile.operateAll operations hart.csrs)
    (pc : config.alignment.Aligned after.pc.toNat) : after.Placed config where
  configured := same.trans placed.configured
  compressed := by rw [csrs, CsrFile.compressed_operateAll, placed.compressed]
  legal := by
    rw [csrs]
    exact placed.legal.operateAll operations
  reset := placed.reset
  pc := pc

theorem advanced (placed : hart.Placed config) {bits : InstructionBits}
    {instruction : Instruction} (decoded : hart.decode? bits = some instruction) :
    config.alignment.Aligned (hart.advanced bits).pc.toNat := by
  have supported := (decode?_eq_some_iff.mp decoded).1
  have size : config.alignment.Aligned (BitVec.ofNat x.bits bits.size).toNat := by
    cases bits with
    | long word =>
        have four : AccessSize.word.Aligned (BitVec.ofNat x.bits 4).toNat := by
          cases x <;> decide
        exact Config.aligned_of_word four
    | short code =>
        have compressed : config.compressed = true := placed.configured ▸ supported rfl
        have two : AccessSize.halfword.Aligned (BitVec.ofNat x.bits 2).toNat := by
          cases x <;> decide
        rw [Config.alignment, if_pos compressed]
        exact two
  exact AccessSize.aligned_add placed.pc size

theorem answer (placed : hart.Placed config) (call : Call) :
    (hart.answer call).2.Placed config := by
  have csrs := answer_csrs hart call
  rcases answer_cases hart call with
    ⟨cause, value, trap⟩ | ⟨bits, instruction, after, -, decoded, completes, answered⟩
  · rw [trap] at csrs ⊢
    exact placed.of_operateAll rfl csrs (TrapVector.aligned_handler ..)
  · have ahead := placed.advanced decoded
    have lands := (hart.advanced bits).lands_execute placed.even bits instruction
    rw [completes] at lands
    obtain ⟨same, next⟩ := lands
    rw [answered] at csrs ⊢
    refine placed.of_operateAll same csrs ?_
    rcases next with next | next | next | next
    · exact next ▸ ahead
    · exact next ▸ placed.epc .machine
    · exact next ▸ placed.epc .supervisor
    · exact placed.configured ▸ next

theorem follow (placed : hart.Placed config) (calls : List Call) :
    (follow calls hart).Placed config := by
  induction calls generalizing hart with
  | nil => exact placed
  | cons call calls ih => exact ih (placed.answer call)

theorem of_mem_history (placed : hart.Placed config) {calls : List Call} {event : Event x}
    (member : event ∈ history calls hart) : event.before.Placed config := by
  induction calls generalizing hart with
  | nil => cases member
  | cons call calls ih =>
      rcases List.mem_cons.mp member with rfl | later
      · exact placed
      · exact ih (placed.answer call) later

theorem resets (placed : hart.Placed config) : hart.reset.Placed config := by
  have csrs : hart.reset.csrs = CsrFile.operateAll [.reset] hart.csrs := rfl
  refine placed.of_operateAll rfl csrs ?_
  have vector := placed.reset
  rw [← placed.configured] at vector ⊢
  exact vector

theorem cleared (placed : hart.Placed config) : (SelfTest.cleared hart).Placed config :=
  { placed.resets with }

theorem prepared (placed : hart.Placed config) : (SelfTest.prepared hart).Placed config :=
  { placed.resets with
    pc := by
      change config.alignment.Aligned (0 : Word x).toNat
      exact Config.aligned_of_word (Nat.dvd_zero 4) }

theorem serve (placed : hart.Placed config) {request : Request x}
    (other : ∀ pc, request ≠ .setPc pc) : (hart.serve request).Placed config := by
  have csrs := serve_csrs hart request
  cases request with
  | call call => exact placed.answer call
  | enterTrap => exact placed.of_operateAll rfl csrs (TrapVector.aligned_handler ..)
  | reset => exact placed.resets
  | selfTest =>
      rw [Hart.serve, selfTest_snd]
      split
      · exact (placed.prepared.follow _).cleared
      · exact placed
  | setPc pc => exact absurd rfl (other pc)
  | setRegisters | setMemory | setPending | onCsrs => exact placed.of_operateAll rfl csrs placed.pc

theorem served (placed : hart.Placed config) {requests : List (Request x)}
    (other : ∀ pc, .setPc pc ∉ requests) : (served requests hart).Placed config := by
  induction requests generalizing hart with
  | nil => exact placed
  | cons request requests ih =>
      have first : ∀ pc, request ≠ .setPc pc := fun pc same => other pc (same ▸ List.mem_cons_self)
      have rest : ∀ pc, .setPc pc ∉ requests := fun pc member =>
        other pc (List.mem_cons_of_mem request member)
      exact ih (placed.serve first) rest

theorem of_mem_events (placed : hart.Placed config) {request : Request x} {event : Event x}
    (member : event ∈ events hart request) :
    event.before.Placed config ∧
      ∃ call, event.before.answer call = (event.outcome, event.after) := by
  cases request with
  | call call => exact ⟨placed.of_mem_history member, answer_of_mem_history member⟩
  | selfTest =>
      rw [events] at member
      split at member
      · exact ⟨placed.prepared.of_mem_history member, answer_of_mem_history member⟩
      · cases member
  | _ => cases member

/-- Fetching does not find the program counter misaligned. -/
theorem fetch_ne_misaligned (placed : hart.Placed config) {fault : Fault x}
    (fails : hart.fetch hart.pc = .error fault) :
    fault.exception ≠ .instructionAddressMisaligned := by
  have aligned := placed.pc
  rw [← placed.configured] at aligned
  rw [Hart.fetch, if_neg (not_not_intro aligned)] at fails
  cases low : hart.fetchParcel hart.pc with
  | error early =>
      rw [low] at fails
      cases fails
      exact fetchParcel_ne_misaligned low
  | ok parcel =>
      rw [low] at fails
      change (if _ then _ else _) = _ at fails
      split at fails
      · cases fails
      · cases high : hart.fetchParcel (hart.pc + 2) with
        | error late =>
            rw [high] at fails
            cases fails
            exact fetchParcel_ne_misaligned high
        | ok parcel' =>
            rw [high] at fails
            cases fails

/-- A misaligned target is even, and so it is in the middle of a word. -/
theorem perform_misaligned (placed : hart.Placed config) {bits : InstructionBits}
    {epc value : Word x} {after : Hart x}
    (ends : hart.perform bits =
      (.trap (.exception .instructionAddressMisaligned) epc value, after)) :
    config.compressed = false ∧ value.toNat % 4 = 2 := by
  rw [perform_eq] at ends
  cases decoded : hart.decode? bits with
  | none =>
      rw [decoded] at ends
      cases ends
  | some instruction =>
      have lands := (hart.advanced bits).lands_execute placed.even bits instruction
      rw [decoded] at ends
      cases executed : execute hart.pc bits instruction (hart.advanced bits) with
      | ok result next =>
          simp only [executed] at ends
          cases ends
      | error fault next =>
          simp only [executed] at ends
          rw [executed] at lands
          obtain ⟨exception, target⟩ := fault
          cases ends
          obtain ⟨even, misaligned⟩ := lands rfl
          have fixed : (hart.advanced bits).config = config := placed.configured
          rw [fixed] at misaligned
          exact Config.of_misaligned even misaligned

theorem answer_misaligned (placed : hart.Placed config) {call : Call} {epc value : Word x}
    {after : Hart x}
    (ends : hart.answer call =
      (.trap (.exception .instructionAddressMisaligned) epc value, after)) :
    config.compressed = false ∧ 4 ∣ epc.toNat ∧ value.toNat % 4 = 2 := by
  obtain ⟨rfl, -⟩ := eq_trapped ends
  have target : config.compressed = false ∧ value.toNat % 4 = 2 := by
    cases call with
    | perform bits => exact placed.perform_misaligned ends
    | step =>
        rw [Hart.answer, step_eq] at ends
        cases taken : hart.interrupt? with
        | some interrupt =>
            rw [taken] at ends
            cases ends
        | none =>
            rw [taken] at ends
            cases fetched : hart.fetch hart.pc with
            | ok bits =>
                simp only [fetched] at ends
                exact placed.perform_misaligned ends
            | error fault =>
                simp only [fetched] at ends
                obtain ⟨exception, address⟩ := fault
                cases ends
                exact absurd rfl (placed.fetch_ne_misaligned fetched)
  have aligned := placed.pc
  rw [Config.alignment, target.1] at aligned
  exact ⟨target.1, aligned, target.2⟩

end Placed

theorem placed_of_create {config : Config} {hart : Hart x} (created : create config = .ok hart) :
    hart.Placed config := by
  unfold create at created
  cases checked : config.check x with
  | error error =>
      rw [checked] at created
      cases created
  | ok _ =>
      rw [checked] at created
      cases created
      unfold Config.check at checked
      split at checked
      · cases checked
      · split at checked
        · cases checked
        · rename_i fits
          split at checked
          · cases checked
          · rename_i aligned
            have narrow : (Word.ofDouble config.resetVector : Word x).toNat =
                config.resetVector.toNat := by
              have same := congrArg BitVec.toNat (Decidable.not_not.mp fits)
              rwa [Word.toDouble, BitVec.toNat_setWidth_of_le x.bits_le] at same
            have vector : config.alignment.Aligned
                (Word.ofDouble config.resetVector : Word x).toNat :=
              narrow ▸ Decidable.not_not.mp aligned
            exact
              { configured := rfl
                compressed := rfl
                legal := CsrFile.legal_initial config.compressed
                reset := vector
                pc := vector }

/-- Whatever is done to a new hart but setting its program counter, the program counter and the
return addresses stay aligned, so that fetching never finds it misaligned.  A call traps on a
misaligned target only if there are no compressed instructions, and then out of an aligned address
and into the middle of a word. -/
theorem served_aligned {config : Config} {hart : Hart x} (created : create config = .ok hart)
    {requests : List (Request x)} (other : ∀ pc, .setPc pc ∉ requests) :
    let unit := if config.compressed then 2 else 4
    let last := served requests hart
    unit ∣ last.pc.toNat ∧ unit ∣ last.csrs.machine.epc.toNat ∧
      unit ∣ last.csrs.supervisor.epc.toNat ∧
      (∀ fault, last.fetch last.pc = .error fault →
        fault.exception ≠ .instructionAddressMisaligned) ∧
      ∀ event ∈ collect events requests hart,
        unit ∣ event.before.pc.toNat ∧
          ∀ epc value, event.outcome = .trap (.exception .instructionAddressMisaligned) epc value →
            config.compressed = false ∧ 4 ∣ epc.toNat ∧ value.toNat % 4 = 2 := by
  intro unit last
  have start := placed_of_create created
  have placed : last.Placed config := start.served other
  refine ⟨Config.alignment_aligned_iff.mp placed.pc,
    Config.alignment_aligned_iff.mp (placed.epc .machine),
    Config.alignment_aligned_iff.mp (placed.epc .supervisor),
    fun _ => placed.fetch_ne_misaligned, ?_⟩
  intro event member
  obtain ⟨earlier, request, later, split, occurs⟩ := mem_collect member
  have before : (served earlier hart).Placed config :=
    start.served fun pc found => other pc (split ▸ List.mem_append_left _ found)
  obtain ⟨placed, call, answered⟩ := before.of_mem_events occurs
  refine ⟨Config.alignment_aligned_iff.mp placed.pc, fun epc value traps => ?_⟩
  rw [traps] at answered
  exact placed.answer_misaligned answered

/-- A jump by two bytes traps on a hart without compressed instructions. -/
theorem served_aligned_jump :
    let config : Config := { memorySize := 0, compressed := false }
    let requests : List (Request .rv32) :=
      [.onCsrs (.write 0x341 0xFFFFFFFF .machine), .call (.perform (.long 0x002000EF))]
    let events := collect events requests (initial config)
    create config = .ok (initial config : Hart .rv32) ∧
      (∀ pc, .setPc pc ∉ requests) ∧
      events.map (·.outcome) = [.trap (.exception .instructionAddressMisaligned) 0 2] ∧
      ∀ event ∈ events, 4 ∣ event.before.pc.toNat := by
  intro config requests events
  have created : create config = .ok (initial config : Hart .rv32) := rfl
  have other : ∀ pc, .setPc pc ∉ requests := by
    intro pc member
    simp only [requests, List.mem_cons, List.not_mem_nil, reduceCtorEq, or_self] at member
  have aligned := (served_aligned created other).2.2.2.2
  exact ⟨created, other, by decide, fun event member => (aligned event member).1⟩

end Hart

end RiscV
