import Mathlib.Algebra.Ring.Nat
import RiscV.Proofs.Checked.Csr
import RiscV.Proofs.Request

/-!
# What control registers can hold

Every operation keeps the fields of the control registers within the values that they can hold, and
the words in which these are stored, too.  In consequence, writing back to a register what it holds
changes nothing.
-/

namespace RiscV

namespace InterruptSet

variable {set mask value within : InterruptSet}

theorem merge_within (kept : set &&& ~~~within = 0) (inside : mask &&& ~~~within = 0) :
    merge set mask value &&& ~~~within = 0 :=
  (masked_and_not inside set value).trans kept

theorem put_within (interrupt : Interrupt) (isIn : Bool) (kept : set &&& ~~~0xBBB = 0) :
    put set interrupt isIn &&& ~~~0xBBB = 0 :=
  have place : BitVec.getLsbD (0xBBB : InterruptSet) interrupt.code = true := by
    cases interrupt <;> decide
  (Checked.withBit_and_not isIn place).trans kept

theorem merge_eq_self (same : value &&& mask = set &&& mask) : merge set mask value = set := by
  rw [merge, same]
  exact and_not_or_and set mask

end InterruptSet

namespace TrapVector

theorem write_bits {width : Nat} {vector : TrapVector width}
    (direct : vector.bits.toNat % 4 < 2) : vector.write vector.bits = vector := by
  rw [write, (getLsbD_one_iff vector.bits).mpr direct]
  rfl

end TrapVector

namespace TrapRegisters

variable {x : Xlen} {traps : TrapRegisters x} {compressed : Bool}

/-- What trap registers can hold. -/
structure Legal (compressed : Bool) (traps : TrapRegisters x) : Prop where
  /-- The mode of the vector is not reserved. -/
  vector : traps.vector.bits.toNat % 4 < 2
  /-- The address of an instruction is aligned. -/
  epc : traps.epc &&& (if compressed then 1 else 3) = 0

theorem legal_zero (compressed : Bool) : (zero : TrapRegisters x).Legal compressed where
  vector := by
    change (0 : Word x).toNat % 4 < 2
    simp
  epc := BitVec.zero_and

theorem Legal.writeVector (legal : traps.Legal compressed) (value : Word x) :
    { traps with vector := traps.vector.write value }.Legal compressed where
  vector := by
    unfold TrapVector.write
    split
    · exact legal.vector
    · rename_i direct
      exact (TrapVector.getLsbD_one_iff value).mp (Bool.not_eq_true _ ▸ direct)
  epc := legal.epc

end TrapRegisters

namespace CsrFile

variable {x : Xlen} {file : CsrFile x}

/-- What the control registers can hold. -/
structure Legal (file : CsrFile x) : Prop where
  machine : file.machine.Legal file.compressed
  supervisor : file.supervisor.Legal file.compressed
  enabled : file.interrupts.enabled &&& ~~~0xBBB = 0
  pending : file.interrupts.pending &&& ~~~0xBBB = 0
  mideleg : file.mideleg &&& ~~~0x222 = 0
  medeleg : file.medeleg &&& ~~~0xB3FF = 0

theorem epcMask_eq (file : CsrFile x) : file.epcMask = ~~~(if file.compressed then 1 else 3) := by
  unfold epcMask
  split <;> rfl

theorem legal_initial (compressed : Bool) : (initial compressed : CsrFile x).Legal where
  machine := TrapRegisters.legal_zero compressed
  supervisor := TrapRegisters.legal_zero compressed
  enabled := BitVec.zero_and
  pending := BitVec.zero_and
  mideleg := BitVec.zero_and
  medeleg := BitVec.zero_and

theorem Legal.modifyTraps (legal : file.Legal) (mode : TrapMode)
    {f : TrapRegisters x → TrapRegisters x}
    (kept : ∀ traps : TrapRegisters x, traps.Legal file.compressed →
      (f traps).Legal file.compressed) : (file.modifyTraps mode f).Legal := by
  cases mode with
  | machine => exact { legal with machine := kept _ legal.machine }
  | supervisor => exact { legal with supervisor := kept _ legal.supervisor }

theorem Legal.setEpc (legal : file.Legal) (mode : TrapMode) (address : Word x) :
    (file.setEpc mode address).Legal := by
  refine legal.modifyTraps mode fun traps held => { held with epc := ?_ }
  rw [epcMask_eq, BitVec.and_assoc, BitVec.not_and_self]
  exact BitVec.and_zero

theorem Legal.assign? (legal : file.Legal) {csr : Csr} {value : Word x} {after : CsrFile x}
    (assigned : file.assign? csr value = some after) : after.Legal := by
  cases csr with
  | misa =>
      cases assigned
      exact legal
  | mstatus | sstatus =>
      cases assigned
      exact { legal with }
  | medeleg =>
      cases assigned
      refine { legal with medeleg := ?_ }
      have outside : delegable &&& ~~~0xB3FF = 0 := by decide
      change value.setWidth 16 &&& delegable &&& ~~~0xB3FF = 0
      rw [BitVec.and_assoc, outside]
      exact BitVec.and_zero
  | mideleg =>
      cases assigned
      exact { legal with mideleg := InterruptSet.merge_within legal.mideleg (by decide) }
  | mie | sie =>
      cases assigned
      exact { legal with enabled := InterruptSet.merge_within legal.enabled (by decide) }
  | mip | sip =>
      cases assigned
      exact { legal with pending := InterruptSet.merge_within legal.pending (by decide) }
  | mtvec | stvec =>
      cases assigned
      exact legal.modifyTraps _ fun _ held => held.writeVector value
  | mepc | sepc =>
      cases assigned
      exact legal.setEpc ..
  | mscratch | mcause | mtval | sscratch | scause | stval =>
      cases assigned
      exact legal.modifyTraps _ fun _ held => { held with }
  | mcycle | minstret | mcycleh | minstreth | cycle | instret | cycleh | instreth =>
      obtain ⟨_, _, rfl⟩ := counters_of_assign? rfl assigned
      exact { legal with }
  | mvendorid | marchid | mimpid | mhartid => cases assigned

theorem Legal.operate (legal : file.Legal) (operation : CsrOperation x) :
    (file.operate operation).Legal := by
  cases operation with
  | reset => exact legal_initial file.compressed
  | write number value level =>
      rcases file.operate_write_cases number value level with same | ⟨csr, -, -, assigned⟩
      · rw [same]
        exact legal
      · exact legal.assign? assigned
  | setEpc mode address => exact legal.setEpc mode address
  | setCause mode cause =>
      have kept : (file.setCause mode cause).Legal :=
        legal.modifyTraps mode fun _ held => { held with }
      exact kept
  | setTrapValue mode value =>
      have kept : (file.setTrapValue mode value).Legal :=
        legal.modifyTraps mode fun _ held => { held with }
      exact kept
  | setPending interrupt isPending =>
      exact { legal with pending := InterruptSet.put_within interrupt isPending legal.pending }
  | status | tick | retire => exact { legal with }

theorem Legal.operateAll (legal : file.Legal) (operations : List (CsrOperation x)) :
    (CsrFile.operateAll operations file).Legal := by
  induction operations generalizing file with
  | nil => exact legal
  | cons operation operations ih => exact ih (legal.operate operation)

/-! ## Writing back -/

theorem and_epcMask {traps : TrapRegisters x} (legal : traps.Legal file.compressed) :
    traps.epc &&& file.epcMask = traps.epc := by
  have aligned := legal.epc
  rw [epcMask_eq]
  exact and_eq_self (by rwa [BitVec.not_not])

theorem lowerHalf_eq_and (counter : BitVec 64) :
    (counter.setWidth 32).setWidth 64 = counter &&& 0xFFFFFFFF#64 := by
  apply BitVec.eq_of_toNat_eq
  have small : counter.toNat % 2 ^ 32 < 2 ^ 64 :=
    Nat.lt_trans (Nat.mod_lt _ (by decide)) (by decide)
  rw [BitVec.toNat_setWidth, BitVec.toNat_setWidth, Nat.mod_eq_of_lt small, BitVec.toNat_and]
  exact (Nat.and_two_pow_sub_one_eq_mod counter.toNat 32).symm

theorem writeCounter_ofDouble (counter : BitVec 64) :
    writeCounter counter (Word.ofDouble counter : Word x) = counter := by
  cases x with
  | rv32 =>
      change counter &&& ~~~0xFFFFFFFF ||| (counter.setWidth 32).setWidth 64 = counter
      rw [lowerHalf_eq_and]
      exact and_not_or_and counter _
  | rv64 => exact BitVec.setWidth_eq ..

theorem writeUpperHalf_ofDouble (counter : BitVec 64) :
    writeUpperHalf counter (Word.ofDouble (counter >>> 32) : Word .rv32) = counter := by
  change counter &&& 0xFFFFFFFF#64 ||| ((counter >>> 32).setWidth 32).setWidth 64 <<< 32 = counter
  rw [← lowerHalf_eq_and]
  apply BitVec.eq_of_getLsbD_eq
  intro index inside
  by_cases lower : index < 32
  · simp [inside, lower]
  · have upper : index - 32 < 32 := by omega
    have place : 32 + (index - 32) = index := by omega
    simp [inside, lower, upper, place]

/-- Writing back to a register what it holds changes nothing. -/
theorem Legal.assign?_of_peek? (legal : file.Legal) {csr : Csr} {value : Word x}
    (writable : ¬ csr.number.ReadOnly) (held : file.peek? csr = some value) :
    file.assign? csr value = some file := by
  have twelve : 12 ≤ x.bits := Nat.le_of_lt (Word.lt_bits (by decide))
  cases csr with
  | cycle | instret | cycleh | instreth | mvendorid | marchid | mimpid | mhartid =>
      exact absurd (by decide) writable
  | misa => rfl
  | mscratch | mcause | mtval | sscratch | scause | stval =>
      cases held
      rfl
  | mstatus =>
      cases held
      have same : file.status.write (Word.ofDouble (file.status.toBits x) : Word x).toDouble =
          file.status :=
        Status.write_of_toBits _ _ fun _ low => Word.getLsbD_toDouble_ofDouble _ low
      rw [CsrFile.assign?, same]
  | sstatus =>
      cases held
      have same : file.status.writeSupervisor
          (Word.ofDouble (file.status.toSupervisorBits x) : Word x).toDouble = file.status :=
        file.status.writeSupervisor_of_toBits fun _ low => Word.getLsbD_toDouble_ofDouble _ low
      rw [CsrFile.assign?, same]
  | medeleg =>
      cases held
      have same : file.medeleg &&& delegable = file.medeleg := and_eq_self legal.medeleg
      rw [CsrFile.assign?, setWidth_widen (Nat.le_of_lt (Word.lt_bits (by decide))), same]
  | mideleg =>
      cases held
      rw [CsrFile.assign?, setWidth_widen twelve, InterruptSet.merge_eq_self rfl]
  | mie =>
      cases held
      rw [CsrFile.assign?, setWidth_widen twelve, Interrupts.writeEnabled,
        InterruptSet.merge_eq_self rfl]
  | mip =>
      cases held
      rw [CsrFile.assign?, setWidth_widen twelve, Interrupts.writePending,
        InterruptSet.merge_eq_self rfl]
  | sie =>
      cases held
      have shown : file.interrupts.enabled &&& InterruptSet.supervisor &&& InterruptSet.supervisor =
          file.interrupts.enabled &&& InterruptSet.supervisor := by
        rw [BitVec.and_assoc, BitVec.and_self]
      rw [CsrFile.assign?, setWidth_widen twelve, Interrupts.writeSupervisorEnabled,
        InterruptSet.merge_eq_self shown]
  | sip =>
      cases held
      have shown : file.interrupts.pending &&& InterruptSet.supervisor &&&
          InterruptSet.supervisorSoftware =
            file.interrupts.pending &&& InterruptSet.supervisorSoftware := by
        rw [BitVec.and_assoc]
        rfl
      rw [CsrFile.assign?, setWidth_widen twelve, Interrupts.writeSupervisorPending,
        InterruptSet.merge_eq_self shown]
  | mtvec =>
      cases held
      rw [CsrFile.assign?, setVector, CsrFile.modifyTraps,
        TrapVector.write_bits legal.machine.vector]
  | stvec =>
      cases held
      rw [CsrFile.assign?, setVector, CsrFile.modifyTraps,
        TrapVector.write_bits legal.supervisor.vector]
  | mepc =>
      cases held
      rw [CsrFile.assign?, CsrFile.setEpc, CsrFile.modifyTraps, and_epcMask legal.machine]
  | sepc =>
      cases held
      rw [CsrFile.assign?, CsrFile.setEpc, CsrFile.modifyTraps, and_epcMask legal.supervisor]
  | mcycle | minstret =>
      cases held
      rw [CsrFile.assign?, writeCounter_ofDouble]
  | mcycleh | minstreth =>
      cases x with
      | rv32 =>
          cases held
          rw [CsrFile.assign?, writeUpperHalf_ofDouble]
          rfl
      | rv64 => cases held

theorem Legal.write_of_peekNumber? (legal : file.Legal) {number : CsrNumber} {value : Word x}
    (held : file.peekNumber? number = some value) (writable : ¬ number.ReadOnly) :
    write number value .machine file = .ok () file := by
  obtain ⟨csr, named, peeked⟩ := Option.bind_eq_some_iff.mp held
  obtain rfl := Csr.number_of_ofNumber? named
  exact write_number csr.requiredLevel_le_machine writable (legal.assign?_of_peek? writable peeked)

end CsrFile

/-! ## Stored words -/

/-- What trap registers can hold, as they are stored. -/
structure TrapWords.Legal {x : Xlen} (compressed : Bool) (traps : TrapWords x) : Prop where
  /-- The mode of the vector is not reserved. -/
  vector : traps.vector &&& 0b11 < 2
  /-- There is nothing above the width of the registers. -/
  narrow : x = .rv32 → traps.vector.toNat < 2 ^ 32
  /-- The address of an instruction is aligned. -/
  epc : traps.epc &&& (if compressed then 1 else 3) = 0

/-- What the control registers can hold, as they are stored. -/
structure CsrWords.Legal {x : Xlen} (words : CsrWords x) : Prop where
  /-- The level before a trap is not the reserved one. -/
  mpp : words.mstatus.extractLsb' 11 2 ≠ 2
  /-- The bits that cannot change are as after a reset. -/
  fixed : Checked.resetStatus x = .ok (words.mstatus &&& ~~~0x19AA)
  machine : words.machine.Legal words.compressed
  supervisor : words.supervisor.Legal words.compressed
  mie : words.mie &&& ~~~0xBBB = 0
  mip : words.mip &&& ~~~0xBBB = 0
  mideleg : words.mideleg &&& ~~~0x222 = 0
  medeleg : words.medeleg &&& ~~~0xB3FF = 0

namespace TrapRegisters

variable {x : Xlen} {traps : TrapRegisters x} {compressed : Bool}

theorem Legal.words (legal : traps.Legal compressed) : traps.words.Legal compressed where
  vector := by
    have low : (Word.toDouble traps.vector.bits &&& 0b11).toNat = traps.vector.bits.toNat % 4 :=
      Word.toNat_toDouble_and_three _
    rw [BitVec.lt_def]
    exact Nat.lt_of_le_of_lt (Nat.le_of_eq low) legal.vector
  narrow narrow := by
    subst narrow
    have number : (Word.toDouble traps.vector.bits).toNat = traps.vector.bits.toNat :=
      BitVec.toNat_setWidth_of_le Xlen.rv32.bits_le
    exact Nat.lt_of_le_of_lt (Nat.le_of_eq number) traps.vector.bits.isLt
  epc := legal.epc

end TrapRegisters

namespace TrapWords

variable {x : Xlen} {traps : TrapWords x} {compressed : Bool}

theorem Legal.words_registers (legal : traps.Legal compressed) : traps.registers.words = traps :=
  congrArg (fun vector => { traps with vector }) (Word.toDouble_ofDouble legal.narrow)

theorem Legal.registers (legal : traps.Legal compressed) : traps.registers.Legal compressed where
  vector := by
    have mode : (traps.vector &&& 0b11).toNat = traps.registers.vector.bits.toNat % 4 := by
      rw [← Word.toNat_toDouble_and_three]
      exact congrArg (fun vector => (vector &&& 0b11#64).toNat)
        (Word.toDouble_ofDouble legal.narrow).symm
    rw [← mode]
    exact BitVec.lt_def.mp legal.vector
  epc := legal.epc

end TrapWords

theorem CsrWords.widen_delegable {x : Xlen} :
    (0xB3FF : Word x) = (0xB3FF : BitVec 16).setWidth x.bits := by
  cases x <;> rfl

theorem CsrFile.Legal.words {x : Xlen} {file : CsrFile x} (legal : file.Legal) :
    file.words.Legal where
  mpp := by
    change (file.status.toBits x).extractLsb' 11 2 ≠ 2
    rw [Status.level_toBits]
    exact Privilege.level_ne_two _
  fixed := by
    have kept : file.status.toBits x &&& ~~~0x19AA = Status.initial.toBits x :=
      (Status.fixed_toBits file.status).trans (by cases x <;> rfl)
    rw [Checked.resetStatus_eq]
    exact congrArg Except.ok kept.symm
  machine := legal.machine.words
  supervisor := legal.supervisor.words
  mie := setWidth_and_not legal.enabled
  mip := setWidth_and_not legal.pending
  mideleg := setWidth_and_not legal.mideleg
  medeleg := by
    rw [CsrWords.widen_delegable]
    exact setWidth_and_not legal.medeleg

namespace CsrWords

variable {x : Xlen} {words : CsrWords x}

theorem Legal.status (legal : words.Legal) : words.fields.status.toBits x = words.mstatus := by
  have fixed : words.mstatus &&& ~~~Status.writable = Status.widths x := by
    have reset := legal.fixed
    rw [Checked.resetStatus_eq] at reset
    exact (Except.ok.inj reset).symm.trans (by cases x <;> rfl)
  exact (Status.isIn_write Status.initial legal.mpp fixed).eq_toBits.symm

theorem Legal.fields (legal : words.Legal) : words.fields.Legal where
  machine := legal.machine.registers
  supervisor := legal.supervisor.registers
  enabled := cut_and_not 0xBBB (by decide) legal.mie
  pending := cut_and_not 0xBBB (by decide) legal.mip
  mideleg := cut_and_not 0x222 (by decide) legal.mideleg
  medeleg :=
    cut_and_not 0xB3FF (Nat.le_of_lt (Word.lt_bits (by decide)))
      (widen_delegable ▸ legal.medeleg)

theorem Legal.words_fields (legal : words.Legal) : words.fields.words = words := by
  have mip : (words.mip.setWidth 12).setWidth 16 = words.mip := setWidth_cut 0xBBB legal.mip
  have mie : (words.mie.setWidth 12).setWidth 16 = words.mie := setWidth_cut 0xBBB legal.mie
  have mideleg : (words.mideleg.setWidth 12).setWidth 16 = words.mideleg :=
    setWidth_cut 0x222 legal.mideleg
  have medeleg : (words.medeleg.setWidth 16).setWidth x.bits = words.medeleg :=
    setWidth_cut 0xB3FF (widen_delegable ▸ legal.medeleg)
  simp only [CsrFile.words, legal.status]
  simp only [CsrWords.fields, mip, mie, mideleg, medeleg, legal.machine.words_registers,
    legal.supervisor.words_registers]

/-- The words that control registers can hold are those of the fields that they can hold. -/
theorem legal_iff : words.Legal ↔ ∃ file : CsrFile x, file.Legal ∧ file.words = words := by
  constructor
  · exact fun legal => ⟨words.fields, legal.fields, legal.words_fields⟩
  · rintro ⟨file, legal, rfl⟩
    exact legal.words

/-- Every operation keeps the words within the values that they can hold. -/
theorem Legal.operate (legal : words.Legal) (operation : CsrOperation x) :
    ∃ after, words.operate operation = .ok after ∧ after.Legal := by
  obtain ⟨file, held, rfl⟩ := legal_iff.mp legal
  exact ⟨_, operate_words file operation, (held.operate operation).words⟩

theorem Legal.write_of_peekNumber? (legal : words.Legal) {number : CsrNumber} {value : Word x}
    (held : words.peekNumber? number = .ok (some value)) (writable : ¬ number.ReadOnly) :
    write number value .machine words = .ok (.ok () words) := by
  obtain ⟨file, held', rfl⟩ := legal_iff.mp legal
  rw [peekNumber?_words] at held
  rw [write_words, held'.write_of_peekNumber? (Except.ok.inj held) writable]
  rfl

end CsrWords

/-! ## Trap vectors -/

/-- The trap vector register of a mode. -/
def TrapMode.vector : TrapMode → Csr
  | .machine => .mtvec
  | .supervisor => .stvec

/-- What an operation writes to the trap vector of a mode.  A value with a reserved mode in its low
two bits does not count, and neither does a write for which the level does not suffice. -/
def CsrOperation.vector? {x : Xlen} (mode : TrapMode) : CsrOperation x → Option (Word x)
  | .reset => some 0
  | .write number value level =>
      if number = mode.vector.number ∧ number.requiredLevel ≤ level.level ∧ value.toNat % 4 < 2
      then some value
      else none
  | _ => none

namespace CsrFile

variable {x : Xlen}

/-- The last value that operations write to the trap vector of a mode, or zero. -/
def lastVector (mode : TrapMode) (operations : List (CsrOperation x)) : Word x :=
  (operations.filterMap (·.vector? mode)).getLast?.getD 0

theorem vector_of_assign? {file after : CsrFile x} {mode : TrapMode} {csr : Csr} {value : Word x}
    (other : csr ≠ mode.vector) (assigned : file.assign? csr value = some after) :
    (after.traps mode).vector = (file.traps mode).vector := by
  cases csr with
  | mtvec =>
      cases mode with
      | machine => exact absurd rfl other
      | supervisor =>
          cases assigned
          rfl
  | stvec =>
      cases mode with
      | machine =>
          cases assigned
          rfl
      | supervisor => exact absurd rfl other
  | mcycle | minstret | mcycleh | minstreth | cycle | instret | cycleh | instreth =>
      obtain ⟨_, _, rfl⟩ := counters_of_assign? rfl assigned
      cases mode <;> rfl
  | mvendorid | marchid | mimpid | mhartid => cases assigned
  | _ =>
      cases assigned
      cases mode <;> rfl

theorem vector_write (file : CsrFile x) (mode : TrapMode) (number : CsrNumber) (value : Word x)
    (level : Privilege) :
    ((file.operate (.write number value level)).traps mode).vector.bits =
      ((CsrOperation.write number value level).vector? mode).getD
        (file.traps mode).vector.bits := by
  by_cases reaches : number = mode.vector.number ∧ number.requiredLevel ≤ level.level
  · obtain ⟨rfl, sufficient⟩ := reaches
    have written : write mode.vector.number value level file =
        .ok () (file.setVector mode value) := by
      refine write_eq_ok_iff.mpr ⟨?_, sufficient, ?_, ?_⟩
      · cases mode <;> decide
      · cases mode <;> decide
      · cases mode <;> rfl
    have vector : ((file.setVector mode value).traps mode).vector =
        (file.traps mode).vector.write value := by
      cases mode <;> rfl
    simp only [operate, written, vector, TrapVector.write, CsrOperation.vector?, sufficient,
      true_and, ← TrapVector.getLsbD_one_iff]
    cases value.getLsbD 1 <;> rfl
  · have none : (CsrOperation.write number value level).vector? mode = none :=
      if_neg fun all => reaches ⟨all.1, all.2.1⟩
    rw [none, Option.getD_none]
    -- What does not reach the vector fails, or is assigned to another register.
    rcases file.operate_write_cases number value level with same | ⟨csr, rfl, sufficient, assigned⟩
    · rw [same]
    · have other : csr ≠ mode.vector := fun same => reaches ⟨congrArg Csr.number same, sufficient⟩
      rw [vector_of_assign? other assigned]

theorem vector_operate (file : CsrFile x) (mode : TrapMode) (operation : CsrOperation x) :
    ((file.operate operation).traps mode).vector.bits =
      (operation.vector? mode).getD (file.traps mode).vector.bits := by
  cases operation with
  | write number value level => exact vector_write file mode number value level
  | setEpc mode' | setCause mode' | setTrapValue mode' => cases mode <;> cases mode' <;> rfl
  | reset | setPending | status | tick | retire => cases mode <;> rfl

theorem vector_operateAll (operations : List (CsrOperation x)) (file : CsrFile x)
    (mode : TrapMode) :
    ((operateAll operations file).traps mode).vector.bits =
      (operations.filterMap (·.vector? mode)).getLast?.getD (file.traps mode).vector.bits := by
  induction operations generalizing file with
  | nil => rfl
  | cons operation operations ih =>
      have rest := ih (file.operate operation)
      rw [vector_operate] at rest
      refine rest.trans ?_
      cases written : operation.vector? mode with
      | none => rw [List.filterMap_cons_none written, Option.getD_none]
      | some value =>
          rw [List.filterMap_cons_some written, List.getLast?_cons, Option.getD_some]
          rfl

end CsrFile

namespace Hart

variable {x : Xlen}

theorem legal_served {hart : Hart x} (legal : hart.csrs.Legal) (requests : List (Request x)) :
    (served requests hart).csrs.Legal := by
  rw [served_csrs]
  exact legal.operateAll _

/-- Whatever is done to a hart after its control registers were made, the words in which they are
stored are changed in bits just as the fields are.  Every operation on the words keeps them within
the values that they can hold, and so they always are; each trap vector holds the last value written
to it that is not reserved, and writing back to a register what it holds changes nothing. -/
theorem served_legal (hart : Hart x) (compressed : Bool) (requests : List (Request x)) :
    let start := { hart with csrs := CsrFile.initial compressed }
    let operations := collect operations requests start
    let file := (served requests start).csrs
    file = CsrFile.operateAll operations (CsrFile.initial compressed) ∧
      (∀ (status : Status) change,
        Checked.changeStatus (status.toBits x) change = .ok ((status.change change).toBits x)) ∧
      (∀ (words : CsrWords x) operation, words.Legal →
        ∃ after, words.operate operation = .ok after ∧ after.Legal) ∧
      ∃ words : CsrWords x,
        (CsrWords.initial compressed >>= (·.operateAll operations)) = .ok words ∧
        words = file.words ∧
        words.Legal ∧
        (∀ mode, (words.traps mode).vector = (CsrFile.lastVector mode operations).toDouble) ∧
        ∀ number value, words.peekNumber? number = .ok (some value) → ¬ number.ReadOnly →
          CsrWords.write number value .machine words = .ok (.ok () words) ∧
            CsrFile.write number value .machine file = .ok () file := by
  intro start operations file
  have operated : file = CsrFile.operateAll operations (CsrFile.initial compressed) :=
    served_csrs requests start
  have legal : file.Legal := legal_served (CsrFile.legal_initial compressed) requests
  refine ⟨operated, Checked.changeStatus_toBits, fun _ operation held => held.operate operation,
    file.words, ?_, rfl, legal.words, fun mode => ?_,
    fun number value held writable => ⟨legal.words.write_of_peekNumber? held writable, ?_⟩⟩
  · rw [CsrWords.initial_eq, Checked.ok_bind, CsrWords.operateAll_words, ← operated]
  · have vector : (file.traps mode).vector.bits = CsrFile.lastVector mode operations := by
      rw [operated, CsrFile.vector_operateAll]
      cases mode <;> rfl
    rw [← vector]
    cases mode <;> rfl
  · rw [CsrWords.peekNumber?_words] at held
    exact legal.write_of_peekNumber? (Except.ok.inj held) writable

end Hart

end RiscV
