import RiscV.Proofs.Call
import RiscV.Proofs.CsrBits

/-!
# Containment of privilege

Instructions that complete never raise the privilege level.  In user mode they leave the control
registers alone, up to the counts of cycles and instructions, and in supervisor mode they keep what
belongs to machine mode.  The level rises only where a trap hands control to the handler that
machine mode has set.
-/

namespace RiscV

namespace Privilege

theorem le_refl (level : Privilege) : level ≤ level := BitVec.le_refl _

theorem le_trans {low middle high : Privilege} (lower : low ≤ middle) (upper : middle ≤ high) :
    low ≤ high :=
  BitVec.le_trans lower upper

theorem le_machine (level : Privilege) : level ≤ machine := by
  cases level <;> decide

theorem eq_machine_of_not_lt {level : Privilege} (reached : ¬ level < machine) :
    level = machine := by
  cases level with
  | machine => rfl
  | _ => exact absurd (by decide) reached

end Privilege

theorem Status.spp_le_supervisor (status : Status) : status.spp ≤ Privilege.supervisor := by
  unfold spp
  split <;> decide

/-- Replacing the part inside of a mask keeps the part outside. -/
theorem InterruptSet.merge_outside (set mask value : InterruptSet) :
    merge set mask value &&& ~~~mask = set &&& ~~~mask :=
  masked_and_not (BitVec.and_not_self mask) set value

namespace CsrFile

variable {x : Xlen} {before between after : CsrFile x} {first second : Nat}

/-- The file after a number of instructions has completed without any other change. -/
def counted (file : CsrFile x) (count : Nat) : CsrFile x :=
  { file with
    cycles := file.cycles + BitVec.ofNat 64 count
    retired := file.retired + BitVec.ofNat 64 count }

theorem counted_zero (file : CsrFile x) : file.counted 0 = file := by
  simp [counted]

theorem counted_counted (file : CsrFile x) (first second : Nat) :
    (file.counted first).counted second = file.counted (first + second) := by
  simp only [counted, BitVec.ofNat_add, BitVec.add_assoc]

/-- What supervisor mode cannot change while a number of instructions completes: all but its own
status fields, interrupt enables, software interrupt and trap registers. -/
structure KeepsMachine (count : Nat) (before after : CsrFile x) : Prop where
  compressed : after.compressed = before.compressed
  mie : after.status.mie = before.status.mie
  mpie : after.status.mpie = before.status.mpie
  mpp : after.status.mpp = before.status.mpp
  enabled : after.interrupts.enabled &&& ~~~0x222 = before.interrupts.enabled &&& ~~~0x222
  pending : after.interrupts.pending &&& ~~~0x002 = before.interrupts.pending &&& ~~~0x002
  medeleg : after.medeleg = before.medeleg
  mideleg : after.mideleg = before.mideleg
  machine : after.machine = before.machine
  cycles : after.cycles = before.cycles + BitVec.ofNat 64 count
  retired : after.retired = before.retired + BitVec.ofNat 64 count

namespace KeepsMachine

theorem counted (file : CsrFile x) (count : Nat) :
    KeepsMachine count file (file.counted count) where
  compressed := rfl
  mie := rfl
  mpie := rfl
  mpp := rfl
  enabled := rfl
  pending := rfl
  medeleg := rfl
  mideleg := rfl
  machine := rfl
  cycles := rfl
  retired := rfl

theorem trans (earlier : KeepsMachine first before between)
    (later : KeepsMachine second between after) : KeepsMachine (first + second) before after where
  compressed := later.compressed.trans earlier.compressed
  mie := later.mie.trans earlier.mie
  mpie := later.mpie.trans earlier.mpie
  mpp := later.mpp.trans earlier.mpp
  enabled := later.enabled.trans earlier.enabled
  pending := later.pending.trans earlier.pending
  medeleg := later.medeleg.trans earlier.medeleg
  mideleg := later.mideleg.trans earlier.mideleg
  machine := later.machine.trans earlier.machine
  cycles := by rw [later.cycles, earlier.cycles, BitVec.ofNat_add, BitVec.add_assoc]
  retired := by rw [later.retired, earlier.retired, BitVec.ofNat_add, BitVec.add_assoc]

/-- The registers that supervisor mode can write are views of nothing that machine mode keeps. -/
theorem of_write {number : CsrNumber} {value : Word x}
    (succeeds : write number value .supervisor before = .ok () after) :
    KeepsMachine 0 before after := by
  have same := counted before 0
  rw [counted_zero] at same
  obtain ⟨csr, -, sufficient, writable, assigned⟩ := exists_of_write succeeds
  have own := Csr.supervisor_of_writable sufficient writable
  cases csr with
  | sie =>
      cases assigned
      exact { same with enabled := InterruptSet.merge_outside .. }
  | sip =>
      cases assigned
      exact { same with pending := InterruptSet.merge_outside .. }
  | sstatus | stvec | sscratch | sepc | scause | stval =>
      cases assigned
      exact { same with }
  | _ => exact absurd own (by decide)

end KeepsMachine

end CsrFile

namespace Hart

open Execution

variable {x : Xlen} {before between after : Hart x} {first second : Nat}

/-- What can have become of a hart after a number of instructions has completed. -/
structure Contained (count : Nat) (before after : Hart x) : Prop where
  /-- The level is no higher. -/
  mode : after.mode ≤ before.mode
  /-- User mode is not left, and changes no control register but the counters. -/
  user : before.mode = .user →
    after.mode = .user ∧ after.csrs = before.csrs.counted count
  /-- Supervisor mode changes nothing that belongs to machine mode. -/
  supervisor : before.mode = .supervisor → before.csrs.KeepsMachine count after.csrs

namespace Contained

theorem of_counted (mode : after.mode = before.mode)
    (csrs : after.csrs = before.csrs.counted first) : Contained first before after where
  mode := by
    rw [mode]
    exact Privilege.le_refl _
  user user := ⟨mode.trans user, csrs⟩
  supervisor _ := by
    rw [csrs]
    exact .counted before.csrs first

theorem trans (earlier : Contained first before between)
    (later : Contained second between after) : Contained (first + second) before after where
  mode := Privilege.le_trans later.mode earlier.mode
  user user := by
    obtain ⟨stays, counted⟩ := earlier.user user
    obtain ⟨stays', counted'⟩ := later.user stays
    rw [counted', counted, CsrFile.counted_counted]
    exact ⟨stays', rfl⟩
  supervisor supervisor := by
    refine (earlier.supervisor supervisor).trans ?_
    cases mode : between.mode with
    | user =>
        rw [(later.user mode).2]
        exact .counted between.csrs second
    | supervisor => exact later.supervisor mode
    | machine =>
        have low := earlier.mode
        rw [mode, supervisor] at low
        exact absurd low (by decide)

end Contained

theorem contained_of_execute {pc : Word x} {bits : InstructionBits} {instruction : Instruction}
    (completes : execute pc bits instruction before = .ok () after) :
    Contained 0 before after := by
  by_cases plain : instruction.usesCsrs = false
  · rcases execute_plain pc bits before plain with ⟨_, fails⟩ | ⟨_, _, _, changed⟩
    · cases fails.symm.trans completes
    · cases changed.symm.trans completes
      exact .of_counted rfl (CsrFile.counted_zero _).symm
  · cases instruction with
    | csr op dest operand number =>
        rcases execute_csr pc bits before op dest operand number with
          ⟨_, fails⟩ | ⟨csrs, _, written, changed⟩
        · cases fails.symm.trans completes
        · cases changed.symm.trans completes
          rcases written with rfl | ⟨new, written⟩
          · exact .of_counted rfl (CsrFile.counted_zero _).symm
          · refine ⟨Privilege.le_refl _, fun user => ?_, fun supervisor => ?_⟩
            · rw [user] at written
              obtain ⟨csr, -, sufficient, writable, -⟩ := CsrFile.exists_of_write written
              exact absurd (Csr.readOnly_of_user sufficient) writable
            · rw [supervisor] at written
              exact .of_write written
    | mret =>
        rw [execute_mret] at completes
        split at completes
        · cases completes
        · rename_i reached
          have machine := Privilege.eq_machine_of_not_lt reached
          cases completes
          refine ⟨?_, fun user => ?_, fun supervisor => ?_⟩
          · rw [machine]
            exact Privilege.le_machine _
          · cases user.symm.trans machine
          · cases supervisor.symm.trans machine
    | sret =>
        rw [execute_sret] at completes
        split at completes
        · cases completes
        · rename_i reached
          cases completes
          refine ⟨?_, fun user => ?_, fun _ => ?_⟩
          · exact Privilege.le_trans (Status.spp_le_supervisor _) (BitVec.not_lt.mp reached)
          · rw [user] at reached
            exact absurd (by decide) reached
          · have same := CsrFile.KeepsMachine.counted before.csrs 0
            rw [CsrFile.counted_zero] at same
            exact { same with }
    | _ => exact absurd rfl plain

theorem contained_of_answer {call : Call} (retires : (before.answer call).1 = .retired) :
    Contained 1 before (before.answer call).2 := by
  rcases answer_cases before call with
    ⟨_, _, trap⟩ | ⟨bits, instruction, after, -, -, completes, answered⟩
  · rw [trap] at retires
    cases retires
  · have advances : Contained 0 before (before.advanced bits) :=
      .of_counted rfl (CsrFile.counted_zero _).symm
    have executes : Contained 0 (before.advanced bits) after := contained_of_execute completes
    have counts : Contained 1 after after.retire := .of_counted rfl rfl
    rw [answered]
    exact advances.trans (executes.trans counts)

/-- The level rises only in a trap, which goes on at the handler of machine mode. -/
theorem trap_of_lt_mode {call : Call} (rises : before.mode < (before.answer call).2.mode) :
    ∃ cause value, before.answer call = before.trapped cause value := by
  rcases answer_cases before call with trap | ⟨_, _, after, _, _, _, answered⟩
  · exact trap
  · have retires : (before.answer call).1 = .retired := congrArg Prod.fst answered
    exact absurd rises (BitVec.not_lt.mpr (contained_of_answer retires).mode)

theorem contained_of_follow {calls : List Call}
    (retire : ∀ event ∈ history calls before, event.outcome = .retired) :
    Contained calls.length before (follow calls before) := by
  induction calls generalizing before with
  | nil => exact .of_counted rfl (CsrFile.counted_zero _).symm
  | cons call calls ih =>
      rw [history, List.forall_mem_cons] at retire
      have first := contained_of_answer retire.1
      have rest := ih retire.2
      rw [List.length_cons, Nat.add_comm]
      exact first.trans rest

/-- Whatever a hart is asked to do, an instruction that completes keeps within its level, the level
rises only in a trap to the handler of machine mode, and so a run without traps keeps within the
level at which it starts. -/
theorem history_contained (calls : List Call) (hart : Hart x) :
    (∀ event ∈ history calls hart,
      (event.outcome = .retired → Contained 1 event.before event.after) ∧
      (event.before.mode < event.after.mode →
        ∃ cause epc value, event.outcome = .trap cause epc value ∧
          event.after.pc = event.before.handlerAddress cause)) ∧
    ((∀ event ∈ history calls hart, event.outcome = .retired) →
      Contained calls.length hart (follow calls hart)) := by
  refine ⟨fun event member => ?_, contained_of_follow⟩
  obtain ⟨call, answered⟩ := answer_of_mem_history member
  constructor
  · intro retired
    have retires : (event.before.answer call).1 = .retired := by rw [answered, retired]
    have contained := contained_of_answer retires
    rw [answered] at contained
    exact contained
  · intro rises
    have reached : (event.before.answer call).2.mode = event.after.mode := by rw [answered]
    rw [← reached] at rises
    obtain ⟨cause, value, trap⟩ := trap_of_lt_mode rises
    have entered := answered.symm.trans trap
    refine ⟨cause, event.before.pc, value, congrArg Prod.fst entered, ?_⟩
    rw [← trapped_pc event.before cause value, ← entered]

end Hart

end RiscV
