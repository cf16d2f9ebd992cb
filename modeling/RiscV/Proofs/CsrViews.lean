import RiscV.Proofs.Counters
import RiscV.Proofs.CsrLegality

/-!
# Views of control registers

Some control registers show the state of others: the counters can be read in user mode under names
of their own, and three registers of supervisor mode are restricted views of registers of machine
mode.  A write changes what is read from a register only if both registers show the same state, and
a write to a restricted view is a write to the register behind it that keeps the bits outside of the
view.
-/

namespace RiscV

namespace Word

variable {x : Xlen}

/-- A word with its bits inside of a mask replaced. -/
def merge (word mask value : Word x) : Word x := (word &&& ~~~mask) ||| (value &&& mask)

theorem getLsbD_merge (word mask value : Word x) (index : Nat) :
    (merge word mask value).getLsbD index =
      if mask.getLsbD index then value.getLsbD index else word.getLsbD index :=
  getLsbD_masked ..

end Word

namespace Csr

/-- The registers that show the same state, family by family. -/
def families : List (List Csr) :=
  [[mstatus, sstatus], [mie, sie], [mip, sip], [mcycle, cycle], [mcycleh, cycleh],
    [minstret, instret], [minstreth, instreth]]

/-- The registers are the same, or they show the same state. -/
def SharesState (csr other : Csr) : Prop :=
  csr = other ∨ ∃ family ∈ families, csr ∈ family ∧ other ∈ family

instance (csr other : Csr) : Decidable (SharesState csr other) :=
  inferInstanceAs (Decidable (csr = other ∨ ∃ family ∈ families, csr ∈ family ∧ other ∈ family))

/-- The register of machine mode that a register is a view of; others are views of themselves. -/
def source : Csr → Csr
  | sstatus => mstatus
  | sie => mie
  | sip => mip
  | cycle => mcycle
  | instret => minstret
  | cycleh => mcycleh
  | instreth => minstreth
  | csr => csr

theorem sharesState_of_source {csr other : Csr} (same : other.source = csr.source) :
    SharesState csr other := by
  have every : ∀ csr ∈ all, ∀ other ∈ all, other.source = csr.source → SharesState csr other := by
    decide +kernel
  exact every csr csr.mem_all other other.mem_all same

end Csr

/-! ## What a write leaves alone -/

namespace CsrFile

variable {x : Xlen} {file after : CsrFile x} {csr other : Csr} {value : Word x}

theorem upperHalf?_writeCounter (count : BitVec 64) (value : Word x) :
    (upperHalf? (writeCounter count value) : Option (Word x)) = upperHalf? count := by
  cases x with
  | rv64 => rfl
  | rv32 =>
      have kept : (writeCounter count value).extractLsb' 32 32 = count.extractLsb' 32 32 :=
        (congrArg (·.extractLsb' 32 32) (writeCounter_narrow count value)).trans
          BitVec.extractLsb'_append_eq_left
      exact congrArg some ((ofDouble_upper _).trans (kept.trans (ofDouble_upper _).symm))

theorem ofDouble_writeUpperHalf (count : BitVec 64) (value : Word .rv32) :
    (Word.ofDouble (writeUpperHalf count value) : Word .rv32) = Word.ofDouble count :=
  (congrArg (·.setWidth 32) (writeUpperHalf_narrow count value)).trans
    BitVec.setWidth_append_eq_right

/-- A register is read as it was before a write to one that shows other state. -/
theorem peek?_of_assign? (apart : other.source ≠ csr.source)
    (assigned : file.assign? csr value = some after) : after.peek? other = file.peek? other := by
  cases csr with
  | mcycle =>
      cases assigned
      cases other with
      | mcycle | cycle => exact absurd rfl apart
      | mcycleh | cycleh => exact upperHalf?_writeCounter file.cycles value
      | _ => rfl
  | minstret =>
      cases assigned
      cases other with
      | minstret | instret => exact absurd rfl apart
      | minstreth | instreth => exact upperHalf?_writeCounter file.retired value
      | _ => rfl
  | mcycleh =>
      cases x with
      | rv64 => cases assigned
      | rv32 =>
          cases assigned
          cases other with
          | mcycleh | cycleh => exact absurd rfl apart
          | mcycle | cycle => exact congrArg some (ofDouble_writeUpperHalf file.cycles value)
          | _ => rfl
  | minstreth =>
      cases x with
      | rv64 => cases assigned
      | rv32 =>
          cases assigned
          cases other with
          | minstreth | instreth => exact absurd rfl apart
          | minstret | instret => exact congrArg some (ofDouble_writeUpperHalf file.retired value)
          | _ => rfl
  | cycle | instret | cycleh | instreth | mvendorid | marchid | mimpid | mhartid => cases assigned
  | _ =>
      -- Every other register has a field of the file, or a part of one, to itself.
      cases assigned
      cases other <;> first | rfl | exact absurd rfl apart

theorem sharesState_of_write {number shown : CsrNumber} {level : Privilege}
    (succeeds : write number value level file = .ok () after)
    (changed : after.peekNumber? shown ≠ file.peekNumber? shown) :
    ∃ csr other : Csr, csr.number = number ∧ other.number = shown ∧ csr.SharesState other := by
  obtain ⟨csr, named, -, -, assigned⟩ := exists_of_write succeeds
  cases found : Csr.ofNumber? shown with
  | none =>
      have absent : ∀ file : CsrFile x, file.peekNumber? shown = none := fun file => by
        rw [peekNumber?, found, Option.bind_none]
      exact absurd ((absent after).trans (absent file).symm) changed
  | some other =>
      obtain rfl := Csr.number_of_ofNumber? found
      rw [peekNumber?_number, peekNumber?_number] at changed
      refine ⟨csr, other, named, rfl, Csr.sharesState_of_source ?_⟩
      exact Decidable.byContradiction fun apart => changed (peek?_of_assign? apart assigned)

end CsrFile

/-! ## Restricted views -/

/-- A register of supervisor mode that is a restricted view of one of machine mode. -/
inductive RestrictedView where
  | status
  | enabled
  | pending
  deriving DecidableEq, Repr

namespace RestrictedView

/-- The register of supervisor mode. -/
def csr : RestrictedView → Csr
  | status => .sstatus
  | enabled => .sie
  | pending => .sip

/-- The register of machine mode. -/
def machine : RestrictedView → Csr
  | status => .mstatus
  | enabled => .mie
  | pending => .mip

/-- The bits that are visible in supervisor mode.  Those of the status are its interrupt enable, the
one before the last trap, the mode before it, and the width of user mode. -/
def visible : RestrictedView → BitVec 64
  | status => 0x300000122
  | enabled | pending => 0x222

/-- The bits that can be written in supervisor mode: those of the status but the width, all enabled
bits, and the software interrupt among the pending ones. -/
def writable : RestrictedView → BitVec 64
  | status => 0x122
  | enabled => 0x222
  | pending => 0x002

end RestrictedView

/-- A write to the machine status register that replaces the bits of supervisor mode is one to the
supervisor status register. -/
theorem Status.write_merge {x : Xlen} (status : Status) (value : Word x) :
    status.write
        (Word.merge (Word.ofDouble (status.toBits x)) (Word.ofDouble 0x122#64) value).toDouble =
      status.writeSupervisor value.toDouble := by
  have merged : ∀ index < 32,
      (Word.merge (Word.ofDouble (status.toBits x)) (Word.ofDouble 0x122#64)
          value).toDouble.getLsbD index =
        if (0x122#64).getLsbD index then value.toDouble.getLsbD index
        else (status.toBits x).getLsbD index := by
    intro index low
    rw [Word.getLsbD_toDouble _ low, Word.getLsbD_merge,
      Word.getLsbD_ofDouble _ low, Word.getLsbD_ofDouble _ low, Word.getLsbD_toDouble value low]
  have level : (Word.merge (Word.ofDouble (status.toBits x)) (Word.ofDouble 0x122#64)
      value).toDouble.extractLsb' 11 2 = status.mpp.level := by
    rw [← level_toBits (x := x) status]
    apply BitVec.eq_of_getLsbD_eq
    intro index low
    have outside : (0x122#64).getLsbD (11 + index) = false := by
      revert index
      decide
    rw [BitVec.getLsbD_extractLsb', BitVec.getLsbD_extractLsb', merged (11 + index) (by omega),
      outside]
    rfl
  simp (disch := decide) only [write, level, Privilege.ofLevel?_level, Option.getD_some, merged,
    getLsbD_toBits]
  simp [writeSupervisor]

namespace InterruptSet

/-- To replace the part inside of a mask, the part inside of a larger one may be replaced by what
that gives. -/
theorem merge_merge {set inner outer value : InterruptSet} (inside : inner &&& ~~~outer = 0) :
    merge set outer (merge set inner value) = merge set inner value := by
  apply BitVec.eq_of_getLsbD_eq
  intro index low
  have covered : inner.getLsbD index = true → outer.getLsbD index = true := by
    intro bit
    have none : (inner &&& ~~~outer).getLsbD index = false := by
      rw [inside]
      exact BitVec.getLsbD_zero
    simpa only [BitVec.getLsbD_and, BitVec.getLsbD_not, low, bit, decide_true, Bool.true_and,
      Bool.not_eq_false'] using none
  rw [getLsbD_merge, getLsbD_merge]
  by_cases replaced : inner.getLsbD index = true
  · rw [if_pos replaced, if_pos (covered replaced)]
  · rw [if_neg replaced, ite_self]

theorem setWidth_merge {x : Xlen} (set mask : InterruptSet) (value : Word x) :
    (Word.merge (set.setWidth x.bits) (mask.setWidth x.bits) value).setWidth 12 =
      merge set mask (value.setWidth 12) := by
  apply BitVec.eq_of_getLsbD_eq
  intro index low
  have inside : index < x.bits := Word.lt_bits (Nat.lt_trans low (by decide))
  rw [getLsbD_merge, BitVec.getLsbD_setWidth, Word.getLsbD_merge]
  simp only [BitVec.getLsbD_setWidth, low, inside, decide_true, Bool.true_and]

/-- A write that replaces the part inside of a mask is one through a view with that mask. -/
theorem merge_view {x : Xlen} {set inner outer : InterruptSet} (inside : inner &&& ~~~outer = 0)
    (value : Word x) :
    merge set outer
        ((Word.merge (set.setWidth x.bits) (inner.setWidth x.bits) value).setWidth 12) =
      merge set inner (value.setWidth 12) := by
  rw [setWidth_merge, merge_merge inside]

theorem setWidth_visible {x : Xlen} (set : InterruptSet) :
    (set &&& supervisor).setWidth x.bits = set.setWidth x.bits &&& Word.ofDouble 0x222#64 := by
  have mask : supervisor.setWidth x.bits = (Word.ofDouble 0x222#64 : Word x) := by
    cases x <;> rfl
  rw [BitVec.setWidth_and, mask]

end InterruptSet

namespace CsrFile

variable {x : Xlen}

/-- A restricted view shows a part of what its register holds, and a write to it is a write to the
register that keeps the rest. -/
structure Restricts (file : CsrFile x) (view : RestrictedView) (held : Word x) : Prop where
  peek_machine : file.peekNumber? view.machine.number = some held
  peek : file.peekNumber? view.csr.number = some (held &&& Word.ofDouble view.visible)
  write : ∀ (value : Word x) (level : Privilege), .supervisor ≤ level →
    ∃ after, write view.csr.number value level file = .ok () after ∧
      CsrFile.write view.machine.number (Word.merge held (Word.ofDouble view.writable) value)
        .machine file = .ok () after

theorem restricts_of_assign? {file : CsrFile x} {view : RestrictedView} {held : Word x}
    (machine : file.peek? view.machine = some held)
    (shown : file.peek? view.csr = some (held &&& Word.ofDouble view.visible))
    (same : ∀ value, ∃ after, file.assign? view.csr value = some after ∧
      file.assign? view.machine (Word.merge held (Word.ofDouble view.writable) value) =
        some after) : file.Restricts view held where
  peek_machine := (peekNumber?_number file view.machine).trans machine
  peek := (peekNumber?_number file view.csr).trans shown
  write value level sufficient := by
    obtain ⟨after, assigned, assigned'⟩ := same value
    have reached : view.csr.number.requiredLevel ≤ Privilege.supervisor.level := by
      cases view <;> decide
    have writable : ¬ view.csr.number.ReadOnly ∧ ¬ view.machine.number.ReadOnly := by
      cases view <;> decide
    exact ⟨after, write_number (BitVec.le_trans reached sufficient) writable.1 assigned,
      write_number view.machine.requiredLevel_le_machine writable.2 assigned'⟩

theorem restricts_status (file : CsrFile x) :
    file.Restricts .status (Word.ofDouble (file.status.toBits x)) := by
  refine restricts_of_assign? rfl (congrArg some BitVec.setWidth_and) fun value => ⟨_, rfl, ?_⟩
  exact congrArg (fun status => some { file with status }) (file.status.write_merge value)

theorem restricts_enabled (file : CsrFile x) :
    file.Restricts .enabled (file.interrupts.enabled.setWidth x.bits) := by
  refine restricts_of_assign? rfl
    (congrArg some (InterruptSet.setWidth_visible file.interrupts.enabled))
    fun value => ⟨_, rfl, ?_⟩
  have mask : (Word.ofDouble RestrictedView.enabled.writable : Word x) =
      InterruptSet.supervisor.setWidth x.bits := by
    cases x <;> rfl
  have inside : InterruptSet.supervisor &&& ~~~InterruptSet.every = 0 := by decide
  rw [mask]
  exact congrArg (fun enabled => some { file with interrupts := { file.interrupts with enabled } })
    (InterruptSet.merge_view inside value)

theorem restricts_pending (file : CsrFile x) :
    file.Restricts .pending (file.interrupts.pending.setWidth x.bits) := by
  refine restricts_of_assign? rfl
    (congrArg some (InterruptSet.setWidth_visible file.interrupts.pending))
    fun value => ⟨_, rfl, ?_⟩
  have mask : (Word.ofDouble RestrictedView.pending.writable : Word x) =
      InterruptSet.supervisorSoftware.setWidth x.bits := by
    cases x <;> rfl
  have inside : InterruptSet.supervisorSoftware &&&
      ~~~(InterruptSet.supervisor ||| InterruptSet.user) = 0 := by decide
  rw [mask]
  exact congrArg (fun pending => some { file with interrupts := { file.interrupts with pending } })
    (InterruptSet.merge_view inside value)

/-- A write that succeeds changes what is read only from the register itself and from those that
show the same state.  The restricted views show the visible bits of their registers, and a write to
one of them has exactly the effect of a write to its register of what that holds with the writable
bits replaced. -/
theorem write_shares_state (file : CsrFile x) :
    (∀ number shown value level after, write number value level file = .ok () after →
      after.peekNumber? shown ≠ file.peekNumber? shown →
      ∃ csr other : Csr, csr.number = number ∧ other.number = shown ∧ csr.SharesState other) ∧
    ∀ view : RestrictedView, ∃ held, file.Restricts view held := by
  refine ⟨fun _ _ _ _ _ => sharesState_of_write, fun view => ?_⟩
  cases view with
  | status => exact ⟨_, file.restricts_status⟩
  | enabled => exact ⟨_, file.restricts_enabled⟩
  | pending => exact ⟨_, file.restricts_pending⟩

/-- Supervisor mode enables all interrupts that it can, in one of two ways, and of the pending ones
nothing changes. -/
theorem write_shares_state_enabled :
    let file : CsrFile .rv32 := { initial true with interrupts := ⟨0x0A0, 0x808⟩ }
    file.peekNumber? 0x104 = some 0 ∧
      ∃ after, write (x := .rv32) 0x104 0xFFFFFFFF .supervisor file = .ok () after ∧
        write (x := .rv32) 0x304 0xA2A .machine file = .ok () after ∧
        after.peekNumber? 0x344 = some 0x0A0 := by
  intro file
  obtain ⟨shares, views⟩ := write_shares_state file
  obtain ⟨held, restricts⟩ := views .enabled
  have holds : file.peekNumber? 0x304 = some 0x808 := by decide
  cases restricts.peek_machine.symm.trans holds
  obtain ⟨after, written, written'⟩ := restricts.write 0xFFFFFFFF .supervisor (by decide)
  refine ⟨restricts.peek, after, written, written', ?_⟩
  by_contra changed
  obtain ⟨csr, other, named, shown, shared⟩ := shares 0x104 0x344 _ _ after written changed
  cases (Csr.ofNumber?_number csr).symm.trans (congrArg Csr.ofNumber? named)
  cases (Csr.ofNumber?_number other).symm.trans (congrArg Csr.ofNumber? shown)
  revert shared
  decide

end CsrFile

end RiscV
