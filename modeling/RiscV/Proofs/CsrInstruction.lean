import RiscV.Proofs.Computation

/-!
# Instructions on control registers

An instruction on a control register reads it, changes it and leaves what it held before in a
register, or it is illegal and does nothing.  It completes exactly if the register is there, the
mode reaches the level of its number, and the number does not forbid a write that the instruction
makes.  Whether it makes one is told by its operation and by the name of its operand: a register
that holds zero is an operand like any other.
-/

namespace RiscV

/-- The instruction writes.  Setting and clearing the bits of register zero, or of an immediate
zero, is not a write. -/
def CsrOp.Writes (op : CsrOp) (operand : CsrOperand) : Prop :=
  op = .csrrw ∨ operand ≠ .register 0 ∧ operand ≠ .immediate 0

instance (op : CsrOp) (operand : CsrOperand) : Decidable (op.Writes operand) :=
  inferInstanceAs (Decidable (op = .csrrw ∨ operand ≠ .register 0 ∧ operand ≠ .immediate 0))

theorem CsrOp.writes_iff (op : CsrOp) (operand : CsrOperand) :
    op.Writes operand ↔ op = .csrrw ∨ operand.field ≠ 0 := by
  cases operand <;> simp [Writes, CsrOperand.field]

/-- The number of an instruction fits in twelve bits. -/
theorem CsrNumber.valid_setWidth (number : BitVec 12) : Valid (number.setWidth 16) := by
  have bound := number.isLt
  rw [Valid, BitVec.lt_def, BitVec.toNat_setWidth_of_le (by decide)]
  exact bound

namespace Hart

open Execution

variable {x : Xlen}

/-- The hart lets an instruction use a control register. -/
structure Grants (hart : Hart x) (op : CsrOp) (operand : CsrOperand) (number : CsrNumber) :
    Prop where
  implemented : ∃ held, hart.csrs.peekNumber? number = some held
  privileged : number.requiredLevel ≤ hart.mode.level
  writable : op.Writes operand → ¬ number.ReadOnly

section Change

variable {hart : Hart x} {op : CsrOp} {dest : Register} {operand : CsrOperand}
  {number : CsrNumber} {bits : InstructionBits}

theorem changeCsr_of_unread (seen : ¬ (op = .csrrw ∧ dest = 0))
    (unread : ¬ ∃ held, hart.csrs.read number hart.mode = .ok held) :
    changeCsr op dest operand number bits hart = .error ⟨.illegalInstruction, bits.value⟩ hart := by
  rw [changeCsr_apply, if_neg seen]
  cases read : hart.csrs.read number hart.mode with
  | error => rfl
  | ok held => exact absurd ⟨held, read⟩ unread

theorem changeCsr_of_unwritten (writes : op.Writes operand)
    (unwritten : ∀ value,
      ¬ ∃ after, CsrFile.write number value hart.mode hart.csrs = .ok () after) :
    changeCsr op dest operand number bits hart = .error ⟨.illegalInstruction, bits.value⟩ hart := by
  rw [changeCsr_apply]
  cases if op = .csrrw ∧ dest = 0 then .ok 0 else hart.csrs.read number hart.mode with
  | error => rfl
  | ok old =>
      simp only [if_pos ((op.writes_iff operand).mp writes)]
      cases written : CsrFile.write number (op.eval old (operandValue hart.registers operand))
          hart.mode hart.csrs with
      | error => rfl
      | ok _ after => exact absurd ⟨after, written⟩ (unwritten _)

/-- What is not granted is illegal. -/
theorem changeCsr_of_not_grants (refused : ¬ hart.Grants op operand number) :
    changeCsr op dest operand number bits hart = .error ⟨.illegalInstruction, bits.value⟩ hart := by
  by_cases readable : ∃ held, hart.csrs.read number hart.mode = .ok held
  · have forbidden : op.Writes operand ∧ number.ReadOnly := by
      obtain ⟨held, read⟩ := readable
      obtain ⟨-, privileged, peeked⟩ := CsrFile.read_eq_ok_iff.mp read
      refine Decidable.byContradiction fun allowed => refused ⟨⟨held, peeked⟩, privileged, ?_⟩
      exact fun writes readOnly => allowed ⟨writes, readOnly⟩
    refine changeCsr_of_unwritten forbidden.1 fun value written => ?_
    exact (CsrFile.exists_write_iff.mp written).2 forbidden.2
  · by_cases blind : op = .csrrw ∧ dest = 0
    · -- Nothing is read here, but what cannot be read cannot be written either.
      refine changeCsr_of_unwritten (.inl blind.1) fun value written => ?_
      exact readable (CsrFile.exists_write_iff.mp written).1
    · exact changeCsr_of_unread blind readable

/-- What is granted is done. -/
theorem changeCsr_of_grants (dest : Register) (bits : InstructionBits) (valid : number.Valid)
    (grants : hart.Grants op operand number) :
    ∃ old csrs,
      hart.csrs.peekNumber? number = some old ∧
      (op.Writes operand →
        CsrFile.write number (op.eval old (operandValue hart.registers operand)) hart.mode
          hart.csrs = .ok () csrs) ∧
      (¬ op.Writes operand → csrs = hart.csrs) ∧
      changeCsr op dest operand number bits hart =
        .ok () ({ hart with csrs }.setRegister dest old) := by
  obtain ⟨old, held⟩ := grants.implemented
  have read : hart.csrs.read number hart.mode = .ok old :=
    CsrFile.read_eq_ok_iff.mpr ⟨valid, grants.privileged, held⟩
  rw [changeCsr_apply, read]
  by_cases writes : op.Writes operand
  · have changes := (op.writes_iff operand).mp writes
    obtain ⟨csrs, written⟩ := CsrFile.exists_write_iff.mpr ⟨⟨old, read⟩, grants.writable writes⟩
    refine ⟨old, csrs, held, fun _ => written, fun silent => absurd writes silent, ?_⟩
    by_cases blind : op = .csrrw ∧ dest = 0
    · -- The old contents are not read, but nothing depends on them.
      obtain ⟨rfl, rfl⟩ := blind
      have exchanged : CsrFile.write number
          (CsrOp.csrrw.eval 0 (operandValue hart.registers operand)) hart.mode hart.csrs =
            .ok () csrs := written
      simp only [and_self, if_true, exchanged]
      rfl
    · simp only [if_neg blind, if_pos changes, written]
  · have silent : ¬ (op = .csrrw ∨ operand.field ≠ 0) := (op.writes_iff operand).not.mp writes
    have seen : ¬ (op = .csrrw ∧ dest = 0) := fun blind => silent (.inl blind.1)
    refine ⟨old, hart.csrs, held, fun writes' => absurd writes' writes, fun _ => rfl, ?_⟩
    simp only [if_neg seen, if_neg silent]

end Change

/-- The instruction leaves the old contents of a control register in an integer register, and what
it makes of them and of the operand from before in the control register, as far as it writes. -/
def ChangesCsr (hart : Hart x) (op : CsrOp) (dest : Register) (operand : CsrOperand)
    (number : CsrNumber) (bits : InstructionBits) : Prop :=
  ∃ old csrs, ∃ registers : Registers x,
    hart.csrs.peekNumber? number = some old ∧
    (op.Writes operand →
      CsrFile.write number (op.eval old (operandValue hart.registers operand)) hart.mode
        hart.csrs = .ok () csrs) ∧
    (¬ op.Writes operand → csrs = hart.csrs) ∧
    (∀ index, registers.get? index =
      if dest ≠ 0 ∧ index = dest.toNat then some old else hart.registers.get? index) ∧
    hart.perform bits =
      (.retired,
        { hart with
          registers
          csrs := csrs.retire
          pc := hart.pc + BitVec.ofNat x.bits bits.size })

section Perform

variable {hart : Hart x} {op : CsrOp} {dest : Register} {operand : CsrOperand}
  {number : BitVec 12} {bits : InstructionBits}

theorem perform_csr (decoded : hart.decode? bits = some (.csr op dest operand number)) :
    hart.perform bits =
      match changeCsr op dest operand (number.setWidth 16) bits (hart.advanced bits) with
      | .ok _ after => (.retired, after.retire)
      | .error fault _ => hart.trapped (.exception fault.exception) fault.value := by
  rw [perform_eq, decoded]
  rfl

theorem changesCsr_of_grants (decoded : hart.decode? bits = some (.csr op dest operand number))
    (grants : hart.Grants op operand (number.setWidth 16)) :
    hart.ChangesCsr op dest operand (number.setWidth 16) bits := by
  have named : dest ∈ (Instruction.csr op dest operand number).registers := by
    cases operand <;> exact List.mem_cons_self
  have contains : hart.registers.Contains dest := (decode?_eq_some_iff.mp decoded).2.2 dest named
  have ready : (hart.advanced bits).Grants op operand (number.setWidth 16) :=
    ⟨grants.implemented, grants.privileged, grants.writable⟩
  obtain ⟨old, csrs, held, written, kept, changed⟩ :=
    changeCsr_of_grants dest bits (CsrNumber.valid_setWidth number) ready
  refine ⟨old, csrs, hart.registers.write dest old, held, written, kept,
    Registers.get?_write_of_contains old contains, ?_⟩
  rw [perform_csr decoded, changed]
  rfl

theorem perform_of_not_grants (decoded : hart.decode? bits = some (.csr op dest operand number))
    (refused : ¬ hart.Grants op operand (number.setWidth 16)) :
    hart.perform bits = hart.trapped (.exception .illegalInstruction) bits.value := by
  have unready : ¬ (hart.advanced bits).Grants op operand (number.setWidth 16) :=
    fun grants => refused ⟨grants.implemented, grants.privileged, grants.writable⟩
  rw [perform_csr decoded, changeCsr_of_not_grants unready]

end Perform

end Hart

end RiscV
