import RiscV.Proofs.Execution

/-!
# Effects of instructions

An instruction that ends in a fault leaves the hart as it was.  One that completes and is neither a
change of a control register nor a return from a trap changes at most the memory, the registers and
the program counter.
-/

namespace RiscV

namespace Instruction

/-- Whether the instruction acts on control registers, be it by a return from a trap. -/
def usesCsrs : Instruction → Bool
  | csr .. | mret | sret => true
  | _ => false

end Instruction

namespace Hart

open Execution

variable {x : Xlen} (pc : Word x) (bits : InstructionBits) (hart : Hart x)

theorem execute_plain {instruction : Instruction} (plain : instruction.usesCsrs = false) :
    (∃ fault, execute pc bits instruction hart = .error fault hart) ∨
      ∃ memory registers next,
        execute pc bits instruction hart = .ok () { hart with memory, registers, pc := next } := by
  cases instruction with
  | csr | mret | sret => cases plain
  | immediate | shift | immediateWord | shiftWord | auipc | lui | register | registerWord
  | fence | fenceI => exact .inr ⟨_, _, _, rfl⟩
  | jal | jalr =>
      simp only [execute, bind_apply, readRegister_apply, jump_apply]
      split
      · exact .inr ⟨_, _, _, rfl⟩
      · exact .inl ⟨_, rfl⟩
  | branch =>
      simp only [execute, bind_apply, readRegister_apply, branch_apply]
      split
      · exact .inr ⟨_, _, _, rfl⟩
      · split
        · exact .inr ⟨_, _, _, rfl⟩
        · exact .inl ⟨_, rfl⟩
  | load =>
      rw [execute_load]
      split
      · split
        · exact .inr ⟨_, _, _, rfl⟩
        · exact .inl ⟨_, rfl⟩
      · exact .inl ⟨_, rfl⟩
  | store =>
      simp only [execute, bind_apply, readRegister_apply, store_apply]
      split
      · split
        · exact .inr ⟨_, _, _, rfl⟩
        · exact .inl ⟨_, rfl⟩
      · exact .inl ⟨_, rfl⟩
  | ecall => exact .inl ⟨_, call_apply hart⟩
  | ebreak => exact .inl ⟨_, rfl⟩
  | wfi =>
      simp only [execute, requireMode_apply]
      split
      · exact .inl ⟨_, rfl⟩
      · exact .inr ⟨_, _, _, rfl⟩

theorem execute_csr (op : CsrOp) (dest : Register) (operand : CsrOperand)
    (number : BitVec 12) :
    (∃ fault, execute pc bits (.csr op dest operand number) hart = .error fault hart) ∨
      ∃ csrs old,
        (csrs = hart.csrs ∨
          ∃ new, CsrFile.write (number.setWidth 16) new hart.mode hart.csrs = .ok () csrs) ∧
        execute pc bits (.csr op dest operand number) hart =
          .ok () ({ hart with csrs }.setRegister dest old) := by
  simp only [execute, changeCsr_apply]
  split
  · exact .inl ⟨_, rfl⟩
  · split
    · exact .inl ⟨_, rfl⟩
    · rename_i written
      refine .inr ⟨_, _, ?_, rfl⟩
      split at written
      · exact .inr ⟨_, written⟩
      · cases written
        exact .inl rfl

theorem execute_mret :
    execute pc bits .mret hart =
      if hart.mode < .machine then .error ⟨.illegalInstruction, bits.value⟩ hart
      else
        .ok ()
          { hart.setStatus hart.csrs.status.leave with
            mode := hart.csrs.status.mpp
            pc := hart.csrs.machine.epc } :=
  returnFromMachine_apply bits hart

theorem execute_sret :
    execute pc bits .sret hart =
      if hart.mode < .supervisor then .error ⟨.illegalInstruction, bits.value⟩ hart
      else
        .ok ()
          { hart.setStatus hart.csrs.status.leaveSupervisor with
            mode := hart.csrs.status.spp
            pc := hart.csrs.supervisor.epc } :=
  returnFromSupervisor_apply bits hart

/-- A fault comes before every change. -/
theorem execute_error_or_ok (instruction : Instruction) :
    (∃ fault, execute pc bits instruction hart = .error fault hart) ∨
      ∃ after, execute pc bits instruction hart = .ok () after := by
  by_cases plain : instruction.usesCsrs = false
  · rcases execute_plain pc bits hart plain with fault | ⟨_, _, _, completes⟩
    · exact .inl fault
    · exact .inr ⟨_, completes⟩
  · cases instruction with
    | csr op dest operand number =>
        rcases execute_csr pc bits hart op dest operand number with
          fault | ⟨_, _, _, completes⟩
        · exact .inl fault
        · exact .inr ⟨_, completes⟩
    | mret =>
        rw [execute_mret]
        split
        · exact .inl ⟨_, rfl⟩
        · exact .inr ⟨_, rfl⟩
    | sret =>
        rw [execute_sret]
        split
        · exact .inl ⟨_, rfl⟩
        · exact .inr ⟨_, rfl⟩
    | _ => exact absurd rfl plain

theorem execute_error {instruction : Instruction} {fault : Fault x} {after : Hart x}
    (fails : execute pc bits instruction hart = .error fault after) : after = hart := by
  rcases execute_error_or_ok pc bits hart instruction with ⟨_, unchanged⟩ | ⟨_, completes⟩
  · rw [unchanged] at fails
    cases fails
    rfl
  · rw [completes] at fails
    cases fails

end Hart

end RiscV
