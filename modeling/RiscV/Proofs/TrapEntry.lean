import RiscV.Proofs.Call

/-!
# Traps leave no other trace

Whatever a call was about, a trap leaves memory and registers as they were and changes only what
the handler needs: the trap registers, the fields that the entry saves in the status register, the
program counter, the mode, and the count of cycles.
-/

namespace RiscV

namespace Hart

variable {x : Xlen} {hart after : Hart x} {call : Call} {cause : Cause} {epc value : Word x}

/-- A trap that a call ends in comes out of the hart before the call. -/
theorem eq_trapped (ends : hart.answer call = (.trap cause epc value, after)) :
    epc = hart.pc ∧ (.trap cause epc value, after) = hart.trapped cause value := by
  rcases answer_cases hart call with ⟨_, _, trap⟩ | ⟨_, _, _, _, _, _, completes⟩
  · rw [trap] at ends
    cases ends
    exact ⟨rfl, rfl⟩
  · rw [completes] at ends
    cases ends

/-- A trap changes the machine's trap registers, the status fields that its entry saves, the
program counter, the mode and the count of cycles, and nothing else. -/
theorem answer_of_trap (ends : hart.answer call = (.trap cause epc value, after)) :
    epc = hart.pc ∧
      after =
        { hart with
          csrs :=
            { hart.csrs with
              status :=
                { hart.csrs.status with
                  mie := false
                  mpie := hart.csrs.status.mie
                  mpp := hart.mode }
              machine :=
                { hart.csrs.machine with
                  epc := epc &&& if hart.csrs.compressed then ~~~1 else ~~~3
                  cause := cause.toWord
                  value }
              cycles := hart.csrs.cycles + 1 }
          pc := hart.handlerAddress cause
          mode := .machine } ∧
      Cause.ofWord? after.csrs.machine.cause = some cause := by
  obtain ⟨rfl, entered⟩ := eq_trapped ends
  have after_eq : after = (hart.trapped cause value).2 := congrArg Prod.snd entered
  refine ⟨rfl, ?_, ?_⟩
  · rw [after_eq, ← trapped_pc hart cause value]
    rfl
  · rw [after_eq]
    exact Cause.ofWord?_toWord cause

/-- A jump to a misaligned target traps without leaving its link. -/
theorem answer_of_trap_misaligned_jump :
    let hart : Hart .rv32 := initial { memorySize := 0, compressed := false }
    let answer := hart.answer (.perform (.long 0x002000EF))
    answer.1 = .trap (.exception .instructionAddressMisaligned) 0 2 ∧
      answer.2.registers = hart.registers ∧ answer.2.csrs.machine.value = 2 := by
  intro hart answer
  have ends : hart.answer (.perform (.long 0x002000EF)) =
      (.trap (.exception .instructionAddressMisaligned) 0 2, answer.2) := by decide
  obtain ⟨-, after_eq, -⟩ := answer_of_trap ends
  refine ⟨congrArg Prod.fst ends, ?_, ?_⟩
  · rw [after_eq]
  · rw [after_eq]

end Hart

end RiscV
