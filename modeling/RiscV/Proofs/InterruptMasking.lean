import RiscV.Proofs.InterruptSelection
import RiscV.Proofs.TrapEntry

/-!
# Interrupts within handlers

A trap masks interrupts: it enters machine mode with interrupts disabled.  They stay masked through
further traps and other instructions, whatever becomes pending or enabled, until an instruction
completes that returns from a trap or writes the machine status register.
-/

namespace RiscV

namespace Instruction

/-- Whether interrupts can be open once the instruction completes: it returns from a trap, or writes
the machine status register. -/
def unmasks : Instruction → Bool
  | mret | sret => true
  | csr op _ operand number =>
      (op == .csrrw || operand.field != 0) && number.setWidth 16 == Csr.mstatus.number
  | _ => false

end Instruction

theorem CsrFile.mie_of_assign? {x : Xlen} {file after : CsrFile x} {csr : Csr} {value : Word x}
    (other : csr ≠ .mstatus) (assigned : file.assign? csr value = some after) :
    after.status.mie = file.status.mie := by
  cases csr with
  | mstatus => exact absurd rfl other
  | mcycle | minstret | mcycleh | minstreth | cycle | instret | cycleh | instreth =>
      obtain ⟨_, _, rfl⟩ := counters_of_assign? rfl assigned
      rfl
  | mvendorid | marchid | mimpid | mhartid => cases assigned
  | _ =>
      cases assigned
      rfl

namespace Hart

open Execution

variable {x : Xlen} {hart after : Hart x}

/-- No interrupt can be taken, be it pending and enabled or not. -/
structure Masked (hart : Hart x) : Prop where
  mode : hart.mode = .machine
  mie : hart.csrs.status.mie = false

/-- The request completes an instruction after which interrupts can be open. -/
def Unmasks (hart : Hart x) (request : Request x) : Prop :=
  ∃ call instruction, request = .call call ∧ (hart.answer call).1 = .retired ∧
    hart.instruction? call = some instruction ∧ instruction.unmasks = true

theorem masked_trapped (hart : Hart x) (cause : Cause) (value : Word x) :
    (hart.trapped cause value).2.Masked := ⟨rfl, rfl⟩

namespace Masked

theorem ne_interrupt (masked : hart.Masked) (interrupt : Interrupt) (epc value : Word x) :
    hart.step.1 ≠ .trap (.interrupt interrupt) epc value := by
  intro traps
  obtain ⟨isOpen, -⟩ := interrupt?_eq_some_iff.mp (step_interrupt_iff.mp ⟨epc, value, traps⟩)
  rcases isOpen with lower | enabled
  · rw [masked.mode] at lower
    exact absurd lower (by decide)
  · rw [masked.mie] at enabled
    cases enabled

theorem execute_csr (masked : hart.Masked) {pc : Word x} {bits : InstructionBits} {op : CsrOp}
    {dest : Register} {operand : CsrOperand} {number : BitVec 12}
    (keeps : (Instruction.csr op dest operand number).unmasks = false)
    (completes : Hart.execute pc bits (.csr op dest operand number) hart = .ok () after) :
    after.Masked := by
  have csrs := execute_csr_csrs completes
  have mode : after.mode = hart.mode := by
    rcases Hart.execute_csr pc bits hart op dest operand number with
      ⟨_, fails⟩ | ⟨_, _, _, changed⟩
    · cases fails.symm.trans completes
    · cases changed.symm.trans completes
      rfl
  refine ⟨mode.trans masked.mode, ?_⟩
  rw [csrs, instructionOperations]
  split
  · rename_i writes
    have other : number.setWidth 16 ≠ Csr.mstatus.number := by
      intro named
      simp [Instruction.unmasks, named] at keeps
      exact keeps.elim fun exchange zero => writes.elim exchange (· zero)
    rcases hart.csrs.operate_write_cases _ _ _ with same | ⟨csr, named, -, assigned⟩
    · exact (congrArg (·.status.mie) same).trans masked.mie
    · have apart : csr ≠ .mstatus := fun same => other (named.symm.trans (congrArg _ same))
      exact (CsrFile.mie_of_assign? apart assigned).trans masked.mie
  · exact masked.mie

theorem execute (masked : hart.Masked) {pc : Word x} {bits : InstructionBits}
    {instruction : Instruction} (keeps : instruction.unmasks = false)
    (completes : Hart.execute pc bits instruction hart = .ok () after) : after.Masked := by
  by_cases plain : instruction.usesCsrs = false
  · rcases execute_plain pc bits hart plain with ⟨_, fails⟩ | ⟨_, _, _, changed⟩
    · cases fails.symm.trans completes
    · cases changed.symm.trans completes
      exact ⟨masked.mode, masked.mie⟩
  · cases instruction with
    | csr => exact masked.execute_csr keeps completes
    | mret | sret => cases keeps
    | _ => exact absurd rfl plain

/-- A call keeps interrupts masked, unless it completes an instruction that unmasks them. -/
theorem answer (masked : hart.Masked) {call : Call} (keeps : ¬ hart.Unmasks (.call call)) :
    (hart.answer call).2.Masked := by
  rcases answer_cases hart call with
    ⟨cause, value, trap⟩ | ⟨bits, instruction, after, origin, decoded, completes, answered⟩
  · rw [trap]
    exact masked_trapped hart cause value
  · have known := instruction?_of_decode? origin decoded
    have retires : (hart.answer call).1 = .retired := congrArg Prod.fst answered
    have keeps' : instruction.unmasks = false :=
      Bool.eq_false_iff.mpr fun unmasks => keeps ⟨call, instruction, rfl, retires, known, unmasks⟩
    have advanced : (hart.advanced bits).Masked := ⟨masked.mode, masked.mie⟩
    have executed := advanced.execute keeps' completes
    rw [answered]
    exact ⟨executed.mode, executed.mie⟩

/-- So does every other request that is no operation on the control registers. -/
theorem serve (masked : hart.Masked) {request : Request x} (keeps : ¬ hart.Unmasks request)
    (other : ∀ operation, request ≠ .onCsrs operation) : (hart.serve request).Masked := by
  cases request with
  | call call => exact masked.answer keeps
  | enterTrap | reset => exact ⟨rfl, rfl⟩
  | selfTest =>
      rw [Hart.serve, selfTest_snd]
      split
      · exact ⟨rfl, rfl⟩
      · exact masked
  | setPc | setRegisters | setMemory | setPending => exact ⟨masked.mode, masked.mie⟩
  | onCsrs operation => exact absurd rfl (other operation)

theorem served_or_unmasks (masked : hart.Masked) {requests : List (Request x)}
    (other : ∀ operation, .onCsrs operation ∉ requests) :
    (served requests hart).Masked ∨
      ∃ earlier request later, requests = earlier ++ request :: later ∧
        (served earlier hart).Unmasks request := by
  induction requests generalizing hart with
  | nil => exact .inl masked
  | cons request requests ih =>
      by_cases unmasks : hart.Unmasks request
      · exact .inr ⟨[], request, requests, rfl, unmasks⟩
      · have first : ∀ operation, request ≠ .onCsrs operation := fun operation same =>
          other operation (same ▸ List.mem_cons_self)
        have rest : ∀ operation, .onCsrs operation ∉ requests := fun operation member =>
          other operation (List.mem_cons_of_mem request member)
        rcases ih (masked.serve unmasks first) rest with
          remains | ⟨earlier, request', later, split, unmasks'⟩
        · exact .inl remains
        · exact .inr ⟨request :: earlier, request', later, congrArg (request :: ·) split, unmasks'⟩

end Masked

/-- After a step that traps, whatever is done to the hart but operations on its control registers,
no step takes an interrupt before an instruction has completed that returns from a trap or writes
the machine status register. -/
theorem masked_until_unmasks {hart : Hart x} {cause : Cause} {epc value : Word x}
    (traps : hart.step.1 = .trap cause epc value) {requests : List (Request x)}
    (other : ∀ operation, .onCsrs operation ∉ requests) {interrupt : Interrupt}
    {epc' value' : Word x}
    (taken : (served requests hart.step.2).step.1 = .trap (.interrupt interrupt) epc' value') :
    ∃ earlier request later, requests = earlier ++ request :: later ∧
      (served earlier hart.step.2).Unmasks request := by
  have ends : hart.answer .step = (.trap cause epc value, hart.step.2) := Prod.ext traps rfl
  have entered := congrArg Prod.snd (eq_trapped ends).2
  have masked : hart.step.2.Masked := entered ▸ masked_trapped hart cause value
  rcases masked.served_or_unmasks other with remains | unmasks
  · exact absurd taken (remains.ne_interrupt interrupt epc' value')
  · exact unmasks

/-- A handler that calls the environment is left by a second trap, and then opens interrupts by
hand. -/
theorem masked_until_unmasks_set :
    let hart : Hart .rv32 :=
      { initial { memorySize := 0 } with
        memory := ⟨⟨#[0x73, 0x00, 0x00, 0x00, 0x73, 0x60, 0x04, 0x30]⟩⟩
        csrs :=
          { CsrFile.initial true with
            status := { Status.initial with mie := true }
            interrupts := ⟨0x080, 0x080⟩ } }
    let requests : List (Request .rv32) :=
      [.call .step, .setPending .machineSoftware true, .setPc 4, .call .step]
    hart.step.1 = .trap (.interrupt .machineTimer) 0 0 ∧
      (∀ operation, .onCsrs operation ∉ requests) ∧
      (served requests hart.step.2).step.1 = .trap (.interrupt .machineTimer) 8 0 ∧
      ∃ earlier request later, requests = earlier ++ request :: later ∧
        (served earlier hart.step.2).Unmasks request := by
  intro hart requests
  have traps : hart.step.1 = .trap (.interrupt .machineTimer) 0 0 := by decide
  have other : ∀ operation, .onCsrs operation ∉ requests := by
    intro operation member
    simp only [requests, List.mem_cons, List.not_mem_nil, reduceCtorEq, or_self] at member
  have taken : (served requests hart.step.2).step.1 = .trap (.interrupt .machineTimer) 8 0 := by
    decide
  exact ⟨traps, other, taken, masked_until_unmasks traps other taken⟩

end Hart

end RiscV
