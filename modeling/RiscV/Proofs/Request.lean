import RiscV.Hart.SelfTest
import RiscV.Proofs.Call
import RiscV.Proofs.CsrOperation

/-!
# Requests

Everything that can be done to a hart from outside.  Whatever is asked of it, its control registers
change by operations on them, which the hart alone decides; and the calls that it answers on the
way, those of a self test included, are the events of the request.
-/

namespace RiscV

/-- Something that is done to a hart from outside. -/
inductive Request (x : Xlen) where
  | call (call : Call)
  | enterTrap (cause : Cause) (epc value : Word x)
  | reset
  | selfTest
  | setPc (pc : Word x)
  /-- Any change of the registers. -/
  | setRegisters (registers : Registers x)
  /-- Any change of the memory. -/
  | setMemory (memory : Memory)
  | setPending (interrupt : Interrupt) (isPending : Bool)
  | onCsrs (operation : CsrOperation x)

namespace Hart

open Execution

variable {x : Xlen}

/-- The hart after a request. -/
def serve (hart : Hart x) : Request x → Hart x
  | .call call => (hart.answer call).2
  | .enterTrap cause epc value => hart.enterTrap cause epc value
  | .reset => hart.reset
  | .selfTest => hart.selfTest.2
  | .setPc pc => hart.setPc pc
  | .setRegisters registers => { hart with registers }
  | .setMemory memory => { hart with memory }
  | .setPending interrupt isPending => hart.setPending interrupt isPending
  | .onCsrs operation => { hart with csrs := hart.csrs.operate operation }

/-- The hart after a list of requests. -/
def served : List (Request x) → Hart x → Hart x
  | [], hart => hart
  | request :: requests, hart => served requests (hart.serve request)

/-- What a list of requests leads to, request by request. -/
def collect {α : Type} (f : Hart x → Request x → List α) : List (Request x) → Hart x → List α
  | [], _ => []
  | request :: requests, hart => f hart request ++ collect f requests (hart.serve request)

theorem mem_collect {α : Type} {f : Hart x → Request x → List α} {requests : List (Request x)}
    {hart : Hart x} {result : α} (member : result ∈ collect f requests hart) :
    ∃ earlier request later, requests = earlier ++ request :: later ∧
      result ∈ f (served earlier hart) request := by
  induction requests generalizing hart with
  | nil => cases member
  | cons request requests ih =>
      rcases List.mem_append.mp member with here | later
      · exact ⟨[], request, requests, rfl, here⟩
      · obtain ⟨earlier, request', later, split, found⟩ := ih later
        exact ⟨request :: earlier, request', later, congrArg (request :: ·) split, found⟩

/-! ## Operations on control registers -/

/-- The operations by which a trap is entered. -/
def entryOperations (hart : Hart x) (cause : Cause) (epc value : Word x) :
    List (CsrOperation x) :=
  [.setEpc .machine epc, .setCause .machine cause.toWord, .setTrapValue .machine value,
    .status (.enter hart.mode)]

/-- The instruction that a call is about, unless it cannot be fetched or decoded. -/
def instruction? (hart : Hart x) : Call → Option Instruction
  | .step => (hart.fetch hart.pc).toOption.bind hart.decode?
  | .perform bits => hart.decode? bits

/-- The operations of an instruction that completes. -/
def instructionOperations (hart : Hart x) : Instruction → List (CsrOperation x)
  | .csr op _ operand number =>
      if op = .csrrw ∨ operand.field ≠ 0 then
        let number : CsrNumber := number.setWidth 16
        let old := (hart.csrs.peekNumber? number).getD 0
        [.write number (op.eval old (operandValue hart.registers operand)) hart.mode]
      else []
  | .mret => [.status .leave]
  | .sret => [.status .leaveSupervisor]
  | _ => []

/-- The operations of a call. -/
def callOperations (hart : Hart x) (call : Call) : List (CsrOperation x) :=
  match (hart.answer call).1 with
  | .trap cause epc value => hart.entryOperations cause epc value ++ [.tick]
  | .retired => ((hart.instruction? call).elim [] hart.instructionOperations) ++ [.retire]

/-- The operations of a request.  A self test leaves nothing behind but a reset. -/
def operations (hart : Hart x) : Request x → List (CsrOperation x)
  | .call call => hart.callOperations call
  | .enterTrap cause epc value => hart.entryOperations cause epc value
  | .reset => [.reset]
  | .selfTest => if SelfTest.Possible hart then [.reset] else []
  | .setPc _ | .setRegisters _ | .setMemory _ => []
  | .setPending interrupt isPending => [.setPending interrupt isPending]
  | .onCsrs operation => [operation]

theorem enterTrap_csrs (hart : Hart x) (cause : Cause) (epc value : Word x) :
    (hart.enterTrap cause epc value).csrs =
      CsrFile.operateAll (hart.entryOperations cause epc value) hart.csrs := rfl

theorem instructionOperations_plain (hart : Hart x) {instruction : Instruction}
    (plain : instruction.usesCsrs = false) : hart.instructionOperations instruction = [] := by
  cases instruction with
  | csr | mret | sret => cases plain
  | _ => rfl

theorem execute_csr_csrs {hart after : Hart x} {pc : Word x} {bits : InstructionBits} {op : CsrOp}
    {dest : Register} {operand : CsrOperand} {number : BitVec 12}
    (completes : execute pc bits (.csr op dest operand number) hart = .ok () after) :
    after.csrs =
      CsrFile.operateAll (hart.instructionOperations (.csr op dest operand number)) hart.csrs := by
  simp only [execute, changeCsr_apply] at completes
  split at completes
  · cases completes
  · rename_i old read
    have value : op.eval old (operandValue hart.registers operand) =
        op.eval ((hart.csrs.peekNumber? (number.setWidth 16)).getD 0)
          (operandValue hart.registers operand) := by
      split at read
      · rename_i blind
        rw [blind.1]
        rfl
      · have peeked := (CsrFile.read_eq_ok_iff.mp read).2.2
        rw [peeked, Option.getD_some]
    split at completes
    · cases completes
    · rename_i csrs written
      cases completes
      rw [value] at written
      split at written
      · rename_i writes
        simp only [instructionOperations, if_pos writes, CsrFile.operateAll, List.foldl_cons,
          List.foldl_nil, CsrFile.operate, written]
        rfl
      · rename_i reads
        cases written
        simp only [instructionOperations, if_neg reads]
        rfl

theorem execute_csrs {hart after : Hart x} {pc : Word x} {bits : InstructionBits}
    {instruction : Instruction} (completes : execute pc bits instruction hart = .ok () after) :
    after.csrs =
      CsrFile.operateAll (hart.instructionOperations instruction) hart.csrs := by
  by_cases plain : instruction.usesCsrs = false
  · rcases execute_plain pc bits hart plain with ⟨_, fails⟩ | ⟨_, _, _, changed⟩
    · cases fails.symm.trans completes
    · cases changed.symm.trans completes
      rw [hart.instructionOperations_plain plain]
      rfl
  · cases instruction with
    | csr => exact execute_csr_csrs completes
    | mret =>
        rw [execute_mret] at completes
        split at completes
        · cases completes
        · cases completes
          rfl
    | sret =>
        rw [execute_sret] at completes
        split at completes
        · cases completes
        · cases completes
          rfl
    | _ => exact absurd rfl plain

/-- A call that performs bits is about the instruction that they mean. -/
theorem instruction?_of_decode? {hart : Hart x} {call : Call} {bits : InstructionBits}
    {instruction : Instruction}
    (origin : call = .perform bits ∨
      call = .step ∧ hart.interrupt? = none ∧ hart.fetch hart.pc = .ok bits)
    (decoded : hart.decode? bits = some instruction) :
    hart.instruction? call = some instruction := by
  rcases origin with rfl | ⟨rfl, -, fetched⟩
  · exact decoded
  · simp only [instruction?, fetched]
    exact decoded

theorem answer_csrs (hart : Hart x) (call : Call) :
    (hart.answer call).2.csrs = CsrFile.operateAll (hart.callOperations call) hart.csrs := by
  rcases answer_cases hart call with
    ⟨cause, value, trap⟩ | ⟨bits, instruction, after, origin, decoded, completes, answered⟩
  · have entered : hart.callOperations call =
        hart.entryOperations cause hart.pc value ++ [.tick] := by
      rw [callOperations, trap]
      rfl
    rw [entered, CsrFile.operateAll_append, ← enterTrap_csrs, trap]
    rfl
  · have known := instruction?_of_decode? origin decoded
    have executed := execute_csrs completes
    simp only [callOperations, answered, known, Option.elim_some]
    rw [CsrFile.operateAll_append]
    exact congrArg CsrFile.retire executed

theorem answer_compressed (hart : Hart x) (call : Call) :
    (hart.answer call).2.csrs.compressed = hart.csrs.compressed := by
  rw [answer_csrs, CsrFile.compressed_operateAll]

theorem follow_compressed (calls : List Call) (hart : Hart x) :
    (follow calls hart).csrs.compressed = hart.csrs.compressed := by
  induction calls generalizing hart with
  | nil => rfl
  | cons call calls ih => exact (ih _).trans (answer_compressed hart call)

/-- A walk is a list of calls for a step. -/
theorem walk_snd (count : Nat) (hart : Hart x) :
    (hart.walk count).2 = follow (List.replicate count .step) hart := by
  induction count generalizing hart with
  | zero => rfl
  | succ count ih => exact ih _

theorem selfTest_snd (hart : Hart x) :
    hart.selfTest.2 =
      if SelfTest.Possible hart then
        SelfTest.cleared
          (follow (List.replicate SelfTest.program.length .step) (SelfTest.prepared hart))
      else hart := by
  rw [selfTest, ← walk_snd]
  split <;> rfl

/-- The control registers change by the operations of the request. -/
theorem serve_csrs (hart : Hart x) (request : Request x) :
    (hart.serve request).csrs = CsrFile.operateAll (hart.operations request) hart.csrs := by
  cases request with
  | call call => exact answer_csrs hart call
  | selfTest =>
      rw [serve, selfTest_snd, operations]
      split
      -- The steps of the test do not change what the last reset depends on.
      · exact congrArg CsrFile.initial (follow_compressed _ _)
      · rfl
  | enterTrap | reset | setPc | setRegisters | setMemory | setPending | onCsrs => rfl

theorem served_csrs (requests : List (Request x)) (hart : Hart x) :
    (served requests hart).csrs =
      CsrFile.operateAll (collect operations requests hart) hart.csrs := by
  induction requests generalizing hart with
  | nil => rfl
  | cons request requests ih =>
      rw [served, ih, serve_csrs, collect, CsrFile.operateAll_append]

/-! ## Events -/

/-- The calls that a hart answers in the course of a request. -/
def events (hart : Hart x) : Request x → List (Event x)
  | .call call => history [call] hart
  | .selfTest =>
      if SelfTest.Possible hart then
        history (List.replicate SelfTest.program.length .step) (SelfTest.prepared hart)
      else []
  | _ => []

end Hart

end RiscV
