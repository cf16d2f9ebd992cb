import RiscV.Hart.Trace
import RiscV.Proofs.Checked.Decoding
import RiscV.Proofs.Checked.Execution
import RiscV.Proofs.Checked.Expansion
import RiscV.Proofs.Encoding
import RiscV.Proofs.Expansion
import RiscV.Proofs.Request

/-!
# Checked steps

Fetching, decoding and executing instructions, taking traps and telling of them, with every
operation checked.  None of it ever meets an undefined operation, whatever the state of the hart
and whatever the bits, and the results are those of the hart itself.
-/

namespace RiscV

namespace Checked

open Checked.Action

variable {x : Xlen}

/-! ## Text -/

/-- The instruction that the bits mean, on registers of the given width. -/
def meaning? (x : Xlen) : InstructionBits → Checked (Option Instruction)
  | .short code => do
      match ← expand? x code with
      | some word => return (← decode x word).toOption
      | none => return none
  | .long word => do return (← decode x word).toOption

/-- The operands of an instruction.  Those of upper immediates are shifted into their place. -/
def operands : Instruction → Checked (List Assembly.Operand)
  | .auipc dest upper | .lui dest upper => do
      let value ← shiftRight (upper ++ 0#12) 12
      return [.register dest, .hex value.toNat]
  | instruction => return instruction.operands

/-- The assembly text of the bits. -/
def text (x : Xlen) (bits : InstructionBits) : Checked String := do
  match ← meaning? x bits with
  | some instruction =>
      match ← operands instruction with
      | [] => return instruction.mnemonic
      | operands =>
          return instruction.mnemonic ++ " " ++ ", ".intercalate (operands.map (·.text))
  | none =>
      match bits with
      | .short code => return "unknown " ++ Text.Numeral.hex 4 code.toNat
      | .long word => return "unknown " ++ Text.Numeral.hex 8 word.toNat

/-- The assembly text of the instruction at the start of a word. -/
def disassemble (x : Xlen) (word : BitVec 32) : Checked String := text x (.ofWord word)

section Texts

variable (x)

theorem meaning?_eq (bits : InstructionBits) : meaning? x bits = .ok (bits.meaning? x) := by
  cases bits with
  | short code =>
      rw [meaning?, expand?_eq, ok_bind, InstructionBits.meaning?]
      cases expanded : Compressed.expand? x code with
      | none => rfl
      | some instruction =>
          have wellFormed := (Compressed.compressible_of_expand? expanded).wellFormed
          rw [Option.map_some]
          simp only [decode_eq, ok_bind, Instruction.decode_encode wellFormed]
          rfl
  | long word =>
      rw [meaning?, decode_eq]
      rfl

theorem operands_eq (instruction : Instruction) :
    operands instruction = .ok instruction.operands := by
  have shifted (upper : BitVec 20) : ((upper ++ 0#12) >>> 12).toNat = upper.toNat := by
    rw [BitVec.toNat_ushiftRight, BitVec.toNat_append, BitVec.toNat_ofNat, Nat.zero_mod,
      Nat.or_zero, Nat.shiftLeft_shiftRight]
  cases instruction with
  | auipc dest upper | lui dest upper =>
      rw [operands, shiftRight_eq (by decide), ok_bind, shifted]
      rfl
  | _ => rfl

theorem text_eq (bits : InstructionBits) : text x bits = .ok (bits.text x) := by
  unfold text InstructionBits.text
  rw [meaning?_eq, ok_bind]
  cases bits.meaning? x with
  | none => cases bits <;> rfl
  | some instruction =>
      unfold Instruction.text
      simp only [operands_eq, ok_bind]
      cases instruction.operands <;> rfl

/-- Every word has a text. -/
theorem disassemble_eq (word : BitVec 32) :
    disassemble x word = .ok (RiscV.disassemble x word) := text_eq x _

end Texts

/-! ## Fetching -/

/-- The parcel at an address. -/
def fetchParcel (hart : Hart x) (address : Word x) : Checked (Except (Fault x) (BitVec 16)) := do
  return (← load hart.memory .halfword address.toDouble).mapError fun _ =>
    ⟨.instructionAccessFault, address⟩

/-- The bits of the instruction at an address. -/
def fetch (hart : Hart x) (address : Word x) : Checked (Except (Fault x) InstructionBits) := do
  if ← aligned hart.config.alignment address.toDouble then
    match ← fetchParcel hart address with
    | .error fault => return .error fault
    | .ok low =>
        if Compressed.isShort low then return .ok (.short low)
        else
          match ← fetchParcel hart (address + 2) with
          | .error fault => return .error fault
          | .ok high =>
              return .ok (.long ((← shiftLeft (high.setWidth 32) 16) ||| low.setWidth 32))
  else return .error ⟨.instructionAddressMisaligned, address⟩

/-- The instruction that the bits mean to the hart. -/
def decode? (hart : Hart x) (bits : InstructionBits) : Checked (Option Instruction) := do
  if bits.size = 2 ∧ ¬ hart.config.compressed then return none
  else
    return (← meaning? x bits).filter fun instruction =>
      instruction.registers.all fun register => hart.registers.Contains register

theorem fetchParcel_eq (hart : Hart x) (address : Word x) :
    fetchParcel hart address = .ok (hart.fetchParcel address) := by
  rw [fetchParcel, load_eq]
  rfl

theorem fetch_eq (hart : Hart x) (address : Word x) :
    fetch hart address = .ok (hart.fetch address) := by
  have joined (high low : BitVec 16) :
      high.setWidth 32 <<< 16 ||| low.setWidth 32 = high ++ low := by
    rw [← setWidth_append_eq_or]
    exact BitVec.setWidth_eq _
  unfold fetch Hart.fetch
  rw [aligned_eq, ok_bind]
  by_cases aligned : hart.config.alignment.Aligned address.toNat
  · simp only [aligned, decide_true, if_true, not_true, if_false, fetchParcel_eq, ok_bind]
    cases hart.fetchParcel address with
    | error fault => rfl
    | ok low =>
        change _ = Except.ok (if Compressed.isShort low then .ok (InstructionBits.short low)
          else hart.fetchParcel (address + 2) >>= fun high =>
            .ok (InstructionBits.long (high ++ low)))
        cases short : Compressed.isShort low with
        | true =>
            simp only [short]
            rfl
        | false =>
            simp only [short, shiftLeft_eq (by decide : 16 < 32), ok_bind, joined]
            cases hart.fetchParcel (address + 2) <;> rfl
  · simp only [aligned, decide_false, Bool.false_eq_true, if_false, not_false_eq_true, if_true]
    rfl

theorem decode?_eq (hart : Hart x) (bits : InstructionBits) :
    decode? hart bits = .ok (hart.decode? bits) := by
  unfold decode? Hart.decode?
  split
  · rfl
  · rw [meaning?_eq]
    rfl

/-! ## Performing -/

/-- Decodes and executes the bits of the instruction at `pc`. -/
def executeBits (pc : Word x) (bits : InstructionBits) : Action x Unit := do
  let hart ← defined get
  match ← value (decode? hart bits) with
  | some instruction => execute pc bits instruction
  | none => defined (Execution.raise .illegalInstruction bits.value)

/-- Performs an instruction as if it had been fetched at the program counter, and tells of it. -/
def perform (hart : Hart x) (bits : InstructionBits) :
    Checked (Outcome x × Hart x × List Record) := do
  match ← executeBits hart.pc bits (hart.setPc (hart.pc + BitVec.ofNat x.bits bits.size)) with
  | (.ok (), after) =>
      let line := Text.Numeral.hex 8 hart.pc.toNat ++ ": " ++ (← text x bits)
      return (.retired, after.retire, [{ severity := .trace, text := line }])
  | (.error fault, after) =>
      let (outcome, next) ← takeException after hart.pc fault
      return (outcome, next, Trace.ofPerform hart bits outcome)

/-- Takes an interrupt, which takes a cycle, or performs the next instruction, and tells of it. -/
def step (hart : Hart x) : Checked (Outcome x × Hart x × List Record) := do
  match ← interrupt? hart with
  | some interrupt =>
      let next ← enterTrap hart (.interrupt interrupt) hart.pc 0
      return (.trap (.interrupt interrupt) hart.pc 0, next.tick,
        [Trace.trap (.interrupt interrupt) hart.pc 0])
  | none =>
      match ← fetch hart hart.pc with
      | .ok bits => perform hart bits
      | .error fault =>
          let (outcome, next) ← takeException hart hart.pc fault
          return (outcome, next, Trace.ofStep hart outcome)

theorem executeBits_eq (pc : Word x) (bits : InstructionBits) :
    executeBits pc bits = defined (Hart.executeBits pc bits) := by
  funext hart
  simp only [executeBits, Hart.executeBits, bind_apply, defined_apply, Execution.bind_apply,
    Execution.get_apply, ok_bind, decode?_eq, value_ok, Action.pure_apply]
  cases hart.decode? bits with
  | none => rfl
  | some instruction => simp only [execute_eq, defined_apply]

/-- Performing bits never meets an undefined operation. -/
theorem perform_eq (hart : Hart x) (bits : InstructionBits) :
    perform hart bits =
      .ok ((hart.perform bits).1, (hart.perform bits).2,
        Trace.ofPerform hart bits (hart.perform bits).1) := by
  rw [perform, executeBits_eq, defined_apply, Hart.perform]
  cases Hart.executeBits hart.pc bits
      (hart.setPc (hart.pc + BitVec.ofNat x.bits bits.size)) with
  | ok _ after =>
      rw [ok_bind, text_eq]
      rfl
  | error fault after =>
      simp only [ok_bind, takeException_eq]
      rfl

/-- A step never meets an undefined operation. -/
theorem step_eq (hart : Hart x) :
    step hart = .ok (hart.step.1, hart.step.2, Trace.ofStep hart hart.step.1) := by
  rw [step, interrupt?_eq, ok_bind, Hart.step]
  cases hart.interrupt? with
  | some interrupt =>
      simp only [enterTrap_eq, ok_bind]
      rfl
  | none =>
      simp only [fetch_eq, ok_bind]
      cases fetched : hart.fetch hart.pc with
      | ok bits =>
          have told (outcome : Outcome x) :
              Trace.ofPerform hart bits outcome = Trace.ofStep hart outcome := by
            cases outcome <;> simp [Trace.ofPerform, Trace.ofStep, fetched]
          exact (perform_eq hart bits).trans (by rw [told])
      | error fault =>
          simp only [takeException_eq, ok_bind]
          rfl

/-! ## Requests -/

/-- What the hart does on a call, and tells of it. -/
def answer (hart : Hart x) : Call → Checked (Outcome x × Hart x × List Record)
  | .step => step hart
  | .perform bits => perform hart bits

/-- The hart after a number of steps. -/
def steps : (count : Nat) → Hart x → Checked (Hart x)
  | 0, hart => return hart
  | count + 1, hart => do steps count (← step hart).2.1

/-- The hart after a request. -/
def serve (hart : Hart x) : Request x → Checked (Hart x)
  | .call call => do return (← answer hart call).2.1
  | .enterTrap cause epc value => enterTrap hart cause epc value
  | .selfTest => do
      if SelfTest.Possible hart then
        return SelfTest.cleared (← steps SelfTest.program.length (SelfTest.prepared hart))
      else return hart
  | .reset => do return { hart.reset with csrs := ← onWords hart.csrs (·.operate .reset) }
  | .setPending interrupt isPending => do
      return { hart with
        csrs := ← onWords hart.csrs (·.operate (.setPending interrupt isPending)) }
  | .onCsrs operation => do
      return { hart with csrs := ← onWords hart.csrs (·.operate operation) }
  -- The others do not compute anything.
  | request => return hart.serve request

/-- The hart after a list of requests. -/
def served : List (Request x) → Hart x → Checked (Hart x)
  | [], hart => return hart
  | request :: requests, hart => do served requests (← serve hart request)

theorem answer_eq (hart : Hart x) (call : Call) :
    ∃ told, answer hart call = .ok ((hart.answer call).1, (hart.answer call).2, told) := by
  cases call with
  | step => exact ⟨_, step_eq hart⟩
  | perform bits => exact ⟨_, perform_eq hart bits⟩

theorem steps_eq (count : Nat) (hart : Hart x) : steps count hart = .ok (hart.walk count).2 := by
  induction count generalizing hart with
  | zero => rfl
  | succ count ih =>
      rw [steps, step_eq]
      exact ih _

theorem serve_eq (hart : Hart x) (request : Request x) :
    serve hart request = .ok (hart.serve request) := by
  cases request with
  | call call =>
      obtain ⟨told, answered⟩ := answer_eq hart call
      rw [serve, answered]
      rfl
  | enterTrap cause epc value => exact enterTrap_eq hart cause epc value
  | selfTest =>
      rw [serve, steps_eq, Hart.serve, Hart.selfTest]
      split <;> rfl
  | reset | setPending | onCsrs =>
      rw [serve, onWords_operate]
      rfl
  | _ => rfl

theorem served_eq (requests : List (Request x)) (hart : Hart x) :
    served requests hart = .ok (Hart.served requests hart) := by
  induction requests generalizing hart with
  | nil => rfl
  | cons request requests ih =>
      rw [served, serve_eq, ok_bind]
      exact ih _

end Checked

/-- Whatever a hart has been asked to do, none of this ever meets an undefined operation, and what
it gives is what it gives without checks: requests, steps with what is told of them, performing
bits given from outside, expanding and disassembling bits, access to control registers, and
clearing memory.  The bounds of accesses to memory are found in 64 bits if its size has as many. -/
theorem Hart.never_undefined (x : Xlen) :
    (∀ (requests : List (Request x)) hart,
      Checked.served requests hart = .ok (served requests hart)) ∧
    (∀ hart : Hart x,
      Checked.step hart = .ok (hart.step.1, hart.step.2, Trace.ofStep hart hart.step.1)) ∧
    (∀ (hart : Hart x) bits,
      Checked.perform hart bits =
        .ok ((hart.perform bits).1, (hart.perform bits).2,
          Trace.ofPerform hart bits (hart.perform bits).1)) ∧
    (∀ code,
      Checked.expand? x code = .ok ((Compressed.expand? x code).map Instruction.encode)) ∧
    (∀ word, Checked.disassemble x word = .ok (disassemble x word)) ∧
    (∀ (file : CsrFile x) number mode,
      Checked.readCsr file number mode = .ok (file.read number mode)) ∧
    (∀ (file : CsrFile x) number value mode,
      Checked.writeCsr number value mode file = .ok (CsrFile.write number value mode file)) ∧
    (∀ memory address count,
      Checked.clear address count memory =
        .ok (Memory.clear address.toNat count.toNat memory)) ∧
    ∀ (memory : Memory) address count, memory.size < 2 ^ 64 →
      Checked.stopIn? memory address count =
        (Checked.stop? memory.size address count).map BitVec.toNat :=
  ⟨Checked.served_eq, Checked.step_eq, Checked.perform_eq, Checked.expand?_eq x,
    Checked.disassemble_eq x, Checked.readCsr_eq, Checked.writeCsr_eq, Checked.clear_eq,
    Checked.stopIn?_of_lt⟩

end RiscV
