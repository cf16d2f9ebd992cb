import RiscV.Hart.Step
import RiscV.Proofs.CsrAccess

/-!
# Actions as functions

Every action of a hart equals an explicit function of the hart it starts from.  The guards come
before the first change, so a fault leaves the hart as it was.  Apart from the instructions on
control registers, what completes changes at most memory, registers and the program counter.
-/

namespace RiscV

theorem Memory.store_apply (size : AccessSize) (address : Nat)
    (value : BitVec (8 * size.bytes)) (memory : Memory) :
    Memory.store size address value memory =
      if memory.Holds address size.bytes then
        .ok ()
          (memory.overwrite address (LittleEndian.ofNat size.bytes value.toNat).toByteArray)
      else .error {} memory := by
  have count : (LittleEndian.ofNat size.bytes value.toNat).toByteArray.size = size.bytes := by
    simp
  simp only [Memory.store, Memory.write, count]

namespace Execution

variable {x : Xlen}

section Monad

variable {α β : Type}

theorem bind_apply (action : Execution x α) (next : α → Execution x β) (hart : Hart x) :
    (action >>= next) hart =
      match action hart with
      | .ok result after => next result after
      | .error fault after => .error fault after := by
  change EStateM.bind action next hart = _
  unfold EStateM.bind
  cases action hart <;> rfl

@[simp]
theorem pure_apply (result : α) (hart : Hart x) :
    (pure result : Execution x α) hart = .ok result hart := rfl

@[simp]
theorem get_apply (hart : Hart x) : (get : Execution x (Hart x)) hart = .ok hart hart := rfl

@[simp]
theorem modify_apply (change : Hart x → Hart x) (hart : Hart x) :
    (modify change : Execution x Unit) hart = .ok () (change hart) := rfl

@[simp]
theorem throw_apply (fault : Fault x) (hart : Hart x) :
    (throw fault : Execution x α) hart = .error fault hart := rfl

@[simp]
theorem raise_apply (exception : Exception) (value : Word x) (hart : Hart x) :
    (raise exception value : Execution x α) hart = .error ⟨exception, value⟩ hart := rfl

end Monad

/-! ## Registers, modes and jumps -/

@[simp]
theorem readRegister_apply (register : Register) (hart : Hart x) :
    readRegister register hart = .ok (hart.registers.read register) hart := rfl

@[simp]
theorem writeRegister_apply (register : Register) (value : Word x) (hart : Hart x) :
    writeRegister register value hart = .ok () (hart.setRegister register value) := rfl

theorem requireMode_apply (mode : Privilege) (bits : InstructionBits) (hart : Hart x) :
    requireMode mode bits hart =
      if hart.mode < mode then .error ⟨.illegalInstruction, bits.value⟩ hart
      else .ok () hart := by
  by_cases below : hart.mode < mode <;> simp [requireMode, bind_apply, below]

theorem requireTarget_apply (target : Word x) (hart : Hart x) :
    requireTarget target hart =
      if hart.config.alignment.Aligned target.toNat then .ok () hart
      else .error ⟨.instructionAddressMisaligned, target⟩ hart := by
  by_cases aligned : hart.config.alignment.Aligned target.toNat <;>
    simp [requireTarget, bind_apply, aligned]

theorem jump_apply (dest : Register) (target : Word x) (hart : Hart x) :
    jump dest target hart =
      if hart.config.alignment.Aligned target.toNat then
        .ok () ((hart.setRegister dest hart.pc).setPc target)
      else .error ⟨.instructionAddressMisaligned, target⟩ hart := by
  by_cases aligned : hart.config.alignment.Aligned target.toNat <;>
    simp [jump, bind_apply, requireTarget_apply, aligned]

theorem branch_apply (taken : Bool) (target : Word x) (hart : Hart x) :
    branch taken target hart =
      if taken = false then .ok () hart
      else if hart.config.alignment.Aligned target.toNat then .ok () (hart.setPc target)
      else .error ⟨.instructionAddressMisaligned, target⟩ hart := by
  cases taken with
  | false => rfl
  | true =>
      by_cases aligned : hart.config.alignment.Aligned target.toNat <;>
        simp [branch, bind_apply, requireTarget_apply, aligned]

theorem call_apply (hart : Hart x) :
    call hart =
      .error
        ⟨match hart.mode with
          | .user => .userCall
          | .supervisor => .supervisorCall
          | .machine => .machineCall, 0⟩
        hart := by
  cases mode : hart.mode <;> simp [call, bind_apply, mode]

theorem returnFromMachine_apply (bits : InstructionBits) (hart : Hart x) :
    returnFromMachine bits hart =
      if hart.mode < .machine then .error ⟨.illegalInstruction, bits.value⟩ hart
      else
        .ok ()
          { hart.setStatus hart.csrs.status.leave with
            mode := hart.csrs.status.mpp
            pc := hart.csrs.machine.epc } := by
  by_cases below : hart.mode < .machine <;>
    simp [returnFromMachine, bind_apply, requireMode_apply, below]

theorem returnFromSupervisor_apply (bits : InstructionBits) (hart : Hart x) :
    returnFromSupervisor bits hart =
      if hart.mode < .supervisor then .error ⟨.illegalInstruction, bits.value⟩ hart
      else
        .ok ()
          { hart.setStatus hart.csrs.status.leaveSupervisor with
            mode := hart.csrs.status.spp
            pc := hart.csrs.supervisor.epc } := by
  by_cases below : hart.mode < .supervisor <;>
    simp [returnFromSupervisor, bind_apply, requireMode_apply, below]

/-! ## Memory -/

theorem requireAligned_apply (size : AccessSize) (address : Word x) (exception : Exception)
    (hart : Hart x) :
    requireAligned size address exception hart =
      if hart.config.misaligned ∨ size.Aligned address.toNat then .ok () hart
      else .error ⟨exception, address⟩ hart := by
  by_cases misaligned : hart.config.misaligned <;>
    by_cases aligned : size.Aligned address.toNat <;>
    simp [requireAligned, bind_apply, misaligned, aligned]

theorem load_apply (size : AccessSize) (address : Word x) (hart : Hart x) :
    load size address hart =
      if hart.config.misaligned ∨ size.Aligned address.toNat then
        match hart.memory.load size address.toNat with
        | .ok value => .ok value hart
        | .error _ => .error ⟨.loadAccessFault, address⟩ hart
      else .error ⟨.loadAddressMisaligned, address⟩ hart := by
  by_cases allowed : hart.config.misaligned ∨ size.Aligned address.toNat
  · cases loaded : hart.memory.load size address.toNat <;>
      simp [load, bind_apply, requireAligned_apply, allowed, loaded]
  · simp [load, bind_apply, requireAligned_apply, allowed]

theorem store_apply (size : AccessSize) (address : Word x) (value : BitVec (8 * size.bytes))
    (hart : Hart x) :
    store size address value hart =
      if hart.config.misaligned ∨ size.Aligned address.toNat then
        if hart.memory.Holds address.toNat size.bytes then
          .ok ()
            { hart with
              memory :=
                hart.memory.overwrite address.toNat
                  (LittleEndian.ofNat size.bytes value.toNat).toByteArray }
        else .error ⟨.storeAccessFault, address⟩ hart
      else .error ⟨.storeAddressMisaligned, address⟩ hart := by
  by_cases allowed : hart.config.misaligned ∨ size.Aligned address.toNat
  · by_cases held : hart.memory.Holds address.toNat size.bytes <;>
      simp [store, bind_apply, requireAligned_apply, allowed, EStateM.adaptExcept,
        Hart.onMemory_apply, Memory.store_apply, held]
  · simp [store, bind_apply, requireAligned_apply, allowed]

/-! ## Control registers -/

/-- The value of an operand. -/
def operandValue (registers : Registers x) : CsrOperand → Word x
  | .register source => registers.read source
  | .immediate value => value.setWidth x.bits

@[simp]
theorem readOperand_apply (operand : CsrOperand) (hart : Hart x) :
    readOperand operand hart = .ok (operandValue hart.registers operand) hart := by
  cases operand <;> rfl

theorem readCsr_apply (number : CsrNumber) (fault : Fault x) (hart : Hart x) :
    readCsr number fault hart =
      match hart.csrs.read number hart.mode with
      | .ok value => .ok value hart
      | .error _ => .error fault hart := by
  cases peeked : hart.csrs.read number hart.mode <;> simp [readCsr, bind_apply, peeked]

theorem writeCsr_apply (number : CsrNumber) (value : Word x) (fault : Fault x)
    (hart : Hart x) :
    writeCsr number value fault hart =
      match CsrFile.write number value hart.mode hart.csrs with
      | .ok _ csrs => .ok () { hart with csrs }
      | .error _ _ => .error fault hart := by
  cases written : CsrFile.write number value hart.mode hart.csrs with
  | ok => simp [writeCsr, bind_apply, EStateM.adaptExcept, Hart.onCsrs, written]
  | error =>
      obtain rfl := CsrFile.write_error written
      simp [writeCsr, bind_apply, EStateM.adaptExcept, Hart.onCsrs, written]

private theorem replaceCsr_apply (replaces : Prop) [Decidable replaces] (dest : Register)
    (number : CsrNumber) (old new : Word x) (fault : Fault x) (hart : Hart x) :
    (do
        if replaces then writeCsr number new fault
        writeRegister dest old : Execution x Unit) hart =
      match
        if replaces then CsrFile.write number new hart.mode hart.csrs else .ok () hart.csrs
      with
      | .error _ _ => .error fault hart
      | .ok _ csrs => .ok () ({ hart with csrs }.setRegister dest old) := by
  by_cases replaced : replaces
  · cases written : CsrFile.write number new hart.mode hart.csrs <;>
      simp [bind_apply, writeCsr_apply, replaced, written]
  · simp [replaced]

theorem changeCsr_apply (op : CsrOp) (dest : Register) (operand : CsrOperand)
    (number : CsrNumber) (bits : InstructionBits) (hart : Hart x) :
    changeCsr op dest operand number bits hart =
      match if op = .csrrw ∧ dest = 0 then .ok 0 else hart.csrs.read number hart.mode with
      | .error _ => .error ⟨.illegalInstruction, bits.value⟩ hart
      | .ok old =>
          match
            if op = .csrrw ∨ operand.field ≠ 0 then
              CsrFile.write number (op.eval old (operandValue hart.registers operand)) hart.mode
                hart.csrs
            else .ok () hart.csrs
          with
          | .error _ _ => .error ⟨.illegalInstruction, bits.value⟩ hart
          | .ok _ csrs => .ok () ({ hart with csrs }.setRegister dest old) := by
  by_cases blind : op = .csrrw ∧ dest = 0
  · simp only [changeCsr, bind_apply, readOperand_apply, if_pos blind, pure_apply]
    exact replaceCsr_apply ..
  · simp only [changeCsr, bind_apply, readOperand_apply, if_neg blind, readCsr_apply]
    cases hart.csrs.read number hart.mode with
    | error => rfl
    | ok old => exact replaceCsr_apply ..

end Execution

namespace Hart

open Execution

variable {x : Xlen}

theorem execute_load (pc : Word x) (bits : InstructionBits) (op : LoadOp)
    (dest base : Register) (offset : BitVec 12) (hart : Hart x) :
    let address := hart.registers.read base + offset.signExtend x.bits
    execute pc bits (.load op dest base offset) hart =
      if hart.config.misaligned ∨ op.size.Aligned address.toNat then
        match hart.memory.load op.size address.toNat with
        | .ok value => .ok () (hart.setRegister dest (op.extend value))
        | .error _ => .error ⟨.loadAccessFault, address⟩ hart
      else .error ⟨.loadAddressMisaligned, address⟩ hart := by
  intro address
  simp only [execute, bind_apply, readRegister_apply, load_apply]
  by_cases allowed : hart.config.misaligned ∨ op.size.Aligned address.toNat
  · simp only [address, if_pos allowed]
    cases hart.memory.load op.size address.toNat <;> rfl
  · simp only [address, if_neg allowed]

end Hart

end RiscV
