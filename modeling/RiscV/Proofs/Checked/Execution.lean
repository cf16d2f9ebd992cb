import RiscV.Proofs.Checked.Memory
import RiscV.Proofs.Checked.Trap
import RiscV.Proofs.Execution

/-!
# Checked execution

The effect of each instruction with every operation checked.  An action ends with an undefined
operation, or with a result or a fault and the state that is left.  The actions in which every
operation is defined are those of the hart, and each checked action turns out to be one of them.
-/

namespace RiscV

namespace Checked

variable {x : Xlen}

/-- An action of a hart that may end in a fault, or with an undefined operation. -/
abbrev Action (x : Xlen) := ExceptT (Fault x) (StateT (Hart x) Checked)

namespace Action

variable {α β : Type}

/-- The result of a checked computation. -/
def value (computation : Checked α) : Action x α := fun hart =>
  computation.map fun result => (.ok result, hart)

/-- An action in which every operation is defined. -/
def defined (action : RiscV.Execution x α) : Action x α := fun hart =>
  match action hart with
  | .ok result after => .ok (.ok result, after)
  | .error fault after => .ok (.error fault, after)

@[simp]
theorem value_ok (result : α) : value (.ok result) = (pure result : Action x α) := rfl

@[simp]
theorem pure_apply (result : α) (hart : Hart x) :
    (pure result : Action x α) hart = .ok (.ok result, hart) := rfl

theorem defined_pure (result : α) : defined (pure result) = (pure result : Action x α) := rfl

theorem defined_apply (action : RiscV.Execution x α) (hart : Hart x) :
    defined action hart =
      match action hart with
      | .ok result after => .ok (.ok result, after)
      | .error fault after => .ok (.error fault, after) := rfl

theorem bind_apply (action : Action x α) (next : α → Action x β) (hart : Hart x) :
    (action >>= next) hart =
      (action hart >>= fun (result, after) =>
        match result with
        | .ok result => next result after
        | .error fault => .ok (.error fault, after)) := by
  change StateT.bind action (ExceptT.bindCont next) hart = _
  unfold StateT.bind
  congr 1
  funext ⟨result, after⟩
  cases result <;> rfl

theorem defined_bind (action : RiscV.Execution x α) (next : α → RiscV.Execution x β) :
    defined (action >>= next) = defined action >>= fun result => defined (next result) := by
  funext hart
  rw [bind_apply, defined_apply, defined_apply, Execution.bind_apply]
  cases action hart <;> rfl

theorem defined_ite (condition : Prop) [Decidable condition]
    (action other : RiscV.Execution x α) :
    defined (if condition then action else other) =
      if condition then defined action else defined other := apply_ite ..

end Action

open Checked.Action

/-! ## Actions -/

/-- Ends in a fault unless there can be instructions at the address. -/
def requireTarget (target : Word x) : Action x Unit := do
  let hart ← defined get
  if ← value (aligned hart.config.alignment target.toDouble) then return
  else defined (Execution.raise .instructionAddressMisaligned target)

/-- Jumps to an address and leaves that of the next instruction in a register. -/
def jump (dest : Register) (target : Word x) : Action x Unit := do
  requireTarget target
  defined (modify fun hart => (hart.setRegister dest hart.pc).setPc target)

/-- Goes on at an address if a condition holds. -/
def branch (taken : Bool) (target : Word x) : Action x Unit := do
  if taken then
    requireTarget target
    defined (modify (·.setPc target))

/-- Ends in a fault if an access is misaligned and the hart does not support that. -/
def requireAligned (size : AccessSize) (address : Word x) (exception : Exception) :
    Action x Unit := do
  let hart ← defined get
  if hart.config.misaligned then return
  else if ← value (aligned size address.toDouble) then return
  else defined (Execution.raise exception address)

/-- Loads a number from memory. -/
def loadFrom (size : AccessSize) (address : Word x) : Action x (BitVec (8 * size.bytes)) := do
  requireAligned size address .loadAddressMisaligned
  let hart ← defined get
  match ← value (load hart.memory size address.toDouble) with
  | .ok number => return number
  | .error _ => defined (Execution.raise .loadAccessFault address)

/-- Stores a number in memory. -/
def storeTo (size : AccessSize) (address : Word x) (number : BitVec (8 * size.bytes)) :
    Action x Unit := do
  requireAligned size address .storeAddressMisaligned
  let hart ← defined get
  match ← value (store size address.toDouble number hart.memory) with
  | .ok () memory => defined (modify ({ · with memory }))
  | .error _ _ => defined (Execution.raise .storeAccessFault address)

/-- Returns from a trap into machine mode. -/
def returnFromMachine (bits : InstructionBits) : Action x Unit := do
  defined (Execution.requireMode .machine bits)
  let hart ← defined get
  let mode ← value (previousMode (hart.csrs.status.toBits x))
  let csrs ← value (onWords hart.csrs (·.operate (.status .leave)))
  defined (modify fun hart => { hart with csrs, mode, pc := hart.csrs.machine.epc })

/-- Returns from a trap into supervisor mode. -/
def returnFromSupervisor (bits : InstructionBits) : Action x Unit := do
  defined (Execution.requireMode .supervisor bits)
  let hart ← defined get
  let mode ← value (previousSupervisorMode (hart.csrs.status.toBits x))
  let csrs ← value (onWords hart.csrs (·.operate (.status .leaveSupervisor)))
  defined (modify fun hart => { hart with csrs, mode, pc := hart.csrs.supervisor.epc })

/-- The contents of a control register, as far as the mode may read it. -/
def readOrRaise (number : CsrNumber) (fault : Fault x) : Action x (Word x) := do
  let hart ← defined get
  match ← value (readCsr hart.csrs number hart.mode) with
  | .ok old => return old
  | .error _ => defined (throw fault)

/-- Changes a control register, as far as the mode may write it. -/
def writeOrRaise (number : CsrNumber) (new : Word x) (fault : Fault x) : Action x Unit := do
  let hart ← defined get
  match ← value (writeCsr number new hart.mode hart.csrs) with
  | .ok () csrs => defined (modify ({ · with csrs }))
  | .error _ _ => defined (throw fault)

/-- Reads a control register, changes it and leaves its old contents in a register. -/
def changeCsr (op : CsrOp) (dest : Register) (operand : CsrOperand) (number : CsrNumber)
    (bits : InstructionBits) : Action x Unit := do
  let fault : Fault x := ⟨.illegalInstruction, bits.value⟩
  let new ← defined (Execution.readOperand operand)
  let old ← if op = .csrrw ∧ dest = 0 then pure 0 else readOrRaise number fault
  if op = .csrrw ∨ operand.field ≠ 0 then writeOrRaise number (op.eval old new) fault
  defined (Execution.writeRegister dest old)

section Actions

theorem requireTarget_eq (target : Word x) :
    requireTarget target = defined (Execution.requireTarget target) := by
  funext hart
  simp only [requireTarget, bind_apply, defined_apply, Execution.get_apply, ok_bind, aligned_eq,
    value_ok, Action.pure_apply, decide_eq_true_eq, Execution.requireTarget_apply]
  by_cases aligned : hart.config.alignment.Aligned target.toNat
  · simp only [aligned, if_true, Action.pure_apply]
  · simp only [aligned, if_false, defined_apply, Execution.raise_apply]

theorem jump_eq (dest : Register) (target : Word x) :
    jump dest target = defined (Execution.jump dest target) := by
  rw [jump, requireTarget_eq, Execution.jump, defined_bind]

theorem branch_eq (taken : Bool) (target : Word x) :
    branch taken target = defined (Execution.branch taken target) := by
  cases taken with
  | false => rfl
  | true =>
      simp only [branch, Execution.branch, if_true, requireTarget_eq, defined_bind]

theorem requireAligned_eq (size : AccessSize) (address : Word x) (exception : Exception) :
    requireAligned size address exception =
      defined (Execution.requireAligned size address exception) := by
  funext hart
  simp only [requireAligned, bind_apply, defined_apply, Execution.get_apply, ok_bind, aligned_eq,
    value_ok, Execution.requireAligned_apply]
  by_cases misaligned : hart.config.misaligned
  · simp only [misaligned, if_true, true_or, Action.pure_apply]
  · by_cases aligned : size.Aligned address.toNat
    · simp [misaligned, aligned, bind_apply]
    · simp [misaligned, aligned, bind_apply, defined_apply]

theorem loadFrom_eq (size : AccessSize) (address : Word x) :
    loadFrom size address = defined (Execution.load size address) := by
  rw [loadFrom, requireAligned_eq, Execution.load, defined_bind]
  congr 1
  funext _ hart
  simp only [bind_apply, defined_apply, Execution.bind_apply, Execution.get_apply, ok_bind,
    load_eq, value_ok, Action.pure_apply]
  cases hart.memory.load size address.toNat <;> rfl

theorem storeTo_eq (size : AccessSize) (address : Word x) (number : BitVec (8 * size.bytes)) :
    storeTo size address number = defined (Execution.store size address number) := by
  rw [storeTo, requireAligned_eq, Execution.store, defined_bind]
  congr 1
  funext _ hart
  simp only [bind_apply, defined_apply, Execution.get_apply, ok_bind, store_eq, value_ok,
    Action.pure_apply, EStateM.adaptExcept, Hart.onMemory_apply, Memory.store_apply]
  by_cases held : hart.memory.Holds address.toNat size.bytes
  · simp only [held, if_true]
    rfl
  · simp only [held, if_false]
    rfl

theorem returnFromMachine_eq (bits : InstructionBits) :
    returnFromMachine bits =
      (defined (Execution.returnFromMachine bits) : Action x Unit) := by
  rw [returnFromMachine, Execution.returnFromMachine, defined_bind]
  congr 1
  funext _ hart
  simp only [bind_apply, defined_apply, Execution.get_apply, ok_bind, previousMode_eq,
    onWords_operate, value_ok, Action.pure_apply, Execution.modify_apply]
  rfl

theorem returnFromSupervisor_eq (bits : InstructionBits) :
    returnFromSupervisor bits =
      (defined (Execution.returnFromSupervisor bits) : Action x Unit) := by
  rw [returnFromSupervisor, Execution.returnFromSupervisor, defined_bind]
  congr 1
  funext _ hart
  simp only [bind_apply, defined_apply, Execution.get_apply, ok_bind, previousSupervisorMode_eq,
    onWords_operate, value_ok, Action.pure_apply, Execution.modify_apply]
  rfl

theorem readOrRaise_eq (number : CsrNumber) (fault : Fault x) :
    readOrRaise number fault = defined (Execution.readCsr number fault) := by
  funext hart
  simp only [readOrRaise, bind_apply, defined_apply, Execution.get_apply, ok_bind, readCsr_eq,
    value_ok, Action.pure_apply, Execution.readCsr_apply]
  cases hart.csrs.read number hart.mode <;> rfl

theorem writeOrRaise_eq (number : CsrNumber) (new : Word x) (fault : Fault x) :
    writeOrRaise number new fault = defined (Execution.writeCsr number new fault) := by
  funext hart
  simp only [writeOrRaise, bind_apply, defined_apply, Execution.get_apply, ok_bind, writeCsr_eq,
    value_ok, Action.pure_apply, Execution.writeCsr_apply]
  cases CsrFile.write number new hart.mode hart.csrs <;> rfl

theorem changeCsr_eq (op : CsrOp) (dest : Register) (operand : CsrOperand) (number : CsrNumber)
    (bits : InstructionBits) :
    changeCsr op dest operand number bits =
      (defined (Execution.changeCsr op dest operand number bits) : Action x Unit) := by
  simp only [changeCsr, Execution.changeCsr, readOrRaise_eq, writeOrRaise_eq, defined_bind,
    defined_ite, defined_pure]

end Actions

/-! ## Instructions -/

/-- The effect of the instruction at `pc`, whose bits are given for the report of a fault. -/
def execute (pc : Word x) (bits : InstructionBits) (instruction : Instruction) : Action x Unit :=
  match instruction with
  | .shift op dest src amount => do
      let left ← defined (Execution.readRegister src)
      defined (Execution.writeRegister dest (← value (shiftImmediate op left amount)))
  | .shiftWord op dest src amount => do
      let left ← defined (Execution.readRegister src)
      defined (Execution.writeRegister dest (← value (shiftImmediateLow op left amount)))
  | .register op dest left right => do
      let a ← defined (Execution.readRegister left)
      let b ← defined (Execution.readRegister right)
      defined (Execution.writeRegister dest (← value (evalRegister op a b)))
  | .registerWord op dest left right => do
      let a ← defined (Execution.readRegister left)
      let b ← defined (Execution.readRegister right)
      defined (Execution.writeRegister dest (← value (evalWord op a b)))
  | .jal dest offset => jump dest (pc + (Instruction.bytes offset).signExtend x.bits)
  | .jalr dest base offset => do
      let address ← defined (Execution.readRegister base)
      jump dest ((address + offset.signExtend x.bits) &&& ~~~1)
  | .branch condition left right offset => do
      let a ← defined (Execution.readRegister left)
      let b ← defined (Execution.readRegister right)
      branch (condition.holds a b) (pc + (Instruction.bytes offset).signExtend x.bits)
  | .load op dest base offset => do
      let address ← defined (Execution.readRegister base)
      let number ← loadFrom op.size (address + offset.signExtend x.bits)
      defined (Execution.writeRegister dest (op.extend number))
  | .store op src base offset => do
      let number ← defined (Execution.readRegister src)
      let address ← defined (Execution.readRegister base)
      storeTo op.size (address + offset.signExtend x.bits) (number.setWidth _)
  | .csr op dest operand number => changeCsr op dest operand (number.setWidth 16) bits
  | .mret => returnFromMachine bits
  | .sret => returnFromSupervisor bits
  | .immediate .. | .immediateWord .. | .auipc .. | .lui .. | .fence .. | .fenceI | .ecall
  | .ebreak | .wfi => defined (Hart.execute pc bits instruction)

/-- Every instruction has its effect without an undefined operation. -/
theorem execute_eq (pc : Word x) (bits : InstructionBits) (instruction : Instruction) :
    execute pc bits instruction = defined (Hart.execute pc bits instruction) := by
  cases instruction with
  | shift | shiftWord | register | registerWord =>
      simp only [execute, Hart.execute, shiftImmediate_eq, shiftImmediateLow_eq, evalRegister_eq,
        evalWord_eq, value_ok, pure_bind, defined_bind]
  | jal | jalr | branch =>
      simp only [execute, Hart.execute, jump_eq, branch_eq, defined_bind]
  | load | store => simp only [execute, Hart.execute, loadFrom_eq, storeTo_eq, defined_bind]
  | csr => exact changeCsr_eq ..
  | mret => exact returnFromMachine_eq bits
  | sret => exact returnFromSupervisor_eq bits
  | _ => rfl

end Checked

end RiscV
