import RiscV.Csr.File
import RiscV.Hart.Config
import RiscV.Memory
import RiscV.Registers

/-!
# Harts

A hart is the state of one processor: its memory, its registers, the address of the next
instruction and the privilege level.  Each step completes an instruction or ends in a trap, which
hands control to machine mode.
-/

namespace RiscV

/-- The state of a processor. -/
structure Hart (x : Xlen) where
  /-- What is fixed about the hart. -/
  config : Config
  memory : Memory
  registers : Registers x
  csrs : CsrFile x
  /-- The address of the next instruction. -/
  pc : Word x
  mode : Privilege
  deriving DecidableEq

/-- An exception, together with what it is about. -/
structure Fault (x : Xlen) where
  exception : Exception
  /-- The address or the bits that the exception is about. -/
  value : Word x
  deriving DecidableEq, Repr

/-- How a step ends. -/
inductive Outcome (x : Xlen) where
  | retired
  | trap (cause : Cause) (epc value : Word x)
  deriving DecidableEq, Repr

namespace Outcome

/-- Whether a trap was taken. -/
def isTrap {x : Xlen} : Outcome x → Bool
  | retired => false
  | trap .. => true

end Outcome

namespace Hart

variable {x : Xlen}

/-- The state in which a hart is made: memory and registers hold zero. -/
def initial (config : Config) : Hart x :=
  { config
    memory := Memory.zeros config.memorySize
    registers := Registers.zeros config.registerCount
    csrs := CsrFile.initial config.compressed
    pc := Word.ofDouble config.resetVector
    mode := .machine }

/-- Makes a hart, if one can have the configuration. -/
def create (config : Config) : Except ConfigError (Hart x) :=
  match config.check x with
  | .ok () => .ok (initial config)
  | .error error => .error error

/-- Resets everything but the memory. -/
def reset (hart : Hart x) : Hart x :=
  { hart with
    registers := hart.registers.reset
    csrs := hart.csrs.reset
    pc := Word.ofDouble hart.config.resetVector
    mode := .machine }

/-- Changes the contents of a register. -/
def setRegister (hart : Hart x) (register : Register) (value : Word x) : Hart x :=
  { hart with registers := hart.registers.write register value }

/-- Changes the address of the next instruction. -/
def setPc (hart : Hart x) (pc : Word x) : Hart x := { hart with pc }

/-- Changes the fields of the status registers. -/
def setStatus (hart : Hart x) (status : Status) : Hart x :=
  { hart with csrs := { hart.csrs with status } }

/-- Raises or withdraws an interrupt from outside. -/
def setPending (hart : Hart x) (interrupt : Interrupt) (isPending : Bool) : Hart x :=
  { hart with
    csrs := { hart.csrs with
      interrupts := hart.csrs.interrupts.setPending interrupt isPending } }

/-- Counts a cycle in which no instruction completed. -/
def tick (hart : Hart x) : Hart x := { hart with csrs := hart.csrs.tick }

/-- Counts a cycle in which an instruction completed. -/
def retire (hart : Hart x) : Hart x := { hart with csrs := hart.csrs.retire }

/-- Hands control to the handler of traps into machine mode. -/
def enterTrap (hart : Hart x) (cause : Cause) (epc value : Word x) : Hart x :=
  let csrs := ((hart.csrs.setEpc .machine epc).setCause .machine cause.toWord).setTrapValue
    .machine value
  { hart with
    csrs := { csrs with status := csrs.status.enter hart.mode }
    pc := csrs.machine.vector.handler cause.isInterrupt cause.code
    mode := .machine }

/-- Runs an action on the memory alone.  The hart lets go of its memory meanwhile, so that the
action can change it in place. -/
def onMemory {ε α : Type} (action : EStateM ε Memory α) : EStateM ε (Hart x) α := fun hart =>
  let memory := hart.memory
  let rest := { hart with memory := ⟨ByteArray.empty⟩ }
  match action memory with
  | .ok result memory => .ok result { rest with memory }
  | .error error memory => .error error { rest with memory }

/-- Runs an action on the control registers alone. -/
def onCsrs {ε α : Type} (action : EStateM ε (CsrFile x) α) : EStateM ε (Hart x) α := fun hart =>
  match action hart.csrs with
  | .ok result csrs => .ok result { hart with csrs }
  | .error error csrs => .error error { hart with csrs }

theorem onMemory_apply {ε α : Type} (action : EStateM ε Memory α) (hart : Hart x) :
    onMemory action hart =
      match action hart.memory with
      | .ok result memory => .ok result { hart with memory }
      | .error error memory => .error error { hart with memory } := rfl

end Hart

end RiscV
