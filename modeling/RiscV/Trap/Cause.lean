import RiscV.Xlen

/-!
# Causes of traps

A trap is caused by an exception of an instruction or by an interrupt from outside of it.  Each
cause has a code, and the cause registers hold the code with the sign bit set for interrupts.
-/

namespace RiscV

/-- A condition of an instruction that keeps it from completing. -/
inductive Exception where
  | instructionAddressMisaligned
  | instructionAccessFault
  | illegalInstruction
  | breakpoint
  | loadAddressMisaligned
  | loadAccessFault
  | storeAddressMisaligned
  | storeAccessFault
  | userCall
  | supervisorCall
  | machineCall
  | instructionPageFault
  | loadPageFault
  | storePageFault
  deriving DecidableEq, Repr

/-- An event from outside of the instructions. -/
inductive Interrupt where
  | userSoftware
  | supervisorSoftware
  | machineSoftware
  | userTimer
  | supervisorTimer
  | machineTimer
  | userExternal
  | supervisorExternal
  | machineExternal
  deriving DecidableEq, Repr

/-- What a trap is caused by. -/
inductive Cause where
  /-- An exception of the current instruction. -/
  | exception (exception : Exception)
  /-- An interrupt before the next instruction. -/
  | interrupt (interrupt : Interrupt)
  deriving DecidableEq, Repr

namespace Exception

def all : List Exception :=
  [instructionAddressMisaligned, instructionAccessFault, illegalInstruction, breakpoint,
    loadAddressMisaligned, loadAccessFault, storeAddressMisaligned, storeAccessFault,
    userCall, supervisorCall, machineCall, instructionPageFault, loadPageFault, storePageFault]

/-- The code of the exception. -/
def code : Exception → Nat
  | instructionAddressMisaligned => 0
  | instructionAccessFault => 1
  | illegalInstruction => 2
  | breakpoint => 3
  | loadAddressMisaligned => 4
  | loadAccessFault => 5
  | storeAddressMisaligned => 6
  | storeAccessFault => 7
  | userCall => 8
  | supervisorCall => 9
  | machineCall => 11
  | instructionPageFault => 12
  | loadPageFault => 13
  | storePageFault => 15

def ofCode? (code : Nat) : Option Exception := all.find? (·.code == code)

def name : Exception → String
  | instructionAddressMisaligned => "InstructionAddressMisaligned"
  | instructionAccessFault => "InstructionAccessFault"
  | illegalInstruction => "IllegalInstruction"
  | breakpoint => "Breakpoint"
  | loadAddressMisaligned => "LoadAddressMisaligned"
  | loadAccessFault => "LoadAccessFault"
  | storeAddressMisaligned => "StoreOrAmoAddressMisaligned"
  | storeAccessFault => "StoreOrAmoAccessFault"
  | userCall => "EnvironmentCallFromUMode"
  | supervisorCall => "EnvironmentCallFromSMode"
  | machineCall => "EnvironmentCallFromMMode"
  | instructionPageFault => "InstructionPageFault"
  | loadPageFault => "LoadPageFault"
  | storePageFault => "StoreOrAmoPageFault"

theorem code_lt (exception : Exception) : exception.code < 16 := by cases exception <;> decide

end Exception

namespace Interrupt

/-- All interrupts, those that are taken first in front. -/
def byPriority : List Interrupt :=
  [machineExternal, machineSoftware, machineTimer, supervisorExternal, supervisorSoftware,
    supervisorTimer, userExternal, userSoftware, userTimer]

/-- The code of the interrupt, which is also its place in the interrupt registers. -/
def code : Interrupt → Nat
  | userSoftware => 0
  | supervisorSoftware => 1
  | machineSoftware => 3
  | userTimer => 4
  | supervisorTimer => 5
  | machineTimer => 7
  | userExternal => 8
  | supervisorExternal => 9
  | machineExternal => 11

def ofCode? (code : Nat) : Option Interrupt := byPriority.find? (·.code == code)

def name : Interrupt → String
  | userSoftware => "UserSoftwareInterrupt"
  | supervisorSoftware => "SupervisorSoftwareInterrupt"
  | machineSoftware => "MachineSoftwareInterrupt"
  | userTimer => "UserTimerInterrupt"
  | supervisorTimer => "SupervisorTimerInterrupt"
  | machineTimer => "MachineTimerInterrupt"
  | userExternal => "UserExternalInterrupt"
  | supervisorExternal => "SupervisorExternalInterrupt"
  | machineExternal => "MachineExternalInterrupt"

@[simp]
theorem ofCode?_code (interrupt : Interrupt) : ofCode? interrupt.code = some interrupt := by
  cases interrupt <;> rfl

theorem code_lt (interrupt : Interrupt) : interrupt.code < 12 := by cases interrupt <;> decide

theorem code_injective {a b : Interrupt} (h : a.code = b.code) : a = b := by
  simpa using congrArg ofCode? h

end Interrupt

namespace Cause

variable {x : Xlen}

/-- Whether the cause is an interrupt. -/
def isInterrupt : Cause → Bool
  | exception _ => false
  | interrupt _ => true

/-- The code of the cause among those of its kind. -/
def code : Cause → Nat
  | exception e => e.code
  | interrupt i => i.code

def name : Cause → String
  | exception e => e.name
  | interrupt i => i.name

/-- The contents of a cause register. -/
def toWord (cause : Cause) : Word x :=
  BitVec.ofNat x.bits cause.code ||| (if cause.isInterrupt then Word.signBit else 0)

/-- The cause that the contents of a cause register stand for. -/
def ofWord? (word : Word x) : Option Cause :=
  if word.msb then (Interrupt.ofCode? (word &&& ~~~Word.signBit).toNat).map interrupt
  else (Exception.ofCode? word.toNat).map exception

theorem ofWord?_toWord (cause : Cause) : ofWord? (cause.toWord : Word x) = some cause := by
  cases x <;> rcases cause with e | i
  · cases e <;> rfl
  · cases i <;> rfl
  · cases e <;> rfl
  · cases i <;> rfl

end Cause

end RiscV
