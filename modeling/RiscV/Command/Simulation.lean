import RiscV.Command.Options
import RiscV.Command.Report
import RiscV.Hart.SelfTest
import RiscV.Image.Program

/-!
# Simulations

What the command does with its options: it makes a hart, tests it if that is asked for, loads the
program, and steps until the stop address, the step limit or a trap that stops.
-/

namespace RiscV

namespace Command

/-- Why a simulation ends early. -/
inductive Failure where
  /-- No hart can be made. -/
  | config (error : ConfigError)
  /-- The hart fails the test. -/
  | selfTest
  /-- The program cannot be loaded. -/
  | load (error : LoadError)
  deriving DecidableEq, Repr

namespace Failure

def message : Failure → String
  | config error => error.message
  | selfTest => "self test failed"
  | load error => error.message

end Failure

/-- What a simulation shows: some lines, and the reason if it ends early. -/
structure Display where
  /-- The lines that are shown. -/
  lines : List String
  /-- Why the simulation ends early, if it does. -/
  failure : Option Failure
  deriving DecidableEq, Repr

namespace Options

/-- The configuration of the hart. -/
def config (options : Options) : Config :=
  { memorySize := options.memorySize
    registerCount := options.registerCount
    resetVector := 0
    compressed := options.compressed
    misaligned := options.misaligned }

end Options

section

variable {x : Xlen}

/-- Steps until the program counter is at `stop`, the budget is used up, or a trap is taken that
stops.  The result is what is left of the budget, and the hart. -/
def drive (stop : Option (Word x)) (stopOnTrap : Bool) (budget : Nat) (hart : Hart x) :
    Nat × Hart x :=
  if stop = some hart.pc then (budget, hart)
  else
    match budget with
    | 0 => (0, hart)
    | budget + 1 =>
        let (outcome, next) := hart.step
        if outcome.isTrap && stopOnTrap then (budget, next)
        else drive stop stopOnTrap budget next

/-- Loads the program.  The result is the address at which an executable asks to be started. -/
def loadProgram (options : Options) (file : Option ByteArray) :
    EStateM LoadError (Hart x) (Option Nat) := do
  if options.hex then
    Hart.loadHex file
    return none
  else
    return some (← Hart.loadElf file).header.entry

/-- The state of the hart after running the program that was loaded. -/
def runProgram (options : Options) (entry : Option Nat) (hart : Hart x) : List String :=
  let word (address : Nat) : Word x := BitVec.ofNat x.bits address
  let hart :=
    match options.start <|> entry with
    | some address => hart.setPc (word address)
    | none => hart
  let limit := options.maxSteps.getD Hart.maxSteps
  let (left, hart) := drive (options.stopAt.map word) options.stopOnTrap limit hart
  stateLines (limit - left) hart

/-- Loads and runs the program, if there is one, and shows its result below the given lines. -/
def loadAndRun (options : Options) (file : Option ByteArray) (lines : List String)
    (hart : Hart x) : Display :=
  if options.program.isNone then ⟨lines, none⟩
  else
    match loadProgram options file hart with
    | .error error _ => ⟨lines, some (.load error)⟩
    | .ok entry hart => ⟨lines ++ runProgram options entry hart, none⟩

/-- Simulates a hart with registers of the given width. -/
def simulateWidth (x : Xlen) (options : Options) (file : Option ByteArray) : Display :=
  match (Hart.create options.config : Except ConfigError (Hart x)) with
  | .error error => ⟨[], some (.config error)⟩
  | .ok hart =>
      if options.selfTest then
        match hart.selfTest with
        | (true, hart) => loadAndRun options file ["Self test passed"] hart
        | (false, _) => ⟨[], some .selfTest⟩
      else loadAndRun options file [] hart

end

/-- Simulates a hart.  The contents of the program are missing if it cannot be read. -/
def simulate (options : Options) (file : Option ByteArray) : Display :=
  simulateWidth options.xlen options file

namespace Display

/-- The exit code of a simulation. -/
def exitCode (display : Display) : Nat := if display.failure.isSome then 1 else 0

end Display

/-- The exit code of a command line that makes no sense. -/
def usageExitCode : Nat := 2

end Command

end RiscV
