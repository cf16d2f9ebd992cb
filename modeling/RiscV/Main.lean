import RiscV.Command.Simulation

/-!
# The command line

Reads the program that the options name, simulates it, and prints what the simulation shows.
-/

namespace RiscV

namespace Command

/-- The contents of a file, if it can be read. -/
def readFile (path : String) : IO (Option ByteArray) := do
  try
    return some (← IO.FS.readBinFile path)
  catch _ =>
    return none

/-- Carries out a command line, and returns its exit code. -/
def run (arguments : List String) : IO UInt32 := do
  match Options.ofArguments? arguments with
  | none =>
      IO.eprintln "error: the arguments do not make sense"
      return UInt32.ofNat usageExitCode
  | some options =>
      let file ← match options.program with
        | some path => readFile path
        | none => pure none
      let display := simulate options file
      for line in display.lines do
        IO.println line
      if let some failure := display.failure then
        IO.eprintln ("Error: " ++ failure.message)
      return UInt32.ofNat display.exitCode

end Command

end RiscV

/-- Carries out the command line of the process. -/
def main (arguments : List String) : IO UInt32 := RiscV.Command.run arguments
