import RiscV.Text.Numeral

/-!
# Errors of loading

Why the image of a program cannot be loaded into memory.
-/

namespace RiscV

/-- What is wrong with a line of a hex file. -/
inductive HexFlaw where
  /-- The text is no address. -/
  | address (text : String)
  /-- The text is no byte. -/
  | byte (text : String)
  deriving DecidableEq, Repr

namespace HexFlaw

def message : HexFlaw → String
  | address text => "invalid address `" ++ text ++ "`"
  | byte text => "invalid byte `" ++ text ++ "`"

end HexFlaw

/-- Why an image cannot be loaded. -/
inductive LoadError where
  /-- The file cannot be read, or is not text where text is required. -/
  | unreadable
  /-- The file is not in the executable format. -/
  | notExecutable
  /-- A line of a hex file has a flaw. -/
  | malformed (line : Nat) (flaw : HexFlaw)
  /-- The executable is for another machine. -/
  | wrongMachine (machine : Nat)
  /-- The executable is for registers of another width. -/
  | classMismatch (expected : Nat)
  /-- The file ends before the data of a segment. -/
  | truncated (offset : Nat)
  /-- There is no memory for some bytes. -/
  | outOfBounds (address count : Nat)
  deriving DecidableEq, Repr

namespace LoadError

/-- The report of an image that cannot be loaded. -/
def message : LoadError → String
  | unreadable => "failed to read program file"
  | notExecutable => "failed to parse ELF file"
  | malformed line flaw => "malformed hex file on line " ++ toString line ++ ": " ++ flaw.message
  | wrongMachine machine =>
      "ELF file is not a RISC-V executable (machine " ++ toString machine ++ ")"
  | classMismatch expected => "expected a " ++ toString expected ++ "-bit ELF file"
  | truncated offset =>
      "segment data at offset " ++ Text.Numeral.hex 1 offset ++
        " extends beyond the end of the file"
  | outOfBounds address count =>
      toString count ++ " bytes at " ++ Text.Numeral.hex 1 address ++ " do not fit in memory"

end LoadError

end RiscV
