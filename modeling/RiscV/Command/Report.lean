import RiscV.Hart.Basic

/-!
# The report of a simulation

The last state of a hart in lines: how many steps were taken, the program counter and the mode, the
registers that describe the last trap, and the integer registers, four to a line.
-/

namespace RiscV

namespace Command

variable {x : Xlen}

/-- The hexadecimal text of a word with all its digits. -/
def wordText (word : Word x) : String := Text.Numeral.hex (x.bits / 4) word.toNat

/-- The name of a cause, as far as the code has a meaning. -/
def causeText (word : Word x) : String :=
  match Cause.ofWord? word with
  | some cause => cause.name
  | none => "reserved"

/-- A text followed by blanks up to a least length. -/
def padded (length : Nat) (text : String) : String :=
  text ++ String.ofList (List.replicate (length - text.length) ' ')

/-- The number and the contents of a register. -/
def registerText (index : Nat) (value : Word x) : String :=
  "x" ++ padded 2 (toString index) ++ " " ++ wordText value

/-- Some texts in rows of at most four. -/
def rows : List String → List String
  | a :: b :: c :: d :: rest => "  ".intercalate [a, b, c, d] :: rows rest
  | [] => []
  | rest => ["  ".intercalate rest]

/-- The state of a hart after a number of steps. -/
def stateLines (steps : Nat) (hart : Hart x) : List String :=
  let traps := hart.csrs.machine
  [ "steps: " ++ toString steps
  , "pc:    " ++ wordText hart.pc
  , "mode:  " ++ hart.mode.letter
  , "mcause " ++ wordText traps.cause ++ " (" ++ causeText traps.cause ++ ")"
  , "mepc   " ++ wordText traps.epc
  , "mtval  " ++ wordText traps.value ] ++
    rows (hart.registers.values.toList.zipIdx.map fun (value, index) => registerText index value)

end Command

end RiscV
