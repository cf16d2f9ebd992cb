import RiscV.Text.Numeral
import RiscV.Xlen

/-!
# Options of the command

The command takes flags, settings with a value, and the path of a program, in any order.  Each may
be given once, apart from the flag that asks for more to be told.  Two dashes end the options.
-/

namespace RiscV

namespace Command

/-- An option without a value. -/
inductive Flag where
  | hex | noCompressed | misaligned | stopOnTrap | selfTest | verbose
  deriving DecidableEq, Repr

/-- An option with a value. -/
inductive Setting where
  | xlen | memorySize | registerCount | start | stopAt | maxSteps
  deriving DecidableEq, Repr

/-- A part of a command line. -/
inductive Item where
  /-- An option without a value. -/
  | flag (flag : Flag)
  /-- An option with its value. -/
  | setting (setting : Setting) (value : String)
  | program (path : String)
  deriving DecidableEq, Repr

/-- What a command line asks for. -/
structure Options where
  /-- The path of the program. -/
  program : Option String
  /-- Whether the program is a hex file, and not an executable. -/
  hex : Bool
  xlen : Xlen
  /-- Number of bytes of memory. -/
  memorySize : Nat
  registerCount : Nat
  /-- Whether there are compressed instructions. -/
  compressed : Bool
  /-- Whether loads and stores may be misaligned. -/
  misaligned : Bool
  /-- The address at which execution starts. -/
  start : Option Nat
  /-- The address at which execution stops. -/
  stopAt : Option Nat
  /-- The greatest number of steps. -/
  maxSteps : Option Nat
  /-- Whether execution stops after a trap. -/
  stopOnTrap : Bool
  /-- Whether the hart is tested first. -/
  selfTest : Bool
  deriving DecidableEq, Repr

/-- The flag with the given long name. -/
def Flag.ofName? : String → Option Flag
  | "hex" => some .hex
  | "no-compressed" => some .noCompressed
  | "misaligned" => some .misaligned
  | "stop-on-trap" => some .stopOnTrap
  | "self-test" => some .selfTest
  | "verbose" => some .verbose
  | _ => none

/-- The setting with the given long name. -/
def Setting.ofName? : String → Option Setting
  | "xlen" => some .xlen
  | "memory-size" => some .memorySize
  | "register-count" => some .registerCount
  | "start" => some .start
  | "until" => some .stopAt
  | "max-steps" => some .maxSteps
  | _ => none

/-- An argument, as far as its form tells what it is. -/
inductive Argument where
  /-- The end of the options. -/
  | endOfOptions
  /-- A long name with the value attached to it. -/
  | long (name : String) (value : Option String)
  /-- The short flags after one dash. -/
  | short (flags : List Char)
  | plain (text : String)
  deriving DecidableEq, Repr

/-- The form of an argument. -/
def Argument.ofText (text : String) : Argument :=
  match text.toList with
  | ['-', '-'] => endOfOptions
  | '-' :: '-' :: rest =>
      let name := rest.takeWhile (· != '=')
      match rest.dropWhile (· != '=') with
      | [] => long (String.ofList name) none
      | _ :: value => long (String.ofList name) (some (String.ofList value))
  | '-' :: flag :: flags => short (flag :: flags)
  | _ => plain text

/-- The parts of a command line, if it consists of known options, their values, and paths.  A
setting may still wait for its value. -/
def itemsFrom? : (waiting : Option Setting) → List String → Option (List Item)
  | none, [] => some []
  | some _, [] => none
  | some setting, text :: rest =>
      match Argument.ofText text with
      | .plain value => (itemsFrom? none rest).map (.setting setting value :: ·)
      | _ => none
  | none, text :: rest =>
      match Argument.ofText text with
      | .endOfOptions => some (rest.map .program)
      | .plain path => (itemsFrom? none rest).map (.program path :: ·)
      | .short flags =>
          if flags.all (· == 'v') then
            (itemsFrom? none rest).map (List.replicate flags.length (.flag .verbose) ++ ·)
          else none
      | .long name (some value) =>
          match Setting.ofName? name with
          | some setting => (itemsFrom? none rest).map (.setting setting value :: ·)
          | none => none
      | .long name none =>
          match Flag.ofName? name, Setting.ofName? name with
          | some flag, _ => (itemsFrom? none rest).map (.flag flag :: ·)
          | none, some setting => itemsFrom? (some setting) rest
          | none, none => none

/-- The parts of a command line, if it consists of known options, their values, and paths. -/
def items? (arguments : List String) : Option (List Item) := itemsFrom? none arguments

/-- What tells an item apart from those that may stand beside it, if it may be given once. -/
inductive Item.Key where
  | flag (flag : Flag)
  | setting (setting : Setting)
  | program
  deriving DecidableEq, Repr

/-- The key of an item that may be given once. -/
def Item.key? : Item → Option Item.Key
  | .flag given => if given = .verbose then none else some (.flag given)
  | .setting given _ => some (.setting given)
  | .program _ => some .program

/-- No item is given twice that may be given once. -/
def Unrepeated (items : List Item) : Prop := (items.filterMap Item.key?).Nodup

instance (items : List Item) : Decidable (Unrepeated items) :=
  inferInstanceAs (Decidable (List.Nodup _))

/-- The width of registers with the given name. -/
def xlen? : String → Option Xlen
  | "32" => some .rv32
  | "64" => some .rv64
  | _ => none

/-- A decimal number of at most 64 bits. -/
def count? (text : String) : Option Nat := Text.Numeral.read? 10 64 text.toList

/-- A decimal number or, behind its mark, a hexadecimal one of at most 64 bits.  Underscores may
stand among the digits. -/
def number? (text : String) : Option Nat :=
  match text.toList with
  | '0' :: 'x' :: rest | '0' :: 'X' :: rest =>
      Text.Numeral.read? 16 64 (rest.filter (· != '_'))
  | digits => Text.Numeral.read? 10 64 (digits.filter (· != '_'))

/-- The value of a setting, if it is given. -/
def value? (items : List Item) (wanted : Setting) : Option String :=
  items.findSome? fun
    | .setting setting value => if setting = wanted then some value else none
    | _ => none

/-- The path of a program, if it is given. -/
def path? (items : List Item) : Option String :=
  items.findSome? fun
    | .program path => some path
    | _ => none

/-- A value read from the text of a setting.  The outer result is missing if the text is wrong, the
inner one if the setting is not given. -/
def setting? {α : Type} (items : List Item) (setting : Setting) (read : String → Option α) :
    Option (Option α) :=
  match value? items setting with
  | none => some none
  | some text => (read text).map some

/-- What a command line asks for, if it makes sense: a program is required unless the hart is
tested. -/
def Options.ofArguments? (arguments : List String) : Option Options := do
  let items ← items? arguments
  if ¬ Unrepeated items then none
  let given (flag : Flag) : Bool := decide (.flag flag ∈ items)
  let xlen ← setting? items .xlen xlen?
  let memorySize ← setting? items .memorySize number?
  let registerCount ← setting? items .registerCount count?
  let start ← setting? items .start number?
  let stopAt ← setting? items .stopAt number?
  let maxSteps ← setting? items .maxSteps count?
  let program := path? items
  if program.isNone ∧ ¬ given .selfTest then none
  return {
    program
    hex := given .hex
    xlen := xlen.getD .rv32
    memorySize := memorySize.getD 0x100000
    registerCount := registerCount.getD 32
    compressed := !given .noCompressed
    misaligned := given .misaligned
    start
    stopAt
    maxSteps
    stopOnTrap := given .stopOnTrap
    selfTest := given .selfTest }

end Command

end RiscV
