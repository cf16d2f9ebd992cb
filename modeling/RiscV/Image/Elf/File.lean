import RiscV.Image.Elf.Tables

/-!
# Executables

What an executable says: the machine it is for, the address at which execution starts, its segments
and its symbols.  A file is refused if one of its tables does not lie within it, or if a table of
names is not text.
-/

namespace RiscV

namespace Elf

/-- An executable. -/
structure File where
  header : Header
  /-- The segments in the order of their table. -/
  segments : List Segment
  /-- The symbols that have a name, with their values in the order of their table. -/
  symbols : List (String × Nat)
  deriving DecidableEq, Repr

/-- The kind of a section that holds a table of symbols. -/
def symbolTable : Nat := 2

/-- The kind of a section that takes no space in the file. -/
def noBits : Nat := 8

/-- The number of a section that stands for the one that the first section refers to. -/
def extendedIndex : Nat := 0xFFFF

/-- The bytes up to the first zero byte. -/
def untilZero (bytes : List UInt8) : List UInt8 := bytes.takeWhile (· != 0)

/-- Some bytes as text, if they are text. -/
def text? (bytes : List UInt8) : Option String := String.fromUTF8? bytes.toByteArray

/-- Every piece of a table between zero bytes is text. -/
def areNames (table : ByteArray) : Bool :=
  (table.data.toList.splitOnP (· == 0)).all fun piece => (text? piece).isSome

/-- The section that a number stands for. -/
def sectionAt? (sections : List Section) (index : Nat) : Option Section :=
  if index = extendedIndex then sections.head?.bind fun first => sections[first.link]?
  else sections[index]?

/-- The section neither wraps around the file nor the address space. -/
def Section.IsSound (part : Section) (file : ByteArray) : Prop :=
  part.kind = noBits ∨ part.size = 0 ∨
    Within file part.offset part.size ∧ part.address + part.size < 0x1_0000_0000_0000_0000

instance (part : Section) (file : ByteArray) : Decidable (part.IsSound file) :=
  inferInstanceAs (Decidable (_ ∨ _ ∨ _ ∧ _))

/-- The table of names in the section with the given number, which is empty if there is no such
section. -/
def names? (file : ByteArray) (sections : List Section) (index : Nat) : Option ByteArray :=
  match sectionAt? sections index with
  | none => some ByteArray.empty
  | some part =>
      if part.IsSound file then
        (slice? file part.offset part.size).filter areNames
      else none

/-- The name that starts at an offset of a table of names. -/
def name? (names : ByteArray) (offset : Nat) : Option String :=
  if offset < names.size then text? (untilZero (names.data.toList.drop offset)) else none

/-- The symbols of a table that have a name. -/
def named (names : ByteArray) (symbols : List Symbol) : List (String × Nat) :=
  symbols.filterMap fun symbol =>
    ((name? names symbol.name).filter (· != "")).map fun name => (name, symbol.value)

/-- The symbols in a section. -/
def symbolsIn? (file : ByteArray) (layout : Layout) (part : Section) : Option (List Symbol) :=
  table? file (Symbol.at? layout file) part.offset (part.size / part.entrySize)
    (layout.size Symbol.size)

/-- The symbols of an executable: those of the last section that holds a table of symbols. -/
def symbols? (file : ByteArray) (layout : Layout) (sections : List Section) :
    Option (List (String × Nat)) :=
  match sections.reverse.find? (·.kind == symbolTable) with
  | none => some []
  | some part => do
      let symbols ← symbolsIn? file layout part
      let names ← names? file sections part.link
      return named names symbols

namespace File

/-- Reads an executable. -/
def ofBytes? (file : ByteArray) : Option File := do
  let header ← Header.ofFile? file
  let segments ← segments? file header
  let sections ← sections? file header
  let _ ← names? file sections header.namesSection
  let symbols ← symbols? file header.layout sections
  return { header, segments, symbols }

/-- The value of a symbol; of several symbols with one name the last one counts. -/
def symbol? (file : File) (name : String) : Option Nat :=
  (file.symbols.reverse.find? (·.1 == name)).map Prod.snd

end File

end Elf

end RiscV
