import RiscV.Image.Elf.Layout

/-!
# The tables of executables

An executable starts with a header, which tells where the tables of segments and of sections are.
One of the sections may be a table of symbols.  An entry can be read if all of it lies within the
file.
-/

namespace RiscV

namespace Elf

/-- The header of an executable. -/
structure Header where
  /-- How the numbers of the file are laid out. -/
  layout : Layout
  /-- The machine that the executable is for. -/
  machine : Nat
  /-- The address at which execution starts. -/
  entry : Nat
  /-- Where the table of segments starts. -/
  segmentsOffset : Nat
  segmentCount : Nat
  /-- Where the table of sections starts, zero if there is none. -/
  sectionsOffset : Nat
  /-- Number of sections, zero if the first section tells it. -/
  sectionCount : Nat
  /-- The section that holds the names of sections. -/
  namesSection : Nat
  deriving DecidableEq, Repr

/-- A segment of an executable. -/
structure Segment where
  /-- What the segment is for. -/
  kind : Nat
  /-- Where its data starts in the file. -/
  offset : Nat
  /-- The address at which it is loaded. -/
  address : Nat
  /-- Number of bytes of its data. -/
  fileSize : Nat
  /-- Number of bytes that it takes in memory. -/
  memorySize : Nat
  deriving DecidableEq, Repr

/-- A section of an executable. -/
structure Section where
  kind : Nat
  address : Nat
  /-- Where its data starts in the file. -/
  offset : Nat
  /-- Number of bytes of its data. -/
  size : Nat
  /-- Another section that it refers to. -/
  link : Nat
  /-- The size of an entry, if it is a table. -/
  entrySize : Nat
  deriving DecidableEq, Repr

/-- An entry of a table of symbols. -/
structure Symbol where
  /-- Where the name starts in the table of names. -/
  name : Nat
  /-- The value of the symbol. -/
  value : Nat
  deriving DecidableEq, Repr

/-- The first bytes of every executable. -/
def magic : List UInt8 := [0x7F, 0x45, 0x4C, 0x46]

/-- Number of bytes in front of the numbers of the header. -/
def identificationSize : Nat := 16

namespace Layout

/-- Reads the layout from the first bytes of a file. -/
def ofFile? (file : ByteArray) : Option Layout :=
  match (slice? file 0 identificationSize).map (·.data.toList) with
  | some (a :: b :: c :: d :: width :: order :: _) =>
      if [a, b, c, d] = magic ∧ (width = 1 ∨ width = 2) ∧ (order = 1 ∨ order = 2) then
        some { isWide := width = 2, isBigEndian := order = 2 }
      else none
  | _ => none

end Layout

namespace Header

/-- The size of the header. -/
def size : EntrySize := ⟨52, 64⟩

/-- The header of a file. -/
def ofFile? (file : ByteArray) : Option Header := do
  let layout ← Layout.ofFile? file
  let number := layout.field? file 0
  if ¬ Within file 0 (layout.size size) then none
  return {
    layout
    machine := ← number ⟨⟨18, 2⟩, ⟨18, 2⟩⟩
    entry := ← number ⟨⟨24, 4⟩, ⟨24, 8⟩⟩
    segmentsOffset := ← number ⟨⟨28, 4⟩, ⟨32, 8⟩⟩
    segmentCount := ← number ⟨⟨44, 2⟩, ⟨56, 2⟩⟩
    sectionsOffset := ← number ⟨⟨32, 4⟩, ⟨40, 8⟩⟩
    sectionCount := ← number ⟨⟨48, 2⟩, ⟨60, 2⟩⟩
    namesSection := ← number ⟨⟨50, 2⟩, ⟨62, 2⟩⟩ }

end Header

namespace Segment

/-- The size of an entry of the table of segments. -/
def size : EntrySize := ⟨32, 56⟩

/-- The segment whose entry starts at `base`. -/
def at? (layout : Layout) (file : ByteArray) (base : Nat) : Option Segment := do
  let number := layout.field? file base
  return {
    kind := ← number ⟨⟨0, 4⟩, ⟨0, 4⟩⟩
    offset := ← number ⟨⟨4, 4⟩, ⟨8, 8⟩⟩
    address := ← number ⟨⟨12, 4⟩, ⟨24, 8⟩⟩
    fileSize := ← number ⟨⟨16, 4⟩, ⟨32, 8⟩⟩
    memorySize := ← number ⟨⟨20, 4⟩, ⟨40, 8⟩⟩ }

end Segment

namespace Section

/-- The size of an entry of the table of sections. -/
def entrySizes : EntrySize := ⟨40, 64⟩

/-- The section whose entry starts at `base`. -/
def at? (layout : Layout) (file : ByteArray) (base : Nat) : Option Section := do
  let number := layout.field? file base
  return {
    kind := ← number ⟨⟨4, 4⟩, ⟨4, 4⟩⟩
    address := ← number ⟨⟨12, 4⟩, ⟨16, 8⟩⟩
    offset := ← number ⟨⟨16, 4⟩, ⟨24, 8⟩⟩
    size := ← number ⟨⟨20, 4⟩, ⟨32, 8⟩⟩
    link := ← number ⟨⟨24, 4⟩, ⟨40, 4⟩⟩
    entrySize := ← number ⟨⟨36, 4⟩, ⟨56, 8⟩⟩ }

end Section

namespace Symbol

/-- The size of an entry of a table of symbols. -/
def size : EntrySize := ⟨16, 24⟩

/-- The symbol whose entry starts at `base`. -/
def at? (layout : Layout) (file : ByteArray) (base : Nat) : Option Symbol := do
  let number := layout.field? file base
  return {
    name := ← number ⟨⟨0, 4⟩, ⟨0, 4⟩⟩
    value := ← number ⟨⟨4, 4⟩, ⟨8, 8⟩⟩ }

end Symbol

/-- The entries of a table of which every byte is within the file. -/
def table? {α : Type} (file : ByteArray) (readEntry : Nat → Option α) (start count size : Nat) :
    Option (List α) :=
  if Within file start (count * size) then
    (List.range count).mapM fun index => readEntry (start + index * size)
  else none

/-- The segments of an executable.  If there are none, their table may start anywhere. -/
def segments? (file : ByteArray) (header : Header) : Option (List Segment) :=
  if header.segmentCount = 0 then some []
  else
    table? file (Segment.at? header.layout file) header.segmentsOffset header.segmentCount
      (header.layout.size Segment.size)

/-- The sections of an executable.  If the header does not tell how many there are, the size of the
first one does; the first one is always there. -/
def sections? (file : ByteArray) (header : Header) : Option (List Section) :=
  if header.sectionsOffset = 0 then some []
  else do
    let size := header.layout.size Section.entrySizes
    if ¬ Within file header.sectionsOffset size then none
    let first ← Section.at? header.layout file header.sectionsOffset
    let count := if header.sectionCount = 0 then first.size else header.sectionCount
    table? file (Section.at? header.layout file) header.sectionsOffset (max 1 count) size

end Elf

end RiscV
