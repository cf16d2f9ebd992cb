import RiscV.Image.Elf.File
import RiscV.Image.Error
import RiscV.Memory
import RiscV.Record
import RiscV.Xlen

/-!
# Loading executables

The loadable segments of an executable are copied to their addresses one after the other, each
followed by zeros up to its size in memory.  Whether a segment can be loaded is known before
anything of it is written; the segments before one that cannot be loaded stay loaded.
-/

namespace RiscV

namespace Elf

/-- The number of the machine that executes the instructions of this library. -/
def machine : Nat := 243

/-- The kind of a segment that is loaded. -/
def loadable : Nat := 1

namespace Segment

/-- Number of bytes that loading the segment writes. -/
def extent (segment : Segment) : Nat := max segment.memorySize segment.fileSize

/-- Whether the segment can be loaded from a file into a memory of the given size. -/
def check (segment : Segment) (file : ByteArray) (memorySize : Nat) : Except LoadError Unit :=
  if ¬ segment.address + segment.extent ≤ memorySize then
    .error (.outOfBounds segment.address segment.extent)
  else if ¬ Within file segment.offset segment.fileSize then
    .error (.truncated segment.offset)
  else .ok ()

/-- The bytes that loading the segment writes. -/
def image (segment : Segment) (file : ByteArray) : ByteArray :=
  file.extract segment.offset (segment.offset + segment.fileSize) ++
    (Memory.zeros (segment.memorySize - segment.fileSize)).bytes

/-- Loads the segment, or nothing of it. -/
def load (segment : Segment) (file : ByteArray) : EStateM LoadError Memory Unit := fun memory =>
  match segment.check file memory.size with
  | .ok () => .ok () (memory.overwrite segment.address (segment.image file))
  | .error error => .error error memory

/-- The record of a segment that is loaded. -/
def record (segment : Segment) : Record :=
  { severity := .debug
    text := "Loading segment of " ++ Text.Numeral.hex 1 segment.extent ++ " bytes at " ++
      Text.Numeral.hex 1 segment.address }

end Segment

/-- Loads segments one after the other. -/
def loadSegments (file : ByteArray) : List Segment → EStateM LoadError Memory Unit
  | [] => pure ()
  | segment :: rest => do
      segment.load file
      loadSegments file rest

/-- The executable in a file, if it is one for registers of the given width. -/
def accept (x : Xlen) (file : ByteArray) : Except LoadError File :=
  match File.ofBytes? file with
  | none => .error .notExecutable
  | some elf =>
      if elf.header.machine ≠ machine then .error (.wrongMachine elf.header.machine)
      else if elf.header.layout.isWide ≠ x.isWide then .error (.classMismatch x.bits)
      else .ok elf

namespace File

/-- The segments that are loaded. -/
def loadableSegments (file : File) : List Segment := file.segments.filter (·.kind == loadable)

end File

/-- Loads the executable in a file. -/
def load (x : Xlen) (file : ByteArray) : EStateM LoadError Memory File :=
  match accept x file with
  | .error error => throw error
  | .ok elf => do
      loadSegments file elf.loadableSegments
      return elf

/-- The records of loading the executable in a file into a memory of the given size. -/
def records (x : Xlen) (file : ByteArray) (memorySize : Nat) : List Record :=
  match accept x file with
  | .error _ => []
  | .ok elf =>
      (elf.loadableSegments.takeWhile fun segment =>
        (segment.check file memorySize).isOk).map Segment.record

end Elf

end RiscV
