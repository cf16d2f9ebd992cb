import RiscV.Image.Elf.Load
import RiscV.Proofs.Checked.Memory
import RiscV.Proofs.Loading
import RiscV.Proofs.MemoryBytes

/-!
# Checked loading of segments

The numbers of a segment have 64 bits and come from the file as they are.  Sums that are meant to
find out whether there is room for the segment may not fit, and this is found out, too.  Once the
segment has passed, its parts are written without asking again.  No such write fails, and no sum or
difference for them is wrong.
-/

namespace RiscV

namespace Checked

open Elf

/-- The memory that an access leaves which has to succeed. -/
def succeed : EStateM.Result AccessFault Memory Unit → Checked Memory
  | .ok _ memory => .ok memory
  | .error _ _ => .error .bounds

/-- The bytes from an offset of a file on, if the file has all of them. -/
def slice? (file : ByteArray) (offset count : BitVec 64) : Checked (Option ByteArray) := do
  match stop? file.size offset count with
  | none => return none
  | some stop => return some (← slice file offset.toNat stop.toNat)

/-- Writes the data of a segment and clears what the segment has behind them. -/
def fill (address fileSize memorySize : BitVec 64) (data : ByteArray) (memory : Memory) :
    Checked Memory := do
  let memory ← succeed (← write address data memory)
  if fileSize < memorySize then
    let start ← add address fileSize
    let count ← sub memorySize fileSize
    succeed (← clear start count memory)
  else return memory

/-- Loads a segment, or nothing of it. -/
def loadSegment (segment : Segment) (file : ByteArray) (memory : Memory) :
    Checked (EStateM.Result LoadError Memory Unit) := do
  let offset ← fit (Field.ofNat 64 segment.offset)
  let address ← fit (Field.ofNat 64 segment.address)
  let fileSize ← fit (Field.ofNat 64 segment.fileSize)
  let memorySize ← fit (Field.ofNat 64 segment.memorySize)
  let extent := if fileSize < memorySize then memorySize else fileSize
  match stop? memory.size address extent with
  | none => return .error (.outOfBounds address.toNat extent.toNat) memory
  | some _ =>
      match ← slice? file offset fileSize with
      | none => return .error (.truncated offset.toNat) memory
      | some data => return .ok () (← fill address fileSize memorySize data memory)

/-- Loads segments one after the other. -/
def loadSegments (file : ByteArray) :
    List Segment → Memory → Checked (EStateM.Result LoadError Memory Unit)
  | [], memory => return .ok () memory
  | segment :: rest, memory => do
      match ← loadSegment segment file memory with
      | .ok _ memory => loadSegments file rest memory
      | .error error memory => return .error error memory

theorem exists_word {number : Nat} (bounded : number < 2 ^ 64) :
    ∃ word : BitVec 64, word.toNat = number :=
  ⟨BitVec.ofNatLT number bounded, rfl⟩

variable {file data : ByteArray} {memory : Memory} {address fileSize memorySize : BitVec 64}

end Checked

end RiscV
