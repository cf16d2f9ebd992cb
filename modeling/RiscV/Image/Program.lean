import RiscV.Hart.Basic
import RiscV.Image.Elf.Load
import RiscV.Image.Hex

/-!
# Programs

A program is loaded into the memory of a hart from a file, which may turn out not to be there.
Loading changes nothing but the memory.
-/

namespace RiscV

namespace Hart

variable {x : Xlen}

/-- The contents of a file that has to be there. -/
def contents {σ : Type} (file : Option ByteArray) : EStateM LoadError σ ByteArray :=
  match file with
  | some bytes => pure bytes
  | none => throw .unreadable

/-- Loads a hex file. -/
def loadHex (file : Option ByteArray) : EStateM LoadError (Hart x) Unit :=
  onMemory do Hex.loadBytes (← contents file)

/-- Loads an executable. -/
def loadElf (file : Option ByteArray) : EStateM LoadError (Hart x) Elf.File :=
  onMemory do Elf.load x (← contents file)

end Hart

end RiscV
