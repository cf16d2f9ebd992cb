import RiscV.Instruction.Assembly
import RiscV.Instruction.Compressed
import RiscV.Instruction.Decode

/-!
# The bits of an instruction

Memory holds an instruction in one parcel of 16 bits or in two.  A single parcel means the
instruction that the compressed one stands for, and two parcels the one they encode.  Bits without
a meaning are shown as such.
-/

namespace RiscV

/-- The bits of an instruction, which may turn out to have no meaning. -/
inductive InstructionBits where
  | short (code : BitVec 16)
  /-- Two parcels, the first of them in the low half. -/
  | long (word : BitVec 32)
  deriving DecidableEq, Repr

namespace InstructionBits

/-- Tells from its low bits whether a word holds one parcel or two. -/
def ofWord (word : BitVec 32) : InstructionBits :=
  if Compressed.isShort (word.setWidth 16) then short (word.setWidth 16) else long word

/-- Number of bytes that the bits take in memory. -/
def size : InstructionBits → Nat
  | short _ => 2
  | long _ => 4

/-- The bits as a register value. -/
def value {x : Xlen} : InstructionBits → Word x
  | short code => code.setWidth x.bits
  | long word => word.setWidth x.bits

/-- The instruction that the bits mean, on registers of the given width. -/
def meaning? (x : Xlen) : InstructionBits → Option Instruction
  | short code => Compressed.expand? x code
  | long word => (Instruction.decode x word).toOption

def text (x : Xlen) (bits : InstructionBits) : String :=
  match bits.meaning? x with
  | some instruction => instruction.text
  | none =>
      match bits with
      | short code => "unknown " ++ Text.Numeral.hex 4 code.toNat
      | long word => "unknown " ++ Text.Numeral.hex 8 word.toNat

end InstructionBits

/-- The assembly text of the instruction at the start of a word. -/
def disassemble (x : Xlen) (word : BitVec 32) : String := (InstructionBits.ofWord word).text x

end RiscV
