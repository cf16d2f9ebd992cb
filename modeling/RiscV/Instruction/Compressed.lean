import RiscV.Instruction.Basic

/-!
# Compressed instructions

A 16-bit parcel whose low two bits are not both set holds a compressed instruction, which stands
for one of the ordinary instructions.  The low two bits and the top three select the form; the
pieces of an immediate are scattered over the rest.
-/

namespace RiscV

namespace Compressed

/-- Whether a parcel holds a compressed instruction, and is not the start of a longer one. -/
def isShort (parcel : BitVec 16) : Bool := parcel.extractLsb' 0 2 != 3

/-- The `width` bits of a parcel from `start` on. -/
def bits (code : BitVec 16) (start width : Nat) : BitVec width := code.extractLsb' start width

/-- The full register field next to the function code. -/
def rd (code : BitVec 16) : Register := bits code 7 5

/-- The full register field next to the low bits. -/
def rs2 (code : BitVec 16) : Register := bits code 2 5

/-- The short register field next to the function code. -/
def shortRs1 (code : BitVec 16) : Register := Register.ofCompressed (bits code 7 3)

/-- The short register field next to the low bits. -/
def shortRs2 (code : BitVec 16) : Register := Register.ofCompressed (bits code 2 3)

/-- The six bits of a small immediate or a shift amount. -/
def small (code : BitVec 16) : BitVec 6 := bits code 12 1 ++ bits code 2 5

/-- A small signed immediate. -/
def immediate (code : BitVec 16) : BitVec 12 := (small code).signExtend 12

/-- The increment of a pointer into the stack frame. -/
def frameIncrement (code : BitVec 16) : BitVec 12 :=
  0#2 ++ bits code 7 4 ++ bits code 11 2 ++ bits code 5 1 ++ bits code 6 1 ++ 0#2

/-- The increment of the stack pointer. -/
def stackIncrement (code : BitVec 16) : BitVec 10 :=
  bits code 12 1 ++ bits code 3 2 ++ bits code 5 1 ++ bits code 2 1 ++ bits code 6 1 ++ 0#4

/-- The offset of a word from a register. -/
def wordOffset (code : BitVec 16) : BitVec 12 :=
  0#5 ++ bits code 5 1 ++ bits code 10 3 ++ bits code 6 1 ++ 0#2

/-- The offset of a doubleword from a register. -/
def doublewordOffset (code : BitVec 16) : BitVec 12 :=
  0#4 ++ bits code 5 2 ++ bits code 10 3 ++ 0#3

/-- The offset from the stack pointer of a word to load. -/
def wordLoadOffset (code : BitVec 16) : BitVec 12 :=
  0#4 ++ bits code 2 2 ++ bits code 12 1 ++ bits code 4 3 ++ 0#2

/-- The offset from the stack pointer of a doubleword to load. -/
def doublewordLoadOffset (code : BitVec 16) : BitVec 12 :=
  0#3 ++ bits code 2 3 ++ bits code 12 1 ++ bits code 5 2 ++ 0#3

/-- The offset from the stack pointer of a word to store. -/
def wordStoreOffset (code : BitVec 16) : BitVec 12 :=
  0#4 ++ bits code 7 2 ++ bits code 9 4 ++ 0#2

/-- The offset from the stack pointer of a doubleword to store. -/
def doublewordStoreOffset (code : BitVec 16) : BitVec 12 :=
  0#3 ++ bits code 7 3 ++ bits code 10 3 ++ 0#3

/-- The halfword offset of a jump. -/
def jumpOffset (code : BitVec 16) : BitVec 20 :=
  (bits code 12 1 ++ bits code 8 1 ++ bits code 9 2 ++ bits code 6 1 ++ bits code 7 1 ++
    bits code 2 1 ++ bits code 11 1 ++ bits code 3 3).signExtend 20

/-- The halfword offset of a branch. -/
def branchOffset (code : BitVec 16) : BitVec 12 :=
  (bits code 12 1 ++ bits code 5 2 ++ bits code 2 1 ++ bits code 10 2 ++
    bits code 3 2).signExtend 12

/-- An instruction that exists only under a condition. -/
def when (condition : Bool) (instruction : Instruction) : Option Instruction :=
  if condition then some instruction else none

/-- A shift of a register by an amount that is below its width. -/
def shift? (x : Xlen) (op : ShiftOp) (register : Register) (code : BitVec 16) :
    Option Instruction :=
  when ((small code).toNat < x.bits) (.shift op register register (small code))

/-- Accesses relative to a register, and pointers into the stack frame. -/
def expandAccess? (x : Xlen) (code : BitVec 16) : Option Instruction :=
  match bits code 13 3 with
  | 0b000 =>
      when (frameIncrement code != 0)
        (.immediate .addi (shortRs2 code) Register.sp (frameIncrement code))
  | 0b010 => some (.load .lw (shortRs2 code) (shortRs1 code) (wordOffset code))
  | 0b011 => when x.isWide (.load .ld (shortRs2 code) (shortRs1 code) (doublewordOffset code))
  | 0b110 => some (.store .sw (shortRs2 code) (shortRs1 code) (wordOffset code))
  | 0b111 => when x.isWide (.store .sd (shortRs2 code) (shortRs1 code) (doublewordOffset code))
  | _ => none

/-- Operations on two of the eight short registers. -/
def expandRegister? (x : Xlen) (code : BitVec 16) : Option Instruction :=
  let dest := shortRs1 code
  let source := shortRs2 code
  match bits code 12 1, bits code 5 2 with
  | 0, 0b00 => some (.register .sub dest dest source)
  | 0, 0b01 => some (.register .xor dest dest source)
  | 0, 0b10 => some (.register .or dest dest source)
  | 0, 0b11 => some (.register .and dest dest source)
  | 1, 0b00 => when x.isWide (.registerWord .subw dest dest source)
  | 1, 0b01 => when x.isWide (.registerWord .addw dest dest source)
  | _, _ => none

/-- Operations on one of the eight short registers. -/
def expandArithmetic? (x : Xlen) (code : BitVec 16) : Option Instruction :=
  match bits code 10 2 with
  | 0b00 => shift? x .srli (shortRs1 code) code
  | 0b01 => shift? x .srai (shortRs1 code) code
  | 0b10 => some (.immediate .andi (shortRs1 code) (shortRs1 code) (immediate code))
  | _ => expandRegister? x code

/-- Constants, increments of the stack pointer, and upper immediates. -/
def expandUpper? (code : BitVec 16) : Option Instruction :=
  if rd code = Register.sp then
    when (stackIncrement code != 0)
      (.immediate .addi Register.sp Register.sp ((stackIncrement code).signExtend 12))
  else when (small code != 0) (.lui (rd code) ((small code).signExtend 20))

/-- Operations with an immediate, jumps and branches. -/
def expandImmediate? (x : Xlen) (code : BitVec 16) : Option Instruction :=
  match bits code 13 3 with
  | 0b000 => some (.immediate .addi (rd code) (rd code) (immediate code))
  | 0b001 =>
      if x.isWide then
        when (rd code != 0) (.immediateWord (rd code) (rd code) (immediate code))
      else some (.jal Register.ra (jumpOffset code))
  | 0b010 => some (.immediate .addi (rd code) 0 (immediate code))
  | 0b011 => expandUpper? code
  | 0b100 => expandArithmetic? x code
  | 0b101 => some (.jal 0 (jumpOffset code))
  | 0b110 => some (.branch .beq (shortRs1 code) 0 (branchOffset code))
  | _ => some (.branch .bne (shortRs1 code) 0 (branchOffset code))

/-- Moves, additions, and jumps to a register. -/
def expandMove? (code : BitVec 16) : Option Instruction :=
  if bits code 12 1 = 0 then
    if rs2 code = 0 then when (rd code != 0) (.jalr 0 (rd code) 0)
    else some (.register .add (rd code) 0 (rs2 code))
  else if rs2 code = 0 then
    if rd code = 0 then some .ebreak else some (.jalr Register.ra (rd code) 0)
  else some (.register .add (rd code) (rd code) (rs2 code))

/-- Accesses relative to the stack pointer, and operations on full registers. -/
def expandStack? (x : Xlen) (code : BitVec 16) : Option Instruction :=
  match bits code 13 3 with
  | 0b000 => shift? x .slli (rd code) code
  | 0b010 => when (rd code != 0) (.load .lw (rd code) Register.sp (wordLoadOffset code))
  | 0b011 =>
      when (x.isWide && rd code != 0)
        (.load .ld (rd code) Register.sp (doublewordLoadOffset code))
  | 0b100 => expandMove? code
  | 0b110 => some (.store .sw (rs2 code) Register.sp (wordStoreOffset code))
  | 0b111 => when x.isWide (.store .sd (rs2 code) Register.sp (doublewordStoreOffset code))
  | _ => none

/-- The instruction that a compressed one stands for, on registers of the given width. -/
def expand? (x : Xlen) (code : BitVec 16) : Option Instruction :=
  match bits code 0 2 with
  | 0b00 => expandAccess? x code
  | 0b01 => expandImmediate? x code
  | 0b10 => expandStack? x code
  | _ => none

end Compressed

end RiscV
