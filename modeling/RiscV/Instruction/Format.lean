import RiscV.Register

/-!
# Instruction formats

A 32-bit instruction word consists of fields at fixed places: an opcode, function codes, register
numbers and the pieces of an immediate.  Each format has one function that puts its fields
together, and each field one that takes it out.
-/

namespace RiscV

namespace Format

/-- The major opcode. -/
def opcode (word : BitVec 32) : BitVec 7 := word.extractLsb' 0 7

/-- The destination register. -/
def rd (word : BitVec 32) : Register := word.extractLsb' 7 5

/-- The function code next to the destination register. -/
def funct3 (word : BitVec 32) : BitVec 3 := word.extractLsb' 12 3

/-- The first source register. -/
def rs1 (word : BitVec 32) : Register := word.extractLsb' 15 5

/-- The second source register. -/
def rs2 (word : BitVec 32) : Register := word.extractLsb' 20 5

/-- The function code in the top seven bits. -/
def funct7 (word : BitVec 32) : BitVec 7 := word.extractLsb' 25 7

/-- The function code in the top six bits. -/
def funct6 (word : BitVec 32) : BitVec 6 := word.extractLsb' 26 6

/-- The shift amount below the six-bit function code. -/
def shamt6 (word : BitVec 32) : BitVec 6 := word.extractLsb' 20 6

/-- The shift amount below the seven-bit function code. -/
def shamt5 (word : BitVec 32) : BitVec 5 := word.extractLsb' 20 5

/-- The immediate of loads, operations and register-relative jumps. -/
def immI (word : BitVec 32) : BitVec 12 := word.extractLsb' 20 12

/-- The immediate of stores. -/
def immS (word : BitVec 32) : BitVec 12 := word.extractLsb' 25 7 ++ word.extractLsb' 7 5

/-- The halfword offset of branches. -/
def immB (word : BitVec 32) : BitVec 12 :=
  word.extractLsb' 31 1 ++ word.extractLsb' 7 1 ++ word.extractLsb' 25 6 ++ word.extractLsb' 8 4

/-- The upper immediate. -/
def immU (word : BitVec 32) : BitVec 20 := word.extractLsb' 12 20

/-- The halfword offset of jumps. -/
def immJ (word : BitVec 32) : BitVec 20 :=
  word.extractLsb' 31 1 ++ word.extractLsb' 12 8 ++ word.extractLsb' 20 1 ++
    word.extractLsb' 21 10

/-- The format of operations on two registers. -/
def encodeR (funct7 : BitVec 7) (rs2 rs1 : Register) (funct3 : BitVec 3) (rd : Register)
    (opcode : BitVec 7) : BitVec 32 :=
  funct7 ++ rs2 ++ rs1 ++ funct3 ++ rd ++ opcode

/-- The format of operations on a register and an immediate. -/
def encodeI (imm : BitVec 12) (rs1 : Register) (funct3 : BitVec 3) (rd : Register)
    (opcode : BitVec 7) : BitVec 32 :=
  imm ++ rs1 ++ funct3 ++ rd ++ opcode

/-- The format of stores. -/
def encodeS (imm : BitVec 12) (rs2 rs1 : Register) (funct3 : BitVec 3) (opcode : BitVec 7) :
    BitVec 32 :=
  imm.extractLsb' 5 7 ++ rs2 ++ rs1 ++ funct3 ++ imm.extractLsb' 0 5 ++ opcode

/-- The format of branches. -/
def encodeB (offset : BitVec 12) (rs2 rs1 : Register) (funct3 : BitVec 3) (opcode : BitVec 7) :
    BitVec 32 :=
  offset.extractLsb' 11 1 ++ offset.extractLsb' 4 6 ++ rs2 ++ rs1 ++ funct3 ++
    offset.extractLsb' 0 4 ++ offset.extractLsb' 10 1 ++ opcode

/-- The format of upper immediates. -/
def encodeU (imm : BitVec 20) (rd : Register) (opcode : BitVec 7) : BitVec 32 :=
  imm ++ rd ++ opcode

/-- The format of jumps. -/
def encodeJ (offset : BitVec 20) (rd : Register) (opcode : BitVec 7) : BitVec 32 :=
  offset.extractLsb' 19 1 ++ offset.extractLsb' 0 10 ++ offset.extractLsb' 10 1 ++
    offset.extractLsb' 11 8 ++ rd ++ opcode

end Format

end RiscV
