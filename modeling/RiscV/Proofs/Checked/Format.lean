import Mathlib.Tactic.IntervalCases
import RiscV.Instruction.Encode
import RiscV.Proofs.Checked.Operation

/-!
# Checked formats

The formats of instructions as sums of shifted fields, with masks that cut the fields of an
immediate out of a 32-bit word.  No shift is by the width or more, and the sums are the words that
the fields make up side by side.
-/

namespace RiscV

namespace Checked

/-- The number of a register in a word. -/
def number (register : Register) : BitVec 32 := register.setWidth 32

def encodeR (funct7 : BitVec 7) (rs2 rs1 : BitVec 32) (funct3 : BitVec 3) (rd : BitVec 32)
    (opcode : BitVec 7) : Checked (BitVec 32) := do
  return (← shiftLeft (funct7.setWidth 32) 25) ||| (← shiftLeft rs2 20) ||| (← shiftLeft rs1 15) |||
    (← shiftLeft (funct3.setWidth 32) 12) ||| (← shiftLeft rd 7) ||| opcode.setWidth 32

def encodeI (imm rs1 : BitVec 32) (funct3 : BitVec 3) (rd : BitVec 32) (opcode : BitVec 7) :
    Checked (BitVec 32) := do
  return (← shiftLeft (imm &&& 0xFFF) 20) ||| (← shiftLeft rs1 15) |||
    (← shiftLeft (funct3.setWidth 32) 12) ||| (← shiftLeft rd 7) ||| opcode.setWidth 32

def encodeS (imm rs2 rs1 : BitVec 32) (funct3 : BitVec 3) (opcode : BitVec 7) :
    Checked (BitVec 32) := do
  let upper ← shiftRight imm 5
  return (← shiftLeft (upper &&& 0x7F) 25) ||| (← shiftLeft rs2 20) ||| (← shiftLeft rs1 15) |||
    (← shiftLeft (funct3.setWidth 32) 12) ||| (← shiftLeft (imm &&& 0x1F) 7) ||| opcode.setWidth 32

def encodeB (imm rs2 rs1 : BitVec 32) (funct3 : BitVec 3) (opcode : BitVec 7) :
    Checked (BitVec 32) := do
  let sign ← shiftRight imm 12
  let upper ← shiftRight imm 5
  let lower ← shiftRight imm 1
  let middle ← shiftRight imm 11
  return (← shiftLeft (sign &&& 0x1) 31) ||| (← shiftLeft (upper &&& 0x3F) 25) |||
    (← shiftLeft rs2 20) ||| (← shiftLeft rs1 15) ||| (← shiftLeft (funct3.setWidth 32) 12) |||
    (← shiftLeft (lower &&& 0xF) 8) ||| (← shiftLeft (middle &&& 0x1) 7) ||| opcode.setWidth 32

def encodeU (imm rd : BitVec 32) (opcode : BitVec 7) : Checked (BitVec 32) := do
  return (imm &&& 0xFFFFF000) ||| (← shiftLeft rd 7) ||| opcode.setWidth 32

def encodeJ (imm rd : BitVec 32) (opcode : BitVec 7) : Checked (BitVec 32) := do
  let sign ← shiftRight imm 20
  let lower ← shiftRight imm 1
  let middle ← shiftRight imm 11
  let upper ← shiftRight imm 12
  return (← shiftLeft (sign &&& 0x1) 31) ||| (← shiftLeft (lower &&& 0x3FF) 21) |||
    (← shiftLeft (middle &&& 0x1) 20) ||| (← shiftLeft (upper &&& 0xFF) 12) |||
    (← shiftLeft rd 7) ||| opcode.setWidth 32

variable (rs1 rs2 rd : Register) (funct3 : BitVec 3) (opcode : BitVec 7)

theorem encodeR_eq (funct7 : BitVec 7) :
    encodeR funct7 (number rs2) (number rs1) funct3 (number rd) opcode =
      .ok (Format.encodeR funct7 rs2 rs1 funct3 rd opcode) := by
  have format : Format.encodeR funct7 rs2 rs1 funct3 rd opcode =
      (funct7 ++ rs2 ++ rs1 ++ funct3 ++ rd ++ opcode).setWidth 32 := (BitVec.setWidth_eq _).symm
  unfold number
  simp only [encodeR, shiftLeft, Nat.reduceLT, if_true, ok_bind, pure_eq_ok, format,
    setWidth_append_eq_or, BitVec.shiftLeft_or_distrib]
  simp only [← BitVec.shiftLeft_add, Nat.reduceAdd]

theorem encodeI_eq {imm : BitVec 32} {field : BitVec 12} (low : imm.setWidth 12 = field) :
    encodeI imm (number rs1) funct3 (number rd) opcode =
      .ok (Format.encodeI field rs1 funct3 rd opcode) := by
  have format : Format.encodeI field rs1 funct3 rd opcode =
      (field ++ rs1 ++ funct3 ++ rd ++ opcode).setWidth 32 := (BitVec.setWidth_eq _).symm
  have cut : imm &&& 0xFFF = field.setWidth 32 := low ▸ and_mask rfl
  unfold number
  simp only [encodeI, shiftLeft, Nat.reduceLT, if_true, ok_bind, pure_eq_ok, format,
    setWidth_append_eq_or, BitVec.shiftLeft_or_distrib, cut]
  simp only [← BitVec.shiftLeft_add, Nat.reduceAdd]

/-- A piece of an immediate that is shifted to the low end. -/
theorem shiftRight_and_of_extractLsb' {offset bits : Nat} {imm mask : BitVec 32}
    {field : BitVec bits} (start length : Nat) (low : imm.extractLsb' offset bits = field)
    (ones : mask = (BitVec.allOnes length).setWidth 32) (inside : start + length ≤ bits) :
    imm >>> (offset + start) &&& mask = (field.extractLsb' start length).setWidth 32 := by
  rw [shiftRight_and ones, ← low, extractLsb'_extractLsb' inside]

theorem encodeS_eq {imm : BitVec 32} {field : BitVec 12} (low : imm.extractLsb' 0 12 = field) :
    encodeS imm (number rs2) (number rs1) funct3 opcode =
      .ok (Format.encodeS field rs2 rs1 funct3 opcode) := by
  have format : Format.encodeS field rs2 rs1 funct3 opcode =
      (field.extractLsb' 5 7 ++ rs2 ++ rs1 ++ funct3 ++ field.extractLsb' 0 5 ++ opcode).setWidth
        32 := (BitVec.setWidth_eq _).symm
  have upper : imm >>> 5 &&& 0x7F = (field.extractLsb' 5 7).setWidth 32 :=
    shiftRight_and_of_extractLsb' 5 7 low rfl (by decide)
  have lower : imm &&& 0x1F = (field.extractLsb' 0 5).setWidth 32 :=
    shiftRight_and_of_extractLsb' 0 5 low rfl (by decide)
  unfold number
  simp only [encodeS, shiftLeft, shiftRight, Nat.reduceLT, if_true, ok_bind, pure_eq_ok, format,
    setWidth_append_eq_or, BitVec.shiftLeft_or_distrib, upper, lower]
  simp only [← BitVec.shiftLeft_add, Nat.reduceAdd]

theorem encodeB_eq {imm : BitVec 32} {field : BitVec 12} (low : imm.extractLsb' 1 12 = field) :
    encodeB imm (number rs2) (number rs1) funct3 opcode =
      .ok (Format.encodeB field rs2 rs1 funct3 opcode) := by
  have format : Format.encodeB field rs2 rs1 funct3 opcode =
      (field.extractLsb' 11 1 ++ field.extractLsb' 4 6 ++ rs2 ++ rs1 ++ funct3 ++
        field.extractLsb' 0 4 ++ field.extractLsb' 10 1 ++ opcode).setWidth 32 :=
    (BitVec.setWidth_eq _).symm
  have sign : imm >>> 12 &&& 0x1 = (field.extractLsb' 11 1).setWidth 32 :=
    shiftRight_and_of_extractLsb' 11 1 low rfl (by decide)
  have upper : imm >>> 5 &&& 0x3F = (field.extractLsb' 4 6).setWidth 32 :=
    shiftRight_and_of_extractLsb' 4 6 low rfl (by decide)
  have lower : imm >>> 1 &&& 0xF = (field.extractLsb' 0 4).setWidth 32 :=
    shiftRight_and_of_extractLsb' 0 4 low rfl (by decide)
  have middle : imm >>> 11 &&& 0x1 = (field.extractLsb' 10 1).setWidth 32 :=
    shiftRight_and_of_extractLsb' 10 1 low rfl (by decide)
  unfold number
  simp only [encodeB, shiftLeft, shiftRight, Nat.reduceLT, if_true, ok_bind, pure_eq_ok, format,
    setWidth_append_eq_or, BitVec.shiftLeft_or_distrib, sign, upper, lower, middle]
  simp only [← BitVec.shiftLeft_add, Nat.reduceAdd]

theorem encodeU_eq {imm : BitVec 32} {field : BitVec 20} (high : imm.extractLsb' 12 20 = field) :
    encodeU imm (number rd) opcode = .ok (Format.encodeU field rd opcode) := by
  have format : Format.encodeU field rd opcode = (field ++ rd ++ opcode).setWidth 32 :=
    (BitVec.setWidth_eq _).symm
  have upper : imm &&& (0xFFFFF000 : BitVec 32) = field.setWidth 32 <<< 12 := by
    subst high
    apply BitVec.eq_of_getLsbD_eq
    intro index inside
    interval_cases index <;> simp
  unfold number
  simp only [encodeU, shiftLeft, Nat.reduceLT, if_true, ok_bind, pure_eq_ok, format,
    setWidth_append_eq_or, BitVec.shiftLeft_or_distrib, upper]
  simp only [← BitVec.shiftLeft_add, Nat.reduceAdd]

theorem encodeJ_eq {imm : BitVec 32} {field : BitVec 20} (low : imm.extractLsb' 1 20 = field) :
    encodeJ imm (number rd) opcode = .ok (Format.encodeJ field rd opcode) := by
  have format : Format.encodeJ field rd opcode =
      (field.extractLsb' 19 1 ++ field.extractLsb' 0 10 ++ field.extractLsb' 10 1 ++
        field.extractLsb' 11 8 ++ rd ++ opcode).setWidth 32 := (BitVec.setWidth_eq _).symm
  have sign : imm >>> 20 &&& 0x1 = (field.extractLsb' 19 1).setWidth 32 :=
    shiftRight_and_of_extractLsb' 19 1 low rfl (by decide)
  have lower : imm >>> 1 &&& 0x3FF = (field.extractLsb' 0 10).setWidth 32 :=
    shiftRight_and_of_extractLsb' 0 10 low rfl (by decide)
  have middle : imm >>> 11 &&& 0x1 = (field.extractLsb' 10 1).setWidth 32 :=
    shiftRight_and_of_extractLsb' 10 1 low rfl (by decide)
  have upper : imm >>> 12 &&& 0xFF = (field.extractLsb' 11 8).setWidth 32 :=
    shiftRight_and_of_extractLsb' 11 8 low rfl (by decide)
  unfold number
  simp only [encodeJ, shiftLeft, shiftRight, Nat.reduceLT, if_true, ok_bind, pure_eq_ok, format,
    setWidth_append_eq_or, BitVec.shiftLeft_or_distrib, sign, upper, lower, middle]
  simp only [← BitVec.shiftLeft_add, Nat.reduceAdd]

end Checked

end RiscV
