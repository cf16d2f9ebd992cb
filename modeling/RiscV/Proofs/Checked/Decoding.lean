import Mathlib.Tactic.IntervalCases
import RiscV.Instruction.Decode
import RiscV.Proofs.Checked.Operation

/-!
# Checked decoding

Decoding by shifts and masks on 32-bit words.  Every shift is by less than the width, and every
register number fits its five bits, so that each word decodes without an undefined operation.
-/

namespace RiscV

namespace Checked

open Format

/-! ## Fields -/

/-- The bits of a word from one place on that a mask keeps. -/
def cut (word : BitVec 32) (start : Nat) (mask : BitVec 32) : Checked (BitVec 32) := do
  let shifted ← shiftRight word start
  return shifted &&& mask

/-- The register that a byte gives the number of. -/
def register (number : BitVec 8) : Checked Register := fit (Register.ofNat number.toNat)

def rd (word : BitVec 32) : Checked Register := do
  let field ← cut word 7 0x1F
  register (field.setWidth 8)

def rs1 (word : BitVec 32) : Checked Register := do
  let field ← cut word 15 0x1F
  register (field.setWidth 8)

def rs2 (word : BitVec 32) : Checked Register := do
  let field ← cut word 20 0x1F
  register (field.setWidth 8)

def funct3 (word : BitVec 32) : Checked (BitVec 3) := do
  let field ← cut word 12 0b111
  return field.setWidth 3

def funct7 (word : BitVec 32) : Checked (BitVec 7) := do
  let field ← shiftRight word 25
  return field.setWidth 7

/-- The amount of a shift, in five or in six bits. -/
def shamt (narrow : Bool) (word : BitVec 32) : Checked (BitVec 32) :=
  cut word 20 (if narrow then 0x1F else 0x3F)

/-- The operation of a shift, which has a function code of seven or of six bits. -/
def shiftOp? (narrow : Bool) (word : BitVec 32) : Checked (Option ShiftOp) := do
  let funct ← shiftRight word (if narrow then 25 else 26)
  let code ← funct3 word
  if narrow then
    return if funct.getLsbD 0 then none else ShiftOp.ofFunct? (funct.extractLsb' 1 6) code
  else return ShiftOp.ofFunct? (funct.setWidth 6) code

def immI (word : BitVec 32) : Checked (BitVec 12) := do
  let value ← shiftRightSigned word 20
  return value.setWidth 12

def immS (word : BitVec 32) : Checked (BitVec 12) := do
  let low ← shiftLeft (word &&& 0x00000F80) 13
  let value ← shiftRightSigned ((word &&& 0xFE000000) ||| low) 20
  return value.setWidth 12

def immB (word : BitVec 32) : Checked (BitVec 12) := do
  let middle ← shiftLeft (word &&& 0x00000080) 23
  let upper ← shiftRight (word &&& 0x7E000000) 1
  let lower ← shiftLeft (word &&& 0x00000F00) 12
  let value ← shiftRightSigned ((word &&& 0x80000000) ||| middle ||| upper ||| lower) 19
  return value.extractLsb' 1 12

def immJ (word : BitVec 32) : Checked (BitVec 20) := do
  let upper ← shiftLeft (word &&& 0x000FF000) 11
  let middle ← shiftLeft (word &&& 0x00100000) 2
  let lower ← shiftRight (word &&& 0x7FE00000) 9
  let value ← shiftRightSigned ((word &&& 0x80000000) ||| upper ||| middle ||| lower) 11
  return value.extractLsb' 1 20

/-- Whether a bit of a word is set. -/
def flag (word : BitVec 32) (place : Nat) : Checked Bool := do
  let field ← cut word place 0b1
  return field == 1

/-- The set of accesses in the four bits from one place on. -/
def fenceSet (word : BitVec 32) (start : Nat) : Checked FenceSet := do
  return {
    input := ← flag word (start + 3)
    output := ← flag word (start + 2)
    reads := ← flag word (start + 1)
    writes := ← flag word start }

section Fields

variable (word : BitVec 32)

theorem cut_eq (start length : Nat) (mask : BitVec 32) (inside : start < 32)
    (ones : mask = (BitVec.allOnes length).setWidth 32) :
    cut word start mask = .ok ((word.extractLsb' start length).setWidth 32) := by
  rw [cut, shiftRight_eq inside, ok_bind, shiftRight_and ones]
  rfl

theorem register_eq (field : Register) :
    register ((field.setWidth 32).setWidth 8) = .ok field := by
  refine fit_ofNat ?_
  rw [BitVec.toNat_setWidth, BitVec.toNat_setWidth]
  have bound := field.isLt
  omega

@[simp]
theorem rd_eq : rd word = .ok (Format.rd word) := by
  rw [rd, cut_eq word 7 5 0x1F (by decide) rfl]
  exact register_eq _

@[simp]
theorem rs1_eq : rs1 word = .ok (Format.rs1 word) := by
  rw [rs1, cut_eq word 15 5 0x1F (by decide) rfl]
  exact register_eq _

@[simp]
theorem rs2_eq : rs2 word = .ok (Format.rs2 word) := by
  rw [rs2, cut_eq word 20 5 0x1F (by decide) rfl]
  exact register_eq _

@[simp]
theorem funct3_eq : funct3 word = .ok (Format.funct3 word) := by
  rw [funct3, cut_eq word 12 3 0b111 (by decide) rfl]
  simp [Format.funct3, BitVec.setWidth_setWidth_of_le]

@[simp]
theorem funct7_eq : funct7 word = .ok (Format.funct7 word) := by
  rw [funct7, shiftRight_eq (by decide), ok_bind, pure_eq_ok, Format.funct7]
  congr 1

theorem shamt_narrow : shamt true word = .ok ((shamt5 word).setWidth 32) :=
  cut_eq word 20 5 0x1F (by decide) rfl

theorem shamt_wide : shamt false word = .ok ((shamt6 word).setWidth 32) :=
  cut_eq word 20 6 0x3F (by decide) rfl

@[simp]
theorem immI_eq : immI word = .ok (Format.immI word) := by
  rw [immI, shiftRightSigned_eq (by decide), ok_bind, pure_eq_ok, Format.immI]
  congr 1
  apply BitVec.eq_of_getLsbD_eq
  intro index inside
  interval_cases index <;> simp [BitVec.getElem_sshiftRight]

/-- The immediate of stores with the width that its parts add up to. -/
theorem immS_eq_setWidth :
    Format.immS word = (word.extractLsb' 25 7 ++ word.extractLsb' 7 5).setWidth 12 :=
  (BitVec.setWidth_eq _).symm

/-- The offset of branches with the width that its parts add up to. -/
theorem immB_eq_setWidth :
    Format.immB word =
      (word.extractLsb' 31 1 ++ word.extractLsb' 7 1 ++ word.extractLsb' 25 6 ++
        word.extractLsb' 8 4).setWidth 12 :=
  (BitVec.setWidth_eq _).symm

/-- The offset of jumps with the width that its parts add up to. -/
theorem immJ_eq_setWidth :
    Format.immJ word =
      (word.extractLsb' 31 1 ++ word.extractLsb' 12 8 ++ word.extractLsb' 20 1 ++
        word.extractLsb' 21 10).setWidth 20 :=
  (BitVec.setWidth_eq _).symm

@[simp]
theorem immS_eq : immS word = .ok (Format.immS word) := by
  simp only [immS, shiftLeft, shiftRightSigned, Nat.reduceLT, if_true, ok_bind, pure_eq_ok,
    immS_eq_setWidth, setWidth_append_eq_or]
  congr 1
  apply BitVec.eq_of_getLsbD_eq
  intro index inside
  interval_cases index <;> simp [BitVec.getElem_sshiftRight]

@[simp]
theorem immB_eq : immB word = .ok (Format.immB word) := by
  simp only [immB, shiftLeft, shiftRight, shiftRightSigned, Nat.reduceLT, if_true, ok_bind,
    pure_eq_ok, immB_eq_setWidth, setWidth_append_eq_or]
  congr 1
  apply BitVec.eq_of_getLsbD_eq
  intro index inside
  interval_cases index <;> simp [BitVec.getElem_sshiftRight]

@[simp]
theorem immJ_eq : immJ word = .ok (Format.immJ word) := by
  simp only [immJ, shiftLeft, shiftRight, shiftRightSigned, Nat.reduceLT, if_true, ok_bind,
    pure_eq_ok, immJ_eq_setWidth, setWidth_append_eq_or]
  congr 1
  apply BitVec.eq_of_getLsbD_eq
  intro index inside
  interval_cases index <;> simp [BitVec.getElem_sshiftRight]

theorem flag_eq {place : Nat} (inside : place < 32) :
    flag word place = .ok (word.getLsbD place) := by
  have single : ∀ field : BitVec 1, (field.setWidth 32 == 1) = field.getLsbD 0 := by decide
  rw [flag, cut_eq word place 1 0b1 inside rfl, ok_bind, pure_eq_ok, single]
  simp

theorem fenceSet_eq {start : Nat} (inside : start + 3 < 32) :
    fenceSet word start = .ok (FenceSet.ofBits (word.extractLsb' start 4)) := by
  rw [fenceSet, flag_eq word (by omega), flag_eq word (by omega), flag_eq word (by omega),
    flag_eq word (by omega)]
  simp [FenceSet.ofBits]

end Fields

/-! ## Words -/

/-- A shift by an immediate amount. -/
def decodeShift? (x : Xlen) (word : BitVec 32) : Checked (Option Instruction) := do
  (← shiftOp? (!x.isWide) word).mapM fun op => do
    return .shift op (← rd word) (← rs1 word) ((← shamt (!x.isWide) word).setWidth 6)

/-- An operation on a low word with an immediate. -/
def decodeImmediateWord? (word : BitVec 32) : Checked (Option Instruction) := do
  if (← funct3 word) = 0 then
    return some (.immediateWord (← rd word) (← rs1 word) (← immI word))
  else
    (← shiftOp? true word).mapM fun op => do
      return .shiftWord op (← rd word) (← rs1 word) ((← shamt true word).setWidth 5)

/-- A fence. -/
def decodeFence? (word : BitVec 32) : Checked (Option Instruction) := do
  let code ← funct3 word
  if code = 0 then return some (.fence (← fenceSet word 24) (← fenceSet word 20))
  else return if code = 1 then some .fenceI else none

/-- An instruction without operands, or a change of a control register. -/
def decodeSystem? (word : BitVec 32) : Checked (Option Instruction) := do
  let code ← funct3 word
  if code = 0 then return Instruction.decodeSystem? word
  else
    (CsrOp.ofCode? (code.extractLsb' 0 2)).mapM fun op => do
      let number ← shiftRight word 20
      return .csr op (← rd word) (CsrOperand.ofField (code.extractLsb' 2 1) (← rs1 word))
        (number.setWidth 12)

/-- The instruction of a word whose opcode is known. -/
def decodeFields? (x : Xlen) (word : BitVec 32) : Opcode → Checked (Option Instruction)
  | .opImm => do
      match ImmediateOp.ofFunct3? (← funct3 word) with
      | some op => return some (.immediate op (← rd word) (← rs1 word) (← immI word))
      | none => decodeShift? x word
  | .opImm32 => decodeImmediateWord? word
  | .auipc => do return some (.auipc (← rd word) (immU word))
  | .lui => do return some (.lui (← rd word) (immU word))
  | .op => do
      (RegisterOp.ofFunct? (← funct7 word) (← funct3 word)).mapM fun op => do
        return .register op (← rd word) (← rs1 word) (← rs2 word)
  | .op32 => do
      (WordOp.ofFunct? (← funct7 word) (← funct3 word)).mapM fun op => do
        return .registerWord op (← rd word) (← rs1 word) (← rs2 word)
  | .jal => do return some (.jal (← rd word) (← immJ word))
  | .jalr => do
      if (← funct3 word) = 0 then
        return some (.jalr (← rd word) (← rs1 word) (← immI word))
      else return none
  | .branch => do
      (Condition.ofFunct3? (← funct3 word)).mapM fun condition => do
        return .branch condition (← rs1 word) (← rs2 word) (← immB word)
  | .load => do
      (LoadOp.ofFunct3? x (← funct3 word)).mapM fun op => do
        return .load op (← rd word) (← rs1 word) (← immI word)
  | .store => do
      (StoreOp.ofFunct3? x (← funct3 word)).mapM fun op => do
        return .store op (← rs2 word) (← rs1 word) (← immS word)
  | .miscMem => decodeFence? word
  | .system => decodeSystem? word

/-- The instruction of a word, for registers of the given width. -/
def decode (x : Xlen) (word : BitVec 32) : Checked (Except DecodeError Instruction) := do
  match Opcode.ofCode? x ((word &&& 0x7F).setWidth 7) with
  | none => return .error .unsupportedOpcode
  | some code =>
      match ← decodeFields? x word code with
      | none => return .error .illegal
      | some instruction => return .ok instruction

section Words

variable (x : Xlen) (word : BitVec 32)

theorem shiftOp?_wide :
    shiftOp? false word = .ok (ShiftOp.ofFunct? (funct6 word) (Format.funct3 word)) := by
  simp only [shiftOp?, Bool.false_eq_true, if_false, shiftRight_eq (by decide : 26 < 32), ok_bind,
    funct3_eq]
  rfl

theorem shiftOp?_narrow :
    shiftOp? true word =
      .ok (if (shamt6 word).getLsbD 5 then none
        else ShiftOp.ofFunct? (funct6 word) (Format.funct3 word)) := by
  have last : (word >>> 25).getLsbD 0 = (shamt6 word).getLsbD 5 := by
    simp [shamt6]
  have code : (word >>> 25).extractLsb' 1 6 = funct6 word := by
    apply BitVec.eq_of_getLsbD_eq
    intro index inside
    simp [funct6, ← Nat.add_assoc]
  simp only [shiftOp?, if_true, shiftRight_eq (by decide : 25 < 32), ok_bind, funct3_eq, last, code]
  rfl

/-- An amount of six bits is below the width of a narrow register if its last bit is clear. -/
theorem amount_narrow (amount : BitVec 6) :
    amount.toNat < 32 ↔ ¬ amount.getLsbD 5 = true := by
  revert amount
  decide

theorem setWidth_shamt5 (below : ¬ (shamt6 word).getLsbD 5 = true) :
    ((shamt5 word).setWidth 32).setWidth 6 = shamt6 word := by
  have extend : ∀ amount : BitVec 6, ¬ amount.getLsbD 5 = true →
      ((amount.extractLsb' 0 5).setWidth 32).setWidth 6 = amount := by decide
  have low : (shamt6 word).extractLsb' 0 5 = shamt5 word :=
    BitVec.eq_of_getLsbD_eq fun index inside => by
      simp [shamt5, shamt6, inside, Nat.lt_succ_of_lt inside]
  rw [← low]
  exact extend _ below

theorem decodeShift?_eq : decodeShift? x word = .ok (Instruction.decodeShift? x word) := by
  cases x with
  | rv32 =>
      have bound : (shamt6 word).toNat < Xlen.rv32.bits ↔ ¬ (shamt6 word).getLsbD 5 = true :=
        amount_narrow _
      simp only [decodeShift?, Instruction.decodeShift?, Xlen.isWide, Bool.not_false,
        shiftOp?_narrow, shamt_narrow, rd_eq, rs1_eq, ok_bind, pure_eq_ok, mapM_ok, bound]
      split
      · rfl
      · rename_i below
        rw [setWidth_shamt5 word below]
  | rv64 =>
      have bound : (shamt6 word).toNat < Xlen.rv64.bits := (shamt6 word).isLt
      simp only [decodeShift?, Instruction.decodeShift?, Xlen.isWide, Bool.not_true,
        shiftOp?_wide, shamt_wide, rd_eq, rs1_eq, ok_bind, pure_eq_ok, mapM_ok, if_pos bound]
      rw [BitVec.setWidth_setWidth_of_le _ (by decide), BitVec.setWidth_eq]

theorem decodeImmediateWord?_eq :
    decodeImmediateWord? word = .ok (Instruction.decodeImmediateWord? word) := by
  have last : (word.extractLsb' 25 1 = 0) ↔ ¬ (shamt6 word).getLsbD 5 = true := by
    have single : ∀ field : BitVec 1, field = 0 ↔ ¬ field.getLsbD 0 = true := by decide
    rw [single]
    simp [shamt6]
  have amount : ((shamt5 word).setWidth 32).setWidth 5 = shamt5 word := by
    rw [BitVec.setWidth_setWidth_of_le _ (by decide), BitVec.setWidth_eq]
  simp only [decodeImmediateWord?, Instruction.decodeImmediateWord?, funct3_eq, shiftOp?_narrow,
    shamt_narrow, rd_eq, rs1_eq, immI_eq, ok_bind, pure_eq_ok, mapM_ok, amount, last]
  split
  · rfl
  · split <;> rfl

theorem decodeFence?_eq : decodeFence? word = .ok (Instruction.decodeFence? word) := by
  simp only [decodeFence?, Instruction.decodeFence?, funct3_eq, ok_bind,
    fenceSet_eq word (by decide : 24 + 3 < 32), fenceSet_eq word (by decide : 20 + 3 < 32),
    pure_eq_ok]
  split <;> rfl

theorem decodeSystem?_eq :
    decodeSystem? word =
      .ok (if Format.funct3 word = 0 then Instruction.decodeSystem? word
        else Instruction.decodeCsr? word) := by
  have number : (word >>> 20).setWidth 12 = Format.immI word := rfl
  simp only [decodeSystem?, Instruction.decodeCsr?, funct3_eq, rd_eq, rs1_eq, ok_bind, pure_eq_ok,
    shiftRight_eq (by decide : 20 < 32), mapM_ok, number]
  split <;> rfl

theorem decodeFields?_eq (code : Opcode) :
    decodeFields? x word code = .ok (Instruction.decodeFields? x word code) := by
  cases code with
  | opImm =>
      simp only [decodeFields?, Instruction.decodeFields?, Instruction.decodeImmediate?, funct3_eq,
        ok_bind]
      cases ImmediateOp.ofFunct3? (Format.funct3 word) with
      | some op => simp
      | none => exact decodeShift?_eq x word
  | opImm32 => exact decodeImmediateWord?_eq word
  | miscMem => exact decodeFence?_eq word
  | system => exact decodeSystem?_eq word
  | jalr =>
      simp only [decodeFields?, Instruction.decodeFields?, funct3_eq, ok_bind]
      split <;> simp
  | auipc | lui | jal => simp [decodeFields?, Instruction.decodeFields?]
  | op | op32 | branch | load | store =>
      simp only [decodeFields?, Instruction.decodeFields?, funct3_eq, funct7_eq, rd_eq, rs1_eq,
        rs2_eq, immI_eq, immS_eq, immB_eq, ok_bind, pure_eq_ok, mapM_ok]

/-- Every word is decoded without an undefined operation. -/
theorem decode_eq : decode x word = .ok (Instruction.decode x word) := by
  have known : (word &&& 0x7F).setWidth 7 = opcode word := by
    apply BitVec.eq_of_getLsbD_eq
    intro index inside
    interval_cases index <;> simp [opcode]
  simp only [decode, Instruction.decode, known]
  cases Opcode.ofCode? x (opcode word) with
  | none => rfl
  | some code =>
      simp only [decodeFields?_eq, ok_bind]
      cases Instruction.decodeFields? x word code <;> rfl

end Words

end Checked

end RiscV
