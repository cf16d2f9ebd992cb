import Mathlib.Tactic.Common
import RiscV.Instruction.Format

/-!
# Fields of the formats

Taking a field out of a word gives back what the format put there, and putting all fields of a word
together gives back the word.
-/

namespace RiscV

namespace Format

section Fields

variable (imm : BitVec 12) (upper : BitVec 20) (code7 : BitVec 7) (code3 : BitVec 3)
  (dest left right : Register) (code : BitVec 7)

@[simp]
theorem opcode_encodeR : opcode (encodeR code7 right left code3 dest code) = code := by
  rw [opcode, encodeR]
  exact BitVec.extractLsb'_append_eq_right

@[simp]
theorem opcode_encodeI : opcode (encodeI imm left code3 dest code) = code := by
  rw [opcode, encodeI]
  exact BitVec.extractLsb'_append_eq_right

@[simp]
theorem opcode_encodeS : opcode (encodeS imm right left code3 code) = code := by
  rw [opcode, encodeS]
  exact BitVec.extractLsb'_append_eq_right

@[simp]
theorem opcode_encodeB : opcode (encodeB imm right left code3 code) = code := by
  rw [opcode, encodeB]
  exact BitVec.extractLsb'_append_eq_right

@[simp]
theorem opcode_encodeU : opcode (encodeU upper dest code) = code := by
  rw [opcode, encodeU]
  exact BitVec.extractLsb'_append_eq_right

@[simp]
theorem opcode_encodeJ : opcode (encodeJ upper dest code) = code := by
  rw [opcode, encodeJ]
  exact BitVec.extractLsb'_append_eq_right

@[simp]
theorem funct3_encodeR : funct3 (encodeR code7 right left code3 dest code) = code3 := by
  rw [funct3, encodeR, BitVec.extractLsb'_append_eq_of_le (by omega),
    BitVec.extractLsb'_append_eq_of_le (by omega)]
  exact BitVec.extractLsb'_append_eq_right

@[simp]
theorem funct3_encodeI : funct3 (encodeI imm left code3 dest code) = code3 := by
  rw [funct3, encodeI, BitVec.extractLsb'_append_eq_of_le (by omega),
    BitVec.extractLsb'_append_eq_of_le (by omega)]
  exact BitVec.extractLsb'_append_eq_right

@[simp]
theorem funct3_encodeS : funct3 (encodeS imm right left code3 code) = code3 := by
  rw [funct3, encodeS, BitVec.extractLsb'_append_eq_of_le (by omega),
    BitVec.extractLsb'_append_eq_of_le (by omega)]
  exact BitVec.extractLsb'_append_eq_right

@[simp]
theorem funct3_encodeB : funct3 (encodeB imm right left code3 code) = code3 := by
  rw [funct3, encodeB, BitVec.extractLsb'_append_eq_of_le (by omega),
    BitVec.extractLsb'_append_eq_of_le (by omega), BitVec.extractLsb'_append_eq_of_le (by omega)]
  exact BitVec.extractLsb'_append_eq_right

@[simp]
theorem rd_encodeR : rd (encodeR code7 right left code3 dest code) = dest := by
  rw [rd, encodeR, BitVec.extractLsb'_append_eq_of_le (by omega)]
  exact BitVec.extractLsb'_append_eq_right

@[simp]
theorem rd_encodeI : rd (encodeI imm left code3 dest code) = dest := by
  rw [rd, encodeI, BitVec.extractLsb'_append_eq_of_le (by omega)]
  exact BitVec.extractLsb'_append_eq_right

@[simp]
theorem rd_encodeU : rd (encodeU upper dest code) = dest := by
  rw [rd, encodeU, BitVec.extractLsb'_append_eq_of_le (by omega)]
  exact BitVec.extractLsb'_append_eq_right

@[simp]
theorem rd_encodeJ : rd (encodeJ upper dest code) = dest := by
  rw [rd, encodeJ, BitVec.extractLsb'_append_eq_of_le (by omega)]
  exact BitVec.extractLsb'_append_eq_right

@[simp]
theorem rs1_encodeR : rs1 (encodeR code7 right left code3 dest code) = left := by
  rw [rs1, encodeR, BitVec.extractLsb'_append_eq_of_le (by omega),
    BitVec.extractLsb'_append_eq_of_le (by omega), BitVec.extractLsb'_append_eq_of_le (by omega)]
  exact BitVec.extractLsb'_append_eq_right

@[simp]
theorem rs1_encodeI : rs1 (encodeI imm left code3 dest code) = left := by
  rw [rs1, encodeI, BitVec.extractLsb'_append_eq_of_le (by omega),
    BitVec.extractLsb'_append_eq_of_le (by omega), BitVec.extractLsb'_append_eq_of_le (by omega)]
  exact BitVec.extractLsb'_append_eq_right

@[simp]
theorem rs1_encodeS : rs1 (encodeS imm right left code3 code) = left := by
  rw [rs1, encodeS, BitVec.extractLsb'_append_eq_of_le (by omega),
    BitVec.extractLsb'_append_eq_of_le (by omega), BitVec.extractLsb'_append_eq_of_le (by omega)]
  exact BitVec.extractLsb'_append_eq_right

@[simp]
theorem rs1_encodeB : rs1 (encodeB imm right left code3 code) = left := by
  rw [rs1, encodeB, BitVec.extractLsb'_append_eq_of_le (by omega),
    BitVec.extractLsb'_append_eq_of_le (by omega), BitVec.extractLsb'_append_eq_of_le (by omega),
    BitVec.extractLsb'_append_eq_of_le (by omega)]
  exact BitVec.extractLsb'_append_eq_right

@[simp]
theorem rs2_encodeR : rs2 (encodeR code7 right left code3 dest code) = right := by
  rw [rs2, encodeR, BitVec.extractLsb'_append_eq_of_le (by omega),
    BitVec.extractLsb'_append_eq_of_le (by omega), BitVec.extractLsb'_append_eq_of_le (by omega),
    BitVec.extractLsb'_append_eq_of_le (by omega)]
  exact BitVec.extractLsb'_append_eq_right

@[simp]
theorem rs2_encodeS : rs2 (encodeS imm right left code3 code) = right := by
  rw [rs2, encodeS, BitVec.extractLsb'_append_eq_of_le (by omega),
    BitVec.extractLsb'_append_eq_of_le (by omega), BitVec.extractLsb'_append_eq_of_le (by omega),
    BitVec.extractLsb'_append_eq_of_le (by omega)]
  exact BitVec.extractLsb'_append_eq_right

@[simp]
theorem rs2_encodeB : rs2 (encodeB imm right left code3 code) = right := by
  rw [rs2, encodeB, BitVec.extractLsb'_append_eq_of_le (by omega),
    BitVec.extractLsb'_append_eq_of_le (by omega), BitVec.extractLsb'_append_eq_of_le (by omega),
    BitVec.extractLsb'_append_eq_of_le (by omega), BitVec.extractLsb'_append_eq_of_le (by omega)]
  exact BitVec.extractLsb'_append_eq_right

@[simp]
theorem funct7_encodeR : funct7 (encodeR code7 right left code3 dest code) = code7 := by
  rw [funct7, encodeR, BitVec.extractLsb'_append_eq_of_le (by omega),
    BitVec.extractLsb'_append_eq_of_le (by omega), BitVec.extractLsb'_append_eq_of_le (by omega),
    BitVec.extractLsb'_append_eq_of_le (by omega)]
  exact BitVec.extractLsb'_append_eq_left

/-- What lies above the source register of the immediate format is a part of the immediate. -/
theorem extract_encodeI (start length : Nat) :
    (encodeI imm left code3 dest code).extractLsb' (20 + start) length =
      imm.extractLsb' start length := by
  rw [encodeI, BitVec.extractLsb'_append_eq_of_le (by omega),
    BitVec.extractLsb'_append_eq_of_le (by omega), BitVec.extractLsb'_append_eq_of_le (by omega),
    BitVec.extractLsb'_append_eq_of_le (by omega)]
  congr 1
  omega

@[simp]
theorem immI_encodeI : immI (encodeI imm left code3 dest code) = imm := by
  rw [immI, extract_encodeI imm code3 dest left code 0, BitVec.extractLsb'_eq_self]

@[simp]
theorem funct6_encodeI (code6 amount : BitVec 6) :
    funct6 (encodeI (code6 ++ amount) left code3 dest code) = code6 := by
  rw [funct6, extract_encodeI _ code3 dest left code 6]
  exact BitVec.extractLsb'_append_eq_left

@[simp]
theorem shamt6_encodeI (code6 amount : BitVec 6) :
    shamt6 (encodeI (code6 ++ amount) left code3 dest code) = amount := by
  rw [shamt6, extract_encodeI _ code3 dest left code 0]
  exact BitVec.extractLsb'_append_eq_right

@[simp]
theorem funct6_encodeI_word (code6 : BitVec 6) (amount : BitVec 5) :
    funct6 (encodeI (code6 ++ 0#1 ++ amount) left code3 dest code) = code6 := by
  rw [funct6, extract_encodeI _ code3 dest left code 6,
    BitVec.extractLsb'_append_eq_of_le (by omega)]
  exact BitVec.extractLsb'_append_eq_left

@[simp]
theorem shamt5_encodeI_word (code6 : BitVec 6) (amount : BitVec 5) :
    shamt5 (encodeI (code6 ++ 0#1 ++ amount) left code3 dest code) = amount := by
  rw [shamt5, extract_encodeI _ code3 dest left code 0]
  exact BitVec.extractLsb'_append_eq_right

@[simp]
theorem extract_encodeI_word (code6 : BitVec 6) (amount : BitVec 5) :
    (encodeI (code6 ++ 0#1 ++ amount) left code3 dest code).extractLsb' 25 1 = 0 := by
  rw [extract_encodeI _ code3 dest left code 5, BitVec.extractLsb'_append_eq_of_le (by omega)]
  exact BitVec.extractLsb'_append_eq_right

@[simp]
theorem extract_encodeI_predecessor (mode predecessor successor : BitVec 4) :
    (encodeI (mode ++ predecessor ++ successor) left code3 dest code).extractLsb' 24 4 =
      predecessor := by
  rw [extract_encodeI _ code3 dest left code 4, BitVec.extractLsb'_append_eq_of_le (by omega)]
  exact BitVec.extractLsb'_append_eq_right

@[simp]
theorem extract_encodeI_successor (mode predecessor successor : BitVec 4) :
    (encodeI (mode ++ predecessor ++ successor) left code3 dest code).extractLsb' 20 4 =
      successor := by
  rw [extract_encodeI _ code3 dest left code 0]
  exact BitVec.extractLsb'_append_eq_right

@[simp]
theorem immU_encodeU : immU (encodeU upper dest code) = upper := by
  rw [immU, encodeU, BitVec.extractLsb'_append_eq_of_le (by omega)]
  exact BitVec.extractLsb'_append_eq_left

/-! ## Scattered immediates -/

@[simp]
theorem immS_encodeS : immS (encodeS imm right left code3 code) = imm := by
  have high : (encodeS imm right left code3 code).extractLsb' 25 7 = imm.extractLsb' 5 7 := by
    rw [encodeS, BitVec.extractLsb'_append_eq_of_le (by omega),
      BitVec.extractLsb'_append_eq_of_le (by omega), BitVec.extractLsb'_append_eq_of_le (by omega),
      BitVec.extractLsb'_append_eq_of_le (by omega)]
    exact BitVec.extractLsb'_append_eq_left
  have low : (encodeS imm right left code3 code).extractLsb' 7 5 = imm.extractLsb' 0 5 := by
    rw [encodeS, BitVec.extractLsb'_append_eq_of_le (by omega)]
    exact BitVec.extractLsb'_append_eq_right
  have whole : imm.extractLsb' 5 7 ++ imm.extractLsb' 0 5 = imm.extractLsb' 0 12 :=
    BitVec.extractLsb'_append_extractLsb'_eq_extractLsb' rfl
  rw [immS, high, low, whole, BitVec.extractLsb'_eq_self]

@[simp]
theorem immB_encodeB : immB (encodeB imm right left code3 code) = imm := by
  have sign : (encodeB imm right left code3 code).extractLsb' 31 1 = imm.extractLsb' 11 1 := by
    rw [encodeB, BitVec.extractLsb'_append_eq_of_le (by omega),
      BitVec.extractLsb'_append_eq_of_le (by omega), BitVec.extractLsb'_append_eq_of_le (by omega),
      BitVec.extractLsb'_append_eq_of_le (by omega), BitVec.extractLsb'_append_eq_of_le (by omega),
      BitVec.extractLsb'_append_eq_of_le (by omega)]
    exact BitVec.extractLsb'_append_eq_left
  have top : (encodeB imm right left code3 code).extractLsb' 7 1 = imm.extractLsb' 10 1 := by
    rw [encodeB, BitVec.extractLsb'_append_eq_of_le (by omega)]
    exact BitVec.extractLsb'_append_eq_right
  have middle : (encodeB imm right left code3 code).extractLsb' 25 6 = imm.extractLsb' 4 6 := by
    rw [encodeB, BitVec.extractLsb'_append_eq_of_le (by omega),
      BitVec.extractLsb'_append_eq_of_le (by omega), BitVec.extractLsb'_append_eq_of_le (by omega),
      BitVec.extractLsb'_append_eq_of_le (by omega), BitVec.extractLsb'_append_eq_of_le (by omega),
      BitVec.extractLsb'_append_eq_of_le (by omega)]
    exact BitVec.extractLsb'_append_eq_right
  have low : (encodeB imm right left code3 code).extractLsb' 8 4 = imm.extractLsb' 0 4 := by
    rw [encodeB, BitVec.extractLsb'_append_eq_of_le (by omega),
      BitVec.extractLsb'_append_eq_of_le (by omega)]
    exact BitVec.extractLsb'_append_eq_right
  have from_ten : imm.extractLsb' 11 1 ++ imm.extractLsb' 10 1 = imm.extractLsb' 10 2 :=
    BitVec.extractLsb'_append_extractLsb'_eq_extractLsb' rfl
  have from_four : imm.extractLsb' 10 2 ++ imm.extractLsb' 4 6 = imm.extractLsb' 4 8 :=
    BitVec.extractLsb'_append_extractLsb'_eq_extractLsb' rfl
  have whole : imm.extractLsb' 4 8 ++ imm.extractLsb' 0 4 = imm.extractLsb' 0 12 :=
    BitVec.extractLsb'_append_extractLsb'_eq_extractLsb' rfl
  rw [immB, sign, top, middle, low, from_ten, from_four, whole, BitVec.extractLsb'_eq_self]

@[simp]
theorem immJ_encodeJ : immJ (encodeJ upper dest code) = upper := by
  have sign : (encodeJ upper dest code).extractLsb' 31 1 = upper.extractLsb' 19 1 := by
    rw [encodeJ, BitVec.extractLsb'_append_eq_of_le (by omega),
      BitVec.extractLsb'_append_eq_of_le (by omega), BitVec.extractLsb'_append_eq_of_le (by omega),
      BitVec.extractLsb'_append_eq_of_le (by omega)]
    exact BitVec.extractLsb'_append_eq_left
  have high : (encodeJ upper dest code).extractLsb' 12 8 = upper.extractLsb' 11 8 := by
    rw [encodeJ, BitVec.extractLsb'_append_eq_of_le (by omega),
      BitVec.extractLsb'_append_eq_of_le (by omega)]
    exact BitVec.extractLsb'_append_eq_right
  have middle : (encodeJ upper dest code).extractLsb' 20 1 = upper.extractLsb' 10 1 := by
    rw [encodeJ, BitVec.extractLsb'_append_eq_of_le (by omega),
      BitVec.extractLsb'_append_eq_of_le (by omega), BitVec.extractLsb'_append_eq_of_le (by omega)]
    exact BitVec.extractLsb'_append_eq_right
  have low : (encodeJ upper dest code).extractLsb' 21 10 = upper.extractLsb' 0 10 := by
    rw [encodeJ, BitVec.extractLsb'_append_eq_of_le (by omega),
      BitVec.extractLsb'_append_eq_of_le (by omega), BitVec.extractLsb'_append_eq_of_le (by omega),
      BitVec.extractLsb'_append_eq_of_le (by omega)]
    exact BitVec.extractLsb'_append_eq_right
  have from_eleven : upper.extractLsb' 19 1 ++ upper.extractLsb' 11 8 = upper.extractLsb' 11 9 :=
    BitVec.extractLsb'_append_extractLsb'_eq_extractLsb' rfl
  have from_ten : upper.extractLsb' 11 9 ++ upper.extractLsb' 10 1 = upper.extractLsb' 10 10 :=
    BitVec.extractLsb'_append_extractLsb'_eq_extractLsb' rfl
  have whole : upper.extractLsb' 10 10 ++ upper.extractLsb' 0 10 = upper.extractLsb' 0 20 :=
    BitVec.extractLsb'_append_extractLsb'_eq_extractLsb' rfl
  rw [immJ, sign, high, middle, low, from_eleven, from_ten, whole, BitVec.extractLsb'_eq_self]

end Fields

/-! ## Words from their fields -/

section Words

variable (word : BitVec 32)

theorem encodeR_fields :
    encodeR (funct7 word) (rs2 word) (rs1 word) (funct3 word) (rd word) (opcode word) = word := by
  simp (disch := rfl) only [encodeR, funct7, rs2, rs1, funct3, rd, opcode,
    BitVec.extractLsb'_append_extractLsb'_eq_extractLsb', BitVec.extractLsb'_eq_self]

theorem encodeI_fields :
    encodeI (immI word) (rs1 word) (funct3 word) (rd word) (opcode word) = word := by
  simp (disch := rfl) only [encodeI, immI, rs1, funct3, rd, opcode,
    BitVec.extractLsb'_append_extractLsb'_eq_extractLsb', BitVec.extractLsb'_eq_self]

theorem encodeU_fields : encodeU (immU word) (rd word) (opcode word) = word := by
  simp (disch := rfl) only [encodeU, immU, rd, opcode,
    BitVec.extractLsb'_append_extractLsb'_eq_extractLsb', BitVec.extractLsb'_eq_self]

theorem encodeS_fields :
    encodeS (immS word) (rs2 word) (rs1 word) (funct3 word) (opcode word) = word := by
  have high : (immS word).extractLsb' 5 7 = word.extractLsb' 25 7 :=
    BitVec.extractLsb'_append_eq_left
  have low : (immS word).extractLsb' 0 5 = word.extractLsb' 7 5 :=
    BitVec.extractLsb'_append_eq_right
  rw [encodeS, high, low]
  exact encodeR_fields word

theorem encodeB_fields :
    encodeB (immB word) (rs2 word) (rs1 word) (funct3 word) (opcode word) = word := by
  have sign : (immB word).extractLsb' 11 1 = word.extractLsb' 31 1 := by
    rw [immB, BitVec.extractLsb'_append_eq_of_le (by omega),
      BitVec.extractLsb'_append_eq_of_le (by omega)]
    exact BitVec.extractLsb'_append_eq_left
  have top : (immB word).extractLsb' 10 1 = word.extractLsb' 7 1 := by
    rw [immB, BitVec.extractLsb'_append_eq_of_le (by omega),
      BitVec.extractLsb'_append_eq_of_le (by omega)]
    exact BitVec.extractLsb'_append_eq_right
  have middle : (immB word).extractLsb' 4 6 = word.extractLsb' 25 6 := by
    rw [immB, BitVec.extractLsb'_append_eq_of_le (by omega)]
    exact BitVec.extractLsb'_append_eq_right
  have low : (immB word).extractLsb' 0 4 = word.extractLsb' 8 4 :=
    BitVec.extractLsb'_append_eq_right
  rw [encodeB, sign, top, middle, low]
  simp (disch := rfl) only [rs2, rs1, funct3, opcode,
    BitVec.extractLsb'_append_extractLsb'_eq_extractLsb', BitVec.extractLsb'_eq_self]

theorem encodeJ_fields : encodeJ (immJ word) (rd word) (opcode word) = word := by
  have sign : (immJ word).extractLsb' 19 1 = word.extractLsb' 31 1 := by
    rw [immJ, BitVec.extractLsb'_append_eq_of_le (by omega),
      BitVec.extractLsb'_append_eq_of_le (by omega)]
    exact BitVec.extractLsb'_append_eq_left
  have high : (immJ word).extractLsb' 11 8 = word.extractLsb' 12 8 := by
    rw [immJ, BitVec.extractLsb'_append_eq_of_le (by omega),
      BitVec.extractLsb'_append_eq_of_le (by omega)]
    exact BitVec.extractLsb'_append_eq_right
  have middle : (immJ word).extractLsb' 10 1 = word.extractLsb' 20 1 := by
    rw [immJ, BitVec.extractLsb'_append_eq_of_le (by omega)]
    exact BitVec.extractLsb'_append_eq_right
  have low : (immJ word).extractLsb' 0 10 = word.extractLsb' 21 10 :=
    BitVec.extractLsb'_append_eq_right
  rw [encodeJ, sign, high, middle, low]
  simp (disch := rfl) only [rd, opcode,
    BitVec.extractLsb'_append_extractLsb'_eq_extractLsb', BitVec.extractLsb'_eq_self]

end Words

end Format

end RiscV
