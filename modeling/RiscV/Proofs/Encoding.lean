import RiscV.Instruction.Decode
import RiscV.Instruction.Encode
import RiscV.Proofs.Format

/-!
# Decoding canonical words

Every code is found in its table again, so the canonical word of an instruction that exists for the
width of the registers decodes to that instruction.
-/

namespace RiscV

/-! ## Tables of codes -/

theorem Opcode.ofCode?_code {x : Xlen} {opcode : Opcode}
    (exists_on : opcode.isWide = true → x.isWide = true) :
    ofCode? x opcode.code = some opcode := by
  cases x with
  | rv32 =>
      cases opcode with
      | opImm32 | op32 => exact absurd (exists_on rfl) (by decide)
      | _ => rfl
  | rv64 => cases opcode <;> rfl

@[simp]
theorem ImmediateOp.ofFunct3?_funct3 (op : ImmediateOp) : ofFunct3? op.funct3 = some op := by
  cases op <;> rfl

/-- The codes next to the destination tell shifts from the other operations with an immediate. -/
@[simp]
theorem ShiftOp.ofFunct3?_funct3 (op : ShiftOp) : ImmediateOp.ofFunct3? op.funct3 = none := by
  cases op <;> rfl

@[simp]
theorem ShiftOp.ofFunct?_funct (op : ShiftOp) : ofFunct? op.funct6 op.funct3 = some op := by
  cases op <;> rfl

theorem ShiftOp.funct3_ne_zero (op : ShiftOp) : op.funct3 ≠ 0#3 := by
  cases op <;> decide

@[simp]
theorem RegisterOp.ofFunct?_funct (op : RegisterOp) :
    ofFunct? op.funct7 op.funct3 = some op := by
  cases op <;> rfl

@[simp]
theorem WordOp.ofFunct?_funct (op : WordOp) : ofFunct? op.funct7 op.funct3 = some op := by
  cases op <;> rfl

@[simp]
theorem Condition.ofFunct3?_funct3 (condition : Condition) :
    ofFunct3? condition.funct3 = some condition := by
  cases condition <;> rfl

theorem LoadOp.ofFunct3?_funct3 {x : Xlen} {op : LoadOp}
    (exists_on : op.isWide = true → x.isWide = true) : ofFunct3? x op.funct3 = some op := by
  cases x with
  | rv32 =>
      cases op with
      | ld | lwu => exact absurd (exists_on rfl) (by decide)
      | _ => rfl
  | rv64 => cases op <;> rfl

theorem StoreOp.ofFunct3?_funct3 {x : Xlen} {op : StoreOp}
    (exists_on : op.isWide = true → x.isWide = true) : ofFunct3? x op.funct3 = some op := by
  cases x with
  | rv32 =>
      cases op with
      | sd => exact absurd (exists_on rfl) (by decide)
      | _ => rfl
  | rv64 => cases op <;> rfl

@[simp]
theorem CsrOp.ofCode?_code (op : CsrOp) : ofCode? op.code = some op := by
  cases op <;> rfl

@[simp]
theorem CsrOperand.ofField_field (operand : CsrOperand) :
    ofField operand.kind operand.field = operand := by
  cases operand <;> rfl

@[simp]
theorem FenceSet.ofBits_bits (set : FenceSet) : ofBits set.bits = set := by
  obtain ⟨input, output, reads, writes⟩ := set
  cases input <;> cases output <;> cases reads <;> cases writes <;> rfl

namespace Instruction

open Format

variable {x : Xlen}

/-- The opcode and the fields decide what a word decodes to. -/
theorem decode_eq_ok {word : BitVec 32} {code : Opcode} {instruction : Instruction}
    (known : opcode word = code.code) (exists_on : code.isWide = true → x.isWide = true)
    (fields : decodeFields? x word code = some instruction) :
    decode x word = .ok instruction := by
  simp only [decode, known, Opcode.ofCode?_code exists_on, fields]

/-- Canonical words are decoded to the instruction that they encode. -/
theorem decode_encode {instruction : Instruction} (wellFormed : instruction.WellFormed x) :
    decode x instruction.encode = .ok instruction := by
  cases instruction with
  | immediate op dest src value =>
      exact decode_eq_ok (opcode_encodeI ..) nofun
        (by simp [encode, decodeFields?, decodeImmediate?])
  | shift op dest src amount =>
      have narrow : amount.toNat < x.bits := wellFormed
      exact decode_eq_ok (opcode_encodeI ..) nofun
        (by simp [encode, decodeFields?, decodeImmediate?, decodeShift?, narrow])
  | immediateWord dest src value =>
      exact decode_eq_ok (opcode_encodeI ..) (fun _ => wellFormed)
        (by simp [encode, decodeFields?, decodeImmediateWord?])
  | shiftWord op dest src amount =>
      exact decode_eq_ok (opcode_encodeI ..) (fun _ => wellFormed)
        (by simp [encode, decodeFields?, decodeImmediateWord?, op.funct3_ne_zero])
  | auipc | lui =>
      exact decode_eq_ok (opcode_encodeU ..) nofun (by simp [encode, decodeFields?])
  | register op dest left right =>
      exact decode_eq_ok (opcode_encodeR ..) nofun (by simp [encode, decodeFields?])
  | registerWord op dest left right =>
      exact decode_eq_ok (opcode_encodeR ..) (fun _ => wellFormed) (by simp [encode, decodeFields?])
  | jal dest offset =>
      exact decode_eq_ok (opcode_encodeJ ..) nofun (by simp [encode, decodeFields?])
  | jalr dest base offset =>
      exact decode_eq_ok (opcode_encodeI ..) nofun (by simp [encode, decodeFields?])
  | branch condition left right offset =>
      exact decode_eq_ok (opcode_encodeB ..) nofun (by simp [encode, decodeFields?])
  | load op dest base offset =>
      exact decode_eq_ok (opcode_encodeI ..) nofun
        (by simp [encode, decodeFields?, LoadOp.ofFunct3?_funct3 wellFormed])
  | store op src base offset =>
      exact decode_eq_ok (opcode_encodeS ..) nofun
        (by simp [encode, decodeFields?, StoreOp.ofFunct3?_funct3 wellFormed])
  | fence predecessor successor =>
      exact decode_eq_ok (opcode_encodeI ..) nofun
        (by simp [encode, decodeFields?, decodeFence?])
  | fenceI =>
      exact decode_eq_ok (opcode_encodeI ..) nofun
        (by simp [encode, decodeFields?, decodeFence?])
  | csr op dest operand number =>
      have kind : (operand.kind ++ op.code).extractLsb' 2 1 = operand.kind :=
        BitVec.extractLsb'_append_eq_left
      have low : (operand.kind ++ op.code).extractLsb' 0 2 = op.code :=
        BitVec.extractLsb'_append_eq_right
      have nonzero : operand.kind ++ op.code ≠ 0#3 := by
        cases operand <;> cases op <;> simp [CsrOperand.kind, CsrOp.code]
      exact decode_eq_ok (opcode_encodeI ..) nofun
        (by simp [encode, decodeFields?, decodeCsr?, kind, low, nonzero])
  | ecall | ebreak | mret | sret | wfi =>
      exact decode_eq_ok (opcode_encodeI ..) nofun
        (by simp [encode, encodeSystem, decodeFields?, decodeSystem?])

end Instruction

end RiscV
