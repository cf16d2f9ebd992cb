import Mathlib.Tactic.Common
import RiscV.Proofs.Encoding

/-!
# The words of an instruction

A word decodes to an instruction exactly if it agrees with the canonical word wherever the
instruction leaves no bit open.  Read as numbers, the fields of decoded instructions are those in
range.
-/

namespace RiscV

/-! ## Tables of codes -/

theorem Opcode.code_of_ofCode? {x : Xlen} {code : BitVec 7} {opcode : Opcode}
    (found : ofCode? x code = some opcode) :
    opcode.code = code ∧ (opcode.isWide = true → x.isWide = true) := by
  simpa [← Bool.not_eq_true, ← imp_iff_not_or] using List.find?_some found

theorem ImmediateOp.funct3_of_ofFunct3? {code : BitVec 3} {op : ImmediateOp}
    (found : ofFunct3? code = some op) : op.funct3 = code := by
  simpa using List.find?_some found

theorem ShiftOp.funct_of_ofFunct? {code6 : BitVec 6} {code3 : BitVec 3} {op : ShiftOp}
    (found : ofFunct? code6 code3 = some op) : op.funct6 = code6 ∧ op.funct3 = code3 := by
  simpa using List.find?_some found

theorem RegisterOp.funct_of_ofFunct? {code7 : BitVec 7} {code3 : BitVec 3} {op : RegisterOp}
    (found : ofFunct? code7 code3 = some op) : op.funct7 = code7 ∧ op.funct3 = code3 := by
  simpa using List.find?_some found

theorem WordOp.funct_of_ofFunct? {code7 : BitVec 7} {code3 : BitVec 3} {op : WordOp}
    (found : ofFunct? code7 code3 = some op) : op.funct7 = code7 ∧ op.funct3 = code3 := by
  simpa using List.find?_some found

theorem Condition.funct3_of_ofFunct3? {code : BitVec 3} {condition : Condition}
    (found : ofFunct3? code = some condition) : condition.funct3 = code := by
  simpa using List.find?_some found

theorem LoadOp.funct3_of_ofFunct3? {x : Xlen} {code : BitVec 3} {op : LoadOp}
    (found : ofFunct3? x code = some op) :
    op.funct3 = code ∧ (op.isWide = true → x.isWide = true) := by
  simpa [← Bool.not_eq_true, ← imp_iff_not_or] using List.find?_some found

theorem StoreOp.funct3_of_ofFunct3? {x : Xlen} {code : BitVec 3} {op : StoreOp}
    (found : ofFunct3? x code = some op) :
    op.funct3 = code ∧ (op.isWide = true → x.isWide = true) := by
  simpa [← Bool.not_eq_true, ← imp_iff_not_or] using List.find?_some found

theorem CsrOp.code_of_ofCode? {code : BitVec 2} {op : CsrOp} (found : ofCode? code = some op) :
    op.code = code := by
  simpa using List.find?_some found

@[simp]
theorem CsrOperand.field_ofField (kind : BitVec 1) (field : BitVec 5) :
    (ofField kind field).field = field := by
  unfold ofField
  split <;> rfl

@[simp]
theorem CsrOperand.kind_ofField (kind : BitVec 1) (field : BitVec 5) :
    (ofField kind field).kind = kind := by
  unfold ofField
  split
  · rename_i zero
    exact zero.symm
  · rename_i nonzero
    exact ((BitVec.eq_zero_or_eq_one kind).resolve_left nonzero).symm

@[simp]
theorem FenceSet.bits_ofBits (bits : BitVec 4) : (ofBits bits).bits = bits := by
  revert bits
  decide

namespace Instruction

open Format

variable {x : Xlen} {word : BitVec 32} {instruction : Instruction}

/-- The bits of a word that decide whether it means the instruction.  A fence keeps its two sets and
its codes, an instruction fence its codes, and nothing else leaves a bit open. -/
def significant : Instruction → BitVec 32
  | fence _ _ =>
      encodeI (0#4 ++ BitVec.allOnes 4 ++ BitVec.allOnes 4) 0#5 (BitVec.allOnes 3) 0#5
        (BitVec.allOnes 7)
  | fenceI => encodeI 0#12 0#5 (BitVec.allOnes 3) 0#5 (BitVec.allOnes 7)
  | _ => BitVec.allOnes 32

/-- The word means an instruction that exists for the width of the registers. -/
structure Means (x : Xlen) (word : BitVec 32) (instruction : Instruction) : Prop where
  wellFormed : instruction.WellFormed x
  /-- The word is the canonical one where it matters. -/
  agrees : word &&& instruction.significant = instruction.encode

theorem means_of_encode_eq (wellFormed : instruction.WellFormed x)
    (exact : instruction.significant = BitVec.allOnes 32) (same : instruction.encode = word) :
    Means x word instruction :=
  ⟨wellFormed, by rw [exact, BitVec.and_allOnes, same]⟩

theorem means_of_decodeShift? (code : opcode word = Opcode.opImm.code)
    (found : decodeShift? x word = some instruction) : Means x word instruction := by
  unfold decodeShift? at found
  split at found
  · rename_i narrow
    obtain ⟨op, entry, rfl⟩ := Option.map_eq_some_iff.mp found
    obtain ⟨code6, code3⟩ := ShiftOp.funct_of_ofFunct? entry
    have whole : funct6 word ++ shamt6 word = immI word :=
      BitVec.extractLsb'_append_extractLsb'_eq_extractLsb' rfl
    refine means_of_encode_eq narrow rfl ?_
    rw [encode, code6, whole, code3, ← code, encodeI_fields]
  · cases found

theorem means_of_decodeImmediate? (code : opcode word = Opcode.opImm.code)
    (found : decodeImmediate? x word = some instruction) : Means x word instruction := by
  unfold decodeImmediate? at found
  split at found
  · rename_i op entry
    cases found
    refine means_of_encode_eq trivial rfl ?_
    rw [encode, ImmediateOp.funct3_of_ofFunct3? entry, ← code, encodeI_fields]
  · exact means_of_decodeShift? code found

theorem means_of_decodeImmediateWord? (wide : x.isWide = true)
    (code : opcode word = Opcode.opImm32.code)
    (found : decodeImmediateWord? word = some instruction) : Means x word instruction := by
  unfold decodeImmediateWord? at found
  split at found
  · rename_i code3
    cases found
    refine means_of_encode_eq wide rfl ?_
    rw [encode, ← code3, ← code, encodeI_fields]
  · split at found
    · rename_i gap
      obtain ⟨op, entry, rfl⟩ := Option.map_eq_some_iff.mp found
      obtain ⟨code6, code3⟩ := ShiftOp.funct_of_ofFunct? entry
      have gap : word.extractLsb' 25 1 = 0#1 := gap
      have whole : funct6 word ++ word.extractLsb' 25 1 ++ shamt5 word = immI word := by
        simp (disch := rfl) only [funct6, shamt5, immI,
          BitVec.extractLsb'_append_extractLsb'_eq_extractLsb']
      refine means_of_encode_eq wide rfl ?_
      rw [encode, code6, ← gap, whole, code3, ← code, encodeI_fields]
    · cases found

/-- A mask acts on each field of the immediate format by itself. -/
theorem encodeI_and (imm imm' : BitVec 12) (left left' : Register) (code3 code3' : BitVec 3)
    (dest dest' : Register) (code code' : BitVec 7) :
    encodeI imm left code3 dest code &&& encodeI imm' left' code3' dest' code' =
      encodeI (imm &&& imm') (left &&& left') (code3 &&& code3') (dest &&& dest')
        (code &&& code') := by
  have appended : (imm ++ left ++ code3 ++ dest ++ code) &&&
      (imm' ++ left' ++ code3' ++ dest' ++ code') =
        (imm &&& imm') ++ (left &&& left') ++ (code3 &&& code3') ++ (dest &&& dest') ++
          (code &&& code') := by
    simp only [BitVec.and_append]
  exact appended

/-- Of a fence, its codes count and a part of the immediate. -/
theorem and_fenceMask (word : BitVec 32) (imm : BitVec 12) :
    word &&& encodeI imm 0#5 (BitVec.allOnes 3) 0#5 (BitVec.allOnes 7) =
      encodeI (immI word &&& imm) 0 (funct3 word) 0 (opcode word) := by
  have fields := encodeI_and (immI word) imm (rs1 word) 0#5 (funct3 word) (BitVec.allOnes 3)
    (rd word) 0#5 (opcode word) (BitVec.allOnes 7)
  rw [encodeI_fields, BitVec.and_allOnes, BitVec.and_allOnes, BitVec.and_zero,
    BitVec.and_zero] at fields
  exact fields

theorem means_of_decodeFence? (code : opcode word = Opcode.miscMem.code)
    (found : decodeFence? word = some instruction) : Means x word instruction := by
  unfold decodeFence? at found
  split at found
  · rename_i code3
    cases found
    have sets : word.extractLsb' 28 4 ++ word.extractLsb' 24 4 ++ word.extractLsb' 20 4 =
        immI word := by
      simp (disch := rfl) only [immI, BitVec.extractLsb'_append_extractLsb'_eq_extractLsb']
    have masked : ∀ mode predecessor successor : BitVec 4,
        (mode ++ predecessor ++ successor) &&&
          (0#4 ++ BitVec.allOnes 4 ++ BitVec.allOnes 4) = 0#4 ++ predecessor ++ successor := by
      simp only [BitVec.and_append, BitVec.and_zero, BitVec.and_allOnes, implies_true]
    refine ⟨trivial, ?_⟩
    rw [significant, and_fenceMask, ← sets, masked, code3, code, encode, FenceSet.bits_ofBits,
      FenceSet.bits_ofBits]
  · split at found
    · rename_i code3
      cases found
      refine ⟨trivial, ?_⟩
      rw [significant, and_fenceMask, BitVec.and_zero, code3, code]
      rfl
    · cases found

theorem means_of_decodeSystem? (code : opcode word = Opcode.system.code)
    (code3 : funct3 word = 0) (found : decodeSystem? word = some instruction) :
    Means x word instruction := by
  unfold decodeSystem? at found
  split at found
  · rename_i unused
    have exact : ∀ funct12, immI word = funct12 → encodeSystem funct12 = word := by
      intro funct12 same
      conv => rhs; rw [← encodeI_fields word, same, unused.1, unused.2, code3, code]
      rfl
    iterate 5
      split at found
      · rename_i same
        cases found
        exact means_of_encode_eq trivial rfl (exact _ same)
    cases found
  · cases found

theorem means_of_decodeCsr? (code : opcode word = Opcode.system.code)
    (found : decodeCsr? word = some instruction) : Means x word instruction := by
  obtain ⟨op, entry, rfl⟩ := Option.map_eq_some_iff.mp found
  have code3 : (funct3 word).extractLsb' 2 1 ++ (funct3 word).extractLsb' 0 2 = funct3 word := by
    simp (disch := rfl) only [BitVec.extractLsb'_append_extractLsb'_eq_extractLsb',
      BitVec.extractLsb'_eq_self]
  refine means_of_encode_eq trivial rfl ?_
  rw [encode, CsrOperand.field_ofField, CsrOperand.kind_ofField, CsrOp.code_of_ofCode? entry,
    code3, ← code, encodeI_fields]

theorem means_of_decodeFields? {code : Opcode} (known : opcode word = code.code)
    (exists_on : code.isWide = true → x.isWide = true)
    (found : decodeFields? x word code = some instruction) : Means x word instruction := by
  cases code with
  | opImm => exact means_of_decodeImmediate? known found
  | opImm32 => exact means_of_decodeImmediateWord? (exists_on rfl) known found
  | auipc | lui =>
      cases found
      refine means_of_encode_eq trivial rfl ?_
      rw [encode, ← known, encodeU_fields]
  | op =>
      obtain ⟨op, entry, rfl⟩ := Option.map_eq_some_iff.mp found
      obtain ⟨code7, code3⟩ := RegisterOp.funct_of_ofFunct? entry
      refine means_of_encode_eq trivial rfl ?_
      rw [encode, code7, code3, ← known, encodeR_fields]
  | op32 =>
      obtain ⟨op, entry, rfl⟩ := Option.map_eq_some_iff.mp found
      obtain ⟨code7, code3⟩ := WordOp.funct_of_ofFunct? entry
      refine means_of_encode_eq (exists_on rfl) rfl ?_
      rw [encode, code7, code3, ← known, encodeR_fields]
  | jal =>
      cases found
      refine means_of_encode_eq trivial rfl ?_
      rw [encode, ← known, encodeJ_fields]
  | jalr =>
      simp only [decodeFields?] at found
      split at found
      · rename_i code3
        cases found
        refine means_of_encode_eq trivial rfl ?_
        rw [encode, ← code3, ← known, encodeI_fields]
      · cases found
  | branch =>
      obtain ⟨condition, entry, rfl⟩ := Option.map_eq_some_iff.mp found
      refine means_of_encode_eq trivial rfl ?_
      rw [encode, Condition.funct3_of_ofFunct3? entry, ← known, encodeB_fields]
  | load =>
      obtain ⟨op, entry, rfl⟩ := Option.map_eq_some_iff.mp found
      obtain ⟨code3, wide⟩ := LoadOp.funct3_of_ofFunct3? entry
      refine means_of_encode_eq wide rfl ?_
      rw [encode, code3, ← known, encodeI_fields]
  | store =>
      obtain ⟨op, entry, rfl⟩ := Option.map_eq_some_iff.mp found
      obtain ⟨code3, wide⟩ := StoreOp.funct3_of_ofFunct3? entry
      refine means_of_encode_eq wide rfl ?_
      rw [encode, code3, ← known, encodeS_fields]
  | miscMem => exact means_of_decodeFence? known found
  | system =>
      simp only [decodeFields?] at found
      split at found
      · rename_i code3
        exact means_of_decodeSystem? known code3 found
      · exact means_of_decodeCsr? known found

theorem means_of_decode (decoded : decode x word = .ok instruction) :
    Means x word instruction := by
  unfold decode at decoded
  split at decoded
  · cases decoded
  · rename_i code entry
    obtain ⟨known, exists_on⟩ := Opcode.code_of_ofCode? entry
    split at decoded
    · cases decoded
    · rename_i found
      cases decoded
      exact means_of_decodeFields? known.symm exists_on found

theorem slice_eq_of_agrees {mask canonical : BitVec 32} (agrees : word &&& mask = canonical)
    (start length : Nat) (kept : mask.extractLsb' start length = BitVec.allOnes length) :
    word.extractLsb' start length = canonical.extractLsb' start length := by
  rw [← agrees, BitVec.extractLsb'_and, kept, BitVec.and_allOnes]

theorem decode_of_means (means : Means x word instruction) : decode x word = .ok instruction := by
  obtain ⟨wellFormed, agrees⟩ := means
  have slice := slice_eq_of_agrees agrees
  -- Only fences leave bits open; any other word is canonical.
  cases instruction with
  | fence predecessor successor =>
      have known : opcode word = Opcode.miscMem.code :=
        (slice 0 7 (opcode_encodeI ..)).trans (opcode_encodeI ..)
      have code3 : funct3 word = 0 := (slice 12 3 (funct3_encodeI ..)).trans (funct3_encodeI ..)
      have first : word.extractLsb' 24 4 = predecessor.bits :=
        (slice 24 4 (extract_encodeI_predecessor ..)).trans (extract_encodeI_predecessor ..)
      have second : word.extractLsb' 20 4 = successor.bits :=
        (slice 20 4 (extract_encodeI_successor ..)).trans (extract_encodeI_successor ..)
      exact decode_eq_ok known nofun
        (by simp [decodeFields?, decodeFence?, code3, first, second])
  | fenceI =>
      have known : opcode word = Opcode.miscMem.code :=
        (slice 0 7 (opcode_encodeI ..)).trans (opcode_encodeI ..)
      have code3 : funct3 word = 1 := (slice 12 3 (funct3_encodeI ..)).trans (funct3_encodeI ..)
      exact decode_eq_ok known nofun (by simp [decodeFields?, decodeFence?, code3])
  | _ =>
      have exact : word = _ := (BitVec.and_allOnes ..).symm.trans agrees
      rw [exact]
      exact decode_encode wellFormed

/-- A word decodes to an instruction exactly if it means it. -/
theorem decode_eq_ok_iff : decode x word = .ok instruction ↔ Means x word instruction :=
  ⟨means_of_decode, decode_of_means⟩

end Instruction

/-! ## Fields as numbers -/

/-- An instruction whose fields are given as numbers. -/
inductive NumericInstruction where
  | immediate (op : ImmediateOp) (dest src : Register) (value : Int)
  | shift (op : ShiftOp) (dest src : Register) (amount : Nat)
  | immediateWord (dest src : Register) (value : Int)
  | shiftWord (op : ShiftOp) (dest src : Register) (amount : Nat)
  | auipc (dest : Register) (value : Int)
  | lui (dest : Register) (value : Int)
  | register (op : RegisterOp) (dest left right : Register)
  | registerWord (op : WordOp) (dest left right : Register)
  | jal (dest : Register) (offset : Int)
  | jalr (dest base : Register) (offset : Int)
  | branch (condition : Condition) (left right : Register) (offset : Int)
  | load (op : LoadOp) (dest base : Register) (offset : Int)
  | store (op : StoreOp) (src base : Register) (offset : Int)
  | fence (predecessor successor : FenceSet)
  | fenceI
  | csrRegister (op : CsrOp) (dest source : Register) (number : Nat)
  | csrImmediate (op : CsrOp) (dest : Register) (value number : Nat)
  | ecall
  | ebreak
  | mret
  | sret
  | wfi

namespace Instruction

/-- The instruction with its fields read as numbers.  Offsets count bytes. -/
def numeric : Instruction → NumericInstruction
  | immediate op dest src value => .immediate op dest src value.toInt
  | shift op dest src amount => .shift op dest src amount.toNat
  | immediateWord dest src value => .immediateWord dest src value.toInt
  | shiftWord op dest src amount => .shiftWord op dest src amount.toNat
  | auipc dest upper => .auipc dest (upper ++ 0#12).toInt
  | lui dest upper => .lui dest (upper ++ 0#12).toInt
  | register op dest left right => .register op dest left right
  | registerWord op dest left right => .registerWord op dest left right
  | jal dest offset => .jal dest (bytes offset).toInt
  | jalr dest base offset => .jalr dest base offset.toInt
  | branch condition left right offset => .branch condition left right (bytes offset).toInt
  | load op dest base offset => .load op dest base offset.toInt
  | store op src base offset => .store op src base offset.toInt
  | fence predecessor successor => .fence predecessor successor
  | fenceI => .fenceI
  | csr op dest (.register source) number => .csrRegister op dest source number.toNat
  | csr op dest (.immediate value) number => .csrImmediate op dest value.toNat number.toNat
  | ecall => .ecall
  | ebreak => .ebreak
  | mret => .mret
  | sret => .sret
  | wfi => .wfi

end Instruction

namespace NumericInstruction

/-- A signed number of twelve bits. -/
def IsSmall (value : Int) : Prop := -2048 ≤ value ∧ value ≤ 2047

/-- An upper immediate, which has nothing below its twenty bits. -/
def IsUpper (value : Int) : Prop := 4096 ∣ value ∧ -2147483648 ≤ value ∧ value ≤ 2147483647

/-- The numbers are possible for registers of the given width. -/
def InRange (x : Xlen) : NumericInstruction → Prop
  | immediate _ _ _ value => IsSmall value
  | shift _ _ _ amount => amount < x.bits
  | immediateWord _ _ value => x = .rv64 ∧ IsSmall value
  | shiftWord _ _ _ amount => x = .rv64 ∧ amount < 32
  | auipc _ value | lui _ value => IsUpper value
  | register .. => True
  | registerWord .. => x = .rv64
  | jal _ offset => 2 ∣ offset ∧ -1048576 ≤ offset ∧ offset ≤ 1048574
  | jalr _ _ offset => IsSmall offset
  | branch _ _ _ offset => 2 ∣ offset ∧ -4096 ≤ offset ∧ offset ≤ 4094
  | load op _ _ offset => (op = .ld ∨ op = .lwu → x = .rv64) ∧ IsSmall offset
  | store op _ _ offset => (op = .sd → x = .rv64) ∧ IsSmall offset
  | csrRegister _ _ _ number => number < 4096
  | csrImmediate _ _ value number => value < 32 ∧ number < 4096
  | fence .. | fenceI | ecall | ebreak | mret | sret | wfi => True

/-- The instruction whose fields hold the low bits of the numbers. -/
def cut : NumericInstruction → Instruction
  | immediate op dest src value => .immediate op dest src (BitVec.ofInt 12 value)
  | shift op dest src amount => .shift op dest src (BitVec.ofNat 6 amount)
  | immediateWord dest src value => .immediateWord dest src (BitVec.ofInt 12 value)
  | shiftWord op dest src amount => .shiftWord op dest src (BitVec.ofNat 5 amount)
  | auipc dest value => .auipc dest (BitVec.ofInt 20 (value / 4096))
  | lui dest value => .lui dest (BitVec.ofInt 20 (value / 4096))
  | register op dest left right => .register op dest left right
  | registerWord op dest left right => .registerWord op dest left right
  | jal dest offset => .jal dest (BitVec.ofInt 20 (offset / 2))
  | jalr dest base offset => .jalr dest base (BitVec.ofInt 12 offset)
  | branch condition left right offset =>
      .branch condition left right (BitVec.ofInt 12 (offset / 2))
  | load op dest base offset => .load op dest base (BitVec.ofInt 12 offset)
  | store op src base offset => .store op src base (BitVec.ofInt 12 offset)
  | fence predecessor successor => .fence predecessor successor
  | fenceI => .fenceI
  | csrRegister op dest source number => .csr op dest (.register source) (BitVec.ofNat 12 number)
  | csrImmediate op dest value number =>
      .csr op dest (.immediate (BitVec.ofNat 5 value)) (BitVec.ofNat 12 number)
  | ecall => .ecall
  | ebreak => .ebreak
  | mret => .mret
  | sret => .sret
  | wfi => .wfi

theorem isWide_eq_true_iff {x : Xlen} : x.isWide = true ↔ x = .rv64 := by
  cases x <;> decide

theorem toInt_bytes {width : Nat} (offset : BitVec width) :
    (Instruction.bytes offset).toInt = 2 * offset.toInt :=
  BitVec.toInt_append_zero

theorem toInt_upper (upper : BitVec 20) : (upper ++ 0#12).toInt = 4096 * upper.toInt :=
  BitVec.toInt_append_zero

theorem isSmall_toInt (field : BitVec 12) : IsSmall field.toInt := by
  have low := field.le_toInt
  have high := field.toInt_lt
  constructor <;> omega

theorem IsSmall.toInt_ofInt {value : Int} (small : IsSmall value) :
    (BitVec.ofInt 12 value).toInt = value := by
  obtain ⟨low, high⟩ := small
  exact BitVec.toInt_ofInt_eq_self (by decide) (by omega) (by omega)

theorem cut_numeric (instruction : Instruction) : instruction.numeric.cut = instruction := by
  cases instruction with
  | auipc | lui =>
      rw [Instruction.numeric, cut, toInt_upper, Int.mul_ediv_cancel_left _ (by decide),
        BitVec.ofInt_toInt]
  | jal | branch =>
      rw [Instruction.numeric, cut, toInt_bytes, Int.mul_ediv_cancel_left _ (by decide),
        BitVec.ofInt_toInt]
  | csr _ _ operand _ => cases operand <;> simp [Instruction.numeric, cut]
  | _ => simp [Instruction.numeric, cut]

theorem numeric_cut {x : Xlen} {numeric : NumericInstruction} (inRange : numeric.InRange x) :
    numeric.cut.numeric = numeric := by
  cases numeric with
  | immediate | jalr => rw [cut, Instruction.numeric, IsSmall.toInt_ofInt inRange]
  | immediateWord | load | store => rw [cut, Instruction.numeric, IsSmall.toInt_ofInt inRange.2]
  | auipc | lui =>
      obtain ⟨⟨upper, rfl⟩, low, high⟩ := inRange
      rw [cut, Instruction.numeric, toInt_upper, Int.mul_ediv_cancel_left _ (by decide),
        BitVec.toInt_ofInt_eq_self (by decide) (by omega) (by omega)]
  | jal | branch =>
      obtain ⟨⟨offset, rfl⟩, low, high⟩ := inRange
      rw [cut, Instruction.numeric, toInt_bytes, Int.mul_ediv_cancel_left _ (by decide),
        BitVec.toInt_ofInt_eq_self (by decide) (by omega) (by omega)]
  | shift op dest src amount =>
      have narrow : amount < 2 ^ 6 := Nat.lt_of_lt_of_le inRange x.bits_le
      rw [cut, Instruction.numeric, BitVec.toNat_ofNat, Nat.mod_eq_of_lt narrow]
  | shiftWord op dest src amount =>
      rw [cut, Instruction.numeric, BitVec.toNat_ofNat, Nat.mod_eq_of_lt inRange.2]
  | csrRegister op dest source number =>
      rw [cut, Instruction.numeric, BitVec.toNat_ofNat, Nat.mod_eq_of_lt inRange]
  | csrImmediate op dest value number =>
      rw [cut, Instruction.numeric, BitVec.toNat_ofNat, BitVec.toNat_ofNat,
        Nat.mod_eq_of_lt inRange.1, Nat.mod_eq_of_lt inRange.2]
  | _ => rfl

theorem inRange_numeric {x : Xlen} {instruction : Instruction}
    (wellFormed : instruction.WellFormed x) : instruction.numeric.InRange x := by
  cases instruction with
  | immediate | jalr => exact isSmall_toInt _
  | shift => exact wellFormed
  | immediateWord => exact ⟨isWide_eq_true_iff.mp wellFormed, isSmall_toInt _⟩
  | shiftWord op dest src amount => exact ⟨isWide_eq_true_iff.mp wellFormed, amount.isLt⟩
  | auipc dest upper | lui dest upper =>
      have low := upper.le_toInt
      have high := upper.toInt_lt
      simp only [Instruction.numeric, InRange, IsUpper, toInt_upper]
      omega
  | registerWord => exact isWide_eq_true_iff.mp wellFormed
  | jal dest offset =>
      have low := offset.le_toInt
      have high := offset.toInt_lt
      simp only [Instruction.numeric, InRange, toInt_bytes]
      omega
  | branch condition left right offset =>
      have low := offset.le_toInt
      have high := offset.toInt_lt
      simp only [Instruction.numeric, InRange, toInt_bytes]
      omega
  | load op =>
      refine ⟨fun wide => isWide_eq_true_iff.mp (wellFormed ?_), isSmall_toInt _⟩
      rcases wide with rfl | rfl <;> rfl
  | store op =>
      refine ⟨fun wide => isWide_eq_true_iff.mp (wellFormed ?_), isSmall_toInt _⟩
      subst wide
      rfl
  | csr op dest operand number =>
      cases operand with
      | register => exact number.isLt
      | immediate value => exact ⟨value.isLt, number.isLt⟩
  | register | fence | fenceI | ecall | ebreak | mret | sret | wfi => trivial

theorem wellFormed_cut {x : Xlen} {numeric : NumericInstruction} (inRange : numeric.InRange x) :
    numeric.cut.WellFormed x := by
  cases numeric with
  | shift op dest src amount =>
      have narrow : amount < 2 ^ 6 := Nat.lt_of_lt_of_le inRange x.bits_le
      rw [cut, Instruction.WellFormed, BitVec.toNat_ofNat, Nat.mod_eq_of_lt narrow]
      exact inRange
  | immediateWord | shiftWord => exact isWide_eq_true_iff.mpr inRange.1
  | registerWord => exact isWide_eq_true_iff.mpr inRange
  | load op =>
      intro wide
      refine isWide_eq_true_iff.mpr (inRange.1 ?_)
      cases op with
      | ld => exact .inl rfl
      | lwu => exact .inr rfl
      | _ => cases wide
  | store op =>
      intro wide
      refine isWide_eq_true_iff.mpr (inRange.1 ?_)
      cases op with
      | sd => rfl
      | _ => cases wide
  | _ => trivial

end NumericInstruction

namespace Instruction

open Format NumericInstruction

/-- The instruction of a word, with its fields read as numbers. -/
def decodeNumeric (x : Xlen) (word : BitVec 32) : Except DecodeError NumericInstruction :=
  (decode x word).map numeric

theorem decodeNumeric_eq_ok_iff {x : Xlen} {word : BitVec 32} {fields : NumericInstruction} :
    decodeNumeric x word = .ok fields ↔ fields.InRange x ∧ Means x word fields.cut := by
  unfold decodeNumeric
  constructor
  · intro decoded
    cases meant : decode x word with
    | error error =>
        rw [meant] at decoded
        cases decoded
    | ok instruction =>
        rw [meant] at decoded
        cases decoded
        have means := means_of_decode meant
        rw [cut_numeric]
        exact ⟨inRange_numeric means.wellFormed, means⟩
  · rintro ⟨inRange, means⟩
    rw [decode_of_means means]
    exact congrArg Except.ok (numeric_cut inRange)

/-- Every format, with the codes of an operation and any fields in range, is decoded to the
operation on these fields. -/
structure InvertsFormats (x : Xlen) : Prop where
  register : ∀ (op : RegisterOp) (dest left right : Register),
    decodeNumeric x (encodeR op.funct7 right left op.funct3 dest Opcode.op.code) =
      .ok (.register op dest left right)
  registerWord : x = .rv64 → ∀ (op : WordOp) (dest left right : Register),
    decodeNumeric x (encodeR op.funct7 right left op.funct3 dest Opcode.op32.code) =
      .ok (.registerWord op dest left right)
  immediate : ∀ (op : ImmediateOp) (dest src : Register) (value : Int), IsSmall value →
    decodeNumeric x (encodeI (BitVec.ofInt 12 value) src op.funct3 dest Opcode.opImm.code) =
      .ok (.immediate op dest src value)
  shift : ∀ (op : ShiftOp) (dest src : Register) (amount : Nat), amount < x.bits →
    decodeNumeric x
        (encodeI (op.funct6 ++ BitVec.ofNat 6 amount) src op.funct3 dest Opcode.opImm.code) =
      .ok (.shift op dest src amount)
  shiftWord : x = .rv64 → ∀ (op : ShiftOp) (dest src : Register) (amount : Nat), amount < 32 →
    decodeNumeric x
        (encodeI (op.funct6 ++ 0#1 ++ BitVec.ofNat 5 amount) src op.funct3 dest
          Opcode.opImm32.code) =
      .ok (.shiftWord op dest src amount)
  immediateWord : x = .rv64 → ∀ (dest src : Register) (value : Int), IsSmall value →
    decodeNumeric x (encodeI (BitVec.ofInt 12 value) src 0 dest Opcode.opImm32.code) =
      .ok (.immediateWord dest src value)
  jalr : ∀ (dest base : Register) (offset : Int), IsSmall offset →
    decodeNumeric x (encodeI (BitVec.ofInt 12 offset) base 0 dest Opcode.jalr.code) =
      .ok (.jalr dest base offset)
  load : ∀ (op : LoadOp) (dest base : Register) (offset : Int),
    (op = .ld ∨ op = .lwu → x = .rv64) → IsSmall offset →
    decodeNumeric x (encodeI (BitVec.ofInt 12 offset) base op.funct3 dest Opcode.load.code) =
      .ok (.load op dest base offset)
  store : ∀ (op : StoreOp) (src base : Register) (offset : Int),
    (op = .sd → x = .rv64) → IsSmall offset →
    decodeNumeric x (encodeS (BitVec.ofInt 12 offset) src base op.funct3 Opcode.store.code) =
      .ok (.store op src base offset)
  branch : ∀ (condition : Condition) (left right : Register) (offset : Int),
    2 ∣ offset → -4096 ≤ offset → offset ≤ 4094 →
    decodeNumeric x
        (encodeB (BitVec.ofInt 12 (offset / 2)) right left condition.funct3 Opcode.branch.code) =
      .ok (.branch condition left right offset)
  auipc : ∀ (dest : Register) (value : Int), IsUpper value →
    decodeNumeric x (encodeU (BitVec.ofInt 20 (value / 4096)) dest Opcode.auipc.code) =
      .ok (.auipc dest value)
  lui : ∀ (dest : Register) (value : Int), IsUpper value →
    decodeNumeric x (encodeU (BitVec.ofInt 20 (value / 4096)) dest Opcode.lui.code) =
      .ok (.lui dest value)
  jal : ∀ (dest : Register) (offset : Int),
    2 ∣ offset → -1048576 ≤ offset → offset ≤ 1048574 →
    decodeNumeric x (encodeJ (BitVec.ofInt 20 (offset / 2)) dest Opcode.jal.code) =
      .ok (.jal dest offset)
  csrRegister : ∀ (op : CsrOp) (dest source : Register) (number : Nat), number < 4096 →
    decodeNumeric x
        (encodeI (BitVec.ofNat 12 number) source (0#1 ++ op.code) dest Opcode.system.code) =
      .ok (.csrRegister op dest source number)
  csrImmediate : ∀ (op : CsrOp) (dest : Register) (value number : Nat), value < 32 →
    number < 4096 →
    decodeNumeric x
        (encodeI (BitVec.ofNat 12 number) (BitVec.ofNat 5 value) (1#1 ++ op.code) dest
          Opcode.system.code) =
      .ok (.csrImmediate op dest value number)
  /-- The first four bits of a fence and its registers are ignored. -/
  fence : ∀ (predecessor successor : FenceSet) (first : BitVec 4) (dest src : Register),
    decodeNumeric x
        (encodeI (first ++ predecessor.bits ++ successor.bits) src 0 dest Opcode.miscMem.code) =
      .ok (.fence predecessor successor)
  /-- Of an instruction fence all but the codes is ignored. -/
  fenceI : ∀ (imm : BitVec 12) (dest src : Register),
    decodeNumeric x (encodeI imm src 1 dest Opcode.miscMem.code) = .ok .fenceI
  ecall : decodeNumeric x (encodeI 0x000 0 0 0 Opcode.system.code) = .ok .ecall
  ebreak : decodeNumeric x (encodeI 0x001 0 0 0 Opcode.system.code) = .ok .ebreak
  sret : decodeNumeric x (encodeI 0x102 0 0 0 Opcode.system.code) = .ok .sret
  wfi : decodeNumeric x (encodeI 0x105 0 0 0 Opcode.system.code) = .ok .wfi
  mret : decodeNumeric x (encodeI 0x302 0 0 0 Opcode.system.code) = .ok .mret

theorem decodeNumeric_of_decode {x : Xlen} {word : BitVec 32} {instruction : Instruction}
    (decoded : decode x word = .ok instruction) :
    decodeNumeric x word = .ok instruction.numeric := by
  rw [decodeNumeric, decoded]
  rfl

theorem decodeNumeric_fence {x : Xlen} (predecessor successor : FenceSet) (first : BitVec 4)
    (dest src : Register) :
    decodeNumeric x
        (encodeI (first ++ predecessor.bits ++ successor.bits) src 0 dest Opcode.miscMem.code) =
      .ok (.fence predecessor successor) :=
  have decoded : decode x (encodeI (first ++ predecessor.bits ++ successor.bits) src 0 dest
      Opcode.miscMem.code) = .ok (.fence predecessor successor) :=
    decode_eq_ok (opcode_encodeI ..) nofun (by simp [decodeFields?, decodeFence?])
  decodeNumeric_of_decode decoded

theorem decodeNumeric_fenceI {x : Xlen} (imm : BitVec 12) (dest src : Register) :
    decodeNumeric x (encodeI imm src 1 dest Opcode.miscMem.code) = .ok .fenceI :=
  have decoded : decode x (encodeI imm src 1 dest Opcode.miscMem.code) = .ok .fenceI :=
    decode_eq_ok (opcode_encodeI ..) nofun (by simp [decodeFields?, decodeFence?])
  decodeNumeric_of_decode decoded

theorem decodeNumeric_of_encode_eq {x : Xlen} {word : BitVec 32} {fields : NumericInstruction}
    (same : fields.cut.encode = word) (inRange : fields.InRange x) :
    decodeNumeric x word = .ok fields := by
  rw [← same, decodeNumeric_of_decode (decode_encode (wellFormed_cut inRange)),
    numeric_cut inRange]

theorem invertsFormats (x : Xlen) : InvertsFormats x where
  register op dest left right := decodeNumeric_of_encode_eq (by rw [cut, encode]) trivial
  registerWord wide op dest left right := decodeNumeric_of_encode_eq (by rw [cut, encode]) wide
  immediate op dest src value small := decodeNumeric_of_encode_eq (by rw [cut, encode]) small
  shift op dest src amount narrow := decodeNumeric_of_encode_eq (by rw [cut, encode]) narrow
  shiftWord wide op dest src amount narrow :=
    decodeNumeric_of_encode_eq (by rw [cut, encode]) ⟨wide, narrow⟩
  immediateWord wide dest src value small :=
    decodeNumeric_of_encode_eq (by rw [cut, encode]) ⟨wide, small⟩
  jalr dest base offset small := decodeNumeric_of_encode_eq (by rw [cut, encode]) small
  load op dest base offset wide small :=
    decodeNumeric_of_encode_eq (by rw [cut, encode]) ⟨wide, small⟩
  store op src base offset wide small :=
    decodeNumeric_of_encode_eq (by rw [cut, encode]) ⟨wide, small⟩
  branch condition left right offset even low high :=
    decodeNumeric_of_encode_eq (by rw [cut, encode]) ⟨even, low, high⟩
  auipc dest value upper := decodeNumeric_of_encode_eq (by rw [cut, encode]) upper
  lui dest value upper := decodeNumeric_of_encode_eq (by rw [cut, encode]) upper
  jal dest offset even low high :=
    decodeNumeric_of_encode_eq (by rw [cut, encode]) ⟨even, low, high⟩
  csrRegister op dest source number narrow :=
    decodeNumeric_of_encode_eq (by rw [cut, encode]; rfl) narrow
  csrImmediate op dest value number small narrow :=
    decodeNumeric_of_encode_eq (by rw [cut, encode]; rfl) ⟨small, narrow⟩
  fence := decodeNumeric_fence
  fenceI := decodeNumeric_fenceI
  ecall := decodeNumeric_of_encode_eq rfl trivial
  ebreak := decodeNumeric_of_encode_eq rfl trivial
  sret := decodeNumeric_of_encode_eq rfl trivial
  wfi := decodeNumeric_of_encode_eq rfl trivial
  mret := decodeNumeric_of_encode_eq rfl trivial

/-- Decoding is a bijection between the words that it accepts, up to the bits that fences ignore,
and the instructions whose numbers are in range. -/
theorem decode_bijective (x : Xlen) :
    (∀ left right instruction, decode x left = .ok instruction →
      decode x right = .ok instruction →
      match instruction with
      | .fence .. => left &&& ~~~0xF00F8F80 = right &&& ~~~0xF00F8F80
      | .fenceI => opcode left = opcode right ∧ funct3 left = funct3 right
      | _ => left = right) ∧
    (∀ fields : NumericInstruction,
      (∃ word, decodeNumeric x word = .ok fields) ↔ fields.InRange x) ∧
    InvertsFormats x := by
  refine ⟨?_, ?_, invertsFormats x⟩
  · intro left right instruction decodedLeft decodedRight
    have meansLeft := decode_eq_ok_iff.mp decodedLeft
    have meansRight := decode_eq_ok_iff.mp decodedRight
    have agree : left &&& instruction.significant = right &&& instruction.significant :=
      meansLeft.agrees.trans meansRight.agrees.symm
    cases instruction with
    | fence => exact agree
    | fenceI =>
        have slice := fun start length kept =>
          (slice_eq_of_agrees meansLeft.agrees start length kept).trans
            (slice_eq_of_agrees meansRight.agrees start length kept).symm
        exact ⟨slice 0 7 (by decide), slice 12 3 (by decide)⟩
    | _ => simpa only [significant, BitVec.and_allOnes] using agree
  · intro fields
    constructor
    · rintro ⟨word, decoded⟩
      exact (decodeNumeric_eq_ok_iff.mp decoded).1
    · intro inRange
      exact ⟨_, decodeNumeric_of_encode_eq rfl inRange⟩

end Instruction

end RiscV
