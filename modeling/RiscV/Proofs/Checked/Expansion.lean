import RiscV.Proofs.Checked.Format
import RiscV.Proofs.Checked.Immediate

/-!
# Checked expansion

Expanding compressed instructions to the words that they stand for.  Every short register number
fits its three bits, and gathering the immediates and putting the words together is defined, so
that each parcel is expanded without an undefined operation, to the word of its instruction.
-/

namespace RiscV

namespace Checked

open Compressed

/-- The number of the register that a short field gives. -/
def shortRegister (code : BitVec 16) (start : Nat) : Checked (BitVec 32) := do
  let short ← field code start 3
  let register ← fit (Register.ofCompressedNat (short.setWidth 8).toNat)
  return number register

/-- A shift of a register by an amount that is below its width. -/
def expandShift? (x : Xlen) (op : ShiftOp) (register : BitVec 32) (code : BitVec 16) :
    Checked (Option (BitVec 32)) := do
  let amount ← small code
  if !x.isWide && amount ≥ 32 then return none
  else
    let funct ← shiftLeft (op.funct6.setWidth 32) 6
    return some (← encodeI (funct ||| amount) register op.funct3 register Opcode.opImm.code)

/-- Accesses relative to a register, and pointers into the stack frame. -/
def expandAccess? (x : Xlen) (code : BitVec 16) (form far near : BitVec 32) :
    Checked (Option (BitVec 32)) := do
  match form.setWidth 3 with
  | 0b000 =>
      let imm ← frameIncrement code
      if imm != 0 then
        return some (← encodeI imm (number Register.sp) ImmediateOp.addi.funct3 near
          Opcode.opImm.code)
      else return none
  | 0b010 =>
      return some (← encodeI (← wordOffset code) far LoadOp.lw.funct3 near Opcode.load.code)
  | 0b011 =>
      if x.isWide then
        return some (← encodeI (← doublewordOffset code) far LoadOp.ld.funct3 near Opcode.load.code)
      else return none
  | 0b110 =>
      return some (← encodeS (← wordOffset code) near far StoreOp.sw.funct3 Opcode.store.code)
  | 0b111 =>
      if x.isWide then
        return some (← encodeS (← doublewordOffset code) near far StoreOp.sd.funct3
          Opcode.store.code)
      else return none
  | _ => return none

/-- An operation of two of the eight short registers. -/
def expandRegister? (x : Xlen) (code : BitVec 16) (far near : BitVec 32) :
    Checked (Option (BitVec 32)) := do
  let kind ← field code 12 1
  let op ← field code 5 2
  match kind.setWidth 1, op.setWidth 2 with
  | 0, 0b00 => binary .sub
  | 0, 0b01 => binary .xor
  | 0, 0b10 => binary .or
  | 0, 0b11 => binary .and
  | 1, 0b00 => if x.isWide then binaryWord .subw else return none
  | 1, 0b01 => if x.isWide then binaryWord .addw else return none
  | _, _ => return none
where
  binary (op : RegisterOp) : Checked (Option (BitVec 32)) := do
    return some (← encodeR op.funct7 near far op.funct3 far Opcode.op.code)
  binaryWord (op : WordOp) : Checked (Option (BitVec 32)) := do
    return some (← encodeR op.funct7 near far op.funct3 far Opcode.op32.code)

/-- Operations on one of the eight short registers. -/
def expandArithmetic? (x : Xlen) (code : BitVec 16) (far near : BitVec 32) :
    Checked (Option (BitVec 32)) := do
  let op ← field code 10 2
  match op.setWidth 2 with
  | 0b00 => expandShift? x .srli far code
  | 0b01 => expandShift? x .srai far code
  | 0b10 =>
      return some (← encodeI (← immediate code) far ImmediateOp.andi.funct3 far Opcode.opImm.code)
  | _ => expandRegister? x code far near

/-- Constants, increments of the stack pointer, and upper immediates. -/
def expandUpper? (code : BitVec 16) (dest : BitVec 32) : Checked (Option (BitVec 32)) := do
  if dest = number Register.sp then
    let imm ← stackIncrement code
    if imm != 0 then
      return some (← encodeI (← signed imm 10) (number Register.sp) ImmediateOp.addi.funct3
        (number Register.sp) Opcode.opImm.code)
    else return none
  else
    let imm ← upper code
    if imm != 0 then return some (← encodeU (← signed imm 18) dest Opcode.lui.code)
    else return none

/-- Operations with an immediate, jumps and branches. -/
def expandImmediate? (x : Xlen) (code : BitVec 16) (form dest far near : BitVec 32) :
    Checked (Option (BitVec 32)) := do
  match form.setWidth 3 with
  | 0b000 =>
      return some (← encodeI (← immediate code) dest ImmediateOp.addi.funct3 dest
        Opcode.opImm.code)
  | 0b001 =>
      if x.isWide then
        if dest != 0 then
          return some (← encodeI (← immediate code) dest 0 dest Opcode.opImm32.code)
        else return none
      else return some (← encodeJ (← jumpOffset code) (number Register.ra) Opcode.jal.code)
  | 0b010 =>
      return some (← encodeI (← immediate code) (number 0) ImmediateOp.addi.funct3 dest
        Opcode.opImm.code)
  | 0b011 => expandUpper? code dest
  | 0b100 => expandArithmetic? x code far near
  | 0b101 => return some (← encodeJ (← jumpOffset code) (number 0) Opcode.jal.code)
  | 0b110 =>
      return some (← encodeB (← branchOffset code) (number 0) far Condition.beq.funct3
        Opcode.branch.code)
  | _ =>
      return some (← encodeB (← branchOffset code) (number 0) far Condition.bne.funct3
        Opcode.branch.code)

/-- Moves, additions, and jumps to a register. -/
def expandMove? (code : BitVec 16) (dest source : BitVec 32) :
    Checked (Option (BitVec 32)) := do
  let kind ← field code 12 1
  if kind = 0 then
    if source = 0 then
      if dest != 0 then return some (← encodeI 0 dest 0 (number 0) Opcode.jalr.code)
      else return none
    else
      return some (← encodeR RegisterOp.add.funct7 source (number 0) RegisterOp.add.funct3 dest
        Opcode.op.code)
  else if source = 0 then
    if dest = 0 then return some 0x00100073
    else return some (← encodeI 0 dest 0 (number Register.ra) Opcode.jalr.code)
  else
    return some (← encodeR RegisterOp.add.funct7 source dest RegisterOp.add.funct3 dest
      Opcode.op.code)

/-- Accesses relative to the stack pointer, and operations on full registers. -/
def expandStack? (x : Xlen) (code : BitVec 16) (form dest source : BitVec 32) :
    Checked (Option (BitVec 32)) := do
  match form.setWidth 3 with
  | 0b000 => expandShift? x .slli dest code
  | 0b010 =>
      if dest != 0 then
        return some (← encodeI (← wordLoadOffset code) (number Register.sp) LoadOp.lw.funct3
          dest Opcode.load.code)
      else return none
  | 0b011 =>
      if x.isWide && dest != 0 then
        return some (← encodeI (← doublewordLoadOffset code) (number Register.sp)
          LoadOp.ld.funct3 dest Opcode.load.code)
      else return none
  | 0b100 => expandMove? code dest source
  | 0b110 =>
      return some (← encodeS (← wordStoreOffset code) source (number Register.sp)
        StoreOp.sw.funct3 Opcode.store.code)
  | 0b111 =>
      if x.isWide then
        return some (← encodeS (← doublewordStoreOffset code) source (number Register.sp)
          StoreOp.sd.funct3 Opcode.store.code)
      else return none
  | _ => return none

/-- The word that a compressed instruction stands for, on registers of the given width. -/
def expand? (x : Xlen) (code : BitVec 16) : Checked (Option (BitVec 32)) := do
  let form ← field code 13 3
  let dest ← field code 7 5
  let source ← field code 2 5
  let near ← shortRegister code 2
  let far ← shortRegister code 7
  match (code &&& 0b11).setWidth 2 with
  | 0b00 => expandAccess? x code form far near
  | 0b01 => expandImmediate? x code form dest far near
  | 0b10 => expandStack? x code form dest source
  | _ => return none

theorem shortRegister_eq (code : BitVec 16) {start : Nat} (inside : start + 3 < 32) :
    shortRegister code start = .ok (number (Register.ofCompressed (bits code start 3))) := by
  have same (short : BitVec 3) : ((short.setWidth 32).setWidth 8).toNat = short.toNat := by
    rw [BitVec.setWidth_setWidth_of_le short (by decide), BitVec.toNat_setWidth_of_le (by decide)]
  rw [shortRegister, field_eq code inside, ok_bind, same, Register.ofCompressedNat,
    Field.ofNat_toNat]
  rfl

theorem setWidth_inj {width : Nat} {left right : BitVec width} (le : width ≤ 32) :
    left.setWidth 32 = right.setWidth 32 ↔ left = right := by
  refine ⟨fun same => ?_, congrArg _⟩
  have back := congrArg (BitVec.setWidth width) same
  rwa [BitVec.setWidth_setWidth_of_le _ le, BitVec.setWidth_setWidth_of_le _ le,
    BitVec.setWidth_eq, BitVec.setWidth_eq] at back

theorem setWidth_eq_zero {width : Nat} {value : BitVec width} (le : width ≤ 32) :
    value.setWidth 32 = 0 ↔ value = 0 := by
  rw [← setWidth_inj le]
  exact ⟨fun zero => zero.trans (BitVec.setWidth_zero ..).symm,
    fun zero => zero.trans (BitVec.setWidth_zero ..)⟩

theorem setWidth_bne_zero {width : Nat} (value : BitVec width) (le : width ≤ 32) :
    (value.setWidth 32 != 0) = (value != 0) := by
  rw [Bool.eq_iff_iff, bne_iff_ne, bne_iff_ne, ne_eq, ne_eq, setWidth_eq_zero le]

theorem setWidth_setWidth_field {width : Nat} (value : BitVec width) (le : width ≤ 32) :
    (value.setWidth 32).setWidth width = value := by
  rw [BitVec.setWidth_setWidth_of_le _ le, BitVec.setWidth_eq]

theorem setWidth_keeps (imm : BitVec 12) : (imm.setWidth 32).setWidth 12 = imm :=
  setWidth_setWidth_field imm (by decide)

theorem extractLsb'_keeps (imm : BitVec 12) : (imm.setWidth 32).extractLsb' 0 12 = imm :=
  setWidth_keeps imm

theorem number_inj {left right : Register} : number left = number right ↔ left = right :=
  setWidth_inj (by decide)

theorem number_eq_zero {register : Register} : number register = 0 ↔ register = 0 :=
  setWidth_eq_zero (by decide)

theorem number_bne_zero (register : Register) : (number register != 0) = (register != 0) :=
  setWidth_bne_zero register (by decide)

variable (x : Xlen) (code : BitVec 16)

theorem expandShift?_eq (op : ShiftOp) (register : Register) :
    expandShift? x op (number register) code =
      .ok ((Compressed.shift? x op register code).map Instruction.encode) := by
  have inside : (!x.isWide && decide ((Compressed.small code).setWidth 32 ≥ 32)) =
      !decide ((Compressed.small code).toNat < x.bits) := by
    have narrow : ∀ amount : BitVec 6,
        decide (amount.setWidth 32 ≥ (32 : BitVec 32)) = !decide (amount.toNat < 32) := by decide
    cases x with
    | rv32 => exact narrow _
    | rv64 =>
        have below : (Compressed.small code).toNat < Xlen.rv64.bits := (Compressed.small code).isLt
        simp [Xlen.isWide, below]
  have field : ∀ amount : BitVec 6,
      ((op.funct6.setWidth 32 <<< 6 ||| amount.setWidth 32).setWidth 12) =
        op.funct6 ++ amount := by
    cases op <;> decide
  simp only [expandShift?, Compressed.shift?, small_eq, ok_bind, inside]
  by_cases below : (Compressed.small code).toNat < x.bits
  · simp only [below, decide_true, Bool.not_true, Bool.false_eq_true, if_false,
      shiftLeft_eq (by decide : 6 < 32), ok_bind, encodeI_eq _ _ _ _ (field _), pure_eq_ok]
    rfl
  · simp only [below, decide_false, Bool.not_false, if_true]
    rfl

variable {x code}

/-- A word that is given in any case. -/
theorem some_eq {word : Checked (BitVec 32)} {instruction : Instruction}
    (encoded : word = .ok instruction.encode) :
    (word >>= fun value => pure (some value)) =
      (.ok ((some instruction).map Instruction.encode) : Checked (Option (BitVec 32))) := by
  rw [encoded]
  rfl

/-- A word that is given under a condition. -/
theorem when_eq {condition : Bool} {word : Checked (BitVec 32)} {instruction : Instruction}
    (encoded : word = .ok instruction.encode) :
    (if condition then word >>= fun value => pure (some value) else pure none) =
      (.ok ((when condition instruction).map Instruction.encode) :
        Checked (Option (BitVec 32))) := by
  rw [encoded]
  cases condition <;> rfl

variable (x code)

theorem two_cases : ∀ op : BitVec 2, op = 0#2 ∨ op = 1#2 ∨ op = 2#2 ∨ op = 3#2 := by decide

theorem three_cases :
    ∀ form : BitVec 3, form = 0#3 ∨ form = 1#3 ∨ form = 2#3 ∨ form = 3#3 ∨ form = 4#3 ∨
      form = 5#3 ∨ form = 6#3 ∨ form = 7#3 := by decide

theorem expandAccess?_eq :
    expandAccess? x code ((bits code 13 3).setWidth 32) (number (shortRs1 code))
      (number (shortRs2 code)) =
      .ok ((Compressed.expandAccess? x code).map Instruction.encode) := by
  unfold expandAccess? Compressed.expandAccess?
  rw [setWidth_setWidth_field _ (by decide)]
  rcases three_cases (bits code 13 3) with
    form | form | form | form | form | form | form | form <;> simp only [form]
  · rw [frameIncrement_eq, ok_bind, setWidth_bne_zero _ (by decide)]
    exact when_eq (encodeI_eq _ _ _ _ (setWidth_keeps _))
  · rfl
  · rw [wordOffset_eq, ok_bind]
    exact some_eq (encodeI_eq _ _ _ _ (setWidth_keeps _))
  · rw [doublewordOffset_eq, ok_bind]
    exact when_eq (encodeI_eq _ _ _ _ (setWidth_keeps _))
  · rfl
  · rfl
  · rw [wordOffset_eq, ok_bind]
    exact some_eq (encodeS_eq _ _ _ _ (extractLsb'_keeps _))
  · rw [doublewordOffset_eq, ok_bind]
    exact when_eq (encodeS_eq _ _ _ _ (extractLsb'_keeps _))

theorem expandRegister?_eq :
    expandRegister? x code (number (shortRs1 code)) (number (shortRs2 code)) =
      .ok ((Compressed.expandRegister? x code).map Instruction.encode) := by
  unfold expandRegister? Compressed.expandRegister?
  rw [field_eq code (by decide), field_eq code (by decide), ok_bind, ok_bind,
    setWidth_setWidth_field _ (by decide), setWidth_setWidth_field _ (by decide)]
  rcases BitVec.eq_zero_or_eq_one (bits code 12 1) with kind | kind <;>
    rcases two_cases (bits code 5 2) with op | op | op | op <;> simp only [kind, op]
  iterate 4 exact some_eq (encodeR_eq ..)
  iterate 2 exact when_eq (encodeR_eq ..)
  iterate 2 rfl

theorem expandArithmetic?_eq :
    expandArithmetic? x code (number (shortRs1 code)) (number (shortRs2 code)) =
      .ok ((Compressed.expandArithmetic? x code).map Instruction.encode) := by
  unfold expandArithmetic? Compressed.expandArithmetic?
  rw [field_eq code (by decide), ok_bind, setWidth_setWidth_field _ (by decide)]
  rcases two_cases (bits code 10 2) with op | op | op | op <;> simp only [op]
  · exact expandShift?_eq x code .srli _
  · exact expandShift?_eq x code .srai _
  · rw [immediate_eq, ok_bind]
    exact some_eq (encodeI_eq _ _ _ _ (setWidth_signExtend _ (by decide)))
  · exact expandRegister?_eq x code

theorem expandUpper?_eq :
    expandUpper? code (number (Compressed.rd code)) =
      .ok ((Compressed.expandUpper? code).map Instruction.encode) := by
  have increment : signed ((Compressed.stackIncrement code).setWidth 32) 10 =
      .ok ((Compressed.stackIncrement code).signExtend 32) :=
    signed_eq _ (by decide) (by decide)
  obtain ⟨imm, value, high⟩ := signed_upper_eq code
  have nonzero : ∀ small : BitVec 6, ((small ++ 0#12).setWidth 32 != 0) = (small != 0) := by decide
  simp only [upper_eq, ok_bind] at value
  simp only [expandUpper?, Compressed.expandUpper?, number_inj,
    stackIncrement_eq, upper_eq, ok_bind, setWidth_bne_zero _ (by decide : 10 ≤ 32), increment,
    value, nonzero]
  split
  · exact when_eq (encodeI_eq _ _ _ _ (setWidth_signExtend _ (by decide)))
  · exact when_eq (encodeU_eq _ _ high)

theorem expandImmediate?_eq :
    expandImmediate? x code ((bits code 13 3).setWidth 32) (number (Compressed.rd code))
      (number (shortRs1 code)) (number (shortRs2 code)) =
      .ok ((Compressed.expandImmediate? x code).map Instruction.encode) := by
  have low : ((Compressed.small code).signExtend 32).setWidth 12 = Compressed.immediate code :=
    setWidth_signExtend _ (by decide)
  obtain ⟨jump, jump_eq, jump_low⟩ := jumpOffset_eq code
  obtain ⟨branch, branch_eq, branch_low⟩ := branchOffset_eq code
  unfold expandImmediate? Compressed.expandImmediate?
  rw [setWidth_setWidth_field _ (by decide)]
  rcases three_cases (bits code 13 3) with
    form | form | form | form | form | form | form | form <;>
    simp only [form, immediate_eq, jump_eq, branch_eq, ok_bind, number_bne_zero]
  · exact some_eq (encodeI_eq _ _ _ _ low)
  · split
    · exact when_eq (encodeI_eq _ _ _ _ low)
    · exact some_eq (encodeJ_eq _ _ jump_low)
  · exact some_eq (encodeI_eq _ _ _ _ low)
  · exact expandUpper?_eq code
  · exact expandArithmetic?_eq x code
  · exact some_eq (encodeJ_eq _ _ jump_low)
  · exact some_eq (encodeB_eq _ _ _ _ branch_low)
  · exact some_eq (encodeB_eq _ _ _ _ branch_low)

theorem expandMove?_eq :
    expandMove? code (number (Compressed.rd code)) (number (Compressed.rs2 code)) =
      .ok ((Compressed.expandMove? code).map Instruction.encode) := by
  have kind : (bits code 12 1).setWidth 32 = 0 ↔ bits code 12 1 = 0 :=
    setWidth_eq_zero (by decide)
  simp only [expandMove?, Compressed.expandMove?, field_eq code (by decide : 12 + 1 < 32), ok_bind,
    kind, number_eq_zero, number_bne_zero]
  split
  · split
    · exact when_eq (encodeI_eq _ _ _ _ rfl)
    · exact some_eq (encodeR_eq ..)
  · split
    · split
      · rfl
      · exact some_eq (encodeI_eq _ _ _ _ rfl)
    · exact some_eq (encodeR_eq ..)

theorem expandStack?_eq :
    expandStack? x code ((bits code 13 3).setWidth 32) (number (Compressed.rd code))
      (number (Compressed.rs2 code)) =
      .ok ((Compressed.expandStack? x code).map Instruction.encode) := by
  unfold expandStack? Compressed.expandStack?
  rw [setWidth_setWidth_field _ (by decide)]
  rcases three_cases (bits code 13 3) with
    form | form | form | form | form | form | form | form <;>
    simp only [form, wordLoadOffset_eq, doublewordLoadOffset_eq, wordStoreOffset_eq,
      doublewordStoreOffset_eq, ok_bind, number_bne_zero]
  · exact expandShift?_eq x code .slli _
  · rfl
  · exact when_eq (encodeI_eq _ _ _ _ (setWidth_keeps _))
  · exact when_eq (encodeI_eq _ _ _ _ (setWidth_keeps _))
  · exact expandMove?_eq code
  · rfl
  · exact some_eq (encodeS_eq _ _ _ _ (extractLsb'_keeps _))
  · exact when_eq (encodeS_eq _ _ _ _ (extractLsb'_keeps _))

/-- Every parcel is expanded without an undefined operation. -/
theorem expand?_eq :
    expand? x code = .ok ((Compressed.expand? x code).map Instruction.encode) := by
  have low : code &&& 0b11 = (bits code 0 2).setWidth 16 := and_mask rfl
  have kind : (code &&& 0b11).setWidth 2 = bits code 0 2 := by
    rw [low, BitVec.setWidth_setWidth_of_le _ (by decide), BitVec.setWidth_eq]
  have form : field code 13 3 = .ok ((bits code 13 3).setWidth 32) := field_eq code (by decide)
  have dest : field code 7 5 = .ok (number (Compressed.rd code)) := field_eq code (by decide)
  have source : field code 2 5 = .ok (number (Compressed.rs2 code)) := field_eq code (by decide)
  have near : shortRegister code 2 = .ok (number (shortRs2 code)) :=
    shortRegister_eq code (by decide)
  have far : shortRegister code 7 = .ok (number (shortRs1 code)) :=
    shortRegister_eq code (by decide)
  simp only [expand?, form, dest, source, near, far, ok_bind, kind, Compressed.expand?]
  rcases two_cases (bits code 0 2) with quadrant | quadrant | quadrant | quadrant <;>
    simp only [quadrant]
  · exact expandAccess?_eq x code
  · exact expandImmediate?_eq x code
  · exact expandStack?_eq x code
  · rfl

end Checked

end RiscV
