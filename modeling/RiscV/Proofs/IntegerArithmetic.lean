import RiscV.Proofs.Checked.Widening
import RiscV.Proofs.Computation
import RiscV.Proofs.Product

/-!
# Integer arithmetic

Every operation on register values is an operation on the integers that the values stand for, of
whose result the register keeps the low bits.  Operations with an immediate are those on two
registers with the extended immediate in the second one.  The same results come out of 64-bit
arithmetic at either width.
-/

namespace RiscV

section Integers

variable {width : Nat} {word : BitVec width}

theorem eq_ofInt_of_toInt {number : Int} (signed : word.toInt = number.bmod (2 ^ width)) :
    word = BitVec.ofInt width number :=
  BitVec.eq_of_toInt_eq (signed.trans (BitVec.toInt_ofInt number).symm)

/-- A word is the low bits of the signed number that it stands for. -/
theorem eq_ofInt_of_toInt_eq {number : Int} (signed : word.toInt = number) :
    word = BitVec.ofInt width number := by
  rw [← signed, BitVec.ofInt_toInt]

/-- A word is the low bits of the number without sign that it stands for. -/
theorem eq_ofInt_of_toNat_eq {number : Nat} (unsigned : word.toNat = number) :
    word = BitVec.ofInt width number := by
  rw [← unsigned, BitVec.ofInt_natCast, BitVec.ofNat_toNat, BitVec.setWidth_eq]

theorem toNat_append_div (high low : BitVec width) :
    (high ++ low).toNat / 2 ^ width = high.toNat := by
  rw [BitVec.toNat_append, ← Nat.shiftLeft_add_eq_or_of_lt low.isLt, Nat.shiftLeft_eq,
    Nat.add_comm, Nat.add_mul_div_right _ _ (Nat.two_pow_pos width), Nat.div_eq_of_lt low.isLt,
    Nat.zero_add]

theorem toInt_append_div (positive : 0 < width) (high low : BitVec width) :
    (high ++ low).toInt / 2 ^ width = high.toInt := by
  have nonzero : (width == 0) = false := beq_false_of_ne (Nat.ne_of_gt positive)
  have bound : (low.toNat : Int) < 2 ^ width := by exact_mod_cast low.isLt
  have room : (2 : Int) ^ width ≠ 0 := Int.ne_of_gt (Int.pow_pos (by decide))
  rw [BitVec.toInt_append, nonzero, if_neg Bool.false_ne_true, Int.add_comm,
    Int.add_mul_ediv_left _ _ room, Int.ediv_eq_zero_of_lt (Int.natCast_nonneg _) bound,
    Int.zero_add]

end Integers

variable {x : Xlen}

namespace RegisterOp

/-- The amount of a shift: the low bits of the operand, as many as number the bits of a word. -/
def amount (b : Word x) : Nat := b.toNat % 2 ^ Nat.log2 x.bits

/-- The result of the operation as an integer. -/
def integer (op : RegisterOp) (a b : Word x) : Int :=
  match op with
  | add => a.toInt + b.toInt
  | sub => a.toInt - b.toInt
  | slt => if a.toInt < b.toInt then 1 else 0
  | sltu => if a.toNat < b.toNat then 1 else 0
  | and => (a.toNat &&& b.toNat : Nat)
  | or => (a.toNat ||| b.toNat : Nat)
  | xor => (a.toNat ^^^ b.toNat : Nat)
  | sll => (a.toNat * 2 ^ amount b : Nat)
  | srl => (a.toNat / 2 ^ amount b : Nat)
  | sra => a.toInt / (2 ^ amount b : Nat)
  | mul => a.toInt * b.toInt
  | mulh => a.toInt * b.toInt / 2 ^ x.bits
  | mulhsu => a.toInt * b.toNat / 2 ^ x.bits
  | mulhu => (a.toNat * b.toNat / 2 ^ x.bits : Nat)
  | div => if b = 0 then -1 else a.toInt.tdiv b.toInt
  | divu => if b = 0 then -1 else (a.toNat / b.toNat : Nat)
  | rem => if b = 0 then a.toInt else a.toInt.tmod b.toInt
  | remu => if b = 0 then a.toNat else (a.toNat % b.toNat : Nat)

theorem shiftAmount_eq (b : Word x) : shiftAmount b = amount b := by
  cases x <;> rfl

theorem ofBool_eq_ofInt (condition : Prop) [Decidable condition] :
    (Word.ofBool (decide condition) : Word x) =
      BitVec.ofInt x.bits (if condition then 1 else 0) := by
  by_cases holds : condition <;> simp only [holds] <;> cases x <;> rfl

theorem eval_eq_ofInt (op : RegisterOp) (a b : Word x) :
    op.eval a b = BitVec.ofInt x.bits (op.integer a b) := by
  cases op with
  | add => exact eq_ofInt_of_toInt (BitVec.toInt_add a b)
  | sub => exact eq_ofInt_of_toInt BitVec.toInt_sub
  | slt => rw [eval, BitVec.slt_eq_decide]; exact ofBool_eq_ofInt _
  | sltu => rw [eval, BitVec.ult_eq_decide]; exact ofBool_eq_ofInt _
  | and => exact eq_ofInt_of_toNat_eq (BitVec.toNat_and a b)
  | or => exact eq_ofInt_of_toNat_eq (BitVec.toNat_or a b)
  | xor => exact eq_ofInt_of_toNat_eq (BitVec.toNat_xor a b)
  | sll =>
      rw [eval, shiftAmount_eq]
      refine eq_ofInt_of_toInt ?_
      rw [BitVec.toInt_shiftLeft, Nat.shiftLeft_eq]
      rfl
  | srl =>
      rw [eval, shiftAmount_eq]
      refine eq_ofInt_of_toNat_eq ?_
      rw [BitVec.toNat_ushiftRight, Nat.shiftRight_eq_div_pow]
  | sra =>
      rw [eval, shiftAmount_eq]
      refine eq_ofInt_of_toInt_eq ?_
      rw [BitVec.toInt_sshiftRight, Int.shiftRight_eq_div_pow]
      rfl
  | mul => exact eq_ofInt_of_toInt (BitVec.toInt_mul a b)
  | mulh =>
      refine eq_ofInt_of_toInt_eq ?_
      rw [integer, ← toInt_mulHigh_append a b, toInt_append_div x.bits_pos]
      rfl
  | mulhsu =>
      refine eq_ofInt_of_toInt_eq ?_
      rw [integer, ← toInt_mulHighMixed_append a b, toInt_append_div x.bits_pos]
      rfl
  | mulhu =>
      refine eq_ofInt_of_toNat_eq ?_
      rw [← toNat_mulHighUnsigned_append a b, toNat_append_div]
      rfl
  | div =>
      rw [eval, integer, quotient]
      split
      · cases x <;> rfl
      · exact eq_ofInt_of_toInt (BitVec.toInt_sdiv a b)
  | divu =>
      rw [eval, integer, unsignedQuotient]
      split
      · cases x <;> rfl
      · exact eq_ofInt_of_toNat_eq BitVec.toNat_udiv
  | rem =>
      rw [eval, integer, remainder]
      split
      · exact eq_ofInt_of_toInt_eq rfl
      · exact eq_ofInt_of_toInt_eq (BitVec.toInt_srem a b)
  | remu =>
      rw [eval, integer, unsignedRemainder]
      split
      · exact eq_ofInt_of_toNat_eq rfl
      · exact eq_ofInt_of_toNat_eq BitVec.toNat_umod

end RegisterOp

namespace ImmediateOp

/-- The operation that takes the immediate from a second register. -/
def onRegisters : ImmediateOp → RegisterOp
  | addi => .add
  | slti => .slt
  | sltiu => .sltu
  | xori => .xor
  | ori => .or
  | andi => .and

theorem eval_onRegisters (op : ImmediateOp) (a imm : Word x) :
    op.eval a imm = op.onRegisters.eval a imm := by
  cases op <;> rfl

end ImmediateOp

namespace ShiftOp

/-- The operation that takes the amount from a second register. -/
def onRegisters : ShiftOp → RegisterOp
  | slli => .sll
  | srli => .srl
  | srai => .sra

theorem eval_onRegisters (op : ShiftOp) (a : Word x) (amount : BitVec 6) :
    op.eval a (amount.toNat % x.bits) = op.onRegisters.eval a (amount.setWidth x.bits) := by
  have number : (amount.setWidth x.bits).toNat = amount.toNat := by
    have le : 6 ≤ x.bits := by cases x <;> decide
    exact BitVec.toNat_setWidth_of_le le
  have same : amount.toNat % x.bits = shiftAmount (amount.setWidth x.bits) := by
    rw [shiftAmount, number]
  rw [same]
  cases op <;> rfl

end ShiftOp

/-- The field of an upper immediate holds all but its low twelve bits. -/
theorem upper_append (imm : BitVec 32) : imm.extractLsb' 12 20 ++ 0#12 = imm &&& ~~~0xFFF := by
  have mask : (0xFFF : BitVec 32) = (BitVec.allOnes 12).setWidth 32 := by decide
  apply BitVec.eq_of_getLsbD_eq
  intro index below
  rw [mask, BitVec.getLsbD_append, BitVec.getLsbD_and, BitVec.getLsbD_not, BitVec.getLsbD_setWidth,
    BitVec.getLsbD_allOnes, BitVec.getLsbD_extractLsb']
  by_cases low : index < 12
  · simp [low]
  · have inside : index - 12 < 20 := by omega
    have place : 12 + (index - 12) = index := by omega
    simp [low, inside, place, below]

namespace Hart

/-- Arithmetic on integers is exact up to the width of a register, for operations on two registers
and for those with an immediate, which is extended with its sign.  An upper immediate counts
without its low twelve bits, from zero or from the address of the instruction.  The same results
come out of 64-bit arithmetic. -/
theorem integer_arithmetic (hart : Hart x) (dest left right : Register) :
    let a := hart.registers.read left
    let b := hart.registers.read right
    (∀ op : RegisterOp,
      let word := BitVec.ofInt x.bits (op.integer a b)
      hart.Computes (.register op dest left right) dest word ∧
        op.eval a b = word ∧ Checked.widenRegister op a b = .ok word) ∧
    (∀ (op : ImmediateOp) (imm : BitVec 12),
      let word := BitVec.ofInt x.bits (op.onRegisters.integer a (imm.signExtend x.bits))
      hart.Computes (.immediate op dest left imm) dest word ∧
        Checked.widenImmediate op a (imm.signExtend 32) = word) ∧
    (∀ (op : ShiftOp) (amount : BitVec 6),
      let word := BitVec.ofInt x.bits (op.onRegisters.integer a (amount.setWidth x.bits))
      hart.Computes (.shift op dest left amount) dest word ∧
        Checked.shiftImmediate op a amount = .ok word) ∧
    ∀ imm : BitVec 32,
      let field := imm.extractLsb' 12 20
      let offset : Word x := (imm &&& ~~~0xFFF).signExtend x.bits
      hart.Computes (.lui dest field) dest offset ∧
        Word.ofSigned (imm &&& ~~~0xFFF) = offset ∧
        hart.Computes (.auipc dest field) dest (hart.pc + offset) ∧
        Checked.widenUpper hart.pc imm = hart.pc + offset := by
  intro a b
  refine ⟨fun op => ?_, fun op imm => ?_, fun op amount => ?_, fun imm => ?_⟩
  · rw [← RegisterOp.eval_eq_ofInt]
    exact ⟨hart.computes_register dest left right op, rfl, Checked.widenRegister_eq op a b⟩
  · rw [← RegisterOp.eval_eq_ofInt, ← ImmediateOp.eval_onRegisters]
    refine ⟨hart.computes_immediate dest left op imm, ?_⟩
    rw [Checked.widenImmediate_eq, Checked.signExtend_decoded]
  · rw [← RegisterOp.eval_eq_ofInt, ← ShiftOp.eval_onRegisters]
    exact ⟨hart.computes_shift dest left op amount, Checked.shiftImmediate_eq op a amount⟩
  · intro field offset
    have extended : (field ++ 0#12).signExtend x.bits = offset :=
      congrArg (·.signExtend x.bits) (upper_append imm)
    refine ⟨?_, Word.ofSigned_eq _, ?_, Checked.widenUpper_eq hart.pc imm⟩
    · rw [← extended]
      exact hart.computes_lui dest field
    · rw [← extended]
      exact hart.computes_auipc dest field

/-- The least signed number is less than the immediate minus one, and the register that held it
holds the answer. -/
theorem integer_arithmetic_least :
    let hart : Hart .rv32 := (initial { memorySize := 4 }).setRegister 1 0x80000000
    ∃ registers : Registers .rv32,
      registers.get? 1 = some 1 ∧ registers.get? 2 = some 0 ∧
      hart.perform (.long 0xFFF0A093) =
        (.retired, { (hart.advanced (.long 0xFFF0A093)).retire with registers }) := by
  intro hart
  have decoded : hart.decode? (.long 0xFFF0A093) = some (.immediate .slti 1 1 0xFFF) := by decide
  obtain ⟨registers, held, completes⟩ :=
    ((integer_arithmetic hart 1 1 0).2.1 .slti 0xFFF).1.performed _ decoded
  exact ⟨registers, (held 1).trans (by decide), (held 2).trans (by decide), completes⟩

end Hart

end RiscV
