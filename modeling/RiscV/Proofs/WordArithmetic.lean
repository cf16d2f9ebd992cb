import RiscV.Proofs.Checked.Widening
import RiscV.Proofs.Computation

/-!
# Arithmetic on low words

An operation on the low words of wide registers computes what the operation on whole registers
computes where registers are narrow, and extends it with its sign.  The upper halves of the
operands never matter.  The two ways to compute the same, native 32-bit arithmetic on low words
and 64-bit arithmetic cut to the narrow width, agree on all operands.
-/

namespace RiscV

namespace Word

/-- The low half of a wide word. -/
def lowHalf (word : Word .rv64) : Word .rv32 := word.setWidth 32

/-- A narrow word with copies of its sign above it. -/
def extended (word : Word .rv32) : Word .rv64 := word.signExtend 64

end Word

namespace WordOp

/-- The operation on whole registers. -/
def whole : WordOp → RegisterOp
  | addw => .add
  | subw => .sub
  | sllw => .sll
  | srlw => .srl
  | sraw => .sra
  | mulw => .mul
  | divw => .div
  | divuw => .divu
  | remw => .rem
  | remuw => .remu

theorem eval_eq_extended (op : WordOp) (a b : Word .rv64) :
    op.eval a b = (op.whole.eval a.lowHalf b.lowHalf).extended := by
  cases op <;> rfl

end WordOp

/-- The addition of an immediate to a low word, like the one to a narrow register. -/
theorem ImmediateOp.addi_extended (a : Word .rv64) (imm : BitVec 32) :
    (a.setWidth 32 + imm).signExtend 64 = (addi.eval a.lowHalf imm).extended := rfl

/-- The shift of a low word, like the one of a narrow register. -/
theorem ShiftOp.eval_extended (op : ShiftOp) (a : Word .rv64) (amount : BitVec 5) :
    (op.eval (a.setWidth 32) amount.toNat).signExtend 64 =
      Word.extended (op.eval a.lowHalf ((amount.setWidth 6).toNat % Xlen.rv32.bits)) := by
  have number : (amount.setWidth 6).toNat % Xlen.rv32.bits = amount.toNat := by
    rw [BitVec.toNat_setWidth_of_le (by decide)]
    exact Nat.mod_eq_of_lt amount.isLt
  rw [number]
  rfl

namespace Checked

theorem evalWord_eq_widenRegister (op : WordOp) (a b : Word .rv64) :
    evalWord op a b = (widenRegister op.whole a.lowHalf b.lowHalf).map Word.extended := by
  rw [evalWord_eq, widenRegister_eq, WordOp.eval_eq_extended]
  rfl

theorem widenLow_eq_widenImmediate (a : Word .rv64) (imm : BitVec 32) :
    widenLow a imm = (widenImmediate .addi a.lowHalf imm).extended := by
  have narrow : imm.signExtend Xlen.rv32.bits = imm := BitVec.signExtend_eq imm
  rw [widenLow_eq, widenImmediate_eq, narrow]
  exact ImmediateOp.addi_extended a imm

theorem shiftImmediateLow_eq_shiftImmediate (op : ShiftOp) (a : Word .rv64) (amount : BitVec 5) :
    shiftImmediateLow op a amount =
      (shiftImmediate op a.lowHalf (amount.setWidth 6)).map Word.extended := by
  rw [shiftImmediateLow_eq, shiftImmediate_eq]
  exact congrArg Except.ok (op.eval_extended a amount)

end Checked

namespace Hart

/-- An instruction on narrow registers and one on wide registers with the same low words compute
the same word, which is extended in the wide register. -/
def ComputesExtended (narrow : Hart .rv32) (sources : List Register) (dest : Register)
    (whole low : Instruction) : Prop :=
  ∃ word : Word .rv32, narrow.Computes whole dest word ∧
    ∀ wide : Hart .rv64,
      (∀ source ∈ sources,
        (wide.registers.read source).lowHalf = narrow.registers.read source) →
      wide.Computes low dest word.extended

section

variable (narrow : Hart .rv32) (dest left right : Register)

theorem computesExtended_register (op : WordOp) :
    narrow.ComputesExtended [left, right] dest (.register op.whole dest left right)
      (.registerWord op dest left right) := by
  refine ⟨_, narrow.computes_register dest left right op.whole, fun wide lows => ?_⟩
  rw [← lows left (by simp), ← lows right (by simp), ← WordOp.eval_eq_extended]
  exact wide.computes_registerWord dest left right op

theorem computesExtended_immediate (imm : BitVec 12) :
    narrow.ComputesExtended [left] dest (.immediate .addi dest left imm)
      (.immediateWord dest left imm) := by
  refine ⟨_, narrow.computes_immediate dest left .addi imm, fun wide lows => ?_⟩
  rw [← lows left (by simp)]
  exact wide.computes_immediateWord dest left imm

theorem computesExtended_shift (op : ShiftOp) (amount : BitVec 5) :
    narrow.ComputesExtended [left] dest (.shift op dest left (amount.setWidth 6))
      (.shiftWord op dest left amount) := by
  refine ⟨_, narrow.computes_shift dest left op (amount.setWidth 6), fun wide lows => ?_⟩
  rw [← lows left (by simp), ← ShiftOp.eval_extended]
  exact wide.computes_shiftWord dest left op amount

end

/-- Operations on low words, on two registers or with an immediate, extend what the operations on
whole narrow registers compute, whatever the upper halves of wide registers hold.  Native 32-bit
arithmetic gives the same as 64-bit arithmetic cut to the narrow width. -/
theorem word_arithmetic :
    (∀ (narrow : Hart .rv32) (dest left right : Register),
      (∀ op : WordOp,
        narrow.ComputesExtended [left, right] dest (.register op.whole dest left right)
          (.registerWord op dest left right)) ∧
      (∀ imm : BitVec 12,
        narrow.ComputesExtended [left] dest (.immediate .addi dest left imm)
          (.immediateWord dest left imm)) ∧
      ∀ (op : ShiftOp) (amount : BitVec 5),
        narrow.ComputesExtended [left] dest (.shift op dest left (amount.setWidth 6))
          (.shiftWord op dest left amount)) ∧
    ∀ a b : Word .rv64,
      (∀ op : WordOp,
        Checked.evalWord op a b =
          (Checked.widenRegister op.whole a.lowHalf b.lowHalf).map Word.extended) ∧
      (∀ imm : BitVec 12,
        Checked.widenLow a (imm.signExtend 32) =
          (Checked.widenImmediate .addi a.lowHalf (imm.signExtend 32)).extended) ∧
      ∀ (op : ShiftOp) (amount : BitVec 5),
        Checked.shiftImmediateLow op a amount =
          (Checked.shiftImmediate op a.lowHalf (amount.setWidth 6)).map Word.extended := by
  refine ⟨fun narrow dest left right => ?_, fun a b => ?_⟩
  · exact ⟨narrow.computesExtended_register dest left right,
      narrow.computesExtended_immediate dest left, narrow.computesExtended_shift dest left⟩
  · exact ⟨fun op => Checked.evalWord_eq_widenRegister op a b,
      fun imm => Checked.widenLow_eq_widenImmediate a _,
      fun op amount => Checked.shiftImmediateLow_eq_shiftImmediate op a amount⟩

/-- A word with its sign bit set is shifted by one place, since the amount 33 counts modulo 32.
The upper halves of the wide registers are filled with other bits. -/
theorem word_arithmetic_shift :
    let narrow : Hart .rv32 :=
      ((initial { memorySize := 4 }).setRegister 1 0x80000000).setRegister 2 33
    let wide : Hart .rv64 :=
      ((initial { memorySize := 4 }).setRegister 1 0x1234567880000000).setRegister 2
        0xFFFFFFFF00000021
    ∃ word : Word .rv32,
      (narrow.perform (.long 0x4020D0B3)).2.registers.get? 1 = some word ∧
      (wide.perform (.long 0x4020D0BB)).2.registers.get? 1 = some word.extended ∧
      word = 0xC0000000 := by
  intro narrow wide
  have lows : ∀ source ∈ [1, 2],
      (wide.registers.read source).lowHalf = narrow.registers.read source := by decide
  obtain ⟨word, whole, low⟩ := (word_arithmetic.1 narrow 1 1 2).1 .sraw
  obtain ⟨narrower, held, completes⟩ := whole.performed (.long 0x4020D0B3) (by decide)
  obtain ⟨wider, held', completes'⟩ :=
    (low wide lows).performed (.long 0x4020D0BB) (by decide)
  have first : (narrow.perform (.long 0x4020D0B3)).2.registers.get? 1 = some word := by
    rw [completes]
    exact (held 1).trans (if_pos (by decide))
  refine ⟨word, first, ?_, ?_⟩
  · rw [completes']
    exact (held' 1).trans (if_pos (by decide))
  · exact Option.some.inj (first.symm.trans (by decide))

end Hart

end RiscV
