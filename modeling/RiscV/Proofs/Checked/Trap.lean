import Mathlib.Tactic.IntervalCases
import RiscV.Hart.Step
import RiscV.Proofs.Checked.Arithmetic
import RiscV.Proofs.Checked.Csr

/-!
# Checked traps

The choice of an interrupt, and the entry into the handler of machine mode.  The places of all
interrupts lie inside of the interrupt registers, and four times the code of a cause fits 64 bits.
-/

namespace RiscV

namespace Checked

variable {x : Xlen}

/-! ## Interrupts -/

/-- Whether an interrupt is in a set, which is kept in 16 bits. -/
def has (set : InterruptSet) (interrupt : Interrupt) : Checked Bool :=
  bit (set.setWidth 16) interrupt.code

/-- The most urgent interrupt that is pending and enabled. -/
def highest? (interrupts : Interrupts) : Checked (Option Interrupt) :=
  Interrupt.byPriority.findM? fun interrupt => do
    if ← has interrupts.pending interrupt then has interrupts.enabled interrupt else return false

/-- The interrupt that is due. -/
def interrupt? (hart : Hart x) : Checked (Option Interrupt) := do
  let enabled ←
    if hart.mode < .machine then pure true else bit (hart.csrs.status.toBits x) 3
  if enabled then highest? hart.csrs.interrupts else return none

theorem findM?_ok {α : Type} (p : α → Bool) (list : List α) :
    list.findM? (fun item => (.ok (p item) : Checked Bool)) = .ok (list.find? p) := by
  induction list with
  | nil => rfl
  | cons item rest ih =>
      rw [List.findM?, ok_bind, List.find?]
      cases p item with
      | true => rfl
      | false => exact ih

theorem has_eq (set : InterruptSet) (interrupt : Interrupt) :
    has set interrupt = .ok (InterruptSet.has set interrupt) := by
  have inside := interrupt.code_lt
  rw [has, bit_eq (by omega), BitVec.getLsbD_setWidth, InterruptSet.has]
  have within : interrupt.code < 16 := by omega
  simp [within]

theorem highest?_eq (interrupts : Interrupts) : highest? interrupts = .ok interrupts.highest? := by
  have both (pending enabled : Bool) :
      (if pending then .ok enabled else pure false : Checked Bool) = .ok (pending && enabled) := by
    cases pending <;> rfl
  simp only [highest?, Interrupts.highest?, has_eq, ok_bind, both, findM?_ok]

theorem interrupt?_eq (hart : Hart x) : interrupt? hart = .ok hart.interrupt? := by
  have enabled : bit (hart.csrs.status.toBits x) 3 = .ok hart.csrs.status.mie := by
    rw [bit_eq (by decide), hart.csrs.status.isIn_toBits.mie]
  simp only [interrupt?, Hart.interrupt?, enabled]
  by_cases low : hart.mode < .machine
  · simp [low, highest?_eq]
  · simp only [low, if_false, ok_bind, false_or, highest?_eq]
    split <;> rfl

/-! ## Entry -/

/-- The contents of a cause register. -/
def causeWord (cause : Cause) : Checked (Word x) := do
  let code := Word.ofDouble (BitVec.ofNat 64 cause.code)
  if cause.isInterrupt then return code ||| (← signBit) else return code

/-- The address of the handler for a trap with the given code. -/
def handler (vector : TrapVector x.bits) (isInterrupt : Bool) (code : BitVec 64) :
    Checked (Word x) := do
  let register : BitVec 64 := Word.toDouble vector.bits
  let base ← shiftLeft ((← bitRange register 2 62).setWidth 64) 2
  if (← bit register 0) && isInterrupt then return Word.ofDouble (base + (← mul 4 code))
  else return Word.ofDouble base

/-- Hands control to the handler of traps into machine mode. -/
def enterTrap (hart : Hart x) (cause : Cause) (epc value : Word x) : Checked (Hart x) := do
  let word ← causeWord cause
  let csrs ← onWords hart.csrs (·.operateAll
    [.setEpc .machine epc, .setCause .machine word, .setTrapValue .machine value,
      .status (.enter hart.mode)])
  let pc ← handler csrs.machine.vector cause.isInterrupt (BitVec.ofNat 64 cause.code)
  return { hart with csrs, pc, mode := .machine }

/-- Turns a fault into a trap, which takes a cycle. -/
def takeException (hart : Hart x) (epc : Word x) (fault : Fault x) :
    Checked (Outcome x × Hart x) := do
  let next ← enterTrap hart (.exception fault.exception) epc fault.value
  return (.trap (.exception fault.exception) epc fault.value, next.tick)

theorem cause_code_lt (cause : Cause) : cause.code < 16 := by
  cases cause with
  | exception exception => exact exception.code_lt
  | interrupt interrupt => exact Nat.lt_trans interrupt.code_lt (by decide)

theorem causeWord_eq (cause : Cause) : causeWord cause = .ok (cause.toWord : Word x) := by
  have code : (Word.ofDouble (BitVec.ofNat 64 cause.code) : Word x) =
      BitVec.ofNat x.bits cause.code := BitVec.setWidth_ofNat_of_le x.bits_le _
  rw [causeWord, signBit_eq, Cause.toWord, code]
  cases cause.isInterrupt <;> simp

theorem ofDouble_base (vector : TrapVector x.bits) :
    (Word.ofDouble (((Word.toDouble vector.bits).extractLsb' 2 62).setWidth 64 <<< 2) : Word x) =
      vector.base := by
  apply BitVec.eq_of_getLsbD_eq
  intro index below
  have within : index < 64 := Nat.lt_of_lt_of_le below x.bits_le
  have mask : (3 : Word x).getLsbD index = decide (index < 2) := by
    by_cases low : index < 2
    · interval_cases index <;> cases x <;> rfl
    · have small : 3 < 2 ^ index :=
        Nat.lt_of_lt_of_le (by decide : 3 < 2 ^ 2)
          (Nat.pow_le_pow_right (by decide) (Nat.le_of_not_lt low))
      change (BitVec.ofNat x.bits 3).getLsbD index = _
      rw [BitVec.getLsbD_ofNat, Nat.testBit_lt_two_pow small]
      simp [low]
  rw [Word.ofDouble, BitVec.getLsbD_setWidth, BitVec.getLsbD_shiftLeft, BitVec.getLsbD_setWidth,
    BitVec.getLsbD_extractLsb', Word.toDouble, BitVec.getLsbD_setWidth, TrapVector.base,
    BitVec.getLsbD_and, BitVec.getLsbD_not, mask]
  by_cases low : index < 2
  · simp [low]
  · have place : 2 + (index - 2) = index := by omega
    have inside : index - 2 < 62 := by omega
    simp [below, within, low, place, inside, Nat.lt_trans inside (by decide : 62 < 64)]

theorem handler_eq (vector : TrapVector x.bits) (isInterrupt : Bool) (cause : Cause) :
    handler vector isInterrupt (BitVec.ofNat 64 cause.code) =
      .ok (vector.handler isInterrupt cause.code) := by
  have bound := cause_code_lt cause
  have number : (BitVec.ofNat 64 cause.code).toNat = cause.code := by
    rw [BitVec.toNat_ofNat]
    omega
  have room : (4 : BitVec 64).toNat * (BitVec.ofNat 64 cause.code).toNat < 2 ^ 64 := by
    rw [number]
    change 4 * cause.code < 2 ^ 64
    omega
  have vectored : (Word.toDouble vector.bits).getLsbD 0 = vector.isVectored := by
    simp [Word.toDouble, TrapVector.isVectored]
  have offset : (4 : BitVec 64) * BitVec.ofNat 64 cause.code = BitVec.ofNat 64 (4 * cause.code) :=
    BitVec.ofNat_mul_ofNat 4 cause.code
  rw [handler, bitRange_eq (by decide), ok_bind, shiftLeft_eq (by decide), ok_bind,
    bit_eq (by decide), ok_bind, vectored, TrapVector.handler, mul_eq room, ok_bind, offset,
    ofDouble_base]
  split
  · rw [pure_eq_ok, ← ofDouble_base, Word.ofDouble, BitVec.setWidth_add _ _ x.bits_le,
      BitVec.setWidth_ofNat_of_le x.bits_le]
    rfl
  · rfl

theorem enterTrap_eq (hart : Hart x) (cause : Cause) (epc value : Word x) :
    enterTrap hart cause epc value = .ok (hart.enterTrap cause epc value) := by
  simp only [enterTrap, causeWord_eq, onWords_operateAll, handler_eq, ok_bind]
  rfl

theorem takeException_eq (hart : Hart x) (epc : Word x) (fault : Fault x) :
    takeException hart epc fault = .ok (hart.takeException epc fault) := by
  rw [takeException, enterTrap_eq]
  rfl

end Checked

end RiscV
