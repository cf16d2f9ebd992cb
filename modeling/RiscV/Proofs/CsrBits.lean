import Mathlib.Algebra.Ring.Nat
import RiscV.Csr.Interrupts
import RiscV.Csr.Status
import RiscV.Trap.Vector

/-!
# Control registers in bits

What masks keep and replace, and what the single bits of the machine status register are.  It has
five flags, a field of two bits for a level, and above them the widths of the lower modes.  A
register with the flags, the level and the fixed bits of a status is the register of that status.
-/

namespace RiscV

theorem and_not_or_and {width : Nat} (value mask : BitVec width) :
    value &&& ~~~mask ||| value &&& mask = value := by
  rw [← BitVec.and_or_distrib_left, BitVec.not_or_self, BitVec.and_allOnes]

theorem and_eq_self {width : Nat} {value mask : BitVec width}
    (inside : value &&& ~~~mask = 0) : value &&& mask = value := by
  have whole := and_not_or_and value mask
  rw [inside] at whole
  exact BitVec.zero_or.symm.trans whole

/-- A value with its part inside of a mask replaced. -/
def masked {width : Nat} (old mask value : BitVec width) : BitVec width :=
  (old &&& ~~~mask) ||| (value &&& mask)

theorem getLsbD_masked {width : Nat} (old mask value : BitVec width) (index : Nat) :
    (masked old mask value).getLsbD index =
      if mask.getLsbD index then value.getLsbD index else old.getLsbD index := by
  by_cases inside : index < width
  · simp only [masked, BitVec.getLsbD_or, BitVec.getLsbD_and, BitVec.getLsbD_not, inside,
      decide_true, Bool.true_and]
    cases mask.getLsbD index <;> simp
  · simp [BitVec.getLsbD_of_ge _ _ (Nat.le_of_not_lt inside)]

/-- Nothing outside of a mask changes. -/
theorem masked_and_not {width : Nat} {mask outer : BitVec width} (inside : mask &&& ~~~outer = 0)
    (old value : BitVec width) : masked old mask value &&& ~~~outer = old &&& ~~~outer := by
  apply BitVec.eq_of_getLsbD_eq
  intro index _
  rw [BitVec.getLsbD_and, BitVec.getLsbD_and, getLsbD_masked]
  split
  · rename_i changes
    have apart := congrArg (·.getLsbD index) inside
    rw [BitVec.getLsbD_and, changes, Bool.true_and] at apart
    rw [apart]
    simp
  · rfl

theorem extractLsb'_masked {width start length : Nat} {mask : BitVec width}
    (changes : ∀ place < length, mask.getLsbD (start + place) = true) (old value : BitVec width) :
    (masked old mask value).extractLsb' start length = value.extractLsb' start length := by
  apply BitVec.eq_of_getLsbD_eq
  intro place below
  rw [BitVec.getLsbD_extractLsb', BitVec.getLsbD_extractLsb', getLsbD_masked, changes place below,
    if_pos rfl]

theorem extractLsb'_masked_of_outside {width start length : Nat} {mask : BitVec width}
    (apart : ∀ place < length, mask.getLsbD (start + place) = false) (old value : BitVec width) :
    (masked old mask value).extractLsb' start length = old.extractLsb' start length := by
  apply BitVec.eq_of_getLsbD_eq
  intro place below
  rw [BitVec.getLsbD_extractLsb', BitVec.getLsbD_extractLsb', getLsbD_masked, apart place below,
    if_neg Bool.false_ne_true]

theorem InterruptSet.getLsbD_merge (set mask value : InterruptSet) (index : Nat) :
    (merge set mask value).getLsbD index =
      if mask.getLsbD index then value.getLsbD index else set.getLsbD index :=
  getLsbD_masked ..

theorem Privilege.level_ne_two (privilege : Privilege) : privilege.level ≠ 2 := by
  cases privilege <;> decide

theorem Privilege.exists_level {field : Level} (known : field ≠ 2) :
    ∃ privilege : Privilege, privilege.level = field := by
  have levels : ∀ field : Level, field ≠ 2 → field = 0 ∨ field = 1 ∨ field = 3 := by decide
  rcases levels field known with rfl | rfl | rfl
  · exact ⟨.user, rfl⟩
  · exact ⟨.supervisor, rfl⟩
  · exact ⟨.machine, rfl⟩

namespace Status

variable {x : Xlen} {status : Status} {register value : BitVec 64}

/-- The bits of the machine status register that can change. -/
def writable : BitVec 64 := 0x19AA

theorem getLsbD_bit {index place : Nat} (value : Bool) (inside : place < 64) :
    (bit index value).getLsbD place = (decide (place = index) && value) := by
  cases value <;> simp [bit, inside]

theorem getLsbD_widths {index : Nat} (low : index < 32) : (widths x).getLsbD index = false := by
  revert index
  cases x <;> decide

theorem level_toBits (status : Status) :
    (status.toBits x).extractLsb' 11 2 = status.mpp.level := by
  have flag : ∀ index value, (BitVec.twoPow 64 index).extractLsb' 11 2 = 0#2 →
      (bit index value).extractLsb' 11 2 = 0#2 := by
    intro index value apart
    cases value with
    | false => exact BitVec.extractLsb'_zero
    | true => exact apart
  have level : (status.mpp.level.setWidth 64 <<< 11).extractLsb' 11 2 = status.mpp.level := by
    cases status.mpp <;> decide
  have width : (widths x).extractLsb' 11 2 = 0#2 := by
    cases x <;> decide
  simp (disch := decide) only [toBits, BitVec.extractLsb'_or, flag, level, width, BitVec.zero_or,
    BitVec.or_zero]

theorem fixed_toBits (status : Status) : status.toBits x &&& ~~~writable = widths x := by
  have flag : ∀ index value, BitVec.twoPow 64 index &&& ~~~writable = 0#64 →
      bit index value &&& ~~~writable = 0#64 := by
    intro index value apart
    cases value with
    | false => exact BitVec.zero_and
    | true => exact apart
  have level : status.mpp.level.setWidth 64 <<< 11 &&& ~~~writable = 0#64 := by
    cases status.mpp <;> decide
  have width : widths x &&& ~~~writable = widths x := by
    cases x <;> decide
  simp (disch := decide) only [toBits, BitVec.and_or_distrib_right, flag, level, width,
    BitVec.zero_or]

/-- The flags are the low bits of the machine status register. -/
theorem getLsbD_toBits {index : Nat} (low : index < 11) :
    (status.toBits x).getLsbD index =
      ((decide (index = 1) && status.sie) || (decide (index = 3) && status.mie) ||
        (decide (index = 5) && status.spie) || (decide (index = 7) && status.mpie) ||
        (decide (index = 8) && status.fromSupervisor)) := by
  have inside : index < 64 := by omega
  have level : (status.mpp.level.setWidth 64 <<< 11).getLsbD index = false := by
    simp [low]
  simp only [toBits, BitVec.getLsbD_or, getLsbD_bit _ inside, level,
    getLsbD_widths (Nat.lt_trans low (by decide)), Bool.or_false]

/-- A register has the flags of a status, and its fixed bits are as after a reset. -/
structure HasFlags (status : Status) (register : BitVec 64) (x : Xlen) : Prop where
  sie : register.getLsbD 1 = status.sie
  mie : register.getLsbD 3 = status.mie
  spie : register.getLsbD 5 = status.spie
  mpie : register.getLsbD 7 = status.mpie
  fromSupervisor : register.getLsbD 8 = status.fromSupervisor
  fixed : register &&& ~~~writable = widths x

/-- A register has all fields of a status, and its fixed bits are as after a reset. -/
structure IsIn (status : Status) (register : BitVec 64) (x : Xlen) : Prop
    extends status.HasFlags register x where
  mpp : register.extractLsb' 11 2 = status.mpp.level

theorem isIn_toBits (status : Status) : status.IsIn (status.toBits x) x := by
  refine ⟨⟨?_, ?_, ?_, ?_, ?_, fixed_toBits status⟩, level_toBits status⟩ <;>
    simp (disch := decide) only [getLsbD_toBits] <;> simp

/-- A status is in one register only. -/
theorem IsIn.unique {other : BitVec 64} (held : status.IsIn register x)
    (held' : status.IsIn other x) : register = other := by
  have places : ∀ index < 64, writable.getLsbD index = true →
      index = 1 ∨ index = 3 ∨ index = 5 ∨ index = 7 ∨ index = 8 ∨
        ∃ place < 2, index = 11 + place := by decide
  have fixed := held.fixed.trans held'.fixed.symm
  have mpp := held.mpp.trans held'.mpp.symm
  apply BitVec.eq_of_getLsbD_eq
  intro index inside
  cases changes : writable.getLsbD index with
  | true =>
      rcases places index inside changes with
        rfl | rfl | rfl | rfl | rfl | ⟨place, below, rfl⟩
      · rw [held.sie, held'.sie]
      · rw [held.mie, held'.mie]
      · rw [held.spie, held'.spie]
      · rw [held.mpie, held'.mpie]
      · rw [held.fromSupervisor, held'.fromSupervisor]
      · have same := congrArg (·.getLsbD place) mpp
        simpa only [BitVec.getLsbD_extractLsb', below, decide_true, Bool.true_and] using same
  | false =>
      have same := congrArg (·.getLsbD index) fixed
      simpa only [BitVec.getLsbD_and, BitVec.getLsbD_not, inside, changes, decide_true,
        Bool.not_false, Bool.and_true] using same

theorem IsIn.eq_toBits (held : status.IsIn register x) : register = status.toBits x :=
  held.unique status.isIn_toBits

/-- A register without the reserved level, and with the fixed bits of a reset, has fields. -/
theorem isIn_write (old : Status) (known : register.extractLsb' 11 2 ≠ 2)
    (fixed : register &&& ~~~writable = widths x) : (old.write register).IsIn register x := by
  obtain ⟨mode, level⟩ := Privilege.exists_level known
  have mpp : (old.write register).mpp = mode := by
    rw [write, ← level, Privilege.ofLevel?_level]
    rfl
  exact ⟨⟨rfl, rfl, rfl, rfl, rfl, fixed⟩, by rw [mpp, level]⟩

theorem write_of_toBits (old status : Status)
    (same : ∀ index < 32, value.getLsbD index = (status.toBits x).getLsbD index) :
    old.write value = status := by
  have level : value.extractLsb' 11 2 = status.mpp.level := by
    rw [← level_toBits (x := x) status]
    apply BitVec.eq_of_getLsbD_eq
    intro index low
    rw [BitVec.getLsbD_extractLsb', BitVec.getLsbD_extractLsb', same (11 + index) (by omega)]
  have flag : ∀ index < 11, value.getLsbD index = (status.toBits x).getLsbD index :=
    fun index low => same index (Nat.lt_trans low (by decide))
  simp (disch := decide) only [write, level, Privilege.ofLevel?_level, Option.getD_some, flag,
    getLsbD_toBits]
  simp

theorem writeSupervisor_of_toBits (status : Status)
    (same : ∀ index < 32, value.getLsbD index = (status.toSupervisorBits x).getLsbD index) :
    status.writeSupervisor value = status := by
  have flag : ∀ index < 11, supervisorMask.getLsbD index = true →
      value.getLsbD index = (status.toBits x).getLsbD index := by
    intro index low shown
    rw [same index (Nat.lt_trans low (by decide)), toSupervisorBits, BitVec.getLsbD_and, shown,
      Bool.and_true]
  simp (disch := decide) only [writeSupervisor, flag, getLsbD_toBits]
  simp

end Status

theorem setWidth_widen {width total : Nat} (le : width ≤ total) (value : BitVec width) :
    (value.setWidth total).setWidth width = value := by
  rw [BitVec.setWidth_setWidth_of_le _ le, BitVec.setWidth_eq]

theorem setWidth_and_not {width total : Nat} {value mask : BitVec width}
    (inside : value &&& ~~~mask = 0) :
    value.setWidth total &&& ~~~mask.setWidth total = 0 := by
  rw [← and_eq_self inside, BitVec.setWidth_and, BitVec.and_assoc, BitVec.and_not_self]
  exact BitVec.and_zero

/-- What is inside of a narrow mask has nothing above it. -/
theorem setWidth_cut {width total : Nat} {value : BitVec total} (mask : BitVec width)
    (inside : value &&& ~~~mask.setWidth total = 0) :
    (value.setWidth width).setWidth total = value := by
  apply BitVec.eq_of_getLsbD_eq
  intro index below
  rw [BitVec.getLsbD_setWidth, BitVec.getLsbD_setWidth]
  by_cases low : index < width
  · simp [below, low]
  · rw [← and_eq_self inside, BitVec.getLsbD_and, BitVec.getLsbD_setWidth,
      BitVec.getLsbD_of_ge mask _ (Nat.le_of_not_lt low)]
    simp

theorem cut_and_not {width total : Nat} {value : BitVec total} (mask : BitVec width)
    (le : width ≤ total) (inside : value &&& ~~~mask.setWidth total = 0) :
    value.setWidth width &&& ~~~mask = 0 := by
  have cut : value.setWidth width &&& ~~~(mask.setWidth total).setWidth width = 0 :=
    setWidth_and_not inside
  rwa [setWidth_widen le] at cut

namespace Word

variable {x : Xlen} {index : Nat}

theorem lt_bits (low : index < 32) : index < x.bits := by
  cases x with
  | rv32 => exact low
  | rv64 => exact Nat.lt_trans low (by decide)

theorem getLsbD_toDouble (word : Word x) (low : index < 32) :
    word.toDouble.getLsbD index = word.getLsbD index := by
  have within : index < 64 := Nat.lt_trans low (by decide)
  simp [toDouble, within]

theorem getLsbD_ofDouble (value : BitVec 64) (low : index < 32) :
    (ofDouble value : Word x).getLsbD index = value.getLsbD index := by
  simp [ofDouble, lt_bits (x := x) low]

theorem getLsbD_toDouble_ofDouble (value : BitVec 64) (low : index < 32) :
    (ofDouble value : Word x).toDouble.getLsbD index = value.getLsbD index :=
  (getLsbD_toDouble _ low).trans (getLsbD_ofDouble value low)

theorem toDouble_ofDouble {value : BitVec 64} (narrow : x = .rv32 → value.toNat < 2 ^ 32) :
    (ofDouble value : Word x).toDouble = value := by
  cases x with
  | rv32 =>
      apply BitVec.eq_of_toNat_eq
      rw [toDouble, BitVec.toNat_setWidth_of_le Xlen.rv32.bits_le]
      exact Nat.mod_eq_of_lt (narrow rfl)
  | rv64 => exact (BitVec.setWidth_eq _).trans (BitVec.setWidth_eq _)

theorem toNat_toDouble_and_three (value : Word x) :
    (value.toDouble &&& 0b11).toNat = value.toNat % 4 := by
  rw [BitVec.toNat_and, toDouble, BitVec.toNat_setWidth_of_le x.bits_le]
  exact Nat.and_two_pow_sub_one_eq_mod value.toNat 2

end Word

/-- The second bit of a number tells whether its mode is reserved. -/
theorem TrapVector.getLsbD_one_iff {width : Nat} (value : BitVec width) :
    value.getLsbD 1 = false ↔ value.toNat % 4 < 2 := by
  rw [BitVec.getLsbD, Nat.testBit_eq_decide_div_mod_eq]
  simp only [decide_eq_false_iff_not]
  omega

end RiscV
