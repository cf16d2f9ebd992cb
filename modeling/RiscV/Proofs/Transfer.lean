import Mathlib.Algebra.Ring.Int.Defs
import Mathlib.Algebra.Ring.Nat
import RiscV.Proofs.Alignment
import RiscV.Proofs.Computation
import RiscV.Proofs.Decoding

/-!
# Jumps and branches

A jump goes on at its target and leaves the address of the instruction behind it in a register.  A
branch that is taken goes on at its target, and one that is not goes on behind itself.  Addresses
wrap around.  Where there cannot be an instruction at the target, the instruction traps, and its
register keeps what it held.
-/

namespace RiscV

variable {x : Xlen}

namespace Word

/-- An address and a distance are added up to the address at that distance, which wraps around. -/
theorem toNat_add_signExtend {width : Nat} (address : Word x) (offset : BitVec width) :
    ((address + offset.signExtend x.bits).toNat : Int) =
      (address.toNat + offset.toInt) % 2 ^ x.bits := by
  have sum : address + offset.signExtend x.bits =
      BitVec.ofInt x.bits (address.toNat + offset.toInt) := by
    rw [BitVec.ofInt_add, BitVec.ofInt_natCast, BitVec.ofNat_toNat, BitVec.setWidth_eq]
    rfl
  rw [sum, BitVec.toNat_ofInt, Int.toNat_of_nonneg]
  · norm_cast
  · exact Int.emod_nonneg _ (by exact_mod_cast Nat.ne_of_gt (Nat.two_pow_pos x.bits))

/-- Without its last bit an address is the nearest even one below. -/
theorem toNat_and_not_one (word : Word x) :
    (word &&& ~~~(1 : Word x)).toNat = 2 * (word.toNat / 2) := by
  have shifted : word &&& ~~~(1 : Word x) = word >>> 1 <<< 1 := by
    apply BitVec.eq_of_getLsbD_eq
    intro index inside
    cases index with
    | zero => simp
    | succ index => simp [inside, Nat.add_comm 1]
  have bound : 2 * (word.toNat / 2) < 2 ^ x.bits :=
    Nat.lt_of_le_of_lt (Nat.mul_div_le _ _) word.isLt
  rw [shifted, BitVec.toNat_shiftLeft, BitVec.toNat_ushiftRight, Nat.shiftRight_eq_div_pow,
    Nat.shiftLeft_eq, Nat.pow_one, Nat.mul_comm, Nat.mod_eq_of_lt bound]

theorem ofBool_eq_one_iff (condition : Bool) :
    (ofBool condition : Word x) = 1 ↔ condition = true := by
  cases x <;> cases condition <;> decide

end Word

namespace Condition

/-- The values compare as required, taken as numbers with or without a sign. -/
def Compares (condition : Condition) (a b : Word x) : Prop :=
  match condition with
  | beq => a.toNat = b.toNat
  | bne => a.toNat ≠ b.toNat
  | blt => a.toInt < b.toInt
  | bltu => a.toNat < b.toNat
  | bge => b.toInt ≤ a.toInt
  | bgeu => b.toNat ≤ a.toNat

/-- The comparison that holds where this one does not. -/
def opposite : Condition → Condition
  | beq => bne
  | bne => beq
  | blt => bge
  | bltu => bgeu
  | bge => blt
  | bgeu => bltu

theorem holds_iff (condition : Condition) (a b : Word x) :
    condition.holds a b = true ↔ condition.Compares a b := by
  cases condition with
  | beq => exact beq_iff_eq.trans BitVec.toNat_inj.symm
  | bne => exact bne_iff_ne.trans BitVec.toNat_inj.symm.not
  | blt => exact BitVec.slt_iff_toInt_lt
  | bltu => exact BitVec.ult_iff_lt
  | bge =>
      rw [holds, Bool.not_eq_true', BitVec.slt_eq_decide, decide_eq_false_iff_not]
      exact Int.not_lt
  | bgeu =>
      rw [holds, Bool.not_eq_true', BitVec.ult_eq_decide, decide_eq_false_iff_not]
      exact Nat.not_lt

theorem compares_opposite (condition : Condition) (a b : Word x) :
    condition.opposite.Compares a b ↔ ¬ condition.Compares a b := by
  cases condition with
  | beq => exact Iff.rfl
  | bne => exact (show a.toNat = b.toNat ↔ ¬ a.toNat ≠ b.toNat from Decidable.not_not.symm)
  | blt => exact Int.not_lt.symm
  | bltu => exact Nat.not_lt.symm
  | bge => exact Int.not_le.symm
  | bgeu => exact Nat.not_le.symm

theorem holds_opposite (condition : Condition) (a b : Word x) :
    condition.opposite.holds a b = !condition.holds a b := by
  rw [Bool.eq_iff_iff, holds_iff, compares_opposite, Bool.not_eq_true', ← Bool.not_eq_true,
    holds_iff]

end Condition

namespace Hart

open Execution

/-- How a jump to a target ends. -/
structure Jumps (hart : Hart x) (bits : InstructionBits) (dest : Register) (target : Word x) :
    Prop where
  misaligned : ¬ hart.Admits target →
    hart.perform bits = hart.trapped (.exception .instructionAddressMisaligned) target ∧
      (hart.perform bits).2.registers = hart.registers
  /-- Only the register changes, and what changes with every instruction that completes. -/
  lands : hart.Admits target → ∃ link : Word x, ∃ registers : Registers x,
    link.toNat = (hart.pc.toNat + bits.size) % 2 ^ x.bits ∧
    (∀ index, registers.get? index =
      if dest ≠ 0 ∧ index = dest.toNat then some link else hart.registers.get? index) ∧
    hart.perform bits =
      (.retired, { hart with registers, csrs := hart.csrs.retire, pc := target })

/-- How a branch to a target ends. -/
structure Branches (hart : Hart x) (bits : InstructionBits) (taken : Prop) (target : Word x) :
    Prop where
  /-- Where it is not taken, the target does not matter. -/
  passes : ¬ taken → ∃ next : Word x, next.toNat = (hart.pc.toNat + bits.size) % 2 ^ x.bits ∧
    hart.perform bits = (.retired, { hart with csrs := hart.csrs.retire, pc := next })
  misaligned : taken → ¬ hart.Admits target →
    hart.perform bits = hart.trapped (.exception .instructionAddressMisaligned) target
  lands : taken → hart.Admits target →
    hart.perform bits = (.retired, { hart with csrs := hart.csrs.retire, pc := target })

variable {hart : Hart x} {bits : InstructionBits} {instruction : Instruction} {target : Word x}

theorem toNat_next (hart : Hart x) (bits : InstructionBits) :
    (hart.advanced bits).pc.toNat = (hart.pc.toNat + bits.size) % 2 ^ x.bits := by
  rw [advanced, setPc, BitVec.toNat_add, BitVec.toNat_ofNat, Nat.add_mod_mod]

/-- An instruction that jumps where it is executed does so when it is performed. -/
theorem jumps_of_execute {dest : Register} (decoded : hart.decode? bits = some instruction)
    (named : dest ∈ instruction.registers)
    (executes : execute hart.pc bits instruction (hart.advanced bits) =
      jump dest target (hart.advanced bits)) : hart.Jumps bits dest target := by
  have contains : hart.registers.Contains dest := (decode?_eq_some_iff.mp decoded).2.2 dest named
  have admits : (hart.advanced bits).config.alignment.Aligned target.toNat ↔
      hart.Admits target := admits_iff.symm
  have performed := perform_eq hart bits
  rw [decoded] at performed
  simp only [executes, jump_apply] at performed
  constructor
  case misaligned =>
    intro misaligned
    rw [if_neg (admits.not.mpr misaligned)] at performed
    rw [performed]
    exact ⟨rfl, rfl⟩
  case lands =>
    intro lands
    rw [if_pos (admits.mpr lands)] at performed
    exact ⟨_, hart.registers.write dest (hart.advanced bits).pc, toNat_next hart bits,
      Registers.get?_write_of_contains _ contains, performed⟩

/-- An instruction that branches where it is executed does so when it is performed. -/
theorem branches_of_execute {taken : Bool} (decoded : hart.decode? bits = some instruction)
    (executes : execute hart.pc bits instruction (hart.advanced bits) =
      branch taken target (hart.advanced bits)) : hart.Branches bits (taken = true) target := by
  have admits : (hart.advanced bits).config.alignment.Aligned target.toNat ↔
      hart.Admits target := admits_iff.symm
  have performed := perform_eq hart bits
  rw [decoded] at performed
  simp only [executes, branch_apply] at performed
  constructor
  case passes =>
    intro passes
    rw [if_pos (Bool.eq_false_iff.mpr passes)] at performed
    exact ⟨_, toNat_next hart bits, performed⟩
  case misaligned =>
    rintro rfl misaligned
    rw [if_neg (by decide), if_neg (admits.not.mpr misaligned)] at performed
    exact performed
  case lands =>
    rintro rfl lands
    rw [if_neg (by decide), if_pos (admits.mpr lands)] at performed
    exact performed

/-- The target of a jump or a branch that counts from its own address. -/
theorem toNat_target (pc : Word x) {width : Nat} (offset : BitVec width) :
    ((pc + (Instruction.bytes offset).signExtend x.bits).toNat : Int) =
      (pc.toNat + 2 * offset.toInt) % 2 ^ x.bits := by
  rw [Word.toNat_add_signExtend, NumericInstruction.toInt_bytes]

/-- Jumps and branches go where the specification says, wherever the program counter is and
whatever the size of the instruction.  The base of a jump is what the register held before, even
where it is the one that takes the link.  A comparison holds as it does between numbers; each has
its opposite; and the two that order numbers hold where the instruction that compares them leaves
one. -/
theorem control_transfer (hart : Hart x) (bits : InstructionBits) :
    (∀ dest offset, hart.decode? bits = some (.jal dest offset) →
      ∃ target : Word x,
        (target.toNat : Int) = (hart.pc.toNat + 2 * offset.toInt) % 2 ^ x.bits ∧
        hart.Jumps bits dest target) ∧
    (∀ dest base offset, hart.decode? bits = some (.jalr dest base offset) →
      ∃ sum target : Word x,
        (sum.toNat : Int) = ((hart.registers.read base).toNat + offset.toInt) % 2 ^ x.bits ∧
        target.toNat = 2 * (sum.toNat / 2) ∧
        hart.Jumps bits dest target) ∧
    (∀ condition left right offset,
      hart.decode? bits = some (.branch condition left right offset) →
      ∃ target : Word x,
        (target.toNat : Int) = (hart.pc.toNat + 2 * offset.toInt) % 2 ^ x.bits ∧
        hart.Branches bits
          (condition.holds (hart.registers.read left) (hart.registers.read right) = true)
          target) ∧
    (∀ (condition : Condition) (a b : Word x),
      (condition.holds a b = true ↔ condition.Compares a b) ∧
        condition.opposite.holds a b = !condition.holds a b) ∧
    ∀ dest left right,
      let a := hart.registers.read left
      let b := hart.registers.read right
      (∃ word, hart.Computes (.register .slt dest left right) dest word ∧
        (Condition.blt.holds a b = true ↔ word = 1)) ∧
      ∃ word, hart.Computes (.register .sltu dest left right) dest word ∧
        (Condition.bltu.holds a b = true ↔ word = 1) := by
  refine ⟨?jal, ?jalr, ?branch, ?complements, ?compares⟩
  case jal =>
    intro dest offset decoded
    exact ⟨_, toNat_target hart.pc offset, jumps_of_execute decoded List.mem_cons_self rfl⟩
  case jalr =>
    intro dest base offset decoded
    exact ⟨_, _, Word.toNat_add_signExtend _ offset, Word.toNat_and_not_one _,
      jumps_of_execute decoded List.mem_cons_self rfl⟩
  case branch =>
    intro condition left right offset decoded
    exact ⟨_, toNat_target hart.pc offset, branches_of_execute decoded rfl⟩
  case complements =>
    exact fun condition a b => ⟨condition.holds_iff a b, condition.holds_opposite a b⟩
  case compares =>
    intro dest left right a b
    exact ⟨⟨_, hart.computes_register dest left right .slt, (Word.ofBool_eq_one_iff _).symm⟩,
      ⟨_, hart.computes_register dest left right .sltu, (Word.ofBool_eq_one_iff _).symm⟩⟩

/-- Three transfers from the last word that addresses reach.  The instruction after it is at zero: a
jump through the register that is linked takes its target from there and then leaves zero in it, and
a branch that is not taken goes on at zero.  A jump to the second halfword traps. -/
theorem control_transfer_last :
    let config : Config := { memorySize := 4, compressed := false }
    let hart : Hart .rv32 := ((initial config).setRegister 1 9).setPc 0xFFFFFFFC
    (∃ registers : Registers .rv32, registers.get? 1 = some 0 ∧
      hart.perform (.long 0x000080E7) =
        (.retired, { hart with registers, csrs := hart.csrs.retire, pc := 8 })) ∧
    hart.perform (.long 0x006000EF) =
      hart.trapped (.exception .instructionAddressMisaligned) 2 ∧
    hart.perform (.long 0x00100363) =
      (.retired, { hart with csrs := hart.csrs.retire, pc := 0 }) := by
  intro config hart
  have linked : hart.decode? (.long 0x000080E7) = some (.jalr 1 1 0) := by decide
  have jumped : hart.decode? (.long 0x006000EF) = some (.jal 1 3) := by decide
  have branched : hart.decode? (.long 0x00100363) = some (.branch .beq 0 1 3) := by decide
  refine ⟨?linked, ?jumped, ?branched⟩
  case linked =>
    obtain ⟨sum, target, added, halved, jumps⟩ :=
      (control_transfer hart (.long 0x000080E7)).2.1 1 1 0 linked
    have sum_eq : sum.toNat = 9 :=
      Int.ofNat_inj.mp (added.trans (show _ = ((9 : Nat) : Int) by decide))
    obtain rfl : target = 8 := BitVec.eq_of_toNat_eq (by rw [halved, sum_eq]; rfl)
    obtain ⟨link, registers, next, held, performed⟩ := jumps.lands (by decide)
    obtain rfl : link = 0 := BitVec.eq_of_toNat_eq (next.trans (by decide))
    exact ⟨registers, held 1, performed⟩
  case jumped =>
    obtain ⟨target, added, jumps⟩ := (control_transfer hart (.long 0x006000EF)).1 1 3 jumped
    obtain rfl : target = 2 :=
      BitVec.eq_of_toNat_eq
        (Int.ofNat_inj.mp (added.trans (show _ = ((2 : Nat) : Int) by decide)))
    exact (jumps.misaligned (by decide)).1
  case branched =>
    obtain ⟨target, -, branches⟩ :=
      (control_transfer hart (.long 0x00100363)).2.2.1 .beq 0 1 3 branched
    obtain ⟨next, behind, performed⟩ := branches.passes (by decide)
    obtain rfl : next = 0 := BitVec.eq_of_toNat_eq (behind.trans (by decide))
    exact performed

end Hart

end RiscV
