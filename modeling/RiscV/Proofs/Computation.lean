import RiscV.Proofs.Call
import RiscV.Proofs.Encoding

/-!
# Computations

Most instructions read registers, compute one word and leave it in one register.  Such an
instruction completes whenever it is performed, and everything but that register stays as it was,
apart from the program counter, which moves on, and the counters.
-/

namespace RiscV

namespace Registers

variable {x : Xlen}

/-- A register that exists holds what is written to it, unless it is register zero. -/
theorem get?_write_of_contains {registers : Registers x} {dest : Register} (word : Word x)
    (contains : registers.Contains dest) (index : Nat) :
    (registers.write dest word).get? index =
      if dest ≠ 0 ∧ index = dest.toNat then some word else registers.get? index := by
  have held : registers.get? dest.toNat = some registers.values[dest.toNat] :=
    Array.getElem?_eq_getElem contains
  rw [get?_write]
  by_cases target : dest ≠ 0 ∧ index = dest.toNat
  · rw [if_pos target, if_pos ⟨target.1, target.2.symm⟩, target.2, held]
    rfl
  · rw [if_neg target, if_neg fun ⟨nonzero, same⟩ => target ⟨nonzero, same.symm⟩]

end Registers

namespace Hart

variable {x : Xlen} {hart : Hart x} {instruction : Instruction} {dest : Register} {word : Word x}

/-- The encoding of an instruction is decoded if the hart has the registers that it names. -/
theorem decode?_encode (wellFormed : instruction.WellFormed x)
    (named : ∀ register ∈ instruction.registers, hart.registers.Contains register) :
    hart.decode? (.long instruction.encode) = some instruction := by
  refine decode?_eq_some_iff.mpr ⟨nofun, ?_, named⟩
  rw [InstructionBits.meaning?, Instruction.decode_encode wellFormed]
  rfl

/-- All that the instruction does is to leave a word in a register other than register zero. -/
structure Computes (hart : Hart x) (instruction : Instruction) (dest : Register) (word : Word x) :
    Prop where
  /-- There are bits for the instruction. -/
  encoded : instruction.WellFormed x →
    (∀ register ∈ instruction.registers, hart.registers.Contains register) →
    hart.decode? (.long instruction.encode) = some instruction
  /-- Whatever the bits for the instruction are, it completes. -/
  performed : ∀ bits, hart.decode? bits = some instruction →
    ∃ registers : Registers x,
      (∀ index, registers.get? index =
        if dest ≠ 0 ∧ index = dest.toNat then some word else hart.registers.get? index) ∧
      hart.perform bits =
        (.retired,
          { hart with
            registers
            csrs := hart.csrs.retire
            pc := hart.pc + BitVec.ofNat x.bits bits.size })

/-- An instruction that leaves a word wherever it is executed computes it. -/
theorem computes_of_execute (named : dest ∈ instruction.registers)
    (executes : ∀ bits, execute hart.pc bits instruction (hart.advanced bits) =
      .ok () ((hart.advanced bits).setRegister dest word)) :
    hart.Computes instruction dest word where
  encoded := decode?_encode
  performed bits decoded := by
    have contains : hart.registers.Contains dest :=
      (decode?_eq_some_iff.mp decoded).2.2 dest named
    refine ⟨hart.registers.write dest word, Registers.get?_write_of_contains word contains, ?_⟩
    rw [perform_eq, decoded]
    simp only [executes]
    rfl

/-- The register holds the word afterwards. -/
theorem Computes.get?_perform (computes : hart.Computes instruction dest word) (nonzero : dest ≠ 0)
    {bits : InstructionBits} (decoded : hart.decode? bits = some instruction) :
    (hart.perform bits).2.registers.get? dest.toNat = some word := by
  obtain ⟨registers, held, completes⟩ := computes.performed bits decoded
  rw [completes]
  exact (held dest.toNat).trans (if_pos ⟨nonzero, rfl⟩)

/-- The instruction completes, and all that it does is to leave a word in a register. -/
def Leaves (hart : Hart x) (instruction : Instruction) (dest : Register) (word : Word x) : Prop :=
  ∀ pc bits, execute pc bits instruction hart = .ok () (hart.setRegister dest word)

/-- The instruction computes a word, and leaves it in a register wherever it is executed. -/
structure Yields (hart : Hart x) (instruction : Instruction) (dest : Register) (word : Word x) :
    Prop extends hart.Computes instruction dest word where
  leaves : hart.Leaves instruction dest word

/-! ## The instructions that compute -/

section Instructions

variable (hart : Hart x) (dest left right : Register)

theorem computes_register (op : RegisterOp) :
    hart.Computes (.register op dest left right) dest
      (op.eval (hart.registers.read left) (hart.registers.read right)) :=
  computes_of_execute List.mem_cons_self fun _ => rfl

theorem computes_registerWord (op : WordOp) :
    hart.Computes (.registerWord op dest left right) dest
      (op.eval (hart.registers.read left) (hart.registers.read right)) :=
  computes_of_execute List.mem_cons_self fun _ => rfl

theorem yields_register (op : RegisterOp) :
    hart.Yields (.register op dest left right) dest
      (op.eval (hart.registers.read left) (hart.registers.read right)) :=
  ⟨hart.computes_register dest left right op, fun _ _ => rfl⟩

theorem yields_registerWord (op : WordOp) :
    hart.Yields (.registerWord op dest left right) dest
      (op.eval (hart.registers.read left) (hart.registers.read right)) :=
  ⟨hart.computes_registerWord dest left right op, fun _ _ => rfl⟩

theorem computes_immediate (op : ImmediateOp) (imm : BitVec 12) :
    hart.Computes (.immediate op dest left imm) dest
      (op.eval (hart.registers.read left) (imm.signExtend x.bits)) :=
  computes_of_execute List.mem_cons_self fun _ => rfl

theorem computes_immediateWord (imm : BitVec 12) :
    hart.Computes (.immediateWord dest left imm) dest
      (((hart.registers.read left).setWidth 32 + imm.signExtend 32).signExtend x.bits) :=
  computes_of_execute List.mem_cons_self fun _ => rfl

theorem computes_shift (op : ShiftOp) (amount : BitVec 6) :
    hart.Computes (.shift op dest left amount) dest
      (op.eval (hart.registers.read left) (amount.toNat % x.bits)) :=
  computes_of_execute List.mem_cons_self fun _ => rfl

theorem computes_shiftWord (op : ShiftOp) (amount : BitVec 5) :
    hart.Computes (.shiftWord op dest left amount) dest
      ((op.eval ((hart.registers.read left).setWidth 32) amount.toNat).signExtend x.bits) :=
  computes_of_execute List.mem_cons_self fun _ => rfl

theorem computes_lui (upper : BitVec 20) :
    hart.Computes (.lui dest upper) dest ((upper ++ 0#12).signExtend x.bits) :=
  computes_of_execute List.mem_cons_self fun _ => rfl

theorem computes_auipc (upper : BitVec 20) :
    hart.Computes (.auipc dest upper) dest (hart.pc + (upper ++ 0#12).signExtend x.bits) :=
  computes_of_execute List.mem_cons_self fun _ => rfl

end Instructions

end Hart

end RiscV
