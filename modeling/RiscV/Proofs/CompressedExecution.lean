import RiscV.Proofs.Call
import RiscV.Proofs.Encoding
import RiscV.Proofs.Expansion
import RiscV.Proofs.Frame

/-!
# Performing compressed instructions

A compressed instruction has the effect of the word that it stands for, except that the next
instruction is two bytes behind it and not four.
-/

namespace RiscV

namespace Instruction

variable {x : Xlen}

/-- The register in which a jump leaves the address of the next instruction. -/
def link? : Instruction → Option Register
  | jal dest _ | jalr dest _ _ => some dest
  | _ => none

/-- Whether the instruction, once it completes, goes on elsewhere than behind itself. -/
def transfers (registers : Registers x) : Instruction → Bool
  | jal .. | jalr .. => true
  | branch condition left right _ => condition.holds (registers.read left) (registers.read right)
  | _ => false

theorem usesCsrs_of_unprivileged {instruction : Instruction}
    (unprivileged : instruction.isPrivileged = false) : instruction.usesCsrs = false := by
  cases instruction with
  | csr | mret | sret => cases unprivileged
  | _ => rfl

theorem link?_of_straight {instruction : Instruction}
    (straight : instruction.isTransfer = false) : instruction.link? = none := by
  cases instruction with
  | jal | jalr | branch => cases straight
  | _ => rfl

theorem transfers_of_straight {instruction : Instruction}
    (straight : instruction.isTransfer = false) (registers : Registers x) :
    instruction.transfers registers = false := by
  cases instruction with
  | jal | jalr | branch => cases straight
  | _ => rfl

end Instruction

namespace Hart

open Execution

variable {x : Xlen}

/-- The bits of an instruction matter only to the report that the level is too low. -/
theorem execute_bits {instruction : Instruction}
    (unprivileged : instruction.isPrivileged = false) (pc : Word x)
    (bits others : InstructionBits) (hart : Hart x) :
    execute pc bits instruction hart = execute pc others instruction hart := by
  cases instruction with
  | csr | mret | sret | wfi => cases unprivileged
  | _ => rfl

theorem registers_setPc (hart : Hart x) (next : Word x) :
    (hart.setPc next).registers = hart.registers := rfl

theorem jump_setPc (dest : Register) (target next : Word x) (hart : Hart x) :
    jump dest target (hart.setPc next) =
      if hart.config.alignment.Aligned target.toNat then
        .ok () { hart with registers := hart.registers.write dest next, pc := target }
      else .error ⟨.instructionAddressMisaligned, target⟩ (hart.setPc next) :=
  jump_apply dest target (hart.setPc next)

theorem branch_setPc (taken : Bool) (target next : Word x) (hart : Hart x) :
    branch taken target (hart.setPc next) =
      if taken = false then .ok () (hart.setPc next)
      else if hart.config.alignment.Aligned target.toNat then .ok () (hart.setPc target)
      else .error ⟨.instructionAddressMisaligned, target⟩ (hart.setPc next) :=
  branch_apply taken target (hart.setPc next)

/-- An instruction for every level faults wherever the next instruction is, or it has an effect in
which the place of the next instruction shows only as the link and as the address to go on at. -/
theorem execute_setPc {instruction : Instruction}
    (unprivileged : instruction.isPrivileged = false) (pc : Word x) (hart : Hart x) :
    (∃ fault, ∀ bits next,
      execute pc bits instruction (hart.setPc next) = .error fault (hart.setPc next)) ∨
    ∃ memory registers target, ∀ bits next,
      execute pc bits instruction (hart.setPc next) =
        .ok ()
          { hart with
            memory
            registers :=
              match instruction.link? with
              | some dest => hart.registers.write dest next
              | none => registers
            pc := if instruction.transfers hart.registers then target else next } := by
  by_cases straight : instruction.isTransfer = false
  · have plain := Instruction.usesCsrs_of_unprivileged unprivileged
    have moved : ∀ bits next, execute pc bits instruction (hart.setPc next) =
        carry (fun after => after.setPc next) (execute pc (.short 0) instruction hart) := by
      intro bits next
      rw [execute_bits unprivileged pc bits (.short 0)]
      exact execute_frame (frame_setPc next _) straight plain pc _ hart
    simp only [Instruction.link?_of_straight straight,
      Instruction.transfers_of_straight straight]
    rcases execute_plain pc (.short 0) hart plain with
      ⟨fault, fails⟩ | ⟨memory, registers, _, completes⟩
    · refine .inl ⟨fault, fun bits next => ?_⟩
      rw [moved, fails]
      rfl
    · refine .inr ⟨memory, registers, 0, fun bits next => ?_⟩
      rw [moved, completes]
      rfl
  · cases instruction with
    | jal dest offset =>
        simp only [execute, jump_setPc]
        by_cases aligned :
            hart.config.alignment.Aligned
              (pc + (Instruction.bytes offset).signExtend x.bits).toNat
        · exact .inr ⟨hart.memory, hart.registers, _, fun _ _ => if_pos aligned⟩
        · exact .inl ⟨_, fun _ _ => if_neg aligned⟩
    | jalr dest base offset =>
        simp only [execute, bind_apply, readRegister_apply, jump_setPc, registers_setPc]
        by_cases aligned :
            hart.config.alignment.Aligned
              ((hart.registers.read base + offset.signExtend x.bits) &&& ~~~1).toNat
        · exact .inr ⟨hart.memory, hart.registers, _, fun _ _ => if_pos aligned⟩
        · exact .inl ⟨_, fun _ _ => if_neg aligned⟩
    | branch condition left right offset =>
        simp only [execute, bind_apply, readRegister_apply, branch_setPc, registers_setPc]
        by_cases untaken :
            condition.holds (hart.registers.read left) (hart.registers.read right) = false
        · refine .inr ⟨hart.memory, hart.registers, 0, fun _ next => ?_⟩
          rw [if_pos untaken]
          simp only [Instruction.link?, Instruction.transfers, untaken]
          rfl
        · have taken := eq_true_of_ne_false untaken
          by_cases aligned :
              hart.config.alignment.Aligned
                (pc + (Instruction.bytes offset).signExtend x.bits).toNat
          · refine .inr ⟨hart.memory, hart.registers,
              pc + (Instruction.bytes offset).signExtend x.bits, fun _ next => ?_⟩
            rw [if_neg untaken, if_pos aligned]
            simp only [Instruction.link?, Instruction.transfers, taken]
            rfl
          · exact .inl ⟨_, fun _ _ => (if_neg untaken).trans (if_neg aligned)⟩
    | _ => exact absurd rfl straight

theorem perform_of_missing {hart : Hart x} {bits : InstructionBits} {instruction : Instruction}
    (meaning : bits.meaning? x = some instruction)
    (missing : ∃ register ∈ instruction.registers, ¬ hart.registers.Contains register) :
    hart.perform bits = hart.trapped (.exception .illegalInstruction) bits.value := by
  have undecoded : hart.decode? bits = none := by
    rw [Option.eq_none_iff_forall_ne_some]
    intro other decoded
    obtain ⟨-, meant, held⟩ := decode?_eq_some_iff.mp decoded
    cases meaning.symm.trans meant
    obtain ⟨register, named, absent⟩ := missing
    exact absent (held register named)
  simp only [perform_eq, undecoded]

/-- The answers to a compressed instruction and to the word that it stands for.  They differ only
where the place of the next instruction shows. -/
structure SameEffect (hart : Hart x) (instruction : Instruction)
    (short long : Outcome x × Hart x) : Prop where
  outcome : short.1 = long.1
  config : short.2.config = long.2.config
  memory : short.2.memory = long.2.memory
  csrs : short.2.csrs = long.2.csrs
  mode : short.2.mode = long.2.mode
  /-- The registers are equal unless a jump completed. -/
  registers : short.1 ≠ .retired ∨ instruction.link? = none →
    short.2.registers = long.2.registers
  /-- A jump that completed changed nothing but its link. -/
  link : ∀ dest, short.1 = .retired → instruction.link? = some dest →
    short.2.registers = hart.registers.write dest (hart.pc + 2) ∧
      long.2.registers = hart.registers.write dest (hart.pc + 4)
  /-- Traps, jumps and taken branches go on at the same address. -/
  target : short.1 ≠ .retired ∨ instruction.transfers hart.registers = true →
    short.2.pc = long.2.pc
  /-- All else goes on behind the instruction. -/
  next : short.1 = .retired → instruction.transfers hart.registers = false →
    short.2.pc = hart.pc + 2 ∧ long.2.pc = hart.pc + 4

theorem SameEffect.refl_of_trap {hart : Hart x} {instruction : Instruction}
    {answer : Outcome x × Hart x} (trap : answer.1 ≠ .retired) :
    SameEffect hart instruction answer answer where
  outcome := rfl
  config := rfl
  memory := rfl
  csrs := rfl
  mode := rfl
  registers _ := rfl
  link _ retired := absurd retired trap
  target _ := rfl
  next retired := absurd retired trap

theorem sameEffect_of_decode? {hart : Hart x} {code : BitVec 16} {word : BitVec 32}
    {instruction : Instruction} (unprivileged : instruction.isPrivileged = false)
    (short : hart.decode? (.short code) = some instruction)
    (long : hart.decode? (.long word) = some instruction) :
    SameEffect hart instruction (hart.perform (.short code)) (hart.perform (.long word)) := by
  rcases execute_setPc unprivileged hart.pc hart with
    ⟨fault, fails⟩ | ⟨memory, registers, target, completes⟩
  · simp only [perform_eq, short, long, advanced, fails]
    exact .refl_of_trap nofun
  · simp only [perform_eq, short, long, advanced, completes]
    constructor
    case registers =>
      rintro (trap | unlinked)
      · exact absurd rfl trap
      · simp only [retire, unlinked]
    case link =>
      intro dest _ linked
      simp only [retire, linked]
      exact ⟨rfl, rfl⟩
    case target =>
      rintro (trap | transfers)
      · exact absurd rfl trap
      · simp only [retire, transfers]
        rfl
    case next =>
      intro _ stays
      simp only [retire, stays]
      exact ⟨rfl, rfl⟩
    all_goals rfl

/-- A compressed instruction stands for a word that decodes.  Performing either of them has the
same effect, up to the place of the next instruction, if the hart has all registers that are named;
otherwise both are illegal, and only the bits that are reported differ. -/
theorem perform_expansion {hart : Hart x} {code : BitVec 16} {word : BitVec 32}
    (supported : hart.config.compressed = true)
    (expands : (Compressed.expand? x code).map Instruction.encode = some word) :
    ∃ instruction, Instruction.decode x word = .ok instruction ∧
      ((∀ register ∈ instruction.registers, hart.registers.Contains register) →
        SameEffect hart instruction (hart.perform (.short code)) (hart.perform (.long word))) ∧
      ((∃ register ∈ instruction.registers, ¬ hart.registers.Contains register) →
        ∃ after : Hart x,
          hart.perform (.short code) =
            (.trap (.exception .illegalInstruction) hart.pc (code.setWidth x.bits), after) ∧
          after.csrs.machine.value = code.setWidth x.bits ∧
          hart.perform (.long word) =
            (.trap (.exception .illegalInstruction) hart.pc (word.setWidth x.bits),
              { after with
                csrs :=
                  { after.csrs with
                    machine := { after.csrs.machine with value := word.setWidth x.bits } } })) := by
  obtain ⟨instruction, expanded, rfl⟩ := Option.map_eq_some_iff.mp expands
  have compressible := Compressed.compressible_of_expand? expanded
  have decoded := Instruction.decode_encode compressible.wellFormed
  have shortMeaning : (InstructionBits.short code).meaning? x = some instruction := expanded
  have longMeaning : (InstructionBits.long instruction.encode).meaning? x = some instruction := by
    rw [InstructionBits.meaning?, decoded]
    rfl
  refine ⟨instruction, decoded, fun held => ?_, fun missing => ?_⟩
  · exact sameEffect_of_decode? compressible.unprivileged
      (decode?_eq_some_iff.mpr ⟨fun _ => supported, shortMeaning, held⟩)
      (decode?_eq_some_iff.mpr ⟨nofun, longMeaning, held⟩)
  · exact ⟨_, perform_of_missing shortMeaning missing, rfl,
      perform_of_missing longMeaning missing⟩

/-- A jump in two bytes leaves a link that is two bytes further down. -/
theorem perform_expansion_jump :
    let hart : Hart .rv32 := initial { memorySize := 0 }
    let short := hart.perform (.short 0x2001)
    let long := hart.perform (.long 0x000000EF)
    short.1 = long.1 ∧ short.2.csrs = long.2.csrs ∧
      short.2.registers = hart.registers.write Register.ra 2 ∧
      long.2.registers = hart.registers.write Register.ra 4 := by
  intro hart short long
  obtain ⟨instruction, decoded, agree, -⟩ :=
    perform_expansion (show hart.config.compressed = true from rfl)
      (show (Compressed.expand? .rv32 0x2001).map Instruction.encode = some 0x000000EF by decide)
  have jump : Instruction.decode .rv32 0x000000EF = .ok (.jal Register.ra 0) := by decide
  cases jump.symm.trans decoded
  have same := agree (by decide)
  exact ⟨same.outcome, same.csrs, same.link _ (by decide) rfl⟩

end Hart

end RiscV
