import RiscV.Proofs.LockStep

/-!
# Footprints of instructions

An instruction sees and changes no registers but those that it names.  So a hart with few registers
goes in lock step with one that has all of them, as long as the instructions name registers that it
has.  One that names another register is illegal there.
-/

namespace RiscV

namespace Hart

open Execution

variable {x : Xlen}

/-- The hart with other registers, and with another number of them. -/
def withRegisters (count : Nat) (registers : Registers x) (hart : Hart x) : Hart x :=
  { hart with
    config := { hart.config with registerCount := count }
    registers }

/-- The harts differ at most in their number of registers, and in registers outside of a set. -/
structure AgreeOn (named : Register → Prop) (left right : Hart x) : Prop where
  rest : right = withRegisters right.config.registerCount right.registers left
  registers : ∀ register, named register →
    right.registers.get? register.toNat = left.registers.get? register.toNat

/-- The hart that an action ends in has its configuration and every register outside of a list as
before. -/
def Spares (named : List Register) (before : Hart x) :
    EStateM.Result (Fault x) (Hart x) Unit → Prop
  | .ok _ after | .error _ after =>
      after.config = before.config ∧
        ∀ index, (∀ register ∈ named, register.toNat ≠ index) →
          after.registers.get? index = before.registers.get? index

namespace AgreeOn

variable {named : Register → Prop} {left right : Hart x}

/-- A change of anything else keeps the agreement. -/
theorem map (agree : AgreeOn named left right) (change : Hart x → Hart x)
    (commutes : ∀ count registers hart,
      change (withRegisters count registers hart) = withRegisters count registers (change hart))
    (keeps : ∀ hart, (change hart).registers = hart.registers) :
    AgreeOn named (change left) (change right) := by
  have changed : change right =
      withRegisters right.config.registerCount right.registers (change left) := by
    rw [← commutes, ← agree.rest]
  refine ⟨?_, fun register member => ?_⟩
  · rw [changed]
    rfl
  · rw [keeps, keeps, agree.registers register member]

theorem config (agree : AgreeOn named left right) :
    right.config = { left.config with registerCount := right.config.registerCount } :=
  congrArg (·.config) agree.rest

theorem alignment (agree : AgreeOn named left right) :
    right.config.alignment = left.config.alignment := by
  rw [agree.config]
  rfl

theorem misaligned (agree : AgreeOn named left right) :
    right.config.misaligned = left.config.misaligned := by
  rw [agree.config]

theorem memory (agree : AgreeOn named left right) : right.memory = left.memory :=
  congrArg (·.memory) agree.rest

theorem csrs (agree : AgreeOn named left right) : right.csrs = left.csrs :=
  congrArg (·.csrs) agree.rest

theorem pc (agree : AgreeOn named left right) : right.pc = left.pc := congrArg (·.pc) agree.rest

theorem mode (agree : AgreeOn named left right) : right.mode = left.mode :=
  congrArg (·.mode) agree.rest

theorem read (agree : AgreeOn named left right) {register : Register} (member : named register) :
    right.registers.read register = left.registers.read register := by
  rw [Registers.read, Registers.read, agree.registers register member]

theorem get?_write (agree : AgreeOn named left right) {other : Register}
    (member : named other) (register : Register) (value : Word x) :
    (right.registers.write register value).get? other.toNat =
      (left.registers.write register value).get? other.toNat := by
  rw [Registers.get?_write, Registers.get?_write, agree.registers other member]

theorem setRegister (agree : AgreeOn named left right) (register : Register) (value : Word x) :
    AgreeOn named (left.setRegister register value) (right.setRegister register value) where
  rest := by
    conv => lhs; rw [agree.rest]
    rfl
  registers _ member := agree.get?_write member register value

end AgreeOn

theorem operandValue_eq {named : Register → Prop} {left right : Hart x} {op : CsrOp}
    {dest : Register} {operand : CsrOperand} {number : BitVec 12}
    (agree : AgreeOn named left right)
    (covers : ∀ register ∈ (Instruction.csr op dest operand number).registers, named register) :
    operandValue right.registers operand = operandValue left.registers operand := by
  cases operand with
  | register source => exact agree.read (covers source (by simp [Instruction.registers]))
  | immediate value => rfl

theorem execute_agreeOn {named : Register → Prop} {instruction : Instruction} {left right : Hart x}
    (agree : AgreeOn named left right) (covers : ∀ register ∈ instruction.registers, named register)
    (pc : Word x) (bits : InstructionBits) :
    Matches (AgreeOn named) (execute pc bits instruction left)
      (execute pc bits instruction right) := by
  have read : ∀ register ∈ instruction.registers,
      right.registers.read register = left.registers.read register :=
    fun register member => agree.read (covers register member)
  have set := agree.setRegister
  cases instruction with
  | immediate | shift | immediateWord | shiftWord | auipc | lui | register | registerWord =>
      simp_all [execute, bind_apply, Instruction.registers, Matches]
  | jal dest offset =>
      simp only [execute, jump_apply, agree.alignment, agree.pc]
      split
      · exact (set dest left.pc).map (·.setPc _) (fun _ _ _ => rfl) fun _ => rfl
      · exact ⟨rfl, agree⟩
  | jalr dest base offset =>
      simp only [execute, bind_apply, readRegister_apply, jump_apply, agree.alignment, agree.pc,
        read base (by simp [Instruction.registers])]
      split
      · exact (set dest left.pc).map (·.setPc _) (fun _ _ _ => rfl) fun _ => rfl
      · exact ⟨rfl, agree⟩
  | branch condition first second offset =>
      simp only [execute, bind_apply, readRegister_apply, branch_apply, agree.alignment,
        read first (by simp [Instruction.registers]),
        read second (by simp [Instruction.registers])]
      split
      · exact agree
      · split
        · exact agree.map (·.setPc _) (fun _ _ _ => rfl) fun _ => rfl
        · exact ⟨rfl, agree⟩
  | load op dest base offset =>
      rw [execute_load, execute_load, read base (by simp [Instruction.registers]), agree.memory,
        agree.misaligned]
      split
      · split
        · exact set dest _
        · exact ⟨rfl, agree⟩
      · exact ⟨rfl, agree⟩
  | store op src base offset =>
      simp only [execute, bind_apply, readRegister_apply, store_apply, agree.memory,
        agree.misaligned, read src (by simp [Instruction.registers]),
        read base (by simp [Instruction.registers])]
      split
      · split
        · exact agree.map (fun hart => { hart with memory := _ }) (fun _ _ _ => rfl) fun _ => rfl
        · exact ⟨rfl, agree⟩
      · exact ⟨rfl, agree⟩
  | fence | fenceI => exact agree
  | csr op dest operand number =>
      simp only [execute, changeCsr_apply, agree.csrs, agree.mode,
        operandValue_eq agree covers]
      split
      · exact ⟨rfl, agree⟩
      · split
        · exact ⟨rfl, agree⟩
        · rename_i old _ _ _ csrs _
          have changed := agree.map (fun hart => { hart with csrs }) (fun _ _ _ => rfl) fun _ => rfl
          simp only [agree.mode] at changed
          exact changed.setRegister dest old
  | ecall =>
      simp only [execute, call_apply, agree.mode]
      exact ⟨rfl, agree⟩
  | ebreak => exact ⟨rfl, agree⟩
  | mret =>
      rw [execute_mret, execute_mret, agree.mode, agree.csrs]
      split
      · exact ⟨rfl, agree⟩
      · exact agree.map (fun hart => { hart.setStatus left.csrs.status.leave with
            mode := left.csrs.status.mpp
            pc := left.csrs.machine.epc })
          (fun _ _ _ => rfl) fun _ => rfl
  | sret =>
      rw [execute_sret, execute_sret, agree.mode, agree.csrs]
      split
      · exact ⟨rfl, agree⟩
      · exact agree.map (fun hart => { hart.setStatus left.csrs.status.leaveSupervisor with
            mode := left.csrs.status.spp
            pc := left.csrs.supervisor.epc })
          (fun _ _ _ => rfl) fun _ => rfl
  | wfi =>
      simp only [execute, requireMode_apply, agree.mode]
      split
      · exact ⟨rfl, agree⟩
      · exact agree

/-- An instruction that completes writes at most one register, which it names. -/
theorem execute_registers {hart after : Hart x} {pc : Word x} {bits : InstructionBits}
    {instruction : Instruction} (completes : execute pc bits instruction hart = .ok () after) :
    after.config = hart.config ∧
      (after.registers = hart.registers ∨
        ∃ dest ∈ instruction.registers, ∃ value,
          after.registers = hart.registers.write dest value) := by
  cases instruction with
  | immediate | shift | immediateWord | shiftWord | auipc | lui | register | registerWord =>
      cases completes
      exact ⟨rfl, .inr ⟨_, List.mem_cons_self, _, rfl⟩⟩
  | jal | jalr =>
      simp only [execute, bind_apply, readRegister_apply, jump_apply] at completes
      split at completes
      · cases completes
        exact ⟨rfl, .inr ⟨_, List.mem_cons_self, _, rfl⟩⟩
      · cases completes
  | branch =>
      simp only [execute, bind_apply, readRegister_apply, branch_apply] at completes
      split at completes
      · cases completes
        exact ⟨rfl, .inl rfl⟩
      · split at completes
        · cases completes
          exact ⟨rfl, .inl rfl⟩
        · cases completes
  | load =>
      rw [execute_load] at completes
      split at completes
      · split at completes
        · cases completes
          exact ⟨rfl, .inr ⟨_, List.mem_cons_self, _, rfl⟩⟩
        · cases completes
      · cases completes
  | store =>
      simp only [execute, bind_apply, readRegister_apply, store_apply] at completes
      split at completes
      · split at completes
        · cases completes
          exact ⟨rfl, .inl rfl⟩
        · cases completes
      · cases completes
  | fence | fenceI =>
      cases completes
      exact ⟨rfl, .inl rfl⟩
  | csr op dest operand number =>
      rcases execute_csr pc bits hart op dest operand number with
        ⟨_, fails⟩ | ⟨csrs, old, -, changed⟩
      · cases fails.symm.trans completes
      · cases changed.symm.trans completes
        have named : dest ∈ (Instruction.csr op dest operand number).registers := by
          cases operand <;> exact List.mem_cons_self
        exact ⟨rfl, .inr ⟨dest, named, old, rfl⟩⟩
  | ecall =>
      cases (call_apply hart).symm.trans completes
  | ebreak => cases completes
  | mret =>
      rw [execute_mret] at completes
      split at completes
      · cases completes
      · cases completes
        exact ⟨rfl, .inl rfl⟩
  | sret =>
      rw [execute_sret] at completes
      split at completes
      · cases completes
      · cases completes
        exact ⟨rfl, .inl rfl⟩
  | wfi =>
      simp only [execute, requireMode_apply] at completes
      split at completes
      · cases completes
      · cases completes
        exact ⟨rfl, .inl rfl⟩

theorem execute_spares (pc : Word x) (bits : InstructionBits) (instruction : Instruction)
    (hart : Hart x) : Spares instruction.registers hart (execute pc bits instruction hart) := by
  rcases execute_error_or_ok pc bits hart instruction with ⟨fault, fails⟩ | ⟨after, completes⟩
  · rw [fails]
    exact ⟨rfl, fun _ _ => rfl⟩
  · rw [completes]
    obtain ⟨config, kept | ⟨dest, named, value, written⟩⟩ := execute_registers completes
    · exact ⟨config, fun _ _ => by rw [kept]⟩
    · refine ⟨config, fun index unnamed => ?_⟩
      rw [written, Registers.get?_write, if_neg fun both => unnamed dest named both.2]

theorem execute_count {hart after : Hart x} {pc : Word x} {bits : InstructionBits}
    {instruction : Instruction} (completes : execute pc bits instruction hart = .ok () after) :
    after.registers.count = hart.registers.count := by
  obtain ⟨-, kept | ⟨_, _, _, written⟩⟩ := execute_registers completes
  · rw [kept]
  · rw [written, Registers.count_write]

/-! ## Fewer registers -/

theorem initial_of_create {config : Config} {hart : Hart x} (created : create config = .ok hart) :
    hart = initial config ∧ 1 ≤ config.registerCount ∧
      config.registerCount ≤ Registers.maxCount := by
  unfold create at created
  cases checked : config.check x with
  | error error =>
      rw [checked] at created
      cases created
  | ok _ =>
      rw [checked] at created
      cases created
      unfold Config.check at checked
      split at checked
      · cases checked
      · rename_i counted
        exact ⟨rfl, Decidable.not_not.mp counted⟩

/-- The second hart has the given number of registers and the first one all of them, and they agree
on the rest. -/
structure Reduces (count : Nat) (full reduced : Hart x) : Prop
    extends AgreeOn (·.toNat < count) full reduced where
  fullCount : full.registers.count = Registers.maxCount
  reducedCount : reduced.registers.count = count

namespace Reduces

variable {count : Nat} {full reduced : Hart x}

theorem of_create {config : Config}
    (fullMade : create { config with registerCount := Registers.maxCount } = .ok full)
    (reducedMade : create { config with registerCount := count } = .ok reduced) :
    Reduces count full reduced := by
  obtain ⟨rfl, -, -⟩ := initial_of_create fullMade
  obtain ⟨rfl, positive, bounded⟩ := initial_of_create reducedMade
  have number : (Registers.zeros count : Registers x).count = count :=
    Registers.count_zeros positive bounded
  have zeros (register : Register) (inside : register.toNat < count) :
      (Registers.zeros count : Registers x).get? register.toNat =
        (Registers.zeros Registers.maxCount).get? register.toNat := by
    rw [Registers.get?_zeros (number.symm ▸ inside), Registers.get?_zeros register.isLt]
  exact
    { rest := rfl
      registers := zeros
      fullCount := rfl
      reducedCount := number }

/-- Other changes keep the numbers of registers. -/
theorem map (reduces : Reduces count full reduced) (change : Hart x → Hart x)
    (commutes : ∀ count registers hart,
      change (withRegisters count registers hart) = withRegisters count registers (change hart))
    (keeps : ∀ hart, (change hart).registers = hart.registers) :
    Reduces count (change full) (change reduced) where
  toAgreeOn := reduces.toAgreeOn.map change commutes keeps
  fullCount := by rw [keeps, reduces.fullCount]
  reducedCount := by rw [keeps, reduces.reducedCount]

theorem bits_eq (reduces : Reduces count full reduced) (call : Call) :
    reduced.bits call = full.bits call := by
  rw [reduces.rest]
  cases call <;> rfl

theorem decode?_eq_some_iff (reduces : Reduces count full reduced) {bits : InstructionBits}
    {instruction : Instruction} :
    reduced.decode? bits = some instruction ↔
      full.decode? bits = some instruction ∧
        ∀ register ∈ instruction.registers, register.toNat < count := by
  have compressed : reduced.config.compressed = full.config.compressed := by rw [reduces.config]
  rw [Hart.decode?_eq_some_iff, Hart.decode?_eq_some_iff, compressed]
  simp only [Registers.Contains, reduces.reducedCount, reduces.fullCount]
  have full (register : Register) : register.toNat < Registers.maxCount := register.isLt
  simp only [full, implies_true, and_true, and_assoc]

theorem decode?_eq (reduces : Reduces count full reduced) {bits : InstructionBits}
    (inside : ∀ instruction, full.decode? bits = some instruction →
      ∀ register ∈ instruction.registers, register.toNat < count) :
    reduced.decode? bits = full.decode? bits :=
  Option.ext fun instruction =>
    reduces.decode?_eq_some_iff.trans (and_iff_left_of_imp (inside instruction))

theorem dispatch_eq (reduces : Reduces count full reduced) {call : Call}
    (inside : ∀ bits instruction, full.dispatch call = .ok (bits, instruction) →
      ∀ register ∈ instruction.registers, register.toNat < count) :
    reduced.dispatch call = full.dispatch call := by
  unfold dispatch at inside ⊢
  rw [reduces.bits_eq]
  cases performed : full.bits call with
  | error trap => rfl
  | ok bits =>
      simp only [performed] at inside ⊢
      rw [reduces.decode?_eq]
      intro instruction decoded
      refine inside bits instruction ?_
      rw [decoded]

theorem dispatch_of_missing (reduces : Reduces count full reduced) {call : Call}
    {bits : InstructionBits} {instruction : Instruction}
    (dispatched : full.dispatch call = .ok (bits, instruction))
    (missing : ∃ register ∈ instruction.registers, count ≤ register.toNat) :
    reduced.dispatch call = .error (.exception .illegalInstruction, bits.value) := by
  obtain ⟨performed, decoded⟩ := decode?_of_dispatch dispatched
  have undecoded : reduced.decode? bits = none := by
    refine Option.eq_none_iff_forall_ne_some.mpr fun other meant => ?_
    obtain ⟨same, inside⟩ := reduces.decode?_eq_some_iff.mp meant
    obtain rfl : instruction = other := Option.some.inj (decoded.symm.trans same)
    obtain ⟨register, named, outside⟩ := missing
    exact absurd (inside register named) (Nat.not_lt.mpr outside)
  simp only [dispatch, reduces.bits_eq, performed, undecoded]

theorem execute (reduces : Reduces count full reduced) {instruction : Instruction}
    (inside : ∀ register ∈ instruction.registers, register.toNat < count) (pc : Word x)
    (bits : InstructionBits) :
    Matches (Reduces count) (execute pc bits instruction full)
      (execute pc bits instruction reduced) := by
  have agree := execute_agreeOn reduces.toAgreeOn inside pc bits
  revert agree
  cases first : Hart.execute pc bits instruction full with
  | ok _ after =>
      cases second : Hart.execute pc bits instruction reduced with
      | ok _ after' =>
          exact fun agree =>
            ⟨agree, (execute_count first).trans reduces.fullCount,
              (execute_count second).trans reduces.reducedCount⟩
      | error => exact False.elim
  | error fault after =>
      cases second : Hart.execute pc bits instruction reduced with
      | ok => exact False.elim
      | error fault' after' =>
          rintro ⟨same, -⟩
          rw [execute_error pc bits full first, execute_error pc bits reduced second]
          exact ⟨same, reduces⟩

theorem lockStep (count : Nat) :
    LockStep (Reduces (x := x) count)
      fun instruction => ∀ register ∈ instruction.registers, register.toNat < count where
  pc reduces := reduces.pc
  dispatch reduces _ inside := reduces.dispatch_eq inside
  advanced reduces bits := reduces.map (·.advanced bits) (fun _ _ _ => rfl) fun _ => rfl
  execute reduces _ inside pc bits := reduces.execute inside pc bits
  retire reduces := reduces.map (·.retire) (fun _ _ _ => rfl) fun _ => rfl
  trapped reduces cause value :=
    reduces.map (fun hart => (hart.trapped cause value).2) (fun _ _ _ => rfl) fun _ => rfl

end Reduces

/-- An instruction sees and changes only registers that it names: harts that agree on these, and on
all else but registers, end alike, and every other register keeps what it holds.  So a hart with
few registers goes in lock step with one that has all of them, for as long as the instructions
name registers that it has; the first that names another one is illegal there, and is reported with
its own bits. -/
theorem registers_footprint (x : Xlen) :
    (∀ (instruction : Instruction) (pc : Word x) (bits : InstructionBits) (left right : Hart x),
      AgreeOn (· ∈ instruction.registers) left right →
        Matches (AgreeOn (· ∈ instruction.registers)) (execute pc bits instruction left)
            (execute pc bits instruction right) ∧
          Spares instruction.registers left (execute pc bits instruction left) ∧
          Spares instruction.registers right (execute pc bits instruction right)) ∧
      (∀ (config : Config) (count : Nat) (full reduced : Hart x),
        create { config with registerCount := 32 } = .ok full →
          create { config with registerCount := count } = .ok reduced →
            Reduces count full reduced) ∧
      ∀ (count : Nat) (full reduced : Hart x), Reduces count full reduced →
        ∀ calls : List Call,
          (∀ execution ∈ executions calls full, ∀ register ∈ execution.1.registers,
            register.toNat < count) →
          let last := follow calls reduced
          (history calls full).map (·.outcome) = (history calls reduced).map (·.outcome) ∧
            Reduces count (follow calls full) last ∧
            ∀ call bits instruction,
              (follow calls full).dispatch call = .ok (bits, instruction) →
                (∃ register ∈ instruction.registers, count ≤ register.toNat) →
                  (last.answer call).1 = .trap (.exception .illegalInstruction) last.pc bits.value ∧
                    (last.answer call).2.registers = last.registers := by
  refine ⟨fun instruction pc bits left right agree => ?_, fun _ _ _ _ => .of_create, ?_⟩
  · exact ⟨execute_agreeOn agree (fun _ named => named) pc bits,
      execute_spares pc bits instruction left, execute_spares pc bits instruction right⟩
  · intro count full reduced reduces calls inside last
    obtain ⟨outcomes, remains⟩ := (Reduces.lockStep count).follow reduces inside
    refine ⟨outcomes, remains, fun call bits instruction dispatched missing => ?_⟩
    have traps : last.answer call = last.trapped (.exception .illegalInstruction) bits.value := by
      rw [answer_eq, remains.dispatch_of_missing dispatched missing]
    rw [traps]
    exact ⟨rfl, rfl⟩

/-- With sixteen registers, a compressed instruction on the seventeenth is illegal. -/
theorem registers_footprint_embedded :
    let full : Hart .rv32 := initial { memorySize := 0 }
    let reduced : Hart .rv32 := initial { memorySize := 0, registerCount := 16 }
    let calls : List Call := [.perform (.long 0x00700293)]
    let call : Call := .perform (.short 0x4801)
    Reduces 16 full reduced ∧
      (∀ execution ∈ executions calls full, ∀ register ∈ execution.1.registers,
        register.toNat < 16) ∧
      (follow calls full).dispatch call = .ok (.short 0x4801, .immediate .addi 16 0 0) ∧
      (follow calls reduced).registers.read 5 = 7 ∧
      ((follow calls reduced).answer call).1 = .trap (.exception .illegalInstruction) 4 0x4801 := by
  intro full reduced calls call
  obtain ⟨-, created, lockStep⟩ := registers_footprint .rv32
  have reduces : Reduces 16 full reduced := created { memorySize := 0 } 16 full reduced rfl rfl
  have inside : ∀ execution ∈ executions calls full, ∀ register ∈ execution.1.registers,
      register.toNat < 16 := by decide
  have dispatched : (follow calls full).dispatch call =
      .ok (.short 0x4801, .immediate .addi 16 0 0) := rfl
  have missing := (lockStep 16 full reduced reduces calls inside).2.2 call _ _ dispatched
  exact ⟨reduces, inside, dispatched, by decide, (missing ⟨16, by decide, by decide⟩).1⟩

end Hart

end RiscV
