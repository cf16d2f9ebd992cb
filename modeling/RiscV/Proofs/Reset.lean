import RiscV.Proofs.Footprint
import RiscV.Proofs.LoadStore
import RiscV.Proofs.Loading
import RiscV.Proofs.SelfTest

/-!
# Resets

What is done to a hart changes its parts in place, so its configuration, the sizes of its parts and
register zero stay what they were when it was made.  Therefore a reset brings it back to the state
in which it was made, and a self test brings back its memory too.
-/

namespace RiscV

/-- An operation on a hart, which changes its parts in place.  Unlike a request it never exchanges
the registers or the memory for others. -/
inductive Operation (x : Xlen) where
  | call (call : Call)
  | enterTrap (cause : Cause) (epc value : Word x)
  | reset
  | selfTest
  | setPc (pc : Word x)
  | setRegister (register : Register) (value : Word x)
  | resetRegisters
  | write (address : Nat) (data : ByteArray)
  | clear (address count : Nat)
  | resetMemory
  | loadHex (file : Option ByteArray)
  | loadElf (file : Option ByteArray)
  | setPending (interrupt : Interrupt) (isPending : Bool)
  | onCsrs (operation : CsrOperation x)

theorem Registers.reset_eq_zeros {x : Xlen} {registers : Registers x} {number : Nat}
    (same : registers.count = (zeros number : Registers x).count) :
    registers.reset = zeros number := by
  have count : (zeros number : Registers x).count = max 1 (min number maxCount) :=
    Array.size_replicate
  rw [reset, same, count, zeros]

namespace Hart

variable {x : Xlen}

/-- The hart after an operation, which may have failed. -/
def undergo (hart : Hart x) : Operation x → Hart x
  | .call call => (hart.answer call).2
  | .enterTrap cause epc value => hart.enterTrap cause epc value
  | .reset => hart.reset
  | .selfTest => hart.selfTest.2
  | .setPc pc => hart.setPc pc
  | .setRegister register value => hart.setRegister register value
  | .resetRegisters => { hart with registers := hart.registers.reset }
  | .write address data => finalState (onMemory (Memory.write address data) hart)
  | .clear address count => finalState (onMemory (Memory.clear address count) hart)
  | .resetMemory => { hart with memory := hart.memory.reset }
  | .loadHex file => finalState (loadHex file hart)
  | .loadElf file => finalState (loadElf file hart)
  | .setPending interrupt isPending => hart.setPending interrupt isPending
  | .onCsrs operation => { hart with csrs := hart.csrs.operate operation }

/-- The hart after a list of operations. -/
def undergone : List (Operation x) → Hart x → Hart x
  | [], hart => hart
  | operation :: operations, hart => undergone operations (hart.undergo operation)

/-- What a configuration fixes about a hart, apart from the reset vector. -/
structure Shaped (config : Config) (hart : Hart x) : Prop where
  configured : hart.config = config
  compressed : hart.csrs.compressed = config.compressed
  memorySize : hart.memory.size = config.memorySize
  registerCount : hart.registers.count = config.registerCount
  /-- There is a register zero, and it holds zero. -/
  zero : hart.registers.get? 0 = some 0

namespace Shaped

variable {config : Config} {hart after : Hart x}

/-- Registers that change by a write, if at all, are no obstacle. -/
theorem of_write (shaped : hart.Shaped config) (configured : after.config = hart.config)
    (compressed : after.csrs.compressed = hart.csrs.compressed)
    (memorySize : after.memory.size = hart.memory.size)
    (registers : after.registers = hart.registers ∨
      ∃ register value, after.registers = hart.registers.write register value) :
    after.Shaped config := by
  have kept : after.registers.count = hart.registers.count ∧
      after.registers.get? 0 = hart.registers.get? 0 := by
    rcases registers with kept | ⟨register, value, written⟩
    · rw [kept]
      exact ⟨rfl, rfl⟩
    · rw [written]
      exact ⟨Registers.count_write .., Registers.get?_zero_write ..⟩
  exact
    { configured := configured.trans shaped.configured
      compressed := compressed.trans shaped.compressed
      memorySize := memorySize.trans shaped.memorySize
      registerCount := kept.1.trans shaped.registerCount
      zero := kept.2.trans shaped.zero }

theorem answer (shaped : hart.Shaped config) (call : Call) :
    (hart.answer call).2.Shaped config := by
  have compressed := answer_compressed hart call
  rcases answer_cases hart call with
    ⟨cause, value, trap⟩ | ⟨bits, instruction, after, origin, decoded, completes, answered⟩
  -- A trap keeps registers and memory; an instruction writes at most one register, and only a
  -- store changes memory.
  · rw [trap] at compressed ⊢
    exact shaped.of_write rfl compressed rfl (.inl rfl)
  · obtain ⟨configured, registers⟩ := execute_registers completes
    have memorySize : after.memory.size = hart.memory.size := by
      rcases execute_memory completes with ⟨op, src, base, offset, rfl⟩ | kept
      · have performed := (answer_eq_perform origin).symm.trans answered
        obtain ⟨-, held, stored⟩ := eq_of_store_retired decoded performed
        exact (congrArg (·.memory.size) stored).trans (Memory.size_put held)
      · rw [kept]
        rfl
    rw [answered] at compressed ⊢
    refine shaped.of_write configured compressed memorySize (registers.imp_right ?_)
    exact fun ⟨register, _, value, written⟩ => ⟨register, value, written⟩

theorem follow (shaped : hart.Shaped config) (calls : List Call) :
    (follow calls hart).Shaped config := by
  induction calls generalizing hart with
  | nil => exact shaped
  | cons call calls ih => exact ih (shaped.answer call)

theorem resetRegisters (shaped : hart.Shaped config) :
    { hart with registers := hart.registers.reset }.Shaped config :=
  { shaped with
    registerCount := (Registers.count_reset _).trans shaped.registerCount
    zero := Registers.get?_reset (Array.getElem?_eq_some_iff.mp shaped.zero).1 }

theorem withMemory (shaped : hart.Shaped config) {memory : Memory}
    (same : memory.size = hart.memory.size) : { hart with memory }.Shaped config :=
  { shaped with memorySize := same.trans shaped.memorySize }

theorem onMemory (shaped : hart.Shaped config) {ε α : Type} {action : EStateM ε Memory α}
    (keeps : KeepsSize action) : (finalState (onMemory action hart)).Shaped config := by
  rw [finalState_onMemory]
  exact shaped.withMemory (keeps hart.memory)

theorem resets (shaped : hart.Shaped config) : hart.reset.Shaped config :=
  shaped.resetRegisters.of_write rfl rfl rfl (.inl rfl)

theorem prepared (shaped : hart.Shaped config) (possible : SelfTest.Possible hart) :
    (SelfTest.prepared hart).Shaped config :=
  { shaped.resets with
    memorySize := (Memory.size_overwrite (SelfTest.holds_image possible)).trans
      ((Memory.size_reset _).trans shaped.memorySize) }

theorem cleared (shaped : hart.Shaped config) : (SelfTest.cleared hart).Shaped config :=
  shaped.resets.withMemory (Memory.size_reset _)

theorem selfTest (shaped : hart.Shaped config) : hart.selfTest.2.Shaped config := by
  rw [selfTest_snd]
  split
  · rename_i possible
    exact ((shaped.prepared possible).follow _).cleared
  · exact shaped

/-- No operation changes what is fixed. -/
theorem undergo (shaped : hart.Shaped config) (operation : Operation x) :
    (hart.undergo operation).Shaped config := by
  cases operation with
  | call call => exact shaped.answer call
  | enterTrap cause epc value =>
      have compressed : (hart.enterTrap cause epc value).csrs.compressed =
          hart.csrs.compressed := by
        rw [enterTrap_csrs, CsrFile.compressed_operateAll]
      exact shaped.of_write rfl compressed rfl (.inl rfl)
  | reset => exact shaped.resets
  | selfTest => exact shaped.selfTest
  | setPc | setPending => exact shaped.of_write rfl rfl rfl (.inl rfl)
  | setRegister register value => exact shaped.of_write rfl rfl rfl (.inr ⟨register, value, rfl⟩)
  | resetRegisters => exact shaped.resetRegisters
  | write address data => exact shaped.onMemory (Memory.keepsSize_write address data)
  | clear address count => exact shaped.onMemory (Memory.keepsSize_clear address count)
  | resetMemory => exact shaped.withMemory (Memory.size_reset _)
  | loadHex file => exact shaped.onMemory ((keepsSize_contents file).bind Hex.keepsSize_loadBytes)
  | loadElf file => exact shaped.onMemory ((keepsSize_contents file).bind (Elf.keepsSize_load x))
  | onCsrs operation =>
      exact shaped.of_write rfl (CsrFile.compressed_operate ..) rfl (.inl rfl)

theorem undergone (shaped : hart.Shaped config) (operations : List (Operation x)) :
    (undergone operations hart).Shaped config := by
  induction operations generalizing hart with
  | nil => exact shaped
  | cons operation operations ih => exact ih (shaped.undergo operation)

/-! ## Resets -/

section Resets

variable (shaped : hart.Shaped config) (positive : 1 ≤ config.registerCount)
  (bounded : config.registerCount ≤ Registers.maxCount)
include shaped positive bounded

theorem reset_eq : hart.reset = { initial config with memory := hart.memory } := by
  have registers : hart.registers.reset = Registers.zeros config.registerCount :=
    Registers.reset_eq_zeros (shaped.registerCount.trans
      (Registers.count_zeros positive bounded).symm)
  have csrs : hart.csrs.reset = CsrFile.initial config.compressed :=
    congrArg CsrFile.initial shaped.compressed
  rw [Hart.reset, registers, csrs, shaped.configured]
  rfl

theorem cleared_eq : SelfTest.cleared hart = initial config := by
  have memory : hart.memory.reset = Memory.zeros config.memorySize :=
    congrArg Memory.zeros shaped.memorySize
  rw [SelfTest.cleared, shaped.reset_eq positive bounded, memory]
  rfl

theorem selfTest_eq :
    hart.selfTest = if SelfTest.Possible hart then (true, initial config) else (false, hart) := by
  split
  · rename_i possible
    obtain ⟨calls, tested⟩ := selfTest_of_possible possible
    rw [tested, ((shaped.prepared possible).follow calls).cleared_eq positive bounded]
  · rename_i impossible
    rw [Hart.selfTest, if_neg impossible]

end Resets

end Shaped

theorem shaped_initial {config : Config} (positive : 1 ≤ config.registerCount)
    (bounded : config.registerCount ≤ Registers.maxCount) :
    (initial config : Hart x).Shaped config where
  configured := rfl
  compressed := rfl
  memorySize := Memory.size_zeros _
  registerCount := Registers.count_zeros positive bounded
  zero := Registers.get?_zeros (by rw [Registers.count_zeros positive bounded]; exact positive)

/-- Whatever is done to a new hart, register zero holds zero, and the number of registers, the size
of memory and the configuration stay as they were made.  A reset makes the hart as good as new but
for its memory.  A self test succeeds exactly if there is room for it, and then the hart is as good
as new in all; otherwise nothing changes. -/
theorem reset_undergone {config : Config} {fresh : Hart x} (created : create config = .ok fresh)
    (operations : List (Operation x)) :
    let hart := undergone operations fresh
    hart.registers.get? 0 = some 0 ∧ hart.registers.count = config.registerCount ∧
      hart.memory.size = config.memorySize ∧ hart.config = config ∧
      hart.csrs.compressed = config.compressed ∧
      hart.reset = { fresh with memory := hart.memory } ∧
      (hart.selfTest.1 = true ↔ 64 ≤ hart.memory.size ∧ 6 ≤ hart.registers.count) ∧
      (hart.selfTest.1 = true → hart.selfTest.2 = fresh) ∧
      (hart.selfTest.1 = false → hart.selfTest.2 = hart) := by
  intro hart
  obtain ⟨rfl, positive, bounded⟩ := initial_of_create created
  have shaped : hart.Shaped config := (shaped_initial positive bounded).undergone operations
  refine ⟨shaped.zero, shaped.registerCount, shaped.memorySize, shaped.configured,
    shaped.compressed, shaped.reset_eq positive bounded, ?_⟩
  rw [shaped.selfTest_eq positive bounded]
  by_cases possible : SelfTest.Possible hart
  · rw [if_pos possible]
    exact ⟨⟨fun _ => possible, fun _ => rfl⟩, fun _ => rfl, nofun⟩
  · rw [if_neg possible]
    exact ⟨⟨nofun, fun room => absurd room possible⟩, nofun, fun _ => rfl⟩

/-- A hart with just enough room that has taken an interrupt, and that starts elsewhere than the
test does, passes the test and is as good as new. -/
theorem reset_undergone_interrupted :
    let config : Config :=
      { memorySize := 64, registerCount := 6, resetVector := 0x3C, compressed := false }
    let operations : List (Operation .rv32) :=
      [.write 0x3C ⟨#[0x6F, 0, 0, 0]⟩, .setRegister 5 7, .onCsrs (.write 0x304 0x800 .machine),
        .onCsrs (.write 0x305 0x3D .machine), .onCsrs (.status (.mie true)),
        .setPending .machineExternal true, .call .step]
    let hart := undergone operations (initial config)
    create config = .ok (initial config : Hart .rv32) ∧
      hart.csrs.machine.cause = 0x8000000B ∧ hart.pc = 0x68 ∧
      hart.selfTest = (true, initial config) := by
  intro config operations hart
  have created : create config = .ok (initial config : Hart .rv32) := by
    have checked : config.check .rv32 = .ok () := by decide
    rw [create, checked]
  obtain ⟨-, count, size, -, -, -, passes, renewed, -⟩ := reset_undergone created operations
  have passed : hart.selfTest.1 = true :=
    passes.mpr ⟨Nat.le_of_eq size.symm, Nat.le_of_eq count.symm⟩
  exact ⟨created, by decide, by decide, Prod.ext passed (renewed passed)⟩

end Hart

end RiscV
