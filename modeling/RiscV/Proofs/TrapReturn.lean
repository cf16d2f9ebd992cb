import RiscV.Proofs.Alignment

/-!
# Returns from traps

The return from a trap undoes its entry: execution goes on where it was interrupted, at the same
level and with interrupts enabled or disabled as before.  What remains of the trap is what it left
in the trap registers, and the status fields that the return resets.
-/

namespace RiscV

theorem AccessSize.and_not_of_aligned {x : Xlen} {size : AccessSize} {word : Word x}
    (aligned : size.Aligned word.toNat) :
    word &&& ~~~((BitVec.allOnes size.places).setWidth x.bits) = word := by
  apply BitVec.eq_of_getLsbD_eq
  intro index inside
  by_cases low : index < size.places
  · have clear := congrArg (·.getLsbD index) (AccessSize.aligned_iff_setWidth.mp aligned)
    have clear : word.getLsbD index = false := by simpa [low] using clear
    rw [BitVec.getLsbD_and, clear, Bool.false_and]
  · simp [low, inside]

/-- Where an instruction can be, the trap register for addresses loses nothing. -/
theorem CsrFile.and_epcMask_of_aligned {x : Xlen} {file : CsrFile x} {config : Config}
    {address : Word x} (compressed : file.compressed = config.compressed)
    (aligned : config.alignment.Aligned address.toNat) : address &&& file.epcMask = address := by
  have mask : file.epcMask =
      ~~~((BitVec.allOnes config.alignment.places).setWidth x.bits) := by
    unfold epcMask Config.alignment
    rw [compressed]
    cases config.compressed <;> cases x <;> rfl
  rw [mask]
  exact AccessSize.and_not_of_aligned aligned

namespace Hart

open Execution

variable {x : Xlen} {hart : Hart x} {config : Config}

/-- The hart after a trap and a return from it. -/
def returned (hart : Hart x) (cause : Cause) (value : Word x) (cycles : BitVec 64) : Hart x :=
  { hart with
    csrs :=
      { hart.csrs with
        status := { hart.csrs.status with mpie := true, mpp := .user }
        machine := { hart.csrs.machine with epc := hart.pc, cause := cause.toWord, value }
        cycles := hart.csrs.cycles + cycles
        retired := hart.csrs.retired + 1 } }

theorem decode?_mret (hart : Hart x) : hart.decode? (.long 0x30200073) = some .mret := by
  refine decode?_eq_some_iff.mpr ⟨nofun, ?_, nofun⟩
  cases x <;> rfl

theorem perform_mret (machine : hart.mode = .machine) :
    hart.perform (.long 0x30200073) =
      (.retired,
        { hart.setStatus hart.csrs.status.leave with
          mode := hart.csrs.status.mpp
          pc := hart.csrs.machine.epc }.retire) := by
  have reached : ¬ (hart.advanced (.long 0x30200073)).mode < .machine := by
    change ¬ hart.mode < .machine
    rw [machine]
    decide
  simp only [perform_eq, decode?_mret, execute_mret, if_neg reached]
  rfl

namespace Placed

theorem setEpc_pc (placed : hart.Placed config) :
    hart.csrs.setEpc .machine hart.pc =
      { hart.csrs with machine := { hart.csrs.machine with epc := hart.pc } } := by
  have kept : hart.pc &&& hart.csrs.epcMask = hart.pc :=
    CsrFile.and_epcMask_of_aligned placed.compressed placed.pc
  simp only [CsrFile.setEpc, CsrFile.modifyTraps, kept]

theorem perform_mret_enterTrap (placed : hart.Placed config) (cause : Cause) (value : Word x) :
    (hart.enterTrap cause hart.pc value).perform (.long 0x30200073) =
      (.retired, hart.returned cause value 1) := by
  rw [perform_mret rfl, enterTrap, placed.setEpc_pc]
  rfl

/-- The trap that a call ends in takes a cycle of its own. -/
theorem perform_mret_trapped (placed : hart.Placed config) (cause : Cause) (value : Word x) :
    (hart.trapped cause value).2.perform (.long 0x30200073) =
      (.retired, hart.returned cause value 2) := by
  have cycles : hart.csrs.cycles + 1 + 1 = hart.csrs.cycles + 2 := BitVec.add_assoc ..
  rw [perform_mret rfl, trapped, enterTrap, placed.setEpc_pc, returned, ← cycles]
  rfl

end Placed

/-- Unless the program counter was set from outside, a trap and the return from it leave the hart as
it was, apart from what the trap registers and the counters have recorded, and from the status
fields that the return resets.  This holds of a trap that is entered from outside and of one that a
call ends in, an interrupt for instance. -/
theorem perform_mret_of_trap {start : Hart x} (created : create config = .ok start)
    {requests : List (Request x)} (other : ∀ pc, .setPc pc ∉ requests) (cause : Cause)
    (value : Word x) :
    let hart := served requests start
    (hart.enterTrap cause hart.pc value).perform (.long 0x30200073) =
        (.retired, hart.returned cause value 1) ∧
      ∀ call epc after, hart.answer call = (.trap cause epc value, after) →
        after.perform (.long 0x30200073) = (.retired, hart.returned cause value 2) := by
  intro hart
  have placed : hart.Placed config := (placed_of_create created).served other
  refine ⟨placed.perform_mret_enterTrap cause value, ?_⟩
  intro call epc after ends
  have entered := congrArg Prod.snd (eq_trapped ends).2
  rw [show after = (hart.trapped cause value).2 from entered]
  exact placed.perform_mret_trapped cause value

/-- The timer interrupts user mode, which goes on after the return. -/
theorem perform_mret_of_trap_timer :
    let config : Config := { memorySize := 0 }
    let requests : List (Request .rv32) :=
      [.onCsrs (.write 0x304 0x080 .machine), .onCsrs (.write 0x341 6 .machine),
        .call (.perform (.long 0x30200073)), .setPending .machineTimer true]
    let hart : Hart .rv32 := served requests (initial config)
    create config = .ok (initial config : Hart .rv32) ∧
      (∀ pc, .setPc pc ∉ requests) ∧
      hart.mode = .user ∧ hart.pc = 6 ∧
      hart.step.1 = .trap (.interrupt .machineTimer) hart.pc 0 ∧
      hart.step.2.mode = .machine ∧
      hart.step.2.perform (.long 0x30200073) =
        (.retired, hart.returned (.interrupt .machineTimer) 0 2) := by
  intro config requests hart
  have created : create config = .ok (initial config : Hart .rv32) := rfl
  have other : ∀ pc, .setPc pc ∉ requests := by
    intro pc member
    simp only [requests, List.mem_cons, List.not_mem_nil, reduceCtorEq, or_self] at member
  have taken : hart.step.1 = .trap (.interrupt .machineTimer) hart.pc 0 := by decide
  have restores := (perform_mret_of_trap created other (.interrupt .machineTimer) 0).2
  refine ⟨created, other, by decide, by decide, taken, by decide, ?_⟩
  exact restores .step hart.pc hart.step.2 (Prod.ext taken rfl)

end Hart

end RiscV
