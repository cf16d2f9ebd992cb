import RiscV.Proofs.Counters
import RiscV.Proofs.CsrInstruction

/-!
# Writes to the count of instructions

An instruction that writes the count of completed instructions completes itself, and it is counted
after its write.  So the next instruction finds one more than was written; if only the upper half
was written, it finds what was written there, unless the lower half overflows.
-/

namespace RiscV

/-! ## Halves of a count that goes on -/

section Halves

variable (high low : BitVec 32)

theorem setWidth_append_add_one : ((high ++ low) + 1#64).setWidth 32 = low + 1 := by
  rw [BitVec.setWidth_add _ _ (by decide), BitVec.setWidth_append_eq_right]
  rfl

/-- The upper half goes on where the lower one overflows. -/
theorem upper_append_add_one :
    ((high ++ low) + 1#64).extractLsb' 32 32 =
      if low = BitVec.allOnes 32 then high + 1 else high := by
  have whole : (high ++ low).toNat = high.toNat * 2 ^ 32 + low.toNat := by
    rw [BitVec.toNat_append, ← Nat.shiftLeft_add_eq_or_of_lt low.isLt, Nat.shiftLeft_eq]
  have full : low = BitVec.allOnes 32 ↔ low.toNat = 2 ^ 32 - 1 := by
    rw [← BitVec.toNat_inj, BitVec.toNat_allOnes]
  have lowBound := low.isLt
  have highBound := high.isLt
  apply BitVec.eq_of_toNat_eq
  rw [BitVec.extractLsb'_toNat, BitVec.toNat_add, whole, Nat.shiftRight_eq_div_pow]
  split
  · rename_i overflows
    rw [full] at overflows
    rw [BitVec.toNat_add, overflows]
    change (high.toNat * 2 ^ 32 + (2 ^ 32 - 1) + 1) % 2 ^ 64 / 2 ^ 32 % 2 ^ 32 =
      (high.toNat + 1) % 2 ^ 32
    omega
  · rename_i fits
    rw [full] at fits
    change (high.toNat * 2 ^ 32 + low.toNat + 1) % 2 ^ 64 / 2 ^ 32 % 2 ^ 32 = high.toNat
    omega

end Halves

namespace Hart

variable {x : Xlen}

/-- In machine mode, where no interrupt is due, the hart completes an instruction that writes a word
to a control register. -/
structure Commits (hart : Hart x) (csr : Csr) (word : Word x) (after : Hart x) : Prop where
  machine : hart.mode = .machine
  quiet : hart.interrupt? = none
  completes : hart.step = (.retired, after)
  writes : ∃ bits op dest operand number old,
    hart.fetch hart.pc = .ok bits ∧
      hart.decode? bits = some (.csr op dest operand number) ∧
      number.setWidth 16 = csr.number ∧ op.Writes operand ∧
      hart.csrs.peekNumber? csr.number = some old ∧
      word = op.eval old (Execution.operandValue hart.registers operand)

/-- A control register reads as a word in machine mode, and if the next instruction is one on this
register, it completes and leaves the word in the integer register that it names. -/
structure Finds (hart : Hart x) (csr : Csr) (word : Word x) : Prop where
  read : hart.csrs.read csr.number .machine = .ok word
  step : ∀ bits op dest operand number,
    hart.fetch hart.pc = .ok bits →
      hart.decode? bits = some (.csr op dest operand number) →
      number.setWidth 16 = csr.number →
      ∃ after, hart.step = (.retired, after) ∧
        ∀ index, after.registers.get? index =
          if dest ≠ 0 ∧ index = dest.toNat then some word else hart.registers.get? index

section Step

variable {hart after : Hart x} {csr : Csr} {word : Word x}

theorem step_of_completes (completes : hart.step.1 = .retired) :
    hart.step = (.retired, hart.step.2) := Prod.ext completes rfl

theorem step_of_fetch {bits : InstructionBits} (quiet : hart.interrupt? = none)
    (fetched : hart.fetch hart.pc = .ok bits) : hart.step = hart.perform bits := by
  rw [step_eq, quiet, fetched]

/-- Every register that can be written can be read by the next instruction in machine mode. -/
theorem finds_of_peek (machine : hart.mode = .machine) (quiet : hart.interrupt? = none)
    (writable : ¬ csr.number.ReadOnly) (held : hart.csrs.peekNumber? csr.number = some word) :
    hart.Finds csr word where
  read := CsrFile.read_number csr.requiredLevel_le_machine held
  step bits op dest operand number fetched decoded named := by
    have grants : hart.Grants op operand (number.setWidth 16) := by
      rw [named]
      exact ⟨⟨word, held⟩, machine ▸ csr.requiredLevel_le_machine, fun _ => writable⟩
    obtain ⟨old, csrs, registers, held', -, -, read, performed⟩ :=
      changesCsr_of_grants decoded grants
    rw [named] at held'
    cases held'.symm.trans held
    exact ⟨_, (step_of_fetch quiet fetched).trans performed, read⟩

/-- The word is written, and then the instruction is counted. -/
theorem Commits.csrs (commits : hart.Commits csr word after) :
    ∃ csrs, CsrFile.write csr.number word .machine hart.csrs = .ok () csrs ∧
      after.mode = .machine ∧ after.csrs = csrs.retire := by
  obtain ⟨bits, op, dest, operand, number, old, fetched, decoded, named, writes, held, rfl⟩ :=
    commits.writes
  have performed := (step_of_fetch commits.quiet fetched).symm.trans commits.completes
  by_cases grants : hart.Grants op operand (number.setWidth 16)
  · obtain ⟨old', csrs, registers, held', written, -, -, completes⟩ :=
      changesCsr_of_grants decoded grants
    cases completes.symm.trans performed
    rw [named] at held' written
    cases held'.symm.trans held
    rw [commits.machine] at written
    exact ⟨csrs, written writes, commits.machine, rfl⟩
  · have trapped := (perform_of_not_grants decoded grants).symm.trans performed
    cases congrArg Prod.fst trapped

/-- After a write to the count of instructions, the count is one more than what was written, and
still no interrupt is due. -/
theorem Commits.counted (commits : hart.Commits csr word after) {count : BitVec 64}
    (written : CsrFile.write csr.number word .machine hart.csrs =
      .ok () (Counter.retired.set hart.csrs count)) :
    after.csrs.retired = count + 1 ∧ after.mode = .machine ∧ after.interrupt? = none := by
  obtain ⟨csrs, written', machine, counts⟩ := commits.csrs
  cases written'.symm.trans written
  refine ⟨congrArg CsrFile.retired counts, machine, ?_⟩
  have quiet := commits.quiet
  unfold interrupt? at quiet ⊢
  rw [counts, machine]
  rw [commits.machine] at quiet
  exact quiet

theorem Commits.finds_low (commits : hart.Commits csr word after) {count : BitVec 64}
    (written : CsrFile.write csr.number word .machine hart.csrs =
      .ok () (Counter.retired.set hart.csrs count)) :
    after.Finds .minstret (Word.ofDouble (count + 1)) := by
  obtain ⟨counts, machine, quiet⟩ := commits.counted written
  refine finds_of_peek machine quiet (by decide) ?_
  rw [← counts]
  exact (Counter.retired.peekNumber?_low after.csrs).1

end Step

theorem Commits.finds_high {hart after : Hart .rv32} {csr : Csr} {word : BitVec 32}
    (commits : Commits (x := .rv32) hart csr word after) {count : BitVec 64}
    (written : CsrFile.write (x := .rv32) csr.number word .machine hart.csrs =
      .ok () (Counter.retired.set hart.csrs count)) :
    Finds (x := .rv32) after .minstreth ((count + 1).extractLsb' 32 32) := by
  obtain ⟨counts, machine, quiet⟩ := commits.counted written
  refine finds_of_peek machine quiet (by decide) ?_
  rw [← counts]
  exact (Counter.retired.paired after.csrs).peek_high

/-- A write to the count of instructions, or on narrow registers to a half of it, is counted itself.
So the next instruction finds one more than was written in the whole or the lower half, and in the
upper half it finds one more than is there if the lower half has overflowed. -/
theorem committed_count_goes_on :
    (∀ (hart after : Hart .rv64) (word : BitVec 64),
      Commits (x := .rv64) hart .minstret word after →
      after.csrs.retired = word + 1 ∧
        Finds (x := .rv64) after .minstret (word + 1 : BitVec 64)) ∧
    (∀ (hart after : Hart .rv32) (word : BitVec 32),
      Commits (x := .rv32) hart .minstret word after →
      let high := hart.csrs.retired.extractLsb' 32 32
      after.csrs.retired = (high ++ word) + 1 ∧
        Finds (x := .rv32) after .minstret (word + 1 : BitVec 32) ∧
        Finds (x := .rv32) after .minstreth
          (if word = BitVec.allOnes 32 then high + 1 else high : BitVec 32)) ∧
    ∀ (hart after : Hart .rv32) (word : BitVec 32),
      Commits (x := .rv32) hart .minstreth word after →
      let low := hart.csrs.retired.extractLsb' 0 32
      after.csrs.retired = (word ++ low) + 1 ∧
        Finds (x := .rv32) after .minstret (low + 1 : BitVec 32) ∧
        Finds (x := .rv32) after .minstreth
          (if low = BitVec.allOnes 32 then word + 1 else word : BitVec 32) := by
  refine ⟨?_, ?_, ?_⟩
  · intro hart after word commits
    have written := Counter.retired.write_low hart.csrs word
    have whole : CsrFile.writeCounter (x := .rv64) (Counter.retired.value hart.csrs) word = word :=
      BitVec.setWidth_eq word
    rw [whole] at written
    have shown : (Word.ofDouble (word + 1 : BitVec 64) : Word .rv64) = (word + 1 : BitVec 64) :=
      BitVec.setWidth_eq _
    refine ⟨(commits.counted written).1, ?_⟩
    rw [← shown]
    exact commits.finds_low written
  · intro hart after word commits high
    have written := Counter.retired.write_low_narrow hart.csrs word
    refine ⟨(commits.counted written).1, ?_, ?_⟩
    · rw [← setWidth_append_add_one high word]
      exact commits.finds_low written
    · rw [← upper_append_add_one high word]
      exact commits.finds_high written
  · intro hart after word commits low
    have written := Counter.retired.write_high_narrow hart.csrs word
    refine ⟨(commits.counted written).1, ?_, ?_⟩
    · rw [← setWidth_append_add_one word low]
      exact commits.finds_low written
    · rw [← upper_append_add_one word low]
      exact commits.finds_high written

/-- The lower half is filled with ones, so the next instruction finds the upper half advanced. -/
theorem committed_count_goes_on_carry :
    let start : Hart .rv32 := (initial { memorySize := 8 }).setRegister 5 (BitVec.allOnes 32)
    let hart : Hart .rv32 :=
      { start with
        csrs := { start.csrs with retired := 0x500000002 }
        memory := ⟨⟨#[0x73, 0x90, 0x22, 0xB0, 0xF3, 0x20, 0x20, 0xB8]⟩⟩ }
    Commits (x := .rv32) hart .minstret (BitVec.allOnes 32) hart.step.2 ∧
      hart.step.2.csrs.retired = 0x600000000 ∧
      ∃ next, hart.step.2.step = (.retired, next) ∧ next.registers.get? 1 = some 6 := by
  intro start hart
  have commits : Commits (x := .rv32) hart .minstret (BitVec.allOnes 32) hart.step.2 :=
    { machine := rfl
      quiet := by decide
      completes := step_of_completes (by decide +kernel)
      writes := ⟨.long 0xB0229073, .csrrw, 0, .register 5, 0xB02, 2, by decide, by decide,
        by decide, by decide, by decide, rfl⟩ }
  obtain ⟨counted, -, upper⟩ := (committed_count_goes_on.2.1) hart hart.step.2 _ commits
  obtain ⟨next, stepped, read⟩ := upper.step (.long 0xB82020F3) .csrrs 1 (.register 0) 0xB82
    (by decide) (by decide) (by decide)
  exact ⟨commits, counted.trans (by decide), next, stepped, (read 1).trans (by decide)⟩

/-- What is written to the count of instructions is not what the next instruction finds. -/
theorem committed_count_not_found :
    ∃ hart after : Hart .rv64, Commits (x := .rv64) hart .minstret (7 : BitVec 64) after ∧
      after.csrs.retired ≠ 7 ∧ ¬ Finds (x := .rv64) after .minstret (7 : BitVec 64) := by
  let hart : Hart .rv64 :=
    { initial { memorySize := 8 } with
      memory := ⟨⟨#[0x73, 0xD0, 0x23, 0xB0, 0xF3, 0x20, 0x20, 0xB0]⟩⟩ }
  refine ⟨hart, hart.step.2, ⟨rfl, by decide, step_of_completes (by decide +kernel), ?_⟩,
    by decide +kernel, ?_⟩
  · exact ⟨.long 0xB023D073, .csrrw, 0, .immediate 7, 0xB02, 0, by decide, by decide, by decide,
      by decide, by decide, rfl⟩
  · intro finds
    obtain ⟨next, stepped, read⟩ := finds.step (.long 0xB02020F3) .csrrs 1 (.register 0) 0xB02
      (by decide) (by decide) (by decide)
    have found : hart.step.2.step.2.registers.get? 1 = some 7 := by
      rw [stepped]
      exact (read 1).trans (by decide)
    exact absurd found (by decide)

end Hart

end RiscV
