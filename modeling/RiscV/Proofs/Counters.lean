import RiscV.Proofs.LockStep
import RiscV.Proofs.Request

/-!
# Counters

A hart counts cycles and the instructions that complete.  Whichever way a call ends, it takes one
cycle, and completes at most one instruction; so the counters account for a list of calls, as long
as no instruction writes one of them.  Each counter is in a register of machine mode, of which every
mode has a view, and on narrow registers in a pair of them.
-/

namespace RiscV

/-- What a hart counts. -/
inductive Counter where
  | cycles
  | retired
  deriving DecidableEq, Repr

namespace Counter

variable {x : Xlen}

/-- The register that holds the count, or its lower half if registers are narrow. -/
def low : Counter → Csr
  | cycles => .mcycle
  | retired => .minstret

/-- The register that holds the upper half. -/
def high : Counter → Csr
  | cycles => .mcycleh
  | retired => .minstreth

/-- The view of the register that holds the count or its lower half. -/
def lowView : Counter → Csr
  | cycles => .cycle
  | retired => .instret

/-- The view of the register that holds the upper half. -/
def highView : Counter → Csr
  | cycles => .cycleh
  | retired => .instreth

/-- The count. -/
def value (file : CsrFile x) : Counter → BitVec 64
  | cycles => file.cycles
  | retired => file.retired

/-- The file with another count. -/
def set (file : CsrFile x) (count : BitVec 64) : Counter → CsrFile x
  | cycles => { file with cycles := count }
  | retired => { file with retired := count }

/-- Whether a call that ends this way is counted. -/
def Counts (outcome : Outcome x) : Counter → Prop
  | cycles => True
  | retired => outcome = .retired

instance (outcome : Outcome x) : DecidablePred (Counts outcome)
  | cycles => .isTrue trivial
  | retired => inferInstanceAs (Decidable (outcome = .retired))

end Counter

namespace Instruction

/-- The instruction writes the register, unless it faults. -/
def Writes (csr : Csr) : Instruction → Prop
  | .csr op _ operand number =>
      (op = .csrrw ∨ operand.field ≠ 0) ∧ number.setWidth 16 = csr.number
  | _ => False

/-- The instruction writes the counter, or a half of it, unless it faults. -/
def WritesCounter (instruction : Instruction) (counter : Counter) : Prop :=
  instruction.Writes counter.low ∨ instruction.Writes counter.high

end Instruction

/-! ## Runs -/

namespace Counter

open Hart

variable {x : Xlen} (counter : Counter)

theorem value_of_assign? {file after : CsrFile x} {csr : Csr} {value : Word x}
    (apart : csr ≠ counter.low) (apart' : csr ≠ counter.high)
    (assigned : file.assign? csr value = some after) :
    counter.value after = counter.value file := by
  cases counter with
  | cycles =>
      cases csr with
      | mcycle => exact absurd rfl apart
      | mcycleh => exact absurd rfl apart'
      | minstreth =>
          rw [CsrFile.assign?] at assigned
          split at assigned
          · cases assigned
          · cases assigned
            rfl
      | cycle | instret | cycleh | instreth | mvendorid | marchid | mimpid | mhartid =>
          cases assigned
      | _ =>
          cases assigned
          rfl
  | retired =>
      cases csr with
      | minstret => exact absurd rfl apart
      | minstreth => exact absurd rfl apart'
      | mcycleh =>
          rw [CsrFile.assign?] at assigned
          split at assigned
          · cases assigned
          · cases assigned
            rfl
      | cycle | instret | cycleh | instreth | mvendorid | marchid | mimpid | mhartid =>
          cases assigned
      | _ =>
          cases assigned
          rfl

theorem value_execute {hart after : Hart x} {pc : Word x} {bits : InstructionBits}
    {instruction : Instruction} (unwritten : ¬ instruction.WritesCounter counter)
    (completes : execute pc bits instruction hart = .ok () after) :
    counter.value after.csrs = counter.value hart.csrs := by
  rw [execute_csrs completes]
  cases instruction with
  | csr op dest operand number =>
      rw [instructionOperations]
      split
      · rename_i writes
        rcases hart.csrs.operate_write_cases _ _ _ with same | ⟨csr, named, -, assigned⟩
        · exact congrArg counter.value same
        · refine counter.value_of_assign? ?_ ?_ assigned
          · rintro rfl
            exact unwritten (.inl ⟨writes, named.symm⟩)
          · rintro rfl
            exact unwritten (.inr ⟨writes, named.symm⟩)
      · rfl
  | mret | sret => cases counter <;> rfl
  | _ => rfl

theorem value_trapped (hart : Hart x) (cause : Cause) (info : Word x) :
    counter.value (hart.trapped cause info).2.csrs =
      counter.value hart.csrs +
        BitVec.ofNat 64 (if counter.Counts (hart.trapped cause info).1 then 1 else 0) := by
  cases counter with
  | cycles => rfl
  | retired => exact (BitVec.add_zero hart.csrs.retired).symm

theorem value_retire (hart : Hart x) :
    counter.value hart.retire.csrs =
      counter.value hart.csrs +
        BitVec.ofNat 64 (if counter.Counts (.retired : Outcome x) then 1 else 0) := by
  cases counter <;> rfl

/-- A call counts once, whichever way it ends. -/
theorem value_answer {hart : Hart x} {call : Call}
    (unwritten : ∀ bits instruction, hart.dispatch call = .ok (bits, instruction) →
      (hart.answer call).1 = .retired → ¬ instruction.WritesCounter counter) :
    counter.value (hart.answer call).2.csrs =
      counter.value hart.csrs +
        BitVec.ofNat 64 (if counter.Counts (hart.answer call).1 then 1 else 0) := by
  have answered := answer_eq hart call
  cases dispatched : hart.dispatch call with
  | error trap =>
      simp only [dispatched] at answered
      rw [answered]
      exact counter.value_trapped hart trap.1 trap.2
  | ok performed =>
      obtain ⟨bits, instruction⟩ := performed
      simp only [dispatched] at answered
      cases executed : execute hart.pc bits instruction (hart.advanced bits) with
      | error fault after =>
          rw [executed] at answered
          rw [answered]
          exact counter.value_trapped hart _ _
      | ok _ after =>
          rw [executed] at answered
          have kept := counter.value_execute
            (unwritten bits instruction dispatched (congrArg Prod.fst answered)) executed
          rw [answered]
          exact (counter.value_retire after).trans (congrArg (· + _) kept)

theorem value_follow {hart : Hart x} {calls : List Call}
    (unwritten : ∀ execution ∈ executions calls hart, execution.2 = .retired →
      ¬ execution.1.WritesCounter counter) :
    counter.value (follow calls hart).csrs =
      counter.value hart.csrs +
        BitVec.ofNat 64 ((history calls hart).countP (counter.Counts ·.outcome)) := by
  induction calls generalizing hart with
  | nil => exact (BitVec.add_zero _).symm
  | cons call calls ih =>
      rw [forall_executions_cons] at unwritten
      rw [follow, ih unwritten.2, counter.value_answer unwritten.1, history, List.countP_cons,
        BitVec.add_assoc, ← BitVec.ofNat_add, Nat.add_comm]
      simp only [decide_eq_true_eq]

end Counter

/-! ## Halves -/

namespace CsrFile

theorem ofDouble_upper (count : BitVec 64) :
    (Word.ofDouble (count >>> 32) : Word .rv32) = count.extractLsb' 32 32 := by
  apply BitVec.eq_of_getLsbD_eq
  intro index inside
  have inside' : index < 32 := inside
  simp [Word.ofDouble, Xlen.bits, inside']

/-- A write to the lower half leaves the upper half. -/
theorem writeCounter_narrow (count : BitVec 64) (value : BitVec 32) :
    writeCounter (x := .rv32) count value = count.extractLsb' 32 32 ++ value := by
  change count &&& ~~~(BitVec.allOnes 32).setWidth 64 ||| value.setWidth 64 = _
  apply BitVec.eq_of_getLsbD_eq
  intro index inside
  simp only [BitVec.getLsbD_or, BitVec.getLsbD_and, BitVec.getLsbD_not, BitVec.getLsbD_setWidth,
    BitVec.getLsbD_allOnes, BitVec.getLsbD_append, BitVec.getLsbD_extractLsb']
  by_cases lower : index < 32
  · simp [lower, inside]
  · have upper : index - 32 < 32 := by omega
    have place : 32 + (index - 32) = index := by omega
    have outside := BitVec.getLsbD_of_ge value index (by omega)
    simp [lower, inside, upper, place, outside]

/-- A write to the upper half leaves the lower half. -/
theorem writeUpperHalf_narrow (count : BitVec 64) (value : BitVec 32) :
    writeUpperHalf (x := .rv32) count value = value ++ count.extractLsb' 0 32 := by
  change count &&& (BitVec.allOnes 32).setWidth 64 ||| value.setWidth 64 <<< 32 = _
  apply BitVec.eq_of_getLsbD_eq
  intro index inside
  simp only [BitVec.getLsbD_or, BitVec.getLsbD_and, BitVec.getLsbD_shiftLeft,
    BitVec.getLsbD_setWidth, BitVec.getLsbD_allOnes, BitVec.getLsbD_append,
    BitVec.getLsbD_extractLsb']
  by_cases lower : index < 32
  · simp [lower, inside]
  · have upper : index - 32 < 64 := by omega
    simp [lower, inside, upper]

end CsrFile

namespace Counter

open CsrFile

variable {x : Xlen} (counter : Counter)

@[simp]
theorem value_set (file : CsrFile x) (count : BitVec 64) :
    counter.value (counter.set file count) = count := by
  cases counter <;> rfl

@[simp]
theorem set_set (file : CsrFile x) (count count' : BitVec 64) :
    counter.set (counter.set file count) count' = counter.set file count' := by
  cases counter <;> rfl

/-- Both registers show the count, or its lower half if registers are narrow. -/
theorem peekNumber?_low (file : CsrFile x) :
    file.peekNumber? counter.low.number = some (Word.ofDouble (counter.value file)) ∧
      file.peekNumber? counter.lowView.number = some (Word.ofDouble (counter.value file)) := by
  rw [peekNumber?_number, peekNumber?_number]
  cases counter <;> exact ⟨rfl, rfl⟩

theorem peekNumber?_high (file : CsrFile x) :
    file.peekNumber? counter.high.number = upperHalf? (counter.value file) ∧
      file.peekNumber? counter.highView.number = upperHalf? (counter.value file) := by
  rw [peekNumber?_number, peekNumber?_number]
  cases counter <;> exact ⟨rfl, rfl⟩

/-- Every mode can read a view. -/
theorem requiredLevel_view (level : Privilege) :
    counter.lowView.number.requiredLevel ≤ level.level ∧
      counter.highView.number.requiredLevel ≤ level.level := by
  cases counter <;> cases level <;> decide

/-- A write replaces the count as a whole, or its lower half if registers are narrow. -/
theorem write_low (file : CsrFile x) (value : Word x) :
    write counter.low.number value .machine file =
      .ok () (counter.set file (writeCounter (counter.value file) value)) := by
  refine write_number counter.low.requiredLevel_le_machine ?_ ?_
  · cases counter <;> decide
  · cases counter <;> rfl

theorem write_high (file : CsrFile .rv32) (value : Word .rv32) :
    write counter.high.number value .machine file =
      .ok () (counter.set file (writeUpperHalf (counter.value file) value)) := by
  refine write_number counter.high.requiredLevel_le_machine ?_ ?_
  · cases counter <;> decide
  · cases counter <;> rfl

theorem write_low_narrow (file : CsrFile .rv32) (value : BitVec 32) :
    write (x := .rv32) counter.low.number value .machine file =
      .ok () (counter.set file ((counter.value file).extractLsb' 32 32 ++ value)) := by
  rw [← writeCounter_narrow]
  exact counter.write_low file value

theorem write_high_narrow (file : CsrFile .rv32) (value : BitVec 32) :
    write (x := .rv32) counter.high.number value .machine file =
      .ok () (counter.set file (value ++ (counter.value file).extractLsb' 0 32)) := by
  rw [← writeUpperHalf_narrow]
  exact counter.write_high file value

/-- The views read the same as the counter does in machine mode, at every level. -/
structure Viewed (file : CsrFile x) : Prop where
  read_low : file.read counter.low.number .machine = .ok (Word.ofDouble (counter.value file))
  read_lowView : ∀ level,
    file.read counter.lowView.number level = .ok (Word.ofDouble (counter.value file))
  /-- The upper half need not exist, but it does if its view does. -/
  read_highView : ∀ level value,
    file.read counter.highView.number level = .ok value ↔
      file.read counter.high.number .machine = .ok value
  peek_lowView : file.peekNumber? counter.lowView.number = file.peekNumber? counter.low.number
  peek_highView : file.peekNumber? counter.highView.number = file.peekNumber? counter.high.number

theorem viewed (file : CsrFile x) : counter.Viewed file := by
  obtain ⟨low, lowView⟩ := counter.peekNumber?_low file
  obtain ⟨high, highView⟩ := counter.peekNumber?_high file
  refine ⟨?_, fun level => ?_, fun level value => ?_, lowView.trans low.symm,
    highView.trans high.symm⟩
  · exact read_number counter.low.requiredLevel_le_machine low
  · exact read_number (counter.requiredLevel_view level).1 lowView
  · simp only [read_eq_ok_iff, Csr.number_valid, counter.high.requiredLevel_le_machine,
      (counter.requiredLevel_view level).2, high, highView]

/-- On narrow registers a counter is a pair of registers. -/
structure Paired (file : CsrFile .rv32) : Prop where
  peek_low : file.peekNumber? counter.low.number = some ((counter.value file).extractLsb' 0 32)
  peek_high : file.peekNumber? counter.high.number = some ((counter.value file).extractLsb' 32 32)
  /-- A write to one half leaves the other one as it is, and so all other registers. -/
  write_low : ∀ value : BitVec 32,
    write (x := .rv32) counter.low.number value .machine file =
      .ok () (counter.set file ((counter.value file).extractLsb' 32 32 ++ value))
  write_high : ∀ value : BitVec 32,
    write (x := .rv32) counter.high.number value .machine file =
      .ok () (counter.set file (value ++ (counter.value file).extractLsb' 0 32))
  /-- Writes to both halves set the count, whichever comes first. -/
  write_low_high : ∀ low high : BitVec 32,
    EStateM.run (do
      write (x := .rv32) counter.low.number low .machine
      write (x := .rv32) counter.high.number high .machine) file =
      .ok () (counter.set file (high ++ low))
  write_high_low : ∀ low high : BitVec 32,
    EStateM.run (do
      write (x := .rv32) counter.high.number high .machine
      write (x := .rv32) counter.low.number low .machine) file =
      .ok () (counter.set file (high ++ low))

theorem run_seq {ε σ : Type} {first second : EStateM ε σ Unit} {start middle last : σ}
    (leads : first start = .ok () middle) (ends : second middle = .ok () last) :
    EStateM.run (do first; second) start = .ok () last := by
  change EStateM.bind first (fun _ => second) start = .ok () last
  rw [EStateM.bind, leads]
  exact ends

theorem paired (file : CsrFile .rv32) : counter.Paired file where
  peek_low := (counter.peekNumber?_low file).1
  peek_high := (counter.peekNumber?_high file).1.trans (congrArg some (ofDouble_upper _))
  write_low := counter.write_low_narrow file
  write_high := counter.write_high_narrow file
  write_low_high low high := by
    have next := counter.write_high_narrow
      (counter.set file ((counter.value file).extractLsb' 32 32 ++ low)) high
    rw [value_set, set_set, BitVec.extractLsb'_append_eq_right] at next
    exact run_seq (counter.write_low_narrow file low) next
  write_high_low low high := by
    have next := counter.write_low_narrow
      (counter.set file (high ++ (counter.value file).extractLsb' 0 32)) low
    rw [value_set, set_set, BitVec.extractLsb'_append_eq_left] at next
    exact run_seq (counter.write_high_narrow file high) next

/-- Wide registers hold the whole of a counter, so there are none for its upper half. -/
theorem missing_high (file : CsrFile .rv64) {csr : Csr}
    (half : csr ∈ [counter.high, counter.highView]) (level : Privilege) :
    file.peekNumber? csr.number = none ∧
      (∃ error, file.read csr.number level = .error error) ∧
      ∀ value, ∃ error, write csr.number value level file = .error error file := by
  have missing : file.peekNumber? csr.number = none := by
    rw [peekNumber?_number]
    simp only [List.mem_cons, List.not_mem_nil, or_false] at half
    rcases half with rfl | rfl <;> cases counter <;> rfl
  have unread : ¬ ∃ held, file.read csr.number level = .ok held := by
    rintro ⟨held, outcome⟩
    exact absurd (missing.symm.trans (read_eq_ok_iff.mp outcome).2.2) (by simp)
  refine ⟨missing, ?_, fun value => ?_⟩
  · cases outcome : file.read csr.number level with
    | error error => exact ⟨error, rfl⟩
    | ok held => exact absurd ⟨held, outcome⟩ unread
  · cases outcome : write csr.number value level file with
    | error error after =>
        obtain rfl := write_error outcome
        exact ⟨error, rfl⟩
    | ok result after => exact absurd (exists_write_iff.mp ⟨after, outcome⟩).1 unread

end Counter

namespace Hart

variable {x : Xlen}

theorem length_history (calls : List Call) (hart : Hart x) :
    (history calls hart).length = calls.length := by
  induction calls generalizing hart with
  | nil => rfl
  | cons call calls ih => exact congrArg (· + 1) (ih _)

/-- Over calls none of which completes an instruction that writes a counter, the cycles advance by
the number of calls, and the instructions by the number of calls that complete one.  At every point
the views read the same as the counters.  With narrow registers each counter is a pair of registers
that hold its halves; with wide ones there is no register for the upper half. -/
theorem counters_account (x : Xlen) :
    (∀ (hart : Hart x) (calls : List Call),
      (∀ execution ∈ executions calls hart, execution.2 = .retired →
        ∀ counter, ¬ execution.1.WritesCounter counter) →
      (follow calls hart).csrs.cycles = hart.csrs.cycles + BitVec.ofNat 64 calls.length ∧
      (follow calls hart).csrs.retired =
        hart.csrs.retired +
          BitVec.ofNat 64 ((history calls hart).countP (·.outcome = .retired))) ∧
    (∀ (counter : Counter) (file : CsrFile x), counter.Viewed file) ∧
    (∀ (counter : Counter) (file : CsrFile .rv32), counter.Paired file) ∧
    ∀ (counter : Counter) (file : CsrFile .rv64), ∀ csr ∈ [counter.high, counter.highView],
      ∀ level, file.peekNumber? csr.number = none ∧
        (∃ error, file.read csr.number level = .error error) ∧
        ∀ value, ∃ error, CsrFile.write csr.number value level file = .error error file := by
  refine ⟨fun hart calls unwritten => ⟨?_, ?_⟩, fun counter file => counter.viewed file,
    fun counter file => counter.paired file,
    fun counter file csr half level => counter.missing_high file half level⟩
  · have advanced := Counter.cycles.value_follow fun execution member retires =>
      unwritten execution member retires .cycles
    have every : (history calls hart).countP (Counter.cycles.Counts ·.outcome) = calls.length :=
      (List.countP_eq_length.mpr fun _ _ => decide_eq_true trivial).trans
        (length_history calls hart)
    rw [every] at advanced
    exact advanced
  · exact Counter.retired.value_follow fun execution member retires =>
      unwritten execution member retires .retired

/-- In user mode reading the cycles completes, but trying to write them traps.  The cycles are about
to start over. -/
theorem counters_account_user :
    let hart : Hart .rv32 :=
      { initial { memorySize := 0 } with
        csrs := { CsrFile.initial true with cycles := BitVec.allOnes 64, retired := 7 }
        mode := .user }
    let calls : List Call := [.perform (.long 0xC00020F3), .perform (.long 0xB0001073)]
    (∀ execution ∈ executions calls hart, execution.2 = .retired →
      ∀ counter, ¬ execution.1.WritesCounter counter) ∧
    (history calls hart).map (·.outcome) =
      [.retired, .trap (.exception .illegalInstruction) 4 0xB0001073] ∧
    (follow calls hart).csrs.cycles = 1 ∧ (follow calls hart).csrs.retired = 8 := by
  intro hart calls
  have executed : executions calls hart =
      [(.csr .csrrs 1 (.register 0) 0xC00, .retired),
        (.csr .csrrw 0 (.register 0) 0xB00,
          .trap (.exception .illegalInstruction) 4 0xB0001073)] := by decide
  have unwritten : ∀ execution ∈ executions calls hart, execution.2 = .retired →
      ∀ counter, ¬ execution.1.WritesCounter counter := by
    intro execution member retires counter writes
    rw [executed, List.mem_cons, List.mem_singleton] at member
    rcases member with rfl | rfl
    · -- A read of the first register asks for no write.
      rcases writes with ⟨asked, -⟩ | ⟨asked, -⟩ <;> exact absurd asked (by decide)
    · cases retires
  obtain ⟨cycles, retired⟩ := (counters_account .rv32).1 hart calls unwritten
  exact ⟨unwritten, by decide, cycles.trans (by decide), retired.trans (by decide)⟩

end Hart

end RiscV
