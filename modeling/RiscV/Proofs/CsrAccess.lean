import RiscV.Csr.File

/-!
# Access to control registers

An access by number succeeds exactly if the number is valid, the level suffices, the register can
be written in the case of a write, and the register exists.  A write that fails changes nothing.
What can be read can also be written, unless its number says otherwise, and every register that has
a name can be read, apart from the upper halves of counters on wide registers.
Below machine mode only a few registers are left: supervisor mode can write its own eight, and user
mode can read counters and write nothing.
-/

namespace RiscV

namespace Csr

theorem number_valid (csr : Csr) : csr.number.Valid := by cases csr <;> decide

/-- Machine mode can use every register. -/
theorem requiredLevel_le_machine (csr : Csr) :
    csr.number.requiredLevel ≤ Privilege.machine.level := by
  cases csr <;> decide

/-- Whether the register is the upper half of a counter. -/
def isUpperHalf : Csr → Bool
  | mcycleh | minstreth | cycleh | instreth => true
  | _ => false

theorem isUpperHalf_iff (csr : Csr) :
    csr.isUpperHalf = true ↔ csr.number ∈ [0xB80, 0xB82, 0xC80, 0xC82] := by
  cases csr <;> decide

end Csr

namespace CsrNumber

/-- In a number that fits in twelve bits, the upper two of these tell whether the register can be
written. -/
theorem readOnly_iff {number : CsrNumber} (valid : number.Valid) :
    number.ReadOnly ↔ number.extractLsb' 10 2 = 0b11 := by
  have bound : number.toNat < 0x1000 := BitVec.lt_def.mp valid
  rw [ReadOnly, ← BitVec.toNat_inj, ← BitVec.toNat_inj, BitVec.extractLsb'_toNat,
    BitVec.extractLsb'_toNat, Nat.shiftRight_eq_div_pow, Nat.mod_eq_of_lt (by omega),
    Nat.mod_eq_of_lt (by omega)]
  rfl

end CsrNumber

namespace CsrFile

variable {x : Xlen} {file after : CsrFile x} {number : CsrNumber} {level : Privilege}
  {value : Word x}

theorem checkAccess_eq_ok_iff :
    checkAccess number level = .ok () ↔
      number.Valid ∧ number.requiredLevel ≤ level.level := by
  unfold checkAccess
  by_cases valid : number.Valid
  · by_cases short : level.level < number.requiredLevel
    · simp [valid, short, BitVec.not_le]
    · simp [valid, short, BitVec.not_lt.mp short]
  · simp [valid]

theorem read_eq_ok_iff :
    file.read number level = .ok value ↔
      number.Valid ∧ number.requiredLevel ≤ level.level ∧
        file.peekNumber? number = some value := by
  rw [← and_assoc, ← checkAccess_eq_ok_iff, read]
  cases checkAccess number level with
  | error => simp [bind, Except.bind]
  | ok =>
      cases file.peekNumber? number <;> simp [bind, Except.bind]

theorem write_eq_ok_iff :
    write number value level file = .ok () after ↔
      number.Valid ∧ number.requiredLevel ≤ level.level ∧ ¬ number.ReadOnly ∧
        (Csr.ofNumber? number).bind (file.assign? · value) = some after := by
  rw [← and_assoc, ← checkAccess_eq_ok_iff, write]
  cases checkAccess number level with
  | error => simp
  | ok =>
      by_cases readOnly : number.ReadOnly
      · simp [readOnly]
      · cases (Csr.ofNumber? number).bind (file.assign? · value) <;> simp [readOnly]

theorem read_number {csr : Csr} (sufficient : csr.number.requiredLevel ≤ level.level)
    (held : file.peekNumber? csr.number = some value) : file.read csr.number level = .ok value :=
  read_eq_ok_iff.mpr ⟨csr.number_valid, sufficient, held⟩

theorem write_number {csr : Csr} (sufficient : csr.number.requiredLevel ≤ level.level)
    (writable : ¬ csr.number.ReadOnly) (assigned : file.assign? csr value = some after) :
    write csr.number value level file = .ok () after := by
  refine write_eq_ok_iff.mpr ⟨csr.number_valid, sufficient, writable, ?_⟩
  rw [Csr.ofNumber?_number]
  exact assigned

theorem write_error {error : AccessError}
    (fails : write number value level file = .error error after) : after = file := by
  rw [write] at fails
  split at fails
  · cases fails
    rfl
  · split at fails
    · cases fails
      rfl
    · split at fails
      · cases fails
      · cases fails
        rfl

/-- A register that is written can be written, and the level suffices for it. -/
theorem exists_of_write (succeeds : write number value level file = .ok () after) :
    ∃ csr : Csr, csr.number = number ∧ csr.number.requiredLevel ≤ level.level ∧
      ¬ csr.number.ReadOnly ∧ file.assign? csr value = some after := by
  obtain ⟨-, sufficient, writable, assigned⟩ := write_eq_ok_iff.mp succeeds
  obtain ⟨csr, named, held⟩ := Option.bind_eq_some_iff.mp assigned
  obtain rfl := Csr.number_of_ofNumber? named
  exact ⟨csr, rfl, sufficient, writable, held⟩

/-! ## The registers that can be accessed -/

theorem isSome_peek?_iff {csr : Csr} :
    (file.peek? csr).isSome = true ↔ ¬ (x.isWide = true ∧ csr.isUpperHalf = true) := by
  cases csr with
  | mcycleh | minstreth | cycleh | instreth =>
      cases x <;> simp [peek?, upperHalf?, Xlen.isWide, Csr.isUpperHalf]
  | _ => simp [peek?, Csr.isUpperHalf]

/-- What can be read can be written, unless its number says otherwise. -/
theorem isSome_assign?_iff {csr : Csr} :
    (file.assign? csr value).isSome = true ↔
      (file.peek? csr).isSome = true ∧ ¬ csr.number.ReadOnly := by
  have same : (file.assign? csr value).isSome =
      ((file.peek? csr).isSome && !decide csr.number.ReadOnly) := by
    cases csr with
    | mcycleh | minstreth | cycleh | instreth => cases x <;> rfl
    | _ => rfl
  rw [same]
  simp

theorem exists_peekNumber?_iff :
    (∃ held, file.peekNumber? number = some held) ↔
      ∃ csr : Csr, csr.number = number ∧ ¬ (x.isWide = true ∧ csr.isUpperHalf = true) := by
  constructor
  · rintro ⟨held, peeked⟩
    obtain ⟨csr, named, present⟩ := Option.bind_eq_some_iff.mp peeked
    exact ⟨csr, Csr.number_of_ofNumber? named,
      isSome_peek?_iff.mp (Option.isSome_of_eq_some present)⟩
  · rintro ⟨csr, rfl, present⟩
    rw [peekNumber?_number, ← Option.isSome_iff_exists]
    exact isSome_peek?_iff.mpr present

/-- A write succeeds where a read does, if the register can be written. -/
theorem exists_write_iff :
    (∃ after, write number value level file = .ok () after) ↔
      (∃ held, file.read number level = .ok held) ∧ ¬ number.ReadOnly := by
  constructor
  · rintro ⟨after, succeeds⟩
    obtain ⟨csr, rfl, sufficient, writable, assigned⟩ := exists_of_write succeeds
    obtain ⟨present, -⟩ := isSome_assign?_iff.mp (Option.isSome_of_eq_some assigned)
    obtain ⟨held, peeked⟩ := Option.isSome_iff_exists.mp present
    exact ⟨⟨held, read_number sufficient ((peekNumber?_number file csr).trans peeked)⟩, writable⟩
  · rintro ⟨⟨held, succeeds⟩, writable⟩
    obtain ⟨-, sufficient, peeked⟩ := read_eq_ok_iff.mp succeeds
    obtain ⟨csr, named, present⟩ := Option.bind_eq_some_iff.mp peeked
    obtain rfl := Csr.number_of_ofNumber? named
    obtain ⟨after, assigned⟩ := Option.isSome_iff_exists.mp
      (isSome_assign?_iff.mpr ⟨Option.isSome_of_eq_some present, writable⟩)
    exact ⟨after, write_number sufficient writable assigned⟩

/-- Access by number is exact.  A register is read if and only if its number fits in twelve bits,
the level reaches that of the number, where the reserved one is left to machine mode, and the
register is there; it is written if and only if it is read and the number does not forbid writes.
The registers that are there are those with a name, except that wide registers have no upper halves
of counters. -/
theorem access_exact (file : CsrFile x) (number : CsrNumber) (level : Privilege) :
    (∀ held, file.read number level = .ok held ↔
      number < 0x1000 ∧ number.extractLsb' 8 2 ≤ level.level ∧
        file.peekNumber? number = some held) ∧
    (2#2 ≤ level.level ↔ level = .machine) ∧
    (∀ value, (∃ after, write number value level file = .ok () after) ↔
      (∃ held, file.read number level = .ok held) ∧ number.extractLsb' 10 2 ≠ 0b11) ∧
    (∀ value error after, write number value level file = .error error after → after = file) ∧
    ((∃ held, file.peekNumber? number = some held) ↔
      (∃ name, (Csr.ofNumber? number).map Csr.name = some name) ∧
        ¬ (x.isWide = true ∧ number ∈ [0xB80, 0xB82, 0xC80, 0xC82])) := by
  refine ⟨fun held => read_eq_ok_iff, by cases level <;> decide, fun value => ?_,
    fun value error after => write_error, ?_⟩
  · rw [exists_write_iff]
    refine and_congr_right fun ⟨held, succeeds⟩ => not_congr ?_
    exact CsrNumber.readOnly_iff (read_eq_ok_iff.mp succeeds).1
  · rw [exists_peekNumber?_iff]
    constructor
    · rintro ⟨csr, rfl, present⟩
      rw [← Csr.isUpperHalf_iff]
      exact ⟨⟨csr.name, by rw [Csr.ofNumber?_number, Option.map_some]⟩, present⟩
    · rintro ⟨⟨name, named⟩, present⟩
      obtain ⟨csr, found, -⟩ := Option.map_eq_some_iff.mp named
      obtain rfl := Csr.number_of_ofNumber? found
      exact ⟨csr, rfl, fun ⟨wide, upper⟩ => present ⟨wide, csr.isUpperHalf_iff.mp upper⟩⟩

/-- The number of the hart can be read in machine mode alone, and a write to it fails.  The upper
half of a counter has a name, but wide registers do not have it. -/
theorem access_exact_hartid :
    let file : CsrFile .rv64 := initial true
    file.read 0xF14 .machine = .ok 0 ∧ (∀ held, file.read 0xF14 .supervisor ≠ .ok held) ∧
      (∃ error, write 0xF14 1 .machine file = .error error file) ∧
      (Csr.ofNumber? 0xB80).map Csr.name = some "mcycleh" ∧
      ∀ held, file.peekNumber? 0xB80 ≠ some held := by
  intro file
  obtain ⟨read, -, written, fails, -⟩ := access_exact file 0xF14 .machine
  obtain ⟨read', -, -, -, -⟩ := access_exact file 0xF14 .supervisor
  obtain ⟨-, -, -, -, there⟩ := access_exact file 0xB80 .machine
  refine ⟨(read 0).mpr (by decide), fun held succeeds => ?_, ?_, rfl, fun held present => ?_⟩
  · exact absurd ((read' held).mp succeeds).2.1 (by decide)
  · cases outcome : write 0xF14 1 .machine file with
    | ok _ after => exact absurd rfl ((written 1).mp ⟨after, outcome⟩).2
    | error error after =>
        rw [fails 1 error after outcome]
        exact ⟨error, rfl⟩
  · exact (there.mp ⟨held, present⟩).2 (by decide)

end CsrFile

namespace Csr

/-- Every register of user mode is a view of a counter. -/
theorem counter_of_user {csr : Csr}
    (sufficient : csr.number.requiredLevel ≤ Privilege.user.level) :
    csr = .cycle ∨ csr = .instret ∨ csr = .cycleh ∨ csr = .instreth := by
  revert sufficient
  cases csr <;> decide

/-- User mode cannot write a register. -/
theorem readOnly_of_user {csr : Csr}
    (sufficient : csr.number.requiredLevel ≤ Privilege.user.level) : csr.number.ReadOnly := by
  revert sufficient
  cases csr <;> decide

/-- Supervisor mode can write the registers of its own. -/
theorem supervisor_of_writable {csr : Csr}
    (sufficient : csr.number.requiredLevel ≤ Privilege.supervisor.level)
    (writable : ¬ csr.number.ReadOnly) :
    csr ∈ [Csr.sstatus, .sie, .stvec, .sscratch, .sepc, .scause, .stval, .sip] := by
  revert sufficient writable
  cases csr <;> decide

end Csr

end RiscV
