import RiscV.Proofs.Fetching

/-!
# The run of the self test

The words of the test program are fetched from where they were loaded, one after the other, and
each of them but the last completes.  The last one calls the environment, which enters the handler
that the second one has set.  So every hart with room for the test passes it.
-/

namespace RiscV

namespace Hart

variable {x : Xlen}

/-- Four bytes that spell the bits of a long instruction are fetched as such. -/
theorem fetch_of_spells {hart : Hart x} {address : Word x} {word : BitVec 32}
    (aligned : hart.config.alignment.Aligned address.toNat)
    (room : address.toNat + 2 < 2 ^ x.bits) (spells : hart.memory.Spells address.toNat 4 word)
    (long : Compressed.isShort (word.extractLsb' 0 16) = false) :
    hart.fetch address = .ok (.long word) := by
  have next : (address + 2).toNat = address.toNat + 2 := by
    have two : (2 : Word x).toNat = 2 := by cases x <;> rfl
    rw [BitVec.toNat_add, two, Nat.mod_eq_of_lt room]
  have low : hart.memory.Spells (address.toNat + 0) 2 (word.extractLsb' 0 16) :=
    spells.slice (by decide)
  have high : hart.memory.Spells (address + 2).toNat 2 (word.extractLsb' 16 16) :=
    next ▸ spells.slice (by decide)
  have whole : word.extractLsb' 16 16 ++ word.extractLsb' 0 16 = word := by
    have joined : 16 = 0 + 16 := rfl
    exact (BitVec.extractLsb'_append_extractLsb'_eq_extractLsb' joined).trans
      BitVec.extractLsb'_eq_self
  rw [fetch_of_long aligned low long, fetchParcel_of_spells high]
  exact congrArg (fun bits => Except.ok (InstructionBits.long bits)) whole

/-- The first step of a walk. -/
theorem walk_of_step {hart next : Hart x} {outcome : Outcome x}
    (stepped : hart.step = (outcome, next)) (count : Nat) :
    hart.walk (count + 1) = ((hart, outcome) :: (next.walk count).1, (next.walk count).2) := by
  rw [walk, stepped]

end Hart

namespace SelfTest

open Hart

variable {x : Xlen}

/-! ## The program in memory -/

/-- The instructions of the test program. -/
def instructions : List Instruction :=
  [ .immediate .addi 5 0 64
  , .csr .csrrw 0 (.register 5) 0x305
  , .immediate .addi 1 0 5
  , .immediate .addi 2 0 0
  , .register .div 3 1 2
  , .register .rem 4 1 2
  , .ecall ]

theorem meaning_program (x : Xlen) :
    (program.map fun word => (InstructionBits.long word).meaning? x) = instructions.map some := by
  cases x <;> rfl

theorem long_of_mem_program :
    ∀ word ∈ program, Compressed.isShort (word.extractLsb' 0 16) = false := by
  simp [program, Compressed.isShort]

theorem named_of_mem_instructions :
    ∀ instruction ∈ instructions, ∀ register ∈ instruction.registers,
      register.toNat < registerCount := by decide

theorem exists_word {index : Nat} {instruction : Instruction}
    (found : instructions[index]? = some instruction) :
    ∃ word, program[index]? = some word ∧
      (InstructionBits.long word).meaning? x = some instruction := by
  have both := congrArg (·[index]?) (meaning_program x)
  simp only [List.getElem?_map, found, Option.map_some] at both
  exact Option.map_eq_some_iff.mp both

theorem getElem?_flatMap_ofNat {words : List (BitVec 32)} {index place : Nat} {word : BitVec 32}
    (found : words[index]? = some word) (below : place < 4) :
    (words.flatMap fun word => LittleEndian.ofNat 4 word.toNat)[4 * index + place]? =
      some (UInt8.ofNat (word.toNat >>> (8 * place))) := by
  induction words generalizing index with
  | nil => cases found
  | cons first words ih =>
      cases index with
      | zero =>
          cases found
          rw [List.flatMap_cons, Nat.mul_zero, Nat.zero_add, List.getElem?_append_left (by simpa),
            LittleEndian.getElem?_ofNat below]
      | succ index =>
          have behind : 4 * (index + 1) + place - 4 = 4 * index + place := by omega
          rw [List.flatMap_cons, List.getElem?_append_right (by simp; omega),
            LittleEndian.length_ofNat, behind]
          exact ih found

theorem holds_image {hart : Hart x} (possible : Possible hart) :
    hart.memory.reset.Holds 0 image.size := by
  have count : image.size = 28 := by decide
  have room : handler ≤ hart.memory.size := possible.1
  rw [Memory.Holds, Memory.size_reset, count]
  exact Nat.le_trans (by decide) room

theorem spells_prepared {hart : Hart x} (possible : Possible hart) {index : Nat} {word : BitVec 32}
    (found : program[index]? = some word) :
    (prepared hart).memory.Spells (4 * index) 4 word := by
  intro place below
  have inside : index < 7 := (List.getElem?_eq_some_iff.mp found).1
  have count : image.size = 28 := by decide
  rw [prepared, Memory.byte?_overwrite (holds_image possible), if_pos ⟨Nat.zero_le _, by omega⟩,
    Nat.sub_zero, image, List.data_toByteArray, List.getElem?_toArray,
    getElem?_flatMap_ofNat found below]
  rfl

/-! ## The run -/

/-- The hart in the course of the test, before the instruction with the given index. -/
def stage (hart : Hart x) (index : Nat) (registers : Registers x) (csrs : CsrFile x) : Hart x :=
  { prepared hart with pc := BitVec.ofNat x.bits (4 * index), registers, csrs }

section Stage

variable (hart : Hart x) (index : Nat) (registers : Registers x) (csrs : CsrFile x)

theorem stage_registers : (stage hart index registers csrs).registers = registers := rfl

theorem stage_csrs : (stage hart index registers csrs).csrs = csrs := rfl

theorem stage_mode : (stage hart index registers csrs).mode = .machine := rfl

end Stage

/-- Before the instruction with the given index, and no instruction has trapped. -/
structure Reaches (hart : Hart x) (index : Nat) (registers : Registers x) (csrs : CsrFile x) :
    Prop where
  room : registerCount ≤ registers.count
  zero : registers.get? 0 = some 0
  quiet : csrs.status.mie = false
  /-- Every step so far completed, and every longer walk goes on from here. -/
  walk : ∃ events : List (Hart x × Outcome x), (∀ event ∈ events, event.2 = .retired) ∧
    ∀ count, (prepared hart).walk (index + count) =
      (events ++ ((stage hart index registers csrs).walk count).1,
        ((stage hart index registers csrs).walk count).2)

/-- The next step performs the next instruction. -/
theorem step_stage {hart : Hart x} (possible : Possible hart) {index : Nat}
    {registers : Registers x} {csrs : CsrFile x} (reaches : Reaches hart index registers csrs)
    {instruction : Instruction} (found : instructions[index]? = some instruction) :
    ∃ bits,
      (stage hart index registers csrs).step = (stage hart index registers csrs).perform bits ∧
      (stage hart index registers csrs).decode? bits = some instruction ∧
      (stage hart index registers csrs).advanced bits = stage hart (index + 1) registers csrs := by
  obtain ⟨word, written, meaning⟩ := exists_word (x := x) found
  have inside : index < 7 := (List.getElem?_eq_some_iff.mp found).1
  have room : 4 * index + 4 < 2 ^ x.bits := by
    have wide : 2 ^ 32 ≤ 2 ^ x.bits := by cases x <;> decide
    omega
  have place : (stage hart index registers csrs).pc.toNat = 4 * index := by
    rw [stage, BitVec.toNat_ofNat, Nat.mod_eq_of_lt (by omega)]
  have quiet : (stage hart index registers csrs).interrupt? = none := by
    -- In machine mode nothing is taken while interrupts are off, whatever is pending.
    have off : ¬ (Privilege.machine < .machine ∨ csrs.status.mie = true) := by
      rw [reaches.quiet]
      decide
    exact if_neg off
  have fetched : (stage hart index registers csrs).fetch (stage hart index registers csrs).pc =
      .ok (.long word) := by
    have spells := spells_prepared possible written
    apply fetch_of_spells
    · exact place ▸ Config.aligned_of_word (Nat.dvd_mul_right 4 index)
    · omega
    · exact place ▸ spells
    · exact long_of_mem_program word (List.mem_of_getElem? written)
  refine ⟨.long word, by rw [step_eq, quiet, fetched], ?_, ?_⟩
  · refine decode?_eq_some_iff.mpr ⟨nofun, meaning, fun register named => ?_⟩
    have bound := named_of_mem_instructions instruction (List.mem_of_getElem? found) register named
    exact Nat.lt_of_lt_of_le bound reaches.room
  · have next : BitVec.ofNat x.bits (4 * index) + BitVec.ofNat x.bits 4 =
        BitVec.ofNat x.bits (4 * (index + 1)) := by
      rw [← BitVec.ofNat_add, Nat.mul_succ]
    exact congrArg (stage hart index registers csrs).setPc next

namespace Reaches

variable {hart : Hart x} {registers : Registers x} {csrs : CsrFile x}

theorem prepared_eq_stage (hart : Hart x) :
    prepared hart =
      stage hart 0 hart.registers.reset (CsrFile.initial hart.csrs.compressed) := rfl

theorem start (possible : Possible hart) :
    Reaches hart 0 hart.registers.reset (CsrFile.initial hart.csrs.compressed) where
  room := by
    rw [Registers.count_reset]
    exact possible.2
  zero := Registers.get?_reset (Nat.lt_of_lt_of_le (by decide) possible.2)
  quiet := rfl
  walk := by
    refine ⟨[], fun _ member => absurd member List.not_mem_nil, fun count => ?_⟩
    rw [Nat.zero_add, List.nil_append, ← prepared_eq_stage]

theorem contains {index : Nat} (reaches : Reaches hart index registers csrs) {register : Register}
    (below : register.toNat < registerCount) : registers.Contains register :=
  Nat.lt_of_lt_of_le below reaches.room

section Next

variable {index : Nat} (reaches : Reaches hart index registers csrs) (possible : Possible hart)
include reaches possible

/-- An instruction that completes leads to the next one. -/
theorem next {instruction : Instruction} (found : instructions[index]? = some instruction)
    {dest : Register} {value : Word x} {csrs' : CsrFile x} (status : csrs'.status = csrs.status)
    (completes : ∀ pc bits, execute pc bits instruction (stage hart (index + 1) registers csrs) =
      .ok () (stage hart (index + 1) (registers.write dest value) csrs')) :
    Reaches hart (index + 1) (registers.write dest value) csrs'.retire := by
  obtain ⟨bits, performs, decoded, advanced⟩ := step_stage possible reaches found
  have stepped : (stage hart index registers csrs).step =
      (.retired, stage hart (index + 1) (registers.write dest value) csrs'.retire) := by
    rw [performs, perform_eq, decoded, advanced]
    simp only [completes]
    rfl
  obtain ⟨events, retired, walked⟩ := reaches.walk
  refine
    { room := (Registers.count_write registers dest value).symm ▸ reaches.room
      zero := (Registers.get?_zero_write ..).trans reaches.zero
      quiet := (congrArg Status.mie status).trans reaches.quiet
      walk := ⟨events ++ [(stage hart index registers csrs, .retired)], ?_, fun count => ?_⟩ }
  · intro event member
    rcases List.mem_append.mp member with earlier | last
    · exact retired event earlier
    · rw [List.mem_singleton.mp last]
  · have split : index + 1 + count = index + (count + 1) := by omega
    rw [split, walked, walk_of_step stepped, List.append_assoc]
    rfl

theorem loadImmediate {dest : Register} {value : BitVec 12}
    (found : instructions[index]? = some (.immediate .addi dest 0 value)) :
    Reaches hart (index + 1) (registers.write dest (value.signExtend x.bits)) csrs.retire := by
  refine reaches.next possible found rfl fun _ _ => ?_
  have zero : registers.read 0 = 0 := congrArg (·.getD 0) reaches.zero
  have sum : registers.read 0 + value.signExtend x.bits = value.signExtend x.bits := by
    rw [zero]
    exact BitVec.zero_add _
  rw [← sum]
  rfl

theorem calculate {op : RegisterOp} {dest left right : Register} {value : Word x}
    (found : instructions[index]? = some (.register op dest left right))
    (result : op.eval (registers.read left) (registers.read right) = value) :
    Reaches hart (index + 1) (registers.write dest value) csrs.retire :=
  reaches.next possible found rfl fun _ _ => result ▸ rfl

theorem setVector {src : Register}
    (found : instructions[index]? = some (.csr .csrrw 0 (.register src) 0x305)) :
    Reaches hart (index + 1) (registers.write 0 0)
      (csrs.setVector .machine (registers.read src)).retire := by
  refine reaches.next possible found rfl fun pc bits => ?_
  have written : CsrFile.write ((0x305 : BitVec 12).setWidth 16)
      (CsrOp.csrrw.eval 0 (Execution.operandValue registers (.register src))) .machine csrs =
        .ok () (csrs.setVector .machine (registers.read src)) :=
    CsrFile.write_number (Csr.requiredLevel_le_machine .mtvec) (by decide) rfl
  simp only [execute, Execution.changeCsr_apply, and_self, if_true, true_or, stage_registers,
    stage_csrs, stage_mode, written]
  rfl

end Next

/-- The call ends the test in the handler. -/
theorem call (reaches : Reaches hart 6 registers csrs) (possible : Possible hart) :
    ∃ events, earlyTrap? events = none ∧
      (prepared hart).walk program.length =
        (events, ((stage hart 6 registers csrs).trapped (.exception .machineCall) 0).2) := by
  have last : instructions[6]? = some .ecall := rfl
  obtain ⟨bits, performs, decoded, advanced⟩ := step_stage possible reaches last
  have stepped : (stage hart 6 registers csrs).step =
      (stage hart 6 registers csrs).trapped (.exception .machineCall) 0 := by
    rw [performs, perform_eq, decoded, advanced]
    rfl
  obtain ⟨events, retired, walked⟩ := reaches.walk
  have ends : (prepared hart).walk program.length = _ := walked 1
  rw [walk_of_step stepped] at ends
  refine ⟨_, ?_, ends⟩
  rw [earlyTrap?, List.find?_eq_none]
  intro outcome member
  obtain ⟨event, earlier, rfl⟩ := List.mem_map.mp member
  rw [Hart.walk, List.dropLast_concat] at earlier
  rw [retired event earlier]
  exact Bool.false_ne_true

end Reaches

/-- The hart gets to the division with the operands in their registers and with the vector set. -/
theorem reaches_division {hart : Hart x} (possible : Possible hart) :
    ∃ registers csrs, Reaches hart 4 registers csrs ∧ registers.read 1 = 5 ∧
      registers.read 2 = 0 ∧ csrs.machine.vector = ⟨64⟩ := by
  have start := Reaches.start possible
  have first := start.loadImmediate possible rfl
  have second := first.setVector possible rfl
  have third := second.loadImmediate possible rfl
  have fourth := third.loadImmediate possible rfl
  refine ⟨_, _, fourth, ?_, ?_, ?_⟩
  · rw [Registers.read_write_of_ne (by decide),
      Registers.read_write_self (by decide) (second.contains (by decide))]
    cases x <;> rfl
  · rw [Registers.read_write_self (by decide) (third.contains (by decide))]
    cases x <;> rfl
  · change TrapVector.zero.write _ = _
    rw [Registers.read_write_self (by decide) (start.contains (by decide))]
    cases x <;> rfl

/-- The hart gets to the call with the results of the divisions and with the vector set. -/
theorem reaches_call {hart : Hart x} (possible : Possible hart) :
    ∃ registers csrs, Reaches hart 6 registers csrs ∧ registers.read 1 = 5 ∧
      registers.read 3 = BitVec.allOnes x.bits ∧ registers.read 4 = 5 ∧
      csrs.machine.vector = ⟨64⟩ := by
  obtain ⟨registers, csrs, reaches, dividend, divisor, vector⟩ := reaches_division possible
  have quotient : RegisterOp.div.eval (registers.read 1) (registers.read 2) =
      BitVec.allOnes x.bits := if_pos divisor
  have divided := reaches.calculate possible rfl quotient
  have remainder : RegisterOp.rem.eval ((registers.write 3 (BitVec.allOnes x.bits)).read 1)
      ((registers.write 3 (BitVec.allOnes x.bits)).read 2) = 5 := by
    rw [Registers.read_write_of_ne (by decide), Registers.read_write_of_ne (by decide), dividend]
    exact if_pos divisor
  have ended := divided.calculate possible rfl remainder
  refine ⟨_, _, ended, ?_, ?_, ?_, vector⟩
  · rw [Registers.read_write_of_ne (by decide), Registers.read_write_of_ne (by decide), dividend]
  · rw [Registers.read_write_of_ne (by decide),
      Registers.read_write_self (by decide) (reaches.contains (by decide))]
  · rw [Registers.read_write_self (by decide) (divided.contains (by decide))]

/-- A call after correct divisions passes every check. -/
theorem failures_call {hart : Hart x} {registers : Registers x} {csrs : CsrFile x}
    (dividend : registers.read 1 = 5) (quotient : registers.read 3 = BitVec.allOnes x.bits)
    (remainder : registers.read 4 = 5) (vector : csrs.machine.vector = ⟨64⟩) :
    failures ((stage hart 6 registers csrs).trapped (.exception .machineCall) 0).2 = [] := by
  -- The last state gets a name, so that the checks are evaluated on its parts only.
  generalize ended : ((stage hart 6 registers csrs).trapped (.exception .machineCall) 0).2 = last
  have kept : last.registers = registers := by rw [← ended]; rfl
  have cause : last.csrs.peek? .mcause = some 11 := by
    rw [← ended]
    cases x <;> rfl
  have epc : last.csrs.peek? .mepc = some (BitVec.ofNat x.bits callAddress) := by
    rw [← ended]
    change some (BitVec.ofNat x.bits (4 * 6) &&& csrs.epcMask) = _
    unfold CsrFile.epcMask
    split <;> cases x <;> rfl
  have pc : last.pc = 64 := by
    rw [← ended, trapped_pc, handlerAddress, stage_csrs, vector]
    cases x <;> rfl
  have expansion : ((Compressed.expand? x 0x4511).map Instruction.encode).getD 0 = 0x00400513 := by
    cases x <;> rfl
  simp only [failures, checks, kept, dividend, quotient, remainder, cause, epc, pc, expansion]
  cases x <;> decide

/-- A hart passes the test if it has room for it. -/
theorem passes_prepared {hart : Hart x} (possible : Possible hart) :
    passes ((prepared hart).walk program.length).1 ((prepared hart).walk program.length).2 =
      true := by
  obtain ⟨registers, csrs, reaches, dividend, quotient, remainder, vector⟩ := reaches_call possible
  obtain ⟨events, none, walked⟩ := reaches.call possible
  rw [walked, passes, none, failures_call dividend quotient remainder vector]
  rfl

end SelfTest

namespace Hart

variable {x : Xlen}

theorem selfTest_of_possible {hart : Hart x} (possible : SelfTest.Possible hart) :
    ∃ calls, hart.selfTest = (true, SelfTest.cleared (follow calls (SelfTest.prepared hart))) := by
  have passes := SelfTest.passes_prepared possible
  refine ⟨List.replicate SelfTest.program.length .step, ?_⟩
  rw [← walk_snd, ← passes, selfTest, if_pos possible]

end Hart

end RiscV
