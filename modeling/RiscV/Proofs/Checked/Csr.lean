import RiscV.Proofs.Checked.Status

/-!
# Checked control registers

The control registers as they are stored: whole words, most of them with bits that never change and
with values that are never there.  Each operation on them is done in bits, with every shift and
every place checked, and it is the operation on the fields.  In consequence the stored words are
always those of some fields, and can be read back from them.
-/

namespace RiscV

/-- The registers that describe the traps into one mode, as they are stored. -/
structure TrapWords (x : Xlen) where
  vector : BitVec 64
  scratch : Word x
  epc : Word x
  cause : Word x
  value : Word x
  deriving DecidableEq

/-- The control registers of a hart, as they are stored. -/
structure CsrWords (x : Xlen) where
  /-- Whether the hart has compressed instructions. -/
  compressed : Bool
  mstatus : BitVec 64
  mip : BitVec 16
  mie : BitVec 16
  mideleg : BitVec 16
  medeleg : Word x
  machine : TrapWords x
  supervisor : TrapWords x
  mcycle : BitVec 64
  minstret : BitVec 64
  deriving DecidableEq

/-- The words in which trap registers are stored. -/
def TrapRegisters.words {x : Xlen} (traps : TrapRegisters x) : TrapWords x :=
  { vector := Word.toDouble traps.vector.bits
    scratch := traps.scratch
    epc := traps.epc
    cause := traps.cause
    value := traps.value }

/-- The trap registers that are stored in words. -/
def TrapWords.registers {x : Xlen} (traps : TrapWords x) : TrapRegisters x :=
  { vector := ⟨Word.ofDouble traps.vector⟩
    scratch := traps.scratch
    epc := traps.epc
    cause := traps.cause
    value := traps.value }

/-- The words in which control registers are stored. -/
def CsrFile.words {x : Xlen} (file : CsrFile x) : CsrWords x :=
  { compressed := file.compressed
    mstatus := file.status.toBits x
    mip := file.interrupts.pending.setWidth 16
    mie := file.interrupts.enabled.setWidth 16
    mideleg := file.mideleg.setWidth 16
    medeleg := file.medeleg.setWidth x.bits
    machine := file.machine.words
    supervisor := file.supervisor.words
    mcycle := file.cycles
    minstret := file.retired }

namespace CsrWords

open Checked

variable {x : Xlen}

/-! ## Operations -/

/-- The words after a reset. -/
def initial (compressed : Bool) : Checked (CsrWords x) := do
  return {
    compressed
    mstatus := ← resetStatus x
    mip := 0
    mie := 0
    mideleg := 0
    medeleg := 0
    machine := ⟨0, 0, 0, 0, 0⟩
    supervisor := ⟨0, 0, 0, 0, 0⟩
    mcycle := 0
    minstret := 0 }

/-- The trap registers of a mode. -/
def traps (words : CsrWords x) : TrapMode → TrapWords x
  | .machine => words.machine
  | .supervisor => words.supervisor

/-- Changes the trap registers of a mode. -/
def modifyTraps (words : CsrWords x) (mode : TrapMode) (f : TrapWords x → TrapWords x) :
    CsrWords x :=
  match mode with
  | .machine => { words with machine := f words.machine }
  | .supervisor => { words with supervisor := f words.supervisor }

/-- The bits that the address of an instruction can have. -/
def epcMask (words : CsrWords x) : Word x :=
  Word.ofDouble (if words.compressed then ~~~0b1 else ~~~0b11)

/-- Sets the address of the instruction that trapped, clearing the bits it cannot have. -/
def setEpc (words : CsrWords x) (mode : TrapMode) (address : Word x) : CsrWords x :=
  words.modifyTraps mode fun traps => { traps with epc := address &&& words.epcMask }

/-- A trap vector register after a write.  A reserved mode leaves the old value in place. -/
def writeVector (register value : BitVec 64) : BitVec 64 :=
  if 2 ≤ value &&& 0b11 then register else value

/-- An interrupt register after a write of the bits in a mask. -/
def writeMasked (register mask : BitVec 16) (value : BitVec 64) : BitVec 16 :=
  masked register mask (value.setWidth 16)

/-- The extensions with the given letters. -/
def extensions (letters : List Char) : Checked (BitVec 64) :=
  letters.foldlM (fun set letter => do
    let place ← sub (BitVec.ofNat 8 letter.toNat) (BitVec.ofNat 8 'A'.toNat)
    return set ||| (← shiftLeft 1 place.toNat)) 0

/-- What the machine reports about itself. -/
def misa (compressed : Bool) : Checked (Word x) := do
  let set ← extensions (['I', 'M', 'S', 'U'] ++ if compressed then ['C'] else [])
  let top ← sub (BitVec.ofNat 32 x.bits) 2
  return Word.ofDouble ((← shiftLeft (x.mxl.setWidth 64) top.toNat) ||| set)

/-- The upper half of a counter, on narrow registers. -/
def upperHalf? (counter : BitVec 64) : Checked (Option (Word x)) := do
  if x.isWide then return none else return some (Word.ofDouble (← shiftRight counter 32))

/-- A counter after a write to its upper half. -/
def writeUpperHalf (counter : BitVec 64) (value : Word x) : Checked (BitVec 64) := do
  return (counter &&& 0xFFFFFFFF) ||| (← shiftLeft value.toDouble 32)

/-- The contents of a register, if the hart has it. -/
def peek? (words : CsrWords x) : Csr → Checked (Option (Word x))
  | .mvendorid | .marchid | .mimpid | .mhartid => return some 0
  | .misa => do return some (← misa words.compressed)
  | .mstatus => return some (Word.ofDouble words.mstatus)
  | .medeleg => return some words.medeleg
  | .mideleg => return some (Word.ofDouble (words.mideleg.setWidth 64))
  | .mie => return some (Word.ofDouble (words.mie.setWidth 64))
  | .mtvec => return some (Word.ofDouble words.machine.vector)
  | .mscratch => return some words.machine.scratch
  | .mepc => return some words.machine.epc
  | .mcause => return some words.machine.cause
  | .mtval => return some words.machine.value
  | .mip => return some (Word.ofDouble (words.mip.setWidth 64))
  | .sstatus => return some (Word.ofDouble (words.mstatus &&& 0x300000122))
  | .sie => return some (Word.ofDouble (words.mie.setWidth 64 &&& 0x222))
  | .stvec => return some (Word.ofDouble words.supervisor.vector)
  | .sscratch => return some words.supervisor.scratch
  | .sepc => return some words.supervisor.epc
  | .scause => return some words.supervisor.cause
  | .stval => return some words.supervisor.value
  | .sip => return some (Word.ofDouble (words.mip.setWidth 64 &&& 0x222))
  | .mcycle | .cycle => return some (Word.ofDouble words.mcycle)
  | .minstret | .instret => return some (Word.ofDouble words.minstret)
  | .mcycleh | .cycleh => upperHalf? words.mcycle
  | .minstreth | .instreth => upperHalf? words.minstret

/-- The words after a write to a register, if the hart has it and it can be written. -/
def assign? (words : CsrWords x) (csr : Csr) (value : Word x) : Checked (Option (CsrWords x)) :=
  match csr with
  | .misa => return some words
  | .mstatus => do
      return some { words with mstatus := ← writeStatus value.toDouble words.mstatus }
  | .medeleg => return some { words with medeleg := Word.ofDouble (value.toDouble &&& 0xB3FF) }
  | .mideleg =>
      return some { words with mideleg := writeMasked words.mideleg 0x222 value.toDouble }
  | .mie => return some { words with mie := writeMasked words.mie 0xBBB value.toDouble }
  | .mip => return some { words with mip := writeMasked words.mip 0x333 value.toDouble }
  | .sstatus =>
      return some { words with mstatus := writeSupervisorStatus value.toDouble words.mstatus }
  | .sie => return some { words with mie := writeMasked words.mie 0x222 value.toDouble }
  | .sip => return some { words with mip := writeMasked words.mip 0x002 value.toDouble }
  | .mtvec => return some (words.modifyTraps .machine fun traps =>
      { traps with vector := writeVector traps.vector value.toDouble })
  | .stvec => return some (words.modifyTraps .supervisor fun traps =>
      { traps with vector := writeVector traps.vector value.toDouble })
  | .mscratch =>
      return some (words.modifyTraps .machine fun traps => { traps with scratch := value })
  | .sscratch =>
      return some (words.modifyTraps .supervisor fun traps => { traps with scratch := value })
  | .mepc => return some (words.setEpc .machine value)
  | .sepc => return some (words.setEpc .supervisor value)
  | .mcause => return some (words.modifyTraps .machine fun traps => { traps with cause := value })
  | .scause =>
      return some (words.modifyTraps .supervisor fun traps => { traps with cause := value })
  | .mtval => return some (words.modifyTraps .machine fun traps => { traps with value })
  | .stval => return some (words.modifyTraps .supervisor fun traps => { traps with value })
  | .mcycle => return some { words with mcycle := CsrFile.writeCounter words.mcycle value }
  | .minstret => return some { words with minstret := CsrFile.writeCounter words.minstret value }
  | .mcycleh => do
      if x.isWide then return none
      else return some { words with mcycle := ← writeUpperHalf words.mcycle value }
  | .minstreth => do
      if x.isWide then return none
      else return some { words with minstret := ← writeUpperHalf words.minstret value }
  | .cycle | .instret | .cycleh | .instreth
  | .mvendorid | .marchid | .mimpid | .mhartid => return none

/-- Whether a level may use a register number. -/
def checkAccess (number : CsrNumber) (mode : Privilege) : Checked (Except AccessError Unit) := do
  if ¬ number < (← shiftLeft 1 12) then return .error (.unsupported number)
  else
    let required ← level (((← shiftRight number 8) &&& 0b11).setWidth 8)
    if mode.level < required then return .error (.privileged number required mode)
    else return .ok ()

/-- The contents of the register with the given number, without any check of privilege. -/
def peekNumber? (words : CsrWords x) (number : CsrNumber) : Checked (Option (Word x)) :=
  match Csr.ofNumber? number with
  | some csr => words.peek? csr
  | none => return none

/-- Reads the register with the given number at a privilege level. -/
def read (words : CsrWords x) (number : CsrNumber) (mode : Privilege) :
    Checked (Except AccessError (Word x)) := do
  match ← checkAccess number mode with
  | .error error => return .error error
  | .ok () =>
      match ← words.peekNumber? number with
      | some value => return .ok value
      | none => return .error (.unsupported number)

/-- Writes the register with the given number at a privilege level. -/
def write (number : CsrNumber) (value : Word x) (mode : Privilege) (words : CsrWords x) :
    Checked (EStateM.Result AccessError (CsrWords x) Unit) := do
  match ← checkAccess number mode with
  | .error error => return .error error words
  | .ok () =>
      if (← shiftRight number 10) = 0b11 then return .error (.readOnly number) words
      else
        match Csr.ofNumber? number with
        | none => return .error (.unsupported number) words
        | some csr =>
            match ← words.assign? csr value with
            | some written => return .ok () written
            | none => return .error (.unsupported number) words

/-- The words after an operation. -/
def operate (words : CsrWords x) : CsrOperation x → Checked (CsrWords x)
  | .reset => initial words.compressed
  | .write number value mode => do
      match ← write number value mode words with
      | .ok _ after | .error _ after => return after
  | .setEpc mode address => return words.setEpc mode address
  | .setCause mode cause => return words.modifyTraps mode fun traps => { traps with cause }
  | .setTrapValue mode value => return words.modifyTraps mode fun traps => { traps with value }
  | .setPending interrupt isPending => do
      return { words with mip := ← putBit words.mip interrupt.code isPending }
  | .status change => do return { words with mstatus := ← changeStatus words.mstatus change }
  | .tick => return { words with mcycle := words.mcycle + 1 }
  | .retire => return { words with mcycle := words.mcycle + 1, minstret := words.minstret + 1 }

/-- The words after a list of operations. -/
def operateAll (operations : List (CsrOperation x)) (words : CsrWords x) : Checked (CsrWords x) :=
  operations.foldlM operate words

/-! ## Reading back -/

/-- The fields that the words can be read as, whatever they are. -/
def fields (words : CsrWords x) : CsrFile x :=
  { compressed := words.compressed
    status := Status.initial.write words.mstatus
    interrupts := ⟨words.mip.setWidth 12, words.mie.setWidth 12⟩
    medeleg := words.medeleg.setWidth 16
    mideleg := words.mideleg.setWidth 12
    machine := words.machine.registers
    supervisor := words.supervisor.registers
    cycles := words.mcycle
    retired := words.minstret }

/-- The fields that are stored in the words, if these are the words of any fields. -/
def file (words : CsrWords x) : Checked (CsrFile x) :=
  if words.fields.words = words then .ok words.fields else .error .reserved

/-! ## The operations on fields -/

section Parts

theorem ofDouble_setWidth (set : InterruptSet) :
    (Word.ofDouble ((set.setWidth 16).setWidth 64) : Word x) = set.setWidth x.bits := by
  have wide : (set.setWidth 16).setWidth 64 = set.setWidth 64 :=
    BitVec.setWidth_setWidth fun ⟨narrow, _⟩ => Nat.not_lt_of_le (by decide) narrow
  rw [Word.ofDouble, wide, BitVec.setWidth_setWidth_of_le _ x.bits_le]

theorem setPending_eq (set : InterruptSet) (interrupt : Interrupt) (isPending : Bool) :
    putBit (set.setWidth 16) interrupt.code isPending =
      .ok ((InterruptSet.put set interrupt isPending).setWidth 16) := by
  have inside := interrupt.code_lt
  have put : InterruptSet.put set interrupt isPending = withBit set interrupt.code isPending := rfl
  rw [putBit_eq (by omega), put]
  congr 1
  apply BitVec.eq_of_getLsbD_eq
  intro index below
  rw [getLsbD_withBit _ below, BitVec.getLsbD_setWidth, BitVec.getLsbD_setWidth]
  by_cases low : index < 12
  · rw [getLsbD_withBit _ low]
    simp [below]
  · have apart : index ≠ interrupt.code := by omega
    rw [if_neg apart, BitVec.getLsbD_of_ge _ _ (Nat.le_of_not_lt low),
      BitVec.getLsbD_of_ge _ _ (Nat.le_of_not_lt low)]

theorem writeMasked_eq (set mask : InterruptSet) (value : Word x) :
    writeMasked (set.setWidth 16) (mask.setWidth 16) value.toDouble =
      (InterruptSet.merge set mask (value.setWidth 12)).setWidth 16 := by
  apply BitVec.eq_of_getLsbD_eq
  intro index below
  have within : index < 64 := Nat.lt_trans below (by decide)
  simp only [writeMasked, getLsbD_masked, BitVec.getLsbD_setWidth, InterruptSet.getLsbD_merge,
    Word.toDouble, below, within, decide_true, Bool.true_and]
  by_cases low : index < 12
  · simp only [low, decide_true, Bool.true_and]
  · simp only [BitVec.getLsbD_of_ge _ _ (Nat.le_of_not_lt low), Bool.false_eq_true, if_false]

theorem writeVector_eq (vector : TrapVector x.bits) (value : Word x) :
    writeVector (Word.toDouble vector.bits) value.toDouble =
      Word.toDouble (vector.write value).bits := by
  have mode : 2 ≤ value.toDouble &&& 0b11 ↔ ¬ value.getLsbD 1 = false := by
    rw [TrapVector.getLsbD_one_iff, BitVec.le_def, Word.toNat_toDouble_and_three, Nat.not_lt]
    rfl
  unfold writeVector TrapVector.write
  simp only [mode, Bool.not_eq_false]
  split <;> rfl

theorem epcMask_words (file : CsrFile x) : file.words.epcMask = file.epcMask := by
  change Word.ofDouble (if file.compressed then ~~~0b1 else ~~~0b11) =
    if file.compressed then ~~~1 else ~~~3
  cases x <;> split <;> rfl

theorem modifyTraps_words (file : CsrFile x) (mode : TrapMode)
    {f : TrapWords x → TrapWords x} {g : TrapRegisters x → TrapRegisters x}
    (same : ∀ traps : TrapRegisters x, f traps.words = (g traps).words) :
    file.words.modifyTraps mode f = (file.modifyTraps mode g).words := by
  cases mode with
  | machine => exact congrArg (fun machine => { file.words with machine }) (same file.machine)
  | supervisor =>
      exact congrArg (fun supervisor => { file.words with supervisor }) (same file.supervisor)

theorem setEpc_words (file : CsrFile x) (mode : TrapMode) (address : Word x) :
    file.words.setEpc mode address = (file.setEpc mode address).words := by
  unfold setEpc CsrFile.setEpc
  rw [epcMask_words]
  exact modifyTraps_words file mode fun _ => rfl

theorem delegable_eq (value : Word x) :
    (Word.ofDouble (value.toDouble &&& 0xB3FF) : Word x) =
      (value.setWidth 16 &&& CsrFile.delegable).setWidth x.bits := by
  have mask : (0xB3FF : BitVec 64) = CsrFile.delegable.setWidth 64 := rfl
  apply BitVec.eq_of_getLsbD_eq
  intro index below
  have within : index < 64 := Nat.lt_of_lt_of_le below x.bits_le
  by_cases low : index < 16
  · simp [mask, Word.ofDouble, Word.toDouble, below, within, low]
  · have outside : CsrFile.delegable.getLsbD index = false :=
      BitVec.getLsbD_of_ge _ _ (Nat.le_of_not_lt low)
    simp [mask, Word.ofDouble, low, outside]

theorem misa_eq (file : CsrFile x) : misa file.compressed = .ok file.misa := by
  unfold misa CsrFile.misa
  cases x <;> cases file.compressed <;> rfl

theorem upperHalf?_eq (counter : BitVec 64) :
    upperHalf? counter = .ok (CsrFile.upperHalf? counter : Option (Word x)) := by
  unfold upperHalf? CsrFile.upperHalf?
  split <;> rfl

theorem initial_eq (compressed : Bool) :
    initial compressed = .ok (CsrFile.initial compressed : CsrFile x).words := by
  rw [initial, resetStatus_eq]
  cases x <;> rfl

theorem ofDouble_and_setWidth (set : InterruptSet) :
    (Word.ofDouble ((set.setWidth 16).setWidth 64 &&& 0x222) : Word x) =
      (set &&& InterruptSet.supervisor).setWidth x.bits := by
  have mask : (0x222 : BitVec 64) = (InterruptSet.supervisor.setWidth 16).setWidth 64 := rfl
  rw [mask, ← BitVec.setWidth_and, ← BitVec.setWidth_and, ofDouble_setWidth]

theorem peek?_words (file : CsrFile x) (csr : Csr) :
    file.words.peek? csr = .ok (file.peek? csr) := by
  cases csr with
  | misa =>
      change (misa file.compressed >>= fun value => pure (some value)) = _
      rw [misa_eq]
      rfl
  | mideleg | mie | mip => exact congrArg (Except.ok ∘ some) (ofDouble_setWidth _)
  | sie | sip => exact congrArg (Except.ok ∘ some) (ofDouble_and_setWidth _)
  | mtvec | stvec => exact congrArg (Except.ok ∘ some) (Word.ofDouble_toDouble _)
  | mcycleh | cycleh | minstreth | instreth => exact upperHalf?_eq _
  | _ => rfl

theorem assign?_words (file : CsrFile x) (csr : Csr) (value : Word x) :
    file.words.assign? csr value = .ok ((file.assign? csr value).map CsrFile.words) := by
  cases csr with
  | mstatus =>
      change (writeStatus value.toDouble (file.status.toBits x) >>= fun mstatus =>
        pure (some { file.words with mstatus })) = _
      rw [writeStatus_toBits]
      rfl
  | sstatus =>
      exact congrArg (fun mstatus => Except.ok (some { file.words with mstatus }))
        (writeSupervisorStatus_toBits file.status value.toDouble)
  | medeleg =>
      exact congrArg (fun medeleg => Except.ok (some { file.words with medeleg }))
        (delegable_eq value)
  | mideleg =>
      exact congrArg (fun mideleg => Except.ok (some { file.words with mideleg }))
        (writeMasked_eq _ InterruptSet.supervisor value)
  | mie =>
      exact congrArg (fun mie => Except.ok (some { file.words with mie }))
        (writeMasked_eq _ InterruptSet.every value)
  | sie =>
      exact congrArg (fun mie => Except.ok (some { file.words with mie }))
        (writeMasked_eq _ InterruptSet.supervisor value)
  | mip =>
      exact congrArg (fun mip => Except.ok (some { file.words with mip }))
        (writeMasked_eq _ (InterruptSet.supervisor ||| InterruptSet.user) value)
  | sip =>
      exact congrArg (fun mip => Except.ok (some { file.words with mip }))
        (writeMasked_eq _ InterruptSet.supervisorSoftware value)
  | mtvec =>
      exact congrArg (fun vector => Except.ok (some
        { file.words with machine := { file.words.machine with vector } })) (writeVector_eq _ value)
  | stvec =>
      exact congrArg (fun vector => Except.ok (some
        { file.words with supervisor := { file.words.supervisor with vector } }))
        (writeVector_eq _ value)
  | mepc | sepc => exact congrArg (Except.ok ∘ some) (setEpc_words file _ value)
  | mcycleh | minstreth => cases x <;> rfl
  | _ => rfl

end Parts

section Access

variable (file : CsrFile x) (number : CsrNumber) (value : Word x) (mode : Privilege)

theorem checkAccess_eq : checkAccess number mode = .ok (CsrFile.checkAccess number mode) := by
  have masked : number >>> 8 &&& 0b11 = (CsrNumber.requiredLevel number).setWidth 16 :=
    shiftRight_and rfl
  have required : level ((number >>> 8 &&& 0b11).setWidth 8) =
      .ok (CsrNumber.requiredLevel number) := by
    rw [masked, BitVec.setWidth_setWidth_of_le _ (by decide)]
    exact level_eq _
  have limit : (1 : CsrNumber) <<< 12 = 0x1000 := by decide
  simp only [checkAccess, CsrFile.checkAccess, CsrNumber.Valid, shiftLeft_eq (by decide : 12 < 16),
    shiftRight_eq (by decide : 8 < 16), ok_bind, required, limit]
  by_cases valid : number < 0x1000
  · by_cases low : mode.level < CsrNumber.requiredLevel number
    · simp only [valid, low, not_true, if_true, if_false, pure_eq_ok]
    · simp only [valid, low, not_true, if_false, pure_eq_ok]
  · simp only [valid, not_false_eq_true, if_true, pure_eq_ok]

theorem peekNumber?_words : file.words.peekNumber? number = .ok (file.peekNumber? number) := by
  unfold peekNumber? CsrFile.peekNumber?
  cases Csr.ofNumber? number with
  | none => rfl
  | some csr => exact peek?_words file csr

theorem read_words : file.words.read number mode = .ok (file.read number mode) := by
  rw [read, checkAccess_eq, ok_bind, CsrFile.read]
  cases CsrFile.checkAccess number mode with
  | error => rfl
  | ok =>
      simp only [peekNumber?_words, ok_bind]
      cases file.peekNumber? number <;> rfl

/-- What a write leaves, in words. -/
def written : EStateM.Result AccessError (CsrFile x) Unit →
    EStateM.Result AccessError (CsrWords x) Unit
  | .ok _ after => .ok () after.words
  | .error error after => .error error after.words

theorem write_words :
    write number value mode file.words = .ok (written (CsrFile.write number value mode file)) := by
  have top : number >>> 10 = 0b11 ↔ CsrNumber.ReadOnly number := by
    have bound := number.isLt
    rw [CsrNumber.ReadOnly, ← BitVec.toNat_inj, ← BitVec.toNat_inj, BitVec.toNat_ushiftRight,
      BitVec.extractLsb'_toNat, Nat.shiftRight_eq_div_pow, Nat.mod_eq_of_lt (by omega)]
    rfl
  simp only [write, CsrFile.write, checkAccess_eq, shiftRight_eq (by decide : 10 < 16), ok_bind,
    top]
  cases CsrFile.checkAccess number mode with
  | error => rfl
  | ok =>
      by_cases readOnly : CsrNumber.ReadOnly number
      · simp only [readOnly, if_true]
        rfl
      · simp only [readOnly, if_false]
        cases Csr.ofNumber? number with
        | none => rfl
        | some csr =>
            simp only [assign?_words, ok_bind, Option.bind_some]
            cases file.assign? csr value <;> rfl

/-- An operation on the words is the operation on the fields. -/
theorem operate_words (operation : CsrOperation x) :
    file.words.operate operation = .ok (file.operate operation).words := by
  cases operation with
  | reset => exact initial_eq file.compressed
  | write number value mode =>
      rw [operate, write_words, ok_bind, CsrFile.operate]
      cases CsrFile.write number value mode file <;> rfl
  | setEpc mode address => exact congrArg Except.ok (setEpc_words file mode address)
  | setCause mode cause => exact congrArg Except.ok (modifyTraps_words file mode fun _ => rfl)
  | setTrapValue mode value => exact congrArg Except.ok (modifyTraps_words file mode fun _ => rfl)
  | setPending interrupt isPending =>
      change (putBit (file.interrupts.pending.setWidth 16) interrupt.code isPending >>=
        fun mip => pure { file.words with mip }) = _
      rw [setPending_eq]
      rfl
  | status change =>
      change (changeStatus (file.status.toBits x) change >>= fun mstatus =>
        pure { file.words with mstatus }) = _
      rw [changeStatus_toBits]
      rfl
  | tick | retire => rfl

theorem operateAll_words (operations : List (CsrOperation x)) :
    file.words.operateAll operations = .ok (CsrFile.operateAll operations file).words := by
  induction operations generalizing file with
  | nil => rfl
  | cons operation operations ih =>
      rw [operateAll, List.foldlM_cons, operate_words, ok_bind]
      exact ih _

end Access

/-! ## Reading back what is stored -/

theorem registers_words (traps : TrapRegisters x) : traps.words.registers = traps :=
  congrArg (fun bits => { traps with vector := ⟨bits⟩ }) (Word.ofDouble_toDouble _)

theorem fields_words (file : CsrFile x) : file.words.fields = file := by
  have status : Status.initial.write (file.status.toBits x) = file.status :=
    Status.write_of_toBits _ _ fun _ _ => rfl
  have sixteen : 16 ≤ x.bits := Nat.le_of_lt (Word.lt_bits (by decide))
  simp only [CsrFile.words, fields, status, registers_words, setWidth_widen (by decide : 12 ≤ 16),
    setWidth_widen sixteen]

theorem file_words (file : CsrFile x) : file.words.file = .ok file := by
  rw [CsrWords.file, fields_words, if_pos rfl]

end CsrWords

namespace Checked

variable {x : Xlen}

/-- The file after a change of the words in which it is stored. -/
def onWords (file : CsrFile x) (change : CsrWords x → Checked (CsrWords x)) :
    Checked (CsrFile x) := do
  (← change file.words).file

/-- Reads the register with the given number at a privilege level. -/
def readCsr (file : CsrFile x) (number : CsrNumber) (mode : Privilege) :
    Checked (Except AccessError (Word x)) :=
  file.words.read number mode

/-- Writes the register with the given number at a privilege level. -/
def writeCsr (number : CsrNumber) (value : Word x) (mode : Privilege) (file : CsrFile x) :
    Checked (EStateM.Result AccessError (CsrFile x) Unit) := do
  match ← CsrWords.write number value mode file.words with
  | .ok _ after => return .ok () (← after.file)
  | .error error after => return .error error (← after.file)

variable (file : CsrFile x)

theorem onWords_operate (operation : CsrOperation x) :
    onWords file (·.operate operation) = .ok (file.operate operation) := by
  rw [onWords, CsrWords.operate_words]
  exact CsrWords.file_words _

theorem onWords_operateAll (operations : List (CsrOperation x)) :
    onWords file (·.operateAll operations) = .ok (CsrFile.operateAll operations file) := by
  rw [onWords, CsrWords.operateAll_words]
  exact CsrWords.file_words _

theorem readCsr_eq (number : CsrNumber) (mode : Privilege) :
    readCsr file number mode = .ok (file.read number mode) := CsrWords.read_words file number mode

theorem writeCsr_eq (number : CsrNumber) (value : Word x) (mode : Privilege) :
    writeCsr number value mode file = .ok (CsrFile.write number value mode file) := by
  rw [writeCsr, CsrWords.write_words, ok_bind]
  cases CsrFile.write number value mode file with
  | ok _ after =>
      simp only [CsrWords.written, CsrWords.file_words]
      rfl
  | error error after =>
      simp only [CsrWords.written, CsrWords.file_words]
      rfl

end Checked

end RiscV
