import RiscV.Proofs.CsrAccess

/-!
# Operations on control registers

The control register file changes in a fixed set of ways: by writes to its registers, by what a
trap or a return leaves in it, by interrupts from outside, and by counting.  A write that fails is
an operation too, and does nothing.
-/

namespace RiscV

/-- A change of the fields of the status registers. -/
inductive StatusChange where
  | sie (value : Bool)
  | mie (value : Bool)
  | spie (value : Bool)
  | mpie (value : Bool)
  | spp (privilege : Privilege)
  | mpp (privilege : Privilege)
  /-- A write to the machine status register. -/
  | write (value : BitVec 64)
  /-- A write to the supervisor status register. -/
  | writeSupervisor (value : BitVec 64)
  /-- The entry of a trap out of a mode. -/
  | enter (mode : Privilege)
  /-- The return from a trap into machine mode. -/
  | leave
  /-- The return from a trap into supervisor mode. -/
  | leaveSupervisor

/-- The fields after a change. -/
def Status.change (status : Status) : StatusChange → Status
  | .sie value => { status with sie := value }
  | .mie value => { status with mie := value }
  | .spie value => { status with spie := value }
  | .mpie value => { status with mpie := value }
  | .spp privilege => status.setSpp privilege
  | .mpp privilege => { status with mpp := privilege }
  | .write value => status.write value
  | .writeSupervisor value => status.writeSupervisor value
  | .enter mode => status.enter mode
  | .leave => status.leave
  | .leaveSupervisor => status.leaveSupervisor

/-- An operation on the control registers. -/
inductive CsrOperation (x : Xlen) where
  | reset
  /-- A write by number at a privilege level. -/
  | write (number : CsrNumber) (value : Word x) (level : Privilege)
  | setEpc (mode : TrapMode) (address : Word x)
  | setCause (mode : TrapMode) (cause : Word x)
  | setTrapValue (mode : TrapMode) (value : Word x)
  | setPending (interrupt : Interrupt) (isPending : Bool)
  | status (change : StatusChange)
  | tick
  | retire

namespace CsrFile

variable {x : Xlen}

/-- The file after an operation. -/
def operate (file : CsrFile x) : CsrOperation x → CsrFile x
  | .reset => file.reset
  | .write number value level =>
      match write number value level file with
      | .ok _ after => after
      | .error _ after => after
  | .setEpc mode address => file.setEpc mode address
  | .setCause mode cause => file.setCause mode cause
  | .setTrapValue mode value => file.setTrapValue mode value
  | .setPending interrupt isPending =>
      { file with interrupts := file.interrupts.setPending interrupt isPending }
  | .status change => { file with status := file.status.change change }
  | .tick => file.tick
  | .retire => file.retire

/-- The file after a list of operations. -/
def operateAll (operations : List (CsrOperation x)) (file : CsrFile x) : CsrFile x :=
  operations.foldl operate file

theorem operateAll_append (earlier later : List (CsrOperation x)) (file : CsrFile x) :
    operateAll (earlier ++ later) file = operateAll later (operateAll earlier file) :=
  List.foldl_append

/-- A write does nothing, or it assigns to a register for which the level suffices. -/
theorem operate_write_cases (file : CsrFile x) (number : CsrNumber) (value : Word x)
    (level : Privilege) :
    file.operate (.write number value level) = file ∨
      ∃ csr : Csr, csr.number = number ∧ csr.number.requiredLevel ≤ level.level ∧
        file.assign? csr value = some (file.operate (.write number value level)) := by
  cases written : write number value level file with
  | error error after =>
      obtain rfl := write_error written
      exact .inl (by simp only [operate, written])
  | ok result after =>
      obtain ⟨csr, named, sufficient, -, assigned⟩ := exists_of_write written
      exact .inr ⟨csr, named, sufficient, by simp only [operate, written, assigned]⟩

theorem compressed_modifyTraps (file : CsrFile x) (mode : TrapMode)
    (f : TrapRegisters x → TrapRegisters x) :
    (file.modifyTraps mode f).compressed = file.compressed := by
  cases mode <;> rfl

/-- Counters are views of two numbers, and of them a write changes at most one. -/
theorem counters_of_assign? {file after : CsrFile x} {csr : Csr} {value : Word x}
    (counter : csr.isCounter = true) (assigned : file.assign? csr value = some after) :
    ∃ cycles retired, after = { file with cycles, retired } := by
  cases csr with
  | mcycle | minstret =>
      cases assigned
      exact ⟨_, _, rfl⟩
  | mcycleh | minstreth =>
      simp only [assign?] at assigned
      split at assigned
      · cases assigned
      · cases assigned
        exact ⟨_, _, rfl⟩
  | cycle | instret | cycleh | instreth => cases assigned
  | _ => cases counter

theorem compressed_of_assign? {file after : CsrFile x} {csr : Csr} {value : Word x}
    (assigned : file.assign? csr value = some after) : after.compressed = file.compressed := by
  cases csr with
  | mcycle | minstret | mcycleh | minstreth | cycle | instret | cycleh | instreth =>
      obtain ⟨_, _, rfl⟩ := counters_of_assign? rfl assigned
      rfl
  | mvendorid | marchid | mimpid | mhartid => cases assigned
  | _ =>
      cases assigned
      rfl

@[simp]
theorem compressed_operate (file : CsrFile x) (operation : CsrOperation x) :
    (file.operate operation).compressed = file.compressed := by
  cases operation with
  | write number value level =>
      rcases file.operate_write_cases number value level with same | ⟨csr, -, -, assigned⟩
      · rw [same]
      · exact compressed_of_assign? assigned
  | setEpc | setCause | setTrapValue => exact compressed_modifyTraps ..
  | reset | setPending | status | tick | retire => rfl

@[simp]
theorem compressed_operateAll (operations : List (CsrOperation x)) (file : CsrFile x) :
    (operateAll operations file).compressed = file.compressed := by
  induction operations generalizing file with
  | nil => rfl
  | cons operation operations ih => exact (ih _).trans (compressed_operate file operation)

end CsrFile

end RiscV
