import RiscV.Proofs.Checked.Operation
import RiscV.Proofs.CsrBits
import RiscV.Proofs.CsrOperation

/-!
# The checked status register

The machine status register is kept as 64 bits, of which single bits and ranges are read and
replaced.  All places are inside of the register, and the levels that are read fit their two bits.
Each change of the register is the change of the fields, and so what is kept is always a register
that fields give: the reserved level is never there, and the bits that cannot change do not.
-/

namespace RiscV

namespace Checked

variable {x : Xlen}

/-- The level that two bits give. -/
def level (field : BitVec 8) : Checked Level := fit (Field.ofNat 2 field.toNat)

/-- The mode before the trap into machine mode. -/
def previousMode (register : BitVec 64) : Checked Privilege := do
  let code ← level ((← bitRange register 11 2).setWidth 8)
  return (Privilege.ofLevel? code).getD .user

/-- The mode before the trap into supervisor mode. -/
def previousSupervisorMode (register : BitVec 64) : Checked Privilege := do
  return if ← bit register 8 then .supervisor else .user

/-- The register after a reset.  The widths of the lower modes are in it on wide registers only. -/
def resetStatus (x : Xlen) : Checked (BitVec 64) := do
  if x.isWide then putRange (← putRange 0 32 x.mxl) 34 x.mxl else return 0

/-- Sets the mode before the trap into machine mode. -/
def putPreviousMode (mode : Privilege) (register : BitVec 64) : Checked (BitVec 64) :=
  putRange register 11 mode.level

/-- Sets the mode before the trap into supervisor mode, which cannot be machine mode. -/
def putPreviousSupervisorMode (mode : Privilege) (register : BitVec 64) : Checked (BitVec 64) :=
  if mode ≤ .supervisor then putBit register 8 (mode = .supervisor) else return register

/-- The register after a trap into machine mode from the given mode. -/
def enterMachine (mode : Privilege) (register : BitVec 64) : Checked (BitVec 64) := do
  let register ← putBit register 7 (← bit register 3)
  let register ← putBit register 3 false
  putPreviousMode mode register

/-- The register after the return from a trap into machine mode. -/
def leaveMachine (register : BitVec 64) : Checked (BitVec 64) := do
  let register ← putBit register 3 (← bit register 7)
  let register ← putBit register 7 true
  putPreviousMode .user register

/-- The register after the return from a trap into supervisor mode. -/
def leaveSupervisor (register : BitVec 64) : Checked (BitVec 64) := do
  let register ← putBit register 1 (← bit register 5)
  let register ← putBit register 5 true
  putPreviousSupervisorMode .user register

/-- The register after a write to it.  The reserved level leaves the old one in place. -/
def writeStatus (value register : BitVec 64) : Checked (BitVec 64) := do
  let previous ← previousMode register
  let written := masked register 0x19AA value
  if (← bitRange written 11 2) = 2 then putPreviousMode previous written else return written

/-- The register after a write to the part of it that supervisor mode has. -/
def writeSupervisorStatus (value register : BitVec 64) : BitVec 64 := masked register 0x122 value

/-- The register after a change. -/
def changeStatus (register : BitVec 64) : StatusChange → Checked (BitVec 64)
  | .sie value => putBit register 1 value
  | .mie value => putBit register 3 value
  | .spie value => putBit register 5 value
  | .mpie value => putBit register 7 value
  | .spp mode => putPreviousSupervisorMode mode register
  | .mpp mode => putPreviousMode mode register
  | .write value => writeStatus value register
  | .writeSupervisor value => return writeSupervisorStatus value register
  | .enter mode => enterMachine mode register
  | .leave => leaveMachine register
  | .leaveSupervisor => leaveSupervisor register

end Checked

namespace Status

/-- The fields with the flag at a place of the register replaced. -/
def setFlag (status : Status) (place : Nat) (value : Bool) : Status :=
  { status with
    sie := if 1 = place then value else status.sie
    mie := if 3 = place then value else status.mie
    spie := if 5 = place then value else status.spie
    mpie := if 7 = place then value else status.mpie
    fromSupervisor := if 8 = place then value else status.fromSupervisor }

end Status

namespace Checked

variable {x : Xlen} {status : Status} {register value : BitVec 64}

theorem withBit_and_not {width place : Nat} {old mask : BitVec width} (isSet : Bool)
    (changes : mask.getLsbD place = true) :
    withBit old place isSet &&& ~~~mask = old &&& ~~~mask := by
  apply BitVec.eq_of_getLsbD_eq
  intro index inside
  rw [BitVec.getLsbD_and, BitVec.getLsbD_and, BitVec.getLsbD_not, getLsbD_withBit isSet inside]
  split
  · rename_i same
    rw [same, changes]
    simp
  · rfl

theorem withRange_and_not {width start length : Nat} {old mask : BitVec width}
    (field : BitVec length) (changes : ∀ place < length, mask.getLsbD (start + place) = true) :
    withRange old start field &&& ~~~mask = old &&& ~~~mask := by
  apply BitVec.eq_of_getLsbD_eq
  intro index inside
  by_cases apart : index < start ∨ start + length ≤ index
  · rw [BitVec.getLsbD_and, BitVec.getLsbD_and, getLsbD_withRange field apart]
  · have place : start + (index - start) = index := by omega
    have change := changes (index - start) (by omega)
    rw [place] at change
    rw [BitVec.getLsbD_and, BitVec.getLsbD_and, BitVec.getLsbD_not, change]
    simp

theorem isIn_withBit {place : Nat} (flag : Bool) (held : status.IsIn register x)
    (changes : Status.writable.getLsbD place = true) (low : place < 11) :
    (status.setFlag place flag).IsIn (withBit register place flag) x where
  sie := by rw [getLsbD_withBit flag (by decide), held.sie]; rfl
  mie := by rw [getLsbD_withBit flag (by decide), held.mie]; rfl
  spie := by rw [getLsbD_withBit flag (by decide), held.spie]; rfl
  mpie := by rw [getLsbD_withBit flag (by decide), held.mpie]; rfl
  fromSupervisor := by rw [getLsbD_withBit flag (by decide), held.fromSupervisor]; rfl
  mpp := by rw [extractLsb'_withBit flag (.inl low) (by decide), held.mpp]; rfl
  fixed := by rw [withBit_and_not flag changes, held.fixed]

theorem isIn_withRange (mode : Privilege) (held : status.HasFlags register x) :
    { status with mpp := mode }.IsIn (withRange register 11 mode.level) x where
  sie := by rw [getLsbD_withRange _ (by decide), held.sie]
  mie := by rw [getLsbD_withRange _ (by decide), held.mie]
  spie := by rw [getLsbD_withRange _ (by decide), held.spie]
  mpie := by rw [getLsbD_withRange _ (by decide), held.mpie]
  fromSupervisor := by rw [getLsbD_withRange _ (by decide), held.fromSupervisor]
  mpp := extractLsb'_withRange _ (by decide)
  fixed := by rw [withRange_and_not _ (by decide), held.fixed]

section Registers

variable (status : Status)

theorem level_eq (field : Level) : level (field.setWidth 8) = .ok field := by
  refine fit_ofNat ?_
  rw [BitVec.toNat_setWidth_of_le (by decide)]

theorem previousMode_eq : previousMode (status.toBits x) = .ok status.mpp := by
  rw [previousMode, bitRange_eq (by decide), ok_bind, status.isIn_toBits.mpp, level_eq, ok_bind,
    Privilege.ofLevel?_level]
  rfl

theorem previousSupervisorMode_eq :
    previousSupervisorMode (status.toBits x) = .ok status.spp := by
  rw [previousSupervisorMode, bit_eq (by decide), ok_bind, status.isIn_toBits.fromSupervisor]
  rfl

theorem resetStatus_eq : resetStatus x = .ok (Status.initial.toBits x) := by
  cases x <;> rfl

theorem putBit_toBits {place : Nat} (flag : Bool)
    (changes : Status.writable.getLsbD place = true) (low : place < 11) :
    putBit (status.toBits x) place flag = .ok ((status.setFlag place flag).toBits x) := by
  rw [putBit_eq (Nat.lt_trans low (by decide)),
    (isIn_withBit flag status.isIn_toBits changes low).eq_toBits]

theorem putPreviousMode_eq {status : Status} (mode : Privilege)
    (held : status.HasFlags register x) :
    putPreviousMode mode register = .ok ({ status with mpp := mode }.toBits x) := by
  rw [putPreviousMode, putRange_eq (by decide), (isIn_withRange mode held).eq_toBits]

theorem putPreviousMode_toBits (mode : Privilege) :
    putPreviousMode mode (status.toBits x) = .ok ({ status with mpp := mode }.toBits x) :=
  putPreviousMode_eq mode status.isIn_toBits.toHasFlags

theorem putPreviousSupervisorMode_toBits (mode : Privilege) :
    putPreviousSupervisorMode mode (status.toBits x) = .ok ((status.setSpp mode).toBits x) := by
  have put (flag : Bool) :
      putBit (status.toBits x) 8 flag = .ok ((status.setFlag 8 flag).toBits x) :=
    putBit_toBits status flag rfl (by decide)
  cases mode with
  | machine => rfl
  | user => exact put false
  | supervisor => exact put true

theorem enterMachine_toBits (mode : Privilege) :
    enterMachine mode (status.toBits x) = .ok ((status.enter mode).toBits x) := by
  rw [enterMachine, bit_eq (by decide), status.isIn_toBits.mie, ok_bind,
    putBit_toBits status _ rfl (by decide), ok_bind, putBit_toBits _ _ rfl (by decide), ok_bind,
    putPreviousMode_toBits]
  rfl

theorem leaveMachine_toBits : leaveMachine (status.toBits x) = .ok (status.leave.toBits x) := by
  rw [leaveMachine, bit_eq (by decide), status.isIn_toBits.mpie, ok_bind,
    putBit_toBits status _ rfl (by decide), ok_bind, putBit_toBits _ _ rfl (by decide), ok_bind,
    putPreviousMode_toBits]
  rfl

theorem leaveSupervisor_toBits :
    leaveSupervisor (status.toBits x) = .ok (status.leaveSupervisor.toBits x) := by
  rw [leaveSupervisor, bit_eq (by decide), status.isIn_toBits.spie, ok_bind,
    putBit_toBits status _ rfl (by decide), ok_bind, putBit_toBits _ _ rfl (by decide), ok_bind,
    putPreviousSupervisorMode_toBits]
  rfl

theorem writeSupervisorStatus_toBits (value : BitVec 64) :
    writeSupervisorStatus value (status.toBits x) = (status.writeSupervisor value).toBits x := by
  have held := status.isIn_toBits (x := x)
  exact Status.IsIn.eq_toBits
    { sie := getLsbD_masked ..
      mie := (getLsbD_masked ..).trans held.mie
      spie := getLsbD_masked ..
      mpie := (getLsbD_masked ..).trans held.mpie
      fromSupervisor := getLsbD_masked ..
      mpp := (extractLsb'_masked_of_outside (by decide) ..).trans held.mpp
      fixed := (masked_and_not (by decide) ..).trans held.fixed }

/-- A write replaces the flags, whichever level it gives. -/
theorem hasFlags_masked (value : BitVec 64) :
    (status.write value).HasFlags (masked (status.toBits x) 0x19AA value) x where
  sie := getLsbD_masked ..
  mie := getLsbD_masked ..
  spie := getLsbD_masked ..
  mpie := getLsbD_masked ..
  fromSupervisor := getLsbD_masked ..
  fixed := (masked_and_not (by decide) ..).trans status.isIn_toBits.fixed

theorem writeStatus_toBits (value : BitVec 64) :
    writeStatus value (status.toBits x) = .ok ((status.write value).toBits x) := by
  have flags := hasFlags_masked (x := x) status value
  have given : (masked (status.toBits x) 0x19AA value).extractLsb' 11 2 =
      value.extractLsb' 11 2 := extractLsb'_masked (by decide) ..
  simp only [writeStatus, previousMode_eq, ok_bind, bitRange_eq (by decide : 11 + 2 ≤ 64), given]
  split
  · rename_i reserved
    have kept : (status.write value).mpp = status.mpp := by
      rw [Status.write, reserved]
      rfl
    rw [putPreviousMode_eq _ flags, ← kept]
  · rename_i known
    obtain ⟨mode, level⟩ := Privilege.exists_level known
    have written : (status.write value).mpp = mode := by
      rw [Status.write, ← level, Privilege.ofLevel?_level]
      rfl
    exact congrArg Except.ok (Status.IsIn.eq_toBits ⟨flags, by rw [written, level, given]⟩)

/-- A write of the reserved level leaves supervisor mode in place. -/
example : writeStatus (0b10 <<< 11) (0b01 <<< 11) = .ok (0b01 <<< 11) := by decide

/-- The register after a change is that of the changed fields. -/
theorem changeStatus_toBits (change : StatusChange) :
    changeStatus (status.toBits x) change = .ok ((status.change change).toBits x) := by
  cases change with
  | sie flag => exact putBit_toBits status flag rfl (by decide)
  | mie flag => exact putBit_toBits status flag rfl (by decide)
  | spie flag => exact putBit_toBits status flag rfl (by decide)
  | mpie flag => exact putBit_toBits status flag rfl (by decide)
  | spp mode => exact putPreviousSupervisorMode_toBits status mode
  | mpp mode => exact putPreviousMode_toBits status mode
  | write value => exact writeStatus_toBits status value
  | writeSupervisor value => exact congrArg Except.ok (writeSupervisorStatus_toBits status value)
  | enter mode => exact enterMachine_toBits status mode
  | leave => exact leaveMachine_toBits status
  | leaveSupervisor => exact leaveSupervisor_toBits status

end Registers

end Checked

end RiscV
