import RiscV.Privilege
import RiscV.Xlen

/-!
# The status registers

The machine status register records which interrupts are enabled, and what was the case before the
last trap into each mode.  The supervisor status register is a restricted view of it.  A field that
is written with a value it cannot hold keeps its old value.
-/

namespace RiscV

/-- The fields of the machine status register. -/
structure Status where
  /-- Interrupts are enabled in supervisor mode. -/
  sie : Bool
  /-- Interrupts are enabled in machine mode. -/
  mie : Bool
  /-- Interrupts were enabled before the trap into supervisor mode. -/
  spie : Bool
  /-- Interrupts were enabled before the trap into machine mode. -/
  mpie : Bool
  /-- The trap into supervisor mode came from there. -/
  fromSupervisor : Bool
  /-- The mode before the trap into machine mode. -/
  mpp : Privilege
  deriving DecidableEq, Repr

namespace Status

/-- The fields after a reset. -/
def initial : Status :=
  { sie := false
    mie := false
    spie := false
    mpie := false
    fromSupervisor := false
    mpp := .user }

/-- The mode before the trap into supervisor mode. -/
def spp (status : Status) : Privilege := if status.fromSupervisor then .supervisor else .user

/-- Sets the mode before the trap into supervisor mode, which cannot be machine mode. -/
def setSpp (status : Status) (privilege : Privilege) : Status :=
  match privilege with
  | .user => { status with fromSupervisor := false }
  | .supervisor => { status with fromSupervisor := true }
  | .machine => status

/-- A 64-bit value with at most the given bit set. -/
def bit (index : Nat) (value : Bool) : BitVec 64 := if value then BitVec.twoPow 64 index else 0

/-- The widths of the registers of the lower modes, which are those of machine mode. -/
def widths : Xlen → BitVec 64
  | .rv32 => 0
  | .rv64 => 0xA00000000

/-- The bits that are visible in supervisor mode. -/
def supervisorMask : BitVec 64 := 0x300000122

/-- The machine status register. -/
def toBits (status : Status) (x : Xlen) : BitVec 64 :=
  bit 1 status.sie ||| bit 3 status.mie ||| bit 5 status.spie ||| bit 7 status.mpie |||
    bit 8 status.fromSupervisor ||| status.mpp.level.setWidth 64 <<< 11 ||| widths x

/-- The supervisor status register. -/
def toSupervisorBits (status : Status) (x : Xlen) : BitVec 64 := status.toBits x &&& supervisorMask

/-- The fields after a write to the supervisor status register. -/
def writeSupervisor (status : Status) (value : BitVec 64) : Status :=
  { status with
    sie := value.getLsbD 1
    spie := value.getLsbD 5
    fromSupervisor := value.getLsbD 8 }

/-- The fields after a write to the machine status register. -/
def write (status : Status) (value : BitVec 64) : Status :=
  { sie := value.getLsbD 1
    mie := value.getLsbD 3
    spie := value.getLsbD 5
    mpie := value.getLsbD 7
    fromSupervisor := value.getLsbD 8
    mpp := (Privilege.ofLevel? (value.extractLsb' 11 2)).getD status.mpp }

/-- The fields after a trap into machine mode from the given mode. -/
def enter (status : Status) (mode : Privilege) : Status :=
  { status with mpie := status.mie, mie := false, mpp := mode }

/-- The fields after the return from a trap into machine mode. -/
def leave (status : Status) : Status :=
  { status with mie := status.mpie, mpie := true, mpp := .user }

/-- The fields after the return from a trap into supervisor mode. -/
def leaveSupervisor (status : Status) : Status :=
  { status with sie := status.spie, spie := true, fromSupervisor := false }

end Status

end RiscV
