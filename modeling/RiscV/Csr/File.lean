import RiscV.Csr.Interrupts
import RiscV.Csr.Name
import RiscV.Csr.Status
import RiscV.Text.Numeral
import RiscV.Trap.Vector

/-!
# The control register file

The state behind the control registers of a hart.  Several registers are views of one piece of
state, and each write keeps only what its register can hold.  Access by number checks, in this
order, that the number is valid, that the privilege level suffices, for a write that the register
can be written, and that the register exists.  An access that fails leaves the file as it was.
-/

namespace RiscV

/-- The mode that a set of trap registers belongs to. -/
inductive TrapMode where
  | machine
  | supervisor
  deriving DecidableEq, Repr

/-- The registers that describe the traps into one mode. -/
structure TrapRegisters (x : Xlen) where
  /-- The address of the handler. -/
  vector : TrapVector x.bits
  /-- A word for the use of the handler. -/
  scratch : Word x
  /-- The address of the instruction that trapped. -/
  epc : Word x
  /-- The cause of the trap. -/
  cause : Word x
  /-- What the trap was about. -/
  value : Word x
  deriving DecidableEq, Repr

/-- The control registers of a hart. -/
structure CsrFile (x : Xlen) where
  /-- Whether the hart has compressed instructions. -/
  compressed : Bool
  /-- The fields of the status registers. -/
  status : Status
  interrupts : Interrupts
  /-- The exceptions that machine mode marks as delegated. -/
  medeleg : BitVec 16
  /-- The interrupts that machine mode marks as delegated. -/
  mideleg : InterruptSet
  /-- The traps into machine mode. -/
  machine : TrapRegisters x
  /-- The traps into supervisor mode. -/
  supervisor : TrapRegisters x
  /-- How many cycles have passed. -/
  cycles : BitVec 64
  /-- How many instructions have completed. -/
  retired : BitVec 64
  deriving DecidableEq, Repr

/-- Why a control register cannot be accessed. -/
inductive AccessError where
  /-- There is no such register. -/
  | unsupported (number : CsrNumber)
  /-- The privilege level does not suffice. -/
  | privileged (number : CsrNumber) (required : Level) (actual : Privilege)
  /-- The register cannot be written. -/
  | readOnly (number : CsrNumber)
  deriving DecidableEq, Repr

namespace AccessError

/-- The text of a register number. -/
def numberText (number : CsrNumber) : String := Text.Numeral.capitalHex 3 number.toNat

def message : AccessError → String
  | unsupported number => "unsupported CSR: " ++ numberText number
  | privileged number required actual =>
      "cannot access specifier " ++ numberText number ++ " from privilege level " ++
        actual.letter ++ ", since it requires privilege level " ++ Level.letter required
  | readOnly number => "writing to read-only CSR " ++ numberText number ++ " is invalid"

end AccessError

namespace TrapRegisters

def zero {x : Xlen} : TrapRegisters x := ⟨TrapVector.zero, 0, 0, 0, 0⟩

end TrapRegisters

namespace CsrFile

variable {x : Xlen}

/-- The file after a reset. -/
def initial (compressed : Bool) : CsrFile x :=
  { compressed
    status := Status.initial
    interrupts := Interrupts.none
    medeleg := 0
    mideleg := 0
    machine := TrapRegisters.zero
    supervisor := TrapRegisters.zero
    cycles := 0
    retired := 0 }

/-- Resets every register. -/
def reset (file : CsrFile x) : CsrFile x := initial file.compressed

/-- The trap registers of a mode. -/
def traps (file : CsrFile x) : TrapMode → TrapRegisters x
  | .machine => file.machine
  | .supervisor => file.supervisor

/-- Changes the trap registers of a mode. -/
def modifyTraps (file : CsrFile x) (mode : TrapMode) (f : TrapRegisters x → TrapRegisters x) :
    CsrFile x :=
  match mode with
  | .machine => { file with machine := f file.machine }
  | .supervisor => { file with supervisor := f file.supervisor }

/-- The bits that the address of an instruction can have. -/
def epcMask (file : CsrFile x) : Word x := if file.compressed then ~~~1 else ~~~3

/-- Sets the address of the instruction that trapped, clearing the bits it cannot have. -/
def setEpc (file : CsrFile x) (mode : TrapMode) (address : Word x) : CsrFile x :=
  file.modifyTraps mode fun traps => { traps with epc := address &&& file.epcMask }

/-- Sets the cause of the trap. -/
def setCause (file : CsrFile x) (mode : TrapMode) (cause : Word x) : CsrFile x :=
  file.modifyTraps mode fun traps => { traps with cause }

/-- Sets what the trap was about. -/
def setTrapValue (file : CsrFile x) (mode : TrapMode) (value : Word x) : CsrFile x :=
  file.modifyTraps mode fun traps => { traps with value }

/-- Sets the word for the use of the handler. -/
def setScratch (file : CsrFile x) (mode : TrapMode) (scratch : Word x) : CsrFile x :=
  file.modifyTraps mode fun traps => { traps with scratch }

/-- Writes the address of the handler. -/
def setVector (file : CsrFile x) (mode : TrapMode) (value : Word x) : CsrFile x :=
  file.modifyTraps mode fun traps => { traps with vector := traps.vector.write value }

/-- Counts a cycle in which no instruction completed. -/
def tick (file : CsrFile x) : CsrFile x := { file with cycles := file.cycles + 1 }

/-- Counts a cycle in which an instruction completed. -/
def retire (file : CsrFile x) : CsrFile x :=
  { file with cycles := file.cycles + 1, retired := file.retired + 1 }

/-- The extensions of the hart, each at the place of its letter in the alphabet. -/
def extensions (compressed : Bool) : BitVec 64 := if compressed then 0x141104 else 0x141100

/-- What the machine reports about itself: the width of its registers and its extensions. -/
def misa (file : CsrFile x) : Word x :=
  (x.mxl.setWidth x.bits <<< (x.bits - 2)) ||| Word.ofDouble (extensions file.compressed)

/-- The exceptions that can be marked as delegated, which are all but the call from machine mode. -/
def delegable : BitVec 16 := 0xB3FF

/-- The upper half of a counter, which is a register of its own on narrow registers only. -/
def upperHalf? (counter : BitVec 64) : Option (Word x) :=
  if x.isWide then none else some (Word.ofDouble (counter >>> 32))

/-- A counter after a write to its lower half, or to all of it on wide registers. -/
def writeCounter (counter : BitVec 64) (value : Word x) : BitVec 64 :=
  if x.isWide then value.toDouble else (counter &&& ~~~0xFFFFFFFF) ||| value.toDouble

/-- A counter after a write to its upper half. -/
def writeUpperHalf (counter : BitVec 64) (value : Word x) : BitVec 64 :=
  (counter &&& 0xFFFFFFFF) ||| value.toDouble <<< 32

/-- The contents of a register, if the hart has it. -/
def peek? (file : CsrFile x) : Csr → Option (Word x)
  | .mvendorid | .marchid | .mimpid | .mhartid => some 0
  | .misa => some file.misa
  | .mstatus => some (Word.ofDouble (file.status.toBits x))
  | .medeleg => some (file.medeleg.setWidth x.bits)
  | .mideleg => some (file.mideleg.setWidth x.bits)
  | .mie => some (file.interrupts.enabled.setWidth x.bits)
  | .mtvec => some file.machine.vector.bits
  | .mscratch => some file.machine.scratch
  | .mepc => some file.machine.epc
  | .mcause => some file.machine.cause
  | .mtval => some file.machine.value
  | .mip => some (file.interrupts.pending.setWidth x.bits)
  | .sstatus => some (Word.ofDouble (file.status.toSupervisorBits x))
  | .sie => some ((file.interrupts.enabled &&& InterruptSet.supervisor).setWidth x.bits)
  | .stvec => some file.supervisor.vector.bits
  | .sscratch => some file.supervisor.scratch
  | .sepc => some file.supervisor.epc
  | .scause => some file.supervisor.cause
  | .stval => some file.supervisor.value
  | .sip => some ((file.interrupts.pending &&& InterruptSet.supervisor).setWidth x.bits)
  | .mcycle | .cycle => some (Word.ofDouble file.cycles)
  | .minstret | .instret => some (Word.ofDouble file.retired)
  | .mcycleh | .cycleh => upperHalf? file.cycles
  | .minstreth | .instreth => upperHalf? file.retired

/-- The file after a write to a register, if the hart has it and it can be written. -/
def assign? (file : CsrFile x) (csr : Csr) (value : Word x) : Option (CsrFile x) :=
  match csr with
  | .misa => some file
  | .mstatus => some { file with status := file.status.write value.toDouble }
  | .medeleg => some { file with medeleg := value.setWidth 16 &&& delegable }
  | .mideleg =>
      some { file with
        mideleg := InterruptSet.merge file.mideleg InterruptSet.supervisor (value.setWidth 12) }
  | .mie => some { file with interrupts := file.interrupts.writeEnabled (value.setWidth 12) }
  | .mtvec => some (file.setVector .machine value)
  | .mscratch => some (file.setScratch .machine value)
  | .mepc => some (file.setEpc .machine value)
  | .mcause => some (file.setCause .machine value)
  | .mtval => some (file.setTrapValue .machine value)
  | .mip => some { file with interrupts := file.interrupts.writePending (value.setWidth 12) }
  | .sstatus => some { file with status := file.status.writeSupervisor value.toDouble }
  | .sie =>
      some { file with interrupts := file.interrupts.writeSupervisorEnabled (value.setWidth 12) }
  | .stvec => some (file.setVector .supervisor value)
  | .sscratch => some (file.setScratch .supervisor value)
  | .sepc => some (file.setEpc .supervisor value)
  | .scause => some (file.setCause .supervisor value)
  | .stval => some (file.setTrapValue .supervisor value)
  | .sip =>
      some { file with interrupts := file.interrupts.writeSupervisorPending (value.setWidth 12) }
  | .mcycle => some { file with cycles := writeCounter file.cycles value }
  | .minstret => some { file with retired := writeCounter file.retired value }
  | .mcycleh =>
      if x.isWide then none else some { file with cycles := writeUpperHalf file.cycles value }
  | .minstreth =>
      if x.isWide then none else some { file with retired := writeUpperHalf file.retired value }
  | .cycle | .instret | .cycleh | .instreth
  | .mvendorid | .marchid | .mimpid | .mhartid => none

/-- The contents of the register with the given number, without any check of privilege. -/
def peekNumber? (file : CsrFile x) (number : CsrNumber) : Option (Word x) :=
  (Csr.ofNumber? number).bind file.peek?

theorem peekNumber?_number (file : CsrFile x) (csr : Csr) :
    file.peekNumber? csr.number = file.peek? csr := by
  rw [peekNumber?, Csr.ofNumber?_number, Option.bind_some]

/-- Whether a level may use a register number. -/
def checkAccess (number : CsrNumber) (level : Privilege) : Except AccessError Unit :=
  if ¬ CsrNumber.Valid number then .error (.unsupported number)
  else if level.level < CsrNumber.requiredLevel number then
    .error (.privileged number (CsrNumber.requiredLevel number) level)
  else .ok ()

/-- Reads the register with the given number at a privilege level. -/
def read (file : CsrFile x) (number : CsrNumber) (level : Privilege) :
    Except AccessError (Word x) := do
  checkAccess number level
  match file.peekNumber? number with
  | some value => .ok value
  | none => .error (.unsupported number)

/-- Writes the register with the given number at a privilege level. -/
def write (number : CsrNumber) (value : Word x) (level : Privilege) :
    EStateM AccessError (CsrFile x) Unit := fun file =>
  match checkAccess number level with
  | .error error => .error error file
  | .ok () =>
      if CsrNumber.ReadOnly number then .error (.readOnly number) file
      else
        match (Csr.ofNumber? number).bind (file.assign? · value) with
        | some written => .ok () written
        | none => .error (.unsupported number) file

end CsrFile

end RiscV
