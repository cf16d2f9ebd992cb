import RiscV.Hart.Run
import RiscV.Instruction.Encode

/-!
# The self test

A small program divides and takes a remainder by zero and then calls the execution environment.
The hart passes if the results and the trap are as they have to be.  A hart that has room for the
test is as good as new afterwards.
-/

namespace RiscV

namespace Hart

variable {x : Xlen}

/-- Takes a number of steps.  The result lists the state before each step and how it ended. -/
def walk : (count : Nat) → Hart x → List (Hart x × Outcome x) × Hart x
  | 0, hart => ([], hart)
  | count + 1, hart =>
      let (outcome, next) := hart.step
      let (events, last) := walk count next
      ((hart, outcome) :: events, last)

end Hart

namespace SelfTest

variable {x : Xlen}

/-- The address of the trap handler of the test, up to which it needs memory. -/
def handler : Nat := 0x40

/-- The number of registers that the test needs. -/
def registerCount : Nat := 6

/-- The words of the test program. -/
def program : List (BitVec 32) :=
  [ 0x04000293 -- addi x5, x0, 64
  , 0x30529073 -- csrrw x0, mtvec, x5
  , 0x00500093 -- addi x1, x0, 5
  , 0x00000113 -- addi x2, x0, 0
  , 0x0220C1B3 -- div x3, x1, x2
  , 0x0220E233 -- rem x4, x1, x2
  , 0x00000073 -- ecall
  ]

/-- The address of the last word of the test program. -/
def callAddress : Nat := 4 * (program.length - 1)

/-- The bytes of the test program. -/
def image : ByteArray :=
  (program.flatMap fun word => LittleEndian.ofNat 4 word.toNat).toByteArray

/-- The hart has room for the test. -/
def Possible (hart : Hart x) : Prop :=
  handler ≤ hart.memory.size ∧ registerCount ≤ hart.registers.count

instance (hart : Hart x) : Decidable (Possible hart) :=
  inferInstanceAs (Decidable (_ ∧ _))

/-- The hart after a reset of everything, memory included. -/
def cleared (hart : Hart x) : Hart x := { hart.reset with memory := hart.memory.reset }

/-- The hart at the start of the test program. -/
def prepared (hart : Hart x) : Hart x :=
  { (cleared hart).setPc 0 with memory := hart.memory.reset.overwrite 0 image }

/-- A value that is checked after the test, next to what it has to be. -/
structure Check where
  name : String
  /-- What the value has to be. -/
  expected : BitVec 64
  actual : BitVec 64
  deriving DecidableEq, Repr

/-- The values that are checked after the test. -/
def checks (hart : Hart x) : List Check :=
  let csr (csr : Csr) : BitVec 64 := ((hart.csrs.peek? csr).map Word.toDouble).getD 0
  let expansion := ((Compressed.expand? x 0x4511).map Instruction.encode).getD 0
  [ ⟨"x1", 5, Word.toDouble (hart.registers.read 1)⟩
  , ⟨"div by zero", Word.toDouble (BitVec.allOnes x.bits), Word.toDouble (hart.registers.read 3)⟩
  , ⟨"rem by zero", 5, Word.toDouble (hart.registers.read 4)⟩
  , ⟨"mcause", 11, csr .mcause⟩
  , ⟨"mepc", BitVec.ofNat 64 callAddress, csr .mepc⟩
  , ⟨"pc", BitVec.ofNat 64 handler, Word.toDouble hart.pc⟩
  , ⟨"c.li expansion", 0x00400513, expansion.setWidth 64⟩ ]

/-- The checks that fail. -/
def failures (hart : Hart x) : List Check :=
  (checks hart).filter fun check => check.expected != check.actual

/-- The first trap before the last step. -/
def earlyTrap? (events : List (Hart x × Outcome x)) : Option (Outcome x) :=
  (events.dropLast.map Prod.snd).find? Outcome.isTrap

/-- Whether the events and the last state of the test are as they have to be. -/
def passes (events : List (Hart x × Outcome x)) (hart : Hart x) : Bool :=
  (earlyTrap? events).isNone && (failures hart).isEmpty

end SelfTest

namespace Hart

variable {x : Xlen}

/-- Tests the hart.  Nothing changes if it has no room for the test; otherwise everything is reset,
memory included. -/
def selfTest (hart : Hart x) : Bool × Hart x :=
  if SelfTest.Possible hart then
    let (events, last) := (SelfTest.prepared hart).walk SelfTest.program.length
    (SelfTest.passes events last, SelfTest.cleared last)
  else (false, hart)

end Hart

end RiscV
