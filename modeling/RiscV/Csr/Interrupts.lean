import RiscV.Trap.Cause

/-!
# The interrupt registers

An interrupt is taken if it is both pending and enabled, the most urgent one first.  Software may
change some of the pending bits; those of machine mode are driven from outside only.
-/

namespace RiscV

/-- A set of interrupts, each at the place of its code. -/
abbrev InterruptSet := BitVec 12

namespace InterruptSet

/-- All interrupts. -/
def every : InterruptSet := 0xBBB

/-- The interrupts of user mode. -/
def user : InterruptSet := 0x111

/-- The interrupts of supervisor mode. -/
def supervisor : InterruptSet := 0x222

/-- The software interrupt of supervisor mode. -/
def supervisorSoftware : InterruptSet := 0x002

/-- The set with its part inside of a mask replaced. -/
def merge (set mask value : InterruptSet) : InterruptSet := (set &&& ~~~mask) ||| (value &&& mask)

/-- The set with an interrupt put in or taken out. -/
def put (set : InterruptSet) (interrupt : Interrupt) (isIn : Bool) : InterruptSet :=
  let place := BitVec.twoPow 12 interrupt.code
  if isIn then set ||| place else set &&& ~~~place

/-- The interrupt is in the set. -/
def has (set : InterruptSet) (interrupt : Interrupt) : Bool := set.getLsbD interrupt.code

theorem has_put (set : InterruptSet) (interrupt other : Interrupt) (isIn : Bool) :
    has (put set interrupt isIn) other =
      if interrupt = other then isIn else has set other := by
  have inside := other.code_lt
  by_cases same : interrupt = other
  · cases isIn <;> simp [has, put, same, inside]
  · have distinct : other.code ≠ interrupt.code := fun h =>
      same (Interrupt.code_injective h).symm
    cases isIn <;> simp [has, put, same, distinct, inside]

end InterruptSet

/-- Which interrupts are pending, and which are enabled. -/
structure Interrupts where
  /-- The interrupts that wait to be taken. -/
  pending : InterruptSet
  /-- The interrupts that may be taken. -/
  enabled : InterruptSet
  deriving DecidableEq, Repr

namespace Interrupts

/-- No interrupt is pending or enabled. -/
def none : Interrupts := ⟨0, 0⟩

/-- Raises or withdraws an interrupt from outside. -/
def setPending (interrupts : Interrupts) (interrupt : Interrupt) (isPending : Bool) : Interrupts :=
  { interrupts with pending := InterruptSet.put interrupts.pending interrupt isPending }

/-- The most urgent interrupt that is pending and enabled. -/
def highest? (interrupts : Interrupts) : Option Interrupt :=
  Interrupt.byPriority.find? fun interrupt =>
    InterruptSet.has interrupts.pending interrupt && InterruptSet.has interrupts.enabled interrupt

/-- Writes the pending bits that are open to software. -/
def writePending (interrupts : Interrupts) (value : InterruptSet) : Interrupts :=
  { interrupts with
    pending := InterruptSet.merge interrupts.pending
      (InterruptSet.supervisor ||| InterruptSet.user) value }

/-- Writes the enabled bits. -/
def writeEnabled (interrupts : Interrupts) (value : InterruptSet) : Interrupts :=
  { interrupts with
    enabled := InterruptSet.merge interrupts.enabled InterruptSet.every value }

/-- Writes the pending bit that is open to supervisor mode. -/
def writeSupervisorPending (interrupts : Interrupts) (value : InterruptSet) : Interrupts :=
  { interrupts with
    pending := InterruptSet.merge interrupts.pending InterruptSet.supervisorSoftware value }

/-- Writes the enabled bits that are open to supervisor mode. -/
def writeSupervisorEnabled (interrupts : Interrupts) (value : InterruptSet) : Interrupts :=
  { interrupts with
    enabled := InterruptSet.merge interrupts.enabled InterruptSet.supervisor value }

end Interrupts

end RiscV
