import RiscV.Xlen

/-!
# Trap vectors

A trap vector register holds the address at which traps are handled, and in its low two bits a
mode.  In the vectored mode each interrupt has a handler of its own, four bytes per code above the
base.  The two modes above are reserved, and writing one of them changes nothing.
-/

namespace RiscV

/-- A trap vector register of the given width. -/
structure TrapVector (width : Nat) where
  /-- The contents of the register. -/
  bits : BitVec width
  deriving DecidableEq, Repr

namespace TrapVector

variable {width : Nat}

def zero : TrapVector width := ⟨0⟩

/-- The register after a write. -/
def write (vector : TrapVector width) (value : BitVec width) : TrapVector width :=
  if value.getLsbD 1 then vector else ⟨value⟩

/-- The address at which traps are handled. -/
def base (vector : TrapVector width) : BitVec width := vector.bits &&& ~~~3

/-- Whether interrupts have handlers of their own. -/
def isVectored (vector : TrapVector width) : Bool := vector.bits.getLsbD 0

/-- The address of the handler for a trap with the given code. -/
def handler (vector : TrapVector width) (isInterrupt : Bool) (code : Nat) : BitVec width :=
  if vector.isVectored && isInterrupt then vector.base + BitVec.ofNat width (4 * code)
  else vector.base

end TrapVector

end RiscV
