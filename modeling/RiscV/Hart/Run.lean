import RiscV.Hart.Step

/-!
# Runs

A run steps a hart until it is about to execute the instruction at a given address or a budget of
steps is used up.
-/

namespace RiscV

namespace Hart

variable {x : Xlen}

/-- The number of steps that a run without a limit of its own may take. -/
def maxSteps : Nat := 0x1_0000_0000_0000_0000

/-- Steps until the program counter is at `stop` or the budget is used up.  The result is what is
left of the budget, and the hart. -/
def advance (stop : Option (Word x)) : (budget : Nat) → Hart x → Nat × Hart x
  | 0, hart => (0, hart)
  | budget + 1, hart =>
      if stop = some hart.pc then (budget + 1, hart)
      else advance stop budget hart.step.2

/-- Steps until the program counter is at `stop` or the limit is reached.  The result is the number
of steps taken, and the hart. -/
def runSteps (limit : Nat) (stop : Option (Word x)) (hart : Hart x) : Nat × Hart x :=
  let (left, hart) := advance stop limit hart
  (limit - left, hart)

/-- Steps until the program counter is at an address. -/
def runUntil (address : Word x) (hart : Hart x) : Hart x :=
  (advance (some address) maxSteps hart).2

end Hart

end RiscV
