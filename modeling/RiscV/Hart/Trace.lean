import RiscV.Hart.SelfTest
import RiscV.Record

/-!
# Traces of execution

What a hart does can be told in records: each completed instruction with its address and text, and
each trap with what the handler finds.  The records follow from the states and outcomes, so the
hart itself does not keep them.
-/

namespace RiscV

namespace Trace

variable {x : Xlen}

/-- The record of a completed instruction. -/
def retired (pc : Word x) (bits : InstructionBits) : Record :=
  { severity := .trace, text := Text.Numeral.hex 8 pc.toNat ++ ": " ++ bits.text x }

/-- The record of a trap. -/
def trap (cause : Cause) (epc value : Word x) : Record :=
  { severity := .debug
    text := "Taking trap: " ++ cause.name
    values :=
      [ ("cause", toString cause.code)
      , ("interrupt", toString cause.isInterrupt)
      , ("epc", toString epc.toNat)
      , ("tval", toString value.toNat) ] }

/-- The records of performing an instruction on a hart with the given outcome. -/
def ofPerform (hart : Hart x) (bits : InstructionBits) : Outcome x → List Record
  | .retired => [retired hart.pc bits]
  | .trap cause epc value => [trap cause epc value]

/-- The records of a step of a hart with the given outcome. -/
def ofStep (hart : Hart x) : Outcome x → List Record
  | .retired =>
      match hart.fetch hart.pc with
      | .ok bits => [retired hart.pc bits]
      | .error _ => []
  | .trap cause epc value => [trap cause epc value]

/-- Steps like `Hart.advance`, and adds the records of the steps to those given. -/
def advance (stop : Option (Word x)) :
    (budget : Nat) → Array Record → Hart x → Nat × Array Record × Hart x
  | 0, records, hart => (0, records, hart)
  | budget + 1, records, hart =>
      if stop = some hart.pc then (budget + 1, records, hart)
      else
        let (outcome, next) := hart.step
        advance stop budget (records ++ ofStep hart outcome) next

/-- The records of the self test of a hart. -/
def ofSelfTest (hart : Hart x) : List Record :=
  if SelfTest.Possible hart then
    let (events, last) := (SelfTest.prepared hart).walk SelfTest.program.length
    let steps := events.flatMap fun (before, outcome) => ofStep before outcome
    let early :=
      if (SelfTest.earlyTrap? events).isSome then
        [{ severity := .error, text := "Self test trapped unexpectedly" }]
      else []
    let failed := (SelfTest.failures last).map fun check =>
      { severity := .error
        text := "Self test mismatch for " ++ check.name ++ ": expected " ++
          Text.Numeral.hex 1 check.expected.toNat ++ ", got " ++
          Text.Numeral.hex 1 check.actual.toNat }
    let passed :=
      if SelfTest.passes events last then [{ severity := .info, text := "Self test passed" }]
      else []
    steps ++ early ++ failed ++ passed
  else
    [{ severity := .error
       text := "Self test needs at least " ++ toString SelfTest.handler ++
         " bytes of memory and " ++ toString SelfTest.registerCount ++ " registers, got " ++
         toString hart.memory.size ++ " and " ++ toString hart.registers.count }]

end Trace

end RiscV
