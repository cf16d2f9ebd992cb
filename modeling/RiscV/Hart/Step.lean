import RiscV.Hart.Execute

/-!
# Steps

A step takes an interrupt if one is due.  Otherwise it fetches the instruction at the program
counter and performs it.  Whatever goes wrong with fetching, decoding or executing it ends in a
trap; so does naming a register that the hart does not have.
-/

namespace RiscV

namespace Hart

variable {x : Xlen}

/-- The interrupt that is due.  Below machine mode interrupts are always taken. -/
def interrupt? (hart : Hart x) : Option Interrupt :=
  if hart.mode < .machine ∨ hart.csrs.status.mie then hart.csrs.interrupts.highest? else none

/-- The parcel at an address. -/
def fetchParcel (hart : Hart x) (address : Word x) : Except (Fault x) (BitVec 16) :=
  (hart.memory.load .halfword address.toNat).mapError fun _ => ⟨.instructionAccessFault, address⟩

/-- The bits of the instruction at an address.  The second parcel is fetched only if the first one
asks for it. -/
def fetch (hart : Hart x) (address : Word x) : Except (Fault x) InstructionBits :=
  if ¬ hart.config.alignment.Aligned address.toNat then
    .error ⟨.instructionAddressMisaligned, address⟩
  else do
    let low ← hart.fetchParcel address
    if Compressed.isShort low then return .short low
    let high ← hart.fetchParcel (address + 2)
    return .long (high ++ low)

/-- The instruction that the bits mean to the hart: compressed ones have to be supported, and the
registers have to exist. -/
def decode? (hart : Hart x) (bits : InstructionBits) : Option Instruction :=
  if bits.size = 2 ∧ ¬ hart.config.compressed then none
  else
    (bits.meaning? x).filter fun instruction =>
      instruction.registers.all fun register => hart.registers.Contains register

/-- Decodes and executes the bits of the instruction at `pc`. -/
def executeBits (pc : Word x) (bits : InstructionBits) : Execution x Unit := do
  match (← get).decode? bits with
  | some instruction => execute pc bits instruction
  | none => Execution.raise .illegalInstruction bits.value

/-- Turns a fault into a trap, which takes a cycle. -/
def takeException (hart : Hart x) (epc : Word x) (fault : Fault x) : Outcome x × Hart x :=
  (.trap (.exception fault.exception) epc fault.value,
    (hart.enterTrap (.exception fault.exception) epc fault.value).tick)

/-- Performs an instruction as if it had been fetched at the program counter. -/
def perform (hart : Hart x) (bits : InstructionBits) : Outcome x × Hart x :=
  let pc := hart.pc
  match executeBits pc bits (hart.setPc (pc + BitVec.ofNat x.bits bits.size)) with
  | .ok () hart => (.retired, hart.retire)
  | .error fault hart => hart.takeException pc fault

/-- Takes an interrupt, which takes a cycle, or performs the next instruction. -/
def step (hart : Hart x) : Outcome x × Hart x :=
  match hart.interrupt? with
  | some interrupt =>
      (.trap (.interrupt interrupt) hart.pc 0,
        (hart.enterTrap (.interrupt interrupt) hart.pc 0).tick)
  | none =>
      match hart.fetch hart.pc with
      | .ok bits => hart.perform bits
      | .error fault => hart.takeException hart.pc fault

end Hart

end RiscV
