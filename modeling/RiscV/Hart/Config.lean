import RiscV.AccessSize
import RiscV.Registers
import RiscV.Text.Numeral

/-!
# Configurations

A configuration fixes the size of memory, the number of registers, the address at which execution
starts after a reset, and whether compressed instructions and misaligned accesses are supported.
-/

namespace RiscV

/-- What is fixed about a hart when it is made. -/
structure Config where
  /-- Number of bytes of memory. -/
  memorySize : Nat := 0x100000
  registerCount : Nat := 32
  /-- The address at which execution starts after a reset. -/
  resetVector : BitVec 64 := 0
  /-- Whether there are compressed instructions. -/
  compressed : Bool := true
  /-- Whether loads and stores may be misaligned. -/
  misaligned : Bool := false
  deriving DecidableEq, Repr

/-- Why no hart has a configuration. -/
inductive ConfigError where
  /-- There cannot be that many registers. -/
  | registerCount (count : Nat)
  /-- The reset vector is no address. -/
  | resetVectorTooWide (address : BitVec 64)
  /-- No instruction can be at the reset vector. -/
  | resetVectorMisaligned (address : BitVec 64)
  deriving DecidableEq, Repr

namespace ConfigError

def message : ConfigError → String
  | registerCount count => "register count must be between 1 and 32, got " ++ toString count
  | resetVectorTooWide address =>
      "reset vector " ++ Text.Numeral.hex 1 address.toNat ++ " does not fit the register width"
  | resetVectorMisaligned address =>
      "reset vector " ++ Text.Numeral.hex 1 address.toNat ++
        " is not aligned to the instruction alignment"

end ConfigError

namespace Config

/-- The unit to which the addresses of instructions are aligned. -/
def alignment (config : Config) : AccessSize := if config.compressed then .halfword else .word

/-- Whether a hart with registers of the given width can have the configuration. -/
def check (x : Xlen) (config : Config) : Except ConfigError Unit :=
  if ¬ (1 ≤ config.registerCount ∧ config.registerCount ≤ Registers.maxCount) then
    .error (.registerCount config.registerCount)
  else if (Word.ofDouble config.resetVector : Word x).toDouble ≠ config.resetVector then
    .error (.resetVectorTooWide config.resetVector)
  else if ¬ config.alignment.Aligned config.resetVector.toNat then
    .error (.resetVectorMisaligned config.resetVector)
  else .ok ()

end Config

end RiscV
