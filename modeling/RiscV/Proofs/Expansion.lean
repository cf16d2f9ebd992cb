import Mathlib.Tactic.Common
import RiscV.Instruction.Compressed

/-!
# What compressed instructions stand for

The instruction that a compressed one stands for exists for the width of the registers, and no
privilege level is too low for it.
-/

namespace RiscV

namespace Instruction

/-- Whether the privilege level can be too low for the instruction. -/
def isPrivileged : Instruction → Bool
  | csr .. | mret | sret | wfi => true
  | _ => false

/-- The instruction exists for the width of the registers and at every privilege level. -/
structure Compressible (x : Xlen) (instruction : Instruction) : Prop where
  /-- The width of the registers suffices. -/
  wellFormed : instruction.WellFormed x
  /-- The privilege level suffices. -/
  unprivileged : instruction.isPrivileged = false

end Instruction

namespace Compressed

open Instruction

variable {x : Xlen} {code : BitVec 16} {instruction : Instruction}

theorem when_eq_some {condition : Bool} {given : Instruction} :
    when condition given = some instruction ↔ condition = true ∧ given = instruction := by
  cases condition <;> simp [when]

theorem compressible_of_shift? {op : ShiftOp} {register : Register}
    (expanded : shift? x op register code = some instruction) : instruction.Compressible x := by
  obtain ⟨inside, rfl⟩ := when_eq_some.mp expanded
  exact ⟨of_decide_eq_true inside, rfl⟩

theorem compressible_of_expandAccess? (expanded : expandAccess? x code = some instruction) :
    instruction.Compressible x := by
  unfold expandAccess? at expanded
  split at expanded
  · obtain ⟨-, rfl⟩ := when_eq_some.mp expanded
    exact ⟨trivial, rfl⟩
  · cases expanded
    exact ⟨nofun, rfl⟩
  · obtain ⟨wide, rfl⟩ := when_eq_some.mp expanded
    exact ⟨fun _ => wide, rfl⟩
  · cases expanded
    exact ⟨nofun, rfl⟩
  · obtain ⟨wide, rfl⟩ := when_eq_some.mp expanded
    exact ⟨fun _ => wide, rfl⟩
  · cases expanded

theorem compressible_of_expandRegister? (expanded : expandRegister? x code = some instruction) :
    instruction.Compressible x := by
  unfold expandRegister? at expanded
  dsimp only at expanded
  split at expanded
  iterate 4
    · cases expanded
      exact ⟨trivial, rfl⟩
  iterate 2
    · obtain ⟨wide, rfl⟩ := when_eq_some.mp expanded
      exact ⟨wide, rfl⟩
  · cases expanded

theorem compressible_of_expandArithmetic?
    (expanded : expandArithmetic? x code = some instruction) : instruction.Compressible x := by
  unfold expandArithmetic? at expanded
  split at expanded
  · exact compressible_of_shift? expanded
  · exact compressible_of_shift? expanded
  · cases expanded
    exact ⟨trivial, rfl⟩
  · exact compressible_of_expandRegister? expanded

theorem compressible_of_expandUpper? (expanded : expandUpper? code = some instruction) :
    instruction.Compressible x := by
  unfold expandUpper? at expanded
  split at expanded
  · obtain ⟨-, rfl⟩ := when_eq_some.mp expanded
    exact ⟨trivial, rfl⟩
  · obtain ⟨-, rfl⟩ := when_eq_some.mp expanded
    exact ⟨trivial, rfl⟩

theorem compressible_of_expandImmediate? (expanded : expandImmediate? x code = some instruction) :
    instruction.Compressible x := by
  unfold expandImmediate? at expanded
  split at expanded
  · cases expanded
    exact ⟨trivial, rfl⟩
  · split at expanded
    · rename_i wide
      obtain ⟨-, rfl⟩ := when_eq_some.mp expanded
      exact ⟨wide, rfl⟩
    · cases expanded
      exact ⟨trivial, rfl⟩
  · cases expanded
    exact ⟨trivial, rfl⟩
  · exact compressible_of_expandUpper? expanded
  · exact compressible_of_expandArithmetic? expanded
  · cases expanded
    exact ⟨trivial, rfl⟩
  · cases expanded
    exact ⟨trivial, rfl⟩
  · cases expanded
    exact ⟨trivial, rfl⟩

theorem compressible_of_expandMove? (expanded : expandMove? code = some instruction) :
    instruction.Compressible x := by
  unfold expandMove? at expanded
  split at expanded
  · split at expanded
    · obtain ⟨-, rfl⟩ := when_eq_some.mp expanded
      exact ⟨trivial, rfl⟩
    · cases expanded
      exact ⟨trivial, rfl⟩
  · split at expanded
    · split at expanded
      · cases expanded
        exact ⟨trivial, rfl⟩
      · cases expanded
        exact ⟨trivial, rfl⟩
    · cases expanded
      exact ⟨trivial, rfl⟩

theorem compressible_of_expandStack? (expanded : expandStack? x code = some instruction) :
    instruction.Compressible x := by
  unfold expandStack? at expanded
  split at expanded
  · exact compressible_of_shift? expanded
  · obtain ⟨-, rfl⟩ := when_eq_some.mp expanded
    exact ⟨nofun, rfl⟩
  · obtain ⟨allowed, rfl⟩ := when_eq_some.mp expanded
    exact ⟨fun _ => (Bool.and_eq_true_iff.mp allowed).1, rfl⟩
  · exact compressible_of_expandMove? expanded
  · cases expanded
    exact ⟨nofun, rfl⟩
  · obtain ⟨wide, rfl⟩ := when_eq_some.mp expanded
    exact ⟨fun _ => wide, rfl⟩
  · cases expanded

/-- A compressed instruction stands for one that exists for the width of the registers and at every
privilege level. -/
theorem compressible_of_expand? (expanded : expand? x code = some instruction) :
    instruction.Compressible x := by
  unfold expand? at expanded
  split at expanded
  · exact compressible_of_expandAccess? expanded
  · exact compressible_of_expandImmediate? expanded
  · exact compressible_of_expandStack? expanded
  · cases expanded

end Compressed

end RiscV
