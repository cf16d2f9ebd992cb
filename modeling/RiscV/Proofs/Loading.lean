import RiscV.Image.Program

/-!
# Loading into memory

Loading writes inside of memory and nowhere else, so it leaves memory its size, whether the file is
good or not.
-/

namespace RiscV

/-- The state that an action ends in, whether it succeeds or not. -/
def finalState {ε σ α : Type} : EStateM.Result ε σ α → σ
  | .ok _ state | .error _ state => state

/-- The action leaves memory its size, whether it succeeds or not. -/
def KeepsSize {ε α : Type} (action : EStateM ε Memory α) : Prop :=
  ∀ memory, (finalState (action memory)).size = memory.size

namespace KeepsSize

variable {ε α β : Type}

theorem pure (result : α) : KeepsSize (pure result : EStateM ε Memory α) := fun _ => rfl

theorem throw (error : ε) : KeepsSize (throw error : EStateM ε Memory α) := fun _ => rfl

theorem bind {action : EStateM ε Memory α} {next : α → EStateM ε Memory β}
    (first : KeepsSize action) (later : ∀ result, KeepsSize (next result)) :
    KeepsSize (action >>= next) := by
  intro memory
  have kept := first memory
  change (finalState (EStateM.bind action next memory)).size = _
  unfold EStateM.bind
  cases ended : action memory with
  | ok result after =>
      rw [ended] at kept
      exact (later result after).trans kept
  | error error after =>
      rw [ended] at kept
      exact kept

theorem adaptExcept {ε' : Type} {action : EStateM ε Memory α} (keeps : KeepsSize action)
    (change : ε → ε') : KeepsSize (EStateM.adaptExcept change action) := by
  intro memory
  have kept := keeps memory
  unfold EStateM.adaptExcept
  cases ended : action memory with
  | ok | error =>
      rw [ended] at kept
      exact kept

end KeepsSize

namespace Memory

theorem keepsSize_write (address : Nat) (data : ByteArray) : KeepsSize (write address data) := by
  intro memory
  unfold write
  split
  · rename_i held
    exact size_overwrite held
  · rfl

theorem keepsSize_clear (address count : Nat) : KeepsSize (clear address count) := by
  intro memory
  unfold clear
  split
  · rename_i held
    have length : (zeros count).bytes.size = count := size_zeros count
    exact size_overwrite (length.symm ▸ held)
  · rfl

end Memory

namespace Hex

theorem keepsSize_loadLines (number : Nat) (cursor : BitVec 64) (lines : List (List Char)) :
    KeepsSize (loadLines number cursor lines) := by
  induction lines generalizing number cursor with
  | nil => exact .pure ()
  | cons line rest ih =>
      rw [loadLines]
      split
      · exact .throw _
      · exact ih (number + 1) cursor
      · exact ih (number + 1) _
      · exact .bind ((Memory.keepsSize_write _ _).adaptExcept _) fun _ => ih (number + 1) _

theorem keepsSize_loadBytes (file : ByteArray) : KeepsSize (loadBytes file) := by
  unfold loadBytes
  split
  · exact keepsSize_loadLines 1 0 _
  · exact .throw _

end Hex

namespace Elf

theorem Segment.size_image_le (segment : Segment) (file : ByteArray) :
    (segment.image file).size ≤ segment.extent := by
  have zeros : (Memory.zeros (segment.memorySize - segment.fileSize)).bytes.size =
      segment.memorySize - segment.fileSize := Memory.size_zeros _
  rw [image, ByteArray.size_append, ByteArray.size_extract, zeros, extent]
  omega

theorem Segment.keepsSize_load (segment : Segment) (file : ByteArray) :
    KeepsSize (segment.load file) := by
  intro memory
  unfold load check
  have fits := segment.size_image_le file
  split
  · rename_i checked
    split at checked
    · cases checked
    · rename_i inside
      have bound : segment.address + segment.extent ≤ memory.size := Decidable.not_not.mp inside
      exact Memory.size_overwrite (Nat.le_trans (Nat.add_le_add_left fits _) bound)
  · rfl

theorem keepsSize_loadSegments (file : ByteArray) (segments : List Segment) :
    KeepsSize (loadSegments file segments) := by
  induction segments with
  | nil => exact .pure ()
  | cons segment rest ih => exact .bind (segment.keepsSize_load file) fun _ => ih

theorem keepsSize_load (x : Xlen) (file : ByteArray) : KeepsSize (load x file) := by
  unfold load
  split
  · exact .throw _
  · exact (keepsSize_loadSegments file _).bind fun _ => .pure _

end Elf

namespace Hart

variable {x : Xlen}

/-- An action on memory alone changes nothing else. -/
theorem finalState_onMemory {ε α : Type} (action : EStateM ε Memory α) (hart : Hart x) :
    finalState (onMemory action hart) =
      { hart with memory := finalState (action hart.memory) } := by
  rw [onMemory_apply]
  cases action hart.memory <;> rfl

theorem keepsSize_contents (file : Option ByteArray) :
    KeepsSize (contents file : EStateM LoadError Memory ByteArray) := by
  cases file with
  | none => exact .throw _
  | some bytes => exact .pure bytes

end Hart

end RiscV
