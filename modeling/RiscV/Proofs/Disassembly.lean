import RiscV.Hart.Trace
import RiscV.Proofs.AssemblyText
import RiscV.Proofs.Call
import RiscV.Proofs.Decoding
import RiscV.Proofs.Expansion

/-!
# Disassembly is faithful

Disassembled words look alike exactly if they mean the same instruction, or if they mean none and
are made of the same parcels.  What a hart has completed is shown as the instruction that it
executed.
-/

namespace RiscV

namespace Compressed

theorem isShort_setWidth (word : BitVec 32) :
    isShort (word.setWidth 16) = (word.extractLsb' 0 2 != 3) := by
  have low : (word.setWidth 16).extractLsb' 0 2 = word.extractLsb' 0 2 := by
    rw [BitVec.extractLsb'_setWidth_of_le (by decide)]
  rw [isShort, low]

theorem isShort_of_expand? {x : Xlen} {code : BitVec 16} {instruction : Instruction}
    (expanded : expand? x code = some instruction) : isShort code = true := by
  have low : isShort code = (bits code 0 2 != 3) := rfl
  unfold expand? at expanded
  split at expanded
  case h_4 => cases expanded
  all_goals
    rename_i quadrant
    rw [low, quadrant]
    rfl

end Compressed

namespace Instruction

variable {x : Xlen} {word : BitVec 32} {instruction : Instruction}

theorem low_of_decode (decoded : decode x word = .ok instruction) :
    word.extractLsb' 0 2 = 3 := by
  unfold decode at decoded
  split at decoded
  · cases decoded
  · rename_i code entry
    have known : code.code = word.extractLsb' 0 7 := (Opcode.code_of_ofCode? entry).1
    have low : code.code.extractLsb' 0 2 = 3 := by
      cases code <;> decide
    rw [known, BitVec.extractLsb'_extractLsb'_of_le (by decide)] at low
    exact low

/-- The instruction that a raw word stands for: the one that it encodes, or that the expansion of
its low half encodes in case it starts with a compressed instruction. -/
def ofRaw? (x : Xlen) (word : BitVec 32) : Option Instruction :=
  if word.extractLsb' 0 2 = 3 then (decode x word).toOption
  else
    (Compressed.expand? x (word.setWidth 16)).bind fun expansion =>
      (decode x expansion.encode).toOption

theorem ofRaw?_eq (x : Xlen) (word : BitVec 32) :
    ofRaw? x word = (InstructionBits.ofWord word).meaning? x := by
  unfold ofRaw? InstructionBits.ofWord
  rw [Compressed.isShort_setWidth]
  split
  · rename_i long
    rw [long]
    rfl
  · rename_i short
    rw [if_pos (bne_iff_ne.mpr short), InstructionBits.meaning?]
    cases expanded : Compressed.expand? x (word.setWidth 16) with
    | none => rfl
    | some expansion =>
        have wellFormed := (Compressed.compressible_of_expand? expanded).wellFormed
        rw [Option.bind_some, decode_encode wellFormed]
        rfl

end Instruction

namespace InstructionBits

variable {x : Xlen} {left right : InstructionBits}

theorem text_of_meaning? {bits : InstructionBits} {instruction : Instruction}
    (means : bits.meaning? x = some instruction) : bits.text x = instruction.text := by
  simp only [text, means]

theorem exists_text_of_none {bits : InstructionBits} (none : bits.meaning? x = none) :
    ∃ rest, bits.text x = "unknown " ++ rest := by
  simp only [text, none]
  cases bits <;> exact ⟨_, rfl⟩

theorem eq_of_text_of_none (leftNone : left.meaning? x = none) (rightNone : right.meaning? x = none)
    (same : left.text x = right.text x) : left = right := by
  have lengths (code : BitVec 16) (word : BitVec 32) :
      Text.Numeral.hex 4 code.toNat ≠ Text.Numeral.hex 8 word.toNat := by
    intro same
    have four := Text.Numeral.length_hex (by decide : 0 < 4) code.isLt
    have eight := Text.Numeral.length_hex (by decide : 0 < 8) word.isLt
    rw [same] at four
    omega
  simp only [text, leftNone, rightNone] at same
  cases left with
  | short code =>
      cases right with
      | short other =>
          have texts := (String.append_right_inj _).mp same
          rw [BitVec.eq_of_toNat_eq (Text.Numeral.hex_injective texts)]
      | long word => exact absurd ((String.append_right_inj _).mp same) (lengths code word)
  | long word =>
      cases right with
      | short code => exact absurd ((String.append_right_inj _).mp same.symm) (lengths code word)
      | long other =>
          have texts := (String.append_right_inj _).mp same
          rw [BitVec.eq_of_toNat_eq (Text.Numeral.hex_injective texts)]

/-- Bits look alike if they mean the same instruction, or if they are the same and mean none. -/
theorem text_eq_iff :
    left.text x = right.text x ↔
      (∃ instruction, left.meaning? x = some instruction ∧ right.meaning? x = some instruction) ∨
        (left.meaning? x = none ∧ right.meaning? x = none ∧ left = right) := by
  constructor
  · intro same
    cases leftMeans : left.meaning? x with
    | some instruction =>
        rw [text_of_meaning? leftMeans] at same
        cases rightMeans : right.meaning? x with
        | some other =>
            rw [text_of_meaning? rightMeans] at same
            rw [Instruction.text_injective same]
            exact .inl ⟨other, rfl, rfl⟩
        | none =>
            obtain ⟨rest, unknown⟩ := exists_text_of_none rightMeans
            exact absurd (same.trans unknown) (instruction.text_ne_unknown rest)
    | none =>
        cases rightMeans : right.meaning? x with
        | some other =>
            obtain ⟨rest, unknown⟩ := exists_text_of_none leftMeans
            rw [text_of_meaning? rightMeans] at same
            exact absurd (same.symm.trans unknown) (other.text_ne_unknown rest)
        | none => exact .inr ⟨rfl, rfl, eq_of_text_of_none leftMeans rightMeans same⟩
  · rintro (⟨instruction, leftMeans, rightMeans⟩ | ⟨-, -, rfl⟩)
    · rw [text_of_meaning? leftMeans, text_of_meaning? rightMeans]
    · rfl

/-- The word has the bits at its start. -/
def Begins : InstructionBits → BitVec 32 → Prop
  | short code, word => word.setWidth 16 = code
  | long raw, word => word = raw

theorem ofWord_eq_of_meaning? {bits : InstructionBits} {instruction : Instruction}
    (means : bits.meaning? x = some instruction) {word : BitVec 32} (begins : bits.Begins word) :
    ofWord word = bits := by
  cases bits with
  | short code =>
      obtain rfl : word.setWidth 16 = code := begins
      exact if_pos (Compressed.isShort_of_expand? means)
  | long raw =>
      obtain rfl : word = raw := begins
      have low : word.extractLsb' 0 2 = 3 := by
        cases decoded : Instruction.decode x word with
        | ok => exact Instruction.low_of_decode decoded
        | error =>
            rw [meaning?, decoded] at means
            cases means
      rw [ofWord, Compressed.isShort_setWidth, low]
      rfl

theorem disassemble_of_meaning? {bits : InstructionBits} {instruction : Instruction}
    (means : bits.meaning? x = some instruction) {word : BitVec 32} (begins : bits.Begins word) :
    disassemble x word = instruction.text := by
  rw [disassemble, ofWord_eq_of_meaning? means begins]
  exact text_of_meaning? means

end InstructionBits

namespace Hart

open Execution

/-- Two words have the same text exactly if they stand for the same instruction, or if they stand
for none and have the same length and the same significant bits.  A word is shown as its instruction
or as unknown.  No two instructions have the same text, and none looks unknown.  Whenever bits
complete, the text of any word that begins with them, which is also that of the trace, is the text
of the instruction that was executed. -/
theorem disassemble_faithful (x : Xlen) :
    (∀ left right : BitVec 32, disassemble x left = disassemble x right ↔
      (∃ instruction, Instruction.ofRaw? x left = some instruction ∧
        Instruction.ofRaw? x right = some instruction) ∨
      (Instruction.ofRaw? x left = none ∧ Instruction.ofRaw? x right = none ∧
        InstructionBits.ofWord left = InstructionBits.ofWord right)) ∧
    (∀ word,
      match Instruction.ofRaw? x word with
      | some instruction => disassemble x word = instruction.text
      | none => ∃ rest, disassemble x word = "unknown " ++ rest) ∧
    (∀ left right : Instruction, left.text = right.text ↔ left = right) ∧
    (∀ (instruction : Instruction) (rest : String), instruction.text ≠ "unknown " ++ rest) ∧
    ∀ (hart after : Hart x) (bits : InstructionBits), hart.perform bits = (.retired, after) →
      ∃ instruction completed,
        hart.decode? bits = some instruction ∧
        execute hart.pc bits instruction (hart.advanced bits) = .ok () completed ∧
        after = completed.retire ∧
        (∀ word, bits.Begins word → disassemble x word = instruction.text) ∧
        Trace.ofPerform hart bits .retired =
          [{ severity := .trace
             text := Text.Numeral.hex 8 hart.pc.toNat ++ ": " ++ instruction.text }] := by
  refine ⟨?_, ?_, fun left right => ⟨Instruction.text_injective, congrArg _⟩,
    Instruction.text_ne_unknown, ?_⟩
  · intro left right
    simp only [Instruction.ofRaw?_eq]
    exact InstructionBits.text_eq_iff
  · intro word
    rw [Instruction.ofRaw?_eq]
    split
    · rename_i means
      exact InstructionBits.text_of_meaning? means
    · rename_i none
      exact InstructionBits.exists_text_of_none none
  · intro hart after bits ends
    rcases perform_cases hart bits with
      ⟨_, _, trap⟩ | ⟨instruction, completed, decoded, executes, answered⟩
    · cases trap.symm.trans ends
    · have means := (decode?_eq_some_iff.mp decoded).2.1
      cases answered.symm.trans ends
      refine ⟨instruction, completed, decoded, executes, rfl, ?_, ?_⟩
      · exact fun word => InstructionBits.disassemble_of_meaning? means
      · rw [Trace.ofPerform, Trace.retired, InstructionBits.text_of_meaning? means]

/-- A compressed instruction is shown as what it stands for, whatever follows it. -/
theorem disassemble_faithful_short :
    let hart : Hart .rv32 := initial { memorySize := 0 }
    (hart.perform (.short 0x4511)).1 = .retired ∧
      disassemble .rv32 0xFFFF4511 = "addi x10, x0, 4" := by
  intro hart
  have ends : hart.perform (.short 0x4511) = (.retired, (hart.perform (.short 0x4511)).2) := by
    decide
  obtain ⟨instruction, _, decoded, -, -, shown, -⟩ :=
    (disassemble_faithful .rv32).2.2.2.2 _ _ _ ends
  obtain rfl : .immediate .addi 10 0 4 = instruction := Option.some.inj decoded
  exact ⟨by decide, (shown 0xFFFF4511 rfl).trans (by decide)⟩

end Hart

end RiscV
