import Mathlib
import RiscV.Instruction.Assembly
import RiscV.Proofs.Numeral

/-!
# Assembly text is unambiguous

The text of an instruction can be taken apart again: the mnemonic ends at the first blank, and the
operands are separated by commas, which occur nowhere else.  The mnemonic tells the operation and
the kinds of its operands, and an operand of a known kind is determined by its text.
-/

namespace RiscV

open Text

/-- Two lists that are cut at the first separator. -/
theorem cut_injective {α : Type} {separator : α} {left right leftRest rightRest : List α}
    (leftFree : separator ∉ left) (rightFree : separator ∉ right)
    (same : left ++ separator :: leftRest = right ++ separator :: rightRest) :
    left = right ∧ leftRest = rightRest := by
  induction left generalizing right with
  | nil =>
      cases right with
      | nil => exact ⟨rfl, (List.cons.inj same).2⟩
      | cons head right =>
          obtain ⟨rfl, -⟩ := List.cons.inj same
          exact absurd List.mem_cons_self rightFree
  | cons head left ih =>
      cases right with
      | nil =>
          obtain ⟨rfl, -⟩ := List.cons.inj same
          exact absurd List.mem_cons_self leftFree
      | cons other right =>
          obtain ⟨rfl, tails⟩ := List.cons.inj same
          have leftFree : separator ∉ left := fun h => leftFree (List.mem_cons_of_mem _ h)
          have rightFree : separator ∉ right := fun h => rightFree (List.mem_cons_of_mem _ h)
          obtain ⟨rfl, rests⟩ := ih leftFree rightFree tails
          exact ⟨rfl, rests⟩

theorem Csr.name_injective {left right : Csr} (same : left.name = right.name) : left = right := by
  have found (csr : Csr) : all.find? (·.name == csr.name) = some csr := by
    cases csr <;> rfl
  have lookup := found left
  rw [same, found right] at lookup
  exact (Option.some.inj lookup).symm

theorem Csr.name_ne_hex (csr : Csr) (least value : Nat) : csr.name ≠ Numeral.hex least value := by
  have letter : csr.name.toList.head? ≠ some '0' := by
    cases csr <;> decide
  intro same
  rw [same, Numeral.toList_hex] at letter
  exact letter rfl

theorem FenceSet.text_injective {left right : FenceSet} (same : left.text = right.text) :
    left = right := by
  obtain ⟨input, output, reads, writes⟩ := left
  obtain ⟨input', output', reads', writes'⟩ := right
  revert same
  cases input <;> cases output <;> cases reads <;> cases writes <;> cases input' <;>
    cases output' <;> cases reads' <;> cases writes' <;> decide

/-- Texts without commas are told apart again after they were joined. -/
theorem intercalate_injective {left right : List (List Char)} (leftFree : ∀ text ∈ left, ',' ∉ text)
    (rightFree : ∀ text ∈ right, ',' ∉ text) (size : left.length = right.length)
    (same : [',', ' '].intercalate left = [',', ' '].intercalate right) : left = right := by
  induction left generalizing right with
  | nil => exact (List.eq_nil_of_length_eq_zero size.symm).symm
  | cons head left ih =>
      obtain ⟨other, right, rfl⟩ := List.exists_cons_of_length_eq_add_one size.symm
      obtain ⟨headFree, leftFree⟩ := List.forall_mem_cons.mp leftFree
      obtain ⟨otherFree, rightFree⟩ := List.forall_mem_cons.mp rightFree
      have size : left.length = right.length := Nat.succ.inj size
      match left, right, size with
      | [], [], _ => simpa using same
      | second :: left, second' :: right, size =>
          simp only [List.intercalate_cons_cons, List.append_assoc, List.cons_append,
            List.nil_append] at same
          obtain ⟨rfl, rests⟩ := cut_injective headFree otherFree same
          rw [ih leftFree rightFree size (List.cons.inj rests).2]

namespace Assembly

namespace Operand

/-- What kind of operand it is. -/
inductive Kind where
  | register | decimal | hex | address | csr | accesses
  deriving DecidableEq

/-- The kind of an operand, which its place in an instruction tells. -/
def kind : Operand → Kind
  | register _ => .register
  | decimal _ => .decimal
  | hex _ => .hex
  | address _ _ => .address
  | csr _ => .csr
  | accesses _ => .accesses

theorem comma_notMem_text (operand : Operand) : ',' ∉ operand.text.toList := by
  have number (value : Int) : ',' ∉ (toString value).toList :=
    Numeral.notMem_toString_int value (by decide) (by decide)
  have name (register : Register) : ',' ∉ register.name.toList := by
    have digits := number register.toNat
    rw [Register.name, String.toList_append, List.mem_append]
    rintro (letter | member)
    · exact absurd letter (by decide)
    · exact digits member
  have hexadecimal (least value : Nat) : ',' ∉ (Numeral.hex least value).toList := by
    intro member
    rcases Numeral.mem_hex member with mark | digit
    · exact absurd mark (by decide)
    · exact absurd digit (by decide)
  cases operand with
  | register register => exact name register
  | decimal value => exact number value
  | hex value => exact hexadecimal 1 value
  | address offset base =>
      simp only [text, String.toList_append, List.mem_append, not_or]
      exact ⟨⟨⟨number offset, by decide⟩, name base⟩, by decide⟩
  | csr number =>
      rw [text, csrText]
      split
      · rename_i csr _
        cases csr <;> decide
      · exact hexadecimal 3 number.toNat
  | accesses set =>
      obtain ⟨input, output, reads, writes⟩ := set
      cases input <;> cases output <;> cases reads <;> cases writes <;> decide

end Operand

theorem csrText_injective {left right : BitVec 12} (same : csrText left = csrText right) :
    left = right := by
  unfold csrText at same
  split at same
  · rename_i csr found
    split at same
    · rename_i other found'
      obtain rfl := Csr.name_injective same
      have wide := (Csr.number_of_ofNumber? found).symm.trans (Csr.number_of_ofNumber? found')
      simpa [BitVec.setWidth_setWidth_of_le] using congrArg (·.setWidth 12) wide
    · exact absurd same (csr.name_ne_hex _ _)
  · split at same
    · rename_i csr _
      exact absurd same.symm (csr.name_ne_hex _ _)
    · exact BitVec.eq_of_toNat_eq (Numeral.hex_injective same)

end Assembly

theorem Register.name_injective {left right : Register} (same : left.name = right.name) :
    left = right :=
  BitVec.eq_of_toNat_eq (Nat.repr_injective (String.append_right_inj "x" |>.mp same))

namespace Assembly

/-- An operand of a known kind is determined by its text. -/
theorem Operand.text_injective {left right : Operand} (kinds : left.kind = right.kind)
    (same : left.text = right.text) : left = right := by
  have int_injective {value other : Int} (same : toString value = toString other) :
      value = other := Int.repr_injective same
  cases left <;> cases right <;> cases kinds
  case register => rw [Register.name_injective same]
  case decimal => rw [int_injective same]
  case hex => rw [Numeral.hex_injective same]
  case csr => rw [csrText_injective same]
  case accesses => rw [FenceSet.text_injective same]
  case address offset base offset' base' =>
    have free (value : Int) : '(' ∉ (toString value).toList :=
      Numeral.notMem_toString_int value (by decide) (by decide)
    have texts := congrArg String.toList same
    simp only [text, String.toList_append, List.append_assoc] at texts
    obtain ⟨offsets, bases⟩ := cut_injective (free offset) (free offset') texts
    have names : base.name.toList = base'.name.toList := (List.append_left_inj [')']).mp bases
    rw [int_injective (String.toList_inj.mp offsets),
      Register.name_injective (String.toList_inj.mp names)]

/-- The texts of some operands with a comma and a blank between them. -/
def join (operands : List Operand) : List Char :=
  [',', ' '].intercalate (operands.map (·.text.toList))

theorem operands_injective {left right : List Operand}
    (kinds : left.map (·.kind) = right.map (·.kind))
    (texts : left.map (·.text.toList) = right.map (·.text.toList)) : left = right := by
  induction left generalizing right with
  | nil => exact (List.map_eq_nil_iff.mp texts.symm).symm
  | cons head left ih =>
      obtain ⟨other, right, rfl, text, texts⟩ := List.map_eq_cons_iff.mp texts.symm
      obtain ⟨kind, kinds⟩ := List.cons.inj kinds
      rw [Operand.text_injective kind (String.toList_inj.mp text.symm), ih kinds texts.symm]

/-- Operands of known kinds are determined by their joint text. -/
theorem join_injective {left right : List Operand}
    (kinds : left.map (·.kind) = right.map (·.kind)) (same : join left = join right) :
    left = right := by
  have free (operands : List Operand) : ∀ text ∈ operands.map (·.text.toList), ',' ∉ text := by
    intro text member
    obtain ⟨operand, -, rfl⟩ := List.mem_map.mp member
    exact operand.comma_notMem_text
  have count : (left.map (·.text.toList)).length = (right.map (·.text.toList)).length := by
    simpa using congrArg List.length kinds
  exact operands_injective kinds (intercalate_injective (free left) (free right) count same)

end Assembly

namespace Instruction

open Assembly

/-- The instruction with other operands, if they are of the right kinds. -/
def withOperands? : Instruction → List Operand → Option Instruction
  | immediate op .., [.register dest, .register src, .decimal value] =>
      some (immediate op dest src (.ofInt 12 value))
  | shift op .., [.register dest, .register src, .decimal amount] =>
      some (shift op dest src (.ofInt 6 amount))
  | immediateWord .., [.register dest, .register src, .decimal value] =>
      some (immediateWord dest src (.ofInt 12 value))
  | shiftWord op .., [.register dest, .register src, .decimal amount] =>
      some (shiftWord op dest src (.ofInt 5 amount))
  | auipc .., [.register dest, .hex upper] => some (auipc dest (.ofNat 20 upper))
  | lui .., [.register dest, .hex upper] => some (lui dest (.ofNat 20 upper))
  | register op .., [.register dest, .register left, .register right] =>
      some (register op dest left right)
  | registerWord op .., [.register dest, .register left, .register right] =>
      some (registerWord op dest left right)
  | jal .., [.register dest, .decimal offset] =>
      some (jal dest ((BitVec.ofInt 21 offset).extractLsb' 1 20))
  | jalr .., [.register dest, .address offset base] => some (jalr dest base (.ofInt 12 offset))
  | branch condition .., [.register left, .register right, .decimal offset] =>
      some (branch condition left right ((BitVec.ofInt 13 offset).extractLsb' 1 12))
  | load op .., [.register dest, .address offset base] =>
      some (load op dest base (.ofInt 12 offset))
  | store op .., [.register src, .address offset base] =>
      some (store op src base (.ofInt 12 offset))
  | fence .., [.accesses predecessor, .accesses successor] => some (fence predecessor successor)
  | csr op _ (.register _) _, [.register dest, .csr number, .register source] =>
      some (csr op dest (.register source) number)
  | csr op _ (.immediate _) _, [.register dest, .csr number, .decimal value] =>
      some (csr op dest (.immediate (.ofInt 5 value)) number)
  | form, [] => if form.operands = [] then some form else none
  | _, _ => none

/-- The instruction with all operands zero, which keeps the kinds of its operands. -/
def form : Instruction → Instruction
  | immediate op .. => immediate op 0 0 0
  | shift op .. => shift op 0 0 0
  | immediateWord .. => immediateWord 0 0 0
  | shiftWord op .. => shiftWord op 0 0 0
  | auipc .. => auipc 0 0
  | lui .. => lui 0 0
  | register op .. => register op 0 0 0
  | registerWord op .. => registerWord op 0 0 0
  | jal .. => jal 0 0
  | jalr .. => jalr 0 0 0
  | branch condition .. => branch condition 0 0 0
  | load op .. => load op 0 0 0
  | store op .. => store op 0 0 0
  | fence .. => fence (FenceSet.ofBits 0) (FenceSet.ofBits 0)
  | csr op _ (.register _) _ => csr op 0 (.register 0) 0
  | csr op _ (.immediate _) _ => csr op 0 (.immediate 0) 0
  | fenceI => fenceI
  | ecall => ecall
  | ebreak => ebreak
  | mret => mret
  | sret => sret
  | wfi => wfi

/-- All instructions whose operands are zero. -/
def forms : List Instruction :=
  ImmediateOp.all.map (immediate · 0 0 0) ++ ShiftOp.all.map (shift · 0 0 0) ++
    [immediateWord 0 0 0] ++ ShiftOp.all.map (shiftWord · 0 0 0) ++ [auipc 0 0, lui 0 0] ++
    RegisterOp.all.map (register · 0 0 0) ++ WordOp.all.map (registerWord · 0 0 0) ++
    [jal 0 0, jalr 0 0 0] ++ Condition.all.map (branch · 0 0 0) ++ LoadOp.all.map (load · 0 0 0) ++
    StoreOp.all.map (store · 0 0 0) ++ [fence (FenceSet.ofBits 0) (FenceSet.ofBits 0), fenceI] ++
    CsrOp.all.map (csr · 0 (.register 0) 0) ++ CsrOp.all.map (csr · 0 (.immediate 0) 0) ++
    [ecall, ebreak, mret, sret, wfi]

/-- The form with the given mnemonic. -/
def ofMnemonic? (mnemonic : String) : Option Instruction :=
  forms.find? (·.mnemonic == mnemonic)

theorem ofMnemonic?_mnemonic (instruction : Instruction) :
    ofMnemonic? instruction.mnemonic = some instruction.form := by
  cases instruction with
  | immediate op => cases op <;> rfl
  | shift op => cases op <;> rfl
  | shiftWord op => cases op <;> rfl
  | register op => cases op <;> rfl
  | registerWord op => cases op <;> rfl
  | branch condition => cases condition <;> rfl
  | load op => cases op <;> rfl
  | store op => cases op <;> rfl
  | csr op _ operand => cases operand <;> cases op <;> rfl
  | _ => rfl

theorem kind_operands_form (instruction : Instruction) :
    instruction.form.operands.map (·.kind) = instruction.operands.map (·.kind) := by
  cases instruction with
  | csr _ _ operand => cases operand <;> rfl
  | _ => rfl

/-- The operands say all that the form leaves out. -/
theorem withOperands?_operands (instruction : Instruction) :
    instruction.form.withOperands? instruction.operands = some instruction := by
  have amount {width : Nat} (amount : BitVec width) : BitVec.ofInt width amount.toNat = amount := by
    rw [BitVec.ofInt_natCast, BitVec.ofNat_toNat, BitVec.setWidth_eq]
  have halved {width : Nat} (offset : BitVec width) :
      (BitVec.ofInt (width + 1) (bytes offset).toInt).extractLsb' 1 width = offset := by
    rw [BitVec.ofInt_toInt]
    exact BitVec.extractLsb'_append_eq_left
  cases instruction with
  | immediate op dest src value =>
      exact congrArg (some ∘ immediate op dest src) (BitVec.ofInt_toInt ..)
  | shift op dest src value => exact congrArg (some ∘ shift op dest src) (amount value)
  | immediateWord dest src value =>
      exact congrArg (some ∘ immediateWord dest src) (BitVec.ofInt_toInt ..)
  | shiftWord op dest src value => exact congrArg (some ∘ shiftWord op dest src) (amount value)
  | auipc dest upper => exact congrArg (some ∘ auipc dest) (BitVec.ofNat_toNat ..)
  | lui dest upper => exact congrArg (some ∘ lui dest) (BitVec.ofNat_toNat ..)
  | jal dest offset => exact congrArg (some ∘ jal dest) (halved offset)
  | jalr dest base offset => exact congrArg (some ∘ jalr dest base) (BitVec.ofInt_toInt ..)
  | branch condition left right offset =>
      exact congrArg (some ∘ branch condition left right) (halved offset)
  | load op dest base offset => exact congrArg (some ∘ load op dest base) (BitVec.ofInt_toInt ..)
  | store op src base offset => exact congrArg (some ∘ store op src base) (BitVec.ofInt_toInt ..)
  | csr op dest operand number =>
      cases operand with
      | register => rfl
      | immediate value =>
          exact congrArg (fun value => some (csr op dest (.immediate value) number)) (amount value)
  | _ => rfl

theorem blank_notMem_mnemonic (instruction : Instruction) :
    ' ' ∉ instruction.mnemonic.toList := by
  have all : ∀ form ∈ forms, ' ' ∉ form.mnemonic.toList := by decide
  have found := ofMnemonic?_mnemonic instruction
  have same : instruction.form.mnemonic = instruction.mnemonic := by
    simpa using List.find?_some found
  rw [← same]
  exact all _ (List.mem_of_find?_eq_some found)

/-- A text ends its mnemonic with a blank, once one is put behind the whole text. -/
theorem toList_text (instruction : Instruction) :
    ∃ rest, instruction.text.toList ++ [' '] = instruction.mnemonic.toList ++ ' ' :: rest ∧
      rest.dropLast = join instruction.operands := by
  unfold text
  split
  · rename_i none
    rw [none]
    exact ⟨[], rfl, rfl⟩
  · refine ⟨join instruction.operands ++ [' '], ?_, List.dropLast_concat⟩
    simp only [String.toList_append, String.toList_intercalate, List.map_map, List.append_assoc]
    rfl

/-- The text of an instruction determines it. -/
theorem text_injective {left right : Instruction} (same : left.text = right.text) :
    left = right := by
  obtain ⟨rest, text, joined⟩ := left.toList_text
  obtain ⟨rest', text', joined'⟩ := right.toList_text
  rw [same, text'] at text
  obtain ⟨mnemonics, rfl⟩ :=
    cut_injective right.blank_notMem_mnemonic left.blank_notMem_mnemonic text
  have forms : left.form = right.form := by
    apply Option.some.inj
    rw [← ofMnemonic?_mnemonic, ← ofMnemonic?_mnemonic, String.toList_inj.mp mnemonics]
  have kinds : left.operands.map (·.kind) = right.operands.map (·.kind) :=
    left.kind_operands_form.symm.trans (forms ▸ right.kind_operands_form)
  have operands : left.operands = right.operands :=
    join_injective kinds (joined.symm.trans joined')
  apply Option.some.inj
  rw [← withOperands?_operands, ← withOperands?_operands, forms, operands]

/-- Bits without a meaning are not shown as an instruction. -/
theorem text_ne_unknown (instruction : Instruction) (rest : String) :
    instruction.text ≠ "unknown " ++ rest := by
  intro same
  obtain ⟨tail, text, -⟩ := instruction.toList_text
  have free : ' ' ∉ "unknown".toList := by decide
  have unknown : ("unknown " ++ rest).toList ++ [' '] =
      "unknown".toList ++ ' ' :: (rest.toList ++ [' ']) := by simp
  rw [same, unknown] at text
  have mnemonic :=
    String.toList_inj.mp (cut_injective free instruction.blank_notMem_mnemonic text).1
  have found := instruction.ofMnemonic?_mnemonic
  rw [← mnemonic] at found
  exact absurd found (by rw [show ofMnemonic? "unknown" = none from rfl]; exact nofun)

end Instruction

end RiscV
