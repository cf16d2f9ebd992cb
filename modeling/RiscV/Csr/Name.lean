import RiscV.Privilege

/-!
# Names and numbers of the control registers

The control registers that exist, in the order of their numbers.  The number of a register tells
whether it can be written and which privilege level it requires; numbers above twelve bits belong
to no register.
-/

namespace RiscV

/-- A control register. -/
inductive Csr where
  | sstatus | sie | stvec | sscratch | sepc | scause | stval | sip
  | mstatus | misa | medeleg | mideleg | mie | mtvec | mscratch | mepc | mcause | mtval | mip
  | mcycle | minstret | mcycleh | minstreth
  | cycle | instret | cycleh | instreth
  | mvendorid | marchid | mimpid | mhartid
  deriving DecidableEq, Repr

/-- The number by which a control register is requested. -/
abbrev CsrNumber := BitVec 16

namespace Csr

/-- All control registers in the order of their numbers. -/
def all : List Csr :=
  [sstatus, sie, stvec, sscratch, sepc, scause, stval, sip,
    mstatus, misa, medeleg, mideleg, mie, mtvec, mscratch, mepc, mcause, mtval, mip,
    mcycle, minstret, mcycleh, minstreth,
    cycle, instret, cycleh, instreth,
    mvendorid, marchid, mimpid, mhartid]

/-- The number of the register. -/
def number : Csr → CsrNumber
  | sstatus => 0x100
  | sie => 0x104
  | stvec => 0x105
  | sscratch => 0x140
  | sepc => 0x141
  | scause => 0x142
  | stval => 0x143
  | sip => 0x144
  | mstatus => 0x300
  | misa => 0x301
  | medeleg => 0x302
  | mideleg => 0x303
  | mie => 0x304
  | mtvec => 0x305
  | mscratch => 0x340
  | mepc => 0x341
  | mcause => 0x342
  | mtval => 0x343
  | mip => 0x344
  | mcycle => 0xB00
  | minstret => 0xB02
  | mcycleh => 0xB80
  | minstreth => 0xB82
  | cycle => 0xC00
  | instret => 0xC02
  | cycleh => 0xC80
  | instreth => 0xC82
  | mvendorid => 0xF11
  | marchid => 0xF12
  | mimpid => 0xF13
  | mhartid => 0xF14

def name : Csr → String
  | sstatus => "sstatus"
  | sie => "sie"
  | stvec => "stvec"
  | sscratch => "sscratch"
  | sepc => "sepc"
  | scause => "scause"
  | stval => "stval"
  | sip => "sip"
  | mstatus => "mstatus"
  | misa => "misa"
  | medeleg => "medeleg"
  | mideleg => "mideleg"
  | mie => "mie"
  | mtvec => "mtvec"
  | mscratch => "mscratch"
  | mepc => "mepc"
  | mcause => "mcause"
  | mtval => "mtval"
  | mip => "mip"
  | mcycle => "mcycle"
  | minstret => "minstret"
  | mcycleh => "mcycleh"
  | minstreth => "minstreth"
  | cycle => "cycle"
  | instret => "instret"
  | cycleh => "cycleh"
  | instreth => "instreth"
  | mvendorid => "mvendorid"
  | marchid => "marchid"
  | mimpid => "mimpid"
  | mhartid => "mhartid"

/-- Whether the register counts cycles or instructions. -/
def isCounter : Csr → Bool
  | mcycle | minstret | mcycleh | minstreth | cycle | instret | cycleh | instreth => true
  | _ => false

/-- The register with the given number. -/
def ofNumber? (number : CsrNumber) : Option Csr := all.find? (·.number == number)

theorem mem_all (csr : Csr) : csr ∈ all := by cases csr <;> simp [all]

@[simp]
theorem ofNumber?_number (csr : Csr) : ofNumber? csr.number = some csr := by cases csr <;> rfl

theorem number_of_ofNumber? {number : CsrNumber} {csr : Csr} (h : ofNumber? number = some csr) :
    csr.number = number := by
  simpa using List.find?_some h

end Csr

namespace CsrNumber

/-- The number fits in the twelve bits that instructions have for it. -/
def Valid (number : CsrNumber) : Prop := number < 0x1000

instance (number : CsrNumber) : Decidable number.Valid :=
  inferInstanceAs (Decidable (number < 0x1000))

/-- Registers with this number cannot be written. -/
def ReadOnly (number : CsrNumber) : Prop := number.extractLsb' 10 6 = 0b11

instance (number : CsrNumber) : Decidable number.ReadOnly :=
  inferInstanceAs (Decidable (number.extractLsb' 10 6 = 0b11))

/-- The lowest level that may use registers with this number. -/
def requiredLevel (number : CsrNumber) : Level := number.extractLsb' 8 2

end CsrNumber

end RiscV
