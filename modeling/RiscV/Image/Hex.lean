import RiscV.Image.Error
import RiscV.Memory
import RiscV.Text.Blank

/-!
# Hex files

A hex file is a text.  A line moves a cursor to an address, or lists bytes that are written from
the cursor on; comments start with two slashes, and blank lines say nothing.  The lines before one
that cannot be loaded stay loaded, and of that line nothing is written.
-/

namespace RiscV

/-- What a line of a hex file says. -/
inductive HexLine where
  | blank
  /-- Where the next bytes go. -/
  | address (value : BitVec 64)
  | data (bytes : List UInt8)
  deriving DecidableEq, Repr

namespace HexLine

/-- A line up to the first comment. -/
def withoutComment : List Char → List Char
  | [] => []
  | '/' :: '/' :: _ => []
  | c :: rest => c :: withoutComment rest

/-- The byte written in a word of two bytes. -/
def byte? (word : List Char) : Option UInt8 :=
  if Text.byteLength word = 2 then (Text.Numeral.read? 16 8 word).map UInt8.ofNat else none

/-- The byte written in a word, or the flaw that it is none. -/
def byte (word : List Char) : Except HexFlaw UInt8 :=
  match byte? word with
  | some byte => .ok byte
  | none => .error (.byte (String.ofList word))

/-- What a line says whose comment and outer blanks are gone. -/
def ofContent : List Char → Except HexFlaw HexLine
  | [] => .ok blank
  | '@' :: text =>
      match Text.Numeral.read? 16 64 (Text.trim text) with
      | some value => .ok (address (BitVec.ofNat 64 value))
      | none => .error (.address (String.ofList text))
  | content => ((Text.words content).mapM byte).map data

/-- What a line says. -/
def ofText (line : List Char) : Except HexFlaw HexLine :=
  ofContent (Text.trim (withoutComment line))

end HexLine

namespace Hex

/-- Loads the lines from the one with the given number on. -/
def loadLines (number : Nat) (cursor : BitVec 64) :
    List (List Char) → EStateM LoadError Memory Unit
  | [] => pure ()
  | line :: rest =>
      match HexLine.ofText line with
      | .error flaw => throw (.malformed number flaw)
      | .ok .blank => loadLines (number + 1) cursor rest
      | .ok (.address value) => loadLines (number + 1) value rest
      | .ok (.data bytes) => do
          EStateM.adaptExcept (fun _ => .outOfBounds cursor.toNat bytes.length)
            (Memory.write cursor.toNat bytes.toByteArray)
          loadLines (number + 1) (cursor + BitVec.ofNat 64 bytes.length) rest

/-- Loads a hex file. -/
def load (text : String) : EStateM LoadError Memory Unit :=
  loadLines 1 0 (Text.lines text.toList)

/-- Loads a hex file given by its bytes, which must be text. -/
def loadBytes (file : ByteArray) : EStateM LoadError Memory Unit :=
  match String.fromUTF8? file with
  | some text => load text
  | none => throw .unreadable

end Hex

end RiscV
