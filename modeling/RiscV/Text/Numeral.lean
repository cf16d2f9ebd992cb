/-!
# Numerals

Written numbers.  Hexadecimal text carries its base mark and a least number of digits.  A numeral
is read in a given base, may start with one plus sign, and must fit into a given number of bits.
-/

namespace RiscV

namespace Text

namespace Numeral

/-- Digits with zeros in front of them up to a least count. -/
def padded (count : Nat) (digits : List Char) : List Char :=
  List.replicate (count - digits.length) '0' ++ digits

/-- The base-sixteen text of a number with at least `count` small digits. -/
def hex (count value : Nat) : String :=
  "0x" ++ String.ofList (padded count (Nat.toDigits 16 value))

/-- The base-sixteen text of a number with at least `count` capital digits. -/
def capitalHex (count value : Nat) : String :=
  "0x" ++ String.ofList (padded count ((Nat.toDigits 16 value).map Char.toUpper))

/-- The value of a digit, letters of either case following the ten decimal digits. -/
def digitValue? (c : Char) : Option Nat :=
  if '0' ≤ c ∧ c ≤ '9' then some (c.toNat - '0'.toNat)
  else if 'a' ≤ c ∧ c ≤ 'z' then some (c.toNat - 'a'.toNat + 10)
  else if 'A' ≤ c ∧ c ≤ 'Z' then some (c.toNat - 'A'.toNat + 10)
  else none

/-- The value of a character that is a digit of the base. -/
def digit? (base : Nat) (c : Char) : Option Nat :=
  (digitValue? c).filter (· < base)

/-- The number with the given digits, the most significant first. -/
def ofDigits (base : Nat) (digits : List Nat) : Nat :=
  digits.foldl (fun value digit => base * value + digit) 0

/-- A text without the one plus sign it may start with. -/
def unsigned : List Char → List Char
  | '+' :: rest => rest
  | text => text

/-- Reads a whole text as a number that fits into `bits` bits; a text without digits is no
number. -/
def read? (base bits : Nat) (text : List Char) : Option Nat :=
  match unsigned text with
  | [] => none
  | digits => ((digits.mapM (digit? base)).map (ofDigits base)).filter (· < 1 <<< bits)

end Numeral

end Text

end RiscV
