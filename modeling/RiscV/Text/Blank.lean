/-!
# Blanks, words and lines

A character is blank if it has the Unicode property White_Space.  Texts are cut into pieces at
separators, trimmed of blanks, and split into words.
-/

namespace RiscV

namespace Text

/-- Whether a code point has the property White_Space. -/
def isBlankCode (code : Nat) : Bool :=
  (0x0009 ≤ code && code ≤ 0x000D) || code == 0x0020 || code == 0x0085 || code == 0x00A0 ||
    code == 0x1680 || (0x2000 ≤ code && code ≤ 0x200A) || code == 0x2028 || code == 0x2029 ||
    code == 0x202F || code == 0x205F || code == 0x3000

/-- Whether a character is white space. -/
def isBlank (c : Char) : Bool := isBlankCode c.toNat

/-- A text without the blanks at its two ends. -/
def trim (text : List Char) : List Char :=
  ((text.dropWhile isBlank).reverse.dropWhile isBlank).reverse

/-- Puts a character in front of the first of some pieces, or starts a new piece in its place. -/
def addToPieces (isSeparator : Char → Bool) (c : Char) (pieces : List (List Char)) :
    List (List Char) :=
  if isSeparator c then [] :: pieces
  else
    match pieces with
    | [] => [[c]]
    | piece :: rest => (c :: piece) :: rest

/-- The pieces between separators, of which there is one more than there are separators. -/
def pieces (isSeparator : Char → Bool) (text : List Char) : List (List Char) :=
  text.foldr (addToPieces isSeparator) [[]]

/-- The pieces between line feeds. -/
def lines (text : List Char) : List (List Char) := pieces (· == '\n') text

/-- The longest pieces without blanks. -/
def words (text : List Char) : List (List Char) :=
  (pieces isBlank text).filter (!·.isEmpty)

/-- Number of bytes of a text in UTF-8. -/
def byteLength (text : List Char) : Nat :=
  text.foldr (fun c length => c.utf8Size + length) 0

end Text

end RiscV
