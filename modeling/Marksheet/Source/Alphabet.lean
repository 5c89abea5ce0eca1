import Marksheet.Source.Alphabet.Identifiers

/-!
# Classes of characters in a source text

The classes are those that the lexical rules of the graded language name. ASCII
is decided by comparison; beyond ASCII the property tables decide.
-/

namespace Marksheet.Source.Alphabet

/-- Some inclusive range of the table holds the code point. -/
def inRanges (table : List (Nat × Nat)) (code : Nat) : Bool :=
  table.any fun range => range.1 ≤ code && code ≤ range.2

/-- A decimal digit of ASCII. -/
def isDigit (c : Char) : Bool := '0' ≤ c && c ≤ '9'

/-- A letter of ASCII. -/
def isAsciiLetter (c : Char) : Bool := ('a' ≤ c && c ≤ 'z') || ('A' ≤ c && c ≤ 'Z')

/-- A hexadecimal digit in either case. -/
def isHexDigit (c : Char) : Bool :=
  isDigit c || ('a' ≤ c && c ≤ 'f') || ('A' ≤ c && c ≤ 'F')

/-- The character may begin a word: the underscore or a letter-like character. -/
def beginsWord (c : Char) : Bool :=
  if c.toNat < 128 then isAsciiLetter c || c = '_' else inRanges startRanges c.toNat

/-- The character may continue a word. -/
def continuesWord (c : Char) : Bool :=
  if c.toNat < 128 then isAsciiLetter c || c = '_' || isDigit c
  else inRanges continueRanges c.toNat

/-- A character that may stand between two tokens without any effect on layout:
the vertical tab and three characters without width. -/
def isInvisible (c : Char) : Bool :=
  c = Char.ofNat 0x0B || c = Char.ofNat 0xFEFF || c = Char.ofNat 0x2060 || c = Char.ofNat 0x200B

/-- A quotation mark that opens or closes a string: single, double or back quote. -/
def isQuote (c : Char) : Bool := c = '\'' || c = '\"' || c = Char.ofNat 96

/-- A letter that may stand before the opening quote of a string. -/
def isStringFlag (c : Char) : Bool :=
  c = 'f' || c = 'F' || c = 'r' || c = 'R' || c = 'b' || c = 'B' || c = 'u' || c = 'U'

end Marksheet.Source.Alphabet
