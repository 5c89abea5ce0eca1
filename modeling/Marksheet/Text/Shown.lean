import Marksheet.Source.Alphabet
import Marksheet.Text.Hidden

/-!
# Text shown in quotes

A text is shown between double quotes. Quotes and backslashes inside are
escaped, and characters that do not show by themselves stand by name or by
number, so the text can be told from what surrounds it.
-/

namespace Marksheet.Text

open Source.Alphabet (inRanges)

/-- The character shows by itself. -/
def isShown (c : Char) : Bool :=
  let code := c.toNat
  if code < 32 then false
  else if code < 127 then true
  else if code = 127 then false
  else !inRanges hiddenRanges code

/-- A character by its number. -/
def numbered (c : Char) : List Char :=
  ['\\', 'u', '\x7b'] ++ Nat.toDigits 16 c.toNat ++ ['\x7d']

/-- A character between quotes. -/
def showChar (c : Char) : List Char :=
  if c = Char.ofNat 0 then ['\\', '0']
  else if c = '\t' then ['\\', 't']
  else if c = '\r' then ['\\', 'r']
  else if c = '\n' then ['\\', 'n']
  else if c = '\\' then ['\\', '\\']
  else if c = '\"' then ['\\', '\"']
  else if isShown c then [c]
  else numbered c

/-- A text between quotes. -/
def shown (text : String) : String :=
  String.ofList ('\"' :: text.toList.flatMap showChar ++ ['\"'])

end Marksheet.Text
