import Marksheet.Source.Alphabet
import Marksheet.Source.Alphabet.LetterCase

/-!
# Text in lower case

Lower case is Unicode's full mapping without a language: each character moves
by the simple mapping, a capital I with a dot above becomes two characters, and
a capital sigma becomes the final one where a word ends.
-/

namespace Marksheet.Text

open Source.Alphabet

/-- How far a run moves a code point, if the run holds it. -/
def shift? (run : LowerRun) (code : Nat) : Option Int :=
  if run.first ≤ code && code ≤ run.last && (code - run.first) % run.step = 0 then some run.shift
  else none

/-- The simple lower-case form of a character. -/
def lowerChar (c : Char) : Char :=
  if c.toNat < 128 then
    if 'A' ≤ c && c ≤ 'Z' then Char.ofNat (c.toNat + 32) else c
  else
    match lowerRuns.findSome? (shift? · c.toNat) with
    | some shift => Char.ofNat (c.toNat + shift).toNat
    | none => c

/-- A character that has a case. -/
def isCased (c : Char) : Bool :=
  if c.toNat < 128 then isAsciiLetter c else inRanges casedRanges c.toNat

/-- A character that does not count when the end of a word is sought. -/
def isCaseIgnorable (c : Char) : Bool :=
  if c.toNat < 128 then
    c = '\'' || c = '.' || c = ':' || c = '^' || c = Char.ofNat 96
  else inRanges ignorableRanges c.toNat

/-- The first character that counts has a case. -/
def meetsCased (cs : List Char) : Bool :=
  match cs.dropWhile isCaseIgnorable with
  | c :: _ => isCased c
  | [] => false

/-- The lower-case form of a character between the characters before it, nearest first, and those
behind it. -/
def lowerAt (before : List Char) (c : Char) (behind : List Char) : List Char :=
  if c = Char.ofNat 0x3A3 then
    if meetsCased before && !meetsCased behind then [Char.ofNat 0x3C2] else [Char.ofNat 0x3C3]
  else if c = Char.ofNat 0x130 then ['i', Char.ofNat 0x307]
  else [lowerChar c]

/-- The lower-case form of what stands behind the given characters, nearest first; collected in
reverse. -/
def lowerBehind (collected before : List Char) : List Char → List Char
  | [] => collected
  | c :: behind => lowerBehind ((lowerAt before c behind).reverse ++ collected) (c :: before) behind

/-- A text in lower case. -/
def lowerCase (cs : List Char) : List Char := (lowerBehind [] [] cs).reverse

end Marksheet.Text
