import Marksheet.Decimal.Numeral
import Marksheet.Json.Basic

/-!
# Tokens of a JSON text

A text is cut into brackets, separators, scalars and texts in quotes. In quotes,
a character may be written as one unit of sixteen bits or as a pair of them; a
unit that lacks its partner is no character, and a text that holds one is not
whole.
-/

namespace Marksheet.Json

open Source.Alphabet (isDigit)

/-- A piece of a JSON text. -/
inductive Token where
  | openArray
  | closeArray
  | openObject
  | closeObject
  | comma
  | colon
  /-- A literal or a number. -/
  | scalar (value : Value)
  /-- A text in quotes; units without a partner are replaced, and then it is not whole. -/
  | quoted (text : String) (whole : Bool)
  deriving Inhabited

/-- Blank characters between tokens. -/
def isGap (c : Char) : Bool := c = ' ' || c = '\t' || c = '\n' || c = '\r'

/-! ### Texts in quotes -/

/-- The value of four hexadecimal digits. -/
def unitValue? (digits : List Char) : Option Nat :=
  if digits.all fun c => Decimal.digitValue c < 16 then some (Decimal.digitsValue 16 digits)
  else none

/-- The character that a letter behind a backslash stands for. -/
def escapeValue? (c : Char) : Option Nat :=
  if c = '\"' || c = '\\' || c = '/' then some c.toNat
  else if c = 'b' then some 8
  else if c = 'f' then some 12
  else if c = 'n' then some 10
  else if c = 'r' then some 13
  else if c = 't' then some 9
  else none

/-- The units up to the closing quote, and what follows it. -/
def quotedUnits : List Char → Option (List Nat × List Char)
  | [] => none
  | '\"' :: rest => some ([], rest)
  | '\\' :: 'u' :: a :: b :: c :: d :: rest => do
    let unit ← unitValue? [a, b, c, d]
    let (units, rest) ← quotedUnits rest
    return (unit :: units, rest)
  | '\\' :: c :: rest => do
    let unit ← escapeValue? c
    let (units, rest) ← quotedUnits rest
    return (unit :: units, rest)
  | c :: rest =>
    if c = '\\' || c.toNat < 32 then none
    else do
      let (units, rest) ← quotedUnits rest
      return (c.toNat :: units, rest)

/-- A unit that opens a pair. -/
def opensPair (unit : Nat) : Bool := 0xD800 ≤ unit && unit ≤ 0xDBFF

/-- A unit that closes a pair. -/
def closesPair (unit : Nat) : Bool := 0xDC00 ≤ unit && unit ≤ 0xDFFF

/-- The character of a pair. -/
def pairChar (first second : Nat) : Char :=
  Char.ofNat (0x10000 + (first - 0xD800) * 0x400 + (second - 0xDC00))

/-- The characters of units, and whether none lacks its partner. -/
def unitChars : List Nat → List Char × Bool
  | [] => ([], true)
  | first :: second :: rest =>
    if opensPair first && closesPair second then
      let (chars, whole) := unitChars rest
      (pairChar first second :: chars, whole)
    else
      let (chars, whole) := unitChars (second :: rest)
      if opensPair first || closesPair first then (Char.ofNat 0xFFFD :: chars, false)
      else (Char.ofNat first :: chars, whole)
  | [last] =>
    if opensPair last || closesPair last then ([Char.ofNat 0xFFFD], false)
    else ([Char.ofNat last], true)

/-! ### Numbers -/

/-- One digit or more, and what follows them. -/
def someDigits? (cs : List Char) : Option (List Char × List Char) :=
  match Decimal.spanDigits cs with
  | ([], _) => none
  | found => some found

/-- The digits before the point: zero, or digits that do not begin with it. -/
def wholeDigits? : List Char → Option (List Char × List Char)
  | '0' :: rest => some (['0'], rest)
  | cs => someDigits? cs

/-- A point and the digits behind it, if there is one. -/
def fractionDigits? : List Char → Option (List Char × List Char)
  | '.' :: rest => (someDigits? rest).map fun (digits, rest) => ('.' :: digits, rest)
  | cs => some ([], cs)

/-- A power of ten, if there is one. -/
def powerDigits? : List Char → Option (List Char × List Char)
  | [] => some ([], [])
  | mark :: rest =>
    if mark = 'e' || mark = 'E' then
      match rest with
      | [] => none
      | sign :: behind =>
        if sign = '+' || sign = '-' then
          (someDigits? behind).map fun (digits, rest) => (mark :: sign :: digits, rest)
        else (someDigits? (sign :: behind)).map fun (digits, rest) => (mark :: digits, rest)
    else some ([], mark :: rest)

/-- A number without a sign, by its parts, and what follows it. -/
def number? (cs : List Char) : Option (Value × List Char) := do
  let (whole, rest) ← wholeDigits? cs
  let (fraction, rest) ← fractionDigits? rest
  let (power, rest) ← powerDigits? rest
  if fraction.isEmpty && power.isEmpty then return (.nat (Decimal.digitsValue 10 whole), rest)
  else return (.number (String.ofList (whole ++ fraction ++ power)), rest)

/-- A number with a minus before it is never natural. -/
def negative (value : Value) : Value :=
  match value with
  | .nat n => .number ("-" ++ toString n)
  | .number text => .number ("-" ++ text)
  | other => other

/-! ### Tokens -/

/-- The first token behind blanks and what follows it, given that there is something. -/
def token? : List Char → Option (Token × List Char)
  | '[' :: rest => some (.openArray, rest)
  | ']' :: rest => some (.closeArray, rest)
  | '\x7b' :: rest => some (.openObject, rest)
  | '\x7d' :: rest => some (.closeObject, rest)
  | ',' :: rest => some (.comma, rest)
  | ':' :: rest => some (.colon, rest)
  | '\"' :: rest => do
    let (units, rest) ← quotedUnits rest
    let (chars, whole) := unitChars units
    return (.quoted (String.ofList chars) whole, rest)
  | 'n' :: 'u' :: 'l' :: 'l' :: rest => some (.scalar .null, rest)
  | 't' :: 'r' :: 'u' :: 'e' :: rest => some (.scalar (.bool true), rest)
  | 'f' :: 'a' :: 'l' :: 's' :: 'e' :: rest => some (.scalar (.bool false), rest)
  | '-' :: rest => (number? rest).map fun (value, rest) => (.scalar (negative value), rest)
  | cs => (number? cs).map fun (value, rest) => (.scalar value, rest)

/-- The tokens of a text; the fuel bounds their number. -/
def tokensFrom : (fuel : Nat) → List Char → Option (List Token)
  | 0, cs => if (cs.dropWhile isGap).isEmpty then some [] else none
  | fuel + 1, cs =>
    match cs.dropWhile isGap with
    | [] => some []
    | c :: rest => do
      let (token, rest) ← token? (c :: rest)
      let tokens ← tokensFrom fuel rest
      return token :: tokens

/-- The tokens of a text. -/
def tokens? (text : String) : Option (List Token) :=
  tokensFrom text.length text.toList

end Marksheet.Json
