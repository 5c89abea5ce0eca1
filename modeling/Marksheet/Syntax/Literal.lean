import Marksheet.Decimal.Numeral

/-!
# The values of literals

`unescape` resolves the backslash escapes of a string body, `integerValue?`
reads an integer literal in one of four radixes and `floatBits?` reads a
floating-point literal. Each reads the text of one token.
-/

namespace Marksheet.Syntax

open Marksheet.Source.Alphabet (isHexDigit)
open Marksheet.Decimal (digitValue digitsValue decimalBits?)

/-- The scalar value with this number, if there is one. -/
def scalar? (code : Nat) : Option Char :=
  if h : code.isValidChar then some (Char.ofNatAux code h) else none

/-- The character of an escape that is written with one letter or mark. -/
def namedEscape? (c : Char) : Option Char :=
  if c = 'n' then some '\n'
  else if c = 't' then some '\t'
  else if c = 'r' then some '\r'
  else if c = '0' then some (Char.ofNat 0)
  else if c = 'a' then some (Char.ofNat 7)
  else if c = 'b' then some (Char.ofNat 8)
  else if c = 'f' then some (Char.ofNat 12)
  else if c = 'v' then some (Char.ofNat 11)
  else if c = '\\' then some '\\'
  else if c = '\'' then some '\''
  else if c = '\"' then some '\"'
  else none

/-- The number of hexadecimal digits of an escape for a code point. -/
def escapeWidth? (c : Char) : Option Nat :=
  if c = 'x' then some 2 else if c = 'u' then some 4 else if c = 'U' then some 8 else none

/-- The state of resolving escapes. -/
inductive EscapeState where
  /-- No escape is open. -/
  | plain
  /-- A backslash has been read. -/
  | backslash
  /-- A code-point escape is open: its letter, the digits still missing, and the
  digits read, newest first. -/
  | digits (letter : Char) (missing : Nat) (read : List Char)
  deriving DecidableEq, Repr

/-- What an unfinished code-point escape stands for: its own text. -/
def unfinished (letter : Char) (read : List Char) : List Char := '\\' :: letter :: read.reverse

/-- What a finished code-point escape stands for: its character, or its own text when
no scalar value has that number. -/
def finished (letter : Char) (read : List Char) : List Char :=
  match scalar? (digitsValue 16 read.reverse) with
  | some c => [c]
  | none => unfinished letter read

/-- Resolve escapes from a state. A code-point escape takes exactly its number of
digits; one that is cut short is kept as written. -/
def unescapeFrom : EscapeState → List Char → List Char
  | .plain, [] => []
  | .backslash, [] => ['\\']
  | .digits letter _ read, [] => unfinished letter read
  | .plain, c :: rest => if c = '\\' then unescapeFrom .backslash rest else c :: unescapeFrom .plain rest
  | .backslash, c :: rest =>
    if c = '\n' then unescapeFrom .plain rest
    else
      match namedEscape? c, escapeWidth? c with
      | some named, _ => named :: unescapeFrom .plain rest
      | none, some width => unescapeFrom (.digits c width []) rest
      | none, none => '\\' :: c :: unescapeFrom .plain rest
  | .digits letter missing read, c :: rest =>
    if isHexDigit c then
      if missing = 1 then finished letter (c :: read) ++ unescapeFrom .plain rest
      else unescapeFrom (.digits letter (missing - 1) (c :: read)) rest
    else
      unfinished letter read ++
        if c = '\\' then unescapeFrom .backslash rest else c :: unescapeFrom .plain rest

/-- Resolve the backslash escapes of a string body. -/
def unescape (text : String) : String := String.ofList (unescapeFrom .plain text.toList)

/-- The radix that a literal announces, and its digits. -/
def radixOf (text : List Char) : Nat × List Char :=
  match text with
  | '0' :: mark :: digits =>
    if mark = 'x' || mark = 'X' then (16, digits)
    else if mark = 'o' || mark = 'O' then (8, digits)
    else if mark = 'b' || mark = 'B' then (2, digits)
    else (10, text)
  | _ => (10, text)

/-- The value of an integer literal: underscores do not count, every digit fits the
radix, and the value stays below two to the 63. -/
def integerValue? (text : String) : Option Nat :=
  let (radix, digits) := radixOf (text.toList.filter (· != '_'))
  if digits.isEmpty || !(digits.all fun c => digitValue c < radix) then none
  else
    let value := digitsValue radix digits
    if value < Nat.pow 2 63 then some value else none

/-- The bits of the double nearest to a floating-point literal; none when the text is
no real number, as with an imaginary one. -/
def floatBits? (text : String) : Option UInt64 :=
  decimalBits? (text.toList.filter (· != '_'))

end Marksheet.Syntax
