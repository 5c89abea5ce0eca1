import Marksheet.Decimal.Numeral
import Marksheet.Shell.Utility.Basic

/-!
# Utilities that print

`echo` prints its arguments on a line. `printf` prints by a format, as often as
needed to use up its arguments. Both read escapes; a character beyond seven bits
counts as its bytes.
-/

namespace Marksheet.Shell

open Decimal (digitValue digitsValue)

/-- The bytes of characters. -/
def charBytes (chars : List Char) : ByteArray := (String.ofList chars).toUTF8

/-- One byte. -/
def oneByte (value : Nat) : ByteArray := ⟨#[UInt8.ofNat value]⟩

/-- The byte that a letter behind a backslash stands for. -/
def escapeByte? (c : Char) : Option Nat :=
  [('a', 7), ('b', 8), ('f', 12), ('n', 10), ('r', 13), ('t', 9), ('v', 11), ('\\', 92)].lookup c

/-- A digit below eight. -/
def isOctal (c : Char) : Bool := '0' ≤ c && c ≤ '7'

/-- Up to three octal digits as a byte, and what follows them. -/
def octalByte (cs : List Char) : Nat × List Char :=
  let digits := (cs.take 3).takeWhile isOctal
  (digitsValue 8 digits % 256, cs.drop digits.length)

/-- The bytes of a text with escapes, and whether one of them ends all printing. An octal escape
begins with a zero. -/
def unescape : (fuel : Nat) → List Char → ByteArray × Bool
  | 0, _ => (.empty, false)
  | _ + 1, [] => (.empty, false)
  | _ + 1, '\\' :: 'c' :: _ => (.empty, true)
  | fuel + 1, '\\' :: '0' :: rest =>
    let (byte, rest) := octalByte rest
    let (bytes, stop) := unescape fuel rest
    (oneByte byte ++ bytes, stop)
  | fuel + 1, '\\' :: c :: rest =>
    let (bytes, stop) := unescape fuel rest
    match escapeByte? c with
    | some byte => (oneByte byte ++ bytes, stop)
    | none => (charBytes ['\\', c] ++ bytes, stop)
  | fuel + 1, c :: rest =>
    let plain := (c :: rest).takeWhile (· ≠ '\\')
    if plain.isEmpty then (charBytes [c], false)
    else
      let (bytes, stop) := unescape fuel ((c :: rest).drop plain.length)
      (charBytes plain ++ bytes, stop)

/-- Print the arguments with blanks between them on a line. -/
def echo : Utility := fun call =>
  let (words, lineEnd) := match call.arguments with
    | "-n" :: words => (words, ByteArray.empty)
    | words => (words, oneByte 10)
  let text := (" ".intercalate words).toList
  let (bytes, stop) := unescape (text.length + 1) text
  call.succeed (if stop then bytes else bytes ++ lineEnd)

/-! ### Formats -/

/-- A part of a format. -/
inductive FormatPart where
  | bytes (bytes : ByteArray)
  | conversion (left zero : Bool) (width : Nat) (precision : Option Nat) (kind : Char)
  deriving Inhabited

/-- A conversion behind its percent sign, and what follows it. -/
def conversion (cs : List Char) : FormatPart × List Char :=
  let marks := cs.takeWhile fun c => ['-', '0', '+', ' ', '#'].contains c
  let rest := cs.drop marks.length
  let width := rest.takeWhile Char.isDigit
  let rest := rest.drop width.length
  let (precision, rest) := match rest with
    | '.' :: behind =>
      let digits := behind.takeWhile Char.isDigit
      (some (digitsValue 10 digits), behind.drop digits.length)
    | rest => (none, rest)
  match rest with
  | kind :: rest =>
    (.conversion (marks.contains '-') (marks.contains '0') (digitsValue 10 width) precision kind,
      rest)
  | [] => (.bytes (charBytes ('%' :: cs)), [])

/-- The parts of a format. -/
def formatParts : (fuel : Nat) → List Char → List FormatPart
  | 0, _ => []
  | _ + 1, [] => []
  | fuel + 1, '%' :: '%' :: rest => .bytes (oneByte 37) :: formatParts fuel rest
  | fuel + 1, '%' :: rest =>
    let (part, rest) := conversion rest
    part :: formatParts fuel rest
  | fuel + 1, '\\' :: c :: rest =>
    if isOctal c then
      let (byte, rest) := octalByte (c :: rest)
      .bytes (oneByte byte) :: formatParts fuel rest
    else
      match escapeByte? c with
      | some byte => .bytes (oneByte byte) :: formatParts fuel rest
      | none => .bytes (charBytes ['\\']) :: formatParts fuel (c :: rest)
  | fuel + 1, c :: rest =>
    let plain := (c :: rest).takeWhile fun c => c ≠ '\\' && c ≠ '%'
    if plain.isEmpty then .bytes (charBytes [c]) :: formatParts fuel rest
    else .bytes (charBytes plain) :: formatParts fuel ((c :: rest).drop plain.length)

/-- The number that an argument writes, in one of three radixes. -/
def numeral (text : String) : Int :=
  let (sign, digits) : Int × List Char := match text.toList with
    | '-' :: digits => (-1, digits)
    | '+' :: digits => (1, digits)
    | digits => (1, digits)
  let value (radix : Nat) (digits : List Char) : Nat :=
    digitsValue radix (digits.takeWhile fun c => digitValue c < radix)
  match digits with
  | '\'' :: c :: _ => c.toNat
  | '\"' :: c :: _ => c.toNat
  | '0' :: x :: digits =>
    if x = 'x' || x = 'X' then sign * value 16 digits else sign * value 8 (x :: digits)
  | digits => sign * value 10 digits

/-- The digits of an argument in a radix. -/
def inRadix (radix : Nat) (text : String) : String :=
  let value := numeral text
  let magnitude := if value < 0 then Nat.pow 2 64 - value.natAbs else value.natAbs
  String.ofList (Nat.toDigits radix magnitude)

/-- What a conversion makes of an argument before it is padded, and whether printing ends. -/
def converted (kind : Char) (precision : Option Nat) (argument : String) : ByteArray × Bool :=
  let cut (bytes : ByteArray) : ByteArray := match precision with
    | some size => bytes.extract 0 size
    | none => bytes
  if kind = 's' then (cut argument.toUTF8, false)
  else if kind = 'b' then
    let (bytes, stop) := unescape (argument.length + 1) argument.toList
    (cut bytes, stop)
  else if kind = 'c' then (argument.toUTF8.extract 0 1, false)
  else if kind = 'd' || kind = 'i' then ((toString (numeral argument)).toUTF8, false)
  else if kind = 'u' then ((inRadix 10 argument).toUTF8, false)
  else if kind = 'o' then ((inRadix 8 argument).toUTF8, false)
  else if kind = 'x' then ((inRadix 16 argument).toUTF8, false)
  else if kind = 'X' then ((inRadix 16 argument).toUpper.toUTF8, false)
  else (charBytes ['%', kind], false)

/-- Fill bytes up to a width. -/
def padBytes (left zero : Bool) (width : Nat) (bytes : ByteArray) : ByteArray :=
  let fill : ByteArray := ⟨Array.replicate (width - bytes.size) (if zero && !left then 48 else 32)⟩
  if left then bytes ++ fill else fill ++ bytes

/-- Print by a format once: what is printed, the arguments left, and whether printing ends. -/
def printOnce : List FormatPart → List String → ByteArray × List String × Bool
  | [], arguments => (.empty, arguments, false)
  | .bytes bytes :: rest, arguments =>
    let (others, arguments, stop) := printOnce rest arguments
    (bytes ++ others, arguments, stop)
  | .conversion left zero width precision kind :: rest, arguments =>
    let (bytes, stop) := converted kind precision (arguments.headD "")
    let bytes := padBytes left (zero && kind ≠ 's') width bytes
    if stop then (bytes, [], true)
    else
      let (others, arguments, stop) := printOnce rest arguments.tail
      (bytes ++ others, arguments, stop)

/-- Print by a format until the arguments are used up. -/
def printAll (parts : List FormatPart) : (fuel : Nat) → List String → ByteArray
  | 0, _ => .empty
  | fuel + 1, arguments =>
    let (bytes, rest, stop) := printOnce parts arguments
    if stop || rest.isEmpty || rest.length = arguments.length then bytes
    else bytes ++ printAll parts fuel rest

/-- Print by a format. -/
def printf : Utility := fun call =>
  match call.arguments with
  | "--" :: format :: arguments | format :: arguments =>
    let parts := formatParts (format.length + 1) format.toList
    call.succeed (printAll parts (arguments.length + 1) arguments)
  | [] => call.complain "missing operand" 2

end Marksheet.Shell
