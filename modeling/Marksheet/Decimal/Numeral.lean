import Marksheet.Decimal.Binary64
import Marksheet.Source.Alphabet

/-!
# Numbers by their digits

`digitsValue` is the number that digits of a radix write; `decimalBits?` is the
double nearest to a decimal with an optional fraction and exponent.
-/

namespace Marksheet.Decimal

open Source.Alphabet (isDigit)

/-- The value of a digit in the largest radix; letters count in either case. -/
def digitValue (c : Char) : Nat :=
  if isDigit c then c.toNat - '0'.toNat
  else if 'a' ≤ c && c ≤ 'z' then c.toNat - 'a'.toNat + 10
  else if 'A' ≤ c && c ≤ 'Z' then c.toNat - 'A'.toNat + 10
  else 99

/-- The number that digits of a radix write. -/
def digitsValue (radix : Nat) (digits : List Char) : Nat :=
  digits.foldl (fun value c => value * radix + digitValue c) 0

/-- A run of decimal digits and what follows it. -/
def spanDigits (text : List Char) : List Char × List Char :=
  (text.takeWhile isDigit, text.dropWhile isDigit)

/-- The exponent that ends a decimal; without one it is zero. -/
def exponentValue? : List Char → Option Int
  | [] => some 0
  | mark :: rest =>
    if mark = 'e' || mark = 'E' then
      let (sign, digits) : Int × List Char :=
        match rest with
        | '-' :: digits => (-1, digits)
        | '+' :: digits => (1, digits)
        | digits => (1, digits)
      if !digits.isEmpty && digits.all isDigit then
        -- more than ten digits decide the result already
        let size := (digits.dropWhile (· = '0')).length
        some (sign * (if size > 10 then Nat.pow 10 10 else digitsValue 10 digits : Nat))
      else none
    else none

/-- The bits of the double nearest to a decimal without a sign; none when the text is no decimal. -/
def decimalBits? (text : List Char) : Option UInt64 :=
  let (whole, rest) := spanDigits text
  let (fraction, rest) :=
    match rest with
    | '.' :: behind => spanDigits behind
    | _ => ([], rest)
  if whole.isEmpty && fraction.isEmpty then none
  else
    match exponentValue? rest with
    | none => none
    | some exponent =>
      let digits := (whole ++ fraction).dropWhile (· = '0')
      some (Binary64.ofDecimal (digitsValue 10 digits) digits.length (exponent - fraction.length))

end Marksheet.Decimal
