import Marksheet.Decimal.Numeral
import Marksheet.Decimal.Shortest
import Marksheet.Text.Shown
import Marksheet.Yaml.Document

/-!
# The values of scalars

A plain scalar may be nothing, a truth value or a number by the rules of the
core schema; any other is a text. A tag of the standard schema settles which of
these a scalar has to be. Numbers may be written in one of four radixes; digits
behind a leading zero make no number.
-/

namespace Marksheet.Yaml

/-- What a scalar, or a collection, is found to be. -/
inductive Found where
  | nothing
  | bool (value : Bool)
  | integer (value : Int)
  /-- An integer beyond sixty-four bits. -/
  | wide (value : Int)
  /-- A number with a fraction or an exponent, as it is shown. -/
  | float (shown : String)
  | text (text : String)
  | sequence
  | mapping
  deriving DecidableEq, Repr, Inhabited

/-- What is found, in words. -/
def Found.words : Found → String
  | nothing => "unit value"
  | bool value => "boolean `" ++ (if value then "true" else "false") ++ "`"
  | integer value => "integer `" ++ toString value ++ "`"
  | wide value =>
    "integer `" ++ toString value ++ "` as " ++ (if value < 0 then "i128" else "u128")
  | float shown => "floating point `" ++ shown ++ "`"
  | text value => "string " ++ Text.shown value
  | sequence => "sequence"
  | mapping => "map"

/-- The text is one of the words for nothing. -/
def isNullWord (text : String) : Bool := ["null", "Null", "NULL", "~"].contains text

/-- A truth value by its word. -/
def boolOf? (text : String) : Option Bool :=
  if ["true", "True", "TRUE"].contains text then some true
  else if ["false", "False", "FALSE"].contains text then some false
  else none

/-- The number that digits of a radix write, if there are any and all of them fit. -/
def radixValue? (radix : Nat) (digits : List Char) : Option Nat :=
  if !digits.isEmpty && digits.all (fun c => Decimal.digitValue c < radix) then
    some (Decimal.digitsValue radix digits)
  else none

/-- A magnitude by its digits, behind a mark for the radix if there is one. -/
def magnitudeOf? : List Char → Option Nat
  | '0' :: 'x' :: digits => radixValue? 16 digits
  | '0' :: 'o' :: digits => radixValue? 8 digits
  | '0' :: 'b' :: digits => radixValue? 2 digits
  | digits => radixValue? 10 digits

/-- The text behind its sign is a zero with further digits. -/
def hasLeadingZero (text : List Char) : Bool :=
  let digits := match text with
    | '-' :: rest | '+' :: rest => rest
    | _ => text
  match digits with
  | '0' :: rest => !rest.isEmpty && rest.all isDigit
  | _ => false

/-- An integer of any size. -/
def integerOf? (text : List Char) : Option Int :=
  if hasLeadingZero text then none
  else
    match text with
    | '+' :: digits => (magnitudeOf? digits).map Int.ofNat
    | '-' :: digits => (magnitudeOf? digits).map fun n => -(n : Int)
    | digits => (magnitudeOf? digits).map Int.ofNat

/-- A count below two to the 64. -/
def countOf? (text : String) : Option Nat :=
  match text.toList with
  | '-' :: _ => none
  | chars =>
    match integerOf? chars with
    | some value => if value < Int.pow 2 64 then some value.toNat else none
    | none => none

/-- A number with a fraction or an exponent, as it is shown. -/
def floatOf? (text : List Char) : Option String :=
  let (signed, digits) := match text with
    | '+' :: rest => (false, rest)
    | '-' :: rest => (true, rest)
    | _ => (false, text)
  let word := String.ofList digits
  if [".inf", ".Inf", ".INF"].contains word then some (if signed then "-inf" else "inf")
  else if [".nan", ".NaN", ".NAN"].contains (String.ofList text) then some "NaN"
  else
    match Decimal.decimalBits? digits with
    | none => none
    | some bits =>
      if bits.toNat = Decimal.Binary64.infinity then none
      else some ((if signed then "-" else "") ++ Decimal.pointed bits)

/-- An integer as it is found, if it fits into one hundred and twenty-eight bits. -/
def foundInteger? (value : Int) : Option Found :=
  if -Int.pow 2 63 ≤ value && value < Int.pow 2 64 then some (.integer value)
  else if -Int.pow 2 127 ≤ value && value < Int.pow 2 128 then some (.wide value)
  else none

/-- What a plain text is. -/
def plainFound (text : String) : Found :=
  if text.isEmpty || isNullWord text then .nothing
  else
    match boolOf? text with
    | some value => .bool value
    | none =>
      match (integerOf? text.toList).bind foundInteger? with
      | some found => found
      | none =>
        if hasLeadingZero text.toList then .text text
        else ((floatOf? text.toList).map Found.float).getD (.text text)

/-- The tag of truth values. -/
def boolTag : String := "tag:yaml.org,2002:bool"

/-- The tag of integers. -/
def intTag : String := "tag:yaml.org,2002:int"

/-- The tag of numbers with a fraction. -/
def floatTag : String := "tag:yaml.org,2002:float"

/-- The tag of nothing. -/
def nullTag : String := "tag:yaml.org,2002:null"

/-- What a scalar is, or what its tag asks for in vain. -/
def Scalar.found (scalar : Scalar) : Except String Found :=
  let text := scalar.text
  match scalar.tag with
  | none => .ok (if scalar.plain then plainFound text else .text text)
  | some tag =>
    if tag = boolTag then
      match boolOf? text with
      | some value => .ok (.bool value)
      | none => .error "a boolean"
    else if tag = intTag then
      match (integerOf? text.toList).bind foundInteger? with
      | some found => .ok found
      | none => .error "an integer"
    else if tag = floatTag then
      match floatOf? text.toList with
      | some shown => .ok (.float shown)
      | none => .error "a float"
    else if tag = nullTag then if isNullWord text then .ok .nothing else .error "null"
    else if scalar.plain && tag.toList.head? = some '!' then .ok (plainFound text)
    else .ok (.text text)

/-- The scalar may be read as a value with this tag: it is plain, or a literal block that has it. -/
def Scalar.readsAs (scalar : Scalar) (tag : String) : Bool :=
  scalar.plain || (scalar.literal && scalar.tag = some tag)

end Marksheet.Yaml
