/-!
# JSON values and their written form

Members keep the order in which they are written. A value has a compact form on
one line, and a form with each element on a line of its own, two blanks deeper
than what holds it; there, an empty list or object stays on its line.
-/

namespace Marksheet.Json

/-- A JSON value; numbers are natural numbers, or the text of any other number. -/
inductive Value where
  | null
  | bool (value : Bool)
  | nat (value : Nat)
  /-- A number that is no natural number, by its text. -/
  | number (text : String)
  | string (text : String)
  | array (items : List Value)
  | object (members : List (String × Value))
  deriving Inhabited

/-- A hexadecimal digit in lower case. -/
def hexDigit (value : Nat) : Char :=
  if value < 10 then Char.ofNat ('0'.toNat + value) else Char.ofNat ('a'.toNat + (value - 10))

/-- A character inside quotes: the quote, the backslash and control characters are escaped. -/
def escapeChar (c : Char) : List Char :=
  if c = '\"' then ['\\', '\"']
  else if c = '\\' then ['\\', '\\']
  else if c = '\n' then ['\\', 'n']
  else if c = '\r' then ['\\', 'r']
  else if c = '\t' then ['\\', 't']
  else if c = Char.ofNat 8 then ['\\', 'b']
  else if c = Char.ofNat 12 then ['\\', 'f']
  else if c.toNat < 32 then ['\\', 'u', '0', '0', hexDigit (c.toNat / 16), hexDigit (c.toNat % 16)]
  else [c]

/-- A text in quotes. -/
def quote (text : String) : String :=
  String.ofList ('\"' :: text.toList.flatMap escapeChar ++ ['\"'])

/-- A new line with the given number of blanks before what follows. -/
def newLine (depth : Nat) : String := "\n" ++ String.ofList (List.replicate depth ' ')

mutual

/-- The form on one line. -/
def compact : Value → String
  | .null => "null"
  | .bool value => if value then "true" else "false"
  | .nat value => toString value
  | .number text => text
  | .string text => quote text
  | .array items => "[" ++ ",".intercalate (compactItems items) ++ "]"
  | .object members => "\x7b" ++ ",".intercalate (compactMembers members) ++ "\x7d"

/-- The forms of items on one line. -/
def compactItems : List Value → List String
  | [] => []
  | item :: rest => compact item :: compactItems rest

/-- The forms of members on one line. -/
def compactMembers : List (String × Value) → List String
  | [] => []
  | (key, value) :: rest => (quote key ++ ":" ++ compact value) :: compactMembers rest

end

mutual

/-- The form on several lines, behind the given number of blanks. -/
def spread (depth : Nat) : Value → String
  | .array [] => "[]"
  | .array (item :: rest) =>
    "[" ++ ",".intercalate (spreadItems (depth + 2) (item :: rest)) ++ newLine depth ++ "]"
  | .object [] => "\x7b\x7d"
  | .object (member :: rest) =>
    "\x7b" ++ ",".intercalate (spreadMembers (depth + 2) (member :: rest)) ++ newLine depth ++
      "\x7d"
  | .null => "null"
  | .bool value => if value then "true" else "false"
  | .nat value => toString value
  | .number text => text
  | .string text => quote text

/-- The forms of items, each on lines of its own. -/
def spreadItems (depth : Nat) : List Value → List String
  | [] => []
  | item :: rest => (newLine depth ++ spread depth item) :: spreadItems depth rest

/-- The forms of members, each on lines of its own. -/
def spreadMembers (depth : Nat) : List (String × Value) → List String
  | [] => []
  | (key, value) :: rest =>
    (newLine depth ++ quote key ++ ": " ++ spread depth value) :: spreadMembers depth rest

end

end Marksheet.Json
