/-!
# Characters of a YAML text, places and faults

Lines and columns count from zero, columns in characters. A fault has a place,
and often says what was being read and where that began. A place at the very
beginning is not mentioned.

`unbroken` writes every line break in one way, except for the two separators of
Unicode, so a break is one character. `blocked?` is the first character that no
YAML text may hold.
-/

namespace Marksheet.Yaml

/-! ### Places and faults -/

/-- A place in a text. -/
structure Mark where
  /-- How many characters stand before it. -/
  index : Nat
  line : Nat
  column : Nat
  deriving DecidableEq, Repr, Inhabited

namespace Mark

/-- The beginning of a text. -/
def zero : Mark := ⟨0, 0, 0⟩

/-- The place so many characters further on the same line. -/
def forward (mark : Mark) (count : Nat) : Mark :=
  ⟨mark.index + count, mark.line, mark.column + count⟩

/-- The beginning of the line behind a line break. -/
def nextLine (mark : Mark) : Mark := ⟨mark.index + 1, mark.line + 1, 0⟩

/-- Two marks are on the same line and column. -/
def samePlace (a b : Mark) : Bool := a.line = b.line && a.column = b.column

/-- A place in words, counted from one. -/
def words (mark : Mark) : String :=
  "line " ++ toString (mark.line + 1) ++ " column " ++ toString (mark.column + 1)

/-- A place in words behind a message; nothing for the very beginning. -/
def suffix (mark : Mark) : String :=
  if mark.samePlace .zero then "" else " at " ++ mark.words

end Mark

/-- Why a text is no YAML. -/
structure Fault where
  problem : String
  place : Mark
  /-- What was being read, and where it began. -/
  context : Option (String × Mark)
  deriving DecidableEq, Repr, Inhabited

namespace Fault

/-- A fault in what began at a mark. -/
def within (context : String) (start : Mark) (problem : String) (place : Mark) : Fault :=
  ⟨problem, place, some (context, start)⟩

/-- A fault without a context. -/
def plain (problem : String) (place : Mark) : Fault := ⟨problem, place, none⟩

/-- A fault in words. -/
def message (fault : Fault) : String :=
  fault.problem ++ fault.place.suffix ++
    match fault.context with
    | none => ""
    | some (context, start) =>
      ", " ++ context ++ if start.samePlace fault.place then "" else start.suffix

end Fault

/-! ### Characters -/

/-- A space or a tab. -/
def isSpace (c : Char) : Bool := c = ' ' || c = '\t'

/-- A line break, once all are written in one way. -/
def isBreak (c : Char) : Bool := c = '\n' || c = Char.ofNat 0x2028 || c = Char.ofNat 0x2029

/-- A space, a tab or a line break. -/
def isGap (c : Char) : Bool := isSpace c || isBreak c

/-- The text is at its end, or a gap follows. -/
def gapFollows : List Char → Bool
  | [] => true
  | c :: _ => isGap c

/-- The line is at its end. -/
def lineEnds : List Char → Bool
  | [] => true
  | c :: _ => isBreak c

/-- A decimal digit. -/
def isDigit (c : Char) : Bool := '0' ≤ c && c ≤ '9'

/-- A character of a name. -/
def isNameChar (c : Char) : Bool :=
  isDigit c || ('a' ≤ c && c ≤ 'z') || ('A' ≤ c && c ≤ 'Z') || c = '_' || c = '-'

/-- The value of a hexadecimal digit. -/
def hexValue? (c : Char) : Option Nat :=
  if isDigit c then some (c.toNat - '0'.toNat)
  else if 'a' ≤ c && c ≤ 'f' then some (c.toNat - 'a'.toNat + 10)
  else if 'A' ≤ c && c ≤ 'F' then some (c.toNat - 'A'.toNat + 10)
  else none

/-- Three dashes or three dots stand here by themselves. -/
def isDocumentIndicator : List Char → Bool
  | '-' :: '-' :: '-' :: rest => gapFollows rest
  | '.' :: '.' :: '.' :: rest => gapFollows rest
  | _ => false

/-- Write each line break as a line feed. -/
def unbroken : List Char → List Char
  | '\r' :: '\n' :: rest => '\n' :: unbroken rest
  | c :: rest =>
    (if c = '\r' || c = Char.ofNat 0x85 then '\n' else c) :: unbroken rest
  | [] => []

/-- A character that a YAML text may hold. -/
def isAllowed (c : Char) : Bool :=
  let code := c.toNat
  code = 9 || code = 10 || code = 13 || (0x20 ≤ code && code ≤ 0x7E) || code = 0x85 ||
    (0xA0 ≤ code && code ≤ 0xD7FF) || (0xE000 ≤ code && code ≤ 0xFFFD && code ≠ 0xFEFF) ||
    0x10000 ≤ code

/-- How many bytes stand before the first character that is not allowed, if there is one. -/
def blocked? (before : Nat) : List Char → Option Nat
  | [] => none
  | c :: rest => if isAllowed c then blocked? (before + c.utf8Size) rest else some before

/-- The mark behind one character. -/
def Mark.step (mark : Mark) (c : Char) : Mark :=
  if isBreak c then mark.nextLine else mark.forward 1

end Marksheet.Yaml
