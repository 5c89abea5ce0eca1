/-!
# Blank characters and lines

A character is blank if Unicode gives it the property White_Space. A text is cut
into lines behind each line feed. `pieces` keeps the line ends, so the pieces
join to the text again; `lines` drops a line feed and one carriage return
before it, and nothing else.
-/

namespace Marksheet.Text

/-- A character with the property White_Space. -/
def isBlank (c : Char) : Bool :=
  let code := c.toNat
  (9 ≤ code && code ≤ 13) || code = 0x20 || code = 0x85 || code = 0xA0 || code = 0x1680 ||
    (0x2000 ≤ code && code ≤ 0x200A) || code = 0x2028 || code = 0x2029 || code = 0x202F ||
    code = 0x205F || code = 0x3000

/-- The characters behind the blanks at the head. -/
def dropBlank (cs : List Char) : List Char := cs.dropWhile isBlank

/-- The characters before the blanks at the end. -/
def dropBlankEnd (cs : List Char) : List Char := (dropBlank cs.reverse).reverse

/-- The characters between the blanks at both ends. -/
def trim (cs : List Char) : List Char := dropBlankEnd (dropBlank cs)

/-- There is nothing but blanks. -/
def allBlank (cs : List Char) : Bool := cs.all isBlank

/-- A text without the blanks at its end. -/
def trimEnd (text : String) : String := String.ofList (dropBlankEnd text.toList)

/-- A text holds nothing but blanks. -/
def blankText (text : String) : Bool := allBlank text.toList

/-- The lines of a text, each with its line feed; an empty text has none. -/
def pieces : List Char → List (List Char)
  | [] => []
  | c :: rest =>
    if c = '\n' then [c] :: pieces rest
    else
      match pieces rest with
      | [] => [[c]]
      | line :: others => (c :: line) :: others

/-- The pieces of a text join to it. -/
theorem flatten_pieces (cs : List Char) : (pieces cs).flatten = cs := by
  induction cs with
  | nil => rfl
  | cons c rest ih =>
    unfold pieces
    split
    · simp [ih]
    · split
      · next h =>
        rw [h] at ih
        simp [← ih]
      · next h =>
        rw [h] at ih
        simp [← ih]

/-- A line without its line feed and one carriage return before it. -/
def bareLine (line : List Char) : List Char :=
  match line.reverse with
  | '\n' :: '\r' :: rest => rest.reverse
  | '\n' :: rest => rest.reverse
  | _ => line

/-- The lines of a text without their ends. -/
def lines (cs : List Char) : List (List Char) := (pieces cs).map bareLine

end Marksheet.Text
