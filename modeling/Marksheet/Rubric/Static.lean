import Marksheet.Rubric.Check
import Marksheet.Settings.Basic
import Marksheet.Text.Blank
import Marksheet.Text.Search

/-!
# Checks on the text

These checks look at the text alone: whether there is one, its header, the
length of its lines and its comments. The header is sought in the first lines
only; a marker is a word in either case, blanks, and a colon. A documentation
block opens behind the blanks at the beginning of a line and closes at the next
three quotes of its kind with something in between.
-/

namespace Marksheet.Rubric

open Text

/-- A letter of ASCII in lower case; any other character as it is. -/
def foldCase (c : Char) : Char := if 'A' ≤ c && c ≤ 'Z' then Char.ofNat (c.toNat + 32) else c

/-- What stands behind a word in either case. -/
def afterWord? : List Char → List Char → Option (List Char)
  | [], cs => some cs
  | w :: word, c :: cs => if foldCase c = w then afterWord? word cs else none
  | _ :: _, [] => none

/-- The text begins with a word in either case, blanks, and a colon. -/
def beginsMarker (word : List Char) (cs : List Char) : Bool :=
  match afterWord? word cs with
  | some rest => (dropBlank rest).head? = some ':'
  | none => false

/-- A marker with this word stands somewhere in the text. -/
def hasMarker (word : List Char) : List Char → Bool
  | [] => beginsMarker word []
  | c :: rest => beginsMarker word (c :: rest) || hasMarker word rest

/-- The leading lines, joined by line feeds. -/
def headOf (count : Nat) (source : List Char) : List Char :=
  ['\n'].intercalate ((lines source).take count)

/-- A name and a date marker, and a title marker or any comment. -/
def isHeader (head : List Char) : Bool :=
  (hasMarker "program".toList head || hasMarker "title".toList head || head.contains '#') &&
    hasMarker "name".toList head && hasMarker "date".toList head

/-- The numbers of the lines with more characters than allowed, counted from one. -/
def longLines (limit : Nat) (source : List Char) : List Nat :=
  ((lines source).zipIdx 1).filterMap fun entry =>
    if limit < entry.1.length then some entry.2 else none

/-- How many long lines are listed. -/
def listedLines : Nat := 5

/-- The message about lines that are too long. -/
def longLinesMessage (limit : Nat) (numbers : List Nat) : String :=
  "Lines over " ++ toString limit ++ " chars: [" ++
    ", ".intercalate ((numbers.take listedLines).map toString) ++ "]" ++
    (if listedLines < numbers.length then "..." else "")

/-- A line that is a comment with something in it. -/
def isCommentLine (line : List Char) : Bool :=
  match trim line with
  | '#' :: _ :: _ => true
  | _ => false

/-- Behind its blanks, the text opens a block with three of these quotes and closes it. -/
def opensBlock (quote : Char) (cs : List Char) : Bool :=
  let fence := [quote, quote, quote]
  let opened := dropBlank cs
  fence.isPrefixOf opened && occursIn fence (opened.drop 4)

/-- A block of either kind opens here. -/
def opensAnyBlock (cs : List Char) : Bool := opensBlock '\"' cs || opensBlock '\'' cs

/-- A block opens behind some line feed. -/
def hasBlockBehindFeed : List Char → Bool
  | [] => false
  | c :: rest => (c = '\n' && opensAnyBlock rest) || hasBlockBehindFeed rest

/-- A documentation block stands at the beginning of some line. -/
def hasBlock (source : List Char) : Bool := opensAnyBlock source || hasBlockBehindFeed source

/-- A comment line or a documentation block. -/
def hasComment (source : List Char) : Bool :=
  (lines source).any isCommentLine || hasBlock source

/-- Whether there is a text. -/
def existsChecks (fileName : String) (source : Option String) : List Check :=
  [⟨"File named " ++ fileName ++ " exists", source.isSome, createHint fileName⟩]

/-- The name of the check on the header. -/
def headerName : String := "Header includes title, name, date"

/-- The check on the header. -/
def headerChecks (settings : Settings) (fileName : String) : Option String → List Check
  | none => [unreadable fileName headerName]
  | some source =>
    [⟨headerName, isHeader (headOf settings.headerLines source.toList),
      "Include header comments with Program/Title, Name, and Date near the top."⟩]

/-- The check on the length of lines. -/
def lineLengthChecks (settings : Settings) (fileName : String) (source : Option String) :
    List Check :=
  let name := "Line length ≤ " ++ toString settings.lineLimit ++ " chars"
  match source with
  | none => [unreadable fileName name]
  | some source =>
    match longLines settings.lineLimit source.toList with
    | [] => [.pass name]
    | numbers => [.fail name (longLinesMessage settings.lineLimit numbers)]

/-- The name of the check on comments. -/
def commentsName : String := "Comments / pseudocode present (Week 1–2)"

/-- The check on comments. -/
def commentChecks (fileName : String) : Option String → List Check
  | none => [unreadable fileName commentsName]
  | some source =>
    [⟨commentsName, hasComment source.toList, "Add at least one comment or pseudocode block."⟩]

end Marksheet.Rubric
