import Marksheet.Report.Basic

/-!
# Reports to read

A report shows the graded file, a line for each check, the score, and the hints
if there are any. The totals of a batch are one line. Some of it is styled: a
style is written as an escape sequence before a text and a reset behind it. A
reset inside the text would end the style there, so the style is written again
behind each. An empty text is styled too.
-/

namespace Marksheet.Report

open Rubric (Check)

/-! ### Styles -/

/-- The styles of a report. -/
inductive Style where
  | bold | dimmed | red | green | yellow
  deriving DecidableEq, Repr, Inhabited

namespace Style

/-- The number that selects a style. -/
def code : Style → Nat
  | bold => 1
  | dimmed => 2
  | red => 31
  | green => 32
  | yellow => 33

/-- The sequence that selects what this number stands for. -/
def select (code : Nat) : List Char :=
  Char.ofNat 0x1B :: '[' :: (toString code).toList ++ ['m']

/-- The sequence that ends every style. -/
def reset : List Char := select 0

/-- A text with something put behind each reset in it; `skip` characters of a reset are left to
write before it. -/
def behindResets (extra : List Char) : (skip : Nat) → List Char → List Char
  | _, [] => []
  | 1, c :: rest => c :: extra ++ behindResets extra 0 rest
  | skip + 2, c :: rest => c :: behindResets extra (skip + 1) rest
  | 0, c :: rest =>
    if reset.isPrefixOf (c :: rest) then c :: behindResets extra (reset.length - 1) rest
    else c :: behindResets extra 0 rest

/-- A text in a style, or as it is where styles are off. -/
def paint (style : Style) (styled : Bool) (text : String) : String :=
  if styled then
    let sequence := select style.code
    String.ofList (sequence ++ behindResets sequence 0 text.toList ++ reset)
  else text

end Style

/-! ### Lines -/

/-- A line that goes across the page. -/
def rule (c : Char) : String := String.ofList (List.replicate 66 c) ++ "\n"

/-- The line of a check. -/
def checkLine (styled : Bool) (check : Check) : String :=
  if check.passed then Style.green.paint styled "✅" ++ " " ++ check.name ++ "\n"
  else Style.red.paint styled "❌" ++ " " ++ check.name ++ " — " ++ check.message ++ "\n"

/-- The block of hints; empty if there are none. -/
def hintBlock : List Check → String
  | [] => ""
  | hints =>
    "Hints:\n" ++ String.join (hints.map fun check => " • " ++ check.message ++ "\n") ++ "\n"

/-- The score line, green if nothing is missing. -/
def scoreLine (styled : Bool) (report : Report) : String :=
  let style := if report.isPerfect then Style.green else Style.yellow
  style.paint styled ("Score: " ++ report.summary) ++ "\n"

/-- The file, the checks, and the score. -/
def page (styled : Bool) (report : Report) : String :=
  "\n" ++ rule '=' ++ " Grading " ++ Style.bold.paint styled report.file ++ "\n" ++ rule '=' ++
    "\n" ++ String.join (report.checks.map (checkLine styled)) ++
    "\n" ++ rule '-' ++ scoreLine styled report ++ rule '-' ++ "\n"

/-- A report to read. -/
def pretty (styled : Bool) (report : Report) : String :=
  page styled report ++ hintBlock report.hints

/-- The line of a batch's totals. -/
def prettyTotals (styled : Bool) (totals : Totals) : String :=
  Style.dimmed.paint styled totals.summary ++ "\n"

end Marksheet.Report
