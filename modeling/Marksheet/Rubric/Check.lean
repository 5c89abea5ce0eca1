import Marksheet.Features.Record
import Marksheet.Grammar.Reader
import Marksheet.Run.Outcome

/-!
# Checks and what they look at

A check is one point of a report: a name, whether it is passed, and what to do
about it. A submission is missing, or it has its text, the outcome of reading
it, and the outcome of running it.
-/

namespace Marksheet.Rubric

/-- One point of a report. -/
structure Check where
  name : String
  passed : Bool
  /-- What to do about it; empty if there is nothing to say. -/
  message : String
  deriving DecidableEq, Repr, Inhabited

namespace Check

/-- A passed check without a message. -/
def pass (name : String) : Check := ⟨name, true, ""⟩

/-- A failed check. -/
def fail (name message : String) : Check := ⟨name, false, message⟩

end Check

/-- What a group of checks looks at. -/
inductive Category where
  /-- The text. -/
  | static
  /-- The features of the tree. -/
  | structural
  /-- The scripted run. -/
  | dynamic
  deriving DecidableEq, Repr, Inhabited

/-- What is known of the structure of a text: why it cannot be read, or its features. -/
abbrev Reading := Except Grammar.Failure Features.Record

/-- A submission as the checks see it. -/
inductive Submission where
  /-- There is no such file, or it holds no text. -/
  | missing
  | present (source : String) (reading : Reading) (outcome : Run.Outcome)
  deriving Inhabited

namespace Submission

/-- The text of a submission. -/
def source? : Submission → Option String
  | missing => none
  | present source _ _ => some source

/-- What is known of a submission's structure. -/
def reading? : Submission → Option Reading
  | missing => none
  | present _ reading _ => some reading

/-- The outcome of a submission's run. -/
def outcome? : Submission → Option Run.Outcome
  | missing => none
  | present _ _ outcome => some outcome

end Submission

/-- How to mend a missing submission. -/
def createHint (fileName : String) : String :=
  "Create " ++ fileName ++ " (exact name, no spaces)."

/-- The failed check of a missing submission. -/
def unreadable (fileName name : String) : Check :=
  .fail name ("Could not read the file. " ++ createHint fileName)

end Marksheet.Rubric
