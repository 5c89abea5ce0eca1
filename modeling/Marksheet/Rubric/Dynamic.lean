import Marksheet.Rubric.Check
import Marksheet.Settings.Basic
import Marksheet.Text.Blank
import Marksheet.Text.LowerCase
import Marksheet.Text.Search

/-!
# Checks on the scripted run

Three checks look at the outcome of a run: that it did not fail, that enough
questions were asked, and that some answer shows in the output, in either case.
Questions are counted in two ways, by the marker in the output and by requests,
and the greater number counts.
-/

namespace Marksheet.Rubric

open Text

/-- Put a text before each line that is not blank. -/
def indent (margin : List Char) (cs : List Char) : List Char :=
  (pieces cs).flatMap fun line => if allBlank line then line else margin ++ line

/-- The name of the check that nothing failed. -/
def executesName : String := "Program executes without crashing"

/-- The name of the check that answers are used. -/
def echoesName : String := "Uses the user's input in a response"

/-- The name of the check on questions. -/
def asksName (settings : Settings) : String :=
  "Asks at least " ++ toString settings.minQuestions ++ " questions"

/-- What the later checks say of a run that failed. -/
def didNotComplete : String := "Program did not complete execution."

/-- How many questions a run asked. -/
def questions (settings : Settings) (outcome : Run.Outcome) : Nat :=
  max (occurrences settings.promptMarker.toList outcome.output.toList) outcome.inputRequests

/-- Some answer that is not empty shows in the output, in either case. -/
def echoes (settings : Settings) (outcome : Run.Outcome) : Bool :=
  let lowered := lowerCase outcome.output.toList
  (settings.scriptedInputs.filter fun answer => !answer.isEmpty).any fun answer =>
    occursIn (lowerCase answer.toList) lowered

/-- The three checks on a run. -/
def runtimeChecks (settings : Settings) (fileName : String) : Option Run.Outcome → List Check
  | none => [unreadable fileName executesName, unreadable fileName (asksName settings),
      unreadable fileName echoesName]
  | some outcome =>
    match outcome.fault with
    | some fault =>
      [.fail executesName
          ("Program crashed.\n" ++ String.ofList (indent [' ', ' '] fault.toList)),
        .fail (asksName settings) didNotComplete, .fail echoesName didNotComplete]
    | none =>
      [.pass executesName,
        ⟨asksName settings, settings.minQuestions ≤ questions settings outcome,
          "Make sure you prompt the user " ++ toString settings.minQuestions ++
            "+ times (use '" ++ settings.promptMarker ++ "')."⟩,
        ⟨echoesName, echoes settings outcome, "Include the user's answer in a printed line."⟩]

end Marksheet.Rubric
