/-!
# Settings of a grading session

The settings are shared by all submissions of a session. Each has a default,
and the defaults are the standard assignment.
-/

namespace Marksheet

/-- What a session can be told. -/
structure Settings where
  /-- The file to grade if none is named. -/
  defaultFile : String
  /-- The wildcard that selects the files of a batch. -/
  batchGlob : String
  /-- The file names that a batch leaves out. -/
  exclude : List String
  /-- The answers to questions, in order. -/
  scriptedInputs : List String
  /-- How many further questions are answered once the script has run out. -/
  padExtra : Nat
  /-- What those are answered with; the last scripted answer if absent. -/
  padValue : Option String
  /-- Questions show in the output of the program. -/
  echoPrompts : Bool
  /-- The interpreter, by name or path. -/
  python : String
  /-- How many seconds a submission may run. -/
  timeoutSecs : Nat
  /-- The seed of a run's random numbers. -/
  randomSeed : Option Nat
  /-- The greatest number of characters in a line. -/
  lineLimit : Nat
  /-- How many leading lines are searched for the header. -/
  headerLines : Nat
  /-- How many questions a program has to ask. -/
  minQuestions : Nat
  /-- The text that counts as a question in the output. -/
  promptMarker : String
  deriving DecidableEq, Repr

namespace Settings

/-- The settings of the standard assignment. -/
def standard : Settings where
  defaultFile := "chatbot.py"
  batchGlob := "chatbot*.py"
  exclude := []
  scriptedInputs := ["yes", "blue", "pizza", "goodbye"]
  padExtra := 20
  padValue := none
  echoPrompts := false
  python := "python3"
  timeoutSecs := 10
  randomSeed := none
  lineLimit := 100
  headerLines := 40
  minQuestions := 3
  promptMarker := "?"

instance : Inhabited Settings := ⟨standard⟩

end Settings

end Marksheet
