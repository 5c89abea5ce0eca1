import Marksheet.Json.Basic
import Marksheet.Run.Script
import Marksheet.Settings.Basic

/-!
# What a run is asked to do

The supervisor of a run reads one request: the answers to questions, whether
questions show in the output, and the seed of random numbers. A script that
answers for a long time is cut after a fixed number of answers.
-/

namespace Marksheet

/-- The script of settings. -/
def Settings.script (settings : Settings) : Run.Script :=
  .ofAnswers settings.scriptedInputs settings.padExtra settings.padValue

namespace Run

/-- What a session fixes for all of its runs. -/
structure Plan where
  /-- The interpreter, by name or path. -/
  python : String
  /-- How many milliseconds a run may take. -/
  milliseconds : Nat
  /-- Questions show in the output. -/
  echo : Bool
  /-- The seed of random numbers. -/
  seed : Option Nat
  deriving DecidableEq, Repr, Inhabited

/-- The plan of settings. -/
def Plan.ofSettings (settings : Settings) : Plan :=
  ⟨settings.python, 1000 * settings.timeoutSecs, settings.echoPrompts, settings.randomSeed⟩

/-- The greatest number of answers in a request. -/
def answerLimit : Nat := 10000

/-- A request as a value. -/
def requestValue (plan : Plan) (script : Script) : Json.Value :=
  .object [("answers", .array ((script.take answerLimit).1.map .string)),
    ("echo", .bool plan.echo),
    ("seed", match plan.seed with
      | some seed => .nat seed
      | none => .null)]

/-- The text of a request. -/
def request (plan : Plan) (script : Script) : String := Json.compact (requestValue plan script)

end Run

end Marksheet
