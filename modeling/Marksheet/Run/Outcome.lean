/-!
# The outcome of a run

What the checks on behaviour need to know of one scripted run.
-/

namespace Marksheet.Run

/-- What one scripted run of a submission produced. -/
structure Outcome where
  /-- All that it wrote to its standard output. -/
  output : String
  /-- How it failed, if it did. -/
  fault : Option String
  /-- How many questions it asked. -/
  inputRequests : Nat
  deriving DecidableEq, Repr, Inhabited

namespace Outcome

/-- The outcome of a run that did nothing. -/
def idle : Outcome := ⟨"", none, 0⟩

/-- The run failed. -/
def crashed (outcome : Outcome) : Bool := outcome.fault.isSome

end Outcome

end Marksheet.Run
