import Marksheet.Rubric.Dynamic
import Marksheet.Rubric.Static
import Marksheet.Rubric.Structural

/-!
# The standard rubric

A rubric is a list of items. Each item yields one or more checks from what is
known of a submission, and no item looks at the result of another.
-/

namespace Marksheet.Rubric

/-- The items of the standard assignment. -/
inductive Item where
  | exists | header | lineLength | conditionals | runtime | comments | inputs | strings
  | random | membership | methods | loops | nesting | booleans
  deriving DecidableEq, Repr, Inhabited

namespace Item

/-- The key that names an item. -/
def key : Item → String
  | .exists => "exists"
  | header => "header"
  | lineLength => "linelen"
  | conditionals => "conditionals"
  | runtime => "runtime"
  | comments => "comments"
  | inputs => "input_both"
  | strings => "vars_strings"
  | random => "lists_random"
  | membership => "in_op"
  | methods => "str_methods"
  | loops => "for_loop"
  | nesting => "nested_if"
  | booleans => "bool_logic_cmp_print"

/-- What an item looks at. -/
def category : Item → Category
  | .exists | header | lineLength | comments => .static
  | runtime => .dynamic
  | _ => .structural

/-- The checks of an item. -/
def checks (settings : Settings) (fileName : String) (submission : Submission) :
    Item → List Check
  | .exists => existsChecks fileName submission.source?
  | header => headerChecks settings fileName submission.source?
  | lineLength => lineLengthChecks settings fileName submission.source?
  | conditionals => conditionalChecks fileName submission.reading?
  | runtime => runtimeChecks settings fileName submission.outcome?
  | comments => commentChecks fileName submission.source?
  | inputs => expectations inputExpectations fileName submission.reading?
  | strings => expectations stringExpectations fileName submission.reading?
  | random => expectations randomExpectations fileName submission.reading?
  | membership => expectations membershipExpectations fileName submission.reading?
  | methods => expectations methodExpectations fileName submission.reading?
  | loops => expectations loopExpectations fileName submission.reading?
  | nesting => expectations nestingExpectations fileName submission.reading?
  | booleans => expectations booleanExpectations fileName submission.reading?

end Item

/-- All items in the order of a report. -/
def standard : List Item :=
  [.exists, .header, .lineLength, .conditionals, .runtime, .comments, .inputs, .strings, .random,
    .membership, .methods, .loops, .nesting, .booleans]

/-- Some item needs the scripted run. -/
def needsRun (items : List Item) : Bool := items.any fun item => item.category = .dynamic

/-- The checks of all items, in order. -/
def evaluate (items : List Item) (settings : Settings) (fileName : String)
    (submission : Submission) : List Check :=
  items.flatMap (Item.checks settings fileName submission)

end Marksheet.Rubric
