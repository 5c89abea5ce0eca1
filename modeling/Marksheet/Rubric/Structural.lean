import Marksheet.Rubric.Check

/-!
# Checks on the structure

Each of these checks is decided by the features of a submission's tree. If the
text cannot be read, all of them fail with the reason.
-/

namespace Marksheet.Rubric

open Features (Record)

/-- A check that a feature decides, and what to do without it. -/
structure Expectation where
  name : String
  holds : Record → Bool
  hint : String

/-- The checks of a group of expectations. -/
def expectations (expected : List Expectation) (fileName : String) :
    Option Reading → List Check
  | none => expected.map fun e => unreadable fileName e.name
  | some (.error failure) => expected.map fun e => .fail e.name failure.display
  | some (.ok record) => expected.map fun e => ⟨e.name, e.holds record, e.hint⟩

/-- The name of the check on conditionals. -/
def conditionalsName : String := "Uses required if/elif/else patterns and `or`"

/-- What the check on conditionals asks for and the record has not. -/
def missingConditionals (record : Record) : List String :=
  [(record.hasIf, "a standalone if"), (record.hasIfElse, "an if/else"),
    (record.hasElifChain, "an if/elif/else with ≥2 elifs"),
    (record.usesOr, "a condition using `or`")].filterMap fun part =>
      if part.1 then none else some part.2

/-- The check on conditionals: one check for four features. -/
def conditionalChecks (fileName : String) : Option Reading → List Check
  | none => [unreadable fileName conditionalsName]
  | some (.error failure) => [.fail "Python parses successfully" failure.display]
  | some (.ok record) =>
    match missingConditionals record with
    | [] => [.pass conditionalsName]
    | missing => [.fail conditionalsName ("Missing: " ++ ", ".intercalate missing)]

/-- Answers are saved, and also used without being saved. -/
def inputExpectations : List Expectation :=
  [⟨"Input saved to a variable (Week 2)", Record.hasInputSaved,
    "Do something like: answer = input('...')"⟩,
   ⟨"Input also used without saving (Week 2)", Record.hasInputUnsaved,
    "Also call input(...) directly (e.g., print(input('...'))) in a different place."⟩]

/-- Strings are bound, printed and joined. -/
def stringExpectations : List Expectation :=
  [⟨"Assign a string to a variable (Week 2)", Record.assignsString,
    "Example: greeting = 'Hello'"⟩,
   ⟨"Print a string variable (Week 2)", Record.printsStringVar, "Example: print(greeting)"⟩,
   ⟨"Concatenate strings (Week 2)", Record.concatenatesStrings,
    "Use '+' with strings or string vars, e.g., greeting + ', world'"⟩]

/-- A list of strings and a choice by chance. -/
def randomExpectations : List Expectation :=
  [⟨"Create a list of strings (Week 2)", Record.hasListOfStrings,
    "Example: foods = ['pizza','taco','salad']"⟩,
   ⟨"Use random.choice() (with import) (Week 2)", Record.randomChoiceOk,
    "Import random or from random import choice, then call random.choice(list) or choice(list)."⟩]

/-- A test of membership. -/
def membershipExpectations : List Expectation :=
  [⟨"Use 'in' on strings/lists (Week 3)", Record.usesInOperator,
    "Use 'in' or 'not in' in a condition."⟩]

/-- A transform of a string. -/
def methodExpectations : List Expectation :=
  [⟨"Use .strip() / .lower() / .upper() (Week 3)", Record.usesStringMethod,
    "Call one of these on a string, e.g., name.strip().lower()."⟩]

/-- A loop over something. -/
def loopExpectations : List Expectation :=
  [⟨"Use a for loop (Week 3)", Record.hasForLoop, "Add a for loop over a list or range(...)."⟩]

/-- A conditional in another one. -/
def nestingExpectations : List Expectation :=
  [⟨"Nested conditionals (Week 3)", Record.hasNestedIf,
    "Place an if-statement inside another if-statement's body."⟩]

/-- Connectives, comparisons and printed truth values. -/
def booleanExpectations : List Expectation :=
  [⟨"Use 'and' or 'or' (Week 2–3)", Record.usesBooleanLogic,
    "Include boolean logic in a condition."⟩,
   ⟨"Use a comparison like '==' (Week 2–3)", Record.hasComparison,
    "Compare values, e.g., color == 'blue'."⟩,
   ⟨"Print a Boolean (literal or expression) (Week 2–3)", Record.printsBoolean,
    "Do: print(True) / print(False) or print(name == 'alex')."⟩]

end Marksheet.Rubric
