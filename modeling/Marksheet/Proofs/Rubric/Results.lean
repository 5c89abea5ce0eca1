import Mathlib
import Marksheet.Rubric.Standard

/-!
# The results of an item

An item yields a fixed number of checks whatever became of the submission, so
the checks of some items can be cut out of a report on all of them by counting
(`select_evaluate`). The names of its checks are fixed as well, but for the
check on conditionals, which has another name when the text cannot be read.

The last statement goes through what can become of a submission: it is missing,
its text cannot be read, its run fails.
-/

namespace Marksheet.Rubric

/-- How many checks an item yields. -/
def Item.size : Item → Nat
  | .runtime | .strings | .booleans => 3
  | .inputs | .random => 2
  | _ => 1

/-- The name that the check on conditionals has for a submission. -/
def shownConditionals : Submission → String
  | .present _ (.error _) _ => "Python parses successfully"
  | _ => conditionalsName

/-- The names of an item's checks, given the name of the check on conditionals. -/
def Item.names (settings : Settings) (fileName conditionals : String) : Item → List String
  | .exists => ["File named " ++ fileName ++ " exists"]
  | .header => [headerName]
  | .lineLength => ["Line length ≤ " ++ toString settings.lineLimit ++ " chars"]
  | .conditionals => [conditionals]
  | .runtime => [executesName, asksName settings, echoesName]
  | .comments => [commentsName]
  | .inputs => inputExpectations.map Expectation.name
  | .strings => stringExpectations.map Expectation.name
  | .random => randomExpectations.map Expectation.name
  | .membership => membershipExpectations.map Expectation.name
  | .methods => methodExpectations.map Expectation.name
  | .loops => loopExpectations.map Expectation.name
  | .nesting => nestingExpectations.map Expectation.name
  | .booleans => booleanExpectations.map Expectation.name

variable (settings : Settings) (fileName : String) (submission : Submission)

/-! ### One item -/

/-- Expectations keep their names, met or not. -/
theorem names_expectations (expected : List Expectation) (reading : Option Reading) :
    (expectations expected fileName reading).map Check.name = expected.map Expectation.name := by
  rcases reading with _ | failure | record
  all_goals
    rw [expectations, List.map_map]
    rfl

theorem names_conditionalChecks :
    (conditionalChecks fileName submission.reading?).map Check.name =
      [shownConditionals submission] := by
  rcases submission with _ | ⟨source, failure | record, outcome⟩
  · rfl
  · rfl
  · simp only [Submission.reading?, conditionalChecks]
    split <;> rfl

theorem names_runtimeChecks (outcome : Option Run.Outcome) :
    (runtimeChecks settings fileName outcome).map Check.name =
      [executesName, asksName settings, echoesName] := by
  rcases outcome with _ | ⟨output, _ | fault, requests⟩ <;> rfl

theorem names_lineLengthChecks (source : Option String) :
    (lineLengthChecks settings fileName source).map Check.name =
      ["Line length ≤ " ++ toString settings.lineLimit ++ " chars"] := by
  cases source with
  | none => rfl
  | some source =>
    simp only [lineLengthChecks]
    split <;> rfl

/-- The names of an item's checks do not depend on the submission, but for one. -/
theorem names_checks (item : Item) :
    (item.checks settings fileName submission).map Check.name =
      item.names settings fileName (shownConditionals submission) := by
  cases item with
  | «exists» => rfl
  | header => cases submission <;> rfl
  | lineLength => exact names_lineLengthChecks settings fileName submission.source?
  | conditionals => exact names_conditionalChecks fileName submission
  | runtime => exact names_runtimeChecks settings fileName submission.outcome?
  | comments => cases submission <;> rfl
  | _ => exact names_expectations fileName _ submission.reading?

/-- Every item yields its number of checks. -/
theorem length_checks (item : Item) :
    (item.checks settings fileName submission).length = item.size := by
  have hnames := congrArg List.length (names_checks settings fileName submission item)
  rw [List.length_map] at hnames
  rw [hnames]
  cases item <;> rfl

/-! ### The parts of a report -/

/-- The checks of the items that are kept, cut out of the checks of all items in order. -/
def select (kept : Item → Bool) : List Item → List Check → List Check
  | [], _ => []
  | item :: rest, checks =>
    (if kept item then checks.take item.size else []) ++
      select kept rest (checks.drop item.size)

/-- What is cut out for some items are the checks of these items. -/
theorem select_evaluate (kept : Item → Bool) (items : List Item) :
    select kept items (evaluate items settings fileName submission) =
      evaluate (items.filter kept) settings fileName submission := by
  induction items with
  | nil => rfl
  | cons item rest ih =>
    have hsize := length_checks settings fileName submission item
    have hcons : evaluate (item :: rest) settings fileName submission =
        item.checks settings fileName submission ++ evaluate rest settings fileName submission := rfl
    rw [select, hcons, List.take_left' hsize, List.drop_left' hsize, ih]
    cases hk : kept item with
    | false => simp [hk]
    | true => simp [hk, evaluate]

/-- The names of a report are the names of its items. -/
theorem names_evaluate (items : List Item) :
    (evaluate items settings fileName submission).map Check.name =
      items.flatMap (Item.names settings fileName (shownConditionals submission)) := by
  rw [evaluate, List.map_flatMap]
  exact List.flatMap_congr fun item _ => names_checks settings fileName submission item

/-- A report has as many checks as its items have together. -/
theorem length_evaluate (items : List Item) :
    (evaluate items settings fileName submission).length = (items.map Item.size).sum := by
  rw [evaluate, List.length_flatMap]
  exact congrArg List.sum (List.map_congr_left fun item _ =>
    length_checks settings fileName submission item)

/-- What is said of every check of some items is said of each check cut out for them. -/
theorem map_select_eq_replicate {α : Type} (kept : Item → Bool) (view : Check → α) (value : α)
    (h : ∀ item, kept item = true →
      ∀ check ∈ item.checks settings fileName submission, view check = value) :
    (select kept standard (evaluate standard settings fileName submission)).map view =
      List.replicate ((standard.filter kept).map Item.size).sum value := by
  rw [select_evaluate, List.eq_replicate_iff, List.length_map, length_evaluate]
  refine ⟨rfl, ?_⟩
  intro shown hs
  obtain ⟨check, hc, rfl⟩ := List.mem_map.mp hs
  obtain ⟨item, hi, hc⟩ := List.mem_flatMap.mp hc
  exact h item (List.mem_filter.mp hi).2 check hc

/-! ### What can become of a submission -/

/-- If the text cannot be read, the checks on its structure fail with the reason. -/
theorem checks_unread (source : String) (failure : Grammar.Failure) (outcome : Run.Outcome)
    {item : Item} (h : item.category = .structural) :
    item.checks settings fileName (.present source (.error failure) outcome) =
      (item.names settings fileName "Python parses successfully").map fun name =>
        .fail name failure.display := by
  cases item with
  | «exists» | header | lineLength | comments | runtime => cases h
  | _ => rfl

/-- If the run fails, so do the checks on it. -/
theorem checks_crashed (source : String) (reading : Reading) (output fault : String)
    (requests : Nat) {item : Item} (h : item.category = .dynamic) :
    ∀ check ∈ item.checks settings fileName (.present source reading ⟨output, some fault, requests⟩),
      check.passed = false := by
  cases item with
  | runtime => simp [Item.checks, Submission.outcome?, runtimeChecks, Check.fail]
  | _ => cases h

/-- The check on conditionals is named for a text that cannot be read exactly if it cannot. -/
theorem shownConditionals_eq_iff :
    shownConditionals submission = "Python parses successfully" ↔
      ∃ failure, submission.reading? = some (.error failure) := by
  have hname : conditionalsName ≠ "Python parses successfully" := by decide
  rcases submission with _ | ⟨source, failure | record, outcome⟩
  · simp [shownConditionals, Submission.reading?, hname]
  · simp [shownConditionals, Submission.reading?]
  · simp [shownConditionals, Submission.reading?, hname]

/-- A report on all items has twenty-two checks, under names that only a text that cannot be read
changes, and only for conditionals. Whatever cannot be judged fails and says why. -/
theorem standard_results (settings : Settings) (fileName : String) :
    (∀ submission,
      (evaluate standard settings fileName submission).length = 22 ∧
      (∀ item : Item, (item.checks settings fileName submission).length = item.size) ∧
      (evaluate standard settings fileName submission).map Check.name =
        standard.flatMap (Item.names settings fileName (shownConditionals submission)) ∧
      ((select (· = .conditionals) standard
          (evaluate standard settings fileName submission)).map Check.name =
          ["Python parses successfully"] ↔
        ∃ failure, submission.reading? = some (.error failure))) ∧
    ((evaluate standard settings fileName .missing).map Check.passed = List.replicate 22 false ∧
      (evaluate standard settings fileName .missing).map Check.message =
        ("Create " ++ fileName ++ " (exact name, no spaces).") ::
          List.replicate 21
            ("Could not read the file. " ++ ("Create " ++ fileName ++ " (exact name, no spaces)."))) ∧
    (∀ source failure outcome,
      let report := evaluate standard settings fileName (.present source (.error failure) outcome)
      (select (·.category = .structural) standard report).map
          (fun check => (check.passed, check.message)) =
        List.replicate 15 (false, failure.display) ∧
      (select (· = .exists) standard report).map Check.passed = [true]) ∧
    (∀ source reading output fault requests,
      let report := evaluate standard settings fileName
        (.present source reading ⟨output, some fault, requests⟩)
      (select (·.category = .dynamic) standard report).map Check.passed =
        List.replicate 3 false) := by
  refine ⟨fun submission => ⟨?_, ?_, ?_, ?_⟩, ⟨rfl, rfl⟩, fun source failure outcome => ⟨?_, ?_⟩,
    fun source reading output fault requests => ?_⟩
  · rw [length_evaluate]
    rfl
  · exact length_checks settings fileName submission
  · exact names_evaluate settings fileName submission standard
  · rw [select_evaluate, names_evaluate, ← shownConditionals_eq_iff]
    exact List.singleton_inj
  · refine map_select_eq_replicate settings fileName _ _ _ _ fun item hk check hc => ?_
    rw [checks_unread settings fileName source failure outcome (of_decide_eq_true hk)] at hc
    obtain ⟨name, -, rfl⟩ := List.mem_map.mp hc
    rfl
  · rw [select_evaluate]
    rfl
  · exact map_select_eq_replicate settings fileName _ _ _ _ fun item hk =>
      checks_crashed settings fileName source reading output fault requests (of_decide_eq_true hk)

end Marksheet.Rubric
