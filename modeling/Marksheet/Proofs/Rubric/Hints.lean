import Mathlib
import Marksheet.Grading.Grader
import Marksheet.Report.Pretty

/-!
# Every failure says why

A check that fails says what to do (`Check.Spoken`), whatever item it is from and
whatever became of the submission. So the hints of a report are its failures, and
a report to read ends in one bullet for each of them (`hints_exact`).
-/

namespace Marksheet

namespace Rubric

variable (settings : Settings) (fileName : String)

/-- If the check fails, it says something. -/
def Check.Spoken (check : Check) : Prop := check.passed = false → check.message ≠ ""

theorem Check.spoken_of_message {check : Check} (h : check.message ≠ "") : check.Spoken :=
  fun _ => h

theorem Check.spoken_pass (name : String) : (Check.pass name).Spoken := nofun

theorem spoken_fail {message : String} (name : String) (h : message ≠ "") :
    (Check.fail name message).Spoken :=
  Check.spoken_of_message h

/-! ### One group of checks -/

theorem append_ne_empty {text more : String} (h : text ≠ "") : text ++ more ≠ "" :=
  fun happend => h (String.append_eq_empty_iff.1 happend).1

theorem createHint_ne_empty : createHint fileName ≠ "" := by simp [createHint]

theorem spoken_unreadable (name : String) : (unreadable fileName name).Spoken :=
  spoken_fail name (by simp)

theorem display_ne_empty (failure : Grammar.Failure) : failure.display ≠ "" := by
  have hword : "SyntaxError: " ≠ "" := by decide
  unfold Grammar.Failure.display
  exact append_ne_empty (append_ne_empty (append_ne_empty (append_ne_empty (append_ne_empty
    (append_ne_empty hword)))))

/-- Expectations whose hints are not empty say something when they are not met. -/
theorem spoken_expectations {expected : List Expectation} (h : ∀ e ∈ expected, e.hint ≠ "")
    (reading : Option Reading) : ∀ check ∈ expectations expected fileName reading, check.Spoken := by
  intro check hcheck
  rcases reading with _ | failure | record
  all_goals
    obtain ⟨e, he, rfl⟩ := List.mem_map.1 hcheck
  · exact spoken_unreadable fileName e.name
  · exact spoken_fail e.name (display_ne_empty failure)
  · exact Check.spoken_of_message (h e he)

theorem spoken_conditionals (reading : Option Reading) :
    ∀ check ∈ conditionalChecks fileName reading, check.Spoken := by
  rcases reading with _ | failure | record
  · exact List.forall_mem_singleton.2 (spoken_unreadable fileName conditionalsName)
  · exact List.forall_mem_singleton.2 (spoken_fail _ (display_ne_empty failure))
  · unfold conditionalChecks
    dsimp only
    cases missingConditionals record with
    | nil => exact List.forall_mem_singleton.2 (Check.spoken_pass _)
    | cons part rest =>
      have hword : "Missing: " ≠ "" := by decide
      exact List.forall_mem_singleton.2 (spoken_fail _ (append_ne_empty hword))

theorem spoken_three {first second third : Check} (hfirst : first.Spoken) (hsecond : second.Spoken)
    (hthird : third.Spoken) : ∀ check ∈ [first, second, third], check.Spoken :=
  List.forall_mem_cons.2 ⟨hfirst, List.forall_mem_cons.2
    ⟨hsecond, List.forall_mem_singleton.2 hthird⟩⟩

theorem spoken_runtime (outcome : Option Run.Outcome) :
    ∀ check ∈ runtimeChecks settings fileName outcome, check.Spoken := by
  rcases outcome with _ | ⟨output, _ | fault, requests⟩
  · exact spoken_three (spoken_unreadable _ _) (spoken_unreadable _ _) (spoken_unreadable _ _)
  · exact spoken_three (Check.spoken_pass _) (Check.spoken_of_message (by simp))
      (Check.spoken_of_message (by simp))
  · have hcomplete : didNotComplete ≠ "" := by decide
    exact spoken_three (spoken_fail _ (by simp)) (spoken_fail _ hcomplete)
      (spoken_fail _ hcomplete)

theorem spoken_lineLength (source : Option String) :
    ∀ check ∈ lineLengthChecks settings fileName source, check.Spoken := by
  cases source with
  | none => exact List.forall_mem_singleton.2 (spoken_unreadable fileName _)
  | some source =>
    unfold lineLengthChecks
    dsimp only
    cases longLines settings.lineLimit source.toList with
    | nil => exact List.forall_mem_singleton.2 (Check.spoken_pass _)
    | cons number rest =>
      exact List.forall_mem_singleton.2 (spoken_fail _ (by simp [longLinesMessage]))

theorem spoken_header (source : Option String) :
    ∀ check ∈ headerChecks settings fileName source, check.Spoken := by
  cases source with
  | none => exact List.forall_mem_singleton.2 (spoken_unreadable fileName _)
  | some source => exact List.forall_mem_singleton.2 (Check.spoken_of_message (by simp))

theorem spoken_comments (source : Option String) :
    ∀ check ∈ commentChecks fileName source, check.Spoken := by
  cases source with
  | none => exact List.forall_mem_singleton.2 (spoken_unreadable fileName _)
  | some source => exact List.forall_mem_singleton.2 (Check.spoken_of_message (by simp))

/-! ### All items -/

/-- A failed check of an item says something. -/
theorem spoken_checks (submission : Submission) (item : Item) :
    ∀ check ∈ item.checks settings fileName submission, check.Spoken := by
  cases item with
  | «exists» =>
    exact List.forall_mem_singleton.2 (Check.spoken_of_message (createHint_ne_empty fileName))
  | header => exact spoken_header settings fileName _
  | lineLength => exact spoken_lineLength settings fileName _
  | conditionals => exact spoken_conditionals fileName _
  | runtime => exact spoken_runtime settings fileName _
  | comments => exact spoken_comments fileName _
  | _ => exact spoken_expectations fileName (by decide) _

theorem spoken_evaluate (items : List Item) (submission : Submission) :
    ∀ check ∈ evaluate items settings fileName submission, check.Spoken := by
  intro check hcheck
  obtain ⟨item, -, hitem⟩ := List.mem_flatMap.1 hcheck
  exact spoken_checks settings fileName submission item check hitem

end Rubric

namespace Report

open Rubric (Check)

/-- The failed checks of a report. -/
def failures (report : Report) : List Check := report.checks.filter fun check => !check.passed

/-- A report whose failures all say something, and what follows for its hints and its text. -/
structure Explained (report : Report) : Prop where
  spoken : ∀ check ∈ report.checks, check.passed = false → check.message ≠ ""
  hints : report.hints = report.failures
  count : report.hints.length = report.total - report.passed
  text : ∀ styled, report.pretty styled =
    if report.isPerfect then report.page styled
    else report.page styled ++ ("Hints:\n" ++
      String.join (report.failures.map fun check => " • " ++ check.message ++ "\n") ++ "\n")

variable {report : Report}

theorem length_failures (report : Report) :
    report.failures.length + report.passed = report.total := by
  have hsplit := List.length_eq_countP_add_countP (l := report.checks) (·.passed)
  have hfailures : report.failures.length = report.checks.countP fun check => !check.passed := by
    rw [failures, List.countP_eq_length_filter]
  simp only [Bool.not_eq_true, Bool.decide_eq_false] at hsplit
  unfold passed total
  omega

theorem isPerfect_iff_failures (report : Report) :
    report.isPerfect = true ↔ report.failures = [] := by
  have hlength := length_failures report
  rw [isPerfect, decide_eq_true_iff, ← List.length_eq_zero_iff]
  omega

/-- A report is explained if its failures say something. -/
theorem explained_of_spoken (h : ∀ check ∈ report.checks, check.Spoken) : report.Explained := by
  have hhints : report.hints = report.failures := by
    refine List.filter_congr fun check hcheck => ?_
    cases hpassed : check.passed with
    | true => rfl
    | false => simpa using h check hcheck hpassed
  have hlength := length_failures report
  refine ⟨h, hhints, by rw [hhints]; omega, fun styled => ?_⟩
  rw [pretty, hhints]
  cases hfailures : report.failures with
  | nil =>
    rw [if_pos ((isPerfect_iff_failures report).2 hfailures), hintBlock, String.append_empty]
  | cons check rest =>
    have hfailed : ¬ report.isPerfect = true := fun hperfect => by
      rw [(isPerfect_iff_failures report).1 hperfect] at hfailures
      cases hfailures
    rw [if_neg hfailed, hintBlock]
    exact nofun

end Report

namespace Grading

/-- Reports explain their failures: on any items, whatever became of the submission, and so on every
text and every file that a grader is given. -/
theorem hints_exact :
    (∀ (items : List Rubric.Item) (settings : Settings) (fileName : String)
      (submission : Rubric.Submission),
      (⟨fileName, Rubric.evaluate items settings fileName submission⟩ : Report).Explained) ∧
    ∀ grader : Grader,
      (∀ fileName source, (grader.gradeSource fileName source).Explained) ∧
      ∀ path, (grader.gradeFile path).Explained := by
  have hevaluated : ∀ (items : List Rubric.Item) (settings : Settings) (fileName : String)
      (submission : Rubric.Submission),
      (⟨fileName, Rubric.evaluate items settings fileName submission⟩ : Report).Explained :=
    fun items settings fileName submission =>
      Report.explained_of_spoken (Rubric.spoken_evaluate settings fileName items submission)
  exact ⟨hevaluated, fun grader => ⟨fun fileName source => hevaluated _ _ _ _,
    fun path => hevaluated _ _ _ _⟩⟩

end Grading

end Marksheet
