import Mathlib
import Marksheet.Report.Basic

/-!
# What the totals of a batch say

Totals add up field by field, and those of a list are the sum of what its
reports count one by one, so a batch may be cut in two or put in another order.
No report has more checks passed than it has, so a surplus of one never makes up
for what another one lacks: all checks of a batch are passed exactly if every
report of it is perfect.
-/

namespace Marksheet

namespace Report

/-- A report is perfect exactly if each of its checks is passed; one without checks is. -/
theorem isPerfect_iff (report : Report) :
    report.isPerfect = true ↔ ∀ check ∈ report.checks, check.passed = true := by
  rw [isPerfect, decide_eq_true_eq, passed, total, List.countP_eq_length]

/-- No surplus of one report makes up for what another one lacks. -/
theorem sum_passed_eq_iff (reports : List Report) :
    (reports.map passed).sum = (reports.map total).sum ↔
      ∀ report ∈ reports, report.isPerfect = true := by
  induction reports with
  | nil => simp
  | cons report rest ih =>
    have hone : report.passed ≤ report.total := report.passed_le_total
    have hrest : (rest.map passed).sum ≤ (rest.map total).sum :=
      List.sum_le_sum fun other _ => other.passed_le_total
    rw [List.forall_mem_cons, ← ih, isPerfect, decide_eq_true_eq, List.map_cons, List.map_cons,
      List.sum_cons, List.sum_cons]
    omega

end Report

namespace Totals

/-- Totals add up field by field. -/
instance : Add Totals where
  add first second :=
    { files := first.files + second.files
      perfect := first.perfect + second.perfect
      passedItems := first.passedItems + second.passedItems
      totalItems := first.totalItems + second.totalItems }

/-- Totals count the reports and add up their checks. -/
theorem ofReports_eq (reports : List Report) :
    ofReports reports = ⟨reports.length, reports.countP (·.isPerfect),
      (reports.map (·.passed)).sum, (reports.map (·.total)).sum⟩ := by
  have hfold : ∀ totals : Totals, reports.foldl add totals =
      ⟨totals.files + reports.length, totals.perfect + reports.countP (·.isPerfect),
        totals.passedItems + (reports.map (·.passed)).sum,
        totals.totalItems + (reports.map (·.total)).sum⟩ := by
    induction reports with
    | nil => intro totals; rfl
    | cons report rest ih =>
      intro totals
      rw [List.foldl_cons, ih]
      simp only [add, List.length_cons, List.countP_cons, List.map_cons, List.sum_cons, mk.injEq]
      refine ⟨by omega, ?_, by omega, by omega⟩
      cases report.isPerfect with
      | true => simp only [Bool.toNat_true, if_true]; omega
      | false => simp
  simpa [ofReports, zero] using hfold zero

theorem ofReports_append (first second : List Report) :
    ofReports (first ++ second) = ofReports first + ofReports second := by
  rw [ofReports_eq, ofReports_eq first, ofReports_eq second, List.length_append,
    List.countP_append, List.map_append, List.map_append, List.sum_append, List.sum_append]
  rfl

theorem ofReports_perm {reports others : List Report} (h : reports.Perm others) :
    ofReports reports = ofReports others := by
  rw [ofReports_eq, ofReports_eq others, h.length_eq, h.countP_eq, (h.map _).sum_eq,
    (h.map _).sum_eq]

/-- What one report counts. -/
theorem ofReports_singleton (report : Report) :
    ofReports [report] =
      ⟨1, if ∀ check ∈ report.checks, check.passed = true then 1 else 0,
        report.checks.countP (·.passed), report.checks.length⟩ := by
  rw [ofReports_eq]
  simp only [List.countP_singleton, Report.isPerfect_iff, List.map_cons, List.map_nil,
    List.sum_singleton, List.length_singleton, Report.passed, Report.total]

theorem perfect_eq_files_iff (reports : List Report) :
    (ofReports reports).perfect = (ofReports reports).files ↔
      ∀ report ∈ reports, report.isPerfect = true := by
  rw [ofReports_eq]
  exact List.countP_eq_length

/-- The totals of two lists together are the sum of their totals, and the order of a list does not
matter; a report counts as perfect if each of its checks is passed, and so if it has none. There are
no more perfect reports than reports and no more checks passed than checks, and the one bound is met
exactly if the other is. -/
theorem ofReports_exact :
    (∀ first second : List Report,
      ofReports (first ++ second) = ofReports first + ofReports second) ∧
    (∀ reports others : List Report, reports.Perm others → ofReports reports = ofReports others) ∧
    (∀ report : Report, ofReports [report] =
      ⟨1, if ∀ check ∈ report.checks, check.passed = true then 1 else 0,
        report.checks.countP (·.passed), report.checks.length⟩) ∧
    ∀ reports : List Report,
      (ofReports reports).perfect ≤ (ofReports reports).files ∧
        (ofReports reports).passedItems ≤ (ofReports reports).totalItems ∧
        ((ofReports reports).perfect = (ofReports reports).files ↔
          (ofReports reports).passedItems = (ofReports reports).totalItems) := by
  refine ⟨ofReports_append, fun _ _ => ofReports_perm, ofReports_singleton, fun reports =>
    ⟨?_, ?_, ?_⟩⟩
  · rw [ofReports_eq]
    exact List.countP_le_length
  · rw [ofReports_eq]
    exact List.sum_le_sum fun report _ => report.passed_le_total
  · rw [perfect_eq_files_iff, ofReports_eq, ← Report.sum_passed_eq_iff]

/-- A report without checks and one with a failed check, in either order: the first one is perfect,
and together they are not. -/
theorem ofReports_exact_swapped :
    [⟨"a.py", []⟩, ⟨"b.py", [⟨"one", true, ""⟩, ⟨"two", false, "hint"⟩]⟩].Perm
        [⟨"b.py", [⟨"one", true, ""⟩, ⟨"two", false, "hint"⟩]⟩, (⟨"a.py", []⟩ : Report)] ∧
      ofReports [⟨"a.py", []⟩, ⟨"b.py", [⟨"one", true, ""⟩, ⟨"two", false, "hint"⟩]⟩] =
        ofReports [⟨"b.py", [⟨"one", true, ""⟩, ⟨"two", false, "hint"⟩]⟩, ⟨"a.py", []⟩] ∧
      ofReports [⟨"b.py", [⟨"one", true, ""⟩, ⟨"two", false, "hint"⟩]⟩, ⟨"a.py", []⟩] =
        ⟨2, 1, 1, 2⟩ :=
  ⟨List.Perm.swap _ _ [], ofReports_exact.2.1 _ _ (List.Perm.swap _ _ []), by decide⟩

end Totals

end Marksheet
