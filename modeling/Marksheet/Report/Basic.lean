import Marksheet.Rubric.Check

/-!
# Reports and totals

Every check of a report is worth one point. Totals add up the reports of a
batch.
-/

namespace Marksheet

open Rubric (Check)

/-- The checks of one submission. -/
structure Report where
  /-- The name that the submission was graded under. -/
  file : String
  /-- The checks in the order of the rubric. -/
  checks : List Check
  deriving DecidableEq, Repr, Inhabited

namespace Report

/-- How many checks are passed. -/
def passed (report : Report) : Nat := report.checks.countP (·.passed)

/-- How many checks there are. -/
def total (report : Report) : Nat := report.checks.length

/-- Every check is passed. -/
def isPerfect (report : Report) : Bool := report.passed = report.total

/-- The failed checks that say what to do. -/
def hints (report : Report) : List Check :=
  report.checks.filter fun check => !check.passed && !check.message.isEmpty

/-- The score in words. -/
def summary (report : Report) : String :=
  toString report.passed ++ "/" ++ toString report.total ++ " items"

/-- No more checks are passed than there are. -/
theorem passed_le_total (report : Report) : report.passed ≤ report.total :=
  List.countP_le_length

end Report

/-- What the reports of a batch add up to. -/
structure Totals where
  files : Nat
  /-- How many reports have every check passed. -/
  perfect : Nat
  passedItems : Nat
  totalItems : Nat
  deriving DecidableEq, Repr, Inhabited

namespace Totals

/-- The totals of no report. -/
def zero : Totals := ⟨0, 0, 0, 0⟩

/-- The totals with one more report. -/
def add (totals : Totals) (report : Report) : Totals where
  files := totals.files + 1
  perfect := totals.perfect + report.isPerfect.toNat
  passedItems := totals.passedItems + report.passed
  totalItems := totals.totalItems + report.total

/-- The totals of a list of reports. -/
def ofReports (reports : List Report) : Totals := reports.foldl add zero

/-- The totals in words. -/
def summary (totals : Totals) : String :=
  "Graded " ++ toString totals.files ++ " file" ++ (if totals.files = 1 then "" else "s") ++
    ": " ++ toString totals.perfect ++ " with full marks, " ++ toString totals.passedItems ++
    "/" ++ toString totals.totalItems ++ " items overall"

end Totals

end Marksheet
