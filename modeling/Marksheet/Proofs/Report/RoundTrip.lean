import Marksheet.Proofs.CommandLine.Document
import Marksheet.Report.Reading

/-!
# Reports read back from their document

The members of each record are written under the names of its fields, so the
fields are found again, and a message that is not written is read as the empty
one. With the form of a text read back as its value, a document gives back all
that was reported.
-/

namespace Marksheet.Report

open Rubric (Check)

/-! ### The value of a document -/

/-- What the document of reports holds. -/
def Contents.ofReports (reports : List Report) : Contents where
  version := Report.version
  entries := reports.map fun report => ⟨report.file, report.passed, report.total, report.checks⟩
  totals := .ofReports reports

/-- A check is read back, whether or not its message is written. -/
theorem check?_checkValue (check : Check) : check? (checkValue check) = some check := by
  obtain ⟨name, passed, message⟩ := check
  by_cases empty : message = ""
  · subst empty
    rfl
  · have written : message.isEmpty = false := by simpa using empty
    have hfields : fields? ["name", "passed", "message"] (checkValue ⟨name, passed, message⟩) =
        some [some (.string name), some (.bool passed), some (.string message)] := by
      rw [checkValue, written]
      rfl
    rw [check?, hfields]
    rfl

/-- Items are read back if each of them is. -/
theorem items?_map {α β : Type} {read : Json.Value → Option β} {write : α → Json.Value} {f : α → β}
    (h : ∀ a, read (write a) = some (f a)) (found : List α) :
    items? read (.array (found.map write)) = some (found.map f) := by
  rw [items?]
  induction found with
  | nil => rfl
  | cons a rest ih =>
    rw [List.map_cons, List.mapM_cons, h a, ih]
    rfl

theorem entryOf?_fileValue (report : Report) : entryOf? (fileValue report) =
    some ⟨report.file, report.passed, report.total, report.checks⟩ := by
  have hfields : fields? ["file", "passed", "total", "results"] (fileValue report) =
      some [some (.string report.file), some (.nat report.passed), some (.nat report.total),
        some (.array (report.checks.map checkValue))] := rfl
  have hchecks := items?_map (f := id) check?_checkValue report.checks
  rw [List.map_id] at hchecks
  simp [entryOf?, hfields, hchecks, text?, count?]

theorem totals?_totalsValue (totals : Totals) : totals? (totalsValue totals) = some totals := rfl

/-! ### The text of a document -/

/-- A value is read back from its form with a line feed behind it. -/
theorem value?_document (reports : List Report) :
    Json.value? (document reports) = some (documentValue reports) := by
  have hform := Json.cut_spread 0 (documentValue reports) (native_documentValue reports)
  have hfeed : Json.Cut Json.Ends ['\n'] [] :=
    (Json.Cut.gap (by simp [Json.isGap])).mono fun _ _ => trivial
  have hends : ∀ rest, Json.Ends rest → Json.Ends (['\n'] ++ rest) := fun rest _ =>
    Json.ends_cons (by decide)
  have hcut := hform.append hfeed hends
  rw [List.append_nil] at hcut
  refine Json.value?_of_cut ?_
  rw [document, String.toList_append]
  exact hcut

theorem contents?_document (reports : List Report) :
    contents? (document reports) = some (.ofReports reports) := by
  have hfields : fields? ["version", "files", "totals"] (documentValue reports) =
      some [some (.string version), some (.array (reports.map fileValue)),
        some (totalsValue (.ofReports reports))] := rfl
  have hentries := items?_map entryOf?_fileValue reports
  simp [contents?, value?_document, hfields, hentries, totals?_totalsValue, text?,
    Contents.ofReports]

/-- What is read from the document of any reports: all files and all checks with their names,
outcomes and messages, in their order; for each file the numbers of its checks; and the totals of
the reports. -/
theorem document_roundTrip (reports : List Report) :
    ∃ contents, contents? (document reports) = some contents ∧
      contents.version = version ∧
      contents.entries.map (fun entry => Report.mk entry.file entry.checks) = reports ∧
      (∀ entry ∈ contents.entries, entry.passed = entry.checks.countP (·.passed) ∧
        entry.total = entry.checks.length) ∧
      contents.totals = Totals.ofReports reports := by
  refine ⟨.ofReports reports, contents?_document reports, rfl, ?_, fun entry hm => ?_, rfl⟩
  · have hback : (fun report : Report => Report.mk report.file report.checks) = id := rfl
    simp only [Contents.ofReports, List.map_map, Function.comp_def, hback, List.map_id]
  · obtain ⟨report, -, rfl⟩ := List.mem_map.mp hm
    exact ⟨rfl, rfl⟩

end Marksheet.Report
