import Marksheet.Json.Basic
import Marksheet.Report.Basic

/-!
# Reports as a document

One document holds the reports of a run: a version, each file with its checks,
and the totals. A check without a message has no member for it.
-/

namespace Marksheet.Report

open Rubric (Check)

/-- The version that a document names. -/
def version : String := "0.1.0"

/-- A check in a document. -/
def checkValue (check : Check) : Json.Value :=
  .object ([("name", .string check.name), ("passed", .bool check.passed)] ++
    if check.message.isEmpty then [] else [("message", .string check.message)])

/-- A report in a document. -/
def fileValue (report : Report) : Json.Value :=
  .object [("file", .string report.file), ("passed", .nat report.passed),
    ("total", .nat report.total), ("results", .array (report.checks.map checkValue))]

/-- Totals in a document. -/
def totalsValue (totals : Totals) : Json.Value :=
  .object [("files", .nat totals.files), ("perfect", .nat totals.perfect),
    ("passed_items", .nat totals.passedItems), ("total_items", .nat totals.totalItems)]

/-- The document of a list of reports. -/
def documentValue (reports : List Report) : Json.Value :=
  .object [("version", .string version), ("files", .array (reports.map fileValue)),
    ("totals", totalsValue (.ofReports reports))]

/-- The text of the document of a list of reports. -/
def document (reports : List Report) : String := Json.spread 0 (documentValue reports) ++ "\n"

end Marksheet.Report
