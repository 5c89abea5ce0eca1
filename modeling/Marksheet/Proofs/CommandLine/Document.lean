import Mathlib
import Marksheet.Proofs.CommandLine.Batch
import Marksheet.Proofs.Json.RoundTrip

/-!
# Documents of a session

A session that is asked for a document and ends well writes exactly one, which
reads back as the version, the reports on the selected files in their order, and
their totals; a line feed follows it. The one exception is a batch without any
file: what is said about it is no document (`json_exact`).
-/

namespace Marksheet

namespace Report

/-- Items made of native values are native. -/
theorem nativeItems_map {α : Type} {value : α → Json.Value} (h : ∀ a, (value a).Native)
    (found : List α) : Json.NativeItems (found.map value) := by
  induction found with
  | nil => trivial
  | cons a rest ih => exact ⟨h a, ih⟩

theorem native_checkValue (check : Rubric.Check) : (checkValue check).Native := by
  unfold checkValue
  split
  · exact ⟨trivial, trivial, trivial⟩
  · exact ⟨trivial, trivial, trivial, trivial⟩

theorem native_fileValue (report : Report) : (fileValue report).Native :=
  ⟨trivial, trivial, trivial, nativeItems_map native_checkValue report.checks, trivial⟩

/-- A document has no foreign numbers. -/
theorem native_documentValue (reports : List Report) : (documentValue reports).Native :=
  ⟨trivial, nativeItems_map native_fileValue reports, ⟨trivial, trivial, trivial, trivial, trivial⟩,
    trivial⟩

/-- The document of reports is a text that holds the reports, and a line feed. -/
theorem document_eq (reports : List Report) :
    ∃ text, document reports = text ++ "\n" ∧ Json.value? text = some (documentValue reports) :=
  ⟨_, rfl, Json.value?_spread 0 (native_documentValue reports)⟩

end Report

namespace CommandLine

/-- No document begins with the letter of a refusal. -/
theorem tokens?_eq_none {text : String} {tail : List Char} (h : text.toList = 'N' :: tail) :
    Json.tokens? text = none := by
  have hdigit : Source.Alphabet.isDigit 'N' = false := by decide
  have hgap : Json.isGap 'N' = false := by decide
  have htoken : Json.token? ('N' :: tail) = none := by
    simp [Json.token?, Json.number?, Json.wholeDigits?, Json.someDigits?, Decimal.spanDigits, hdigit]
  rw [Json.tokens?, ← String.length_toList, h, List.length_cons, Json.tokensFrom,
    List.dropWhile_cons_of_neg (by simp [hgap])]
  simp only [htoken]
  rfl

/-- What is written about a batch without any file is no document. -/
theorem value?_noFiles (settings : Settings) {text : String}
    (h : noFiles settings = text ++ "\n") : Json.value? text = none := by
  have hchars := congrArg String.toList h
  simp only [noFiles, String.toList_append] at hchars
  cases htext : text.toList with
  | nil =>
    rw [htext] at hchars
    exact absurd (List.cons.inj hchars).1 (by decide)
  | cons c tail =>
    rw [htext] at hchars
    obtain ⟨rfl, -⟩ : 'N' = c ∧ _ := List.cons.inj hchars
    rw [Json.value?, tokens?_eq_none htext]
    rfl

/-- A session that is asked for a document and ends well writes exactly one document, with the
reports on the selected files in their order and their totals, and a line feed behind it, unless it
is a batch without any file. -/
theorem json_exact (world : World) {arguments : List String} {options : Options}
    (ho : Options.ofArguments arguments = .ok options) (hformat : options.format = .json)
    (hstatus : (session world arguments).status = 0) :
    ∃ settings paths, settingsOf world options = .ok settings ∧
      selection world options settings = .ok paths ∧
      ((∃ text, (session world arguments).output = text ++ "\n" ∧
          Json.value? text = some (.object [("version", .string Report.version),
            ("files", .array ((world.reports settings paths).map Report.fileValue)),
            ("totals", Report.totalsValue ⟨(world.reports settings paths).length,
              (world.reports settings paths).countP (·.isPerfect),
              ((world.reports settings paths).map (·.passed)).sum,
              ((world.reports settings paths).map (·.total)).sum⟩)])) ↔
        ¬ (options.all = true ∧ paths = [])) ∧
      (options.all = true ∧ paths = [] → (session world arguments).output = noFiles settings) := by
  have hwell : ∀ mishap, sessionWith world options ≠ .error mishap := by
    intro mishap h
    have htwo := (status_eq_two_iff world arguments).2 ((stopped_iff ho).2 ⟨mishap, h⟩)
    omega
  obtain ⟨settings, paths, hs, hp⟩ := exists_selection hwell
  have houtput : (session world arguments).output =
      account options settings (world.styled options) (world.reports settings paths) := by
    rw [session_eq ho hs hp]
  have hnone : (options.all = true ∧ paths = []) →
      (session world arguments).output = noFiles settings := by
    rintro ⟨hall, rfl⟩
    rw [houtput, account, hall]
    rfl
  refine ⟨settings, paths, hs, hp, ⟨?_, ?_⟩, hnone⟩
  · rintro ⟨text, htext, hvalue⟩ hempty
    rw [value?_noFiles settings ((hnone hempty).symm.trans htext)] at hvalue
    cases hvalue
  · intro hsome
    have hwritten : (session world arguments).output =
        Report.document (world.reports settings paths) := by
      rw [houtput, account, if_neg, hformat]
      · rfl
      · simpa [World.reports] using hsome
    rw [hwritten, ← Totals.ofReports_eq]
    exact Report.document_eq (world.reports settings paths)

/-- A document on one submission. -/
theorem json_exact_oneSubmission :
    ∃ text, (session (oneSubmission .locked) ["--all", "--format", "json"]).output = text ++ "\n" ∧
      (Json.value? text).isSome := by
  have ho : Options.ofArguments ["--all", "--format", "json"] =
      .ok ⟨none, true, ".", none, .json, false, false⟩ := by decide +kernel
  have hs : settingsOf (oneSubmission .locked) ⟨none, true, ".", none, .json, false, false⟩ =
      .ok .standard := rfl
  have hp : selection (oneSubmission .locked) ⟨none, true, ".", none, .json, false, false⟩
      .standard = .ok ["./chatbot.py"] := by decide +kernel
  obtain ⟨settings, paths, hs', hp', hdocument, -⟩ := json_exact (oneSubmission .locked) ho rfl
    (by rw [session_eq ho hs hp])
  cases hs.symm.trans hs'
  cases hp.symm.trans hp'
  obtain ⟨text, htext, hvalue⟩ := hdocument.2 (by simp)
  exact ⟨text, htext, by rw [hvalue]; rfl⟩

/-- A working folder without any file. -/
def noSubmission : World :=
  ⟨⟨[(["work"], .folder)], ["work"]⟩, fun _ => .error (.unstarted .denied), false⟩

/-- A session that is asked for a document on an empty folder ends well, and writes none. -/
theorem json_missing_noSubmission :
    session noSubmission ["--all", "--format", "json"] =
        ⟨0, "No chatbot*.py files found.\n", ""⟩ ∧
      ¬ ∃ text value, (session noSubmission ["--all", "--format", "json"]).output = text ++ "\n" ∧
        Json.value? text = some value := by
  have hsession : session noSubmission ["--all", "--format", "json"] =
      ⟨0, noFiles .standard, ""⟩ := by decide +kernel
  refine ⟨hsession, ?_⟩
  rintro ⟨text, value, htext, hvalue⟩
  rw [hsession] at htext
  rw [value?_noFiles .standard htext] at hvalue
  cases hvalue

end CommandLine

end Marksheet
