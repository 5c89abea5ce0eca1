import Marksheet.Grading.Grader
import Marksheet.Proofs.Features.Wiped
import Marksheet.Proofs.Grammar.CrlfPrograms
import Marksheet.Proofs.Rubric.LineEnds

/-!
# Line ends do not change a grade

A text and the same text with line ends of two characters are accepted alike,
tell the same of their structure, and have the same checks on the text
(`grades_alike_crlf`). One thing is asked of the grammar: that it takes the
second text if it takes the first (`TakesCrlf`). In a string of one line a line
feed may be the first character, also behind an escape, and no other line end
may; there the second text is refused. The other way nothing is asked: what is
taken with other line ends has the same reading without (`reading_crlf`).
-/

namespace Marksheet.Grading

open Source

/-- The grammar takes the text with line ends of two characters if it takes the text. -/
def TakesCrlf (source : String) : Prop :=
  (Grammar.read source).isOk = true → (Grammar.read (crlfText source)).isOk = true

/-- A reading does not look at the texts of a tree. -/
theorem reading_eq_wiped (source : String) :
    reading source =
      ((Grammar.parse source).map Syntax.Module.wiped).map Features.Record.ofModule := by
  unfold reading
  cases Grammar.parse source with
  | error failure => rfl
  | ok tree => exact congrArg Except.ok (Features.ofModule_wiped tree).symm

/-- A text that the grammar does not take is refused. -/
theorem not_isOk_reading {source : String} (h : ¬ (Grammar.read source).isOk = true) :
    (reading source).isOk = false := by
  unfold reading Grammar.parse
  cases hr : Grammar.read source with
  | error failure => rfl
  | ok block => exact absurd (by rw [hr]; rfl) h

/-- A text has a reading if it is accepted. -/
theorem isOk_reading (source : String) :
    (reading source).isOk = (Grammar.parse source).isOk := by
  unfold reading
  cases Grammar.parse source <;> rfl

section

variable {source : String} (hreturn : '\r' ∉ source.toList)

include hreturn

/-- If the text with other line ends is taken, both texts have the same reading. -/
theorem reading_crlf (h : (Grammar.read (crlfText source)).isOk = true) :
    reading (crlfText source) = reading source := by
  obtain ⟨block, hblock⟩ : ∃ block, Grammar.read (crlfText source) = .ok block := by
    cases hr : Grammar.read (crlfText source) with
    | error failure =>
      rw [hr] at h
      cases h
    | ok block => exact ⟨block, rfl⟩
  rw [reading_eq_wiped, reading_eq_wiped,
    Grammar.parse_crlf hreturn (Grammar.not_broken_of_read hblock)]

/-- Line ends of two characters change neither whether a text is accepted, nor the record of its
structure, nor the checks on its text. -/
theorem grades_alike_crlf (htakes : TakesCrlf source) :
    (Grammar.parse (crlfText source)).isOk = (Grammar.parse source).isOk ∧
      (∀ record, reading (crlfText source) = .ok record ↔ reading source = .ok record) ∧
      ∀ settings fileName,
        Rubric.headerChecks settings fileName (some (crlfText source)) =
            Rubric.headerChecks settings fileName (some source) ∧
          Rubric.lineLengthChecks settings fileName (some (crlfText source)) =
            Rubric.lineLengthChecks settings fileName (some source) ∧
          Rubric.commentChecks fileName (some (crlfText source)) =
            Rubric.commentChecks fileName (some source) := by
  have hchecks := fun (settings : Settings) (fileName : String) =>
    And.intro (Rubric.headerChecks_crlf settings fileName hreturn)
      (And.intro (Rubric.lineLengthChecks_crlf settings fileName hreturn)
        (Rubric.commentChecks_crlf fileName hreturn))
  have halike : reading (crlfText source) = reading source ∨
      (reading (crlfText source)).isOk = false ∧ (reading source).isOk = false := by
    by_cases htaken : (Grammar.read (crlfText source)).isOk = true
    · exact .inl (reading_crlf hreturn htaken)
    · exact .inr ⟨not_isOk_reading htaken, not_isOk_reading fun h => htaken (htakes h)⟩
  rw [← isOk_reading, ← isOk_reading]
  obtain hsame | ⟨hcrlf, hfeed⟩ := halike
  · rw [hsame]
    exact ⟨rfl, fun _ => Iff.rfl, hchecks⟩
  · refine ⟨hcrlf.trans hfeed.symm, fun record => ⟨fun h => ?_, fun h => ?_⟩, hchecks⟩
    · rw [h] at hcrlf
      cases hcrlf
    · rw [h] at hfeed
      cases hfeed

end

/-- A comment, a continued line and a string of several lines. -/
def severalLines : String := "# sum\nx = 1 + \\\n  2\ny = '''a\nb'''\n"

theorem grades_alike_crlf_severalLines :
    '\r' ∉ severalLines.toList ∧ TakesCrlf severalLines ∧
      (Grammar.parse severalLines).isOk = true ∧
        (Grammar.parse (crlfText severalLines)).isOk = true := by
  have hreturn : '\r' ∉ severalLines.toList := by decide
  have hparse : (Grammar.parse severalLines).isOk = true := by decide +kernel
  have htakes : TakesCrlf severalLines := fun _ => by decide +kernel
  exact ⟨hreturn, htakes, hparse, (grades_alike_crlf hreturn htakes).1.trans hparse⟩

end Marksheet.Grading
