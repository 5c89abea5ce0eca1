import Marksheet.Grading.Grader
import Marksheet.Proofs.Rubric.Results

/-!
# Items do not depend on each other

An item sees of a submission what its category looks at, and two submissions
that agree there have the same checks from it (`checks_eq_of_agree`). A grader
with fewer items shows each of them the same as a grader with all items does:
the text and its reading do not depend on the items, and the run takes place
for both if one of them looks at it. So what it reports is a part of the full
report. Without dynamic items nothing is run, and what programs do or which
files there are does not matter.
-/

namespace Marksheet

namespace Rubric

/-- Two submissions agree in what the items of a category look at. -/
def Category.Agree : Category → Submission → Submission → Prop
  | .static, a, b => a.source? = b.source?
  | .structural, a, b => a.reading? = b.reading?
  | .dynamic, a, b => a.outcome? = b.outcome?

/-- An item sees no more of a submission than its category looks at. -/
theorem checks_eq_of_agree (settings : Settings) (fileName : String) {a b : Submission} {item : Item}
    {category : Category} (hc : item.category = category) (h : category.Agree a b) :
    item.checks settings fileName a = item.checks settings fileName b := by
  subst hc
  cases item with
  | «exists» | header | lineLength | comments =>
    have hsource : a.source? = b.source? := h
    simp only [Item.checks, hsource]
  | runtime =>
    have houtcome : a.outcome? = b.outcome? := h
    simp only [Item.checks, houtcome]
  | _ =>
    have hreading : a.reading? = b.reading? := h
    simp only [Item.checks, hreading]

/-- The checks on structure do not ask for settings. -/
theorem structural_checks_eq (settings settings' : Settings) (fileName : String)
    (submission : Submission) {item : Item} (h : item.category = .structural) :
    item.checks settings fileName submission = item.checks settings' fileName submission := by
  cases item with
  | «exists» | header | lineLength | comments | runtime => cases h
  | _ => rfl

/-- Items that see the same yield the same. -/
theorem evaluate_congr (settings : Settings) (fileName : String) {a b : Submission}
    {items : List Item} (h : ∀ item ∈ items, item.category.Agree a b) :
    evaluate items settings fileName a = evaluate items settings fileName b :=
  List.flatMap_congr fun item hm => checks_eq_of_agree settings fileName rfl (h item hm)

/-- An item that looks at runs makes the run take place. -/
theorem needsRun_of_mem {items : List Item} {item : Item} (hm : item ∈ items)
    (hd : item.category = .dynamic) : needsRun items = true :=
  List.any_eq_true.mpr ⟨item, hm, decide_eq_true hd⟩

/-- A sublist of a list without repetitions is what the list has of it, in order. -/
theorem filter_mem_of_sublist {items whole : List Item} (h : items.Sublist whole)
    (hnodup : whole.Nodup) : whole.filter (· ∈ items) = items := by
  induction h with
  | slnil => rfl
  | @cons items whole item hs ih =>
    obtain ⟨hnew, hrest⟩ := List.nodup_cons.mp hnodup
    have hout : item ∉ items := fun hm => hnew (hs.subset hm)
    rw [List.filter_cons_of_neg (by simpa using hout), ih hrest]
  | @cons_cons items whole item hs ih =>
    obtain ⟨hnew, hrest⟩ := List.nodup_cons.mp hnodup
    have hsame : whole.filter (· ∈ item :: items) = whole.filter (· ∈ items) := by
      refine List.filter_congr fun other hm => ?_
      have hne : other ≠ item := fun he => hnew (he ▸ hm)
      simp [hne]
    rw [List.filter_cons_of_pos (by simp), hsame, ih hrest]

variable (settings : Settings) (fileName source : String) (reading : Reading)

/-- Some of the items yield what the full report has of them, also if another outcome stands in for
a run that none of them looks at. -/
theorem evaluate_filter (kept : Item → Bool) {ran shown : Run.Outcome}
    (h : ∀ item ∈ standard.filter kept, item.category = .dynamic → shown = ran) :
    evaluate (standard.filter kept) settings fileName (.present source reading shown) =
      select kept standard (evaluate standard settings fileName (.present source reading ran)) := by
  rw [select_evaluate]
  refine evaluate_congr settings fileName fun item hm => ?_
  cases hc : item.category with
  | static => rfl
  | structural => rfl
  | dynamic => exact congrArg some (h item hm hc)

/-- A sublist of the items needs the run only if it looks at it. -/
theorem evaluate_sublist {items : List Item} (h : items.Sublist standard) (ran : Run.Outcome) :
    evaluate items settings fileName
        (.present source reading (if needsRun items then ran else .idle)) =
      select (· ∈ items) standard
        (evaluate standard settings fileName (.present source reading ran)) := by
  have hitems : standard.filter (· ∈ items) = items := filter_mem_of_sublist h (by decide)
  -- an item that looks at the run makes it take place, and no other item sees what stands in
  have hrun : ∀ item ∈ standard.filter (· ∈ items), item.category = .dynamic →
      (if needsRun items then ran else .idle) = ran := by
    intro item hm hd
    rw [hitems] at hm
    exact if_pos (needsRun_of_mem hm hd)
  have hfilter := evaluate_filter settings fileName source reading (· ∈ items) hrun
  rwa [hitems] at hfilter

end Rubric

namespace Grading

open Rubric

variable (settings : Settings) (behaviour : Run.Behaviour) (files : Files.Tree)

/-- A grader with a sublist of the items reports what the full report has of them. -/
theorem gradeSource_sublist {items : List Item} (h : items.Sublist standard) (fileName : String)
    (source : Option String) :
    Grader.gradeSource ⟨settings, items, behaviour, files⟩ fileName source =
      ⟨fileName, select (· ∈ items) standard
        (Grader.gradeSource ⟨settings, standard, behaviour, files⟩ fileName source).checks⟩ := by
  cases source with
  | none =>
    have hmissing := select_evaluate settings fileName .missing (· ∈ items) standard
    rw [filter_mem_of_sublist h (by decide)] at hmissing
    exact congrArg (Report.mk fileName) hmissing.symm
  | some source =>
    have hpart := evaluate_sublist settings fileName source (reading source) h
      (Run.conduct behaviour files (.ofSettings settings) source fileName settings.script)
    exact congrArg (Report.mk fileName) hpart

/-- Without dynamic items nothing is run: the report has the rest of the full one, whatever programs
do and whichever files there are. -/
theorem gradeSource_static (behaviour' : Run.Behaviour) (files' : Files.Tree) (fileName : String)
    (source : Option String) :
    Grader.gradeSource ⟨settings, standard.filter (·.category ≠ .dynamic), behaviour', files'⟩
        fileName source =
      ⟨fileName, select (·.category ≠ .dynamic) standard
        (Grader.gradeSource ⟨settings, standard, behaviour, files⟩ fileName source).checks⟩ := by
  cases source with
  | none =>
    have hmissing := select_evaluate settings fileName .missing (·.category ≠ .dynamic) standard
    exact congrArg (Report.mk fileName) hmissing.symm
  | some source =>
    have hnone : ∀ item ∈ standard.filter (·.category ≠ .dynamic), item.category = .dynamic →
        Run.Outcome.idle =
          Run.conduct behaviour files (.ofSettings settings) source fileName settings.script := by
      intro item hm hd
      have hother : item.category ≠ .dynamic := by simpa using (List.mem_filter.mp hm).2
      exact absurd hd hother
    have hpart := evaluate_filter settings fileName source (reading source)
      (·.category ≠ .dynamic) hnone
    exact congrArg (Report.mk fileName) hpart

/-- Items see of a present submission what their category looks at and nothing else. So a grader
with a sublist of the items reports exactly what the full report has of them, and leaving out what
looks at runs changes nothing for the rest. -/
theorem items_independent (settings : Settings) (behaviour : Run.Behaviour) (files : Files.Tree)
    (fileName : String) :
    (∀ (item : Item) source reading reading' outcome outcome', item.category = .static →
      item.checks settings fileName (.present source reading outcome) =
        item.checks settings fileName (.present source reading' outcome')) ∧
    (∀ (item : Item) settings' source source' reading outcome outcome',
      item.category = .structural →
      item.checks settings fileName (.present source reading outcome) =
        item.checks settings' fileName (.present source' reading outcome')) ∧
    (∀ (item : Item) source source' reading reading' outcome, item.category = .dynamic →
      item.checks settings fileName (.present source reading outcome) =
        item.checks settings fileName (.present source' reading' outcome)) ∧
    (∀ items : List Item, items.Sublist standard →
      (∀ source reading ran,
        evaluate items settings fileName
            (.present source reading (if needsRun items then ran else .idle)) =
          select (· ∈ items) standard
            (evaluate standard settings fileName (.present source reading ran))) ∧
      ∀ source, Grader.gradeSource ⟨settings, items, behaviour, files⟩ fileName source =
        ⟨fileName, select (· ∈ items) standard
          (Grader.gradeSource ⟨settings, standard, behaviour, files⟩ fileName source).checks⟩) ∧
    (∀ behaviour' files' source,
      Grader.gradeSource ⟨settings, standard.filter (·.category ≠ .dynamic), behaviour', files'⟩
          fileName source =
        ⟨fileName, select (·.category ≠ .dynamic) standard
          (Grader.gradeSource ⟨settings, standard, behaviour, files⟩ fileName source).checks⟩) := by
  refine ⟨?_, ?_, ?_, fun items h => ⟨fun source reading ran => ?_, ?_⟩, ?_⟩
  · intro item source reading reading' outcome outcome' hc
    exact checks_eq_of_agree settings fileName hc rfl
  · intro item settings' source source' reading outcome outcome' hc
    rw [structural_checks_eq settings settings' fileName _ hc]
    exact checks_eq_of_agree settings' fileName hc rfl
  · intro item source source' reading reading' outcome hc
    exact checks_eq_of_agree settings fileName hc rfl
  · exact evaluate_sublist settings fileName source reading h ran
  · exact gradeSource_sublist settings behaviour files h fileName
  · exact fun behaviour' files' => gradeSource_static settings behaviour files behaviour' files' fileName

/-- One item of each category: a header is judged by the text, a loop by its reading, a crash by the
run. The first and the last of them, graded alone, report what the full report has of them. -/
theorem items_independent_header_loops_runtime :
    let behaviour : Run.Behaviour := fun start =>
      .ok ⟨⟨["Hi?".toUTF8], some 0⟩, ⟨[], some 0⟩, some (.exited 0), 0, start.files⟩
    let files : Files.Tree := ⟨[(["bin", "python3"], .file .empty true)], ["home"]⟩
    let full : Grader := ⟨.standard, standard, behaviour, files⟩
    let crash : Run.Outcome := ⟨"Hi?", some "ValueError", 1⟩
    Item.header.category = .static ∧ Item.loops.category = .structural ∧
    Item.runtime.category = .dynamic ∧ [Item.header, .runtime].Sublist standard ∧
    Item.header.checks .standard "bot.py" (.present "# Name: A" (.ok default) .idle) =
      Item.header.checks .standard "bot.py" (.present "# Name: A" (.error default) crash) ∧
    Item.loops.checks .standard "bot.py" (.present "# Name: A" (.ok default) .idle) =
      Item.loops.checks { Settings.standard with lineLimit := 5 } "bot.py"
        (.present "x = 1" (.ok default) crash) ∧
    Item.runtime.checks .standard "bot.py" (.present "x = 1" (.ok default) crash) =
      Item.runtime.checks .standard "bot.py" (.present "# Name: A" (.error default) crash) ∧
    Grader.gradeSource ⟨.standard, [.header, .runtime], behaviour, files⟩ "bot.py" (some "x = 1") =
      ⟨"bot.py", select (· ∈ [Item.header, .runtime]) standard
        (full.gradeSource "bot.py" (some "x = 1")).checks⟩ := by
  intro behaviour files full crash
  have hsublist : [Item.header, .runtime].Sublist standard := by decide
  obtain ⟨hstatic, hstructural, hdynamic, hpart, -⟩ :=
    items_independent .standard behaviour files "bot.py"
  exact ⟨rfl, rfl, rfl, hsublist, hstatic .header _ _ _ _ _ rfl, hstructural .loops _ _ _ _ _ _ rfl,
    hdynamic .runtime _ _ _ _ _ rfl, (hpart _ hsublist).2 _⟩

end Grading

end Marksheet
