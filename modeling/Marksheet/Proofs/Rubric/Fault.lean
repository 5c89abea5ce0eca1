import Mathlib
import Marksheet.Proofs.Text.Lines
import Marksheet.Report.Pretty
import Marksheet.Rubric.Dynamic

/-!
# The fault of a run in its report

The message about a run that failed quotes the fault line by line behind two
blanks, and leaves lines without anything else than blanks as they are. The
fault can be read back from the message, and nothing in it begins a line of the
report (`crash_exact`).
-/

namespace Marksheet.Rubric

open Text

/-- What a line of a fault is shown as: a blank one as it is, any other behind two blanks. -/
inductive Margined : List Char → List Char → Prop
  | blank {line : List Char} (h : ∀ c ∈ line, isBlank c = true) : Margined line line
  | filled {line : List Char} {c : Char} (hc : c ∈ line) (h : isBlank c = false) :
      Margined line (' ' :: ' ' :: line)

/-- A line without the two characters before it; a blank one as it is. -/
def withoutMargin (line : List Char) : List Char := if allBlank line then line else line.drop 2

/-- A line behind two blanks; a blank one as it is. -/
def withMargin (line : List Char) : List Char := if allBlank line then line else ' ' :: ' ' :: line

section

variable {line text : List Char} {rows : List (List Char)}

theorem margined_withMargin (line : List Char) : Margined line (withMargin line) := by
  unfold withMargin
  split
  next h => exact .blank (List.all_eq_true.1 h)
  next h =>
    obtain ⟨c, hc, hfilled⟩ := List.all_eq_false.1 (Bool.eq_false_iff.2 h)
    exact .filled hc (Bool.eq_false_iff.2 hfilled)

/-- Two blanks do not make a line blank, so they can be taken away again. -/
theorem withoutMargin_withMargin (line : List Char) : withoutMargin (withMargin line) = line := by
  unfold withMargin
  split
  next h => exact if_pos h
  next h =>
    have hfilled : ¬ allBlank (' ' :: ' ' :: line) = true := h
    exact if_neg hfilled

theorem head_withMargin (hne : line ≠ []) : ∃ c ∈ (withMargin line).head?, isBlank c = true := by
  unfold withMargin
  split
  next h =>
    obtain ⟨c, rest, rfl⟩ := List.exists_cons_of_ne_nil hne
    exact ⟨c, rfl, List.all_eq_true.1 h c List.mem_cons_self⟩
  next => exact ⟨' ', rfl, rfl⟩

theorem getLast?_withMargin (line : List Char) :
    (withMargin line).getLast? = line.getLast? := by
  unfold withMargin
  split
  next => rfl
  next h =>
    have hne : line ≠ [] := by
      rintro rfl
      exact h rfl
    rw [List.getLast?_cons_of_ne_nil (List.cons_ne_nil _ _), List.getLast?_cons_of_ne_nil hne]

theorem withMargin_ne_nil (hne : line ≠ []) : withMargin line ≠ [] := by
  obtain ⟨c, hc, -⟩ := head_withMargin hne
  exact List.ne_nil_of_mem (List.mem_of_mem_head? hc)

theorem feed_notMem_withMargin (hfeed : '\n' ∉ line) : '\n' ∉ withMargin line := by
  unfold withMargin
  split
  next => exact hfeed
  next => simpa using hfeed

/-- A line feed is blank, so it decides nothing about its line. -/
theorem withMargin_feed (line : List Char) :
    withMargin (line ++ ['\n']) = withMargin line ++ ['\n'] := by
  have hblank : allBlank (line ++ ['\n']) = allBlank line := by
    rw [allBlank, List.all_append, show ['\n'].all isBlank = true from rfl, Bool.and_true, allBlank]
  unfold withMargin
  rw [hblank]
  split <;> rfl

/-- The lines with their margins are the lines of the text that they join to. -/
theorem rows_withMargin (h : Rows text rows) :
    Rows (rows.flatMap withMargin) (rows.map withMargin) := by
  induction h with
  | empty => exact .empty
  | last hne hfeed =>
    rw [List.flatMap_singleton, List.map_singleton]
    exact .last (withMargin_ne_nil hne) (feed_notMem_withMargin hfeed)
  | feed hfeed _ ih =>
    rw [List.flatMap_cons, List.map_cons, withMargin_feed, List.append_assoc]
    exact .feed (feed_notMem_withMargin hfeed) ih

/-- The margins leave the end of a text as it is. -/
theorem getLast?_flatMap_withMargin (rows : List (List Char)) :
    (rows.flatMap withMargin).getLast? = rows.flatten.getLast? := by
  induction rows with
  | nil => rfl
  | cons line rows ih =>
    rw [List.flatMap_cons, List.flatten_cons, List.getLast?_append, List.getLast?_append, ih,
      getLast?_withMargin]

end

/-- A line of a report on a check begins with what is no blank. -/
theorem head_checkLine (styled : Bool) (check : Check) :
    ∃ c ∈ (Report.checkLine styled check).toList.head?, isBlank c = false := by
  have hpaint (style : Report.Style) {mark : String} {first : Char} (rest : String)
      (hmark : mark.toList = [first]) (hfirst : isBlank first = false) :
      ∃ c ∈ (style.paint styled mark ++ rest).toList.head?, isBlank c = false := by
    rw [String.toList_append]
    cases styled with
    | false => exact ⟨first, by simp [Report.Style.paint, hmark], hfirst⟩
    | true => exact ⟨Char.ofNat 0x1B, by simp [Report.Style.paint, Report.Style.select], rfl⟩
  unfold Report.checkLine
  split
  next =>
    rw [String.append_assoc, String.append_assoc]
    exact hpaint .green _ (by decide) (by decide : isBlank '✅' = false)
  next =>
    rw [String.append_assoc, String.append_assoc, String.append_assoc, String.append_assoc]
    exact hpaint .red _ (by decide) (by decide : isBlank '❌' = false)

/-- The message about a run that failed is a line of its own and then the lines of the fault, each
that is not blank behind two blanks and the others as they are. Without the two blanks they are the
fault again, and they end in a line feed exactly if the fault does. All these lines begin with a
blank, as no line of a report on a check does. -/
theorem crash_exact (settings : Settings) (fileName output fault : String) (requests : ℕ) :
    ∃ (body : String) (own shown : List (List Char)),
      (runtimeChecks settings fileName (some ⟨output, some fault, requests⟩)).head? =
        some (.fail "Program executes without crashing" ("Program crashed.\n" ++ body)) ∧
      Rows fault.toList own ∧
      Rows ("Program crashed.\n" ++ body).toList ("Program crashed.\n".toList :: shown) ∧
      List.Forall₂ Margined own shown ∧
      own.length = shown.length ∧
      shown.flatMap withoutMargin = fault.toList ∧
      (body.toList.getLast? = some '\n' ↔ fault.toList.getLast? = some '\n') ∧
      ∀ line ∈ shown, (∃ c ∈ line.head?, isBlank c = true) ∧
        ∀ styled check, line.head? ≠ (Report.checkLine styled check).toList.head? := by
  have hown := rows_pieces fault.toList
  have hshown : Rows (String.ofList ((pieces fault.toList).flatMap withMargin)).toList
      ((pieces fault.toList).map withMargin) := by
    rw [String.toList_ofList]
    exact rows_withMargin hown
  refine ⟨String.ofList ((pieces fault.toList).flatMap withMargin), pieces fault.toList,
    (pieces fault.toList).map withMargin, rfl, hown, ?_, ?_, (List.length_map _).symm, ?_, ?_, ?_⟩
  · have htitle : "Program crashed.\n".toList = "Program crashed.".toList ++ ['\n'] := by decide
    rw [String.toList_append, htitle, List.append_assoc]
    exact .feed (by decide) hshown
  · rw [List.forall₂_map_right_iff, List.forall₂_same]
    exact fun line _ => margined_withMargin line
  · rw [List.flatMap_map, List.flatMap_congr fun line _ => withoutMargin_withMargin line,
      List.flatMap_id']
    exact hown.flatten_eq
  · rw [String.toList_ofList, getLast?_flatMap_withMargin, hown.flatten_eq]
  · intro line hline
    obtain ⟨own, hmem, rfl⟩ := List.mem_map.1 hline
    obtain ⟨c, hc, hblank⟩ := head_withMargin (hown.ne_nil hmem)
    refine ⟨⟨c, hc, hblank⟩, fun styled check heq => ?_⟩
    obtain ⟨d, hd, hfilled⟩ := head_checkLine styled check
    rw [← heq] at hd
    obtain rfl := Option.some.inj (hc.symm.trans hd)
    cases hblank.symm.trans hfilled

end Marksheet.Rubric
