import Mathlib
import Marksheet.Proofs.Text.LowerCase
import Marksheet.Rubric.Dynamic

/-!
# Questions and answers in the output of a run

Counting from the left finds as many occurrences of a marker as can stand apart
from each other (`isGreatest_occurrences`), so more text around an output never
takes a question away. Answers are sought in lower case, which a capital sigma
takes by what stands around it: an answer with one may stand in an output as it
is and still not show there (`echoes_exact`).
-/

namespace Marksheet

namespace Text

section Occurrences

variable {α : Type} {needle hay : List α}

/-- Places in a text where another one stands, no two of which share an element. -/
structure Apart (needle hay : List α) (places : Finset ℕ) : Prop where
  stands : ∀ place ∈ places, needle <+: hay.drop place
  disjoint : (places : Set ℕ).PairwiseDisjoint fun place =>
    Finset.Ico place (place + needle.length)

/-- Of two places that are apart, the later one is behind the whole occurrence at the earlier
one. -/
theorem Apart.behind {places : Finset ℕ} (h : Apart needle hay places) (hneedle : needle ≠ [])
    {first second : ℕ} (hfirst : first ∈ places) (hsecond : second ∈ places)
    (hlt : first < second) : first + needle.length ≤ second := by
  by_contra hshort
  have hlength := List.length_pos_of_ne_nil hneedle
  have hdisjoint := h.disjoint hfirst hsecond hlt.ne
  -- the second place itself would lie in both occurrences
  refine Finset.disjoint_left.mp hdisjoint (Finset.mem_Ico.mpr ⟨hlt.le, ?_⟩)
    (Finset.mem_Ico.mpr ⟨le_rfl, ?_⟩) <;> omega

theorem Apart.mono {places fewer : Finset ℕ} (h : Apart needle hay places)
    (hsub : fewer ⊆ places) : Apart needle hay fewer :=
  ⟨fun place hm => h.stands place (hsub hm), h.disjoint.subset (Finset.coe_subset.mpr hsub)⟩

theorem apart_empty : Apart needle hay ∅ := ⟨by simp, by simp⟩

/-- One more place in front of all others. -/
theorem Apart.insert {places : Finset ℕ} (h : Apart needle hay places) {place : ℕ}
    (hstands : needle <+: hay.drop place)
    (hfront : ∀ other ∈ places, place + needle.length ≤ other) :
    Apart needle hay (insert place places) := by
  refine ⟨fun other hm => ?_, ?_⟩
  · rcases Finset.mem_insert.mp hm with rfl | hm
    · exact hstands
    · exact h.stands other hm
  · rw [Finset.coe_insert]
    refine h.disjoint.insert fun other hm _ => ?_
    have hle := hfront other hm
    rw [Finset.disjoint_left]
    intro element hhere hthere
    have := Finset.mem_Ico.mp hhere
    have := Finset.mem_Ico.mp hthere
    omega

/-- Places stay apart in a longer text, behind what is put before it. -/
theorem Apart.shift {places : Finset ℕ} (h : Apart needle hay places) (before after : List α) :
    Apart needle (before ++ hay ++ after) (places.map (addLeftEmbedding before.length)) := by
  refine ⟨fun place hm => ?_, ?_⟩
  · obtain ⟨own, hown, rfl⟩ := Finset.mem_map.mp hm
    have hstands := h.stands own hown
    rw [List.append_assoc, addLeftEmbedding_apply, ← List.drop_drop, List.drop_left]
    exact hstands.trans ((List.prefix_append _ _).trans (by rw [List.drop_append]))
  · intro first hfirst second hsecond hne
    obtain ⟨own, hown, rfl⟩ := Finset.mem_map.mp (Finset.mem_coe.mp hfirst)
    obtain ⟨other, hother, rfl⟩ := Finset.mem_map.mp (Finset.mem_coe.mp hsecond)
    have hdisjoint := h.disjoint hown hother fun heq => hne (congrArg _ heq)
    refine Finset.disjoint_left.mpr fun element hhere hthere => ?_
    simp only [addLeftEmbedding_apply, Finset.mem_Ico] at hhere hthere
    have hown' : element - before.length ∈ Finset.Ico own (own + needle.length) :=
      Finset.mem_Ico.mpr (by omega)
    exact Finset.disjoint_left.mp hdisjoint hown' (Finset.mem_Ico.mpr (by omega))

/-! ### The count from the left -/

variable [BEq α]

theorem countFrom_drop (skip : ℕ) (hay : List α) :
    countFrom needle skip hay = countFrom needle 0 (hay.drop skip) := by
  induction skip generalizing hay with
  | zero => rfl
  | succ skip ih =>
    cases hay with
    | nil => rfl
    | cons c rest => simpa [countFrom] using ih rest

variable [LawfulBEq α]

/-- Where the marker stands, one occurrence is counted and the count goes on behind it. -/
theorem countFrom_of_stands (hneedle : needle ≠ []) {place : ℕ}
    (h : needle <+: hay.drop place) :
    countFrom needle 0 (hay.drop place) =
      countFrom needle 0 (hay.drop (place + needle.length)) + 1 := by
  have hlength := List.length_pos_of_ne_nil hneedle
  cases hrest : hay.drop place with
  | nil =>
    rw [hrest] at h
    exact absurd (List.prefix_nil.mp h) hneedle
  | cons c rest =>
    rw [hrest] at h
    have hdrop : hay.drop (place + needle.length) = rest.drop (needle.length - 1) := by
      obtain ⟨count, hcount⟩ := Nat.exists_eq_add_of_lt hlength
      rw [← List.drop_drop, hrest]
      simp [hcount]
    rw [countFrom, if_pos (List.isPrefixOf_iff_prefix.mpr h), countFrom_drop, hdrop]

/-- Where it does not stand, the count goes on one element further. -/
theorem countFrom_of_not_stands {place : ℕ} (h : ¬ needle <+: hay.drop place) :
    countFrom needle 0 (hay.drop place) = countFrom needle 0 (hay.drop (place + 1)) := by
  rw [← List.drop_drop]
  cases hrest : hay.drop place with
  | nil => rfl
  | cons c rest =>
    rw [hrest] at h
    rw [countFrom, if_neg (mt List.isPrefixOf_iff_prefix.mp h)]
    rfl

/-- The places that the count from the left finds from a place on. -/
theorem exists_apart (hneedle : needle ≠ []) (hay : List α) (start : ℕ) :
    ∃ places : Finset ℕ, Apart needle hay places ∧ (∀ place ∈ places, start ≤ place) ∧
      places.card = countFrom needle 0 (hay.drop start) := by
  have hlength := List.length_pos_of_ne_nil hneedle
  induction hleft : hay.length - start using Nat.strong_induction_on generalizing start with
  | h left ih =>
    by_cases hend : hay.length ≤ start
    · refine ⟨∅, apart_empty, by simp, ?_⟩
      rw [List.drop_eq_nil_of_le hend]
      rfl
    · by_cases hstands : needle <+: hay.drop start
      · obtain ⟨places, hapart, hbehind, hcard⟩ :=
          ih (hay.length - (start + needle.length)) (by omega) (start + needle.length) rfl
        have hnew : start ∉ places := fun hm => by have := hbehind start hm; omega
        refine ⟨insert start places, hapart.insert hstands hbehind, fun place hm => ?_, ?_⟩
        · rcases Finset.mem_insert.mp hm with rfl | hm
          · exact le_rfl
          · have := hbehind place hm
            omega
        · rw [Finset.card_insert_of_notMem hnew, hcard, countFrom_of_stands hneedle hstands]
      · obtain ⟨places, hapart, hbehind, hcard⟩ :=
          ih (hay.length - (start + 1)) (by omega) (start + 1) rfl
        refine ⟨places, hapart, fun place hm => ?_, ?_⟩
        · have := hbehind place hm
          omega
        · rw [hcard, countFrom_of_not_stands hstands]

/-- No choice of places has more from a place on: whatever it begins with, it can begin with the
first occurrence instead, and at most one of its places is lost by that. -/
theorem card_le_countFrom (hneedle : needle ≠ []) {places : Finset ℕ} {start : ℕ}
    (h : Apart needle hay places) (hfrom : ∀ place ∈ places, start ≤ place) :
    places.card ≤ countFrom needle 0 (hay.drop start) := by
  have hlength := List.length_pos_of_ne_nil hneedle
  induction hleft : hay.length - start using Nat.strong_induction_on generalizing start places with
  | h left ih =>
    by_cases hend : hay.length ≤ start
    · have hnone : places = ∅ := by
        refine Finset.eq_empty_of_forall_notMem fun place hm => hneedle ?_
        have hstands := h.stands place hm
        rw [List.drop_eq_nil_of_le (hend.trans (hfrom place hm))] at hstands
        exact List.prefix_nil.mp hstands
      simp [hnone]
    · by_cases hstands : needle <+: hay.drop start
      · have hlater : (places.filter (start + needle.length ≤ ·)).card ≤
            countFrom needle 0 (hay.drop (start + needle.length)) :=
          ih (hay.length - (start + needle.length)) (by omega) (h.mono (Finset.filter_subset _ _))
            (fun place hm => (Finset.mem_filter.mp hm).2) rfl
        have hearly : (places.filter (¬ start + needle.length ≤ ·)).card ≤ 1 := by
          refine Finset.card_le_one.mpr fun first hfirst second hsecond => ?_
          obtain ⟨hfirst, hearly⟩ := Finset.mem_filter.mp hfirst
          obtain ⟨hsecond, hearly'⟩ := Finset.mem_filter.mp hsecond
          have := hfrom first hfirst
          have := hfrom second hsecond
          rcases lt_trichotomy first second with hlt | heq | hlt
          · have := h.behind hneedle hfirst hsecond hlt
            omega
          · exact heq
          · have := h.behind hneedle hsecond hfirst hlt
            omega
        have hsplit := Finset.card_filter_add_card_filter_not (s := places)
          (start + needle.length ≤ ·)
        rw [countFrom_of_stands hneedle hstands]
        omega
      · rw [countFrom_of_not_stands hstands]
        refine ih (hay.length - (start + 1)) (by omega) h (fun place hm => ?_) rfl
        have hne : place ≠ start := by
          rintro rfl
          exact hstands (h.stands _ hm)
        have := hfrom place hm
        omega

/-- Counting from the left finds the greatest number of occurrences that are apart. -/
theorem isGreatest_occurrences (hneedle : needle ≠ []) (hay : List α) :
    IsGreatest {count | ∃ places : Finset ℕ, Apart needle hay places ∧ places.card = count}
      (occurrences needle hay) := by
  have hcount : occurrences needle hay = countFrom needle 0 (hay.drop 0) := by
    simp [occurrences, hneedle]
  rw [hcount]
  constructor
  · obtain ⟨places, hapart, -, hcard⟩ := exists_apart hneedle hay 0
    exact ⟨places, hapart, hcard⟩
  · rintro count ⟨places, hapart, rfl⟩
    exact card_le_countFrom hneedle hapart fun _ _ => Nat.zero_le _

/-- Text before or behind never takes an occurrence away. -/
theorem occurrences_le (hneedle : needle ≠ []) (before hay after : List α) :
    occurrences needle hay ≤ occurrences needle (before ++ hay ++ after) := by
  obtain ⟨places, hapart, hcard⟩ := (isGreatest_occurrences hneedle hay).1
  rw [← hcard, ← Finset.card_map (addLeftEmbedding before.length)]
  exact (isGreatest_occurrences hneedle _).2 ⟨_, hapart.shift before after, rfl⟩

end Occurrences

end Text

namespace Rubric

open Text

/-- Some answer that is not empty shows in the output. -/
theorem echoes_iff {settings : Settings} {outcome : Run.Outcome} :
    echoes settings outcome = true ↔ ∃ answer ∈ settings.scriptedInputs, answer ≠ "" ∧
      occursIn (lowerCase answer.toList) (lowerCase outcome.output.toList) = true := by
  simp [echoes]

/-- A marker is counted as often as it can stand in the output without overlap, and no more, so
text before or behind an output never lowers the count. A run that did not fail asks enough
questions exactly if so many markers stand apart in its output or so many requests were made. -/
theorem questions_exact (marker : String) (hmarker : marker ≠ "") :
    (∀ output : String, IsGreatest
      {count | ∃ places : Finset ℕ, Apart marker.toList output.toList places ∧ places.card = count}
      (occurrences marker.toList output.toList)) ∧
    (∀ before output after : String, occurrences marker.toList output.toList ≤
      occurrences marker.toList (before ++ output ++ after).toList) ∧
    (∀ (settings : Settings) (fileName output : String) (requests : ℕ),
      settings.promptMarker = marker →
      ∃ executes asks echo, runtimeChecks settings fileName (some ⟨output, none, requests⟩) =
          [executes, asks, echo] ∧
        asks.name = "Asks at least " ++ toString settings.minQuestions ++ " questions" ∧
        (asks.passed = true ↔
          (∃ places : Finset ℕ, Apart marker.toList output.toList places ∧
            settings.minQuestions ≤ places.card) ∨ settings.minQuestions ≤ requests)) := by
  have hneedle : marker.toList ≠ [] := fun h => hmarker (String.toList_inj.mp h)
  refine ⟨fun output => isGreatest_occurrences hneedle _, fun before output after => ?_,
    fun settings fileName output requests hsettings => ⟨_, _, _, rfl, rfl, ?_⟩⟩
  · rw [String.toList_append, String.toList_append]
    exact occurrences_le hneedle _ _ _
  · obtain ⟨⟨places, hapart, hcard⟩, hgreatest⟩ :=
      isGreatest_occurrences hneedle output.toList
    simp only [questions, hsettings, decide_eq_true_eq, le_max_iff]
    refine or_congr_left ⟨fun h => ⟨places, hapart, hcard ▸ h⟩, ?_⟩
    rintro ⟨others, hothers, h⟩
    exact h.trans (hgreatest ⟨others, hothers, rfl⟩)

/-- Five marks hold a doubled one twice and not three times, and so many questions are too few. -/
theorem questions_exact_doubledMark :
    IsGreatest {count | ∃ places : Finset ℕ,
      Apart "??".toList "why?????".toList places ∧ places.card = count} 2 ∧
    ∃ executes asks echo, runtimeChecks
        { Settings.standard with promptMarker := "??", minQuestions := 3 } "chatbot.py"
        (some ⟨"why?????", none, 1⟩) = [executes, asks, echo] ∧
      asks.name = "Asks at least 3 questions" ∧ asks.passed = false := by
  obtain ⟨hgreatest, -, hchecks⟩ := questions_exact "??" (by decide)
  have htwo : occurrences "??".toList "why?????".toList = 2 := by decide
  have hgreatest := htwo ▸ hgreatest "why?????"
  obtain ⟨executes, asks, echo, hall, hname, hpassed⟩ := hchecks
    { Settings.standard with promptMarker := "??", minQuestions := 3 } "chatbot.py" "why?????" 1 rfl
  refine ⟨hgreatest, executes, asks, echo, hall, hname, Bool.eq_false_iff.mpr fun h => ?_⟩
  rcases hpassed.mp h with ⟨places, hapart, hcard⟩ | hrequests
  · exact absurd (hcard.trans (hgreatest.2 ⟨places, hapart, rfl⟩)) (by decide)
  · exact absurd hrequests (by decide)

/-- An answer that stands in the output as it is shows there if each capital sigma in it ends a word
in the output exactly if it does so in the answer by itself; at this place the two forms are the
same only then. So it is for an answer without a capital sigma, and for one that touches no letter. In
ASCII, an answer shows exactly if it stands in the output in either case. -/
theorem echoes_exact (settings : Settings) (fileName output : String) (requests : ℕ) :
    ∃ executes asks echo, runtimeChecks settings fileName (some ⟨output, none, requests⟩) =
        [executes, asks, echo] ∧
      echo.name = "Uses the user's input in a response" ∧
      (∀ answer ∈ settings.scriptedInputs, answer ≠ "" → ∀ before after : List Char,
        output.toList = before ++ answer.toList ++ after →
          (SigmasKeep before answer.toList after → echo.passed = true) ∧
          (lowerBetween before.reverse answer.toList after = lowerCase answer.toList ↔
            SigmasKeep before answer.toList after) ∧
          (capitalSigma ∉ answer.toList ∨
              meetsCased before.reverse = false ∧ meetsCased after = false →
            SigmasKeep before answer.toList after)) ∧
      (IsAscii output.toList → (∀ answer ∈ settings.scriptedInputs, IsAscii answer.toList) →
        (echo.passed = true ↔ ∃ answer ∈ settings.scriptedInputs, answer ≠ "" ∧
          ∃ before part after, output.toList = before ++ part ++ after ∧
            part.map Char.toLower = answer.toList.map Char.toLower)) := by
  refine ⟨_, _, _, rfl, rfl, ?_, fun houtput hanswers => ?_⟩
  · intro answer hm hne before after houtput
    refine ⟨fun hkeep => ?_, lowerBetween_eq_lowerCase_iff, ?_⟩
    · refine echoes_iff.mpr ⟨answer, hm, hne, ?_⟩
      rw [houtput]
      exact occursIn_lowerCase_of_sigmasKeep hkeep
    · rintro (hnone | ⟨hbefore, hafter⟩)
      · exact sigmasKeep_of_not_mem hnone before after
      · exact sigmasKeep_of_untouched _ hbefore hafter
  · rw [echoes_iff]
    refine exists_congr fun answer => and_congr_right fun hm => and_congr_right fun _ => ?_
    exact occursIn_lowerCase_iff (hanswers answer hm) houtput

/-- An answer in capitals that ends in a sigma shows in the output as a word of its own. -/
theorem echoes_exact_ownWord :
    ∃ executes asks echo, runtimeChecks
        { Settings.standard with scriptedInputs := ["ΟΔΟΣ"] } "chatbot.py"
        (some ⟨"ΑΠΟ ΟΔΟΣ!", none, 4⟩) = [executes, asks, echo] ∧
      echo.name = "Uses the user's input in a response" ∧ echo.passed = true := by
  obtain ⟨executes, asks, echo, hall, hname, hverbatim, -⟩ := echoes_exact
    { Settings.standard with scriptedInputs := ["ΟΔΟΣ"] } "chatbot.py" "ΑΠΟ ΟΔΟΣ!" 4
  obtain ⟨hpasses, -, hkeep⟩ := hverbatim "ΟΔΟΣ" (by decide) (by decide) "ΑΠΟ ".toList "!".toList
    (by decide)
  exact ⟨executes, asks, echo, hall, hname,
    hpasses (hkeep (.inr ⟨by decide +kernel, by decide +kernel⟩))⟩

/-- An answer in capitals that ends in a sigma does not show in a longer word that begins with it:
by itself its lower case has the final form of the letter, and in the word it does not. -/
theorem not_echoes_insideWord :
    "ΟΔΟΣΑ" = "" ++ "ΟΔΟΣ" ++ "Α" ∧
      (runtimeChecks { Settings.standard with scriptedInputs := ["ΟΔΟΣ"] } "chatbot.py"
        (some ⟨"ΟΔΟΣΑ", none, 4⟩)).map (fun check => (check.name, check.passed)) =
        [("Program executes without crashing", true), ("Asks at least 3 questions", true),
          ("Uses the user's input in a response", false)] := by
  refine ⟨by decide, ?_⟩
  decide +kernel

end Rubric

end Marksheet
