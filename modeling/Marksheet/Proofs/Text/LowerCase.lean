import Mathlib
import Marksheet.Text.LowerCase
import Marksheet.Text.Search

/-!
# The lower case of a text and of its parts

A capital sigma takes its lower case by what stands around it, every other
character by itself. So a part of a text has the lower case that it has alone
exactly if each capital sigma in it keeps its form
(`lowerBetween_eq_lowerCase_iff`); in ASCII it always has.
-/

namespace Marksheet.Text

/-! ### Lower case in a context -/

/-- The capital sigma, the only letter with a lower case that depends on its context. -/
def capitalSigma : Char := Char.ofNat 0x3A3

/-- A sigma ends a word: a letter is before it and none behind it. Characters that do not count are
passed over; those before are given nearest first. -/
def EndsWord (before behind : List Char) : Prop :=
  meetsCased before = true ∧ meetsCased behind = false

instance (before behind : List Char) : Decidable (EndsWord before behind) :=
  inferInstanceAs (Decidable (_ ∧ _))

/-- The lower-case form of a text between what stands before it, nearest first, and behind it. -/
def lowerBetween : (before cs behind : List Char) → List Char
  | _, [], _ => []
  | before, c :: rest, behind =>
    lowerAt before c (rest ++ behind) ++ lowerBetween (c :: before) rest behind

theorem lowerBehind_eq (collected before cs : List Char) :
    lowerBehind collected before cs = (lowerBetween before cs []).reverse ++ collected := by
  induction cs generalizing collected before with
  | nil => rfl
  | cons c rest ih => simp [lowerBehind, lowerBetween, ih]

theorem lowerCase_eq (cs : List Char) : lowerCase cs = lowerBetween [] cs [] := by
  simp [lowerCase, lowerBehind_eq]

theorem lowerBetween_append (before first second behind : List Char) :
    lowerBetween before (first ++ second) behind =
      lowerBetween before first (second ++ behind) ++
        lowerBetween (first.reverse ++ before) second behind := by
  induction first generalizing before with
  | nil => rfl
  | cons c rest ih => simp [lowerBetween, ih]

/-- Each part of a text is put into lower case between the parts around it. -/
theorem lowerCase_parts (before cs after : List Char) :
    lowerCase (before ++ cs ++ after) =
      lowerBetween [] before (cs ++ after) ++ lowerBetween before.reverse cs after ++
        lowerBetween (before ++ cs).reverse after [] := by
  simp [lowerCase_eq, lowerBetween_append]

/-- Every capital sigma of a text ends a word in the given context exactly if it does so in the
text by itself. -/
def SigmasKeep (before cs after : List Char) : Prop :=
  ∀ front back, cs = front ++ capitalSigma :: back →
    (EndsWord (front.reverse ++ before.reverse) (back ++ after) ↔ EndsWord front.reverse back)

theorem lowerAt_of_ne {c : Char} (h : c ≠ capitalSigma) (before behind : List Char) :
    lowerAt before c behind = lowerAt [] c [] := by
  have hsigma : ¬ c = Char.ofNat 0x3A3 := h
  rw [lowerAt, lowerAt, if_neg hsigma, if_neg hsigma]

theorem lowerAt_sigma_eq_iff {before behind before' behind' : List Char} :
    lowerAt before capitalSigma behind = lowerAt before' capitalSigma behind' ↔
      (EndsWord before behind ↔ EndsWord before' behind') := by
  have hform : ∀ before behind : List Char, lowerAt before capitalSigma behind =
      if EndsWord before behind then [Char.ofNat 0x3C2] else [Char.ofNat 0x3C3] := by
    intro before behind
    rw [lowerAt, capitalSigma, if_pos rfl]
    exact if_congr (by simp [EndsWord]) rfl rfl
  have hne : Char.ofNat 0x3C2 ≠ Char.ofNat 0x3C3 := by decide
  rw [hform, hform]
  split <;> split <;> simp_all [hne.symm]

/-- The lower-case form of one character is as long in any context. -/
theorem length_lowerAt (before behind before' behind' : List Char) (c : Char) :
    (lowerAt before c behind).length = (lowerAt before' c behind').length := by
  by_cases h : c = capitalSigma
  · subst h
    simp only [lowerAt, capitalSigma, if_true]
    split <;> split <;> rfl
  · rw [lowerAt_of_ne h before behind, lowerAt_of_ne h before' behind']

/-- A text has the same lower-case form in two contexts exactly if every capital sigma ends a word
in both or in neither. -/
theorem lowerBetween_eq_iff {before cs behind before' behind' : List Char} :
    lowerBetween before cs behind = lowerBetween before' cs behind' ↔
      ∀ front back, cs = front ++ capitalSigma :: back →
        (EndsWord (front.reverse ++ before) (back ++ behind) ↔
          EndsWord (front.reverse ++ before') (back ++ behind')) := by
  induction cs generalizing before before' with
  | nil => simp [lowerBetween]
  | cons c rest ih =>
    have hlength := length_lowerAt before (rest ++ behind) before' (rest ++ behind') c
    have hsplit : lowerBetween before (c :: rest) behind =
          lowerBetween before' (c :: rest) behind' ↔
        lowerAt before c (rest ++ behind) = lowerAt before' c (rest ++ behind') ∧
          lowerBetween (c :: before) rest behind = lowerBetween (c :: before') rest behind' := by
      rw [lowerBetween, lowerBetween]
      exact ⟨fun h => List.append_inj h hlength, fun h => by rw [h.1, h.2]⟩
    rw [hsplit, ih]
    constructor
    · rintro ⟨hhead, htail⟩ front back heq
      cases front with
      | nil =>
        obtain ⟨rfl, rfl⟩ := List.cons.inj heq
        exact lowerAt_sigma_eq_iff.mp hhead
      | cons d front =>
        obtain ⟨rfl, hrest⟩ := List.cons.inj heq
        simpa using htail front back hrest
    · intro h
      refine ⟨?_, fun front back heq => by simpa using h (c :: front) back (by rw [heq]; rfl)⟩
      by_cases hc : c = capitalSigma
      · subst hc
        exact lowerAt_sigma_eq_iff.mpr (h [] rest rfl)
      · rw [lowerAt_of_ne hc, lowerAt_of_ne hc before']

/-- Between other texts, a text has the lower-case form it has by itself exactly if every capital
sigma in it keeps its form. -/
theorem lowerBetween_eq_lowerCase_iff {before cs after : List Char} :
    lowerBetween before.reverse cs after = lowerCase cs ↔ SigmasKeep before cs after := by
  rw [lowerCase_eq, lowerBetween_eq_iff]
  simp [SigmasKeep]

/-- A text without a capital sigma has one lower-case form. -/
theorem sigmasKeep_of_not_mem {cs : List Char} (h : capitalSigma ∉ cs) (before after : List Char) :
    SigmasKeep before cs after := by
  rintro front back rfl
  simp at h

theorem meetsCased_append {cs behind : List Char} (hnone : meetsCased behind = false) :
    meetsCased (cs ++ behind) = meetsCased cs := by
  unfold meetsCased at *
  induction cs with
  | nil => simpa using hnone
  | cons c rest ih =>
    by_cases hc : isCaseIgnorable c = true
    · simpa [hc] using ih
    · simp [hc]

/-- A text that touches no letter on either side keeps its lower-case form. -/
theorem sigmasKeep_of_untouched {before after : List Char} (cs : List Char)
    (hbefore : meetsCased before.reverse = false) (hafter : meetsCased after = false) :
    SigmasKeep before cs after := by
  intro front back _
  rw [EndsWord, EndsWord, meetsCased_append hbefore, meetsCased_append hafter]

/-! ### ASCII -/

/-- All characters are of ASCII. -/
def IsAscii (cs : List Char) : Prop := ∀ c ∈ cs, c.toNat < 128

/-- The capital letters of ASCII stand thirty-two before their small ones. -/
theorem shifted_eq_toLower (c : Char) :
    (if 'A' ≤ c && c ≤ 'Z' then Char.ofNat (c.toNat + 32) else c) = c.toLower := by
  rw [Char.toLower]
  by_cases hcapital : c.val ≥ 'A'.val ∧ c.val ≤ 'Z'.val
  · have hmodel : (decide ('A' ≤ c) && decide (c ≤ 'Z')) = true := by
      simpa [Char.le_def] using hcapital
    have hsmall : c.toNat ≤ 90 := hcapital.2
    have hvalid : (c.toNat + 32).isValidChar := .inl (by omega)
    rw [dif_pos hcapital, if_pos hmodel, Char.ofNat, dif_pos hvalid]
    refine Char.ext (UInt32.toNat_inj.mp ?_)
    change c.toNat + 32 = (c.val + ('a'.val - 'A'.val)).toNat
    rw [UInt32.toNat_add, Char.toNat_val]
    change c.toNat + 32 = (c.toNat + 32) % 2 ^ 32
    omega
  · have hmodel : ¬ (decide ('A' ≤ c) && decide (c ≤ 'Z')) = true := by
      simpa [Char.le_def] using hcapital
    rw [dif_neg hcapital, if_neg hmodel]

theorem lowerAt_of_ascii {c : Char} (h : c.toNat < 128) (before behind : List Char) :
    lowerAt before c behind = [c.toLower] := by
  have hsigma : c ≠ Char.ofNat 0x3A3 := by
    rintro rfl
    exact absurd h (by decide)
  have hdotted : c ≠ Char.ofNat 0x130 := by
    rintro rfl
    exact absurd h (by decide)
  rw [lowerAt, if_neg hsigma, if_neg hdotted, lowerChar, if_pos h, shifted_eq_toLower]

theorem lowerCase_of_ascii {cs : List Char} (h : IsAscii cs) :
    lowerCase cs = cs.map Char.toLower := by
  rw [lowerCase_eq]
  suffices ∀ before, lowerBetween before cs [] = cs.map Char.toLower from this []
  induction cs with
  | nil => exact fun _ => rfl
  | cons c rest ih =>
    intro before
    rw [lowerBetween, lowerAt_of_ascii (h c List.mem_cons_self),
      ih fun d hd => h d (List.mem_cons_of_mem c hd)]
    rfl

/-- A text of ASCII shows in another one, in either case, where a part of that one differs from it
at most in the case of letters. -/
theorem occursIn_lowerCase_iff {needle hay : List Char} (hneedle : IsAscii needle)
    (hhay : IsAscii hay) :
    occursIn (lowerCase needle) (lowerCase hay) = true ↔
      ∃ before part after, hay = before ++ part ++ after ∧
        part.map Char.toLower = needle.map Char.toLower := by
  rw [occursIn_iff, lowerCase_of_ascii hneedle, lowerCase_of_ascii hhay]
  constructor
  · rintro ⟨before, after, h⟩
    obtain ⟨front, back, rfl, hfront, -⟩ := List.map_eq_append_iff.mp h
    obtain ⟨first, part, rfl, -, hpart⟩ := List.map_eq_append_iff.mp hfront
    exact ⟨first, part, back, rfl, hpart⟩
  · rintro ⟨before, part, after, rfl, hpart⟩
    exact ⟨before.map Char.toLower, after.map Char.toLower, by simp [hpart]⟩

/-- Where a text stands as it is, it shows in lower case if its sigmas keep their form there. -/
theorem occursIn_lowerCase_of_sigmasKeep {before cs after : List Char}
    (h : SigmasKeep before cs after) :
    occursIn (lowerCase cs) (lowerCase (before ++ cs ++ after)) = true := by
  rw [occursIn_iff, lowerCase_parts, lowerBetween_eq_lowerCase_iff.mpr h]
  exact ⟨_, _, rfl⟩

end Marksheet.Text
