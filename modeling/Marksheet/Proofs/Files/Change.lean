import Mathlib
import Marksheet.Files.Tree

/-!
# What a change leaves as it is

An entry that is put somewhere is found there, and all others are what they were
before (`entry?_set_self`, `entry?_set_of_ne`). What is left out is gone with all
that lies beneath it, and nothing else is (`entry?_erase_beneath`,
`entry?_erase_beside`).
-/

namespace Marksheet.Files.Tree

section Filter

variable (keeps : List String × Entry → Bool) {steps : List String}

/-- A filter that keeps all entries of one place does not change what is found there. -/
theorem lookup_filter_of_keeps (h : ∀ entry, keeps (steps, entry) = true)
    (entries : List (List String × Entry)) :
    (entries.filter keeps).lookup steps = entries.lookup steps := by
  induction entries with
  | nil => rfl
  | cons known rest ih =>
    obtain ⟨place, entry⟩ := known
    by_cases hplace : steps = place
    · subst hplace
      rw [List.filter_cons_of_pos (h entry), List.lookup_cons_self, List.lookup_cons_self]
    · have hskip : (steps == place) = false := beq_eq_false_iff_ne.mpr hplace
      rw [List.lookup_cons, hskip, List.filter_cons]
      split
      · rw [List.lookup_cons, hskip]
        exact ih
      · exact ih

/-- A filter that keeps no entry of one place leaves nothing there. -/
theorem lookup_filter_eq_none (h : ∀ entry, keeps (steps, entry) = false)
    (entries : List (List String × Entry)) : (entries.filter keeps).lookup steps = none := by
  refine List.lookup_eq_none_iff.mpr fun known hm => ?_
  obtain ⟨place, entry⟩ := known
  refine bne_iff_ne.mpr fun heq => ?_
  subst heq
  have hkept := (List.mem_filter.mp hm).2
  rw [h entry] at hkept
  cases hkept

end Filter

variable (tree : Tree) {steps other : List String}

theorem entry?_of_ne_nil (h : steps ≠ []) : tree.entry? steps = tree.entries.lookup steps := by
  unfold Tree.entry?
  exact if_neg (by simpa using h)

/-- What is put somewhere is found there. -/
theorem entry?_set_self (h : steps ≠ []) (entry : Entry) :
    Tree.entry? (tree.set steps entry) steps = some entry := by
  have hgone := lookup_filter_eq_none (fun known => known.1 ≠ steps) (fun entry : Entry =>
    decide_eq_false (not_not.mpr (rfl : (steps, entry).1 = steps))) tree.entries
  rw [entry?_of_ne_nil _ h, set, List.lookup_append, hgone, List.lookup_cons_self]
  rfl

/-- What is put somewhere is found nowhere else. -/
theorem entry?_set_of_ne (h : other ≠ steps) (entry : Entry) :
    Tree.entry? (tree.set steps entry) other = tree.entry? other := by
  have hkept := lookup_filter_of_keeps (fun known => known.1 ≠ steps)
    (fun entry : Entry => decide_eq_true (show (other, entry).1 ≠ steps from h)) tree.entries
  have hskip : (other == steps) = false := beq_eq_false_iff_ne.mpr h
  unfold Tree.entry?
  rw [set, List.lookup_append, hkept, List.lookup_cons, hskip, List.lookup_nil,
    Option.or_none]

/-- What is left out is gone with all that lies beneath it. -/
theorem entry?_erase_beneath (h : steps <+: other) (hne : other ≠ []) :
    Tree.entry? (tree.erase steps) other = none := by
  rw [entry?_of_ne_nil _ hne, erase]
  exact lookup_filter_eq_none _ (fun _ => by simpa using h) tree.entries

/-- What does not lie beneath is kept. -/
theorem entry?_erase_beside (h : ¬ steps <+: other) :
    Tree.entry? (tree.erase steps) other = tree.entry? other := by
  have hbeside : steps.isPrefixOf other = false :=
    Bool.eq_false_iff.mpr (mt List.isPrefixOf_iff_prefix.mp h)
  have hkept := lookup_filter_of_keeps (fun known => !steps.isPrefixOf known.1)
    (fun _ : Entry => congrArg not hbeside) tree.entries
  unfold Tree.entry?
  rw [erase, hkept]

end Marksheet.Files.Tree
