/-!
# Finding one text in another

`occursIn` says whether a text stands somewhere in another one. `occurrences`
counts from the left, each time going on behind the occurrence found; an empty
text occurs before each character and at the end.
-/

namespace Marksheet.Text

variable {α : Type} [BEq α]

/-- The first list is a contiguous part of the second. -/
def occursIn (needle : List α) : List α → Bool
  | [] => needle.isEmpty
  | c :: rest => needle.isPrefixOf (c :: rest) || occursIn needle rest

/-- Count occurrences behind the next `skip` elements. -/
def countFrom (needle : List α) : (skip : Nat) → List α → Nat
  | _, [] => 0
  | skip + 1, _ :: rest => countFrom needle skip rest
  | 0, c :: rest =>
    if needle.isPrefixOf (c :: rest) then countFrom needle (needle.length - 1) rest + 1
    else countFrom needle 0 rest

/-- The number of occurrences from the left that do not overlap. -/
def occurrences (needle hay : List α) : Nat :=
  if needle.isEmpty then hay.length + 1 else countFrom needle 0 hay

theorem occursIn_iff [LawfulBEq α] {needle hay : List α} :
    occursIn needle hay = true ↔ ∃ before after, hay = before ++ needle ++ after := by
  induction hay with
  | nil => cases needle <;> simp [occursIn]
  | cons c rest ih =>
    simp only [occursIn, Bool.or_eq_true, List.isPrefixOf_iff_prefix, ih]
    constructor
    · rintro (⟨after, h⟩ | ⟨before, after, h⟩)
      · exact ⟨[], after, by simpa using h.symm⟩
      · exact ⟨c :: before, after, by simp [h]⟩
    · rintro ⟨before, after, h⟩
      cases before with
      | nil => exact .inl ⟨after, by simpa using h.symm⟩
      | cons d before =>
        simp only [List.cons_append, List.cons.injEq] at h
        exact .inr ⟨before, after, h.2⟩

end Marksheet.Text
