/-!
# Places in a source text

Lines and columns count from one. A column counts the bytes of the UTF-8 form,
so a character outside ASCII moves the place by more than one column. Only a
line feed starts a new line.
-/

namespace Marksheet.Source

/-- A place in a source text. -/
structure Position where
  /-- The line, counted from one. -/
  line : Nat
  /-- The byte column, counted from one. -/
  column : Nat
  deriving DecidableEq, Repr, Inhabited

namespace Position

/-- The place before the first character. -/
def first : Position := ⟨1, 1⟩

/-- The place behind one character. -/
def step (here : Position) (c : Char) : Position :=
  if c = '\n' then ⟨here.line + 1, 1⟩ else ⟨here.line, here.column + c.utf8Size⟩

/-- The place behind a run of characters. -/
def advance (here : Position) (text : List Char) : Position := text.foldl step here

@[simp] theorem advance_nil (here : Position) : here.advance [] = here := rfl

@[simp] theorem advance_cons (here : Position) (c : Char) (text : List Char) :
    here.advance (c :: text) = (here.step c).advance text := rfl

theorem advance_append (here : Position) (s t : List Char) :
    here.advance (s ++ t) = (here.advance s).advance t := by
  simp [advance, List.foldl_append]

/-- Moving over a character never goes back a line. -/
theorem line_le_step (here : Position) (c : Char) : here.line ≤ (here.step c).line := by
  unfold step
  split <;> simp

/-- Moving over text never goes back a line. -/
theorem line_le_advance (here : Position) (text : List Char) :
    here.line ≤ (here.advance text).line := by
  induction text generalizing here with
  | nil => simp
  | cons c text ih => exact Nat.le_trans (line_le_step here c) (ih _)

end Position

end Marksheet.Source
