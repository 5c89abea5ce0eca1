import Marksheet.Proofs.Grammar.Bindings
import Marksheet.Proofs.Syntax.Unlined

/-!
# Blocks are read

A block is read statement by statement, up to a line that is indented less or up to the
end of the text. Lines that go on a statement, such as those of an else-branch, do not
begin a statement of their own; what is said about them says what is read there.
-/

namespace Marksheet.Grammar

open Marksheet.Source Marksheet.Syntax

/-! ### What is read -/

/-- The form stands for a statement of the kind, and nothing in it is of the older language. -/
structure StandsFor (form : Form) (kind : StmtKind) : Prop where
  same : (form.kind []).unlined = kind.unlined
  modern : ∀ start, legacyInForm? start form = none

/-- The sentences of a block stand for the statements. -/
structure Stands (block : Block) (body : List Stmt) : Prop where
  same : unlinedStmts (stmts block) = unlinedStmts body
  modern : legacyInBlock? block = none

theorem Stands.nil : Stands [] [] := ⟨rfl, rfl⟩

theorem Stands.cons {form : Form} {kind : StmtKind} (h : StandsFor form kind) {block : Block}
    {body : List Stmt} (hm : Stands block body) (start : Position) (line : Nat) :
    Stands (.mk form start :: block) (.mk kind line :: body) where
  same := by rw [stmts, Sentence.stmt, unlinedStmts, unlinedStmts, h.same, hm.same]
  modern := by rw [legacyInBlock?, legacyIn?, h.modern, Option.none_or, hm.modern]

/-- A block ends: a line comes that is indented less, or the text ends. -/
inductive Stops : Nat → List Token → List Token → Prop where
  | below {indent : Nat} {rest : List Token} (h : Below indent rest) : Stops indent rest rest
  | finish {token : Token} (hs : StartsLine 0 token) (hf : token.lexeme = .finish) :
      Stops 0 [token] [token.close]

theorem Stops.behind {indent : Nat} {rest last : List Token} (h : Stops indent rest last) :
    Behind indent rest := by
  cases h with
  | below h => exact h.without _
  | finish hs hf =>
    refine .line hs (Nat.le_refl 0) (fun _ word _ => ?_) []
    rw [Token.isWord, hf]
    rfl

/-- The lines are read as one statement. -/
def ReadsStatement (lines : List Line) (indent : Nat) (kind : StmtKind) : Prop :=
  ∀ first tail, SpellsLines (first :: tail) lines → ∀ levels depth, (first :: tail).length ≤ levels →
    (first :: tail).length ≤ depth → ∀ rest, Behind indent rest → ∃ form,
      statement (nested levels) (blocks (nested levels) depth) indent (first.close :: (tail ++ rest)) =
        .ok ([.mk form first.start], rest) ∧ StandsFor form kind

/-- The lines are read as the statements of a block. -/
def ReadsBlock (lines : List Line) (indent : Nat) (body : List Stmt) : Prop :=
  ∀ tokens, SpellsLines tokens lines → ∀ levels depth, tokens.length ≤ levels →
    tokens.length ≤ depth → ∀ rest last, Stops indent rest last → ∀ fuel, tokens.length < fuel →
      ∀ found, ∃ block,
        blockFrom (nested levels) (blocks (nested levels) depth) indent fuel found (tokens ++ rest) =
          .ok (found ++ block, last) ∧ Stands block body

/-- The lines are read as what stands behind the colon of a header. -/
def ReadsSuite (lines : List Line) (indent : Nat) (body : List Stmt) : Prop :=
  ∀ tokens, SpellsLines tokens lines → ∀ levels depth, tokens.length ≤ levels →
    tokens.length < depth → ∀ rest, Without [] indent rest → ∃ block,
      suite (nested levels) (blocks (nested levels) depth) indent (tokens ++ rest) =
        .ok (([], block), rest) ∧ Stands block body

/-! ### Lines that begin a statement or go on one -/

/-- The first of the lines, if there are any, has this width and does not begin with any of the
words. -/
def BeginsWithout (words : List String) (indent : Nat) (lines : List Line) : Prop :=
  ∀ line ∈ lines.head?, line.margin.width = indent ∧
    ∃ shape more, shapesOf line.pieces = shape :: more ∧ ∀ word ∈ words, shape ≠ .word word

theorem BeginsWithout.nil (words : List String) (indent : Nat) : BeginsWithout words indent [] := nofun

theorem BeginsWithout.cons {words : List String} (line : Line) {shape : Shape} {more : List Shape}
    (h : shapesOf line.pieces = shape :: more) (hw : ∀ word ∈ words, shape ≠ .word word)
    (lines : List Line) : BeginsWithout words line.margin.width (line :: lines) := by
  intro other hm
  obtain rfl := Option.mem_some_iff.mp hm
  exact ⟨rfl, shape, more, h, hw⟩

theorem BeginsWithout.append {words : List String} {indent : Nat} {lines more : List Line}
    (h : BeginsWithout words indent lines) (hm : BeginsWithout words indent more) :
    BeginsWithout words indent (lines ++ more) := by
  cases lines with
  | nil => exact hm
  | cons line lines => exact h

/-- What holds behind lines holds before them, if they do not begin with the words either. -/
theorem without_of_lines {words : List String} {indent : Nat} {lines : List Line}
    (h : BeginsWithout words indent lines) {tokens : List Token} (ht : SpellsLines tokens lines)
    {rest : List Token} (hr : Without words indent rest) : Without words indent (tokens ++ rest) := by
  cases lines with
  | nil =>
    cases ht
    exact hr
  | cons line lines =>
    obtain ⟨rfl, shape, more, hshapes, hshape⟩ := h line rfl
    obtain ⟨first, tail, others, rfl, hs, hwrites, -⟩ := exists_line ht
    have hspells := hwrites.spells
    rw [hshapes] at hspells
    obtain ⟨closed, tail', he, -, rfl, -⟩ := hspells.cons_inv
    obtain ⟨rfl, -⟩ := List.cons.inj he
    refine .line hs (Nat.le_refl _) (fun _ word hw => ?_) _
    rw [Token.isWord, Bool.and_eq_false_iff]
    by_contra hc
    simp only [not_or, Bool.not_eq_false, decide_eq_true_eq] at hc
    exact hshape word hw (Prod.ext hc.1 hc.2)

/-! ### Statements one after the other -/

theorem readsBlock_nil (indent : Nat) : ReadsBlock [] indent [] := by
  intro tokens ht levels depth _ _ rest last hr fuel hfuel found
  cases ht
  obtain ⟨fuel, rfl⟩ := Nat.exists_eq_succ_of_ne_zero (Nat.ne_zero_of_lt hfuel)
  refine ⟨[], ?_, .nil⟩
  cases hr with
  | below h =>
    obtain ⟨hs, hw, rest⟩ := h
    have hcloses : settle indent { closing := 0 < indent, quote := true } _ = ⟨[], .closes, _⟩ :=
      settle_closes hs (decide_eq_true (Nat.zero_lt_of_lt hw)) hw
    simp only [List.nil_append, blockFrom, hcloses]
    rfl
  | @finish token hs hf =>
    have hgoes : settle 0 { closing := 0 < 0, quote := true } token = ⟨[], .goesOn, token.close⟩ :=
      settle_goesOn hs rfl
    simp only [List.nil_append, blockFrom, hgoes, close_lexeme, hf, if_true]
    rfl

/-- A statement is read, and then the others of its block. -/
theorem readsBlock_cons {lines more : List Line} {indent : Nat} {kind : StmtKind} {body : List Stmt}
    (hb : BeginsWithout clauseWords indent lines) (hne : lines ≠ [])
    (hk : ReadsStatement lines indent kind) (hb' : BeginsWithout clauseWords indent more)
    (hm : ReadsBlock more indent body) (line : Nat) :
    ReadsBlock (lines ++ more) indent (.mk kind line :: body) := by
  intro tokens ht levels depth hl hd rest last hr fuel hfuel found
  obtain ⟨fuel, rfl⟩ := Nat.exists_eq_succ_of_ne_zero (Nat.ne_zero_of_lt hfuel)
  obtain ⟨before, behind, rfl, hbefore, hbehind⟩ := exists_lines ht
  obtain ⟨line', lines, rfl⟩ := List.exists_cons_of_ne_nil hne
  obtain ⟨rfl, -⟩ := hb line' rfl
  obtain ⟨first, tail, others, rfl, hs, hwrites, -⟩ := exists_line hbefore
  have hinside : first.lexeme ≠ .finish :=
    (hwrites.spells.snug first.close List.mem_cons_self).inside
  simp only [List.length_append, List.length_cons] at hl hd hfuel
  obtain ⟨form, hread, hform⟩ := hk first (tail ++ others) hbefore levels depth
    (by rw [List.length_cons, List.length_append]; omega)
    (by rw [List.length_cons, List.length_append]; omega) (behind ++ rest)
    (without_of_lines hb' hbehind hr.behind)
  obtain ⟨block, hmore, hblock⟩ := hm behind hbehind levels depth (by omega) (by omega) rest last hr
    fuel (by omega) (found ++ [.mk form first.start])
  refine ⟨.mk form first.start :: block, ?_, hblock.cons hform first.start line⟩
  have hgoes : settle line'.margin.width { closing := 0 < line'.margin.width, quote := true } first =
      ⟨[], .goesOn, first.close⟩ := settle_goesOn hs rfl
  have hnone : found ++ continuedSentences [] = found := List.append_nil found
  rw [List.append_assoc] at hread
  simp only [List.cons_append, List.append_assoc, blockFrom, hgoes, hnone, close_lexeme, hinside,
    if_false, hread, Except.mapError, bind, Except.bind, hmore, List.nil_append]

/-- A block is a suite below a header that is indented less. -/
theorem readsSuite_of_block {lines : List Line} {indent deeper : Nat} {body : List Stmt}
    (hd : indent < deeper) (hne : lines ≠ []) (hb : BeginsWithout clauseWords deeper lines)
    (h : ReadsBlock lines deeper body) : ReadsSuite lines indent body := by
  intro tokens ht levels depth hl hdepth rest hr
  obtain ⟨depth, rfl⟩ := Nat.exists_eq_succ_of_ne_zero (Nat.ne_zero_of_lt hdepth)
  have hbelow : Below deeper rest := hr.below hd
  obtain ⟨other, rest', rfl⟩ : ∃ other rest', rest = other :: rest' := by
    obtain ⟨-, -, rest⟩ := hbelow
    exact ⟨_, _, rfl⟩
  obtain ⟨block, hread, hblock⟩ := h tokens ht levels depth hl (Nat.le_of_lt_succ hdepth) _ _
    (.below hbelow) (tokens ++ other :: rest').length
    (by rw [List.length_append, List.length_cons]; omega) []
  refine ⟨block, ?_, hblock⟩
  obtain ⟨line, lines, rfl⟩ := List.exists_cons_of_ne_nil hne
  obtain ⟨rfl, -⟩ := hb line rfl
  obtain ⟨first, tail, others, rfl, hs, -, -⟩ := exists_line ht
  exact suite_eq_ok hs hd hread

end Marksheet.Grammar
