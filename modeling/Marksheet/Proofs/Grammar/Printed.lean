import Marksheet.Proofs.Grammar.Brackets
import Marksheet.Proofs.Syntax.Literal

/-!
# Printed expressions are read back

`bare_reads` says by induction on the expression that its pieces in print are read as a
phrase that stands for it, at the strength of the expression. Parentheses, needed or
not, change the phrase but not the expression that it stands for.
-/

namespace Marksheet.Grammar

open Marksheet.Source Marksheet.Syntax

/-! ### Shapes of pieces -/

theorem shapesOf_append (pieces more : List Piece) :
    shapesOf (pieces ++ more) = shapesOf pieces ++ shapesOf more := List.flatMap_append

theorem shapesOf_cons (piece : Piece) (pieces : List Piece) :
    shapesOf (piece :: pieces) = piece.mark.shapes ++ shapesOf pieces := rfl

theorem shapesOf_singleton (piece : Piece) : shapesOf [piece] = piece.mark.shapes :=
  List.append_nil _

/-- A blank makes no token. -/
theorem shapesOf_spaced (pieces : List Piece) : shapesOf (spaced pieces) = shapesOf pieces := by
  cases pieces <;> rfl

theorem shapesOf_separated (item : List Piece) (items : List (List Piece)) :
    shapesOf (separated (item :: items)) =
      shapesOf item ++ behindCommas (items.map shapesOf) := by
  induction items generalizing item with
  | nil => exact (List.append_nil _).symm
  | cons next items ih =>
    rw [separated, shapesOf_append, shapesOf_cons, shapesOf_spaced, ih]
    rfl

theorem shapesOf_enclosed (count : Nat) (pieces : List Piece) :
    shapesOf (enclosed (count + 1) pieces) =
      .sign .lparen :: (shapesOf (enclosed count pieces) ++ [.sign .rparen]) := by
  rw [enclosed, List.cons_append, shapesOf_cons, shapesOf_append]
  rfl

/-! ### Pieces that are read as an expression -/

/-- The pieces are read as a phrase of a strength that stands for the expression. -/
def Reads (e : Expr) (strength : Nat) (pieces : List Piece) : Prop :=
  ∃ phrase : Phrase, phrase.expr = e ∧ Readable strength (shapesOf pieces) phrase

theorem enclosed_reads {e : Expr} {strength : Nat} {pieces : List Piece} (h : Reads e strength pieces)
    (count : Nat) : Reads e 22 (enclosed (count + 1) pieces) := by
  have hstep {strength : Nat} {pieces : List Piece} (h : Reads e strength pieces) :
      Reads e 22 (enclosed 1 pieces) := by
    obtain ⟨phrase, rfl, hread⟩ := h
    refine ⟨.parenthesized [phrase], by simp only [Phrase.expr, exprs, firstOr], ?_⟩
    rw [shapesOf_enclosed]
    exact hread.parenthesized
  induction count with
  | zero => exact hstep h
  | succ count ih => exact hstep ih

/-- Where an expression is too weak for its place, or is redundantly put in parentheses, it is strong
enough there. -/
theorem within_reads {e : Expr} {pieces : List Piece} (h : Reads e (min e.strength 22) pieces)
    (needed strength : Nat) (hs : min (max needed 1) 22 = strength) (extra : Redundance) :
    Reads e strength (within needed extra e pieces) := by
  have hweaken {strong : Nat} {pieces : List Piece} (h : Reads e strong pieces)
      (hw : strength ≤ strong) : Reads e strength pieces := by
    obtain ⟨phrase, he, hread⟩ := h
    exact ⟨phrase, he, hread.mono (by omega) hw⟩
  rw [within]
  cases hc : extra [] + if e.strength < needed then 1 else 0 with
  | zero =>
    have hpositive : 0 < min e.strength 22 := h.choose_spec.2.positive
    have hneeded : needed ≤ e.strength := by
      by_contra hlt
      rw [if_pos (Nat.not_le.mp hlt)] at hc
      omega
    exact hweaken h (by omega)
  | succ count => exact hweaken (enclosed_reads h count) (by omega)

/-! ### Lists of phrases -/

/-- Expressions among arguments are arguments by position. -/
theorem positional_of_readable {shapes : List (List Shape)} {phrases : List Phrase}
    (h : List.Forall₂ (Readable 1) shapes phrases) (more : List Phrase) :
    positional (phrases ++ more) = exprs phrases ++ positional more ∧
      keywords (phrases ++ more) = keywords more := by
  induction h with
  | nil => exact ⟨rfl, rfl⟩
  | @cons _ phrase _ phrases hread _ ih =>
    obtain ⟨hpositional, hkeywords⟩ := ih
    have hplain := hread.plain
    cases phrase with
    | keyword name value => cases hplain
    | _ =>
      simp only [List.cons_append, positional, keywords, exprs, hpositional, hkeywords, and_self]

theorem length_exprs (phrases : List Phrase) : (exprs phrases).length = phrases.length := by
  induction phrases with
  | nil => rfl
  | cons phrase phrases ih => rw [exprs, List.length_cons, List.length_cons, ih]

theorem literalText_printedParts (value : String) :
    literalText (textParts false false (printedParts value)) = value := by
  have hvalue := unescape_printedBody value
  unfold printedParts
  split
  · rename_i hempty
    rw [hempty] at hvalue
    exact hvalue
  · have hcontent : contentText false false (String.ofList (printedBody value)) = value := hvalue
    simp only [textParts, hcontent, literalText, List.foldl_cons, List.foldl_nil,
      String.empty_append]

/-! ### Every printed expression is read -/

/-- Items in print are read as phrases that stand for them. -/
def ReadsItems (items : List Expr) (pieces : List (List Piece)) : Prop :=
  ∃ phrases, exprs phrases = items ∧ List.Forall₂ (Readable 1) (pieces.map shapesOf) phrases

theorem list_reads {items : List Expr} {pieces : List (List Piece)} (h : ReadsItems items pieces) :
    Reads (.list items) 22
      (close (.sign .lbracket) :: separated pieces ++ [close (.sign .rbracket)]) := by
  obtain ⟨phrases, rfl, hread⟩ := h
  refine ⟨.list phrases, by simp only [Phrase.expr], ?_⟩
  cases pieces with
  | nil =>
    cases hread
    exact .emptyList
  | cons first pieces =>
    rw [List.map_cons] at hread
    cases hread with
    | cons hfirst hmore =>
      rw [List.cons_append, shapesOf_cons, shapesOf_append, shapesOf_separated, shapesOf_singleton,
        List.append_assoc]
      exact .list hfirst hmore

/-- Items between parentheses: one alone has a comma behind it. -/
theorem tuple_readable {pieces : List (List Piece)} {phrases : List Phrase}
    (h : List.Forall₂ (Readable 1) (pieces.map shapesOf) phrases) :
    Readable 22 (shapesOf (close (.sign .lparen) :: separated pieces ++
      (if phrases.length = 1 then [close (.sign .comma)] else []) ++ [close (.sign .rparen)]))
      (.tuple phrases) := by
  cases pieces with
  | nil =>
    cases h
    exact .emptyTuple
  | cons first pieces =>
    rw [List.map_cons] at h
    cases h with
    | @cons _ phrase _ phrases hfirst hmore =>
      have hlength := hmore.length_eq
      rw [List.length_map] at hlength
      rw [List.length_cons]
      by_cases hone : phrases.length + 1 = 1
      · rw [if_pos hone, List.append_assoc, List.cons_append, shapesOf_cons, shapesOf_append,
          shapesOf_separated, List.append_assoc]
        exact .tuple hfirst hmore (.inr rfl) (.inr (List.cons_ne_nil _ _))
      · have hne : pieces.map shapesOf ≠ [] := by
          rw [ne_eq, List.map_eq_nil_iff]
          rintro rfl
          exact hone (by rw [← hlength]; rfl)
        rw [if_neg hone, List.append_nil, List.cons_append, shapesOf_cons, shapesOf_append,
          shapesOf_separated, shapesOf_singleton, List.append_assoc]
        exact .tuple hfirst hmore isTrailing_nil (.inl hne)

theorem tuple_reads {items : List Expr} {pieces : List (List Piece)} (h : ReadsItems items pieces) :
    Reads (.tuple items) 22
      (close (.sign .lparen) :: separated pieces ++
        (if items.length = 1 then [close (.sign .comma)] else []) ++ [close (.sign .rparen)]) := by
  obtain ⟨phrases, rfl, hread⟩ := h
  rw [length_exprs]
  exact ⟨.tuple phrases, by simp only [Phrase.expr], tuple_readable hread⟩

/-- Arguments by name in print are read as phrases that stand for them. -/
def ReadsKeywords (kwargs : List (String × Expr)) (pieces : List (List Piece)) : Prop :=
  ∃ phrases, keywords phrases = kwargs ∧ positional phrases = [] ∧
    List.Forall₂ Argument (pieces.map shapesOf) phrases

/-- Arguments with commas between them. -/
theorem arguments_of_forall₂ {pieces : List (List Piece)} {phrases : List Phrase}
    (h : List.Forall₂ Argument (pieces.map shapesOf) phrases) :
    Arguments (shapesOf (separated pieces)) phrases := by
  cases pieces with
  | nil =>
    cases h
    exact .nil
  | cons first pieces =>
    rw [List.map_cons] at h
    cases h with
    | cons hfirst hmore =>
      rw [shapesOf_separated]
      exact .cons hfirst hmore

theorem call_reads {func : Expr} {args : List Expr} {kwargs : List (String × Expr)}
    {pieces : List Piece} {items named : List (List Piece)} (hf : Reads func 22 pieces)
    (ha : ReadsItems args items) (hk : ReadsKeywords kwargs named) :
    Reads (.call func args kwargs) 22
      (pieces ++ close (.sign .lparen) :: separated (items ++ named) ++
        [close (.sign .rparen)]) := by
  obtain ⟨phrase, rfl, hphrase⟩ := hf
  obtain ⟨phrases, rfl, hitems⟩ := ha
  obtain ⟨namedPhrases, rfl, hpositional, hnamed⟩ := hk
  obtain ⟨hargs, hkwargs⟩ := positional_of_readable hitems namedPhrases
  refine ⟨.call phrase (phrases ++ namedPhrases), ?_, ?_⟩
  · simp only [Phrase.expr, hargs, hkwargs, hpositional, List.append_nil]
  · have hall : List.Forall₂ Argument ((items ++ named).map shapesOf) (phrases ++ namedPhrases) := by
      rw [List.map_append]
      exact List.rel_append (hitems.imp fun _ _ h => .positional h) hnamed
    rw [List.append_assoc, List.cons_append, shapesOf_append, shapesOf_cons, shapesOf_append,
      shapesOf_singleton]
    exact hphrase.called (arguments_of_forall₂ hall)

/-- Links in print are read as the operators and phrases that stand for them. -/
def ReadsLinks (links : List (CmpOp × Expr)) (pieces : List Piece) : Prop :=
  ∃ phrases, linkExprs phrases = links ∧ Links (shapesOf pieces) phrases

mutual

theorem bare_reads (extra : Redundance) :
    (e : Expr) → e.isWritable = true → Reads e (min e.strength 22) (bare extra e)
  | .name id, h => by
    rw [Expr.isWritable, isName, Bool.and_eq_true, Bool.not_eq_true'] at h
    exact ⟨.name id, by simp only [Phrase.expr], .name h.2⟩
  | .str value, _ => by
    refine ⟨_, ?_, (shapesOf_singleton (close (.quoted value))) ▸ Readable.text value⟩
    simp only [Phrase.expr, Bool.false_eq_true, if_false, literalText_printedParts]
  | .int value, h => by
    rw [Expr.isWritable, decide_eq_true_eq] at h
    refine ⟨.integer (toString value), ?_, .integer _⟩
    simp only [Phrase.expr, integerValue?_toString h]
  | .bool true, _ => ⟨.constant .true, by simp only [Phrase.expr, Constant.expr], .constant rfl⟩
  | .bool false, _ => ⟨.constant .false, by simp only [Phrase.expr, Constant.expr], .constant rfl⟩
  | .none, _ => ⟨.constant .none, by simp only [Phrase.expr, Constant.expr], .constant rfl⟩
  | .list items, h => by
    rw [Expr.isWritable] at h
    exact list_reads (items_read extra 0 items h)
  | .tuple items, h => by
    rw [Expr.isWritable] at h
    exact tuple_reads (items_read extra 0 items h)
  | .boolOp op left right, h => by
    rw [Expr.isWritable, Bool.and_eq_true] at h
    have hop : 0 < op.strength ∧ op.strength < 22 := by cases op <;> decide
    obtain ⟨phrase, rfl, hl⟩ := within_reads (bare_reads (extra.part 0) left h.1) op.strength
      op.strength (by omega) (extra.part 0)
    obtain ⟨phrase', rfl, hr⟩ := within_reads (bare_reads (extra.part 1) right h.2)
      (op.strength + 1) (op.strength + 1) (by omega) (extra.part 1)
    refine ⟨.boolean op phrase phrase', by simp only [Phrase.expr], ?_⟩
    rw [Expr.strength, min_eq_left hop.2.le, bare, shapesOf_append, shapesOf_cons, shapesOf_spaced]
    exact hl.boolean hr op (Nat.le_refl _) (Nat.le_refl _)
  | .not operand, h => by
    rw [Expr.isWritable] at h
    obtain ⟨phrase, rfl, hread⟩ := within_reads (bare_reads (extra.part 0) operand h) 12 12 rfl
      (extra.part 0)
    refine ⟨.not phrase, by simp only [Phrase.expr], ?_⟩
    rw [bare, shapesOf_cons, shapesOf_spaced]
    exact hread.negation (Nat.le_refl 12)
  | .unary op operand, h => by
    rw [Expr.isWritable] at h
    obtain ⟨phrase, rfl, hread⟩ := within_reads (bare_reads (extra.part 0) operand h) 20 20 rfl
      (extra.part 0)
    refine ⟨.unary op phrase, by simp only [Phrase.expr], ?_⟩
    rw [bare, shapesOf_cons]
    exact hread.unary (Nat.le_refl 20) op
  | .compare left links, h => by
    simp only [Expr.isWritable, Bool.and_eq_true, Bool.not_eq_true'] at h
    obtain ⟨⟨hleft, hne⟩, hlinks⟩ := h
    obtain ⟨phrase, rfl, hread⟩ := within_reads (bare_reads (extra.part 0) left hleft) 14 14 rfl
      (extra.part 0)
    obtain ⟨phrases, rfl, hmore⟩ := links_read extra 1 links hlinks
    refine ⟨.comparison false phrase phrases,
      by simp only [Phrase.expr, Bool.false_eq_true, if_false], ?_⟩
    rw [bare, shapesOf_append]
    refine hread.comparison (Nat.le_refl 14) hmore ?_
    rintro rfl
    cases hne
  | .binOp op left right, h => by
    rw [Expr.isWritable, Bool.and_eq_true] at h
    have hop : op.precedence < 22 ∧ 0 < op.leftStrength ∧ op.leftStrength ≤ 22 ∧
        0 < op.rightStrength ∧ op.rightStrength ≤ 22 := by
      cases op <;> decide
    obtain ⟨hop, hleft, hleft', hright, hright'⟩ := hop
    obtain ⟨phrase, rfl, hl⟩ := within_reads (bare_reads (extra.part 0) left h.1) op.leftStrength
      op.leftStrength (by omega) (extra.part 0)
    obtain ⟨phrase', rfl, hr⟩ := within_reads (bare_reads (extra.part 1) right h.2)
      op.rightStrength op.rightStrength (by omega) (extra.part 1)
    refine ⟨.binary op phrase phrase', by simp only [Phrase.expr], ?_⟩
    rw [Expr.strength, min_eq_left hop.le, bare, shapesOf_append, shapesOf_cons, shapesOf_spaced]
    exact hl.binary hr op (Nat.le_refl _) (Nat.le_refl _)
  | .call func args kwargs, h => by
    simp only [Expr.isWritable, Bool.and_eq_true] at h
    obtain ⟨⟨hfunc, hargs⟩, hkwargs⟩ := h
    have hread := within_reads (bare_reads (extra.part 0) func hfunc) 22 22 rfl (extra.part 0)
    rw [bare]
    exact call_reads hread (items_read extra 1 args hargs)
      (keywords_read extra (1 + args.length) kwargs hkwargs)
  | .attribute value attr, h => by
    rw [Expr.isWritable, Bool.and_eq_true] at h
    -- A dot needs more strength than its reader does: only the cutting of numbers depends on it.
    obtain ⟨phrase, rfl, hread⟩ := within_reads (bare_reads (extra.part 0) value h.1) 23 22 rfl
      (extra.part 0)
    refine ⟨.attribute phrase attr, by simp only [Phrase.expr], ?_⟩
    rw [bare, shapesOf_append]
    exact hread.member attr
  | .subscript value index, h => by
    rw [Expr.isWritable, Bool.and_eq_true] at h
    obtain ⟨phrase, rfl, hread⟩ := within_reads (bare_reads (extra.part 0) value h.1) 22 22 rfl
      (extra.part 0)
    obtain ⟨phrase', rfl, hindex⟩ := within_reads (bare_reads (extra.part 1) index h.2) 0 1 rfl
      (extra.part 1)
    refine ⟨.subscript phrase [phrase'], by simp only [Phrase.expr, exprs], ?_⟩
    rw [bare, List.append_assoc, List.cons_append, shapesOf_append, shapesOf_cons, shapesOf_append]
    exact hread.indexed hindex
  | .ifExp test body orelse, h => by
    simp only [Expr.isWritable, Bool.and_eq_true] at h
    obtain ⟨⟨htest, hbody⟩, horelse⟩ := h
    obtain ⟨phrase, rfl, hb⟩ := within_reads (bare_reads (extra.part 0) body hbody) 2 2 rfl
      (extra.part 0)
    obtain ⟨phrase', rfl, ht⟩ := within_reads (bare_reads (extra.part 1) test htest) 0 1 rfl
      (extra.part 1)
    obtain ⟨phrase'', rfl, ho⟩ := within_reads (bare_reads (extra.part 2) orelse horelse) 1 1 rfl
      (extra.part 2)
    refine ⟨.conditional false phrase phrase' phrase'',
      by simp only [Phrase.expr, Bool.false_eq_true, if_false], ?_⟩
    rw [bare, List.append_assoc, shapesOf_append, List.cons_append, shapesOf_cons, shapesOf_append,
      shapesOf_spaced, shapesOf_cons, shapesOf_spaced]
    exact hb.conditional (Nat.le_refl 2) ht ho

theorem items_read (extra : Redundance) (number : Nat) :
    (items : List Expr) → allWritable items = true →
      ReadsItems items (printedItems extra number items)
  | [], _ => ⟨[], rfl, .nil⟩
  | item :: rest, h => by
    rw [allWritable, Bool.and_eq_true] at h
    obtain ⟨phrase, rfl, hread⟩ := within_reads (bare_reads (extra.part number) item h.1) 0 1 rfl
      (extra.part number)
    obtain ⟨phrases, rfl, hrest⟩ := items_read extra (number + 1) rest h.2
    exact ⟨phrase :: phrases, by simp only [exprs], .cons hread hrest⟩

theorem links_read (extra : Redundance) (number : Nat) :
    (links : List (CmpOp × Expr)) → linksWritable links = true →
      ReadsLinks links (printedLinks extra number links)
  | [], _ => ⟨[], rfl, .nil⟩
  | (op, operand) :: rest, h => by
    rw [linksWritable, Bool.and_eq_true] at h
    obtain ⟨phrase, rfl, hread⟩ := within_reads (bare_reads (extra.part number) operand h.1) 14 14 rfl
      (extra.part number)
    obtain ⟨phrases, rfl, hrest⟩ := links_read extra (number + 1) rest h.2
    refine ⟨(op, phrase) :: phrases, by simp only [linkExprs], ?_⟩
    rw [printedLinks, List.append_assoc, shapesOf_append, shapesOf_append, shapesOf_spaced]
    have hop : shapesOf (op.marks.map apart) = cmpShapes op := by cases op <;> rfl
    rw [hop]
    exact .cons op hread (Nat.le_refl 14) hrest

theorem keywords_read (extra : Redundance) (number : Nat) :
    (kwargs : List (String × Expr)) → keywordsWritable kwargs = true →
      ReadsKeywords kwargs (printedKeywords extra number kwargs)
  | [], _ => ⟨[], rfl, rfl, .nil⟩
  | (name, value) :: rest, h => by
    simp only [keywordsWritable, isName, Bool.and_eq_true, Bool.not_eq_true'] at h
    obtain ⟨⟨⟨-, hname⟩, hvalue⟩, hrest⟩ := h
    obtain ⟨phrase, rfl, hread⟩ := within_reads (bare_reads (extra.part number) value hvalue) 0 1 rfl
      (extra.part number)
    obtain ⟨phrases, rfl, hpositional, hrest⟩ := keywords_read extra (number + 1) rest hrest
    have hreserved : isReservedWord name = false := by
      by_contra hc
      rw [Bool.not_eq_false, isReservedWord, List.contains_iff_mem] at hc
      have hall : ∀ word ∈ ["not", "lambda", "True", "False", "None"],
          reservedWords.contains word = true := by decide
      rw [hall name hc] at hname
      cases hname
    exact ⟨.keyword name phrase :: phrases, by simp only [keywords],
      by simp only [positional, hpositional], .cons (.keyword hreserved hread) hrest⟩

end

theorem printed_reads (extra : Redundance) {e : Expr} (h : e.isWritable = true) :
    Reads e 1 (printed extra e) := within_reads (bare_reads extra e h) 0 1 rfl extra

end Marksheet.Grammar
