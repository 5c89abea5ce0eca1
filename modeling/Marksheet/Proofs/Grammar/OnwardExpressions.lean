import Marksheet.Grammar.Expression
import Marksheet.Proofs.Grammar.Onward

/-!
# Expressions are read onward

Each reader of a phrase has one lemma: the tokens it leaves have their places
behind the first token if it always takes that one, and among those of its
tokens otherwise. The readers of nested phrases are taken as readers that go
onward (`Onward`), and `nested_onward` closes the circle by induction on the
number of levels.
-/

namespace Marksheet.Grammar

open Marksheet.Source Marksheet.Syntax

/-- The readers of nested phrases take their first token and go onward. -/
structure Onward (n : Nested) : Prop where
  expression (place : Place) (level : Level) (tokens : List Token) :
    Leaves (behind tokens) (n.expression place level tokens)
  operand (place : Place) (least : Nat) (tokens : List Token) :
    Leaves (behind tokens) (n.operand place least tokens)
  field (tokens : List Token) : Leaves (behind tokens) (n.field tokens)
  type (place : Place) (colon : Bool) (tokens : List Token) :
    Leaves (behind tokens) (n.type place colon tokens)

section

variable {n : Nested} (h : Onward n)
include h

/-! ### Strings -/

theorem literalParts_leaves (fuel : Nat) :
    ∀ parts tokens, Leaves (places tokens) (literalParts n fuel parts tokens) := by
  induction fuel with
  | zero => exact fun _ tokens => lays_stuck tokens
  | succ fuel ih =>
    intro parts tokens
    unfold literalParts
    split
    · split
      · exact lays_tail (ih _ _)
      · exact lays_tail (leaves_all _ _)
      · exact lays_past (h.field _) fun _ rest => ih _ rest
      · exact lays_stuck _
    · exact lays_stuck _

theorem literal_leaves (tokens : List Token) : Leaves (behind tokens) (literal n tokens) := by
  unfold literal
  split
  · split
    · refine lays_taken ?_
      exact lays_after (literalParts_leaves h _ _ _) fun _ rest => leaves_all _ rest
    · exact lays_stuck _
  · exact lays_stuck _

theorem moreLiterals_leaves (place : Place) (fuel : Nat) :
    ∀ pieces tokens, Leaves (places tokens) (moreLiterals n place fuel pieces tokens) := by
  induction fuel with
  | zero => exact fun pieces tokens => leaves_all pieces tokens
  | succ fuel ih =>
    intro pieces tokens
    unfold moreLiterals
    split
    · next between token rest hahead =>
      split
      · refine lays_ahead hahead ?_
        exact lays_past (literal_leaves h _) fun _ rest => ih _ rest
      · exact leaves_all _ _
    · exact leaves_all _ _

theorem strings_leaves (place : Place) (tokens : List Token) :
    Leaves (behind tokens) (strings n place tokens) := by
  refine lays_after (literal_leaves h tokens) fun first rest => ?_
  refine lays_after (moreLiterals_leaves h place _ _ rest) fun pieces rest => ?_
  dsimp only
  split
  · exact leaves_all _ rest
  · exact leaves_all _ rest

/-! ### Series of expressions -/

theorem moreExpressions_leaves (place : Place) (level : Level) (fuel : Nat) :
    ∀ comma items tokens,
      Leaves (places tokens) (moreExpressions n place level fuel comma items tokens) := by
  induction fuel with
  | zero => exact fun comma items tokens => leaves_all _ tokens
  | succ fuel ih =>
    intro comma items tokens
    unfold moreExpressions
    split
    · next before token rest hahead =>
      split
      · refine lays_beyond hahead ?_
        split
        · next between next rest' hnext =>
          split
          · refine lays_ahead hnext ?_
            exact lays_past (h.expression _ _ _) fun _ rest => ih _ _ rest
          · exact leaves_all _ _
        · exact leaves_all _ _
      · exact leaves_all _ _
    · exact leaves_all _ _

theorem expressions_leaves (place : Place) (tokens : List Token) :
    Leaves (behind tokens) (expressions n place tokens) := by
  refine lays_after (h.expression place {} tokens) fun first rest => ?_
  exact moreExpressions_leaves h place {} _ _ _ rest

theorem series_leaves (place : Place) (tokens : List Token) :
    Leaves (behind tokens) (series n place tokens) := by
  refine lays_after (expressions_leaves h place tokens) fun found rest => ?_
  dsimp only
  split
  · exact leaves_all _ rest
  · exact leaves_all _ rest

theorem yieldPhrase_leaves (place : Place) (tokens : List Token) :
    Leaves (behind tokens) (yieldPhrase n place tokens) := by
  refine lays_after (takeWord_leaves "yield" tokens) fun _ tokens => ?_
  dsimp only
  split
  · next between token rest hahead =>
    split
    · refine lays_beyond hahead ?_
      refine lays_after (pass_leaves _ _ _) fun _ rest => ?_
      exact lays_past (h.expression _ _ _) fun _ rest => leaves_all _ rest
    · split
      · refine lays_ahead hahead ?_
        exact lays_past (series_leaves h _ _) fun _ rest => leaves_all _ rest
      · exact leaves_all _ _
  · exact leaves_all _ _

theorem seriesOrYield_leaves (place : Place) (tokens : List Token) :
    Leaves (behind tokens) (seriesOrYield n place tokens) := by
  unfold seriesOrYield
  split
  · split
    · exact yieldPhrase_leaves h place _
    · exact series_leaves h place _
  · exact lays_stuck _

/-! ### Replacement fields -/

theorem specParts_leaves (fuel : Nat) :
    ∀ tokens, Leaves (places tokens) (specParts n fuel tokens) := by
  induction fuel with
  | zero => exact fun tokens => lays_stuck tokens
  | succ fuel ih =>
    intro tokens
    unfold specParts
    split
    · split
      · exact lays_tail (ih _)
      · exact lays_past (h.field _) fun _ rest => ih rest
      · exact leaves_all _ _
      · exact lays_stuck _
    · exact lays_stuck _

omit h in
theorem fieldMark_leaves (tokens : List Token) : Leaves (places tokens) (fieldMark tokens) := by
  unfold fieldMark
  split
  · split
    · refine lays_tail ?_
      exact lays_after (pass_leaves _ _ _) fun _ rest => leaves_all _ rest
    · exact leaves_all _ _
  · exact leaves_all _ _

omit h in
theorem fieldConversion_leaves (tokens : List Token) :
    Leaves (places tokens) (fieldConversion tokens) := by
  unfold fieldConversion
  split
  · split
    · refine lays_tail ?_
      exact lays_after (pass_leaves _ _ _) fun _ rest => leaves_all _ rest
    · exact leaves_all _ _
  · exact leaves_all _ _

theorem fieldEnd_leaves (value : Phrase) (conversion : Option Char) (tokens : List Token) :
    Leaves (places tokens) (fieldEnd n value conversion tokens) := by
  unfold fieldEnd
  split
  · split
    · exact lays_tail (leaves_all _ _)
    · split
      · refine lays_tail (lays_after (specParts_leaves h _ _) fun _ after => ?_)
        exact lays_ok (drop_sublist 1 after)
      · exact lays_stuck _
  · exact lays_stuck _

theorem field_leaves (tokens : List Token) : Leaves (behind tokens) (field n tokens) := by
  unfold field
  split
  · split
    · refine lays_taken ?_
      refine lays_after (pass_leaves _ _ _) fun _ tokens => ?_
      refine lays_past (seriesOrYield_leaves h _ tokens) fun value tokens => ?_
      refine lays_after (pass_leaves _ _ tokens) fun _ tokens => ?_
      refine lays_after (fieldMark_leaves tokens) fun _ tokens => ?_
      refine lays_after (fieldConversion_leaves tokens) fun conversion tokens => ?_
      exact fieldEnd_leaves h value conversion tokens
    · exact lays_stuck _
  · exact lays_stuck _

/-! ### Elements -/

theorem splatElement_leaves (place : Place) (tokens : List Token) :
    Leaves (behind tokens) (splatElement n place tokens) := by
  refine lays_after (takeSymbol_leaves _ tokens) fun _ tokens => ?_
  refine lays_after (pass_leaves _ _ tokens) fun _ tokens => ?_
  exact lays_past (h.expression _ _ tokens) fun _ rest => leaves_all _ rest

theorem doubleSplatElement_leaves (place : Place) (tokens : List Token) :
    Leaves (behind tokens) (doubleSplatElement n place tokens) := by
  refine lays_after (takeSymbol_leaves _ tokens) fun _ tokens => ?_
  refine lays_after (pass_leaves _ _ tokens) fun _ tokens => ?_
  exact lays_past (h.expression _ _ tokens) fun _ rest => leaves_all _ rest

omit h in
theorem endsElement_leaves (place : Place) (closer : Symbol) {room : List Position}
    {reading : Except Stuck (Phrase × List Token)} (hr : Leaves room reading) :
    Leaves room (endsElement place closer reading) := by
  refine lays_after hr fun value rest => ?_
  dsimp only
  split
  · split
    · exact leaves_all _ rest
    · exact lays_stuck _
  · exact lays_stuck _

theorem parenthesizedSplat_leaves (place : Place) (tokens : List Token) :
    Leaves (behind tokens) (parenthesizedSplat n place tokens) := by
  refine lays_after (takeSymbol_leaves _ tokens) fun _ tokens => ?_
  refine lays_after (pass_leaves _ _ tokens) fun _ tokens => ?_
  refine lays_past (behind_splitStar tokens ▸ splatElement_leaves h _ _) fun _ tokens => ?_
  exact lays_after (passCloser_leaves _ _ _ tokens) fun _ rest => leaves_all _ rest

theorem starredElement_leaves (place : Place) (closer : Symbol) (tokens : List Token) :
    Leaves (behind tokens) (starredElement n place closer tokens) := by
  have hplain := h.expression place {} tokens
  have hsplat : Leaves (behind tokens) (splatElement n place (splitStar tokens)) :=
    behind_splitStar tokens ▸ splatElement_leaves h _ _
  have hparenthesized := parenthesizedSplat_leaves h place tokens
  unfold starredElement
  split
  · split
    · exact lays_either (endsElement_leaves place closer hsplat) hplain
    · split
      · exact lays_either (endsElement_leaves place closer hparenthesized) hplain
      · exact hplain
  · exact lays_stuck _

theorem element_leaves (place : Place) (closer : Symbol) (tokens : List Token) :
    Leaves (behind tokens) (element n place closer tokens) := by
  unfold element
  split
  · split
    · exact yieldPhrase_leaves h place _
    · exact starredElement_leaves h place closer _
  · exact lays_stuck _

omit h in
theorem moreElements_leaves {item : Reader Phrase}
    (hitem : ∀ tokens, Leaves (places tokens) (item tokens)) (place : Place) (closer : Symbol)
    (fuel : Nat) :
    ∀ items tokens, Leaves (places tokens) (moreElements item place closer fuel items tokens) := by
  induction fuel with
  | zero => exact fun _ tokens => lays_stuck tokens
  | succ fuel ih =>
    intro items tokens
    refine lays_after (pass_leaves _ _ tokens) fun before tokens => ?_
    dsimp only
    split
    · split
      · refine lays_tail (lays_after (pass_leaves _ _ _) fun _ tokens => ?_)
        dsimp only
        split
        · split
          · exact lays_tail (leaves_all _ _)
          · exact lays_after (hitem _) fun _ rest => ih _ rest
        · exact lays_stuck _
      · exact lays_past (takeCloser_leaves _ _) fun _ rest => leaves_all _ rest
    · exact lays_stuck _

theorem argument_leaves (place : Place) (tokens : List Token) :
    Leaves (behind tokens) (argument n place tokens) := by
  unfold argument
  split
  · split
    · exact doubleSplatElement_leaves h place _
    · split
      · refine lays_taken ?_
        refine lays_after (passSymbol_leaves _ _ _ _) fun _ tokens => ?_
        refine lays_after (pass_leaves _ _ tokens) fun _ tokens => ?_
        exact lays_past (h.expression _ _ tokens) fun _ rest => leaves_all _ rest
      · exact starredElement_leaves h place _ _
  · exact lays_stuck _

/-! ### Clauses of comprehensions -/

theorem moreTargets_leaves (place : Place) (fuel : Nat) :
    ∀ comma items tokens, Leaves (places tokens) (moreTargets n place fuel comma items tokens) := by
  induction fuel with
  | zero => exact fun comma items tokens => leaves_all _ tokens
  | succ fuel ih =>
    intro comma items tokens
    unfold moreTargets
    split
    · next before token rest hahead =>
      split
      · refine lays_beyond hahead ?_
        split
        · next between next rest' hnext =>
          split
          · refine lays_ahead hnext ?_
            refine lays_past (h.operand _ _ _) fun item rest => ?_
            dsimp only
            split
            · exact ih _ _ rest
            · exact lays_stuck _
          · exact leaves_all _ _
        · exact leaves_all _ _
      · exact leaves_all _ _
    · exact leaves_all _ _

theorem targets_leaves (place : Place) (tokens : List Token) :
    Leaves (behind tokens) (targets n place tokens) := by
  refine lays_after (h.operand place 22 tokens) fun first rest => ?_
  dsimp only
  split
  · exact lays_stuck _
  · refine lays_after (moreTargets_leaves h place _ _ _ rest) fun found rest => ?_
    dsimp only
    split
    · exact leaves_all _ rest
    · exact leaves_all _ rest

theorem skipIterables_leaves (place : Place) (fuel : Nat) :
    ∀ tokens, Leaves (places tokens) (skipIterables n place fuel tokens) := by
  induction fuel with
  | zero => exact fun tokens => leaves_all _ tokens
  | succ fuel ih =>
    intro tokens
    unfold skipIterables
    split
    · next before token rest hahead =>
      split
      · refine lays_beyond hahead ?_
        split
        · next between next rest' hnext =>
          split
          · refine lays_ahead hnext ?_
            exact lays_past (h.expression _ _ _) fun _ rest => ih rest
          · exact leaves_all _ _
        · exact leaves_all _ _
      · exact leaves_all _ _
    · exact leaves_all _ _

theorem clause_leaves (indent : Nat) (tokens : List Token) :
    Leaves (behind tokens) (clause n indent tokens) := by
  unfold clause
  split
  · next token rest =>
    split
    · refine lays_taken (lays_after (pass_leaves _ _ _) fun _ tokens => ?_)
      exact lays_past (h.expression _ _ tokens) fun _ rest => leaves_all _ rest
    · extract_lets place tail
      have htail (found : List Phrase) (rest : List Token) :
          Leaves (places rest) (tail (found, rest)) := by
        refine lays_after (pass_leaves _ _ rest) fun _ tokens => ?_
        refine lays_past (targets_leaves h _ tokens) fun target tokens => ?_
        refine lays_after (passWord_leaves _ _ _ tokens) fun _ tokens => ?_
        refine lays_after (pass_leaves _ _ tokens) fun _ tokens => ?_
        refine lays_past (h.expression _ _ tokens) fun iter tokens => ?_
        exact lays_after (skipIterables_leaves h _ _ tokens) fun _ rest => leaves_all _ rest
      split
      · exact lays_taken (lays_after (passWord_leaves _ _ _ _) htail)
      · refine lays_after (takeWord_leaves _ _) fun _ rest => ?_
        exact lays_after (leaves_all _ rest) htail
  · exact lays_stuck _

theorem clauses_leaves (indent : Nat) (fuel : Nat) :
    ∀ found tokens, Leaves (places tokens) (clauses n indent fuel found tokens) := by
  induction fuel with
  | zero => exact fun _ tokens => lays_stuck tokens
  | succ fuel ih =>
    intro found tokens
    unfold clauses
    split
    · refine lays_after (pass_leaves _ _ tokens) fun _ tokens => ?_
      exact lays_past (clause_leaves h _ tokens) fun _ rest => ih _ rest
    · exact leaves_all _ _

theorem comprehension_leaves (indent : Nat) (kind : ComprehensionKind) (body : Phrase)
    (closer : Symbol) (tokens : List Token) :
    Leaves (places tokens) (comprehension n indent kind body closer tokens) := by
  refine lays_after (clauses_leaves h indent _ _ tokens) fun found tokens => ?_
  exact lays_after (passCloser_leaves _ _ _ tokens) fun _ rest => leaves_all _ rest

/-! ### Trailers -/

theorem arguments_leaves (indent : Nat) (allowClauses : Bool) (tokens : List Token) :
    Leaves (places tokens) (arguments n indent allowClauses tokens) := by
  refine lays_after (pass_leaves _ _ tokens) fun before tokens => ?_
  dsimp only
  split
  · split
    · exact lays_tail (leaves_all _ _)
    · split
      · refine lays_tail ?_
        exact lays_after (passCloser_leaves _ _ _ _) fun _ rest => leaves_all _ rest
      · -- a single generator is read again as an expression
        refine lays_weaken (lays_look (argument_leaves h _ _) fun first after hafter => ?_)
        dsimp only
        split
        · refine lays_after (h.expression _ _ _) fun body rest => ?_
          exact lays_after (comprehension_leaves h _ _ _ _ rest) fun _ rest => leaves_all _ rest
        · have hargument := fun tokens => lays_weaken (argument_leaves h ⟨indent, closerNext⟩ tokens)
          exact lays_mono hafter (moreElements_leaves hargument _ _ _ _ after)
  · exact lays_stuck _

theorem slicePart_leaves (indent : Nat) (tokens : List Token) :
    Leaves (places tokens) (slicePart n indent tokens) := by
  unfold slicePart
  split
  · next before token rest hahead =>
    split
    · exact lays_ahead hahead (leaves_all _ _)
    · split
      · refine lays_ahead hahead ?_
        exact lays_past (h.expression _ _ _) fun _ rest => leaves_all _ rest
      · exact leaves_all _ _
  · exact leaves_all _ _

theorem sliceTail_leaves (indent : Nat) (lower : List Phrase) (tokens : List Token) :
    Leaves (places tokens) (sliceTail n indent lower tokens) := by
  refine lays_after (passSymbol_leaves _ _ _ tokens) fun between tokens => ?_
  refine lays_after (slicePart_leaves h _ tokens) fun upper tokens => ?_
  dsimp only
  split
  · refine lays_after (passSymbol_leaves _ _ _ tokens) fun _ tokens => ?_
    exact lays_after (slicePart_leaves h _ tokens) fun _ rest => leaves_all _ rest
  · exact leaves_all _ _

theorem index_leaves (indent : Nat) (tokens : List Token) :
    Leaves (places tokens) (index n indent tokens) := by
  unfold index
  split
  · split
    · exact sliceTail_leaves h _ _ _
    · refine lays_past (h.expression _ _ _) fun value rest => ?_
      dsimp only
      split
      · exact sliceTail_leaves h _ _ rest
      · exact leaves_all _ rest
  · exact lays_stuck _

theorem trailer_leaves (indent : Nat) (value : Phrase) (tokens : List Token) :
    Leaves (behind tokens) (trailer n indent value tokens) := by
  unfold trailer
  split
  · split
    · exact lays_taken (lays_after (passName_leaves _ _ _) fun _ rest => leaves_all _ rest)
    · split
      · exact lays_taken (lays_after (arguments_leaves h _ _ _) fun _ rest => leaves_all _ rest)
      · split
        · refine lays_taken (lays_after (pass_leaves _ _ _) fun _ tokens => ?_)
          refine lays_after (index_leaves h _ tokens) fun first tokens => ?_
          have hindices := moreElements_leaves (index_leaves h indent) ⟨indent, closerNext⟩ .rbracket
          exact lays_after (hindices _ _ tokens) fun _ rest => leaves_all _ rest
        · exact lays_stuck _
  · exact lays_stuck _

theorem trailers_leaves (place : Place) (more : Phrase → Bool) (fuel : Nat) :
    ∀ value tokens, Leaves (places tokens) (trailers n place more fuel value tokens) := by
  induction fuel with
  | zero => exact fun value tokens => leaves_all value tokens
  | succ fuel ih =>
    intro value tokens
    unfold trailers
    split
    · split
      · next before token rest hahead =>
        split
        · refine lays_ahead hahead ?_
          exact lays_past (trailer_leaves h _ _ _) fun _ rest => ih _ rest
        · exact leaves_all _ _
      · exact leaves_all _ _
    · exact leaves_all _ _

/-! ### Brackets -/

theorem moreOfElements_leaves (place : Place) (closer : Symbol) (fuel : Nat) (items : List Phrase)
    (tokens : List Token) :
    Leaves (places tokens) (moreElements (element n place closer) place closer fuel items tokens) :=
  moreElements_leaves (fun tokens => lays_weaken (element_leaves h place closer tokens)) _ _ _ _ tokens

theorem parenthesis_leaves (indent : Nat) (tokens : List Token) :
    Leaves (places tokens) (parenthesis n indent tokens) := by
  refine lays_after (pass_leaves _ _ tokens) fun before tokens => ?_
  dsimp only
  split
  · split
    · exact lays_tail (leaves_all _ _)
    · -- what stands behind the first element decides how it is read, perhaps once more
      refine lays_weaken (lays_look (element_leaves h _ _ _) fun first after hafter => ?_)
      refine lays_look (lays_mono hafter (pass_leaves _ _ after)) fun between next hnext => ?_
      have htaken := takeCloser_leaves .rparen next
      dsimp only
      split
      · split
        · refine lays_mono hafter ?_
          exact lays_after (moreOfElements_leaves h _ _ _ _ after) fun _ rest => leaves_all _ rest
        · split
          · exact lays_mono hafter (comprehension_leaves h _ _ _ _ after)
          · split
            · refine lays_either ?_ ?_
              · refine lays_after (h.expression _ _ _) fun value rest => ?_
                exact lays_after (passCloser_leaves _ _ _ rest) fun _ rest => leaves_all _ rest
              · exact lays_mono hnext (lays_past htaken fun _ rest => leaves_all _ rest)
            · exact lays_mono hnext (lays_past htaken fun _ rest => leaves_all _ rest)
      · exact lays_stuck _
  · exact lays_stuck _

theorem brackets_leaves (indent : Nat) (tokens : List Token) :
    Leaves (places tokens) (brackets n indent tokens) := by
  refine lays_after (pass_leaves _ _ tokens) fun before tokens => ?_
  dsimp only
  split
  · split
    · exact lays_tail (leaves_all _ _)
    · refine lays_past (element_leaves h _ _ _) fun first tokens => ?_
      dsimp only
      split
      · exact comprehension_leaves h _ _ _ _ tokens
      · exact lays_after (moreOfElements_leaves h _ _ _ _ tokens) fun _ rest => leaves_all _ rest
  · exact lays_stuck _

theorem pairTail_leaves (indent : Nat) (key : Phrase) (tokens : List Token) :
    Leaves (places tokens) (pairTail n indent key tokens) := by
  refine lays_after (passSymbol_leaves _ _ _ tokens) fun _ tokens => ?_
  refine lays_after (pass_leaves _ _ tokens) fun _ tokens => ?_
  exact lays_past (h.expression _ _ tokens) fun _ rest => leaves_all _ rest

theorem entry_leaves (indent : Nat) (tokens : List Token) :
    Leaves (behind tokens) (entry n indent tokens) := by
  unfold entry
  split
  · split
    · exact doubleSplatElement_leaves h _ _
    · exact lays_after (h.expression _ _ _) fun key rest => pairTail_leaves h _ key rest
  · exact lays_stuck _

theorem moreEntries_leaves (indent : Nat) (place : Place) (closer : Symbol) (fuel : Nat)
    (items : List Phrase) (tokens : List Token) :
    Leaves (places tokens) (moreElements (entry n indent) place closer fuel items tokens) :=
  moreElements_leaves (fun tokens => lays_weaken (entry_leaves h indent tokens)) _ _ _ _ tokens

theorem braces_leaves (indent : Nat) (tokens : List Token) :
    Leaves (places tokens) (braces n indent tokens) := by
  refine lays_after (pass_leaves _ _ tokens) fun before tokens => ?_
  dsimp only
  split
  · split
    · exact lays_tail (leaves_all _ _)
    · split
      · refine lays_tail ?_
        exact lays_after (passCloser_leaves _ _ _ _) fun _ rest => leaves_all _ rest
      · split
        · refine lays_past (entry_leaves h _ _) fun first tokens => ?_
          exact lays_after (moreEntries_leaves h _ _ _ _ _ tokens) fun _ rest => leaves_all _ rest
        · -- behind a colon, the first element is read again as an entry
          refine lays_weaken (lays_look (element_leaves h _ _ _) fun first after hafter => ?_)
          dsimp only
          split
          · refine lays_after (entry_leaves h _ _) fun pair after => ?_
            dsimp only
            split
            · exact comprehension_leaves h _ _ _ _ after
            · exact lays_after (moreEntries_leaves h _ _ _ _ _ after) fun _ rest => leaves_all _ rest
          · split
            · exact lays_mono hafter (comprehension_leaves h _ _ _ _ after)
            · refine lays_mono hafter ?_
              exact lays_after (moreOfElements_leaves h _ _ _ _ after) fun _ rest => leaves_all _ rest
  · exact lays_stuck _

/-! ### Operands -/

theorem atom_leaves (place : Place) (tokens : List Token) :
    Leaves (behind tokens) (atom n place tokens) := by
  unfold atom
  split
  · split
    · split
      · exact lays_taken (leaves_all _ _)
      · exact lays_taken (leaves_all _ _)
    · exact lays_taken (leaves_all _ _)
    · exact lays_taken (leaves_all _ _)
    · exact strings_leaves h place _
    · exact lays_taken (leaves_all _ _)
    · exact lays_taken (parenthesis_leaves h _ _)
    · exact lays_taken (brackets_leaves h _ _)
    · exact lays_taken (braces_leaves h _ _)
    · exact lays_stuck _
  · exact lays_stuck _

theorem starred_leaves (place : Place) (tokens : List Token) :
    Leaves (behind tokens) (starred n place tokens) := by
  refine lays_after (takeSymbol_leaves _ tokens) fun _ tokens => ?_
  refine lays_after (pass_leaves _ _ tokens) fun between tokens => ?_
  refine lays_after (lays_weaken ?base) fun value tokens => ?_
  case base =>
    split
    · split
      · exact h.operand _ _ _
      · exact atom_leaves h _ _
    · exact lays_stuck _
  refine lays_after (trailers_leaves h _ _ _ _ tokens) fun value tokens => ?_
  dsimp only
  split
  · exact leaves_all _ tokens
  · exact lays_stuck _

theorem primary_leaves (place : Place) (tokens : List Token) :
    Leaves (behind tokens) (primary n place tokens) := by
  unfold primary
  extract_lets tail
  have htail (value : Phrase) (rest : List Token) : Leaves (places rest) (tail (value, rest)) :=
    trailers_leaves h _ _ _ value rest
  split
  · split
    · exact lays_after (behind_splitStar _ ▸ starred_leaves h place _) htail
    · exact lays_after (atom_leaves h place _) htail
  · exact lays_after (lays_stuck _) htail

theorem binaryTail_leaves (place : Place) (least : Nat) (fuel : Nat) :
    ∀ left tokens, Leaves (places tokens) (binaryTail n place least fuel left tokens) := by
  induction fuel with
  | zero => exact fun left tokens => leaves_all left tokens
  | succ fuel ih =>
    intro left tokens
    unfold binaryTail
    split
    · next before token rest hahead =>
      split
      · split
        · refine lays_beyond hahead ?_
          refine lays_after (pass_leaves _ _ _) fun _ tokens => ?_
          exact lays_past (h.operand _ _ tokens) fun _ rest => ih _ rest
        · exact leaves_all _ _
      · exact leaves_all _ _
    · exact leaves_all _ _

theorem operand_leaves (place : Place) (least : Nat) (tokens : List Token) :
    Leaves (behind tokens) (operand n place least tokens) := by
  unfold operand
  split
  · split
    · split
      · refine lays_taken (lays_after (pass_leaves _ _ _) fun _ tokens => ?_)
        exact lays_past (h.operand _ _ tokens) fun _ rest => binaryTail_leaves h _ _ _ _ rest
      · exact lays_stuck _
    · split
      · refine lays_taken (lays_after (pass_leaves _ _ _) fun _ tokens => ?_)
        exact lays_past (h.operand _ _ tokens) fun _ rest => binaryTail_leaves h _ _ _ _ rest
      · exact lays_after (primary_leaves h _ _) fun _ rest => binaryTail_leaves h _ _ _ _ rest
  · exact lays_stuck _

/-! ### Expressions -/

omit h in
/-- What stands behind a comparison operator of two words is behind both of them. -/
theorem comparisonOp?_sublist {place : Place} {token : Token} {rest found : List Token} {op : CmpOp}
    (hop : comparisonOp? place (token :: rest) = some (op, found)) :
    (places found).Sublist (places rest) := by
  unfold comparisonOp? at hop
  dsimp only at hop
  have hbeyond {indent : Nat} {viable : Viable} {parts : List Phrase} {next : Token}
      {others : List Token} (hnext : ahead indent viable rest = some (parts, next, others)) :
      (places others).Sublist (places rest) :=
    (tail_sublist next others).trans (ahead_sublist hnext)
  split at hop
  case h_8 =>
    split at hop
    · cases hop
      exact .refl _
    · split at hop
      · split at hop
        · next hnext =>
          split at hop
          · cases hop
            exact hbeyond hnext
          · cases hop
        · cases hop
      · split at hop
        · split at hop
          · next hnext =>
            split at hop
            · cases hop
              exact hbeyond hnext
            · cases hop
              exact .refl _
          · cases hop
            exact .refl _
        · cases hop
  case h_9 => cases hop
  all_goals
    cases hop
    exact .refl _

theorem comparisonTail_leaves (place : Place) (fuel : Nat) :
    ∀ broken links tokens,
      Leaves (places tokens) (comparisonTail n place fuel broken links tokens) := by
  induction fuel with
  | zero => exact fun broken links tokens => leaves_all _ tokens
  | succ fuel ih =>
    intro broken links tokens
    unfold comparisonTail
    split
    · next before token rest hahead =>
      split
      · next op rest' hop =>
        refine lays_beyond hahead (lays_mono (comparisonOp?_sublist hop) ?_)
        refine lays_after (pass_leaves _ _ _) fun _ tokens => ?_
        exact lays_past (h.operand _ _ tokens) fun _ rest => ih _ _ rest
      · exact leaves_all _ _
    · exact leaves_all _ _

theorem comparison_leaves (place : Place) (tokens : List Token) :
    Leaves (behind tokens) (comparison n place tokens) := by
  refine lays_after (operand_leaves h _ _ tokens) fun left tokens => ?_
  refine lays_after (comparisonTail_leaves h _ _ _ _ tokens) fun found rest => ?_
  dsimp only
  split
  · exact leaves_all _ rest
  · exact leaves_all _ rest

theorem starredParameter_leaves (place : Place) (typed : Bool) (first tokens : List Token) :
    Leaves (places tokens) (starredParameter n place typed first tokens) := by
  refine lays_after (pass_leaves _ _ tokens) fun _ tokens => ?_
  refine lays_past (h.operand _ _ tokens) fun value tokens => ?_
  dsimp only
  split
  · split
    · refine lays_after (passSymbol_leaves _ _ _ tokens) fun _ tokens => ?_
      refine lays_after (pass_leaves _ _ tokens) fun _ tokens => ?_
      exact lays_past (h.type _ _ tokens) fun _ rest => leaves_all _ rest
    · exact leaves_all _ tokens
  · exact lays_stuck _

theorem parameterTail_leaves (place : Place) (typed : Bool) (text : String) (tokens : List Token) :
    Leaves (places tokens) (parameterTail n place typed text tokens) := by
  unfold parameterTail
  extract_lets tail
  have htail (found : Unit) (rest : List Token) : Leaves (places rest) (tail (found, rest)) := by
    unfold tail
    dsimp only
    split
    · refine lays_after (passSymbol_leaves _ _ _ rest) fun _ tokens => ?_
      refine lays_after (pass_leaves _ _ tokens) fun _ tokens => ?_
      exact lays_past (h.expression _ _ tokens) fun _ rest => leaves_all _ rest
    · exact leaves_all _ rest
  split
  · refine lays_after (passSymbol_leaves _ _ _ _) fun _ tokens => ?_
    refine lays_after (pass_leaves _ _ tokens) fun _ tokens => ?_
    refine lays_past (h.type _ _ tokens) fun _ rest => ?_
    exact lays_after (leaves_all _ rest) htail
  · exact lays_after (leaves_all _ _) htail

theorem parameter_leaves (place : Place) (typed : Bool) (tokens : List Token) :
    Leaves (behind tokens) (parameter n place typed tokens) := by
  unfold parameter
  split
  · split
    · exact lays_taken (parameterTail_leaves h _ _ _ _)
    · split
      · split
        · exact lays_taken (starredParameter_leaves h _ _ _ _)
        · exact lays_taken (leaves_all _ _)
      · exact lays_taken (leaves_all _ _)
    · exact lays_taken (starredParameter_leaves h _ _ _ _)
    · exact lays_taken (leaves_all _ _)
    · refine lays_after (h.operand _ _ _) fun value after => ?_
      dsimp only
      split
      · refine lays_after (parameterTail_leaves h _ _ _ after) fun found rest => ?_
        dsimp only
        split
        · exact leaves_all _ rest
        · exact leaves_all _ rest
      · exact lays_stuck _
    · exact lays_stuck _
  · exact lays_stuck _

theorem parameters_leaves (place : Place) (typed : Bool) (ends : Symbol) (fuel : Nat) :
    ∀ found tokens, Leaves (places tokens) (parameters n place typed ends fuel found tokens) := by
  induction fuel with
  | zero => exact fun _ tokens => lays_stuck tokens
  | succ fuel ih =>
    intro found tokens
    refine lays_past (parameter_leaves h _ _ tokens) fun next tokens => ?_
    dsimp only
    split
    · refine lays_after (passSymbol_leaves _ _ _ tokens) fun _ tokens => ?_
      refine lays_after (pass_leaves _ _ tokens) fun _ tokens => ?_
      dsimp only
      split
      · split
        · exact leaves_all _ _
        · exact ih _ _
      · exact lays_stuck _
    · exact leaves_all _ tokens

theorem lambda_leaves (place : Place) (level : Level) (tokens : List Token) :
    Leaves (behind tokens) (lambda n place level tokens) := by
  refine lays_after (takeWord_leaves _ tokens) fun _ tokens => ?_
  refine lays_after (pass_leaves _ _ tokens) fun _ tokens => ?_
  dsimp -zeta only
  extract_lets tail
  have htail (params : List Parameter) (rest : List Token) :
      Leaves (places rest) (tail (params, rest)) := by
    refine lays_after (passSymbol_leaves _ _ _ rest) fun _ tokens => ?_
    refine lays_after (pass_leaves _ _ tokens) fun _ tokens => ?_
    exact lays_past (h.expression _ _ tokens) fun _ rest => leaves_all _ rest
  split
  · split
    · exact lays_after (leaves_all _ _) htail
    · exact lays_after (parameters_leaves h _ _ _ _ _ _) htail
  · exact lays_after (lays_stuck _) htail

theorem simpleExpression_leaves (place : Place) (level : Level) (tokens : List Token) :
    Leaves (behind tokens) (simpleExpression n place level tokens) := by
  unfold simpleExpression
  split
  · split
    · refine lays_taken (lays_after (pass_leaves _ _ _) fun _ tokens => ?_)
      exact lays_past (h.expression _ _ tokens) fun _ rest => leaves_all _ rest
    · split
      · exact lambda_leaves h _ _ _
      · split
        · refine lays_taken (lays_after (passSymbol_leaves _ _ _ _) fun _ tokens => ?_)
          refine lays_after (pass_leaves _ _ tokens) fun _ tokens => ?_
          exact lays_past (h.expression _ _ tokens) fun _ rest => leaves_all _ rest
        · exact comparison_leaves h _ _
  · exact lays_stuck _

theorem infixTail_leaves (place : Place) (level : Level) (fuel : Nat) :
    ∀ left tokens, Leaves (places tokens) (infixTail n place level fuel left tokens) := by
  induction fuel with
  | zero => exact fun left tokens => leaves_all left tokens
  | succ fuel ih =>
    intro left tokens
    unfold infixTail
    split
    · next before token rest hahead =>
      split
      · refine lays_beyond hahead (lays_after (pass_leaves _ _ _) fun _ tokens => ?_)
        exact lays_past (h.expression _ _ tokens) fun _ rest => ih _ rest
      · split
        · refine lays_beyond hahead (lays_after (pass_leaves _ _ _) fun _ tokens => ?_)
          exact lays_past (h.expression _ _ tokens) fun _ rest => ih _ rest
        · split
          · refine lays_beyond hahead (lays_after (pass_leaves _ _ _) fun _ tokens => ?_)
            refine lays_past (h.expression _ _ tokens) fun _ tokens => ?_
            refine lays_after (passWord_leaves _ _ _ tokens) fun _ tokens => ?_
            refine lays_after (pass_leaves _ _ tokens) fun _ tokens => ?_
            exact lays_past (h.expression _ _ tokens) fun _ rest => ih _ rest
          · split
            · refine lays_beyond hahead (lays_after (pass_leaves _ _ _) fun _ tokens => ?_)
              exact lays_past (h.expression _ _ tokens) fun _ rest => ih _ rest
            · exact leaves_all _ _
    · exact leaves_all _ _

theorem expression_leaves (place : Place) (level : Level) (tokens : List Token) :
    Leaves (behind tokens) (expression n place level tokens) :=
  lays_after (simpleExpression_leaves h place level tokens) fun left rest =>
    infixTail_leaves h place level _ left rest

/-! ### Types -/

theorem typeArguments_leaves (indent : Nat) (tokens : List Token) :
    Leaves (behind tokens) (typeArguments n indent tokens) := by
  have htype (tokens : List Token) :
      Leaves (places tokens) (n.type ⟨indent, closerNext⟩ true tokens) :=
    lays_weaken (h.type _ _ tokens)
  refine lays_after (takeSymbol_leaves _ tokens) fun _ tokens => ?_
  refine lays_after (pass_leaves _ _ tokens) fun _ tokens => ?_
  refine lays_after (htype tokens) fun first tokens => ?_
  exact lays_after (moreElements_leaves htype _ _ _ _ tokens) fun _ rest => leaves_all _ rest

theorem typeTail_leaves (place : Place) (colon : Bool) (fuel : Nat) :
    ∀ left tokens, Leaves (places tokens) (typeTail n place colon fuel left tokens) := by
  induction fuel with
  | zero => exact fun left tokens => leaves_all _ tokens
  | succ fuel ih =>
    rintro ⟨left, plain⟩ tokens
    unfold typeTail
    split
    · next before token rest hahead =>
      split
      · refine lays_beyond hahead (lays_after (pass_leaves _ _ _) fun _ tokens => ?_)
        exact lays_past (h.type _ _ tokens) fun _ rest => ih _ rest
      · split
        · exact lays_beyond hahead (lays_after (passName_leaves _ _ _) fun _ rest => ih _ rest)
        · split
          · refine lays_beyond hahead (lays_after (pass_leaves _ _ _) fun _ tokens => ?_)
            exact lays_past (h.type _ _ tokens) fun _ rest => leaves_all _ rest
          · exact leaves_all _ _
    · exact leaves_all _ _

omit h in
theorem splatType_leaves (place : Place) (tokens : List Token) :
    Leaves (behind tokens) (splatType place tokens) := by
  unfold splatType
  split
  · split
    · refine lays_taken (lays_after (passName_leaves _ _ _) fun _ tokens => ?_)
      dsimp only
      split
      · split
        · exact lays_stuck _
        · exact leaves_all _ tokens
      · exact leaves_all _ tokens
    · exact lays_stuck _
  · exact lays_stuck _

theorem type_leaves (place : Place) (colon : Bool) (tokens : List Token) :
    Leaves (behind tokens) (type n place colon tokens) := by
  have hsplat := splatType_leaves place tokens
  unfold type
  extract_lets generic
  split
  · refine lays_after (takeName_leaves tokens) fun _ tokens => ?_
    refine lays_after (pass_leaves _ _ tokens) fun _ tokens => ?_
    exact lays_past (typeArguments_leaves h _ tokens) fun _ rest => typeTail_leaves h _ _ _ _ rest
  · split
    · next phrase rest hfound =>
      exact lays_mono (hsplat _ hfound) (typeTail_leaves h _ _ _ _ rest)
    · exact lays_after (h.expression _ _ tokens) fun _ rest => typeTail_leaves h _ _ _ _ rest

end

/-- Readers of nested phrases go onward, whatever the number of levels. -/
theorem nested_onward (levels : Nat) : Onward (nested levels) := by
  induction levels with
  | zero =>
    exact ⟨fun _ _ tokens => lays_stuck tokens, fun _ _ tokens => lays_stuck tokens,
      fun tokens => lays_stuck tokens, fun _ _ tokens => lays_stuck tokens⟩
  | succ levels ih =>
    exact ⟨expression_leaves ih, operand_leaves ih, field_leaves ih, type_leaves ih⟩

end Marksheet.Grammar
