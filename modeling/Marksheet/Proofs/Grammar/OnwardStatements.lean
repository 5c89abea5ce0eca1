import Marksheet.Grammar.Statement
import Marksheet.Proofs.Grammar.OnwardExpressions

/-!
# Patterns and simple statements are read onward

As for expressions, each reader has one lemma about the places of the tokens it
leaves. A simple statement always takes its first token, so the place where it
begins comes before everything that is left behind it.
-/

namespace Marksheet.Grammar

open Marksheet.Source Marksheet.Syntax

/-! ### Patterns -/

theorem dottedTail_leaves (place : Place) (fuel : Nat) :
    ∀ tokens, Leaves (places tokens) (dottedTail place fuel tokens) := by
  induction fuel with
  | zero => exact fun tokens => leaves_all _ tokens
  | succ fuel ih =>
    intro tokens
    unfold dottedTail
    split
    · refine lays_after (passSymbol_leaves _ _ _ tokens) fun _ tokens => ?_
      exact lays_after (passName_leaves _ _ tokens) fun _ rest => ih rest
    · exact leaves_all _ tokens

theorem dottedName_leaves (place : Place) (tokens : List Token) :
    Leaves (behind tokens) (dottedName place tokens) :=
  lays_after (takeName_leaves tokens) fun _ rest => dottedTail_leaves place _ rest

/-- A reader of patterns goes onward. -/
def SkipsOnward (item : Skipper) : Prop :=
  ∀ place tokens, Leaves (places tokens) (item place tokens)

theorem skipItems_leaves {item : Skipper} (hitem : SkipsOnward item) (indent : Nat)
    (closer : Symbol) (tokens : List Token) :
    Leaves (places tokens) (skipItems item indent closer tokens) := by
  refine lays_after (pass_leaves _ _ tokens) fun _ tokens => ?_
  dsimp only
  split
  · split
    · exact lays_tail (leaves_all _ _)
    · refine lays_after (hitem _ _) fun _ tokens => ?_
      refine lays_after (moreElements_leaves (fun tokens => ?_) _ _ _ _ tokens) fun _ rest =>
        leaves_all _ rest
      exact lays_after (hitem _ tokens) fun _ rest => leaves_all _ rest
  · exact lays_stuck _

theorem numberPattern_leaves (place : Place) (tokens : List Token) :
    Leaves (places tokens) (numberPattern place tokens) := by
  unfold numberPattern
  split
  · split
    · refine lays_tail ?_
      split
      · next before sign rest hahead =>
        split
        · refine lays_beyond hahead (lays_after (pass_leaves _ _ _) fun _ tokens => ?_)
          dsimp only
          split
          · split
            · exact lays_tail (leaves_all _ _)
            · exact lays_stuck _
          · exact lays_stuck _
        · exact leaves_all _ _
      · exact leaves_all _ _
    · exact lays_stuck _
  · exact lays_stuck _

section

variable {n : Nested} (h : Onward n)
include h

section

variable {pattern simple : Skipper} (hpattern : SkipsOnward pattern) (hsimple : SkipsOnward simple)
include hpattern hsimple

theorem closedPattern_leaves : SkipsOnward (closedPattern n pattern simple) := by
  intro place tokens
  unfold closedPattern
  split
  · split
    · exact numberPattern_leaves _ _
    · exact numberPattern_leaves _ _
    · exact lays_tail (lays_after (pass_leaves _ _ _) fun _ rest => numberPattern_leaves _ rest)
    · exact lays_tail (lays_after (passName_leaves _ _ _) fun _ rest => leaves_all _ rest)
    · exact lays_tail (lays_after (passName_leaves _ _ _) fun _ rest => leaves_all _ rest)
    · exact lays_past (strings_leaves h _ _) fun _ rest => leaves_all _ rest
    · exact lays_tail (skipItems_leaves hpattern _ _ _)
    · exact lays_tail (skipItems_leaves hpattern _ _ _)
    · refine lays_tail (skipItems_leaves (fun place tokens => ?_) _ _ _)
      dsimp only
      split
      · split
        · exact lays_tail (lays_after (passName_leaves _ _ _) fun _ rest => leaves_all _ rest)
        · refine lays_after (hsimple _ _) fun _ tokens => ?_
          refine lays_after (passSymbol_leaves _ _ _ tokens) fun _ tokens => ?_
          exact lays_after (pass_leaves _ _ tokens) fun _ rest => hpattern _ rest
      · exact lays_stuck _
    · split
      · exact lays_tail (leaves_all _ _)
      · refine lays_past (dottedName_leaves _ _) fun _ tokens => ?_
        dsimp only
        split
        · refine lays_after (passSymbol_leaves _ _ _ tokens) fun _ rest => ?_
          exact skipItems_leaves hpattern _ _ rest
        · exact leaves_all _ tokens
    · exact lays_stuck _
  · exact lays_stuck _

omit h hpattern hsimple in
theorem alternatives_leaves {closed : Skipper} (hclosed : SkipsOnward closed) (place : Place)
    (fuel : Nat) : ∀ tokens, Leaves (places tokens) (alternatives closed place fuel tokens) := by
  induction fuel with
  | zero => exact fun tokens => leaves_all _ tokens
  | succ fuel ih =>
    intro tokens
    unfold alternatives
    split
    · refine lays_after (passSymbol_leaves _ _ _ tokens) fun _ tokens => ?_
      refine lays_after (pass_leaves _ _ tokens) fun _ tokens => ?_
      exact lays_after (hclosed _ tokens) fun _ rest => ih rest
    · exact leaves_all _ tokens

theorem simplePattern_leaves : SkipsOnward (simplePattern n pattern simple) := by
  intro place tokens
  have hclosed := closedPattern_leaves h hpattern hsimple
  exact lays_after (hclosed place tokens) fun _ rest => alternatives_leaves hclosed place _ rest

omit h hpattern hsimple in
theorem bindings_leaves (place : Place) (fuel : Nat) :
    ∀ tokens, Leaves (places tokens) (bindings place fuel tokens) := by
  induction fuel with
  | zero => exact fun tokens => leaves_all _ tokens
  | succ fuel ih =>
    intro tokens
    unfold bindings
    split
    · refine lays_after (passWord_leaves _ _ _ tokens) fun _ tokens => ?_
      exact lays_after (passName_leaves _ _ tokens) fun _ rest => ih rest
    · exact leaves_all _ tokens

theorem fullPattern_leaves : SkipsOnward (fullPattern n pattern simple) := by
  intro place tokens
  have hbound := simplePattern_leaves h hpattern hsimple
  unfold fullPattern
  split
  · split
    · refine lays_tail (lays_after (passSymbol_leaves _ _ _ _) fun _ tokens => ?_)
      refine lays_after (pass_leaves _ _ tokens) fun _ tokens => ?_
      exact lays_after (hbound _ tokens) fun _ rest => bindings_leaves _ _ rest
    · exact lays_after (hbound _ _) fun _ rest => bindings_leaves _ _ rest
  · exact lays_stuck _

end

theorem patternReaders_leave (levels : Nat) :
    SkipsOnward (patternReaders n levels).1 ∧ SkipsOnward (patternReaders n levels).2 := by
  induction levels with
  | zero => exact ⟨fun _ tokens => lays_stuck tokens, fun _ tokens => lays_stuck tokens⟩
  | succ levels ih =>
    exact ⟨fullPattern_leaves h ih.1 ih.2, simplePattern_leaves h ih.1 ih.2⟩

theorem casePatterns_leaves (place : Place) (levels fuel : Nat) :
    ∀ tokens, Leaves (places tokens) (casePatterns n place levels fuel tokens) := by
  induction fuel with
  | zero => exact fun tokens => lays_stuck tokens
  | succ fuel ih =>
    intro tokens
    refine lays_after ((patternReaders_leave h levels).1 place tokens) fun _ tokens => ?_
    dsimp only
    split
    · refine lays_after (passSymbol_leaves _ _ _ tokens) fun _ tokens => ?_
      refine lays_after (pass_leaves _ _ tokens) fun _ tokens => ?_
      dsimp only
      split
      · split
        · exact leaves_all _ _
        · exact ih _
      · exact lays_stuck _
    · exact leaves_all _ tokens

/-! ### Assignments and expressions -/

omit h in
theorem complete_leaves {α : Type} (indent : Nat) {room : List Position}
    {reading : Except Stuck (α × List Token)} (hr : Leaves room reading) :
    Leaves room (complete indent reading) := by
  refine lays_after hr fun value rest => ?_
  dsimp only
  split
  · exact leaves_all _ rest
  · split
    · exact lays_stuck _
    · exact lays_stuck _

theorem assignmentTail_leaves (indent : Nat) {value : Reader Phrase}
    (hvalue : ∀ tokens, Leaves (behind tokens) (value tokens)) (target : Phrase)
    (tokens : List Token) :
    Leaves (behind tokens) (assignmentTail n indent value target tokens) := by
  unfold assignmentTail
  split
  · split
    · refine lays_taken (lays_after (pass_leaves _ _ _) fun _ tokens => ?_)
      exact lays_past (hvalue tokens) fun _ rest => leaves_all _ rest
    · refine lays_taken (lays_after (pass_leaves _ _ _) fun _ tokens => ?_)
      exact lays_past (hvalue tokens) fun _ rest => leaves_all _ rest
    · refine lays_taken (lays_after (pass_leaves _ _ _) fun _ tokens => ?_)
      refine lays_past (h.type _ _ tokens) fun _ tokens => ?_
      dsimp only
      split
      · refine lays_after (passSymbol_leaves _ _ _ tokens) fun _ tokens => ?_
        refine lays_after (pass_leaves _ _ tokens) fun _ tokens => ?_
        exact lays_past (hvalue tokens) fun _ rest => leaves_all _ rest
      · exact leaves_all _ tokens
    · exact lays_stuck _
  · exact lays_stuck _

theorem expressionsOrAssignment_leaves (indent : Nat) {value : Reader Phrase}
    (hvalue : ∀ tokens, Leaves (behind tokens) (value tokens)) (tokens : List Token) :
    Leaves (behind tokens) (expressionsOrAssignment n indent value tokens) := by
  unfold expressionsOrAssignment
  split
  · split
    · exact lays_after (yieldPhrase_leaves h _ _) fun _ rest => leaves_all _ rest
    · refine lays_after (expressions_leaves h _ _) fun found after => ?_
      dsimp only
      split
      · next before mark rest hahead =>
        split
        · split
          · refine lays_ahead hahead ?_
            refine lays_past (assignmentTail_leaves h _ hvalue _ _) fun _ rest => ?_
            exact leaves_all _ rest
          · exact lays_stuck _
        · exact leaves_all _ after
      · exact leaves_all _ after
  · exact lays_stuck _

theorem rightSide_leaves (indent levels : Nat) :
    ∀ tokens, Leaves (behind tokens) (rightSide n indent levels tokens) := by
  induction levels with
  | zero => exact fun tokens => lays_stuck tokens
  | succ levels ih =>
    intro tokens
    refine lays_after (expressionsOrAssignment_leaves h indent ih tokens) fun found rest => ?_
    dsimp only
    split
    · exact leaves_all _ rest
    · exact leaves_all _ rest

theorem expressionStatement_leaves (indent : Nat) (tokens : List Token) :
    Leaves (behind tokens) (expressionStatement n indent tokens) := by
  refine lays_after (expressionsOrAssignment_leaves h indent ?_ tokens) fun _ rest =>
    leaves_all _ rest
  exact rightSide_leaves h indent _

/-! ### Imports -/

omit h in
theorem importName_leaves (place : Place) (tokens : List Token) :
    Leaves (places tokens) (importName place tokens) := by
  refine lays_past (dottedName_leaves place tokens) fun _ after => ?_
  dsimp only
  split
  · refine lays_after (passWord_leaves _ _ _ after) fun _ tokens => ?_
    exact lays_after (passName_leaves _ _ tokens) fun _ rest => leaves_all _ rest
  · exact leaves_all _ after

omit h in
theorem importNames_leaves (place : Place) (fuel : Nat) :
    ∀ found tokens, Leaves (places tokens) (importNames place fuel found tokens) := by
  induction fuel with
  | zero => exact fun _ tokens => lays_stuck tokens
  | succ fuel ih =>
    intro found tokens
    refine lays_after (importName_leaves place tokens) fun next tokens => ?_
    dsimp only
    split
    · next before token rest hahead =>
      split
      · refine lays_beyond hahead ?_
        split
        · next between next rest' hnext =>
          split
          · exact lays_ahead hnext (ih _ _)
          · exact leaves_all _ _
        · exact leaves_all _ _
      · exact leaves_all _ tokens
    · exact leaves_all _ tokens

omit h in
theorem importList_leaves (indent : Nat) (tokens : List Token) :
    Leaves (places tokens) (importList indent tokens) := by
  unfold importList
  split
  · split
    · refine lays_tail (lays_after (pass_leaves _ _ _) fun _ tokens => ?_)
      refine lays_after (importNames_leaves _ _ _ tokens) fun _ tokens => ?_
      exact lays_after (passCloser_leaves _ _ _ tokens) fun _ rest => leaves_all _ rest
    · exact importNames_leaves _ _ _ _
  · exact lays_stuck _

omit h in
theorem importDots_leaves (indent : Nat) (fuel : Nat) :
    ∀ found tokens, Leaves (places tokens) (importDots indent fuel found tokens) := by
  induction fuel with
  | zero => exact fun found tokens => leaves_all found tokens
  | succ fuel ih =>
    intro found tokens
    unfold importDots
    split
    · next before token rest hahead =>
      split
      · exact lays_beyond hahead (ih _ _)
      · exact leaves_all _ tokens
    · exact leaves_all _ tokens

omit h in
theorem importModule_leaves (indent : Nat) (tokens : List Token) :
    Leaves (places tokens) (importModule indent tokens) := by
  refine lays_after (importDots_leaves _ _ _ tokens) fun relative after => ?_
  dsimp only
  split
  · exact leaves_all _ after
  · refine lays_after (pass_leaves _ _ after) fun _ after => ?_
    exact lays_past (dottedName_leaves _ after) fun _ rest => leaves_all _ rest

omit h in
theorem importFrom_leaves (indent : Nat) (tokens : List Token) :
    Leaves (places tokens) (importFrom indent tokens) := by
  refine lays_after (importModule_leaves indent tokens) fun module after => ?_
  refine lays_after (passWord_leaves _ _ _ after) fun _ after => ?_
  refine lays_after (pass_leaves _ _ after) fun _ after => ?_
  dsimp only
  split
  · exact lays_after (importList_leaves _ after) fun _ rest => leaves_all _ rest
  · split
    · split
      · exact lays_tail (leaves_all _ _)
      · exact lays_after (importList_leaves _ _) fun _ rest => leaves_all _ rest
    · exact lays_stuck _

/-! ### Statements that begin with a keyword -/

theorem optionalSeries_leaves (indent : Nat) (tokens : List Token) :
    Leaves (places tokens) (optionalSeries n indent tokens) := by
  unfold optionalSeries
  split
  · next before token rest hahead =>
    split
    · refine lays_ahead hahead ?_
      exact lays_past (series_leaves h _ _) fun _ rest => leaves_all _ rest
    · exact leaves_all _ tokens
  · exact leaves_all _ tokens

theorem strictExpressions_leaves (indent : Nat) (fuel : Nat) :
    ∀ found tokens, Leaves (places tokens) (strictExpressions n indent fuel found tokens) := by
  induction fuel with
  | zero => exact fun _ tokens => lays_stuck tokens
  | succ fuel ih =>
    intro found tokens
    refine lays_past (h.expression _ _ tokens) fun next tokens => ?_
    dsimp only
    split
    · next before token rest hahead =>
      split
      · exact lays_beyond hahead (lays_after (pass_leaves _ _ _) fun _ rest => ih _ rest)
      · exact leaves_all _ tokens
    · exact leaves_all _ tokens

omit h in
theorem nameList_leaves (indent : Nat) (fuel : Nat) :
    ∀ found tokens, Leaves (places tokens) (nameList indent fuel found tokens) := by
  induction fuel with
  | zero => exact fun _ tokens => lays_stuck tokens
  | succ fuel ih =>
    intro found tokens
    refine lays_past (takeName_leaves tokens) fun next tokens => ?_
    dsimp only
    split
    · next before token rest hahead =>
      split
      · exact lays_beyond hahead (lays_after (pass_leaves _ _ _) fun _ rest => ih _ rest)
      · exact leaves_all _ tokens
    · exact leaves_all _ tokens

omit h in
theorem names_leaves (indent : Nat) (tokens : List Token) :
    Leaves (places tokens) (names indent tokens) :=
  lays_after (pass_leaves _ _ tokens) fun _ rest => nameList_leaves indent _ _ rest

theorem raiseCause_leaves (indent : Nat) (parts : List Phrase) (tokens : List Token) :
    Leaves (places tokens) (raiseCause n indent parts tokens) := by
  unfold raiseCause
  split
  · next before token rest hahead =>
    split
    · refine lays_beyond hahead (lays_after (pass_leaves _ _ _) fun _ tokens => ?_)
      exact lays_past (h.expression _ _ tokens) fun _ rest => leaves_all _ rest
    · exact leaves_all _ tokens
  · exact leaves_all _ tokens

theorem raise_leaves (indent : Nat) (tokens : List Token) :
    Leaves (places tokens) (raise n indent tokens) := by
  unfold raise
  split
  · exact raiseCause_leaves h _ _ tokens
  · exact lays_after (optionalSeries_leaves h _ tokens) fun _ rest => raiseCause_leaves h _ _ rest

theorem printArguments_leaves (indent : Nat) (fuel : Nat) :
    ∀ tokens, Leaves (places tokens) (printArguments n indent fuel tokens) := by
  induction fuel with
  | zero => exact fun tokens => leaves_all _ tokens
  | succ fuel ih =>
    intro tokens
    unfold printArguments
    split
    · next before token rest hahead =>
      split
      · refine lays_beyond hahead ?_
        split
        · next between next rest' hnext =>
          split
          · refine lays_ahead hnext ?_
            exact lays_past (h.expression _ _ _) fun _ rest => ih rest
          · exact leaves_all _ _
        · exact leaves_all _ _
      · exact leaves_all _ tokens
    · exact leaves_all _ tokens

theorem legacyPrint_leaves (indent : Nat) (tokens : List Token) :
    Leaves (places tokens) (legacyPrint n indent tokens) := by
  refine lays_after (pass_leaves _ _ tokens) fun _ tokens => ?_
  dsimp -zeta only
  extract_lets tail
  have htail (tokens : List Token) : Leaves (places tokens) (tail tokens) := by
    refine lays_past (h.expression _ _ tokens) fun _ tokens => ?_
    exact lays_after (printArguments_leaves h _ _ tokens) fun _ rest => leaves_all _ rest
  split
  · split
    · exact lays_tail (lays_after (pass_leaves _ _ _) fun _ rest => htail rest)
    · exact htail _
  · exact htail _

theorem legacyExec_leaves (indent : Nat) (tokens : List Token) :
    Leaves (places tokens) (legacyExec n indent tokens) := by
  refine lays_after (pass_leaves _ _ tokens) fun _ tokens => ?_
  dsimp -zeta only
  extract_lets tail
  have htail (code : Phrase) (tokens : List Token) :
      Leaves (places tokens) (tail (code, tokens)) := by
    unfold tail
    dsimp only
    split
    · next before token rest hahead =>
      split
      · refine lays_beyond hahead (lays_after (pass_leaves _ _ _) fun _ tokens => ?_)
        exact lays_after (strictExpressions_leaves h _ _ _ tokens) fun _ rest => leaves_all _ rest
      · exact leaves_all _ tokens
    · exact leaves_all _ tokens
  split
  · split
    · exact lays_tail (lays_after (leaves_all _ _) htail)
    · exact lays_past (literal_leaves h _) htail
  · exact lays_after (lays_stuck _) htail

theorem typeAlias_leaves (indent : Nat) (tokens : List Token) :
    Leaves (places tokens) (typeAlias n indent tokens) := by
  refine lays_after (pass_leaves _ _ tokens) fun _ tokens => ?_
  refine lays_past (h.type _ _ tokens) fun _ tokens => ?_
  refine lays_after (passSymbol_leaves _ _ _ tokens) fun _ tokens => ?_
  refine lays_after (pass_leaves _ _ tokens) fun _ tokens => ?_
  exact lays_past (h.type _ _ tokens) fun _ rest => leaves_all _ rest

/-- All readings of a reader that is offered go onward. -/
def OffersOnward (offered : Option (Reader Form)) : Prop :=
  ∀ reader ∈ offered, ∀ tokens, Leaves (places tokens) (reader tokens)

omit h in
theorem offersOnward_none : OffersOnward none := by
  intro reader hm
  cases hm

omit h in
theorem offersOnward_if {condition : Prop} [Decidable condition] {reader : Reader Form}
    {others : Option (Reader Form)} (hr : ∀ tokens, Leaves (places tokens) (reader tokens))
    (ho : OffersOnward others) : OffersOnward (if condition then some reader else others) := by
  split
  · intro found hm
    cases hm
    exact hr
  · exact ho

omit h in
/-- A statement that is made of names. -/
theorem namesForm_leaves (indent : Nat) (form : List String → Form) (tokens : List Token) :
    Leaves (places tokens) (do
      let (found, tokens) ← names indent tokens
      return (form found, tokens)) :=
  lays_after (names_leaves _ tokens) fun _ rest => leaves_all _ rest

theorem keywordStatement?_leaves (indent : Nat) (word : String) :
    OffersOnward (keywordStatement? n indent word) := by
  have hnames (form : List String → Form) := namesForm_leaves indent form
  refine offersOnward_if (leaves_all _) ?_
  refine offersOnward_if (leaves_all _) ?_
  refine offersOnward_if (leaves_all _) ?_
  refine offersOnward_if (fun tokens => ?_) ?_
  · exact lays_after (optionalSeries_leaves h _ tokens) fun _ rest => leaves_all _ rest
  refine offersOnward_if (fun tokens => ?_) ?_
  · refine lays_after (lays_after (pass_leaves _ _ tokens) fun _ tokens => ?_) fun _ rest =>
      leaves_all _ rest
    exact lays_past (series_leaves h _ tokens) fun _ rest => leaves_all _ rest
  refine offersOnward_if (fun tokens => ?_) ?_
  · refine lays_after (lays_after (pass_leaves _ _ tokens) fun _ tokens => ?_) fun _ rest =>
      leaves_all _ rest
    exact strictExpressions_leaves h _ _ _ tokens
  refine offersOnward_if (raise_leaves h indent) ?_
  refine offersOnward_if (hnames _) ?_
  refine offersOnward_if (hnames _) ?_
  refine offersOnward_if (fun tokens => ?_) ?_
  · refine lays_after (pass_leaves _ _ tokens) fun _ tokens => ?_
    exact lays_after (importNames_leaves _ _ _ tokens) fun _ rest => leaves_all _ rest
  refine offersOnward_if (fun tokens => ?_) offersOnward_none
  exact lays_after (pass_leaves _ _ tokens) fun _ rest => importFrom_leaves _ rest

theorem simpleStatement_leaves (indent : Nat) (tokens : List Token) :
    Leaves (behind tokens) (simpleStatement n indent tokens) := by
  unfold simpleStatement
  split
  · next token rest =>
    have hplain := complete_leaves indent (expressionStatement_leaves h indent (token :: rest))
    have hprint : Leaves (behind (token :: rest)) (complete indent (legacyPrint n indent rest)) :=
      complete_leaves indent (lays_taken (legacyPrint_leaves h indent rest))
    dsimp only
    split
    · split
      · next reader hk =>
        exact complete_leaves indent (lays_taken (keywordStatement?_leaves h indent _ reader hk rest))
      · split
        · split
          · exact hprint
          · exact lays_either hplain hprint
        · split
          · exact lays_either hplain
              (complete_leaves indent (lays_taken (legacyExec_leaves h indent rest)))
          · split
            · exact lays_either
                (complete_leaves indent (lays_taken (typeAlias_leaves h indent rest))) hplain
            · exact hplain
    · exact hplain
  · exact lays_stuck _

end

end Marksheet.Grammar
