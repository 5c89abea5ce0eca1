import Marksheet.Grammar.CasePattern
import Marksheet.Proofs.Grammar.CrlfExpressions

/-!
# Patterns with line ends of two characters

Nothing of a pattern is kept, so a reader of patterns only has to end at the
same token. As with expressions, the readers agree by induction on the number
of levels (`patternReaders_agree`).
-/

namespace Marksheet.Grammar

open Source Syntax

/-- A reader that keeps nothing ends at the same token. -/
def Skipper.Agrees (P : List Token → Prop) (skipper : Skipper) : Prop :=
  ∀ place {tokens}, P tokens →
    Agree P id (skipper place tokens) (skipper place (tokens.map Token.crlf))

section

variable {P : List Token → Prop} (hP : Passes P)

include hP

theorem dottedTail_agrees (place : Place) (fuel : Nat) :
    ∀ {tokens : List Token}, P tokens →
      Agree P id (dottedTail place fuel tokens) (dottedTail place fuel (tokens.map Token.crlf)) := by
  induction fuel with
  | zero => exact fun h => agree_ok h fun _ => rfl
  | succ fuel ih =>
    intro tokens h
    simp only [dottedTail, peekSymbol_crlf]
    refine agree_ite (fun _ => ?_) fun _ => agree_ok h fun _ => rfl
    refine agree_bind (passSymbol_agrees hP _ _ _ h) fun _ tokens h => ?_
    exact agree_bind (passName_agrees hP _ _ h) fun _ tokens h => ih h

theorem dottedName_agrees (place : Place) {tokens : List Token} (h : P tokens) :
    Agree P id (dottedName place tokens) (dottedName place (tokens.map Token.crlf)) := by
  refine agree_bind (takeName_agrees hP h) fun _ tokens h => ?_
  simp only [List.length_map]
  exact dottedTail_agrees hP place _ h

theorem skipItems_agrees {item : Skipper} (hitem : item.Agrees P) (indent : Nat)
    (closer : Symbol) {tokens : List Token} (h : P tokens) :
    Agree P id (skipItems item indent closer tokens)
      (skipItems item indent closer (tokens.map Token.crlf)) := by
  refine agree_bind (pass_agrees hP _ _ h) fun _ tokens h => ?_
  cases tokens with
  | nil => exact agree_stuck []
  | cons token rest =>
    simp only [List.map_cons, isSymbol_crlf]
    refine agree_ite (fun hs => agree_ok (hP.symbol h hs) fun _ => rfl) fun _ => ?_
    refine agree_bind (hitem _ h) fun _ tokens h => ?_
    simp only [List.length_map]
    refine agree_bind (moreElements_agrees hP (fun {tokens} h => ?_) _ _ _ [] h) fun _ tokens h =>
      agree_ok h fun _ => rfl
    exact agree_bind (hitem _ h) fun _ tokens h => agree_ok h fun _ => rfl

theorem numberPattern_agrees (place : Place) {tokens : List Token} (h : P tokens) :
    Agree P id (numberPattern place tokens) (numberPattern place (tokens.map Token.crlf)) := by
  have hnumber {token : Token} {rest : List Token} (h : P (token :: rest))
      (hl : (decide (token.lexeme = .integer) || decide (token.lexeme = .float)) = true) :
      P rest := by
    simp only [Bool.or_eq_true, decide_eq_true_eq] at hl
    exact hl.elim (fun hl => hP.lexeme h hl (by simp)) fun hl => hP.lexeme h hl (by simp)
  cases tokens with
  | nil => exact agree_stuck []
  | cons token rest =>
    refine agree_ite (fun hl => ?_) fun _ => agree_stuck (token :: rest)
    have hrest := hnumber h hl
    obtain ⟨ha, ha'⟩ | ⟨_, sign, rest', ha, ha', hsign⟩ :=
      ahead_cases hP place.indent place.viable hrest
    · simp only [ha, ha']
      exact agree_ok hrest fun _ => rfl
    · simp only [ha, ha', isSymbol_crlf]
      refine agree_ite (fun hs => ?_) fun _ => agree_ok hrest fun _ => rfl
      have hrest' := (Bool.or_eq_true_iff.1 hs).elim (hP.symbol hsign) (hP.symbol hsign)
      refine agree_bind (pass_agrees hP _ _ hrest') fun _ tokens h => ?_
      cases tokens with
      | nil => exact agree_stuck []
      | cons number rest =>
        exact agree_ite (fun hl => agree_ok (hnumber h hl) fun _ => rfl)
          fun _ => agree_stuck (number :: rest)

theorem alternatives_agrees {closed : Skipper} (hclosed : closed.Agrees P) (place : Place)
    (fuel : Nat) :
    ∀ {tokens : List Token}, P tokens →
      Agree P id (alternatives closed place fuel tokens)
        (alternatives closed place fuel (tokens.map Token.crlf)) := by
  induction fuel with
  | zero => exact fun h => agree_ok h fun _ => rfl
  | succ fuel ih =>
    intro tokens h
    simp only [alternatives, peekSymbol_crlf]
    refine agree_ite (fun _ => ?_) fun _ => agree_ok h fun _ => rfl
    refine agree_bind (passSymbol_agrees hP _ _ _ h) fun _ tokens h => ?_
    refine agree_bind (pass_agrees hP _ _ h) fun _ tokens h => ?_
    exact agree_bind (hclosed place h) fun _ tokens h => ih h

theorem bindings_agrees (place : Place) (fuel : Nat) :
    ∀ {tokens : List Token}, P tokens →
      Agree P id (bindings place fuel tokens) (bindings place fuel (tokens.map Token.crlf)) := by
  induction fuel with
  | zero => exact fun h => agree_ok h fun _ => rfl
  | succ fuel ih =>
    intro tokens h
    simp only [bindings, peekWord_crlf]
    refine agree_ite (fun _ => ?_) fun _ => agree_ok h fun _ => rfl
    refine agree_bind (passWord_agrees hP _ _ _ h) fun _ tokens h => ?_
    exact agree_bind (passName_agrees hP _ _ h) fun _ tokens h => ih h

/-- A name that takes whatever is left. -/
theorem anyName_agrees (place : Place) {tokens : List Token} (h : P tokens) :
    Agree P id
      (do
        let (_, tokens) ← passName place.indent {} tokens
        return ((), tokens))
      (do
        let (_, tokens) ← passName place.indent {} (tokens.map Token.crlf)
        return ((), tokens)) :=
  agree_bind (passName_agrees hP _ _ h) fun _ _ h => agree_ok h fun _ => rfl

variable {n : Nested} (hn : n.Agrees P) {pattern simple : Skipper} (hpattern : pattern.Agrees P)
  (hsimple : simple.Agrees P)

include hn hpattern hsimple

theorem closedPattern_agrees : (closedPattern n pattern simple).Agrees P := by
  intro place tokens h
  cases tokens with
  | nil => exact agree_stuck []
  | cons token rest =>
    unfold closedPattern
    simp only [List.map_cons, lexeme_crlf]
    cases hl : token.lexeme with
    | integer | float => exact numberPattern_agrees hP place h
    | quoteOpen =>
      exact agree_bind (strings_agrees hP hn place h) fun _ tokens h => agree_ok h fun _ => rfl
    | word =>
      have hrest := hP.lexeme h hl (by simp)
      simp only [text_crlf_of_word hl]
      refine agree_ite (fun _ => agree_ok hrest fun _ => rfl) fun _ => ?_
      refine agree_bind (dottedName_agrees hP place h) fun _ tokens h => ?_
      simp only [peekSymbol_crlf]
      refine agree_ite (fun _ => ?_) fun _ => agree_ok h fun _ => rfl
      exact agree_bind (passSymbol_agrees hP _ _ _ h) fun _ tokens h =>
        skipItems_agrees hP hpattern _ _ h
    | symbol symbol =>
      have hrest := hP.lexeme h hl (by simp)
      have hname := anyName_agrees hP place hrest
      cases symbol with
      | op op =>
        cases op with
        | sub =>
          exact agree_bind (pass_agrees hP _ _ hrest) fun _ tokens h =>
            numberPattern_agrees hP place h
        | mul | pow => exact hname
        | _ => exact agree_stuck (token :: rest)
      | lparen => exact skipItems_agrees hP hpattern _ _ hrest
      | lbracket => exact skipItems_agrees hP hpattern _ _ hrest
      | lbrace =>
        refine skipItems_agrees hP (fun place tokens h => ?_) _ _ hrest
        cases tokens with
        | nil => exact agree_stuck []
        | cons token rest =>
          simp only [List.map_cons, isSymbol_crlf]
          refine agree_ite (fun hs => ?_) fun _ => ?_
          · have hrest := (Bool.or_eq_true_iff.1 hs).elim (hP.symbol h) (hP.symbol h)
            exact agree_bind (passName_agrees hP _ _ hrest) fun _ tokens h =>
              agree_ok h fun _ => rfl
          · refine agree_bind (hsimple _ h) fun _ tokens h => ?_
            refine agree_bind (passSymbol_agrees hP _ _ _ h) fun _ tokens h => ?_
            exact agree_bind (pass_agrees hP _ _ h) fun _ tokens h => hpattern place h
      | _ => exact agree_stuck (token :: rest)
    | _ => exact agree_stuck (token :: rest)

theorem simplePattern_agrees : (simplePattern n pattern simple).Agrees P := by
  intro place tokens h
  have hclosed := closedPattern_agrees hP hn hpattern hsimple
  refine agree_bind (hclosed place h) fun _ tokens h => ?_
  simp only [List.length_map]
  exact alternatives_agrees hP hclosed place _ h

/-- A pattern and the names that it is bound to. -/
theorem boundPattern_agrees (place : Place) {tokens : List Token} (h : P tokens) :
    Agree P id
      (do
        let (_, tokens) ← simplePattern n pattern simple place tokens
        bindings place tokens.length tokens)
      (do
        let (_, tokens) ← simplePattern n pattern simple place (tokens.map Token.crlf)
        bindings place tokens.length tokens) := by
  refine agree_bind (simplePattern_agrees hP hn hpattern hsimple place h) fun _ tokens h => ?_
  simp only [List.length_map]
  exact bindings_agrees hP place _ h

theorem fullPattern_agrees : (fullPattern n pattern simple).Agrees P := by
  intro place tokens h
  cases tokens with
  | nil => exact agree_stuck []
  | cons token rest =>
    have hpart {tokens : List Token} (h : P tokens) :=
      boundPattern_agrees hP hn hpattern hsimple place h
    simp only [fullPattern, List.map_cons, peekSymbol_crlf]
    rw [word_crlf token fun text => (constantWord? text).isNone]
    refine agree_ite (fun hw => ?_) fun _ => hpart h
    have hl : token.lexeme = .word := by
      simp only [Bool.and_eq_true, decide_eq_true_eq] at hw
      exact hw.1.1
    refine agree_bind (passSymbol_agrees hP _ _ _ (hP.lexeme h hl (by simp))) fun _ tokens h => ?_
    exact agree_bind (pass_agrees hP _ _ h) fun _ tokens h => hpart h

omit hpattern hsimple

theorem patternReaders_agree (levels : Nat) :
    (patternReaders n levels).1.Agrees P ∧ (patternReaders n levels).2.Agrees P := by
  induction levels with
  | zero => exact ⟨fun _ tokens _ => agree_stuck tokens, fun _ tokens _ => agree_stuck tokens⟩
  | succ levels ih =>
    exact ⟨fullPattern_agrees hP hn ih.1 ih.2, simplePattern_agrees hP hn ih.1 ih.2⟩

theorem casePatterns_agrees (place : Place) (levels fuel : Nat) :
    ∀ {tokens : List Token}, P tokens →
      Agree P id (casePatterns n place levels fuel tokens)
        (casePatterns n place levels fuel (tokens.map Token.crlf)) := by
  induction fuel with
  | zero => exact fun {tokens} _ => agree_stuck tokens
  | succ fuel ih =>
    intro tokens h
    unfold casePatterns
    refine agree_bind ((patternReaders_agree hP hn levels).1 place h) fun _ tokens h => ?_
    simp only [peekSymbol_crlf]
    refine agree_ite (fun _ => ?_) fun _ => agree_ok h fun _ => rfl
    refine agree_bind (passSymbol_agrees hP _ _ _ h) fun _ tokens h => ?_
    refine agree_bind (pass_agrees hP _ _ h) fun _ tokens h => ?_
    cases tokens with
    | nil => exact agree_stuck []
    | cons token rest =>
      simp only [List.map_cons, isSymbol_crlf, isWord_crlf]
      exact agree_ite (fun _ => agree_ok h fun _ => rfl) fun _ => ih h

end

end Marksheet.Grammar
