import Marksheet.Grammar.Expression
import Marksheet.Proofs.Grammar.CrlfReader

/-!
# Strings and series with line ends of two characters

Each reader has one lemma: from tokens with other line ends it reads what it
reads from the tokens, with other line ends in the texts that are kept. A
reader of nested phrases is assumed to do so too (`Nested.Agrees`).
-/

namespace Marksheet.Grammar

open Source Syntax

/-- The readers of nested phrases agree. -/
structure Nested.Agrees (P : List Token → Prop) (n : Nested) : Prop where
  expression : ∀ place level {tokens}, P tokens → Agree P Phrase.crlf
    (n.expression place level tokens) (n.expression place level (tokens.map Token.crlf))
  operand : ∀ place least {tokens}, P tokens → Agree P Phrase.crlf
    (n.operand place least tokens) (n.operand place least (tokens.map Token.crlf))
  field : ∀ {tokens}, P tokens → Agree P TextPart.crlf (n.field tokens)
    (n.field (tokens.map Token.crlf))
  type : ∀ place colon {tokens}, P tokens → Agree P Phrase.crlf
    (n.type place colon tokens) (n.type place colon (tokens.map Token.crlf))

/-- Phrases with other line ends, and whether there was a comma. -/
def crlfItems : List Phrase × Bool → List Phrase × Bool := Prod.map (List.map Phrase.crlf) id

@[simp] theorem beginsOperand_crlf (token : Token) :
    beginsOperand token.crlf = beginsOperand token := rfl

@[simp] theorem beginsTrailer_crlf (token : Token) :
    beginsTrailer token.crlf = beginsTrailer token := rfl

theorem dropColons_crlf (text : String) : dropColons (crlfText text) = crlfText (dropColons text) := by
  have hdrop (chars : List Char) :
      (crlf chars).dropWhile (· = ':') = crlf (chars.dropWhile (· = ':')) := by
    induction chars with
    | nil => rfl
    | cons c rest ih =>
      by_cases hc : c = '\n'
      · simp [hc]
      · rw [crlf_cons hc, List.dropWhile_cons, List.dropWhile_cons]
        split
        · exact ih
        · rw [crlf_cons hc]
  simp only [dropColons, crlfText, String.toList_ofList, hdrop]

section

variable {P : List Token → Prop} (hP : Passes P) {n : Nested} (hn : n.Agrees P)

include hP hn

/-! ### Strings -/

theorem literalParts_agrees (fuel : Nat) :
    ∀ (parts : List TextPart) {tokens : List Token}, P tokens →
      Agree P (List.map TextPart.crlf) (literalParts n fuel parts tokens)
        (literalParts n fuel (parts.map TextPart.crlf) (tokens.map Token.crlf)) := by
  induction fuel with
  | zero => exact fun _ tokens _ => agree_stuck tokens
  | succ fuel ih =>
    intro parts tokens h
    cases tokens with
    | nil => exact agree_stuck []
    | cons token rest =>
      unfold literalParts
      simp only [List.map_cons, lexeme_crlf]
      cases hl : token.lexeme with
      | quoteText =>
        have hmore := ih (.content token.text :: parts) (hP.lexeme h hl (by simp))
        simpa [TextPart.crlf, Token.crlf, hl, Lexeme.isInner] using hmore
      | quoteClose => exact agree_ok (hP.lexeme h hl (by simp)) fun _ => (List.map_reverse ..).symm
      | fieldOpen => exact agree_bind (hn.field h) fun part tokens h => ih (part :: parts) h
      | _ => exact agree_stuck (token :: rest)

theorem literal_agrees {tokens : List Token} (h : P tokens) :
    Agree P Phrase.crlf (literal n tokens) (literal n (tokens.map Token.crlf)) := by
  cases tokens with
  | nil => exact agree_stuck []
  | cons token rest =>
    simp only [literal, List.map_cons, lexeme_crlf, List.length_map]
    refine agree_ite (fun hl => ?_) fun _ => agree_stuck (token :: rest)
    rw [text_crlf (by rw [hl]; rfl)]
    refine agree_bind (literalParts_agrees hP hn _ [] (hP.lexeme h hl (by simp))) fun parts tokens h => ?_
    exact agree_ok h fun _ => by rw [Phrase.crlf, crlfParts_eq]

theorem moreLiterals_agrees (place : Place) (fuel : Nat) :
    ∀ (pieces : List Phrase) {tokens : List Token}, P tokens →
      Agree P (List.map Phrase.crlf) (moreLiterals n place fuel pieces tokens)
        (moreLiterals n place fuel (pieces.map Phrase.crlf) (tokens.map Token.crlf)) := by
  induction fuel with
  | zero => exact fun _ tokens h => agree_ok h fun _ => rfl
  | succ fuel ih =>
    intro pieces tokens h
    unfold moreLiterals
    obtain ⟨ha, ha'⟩ | ⟨between, token, rest, ha, ha', hrest⟩ :=
      ahead_cases hP place.indent { place.viable with quote := true } h
    · rw [ha, ha']
      exact agree_ok h fun _ => rfl
    · rw [ha, ha']
      refine agree_ite (fun _ => ?_) fun _ => agree_ok h fun _ => rfl
      refine agree_bind (literal_agrees hP hn hrest) fun piece tokens h => ?_
      have hmore := ih (pieces ++ between ++ [piece]) h
      simpa using hmore

theorem strings_agrees (place : Place) {tokens : List Token} (h : P tokens) :
    Agree P Phrase.crlf (strings n place tokens) (strings n place (tokens.map Token.crlf)) := by
  refine agree_bind (literal_agrees hP hn h) fun first tokens h => ?_
  simp only [List.length_map]
  refine agree_bind (moreLiterals_agrees hP hn place _ [first] h) fun pieces tokens h => ?_
  match pieces with
  | [] => exact agree_ok h fun _ => rfl
  | [single] => exact agree_ok h fun _ => rfl
  | first :: second :: rest => exact agree_ok h fun _ => by simp [Phrase.crlf]

/-! ### Series of expressions -/

theorem moreExpressions_agrees (place : Place) (level : Level) (fuel : Nat) :
    ∀ (comma : Bool) (items : List Phrase) {tokens : List Token}, P tokens →
      Agree P crlfItems (moreExpressions n place level fuel comma items tokens)
        (moreExpressions n place level fuel comma (items.map Phrase.crlf)
          (tokens.map Token.crlf)) := by
  induction fuel with
  | zero => exact fun _ _ _ h => agree_ok h fun _ => rfl
  | succ fuel ih =>
    intro comma items tokens h
    unfold moreExpressions
    obtain ⟨ha, ha'⟩ | ⟨before, token, rest, ha, ha', hrest⟩ :=
      ahead_cases hP place.indent place.viable h
    · simp only [ha, ha']
      exact agree_ok h fun _ => rfl
    · simp only [ha, ha', isSymbol_crlf]
      refine agree_ite (fun hs => ?_) fun _ => agree_ok h fun _ => rfl
      have hrest := hP.symbol hrest hs
      have hends : Agree P crlfItems (.ok ((items ++ before, true), rest))
          (.ok ((items.map Phrase.crlf ++ before.map Phrase.crlf, true), rest.map Token.crlf)) :=
        agree_ok hrest fun _ => by simp [crlfItems]
      obtain ⟨hb, hb'⟩ | ⟨behind, next, rest', hb, hb', hnext⟩ :=
        ahead_cases hP place.indent { place.viable with quote := true } hrest
      · simp only [hb, hb']
        exact hends
      · simp only [hb, hb', beginsOperand_crlf]
        refine agree_ite (fun _ => ?_) fun _ => hends
        refine agree_bind (hn.expression place level hnext) fun item tokens h => ?_
        simpa using ih true (items ++ before ++ behind ++ [item]) h

theorem expressions_agrees (place : Place) {tokens : List Token} (h : P tokens) :
    Agree P crlfItems (expressions n place tokens) (expressions n place (tokens.map Token.crlf)) := by
  refine agree_bind (hn.expression place {} h) fun first tokens h => ?_
  simp only [List.length_map]
  exact moreExpressions_agrees hP hn place {} _ false [first] h

theorem series_agrees (place : Place) {tokens : List Token} (h : P tokens) :
    Agree P Phrase.crlf (series n place tokens) (series n place (tokens.map Token.crlf)) := by
  refine agree_bind (expressions_agrees hP hn place h) fun ⟨items, comma⟩ tokens h => ?_
  match items, comma with
  | [], _ => exact agree_ok h fun _ => rfl
  | [single], true => exact agree_ok h fun _ => rfl
  | [single], false => exact agree_ok h fun _ => rfl
  | first :: second :: rest, _ => exact agree_ok h fun _ => by simp [Phrase.crlf]

theorem yieldPhrase_agrees (place : Place) {tokens : List Token} (h : P tokens) :
    Agree P Phrase.crlf (yieldPhrase n place tokens) (yieldPhrase n place (tokens.map Token.crlf)) := by
  refine agree_bind (takeWord_agrees hP "yield" h) fun _ tokens h => ?_
  dsimp only
  obtain ⟨ha, ha'⟩ | ⟨between, token, rest, ha, ha', hrest⟩ :=
    ahead_cases hP place.indent { place.viable with quote := true } h
  · simp only [ha, ha']
    exact agree_ok h fun _ => rfl
  · simp only [ha, ha', isWord_crlf, beginsOperand_crlf]
    refine agree_ite (fun hw => ?_) fun _ => agree_ite (fun _ => ?_) fun _ => agree_ok h fun _ => rfl
    · refine agree_bind (pass_agrees hP _ _ (hP.word hrest hw)) fun behind tokens h => ?_
      refine agree_bind (hn.expression place {} h) fun value tokens h => ?_
      exact agree_ok h fun _ => by simp [Phrase.crlf]
    · refine agree_bind (series_agrees hP hn place hrest) fun value tokens h => ?_
      exact agree_ok h fun _ => by simp [Phrase.crlf]

theorem seriesOrYield_agrees (place : Place) {tokens : List Token} (h : P tokens) :
    Agree P Phrase.crlf (seriesOrYield n place tokens)
      (seriesOrYield n place (tokens.map Token.crlf)) := by
  cases tokens with
  | nil => exact agree_stuck []
  | cons token rest =>
    simp only [seriesOrYield, List.map_cons, isWord_crlf]
    exact agree_ite (fun _ => yieldPhrase_agrees hP hn place h) fun _ => series_agrees hP hn place h

/-! ### Replacement fields -/

theorem specParts_agrees (fuel : Nat) :
    ∀ {tokens : List Token}, P tokens →
      Agree P id (specParts n fuel tokens) (specParts n fuel (tokens.map Token.crlf)) := by
  induction fuel with
  | zero => exact fun {tokens} _ => agree_stuck tokens
  | succ fuel ih =>
    intro tokens h
    cases tokens with
    | nil => exact agree_stuck []
    | cons token rest =>
      unfold specParts
      simp only [List.map_cons, lexeme_crlf]
      cases hl : token.lexeme with
      | specText => exact ih (hP.lexeme h hl (by simp))
      | fieldOpen => exact agree_bind (hn.field h) fun _ tokens h => ih h
      | fieldClose => exact agree_ok h fun _ => rfl
      | _ => exact agree_stuck (token :: rest)

omit hn in
theorem fieldMark_agrees {tokens : List Token} (h : P tokens) :
    Agree P id (fieldMark tokens) (fieldMark (tokens.map Token.crlf)) := by
  cases tokens with
  | nil => exact agree_ok h fun _ => rfl
  | cons token rest =>
    simp only [fieldMark, List.map_cons, isSymbol_crlf]
    refine agree_ite (fun hs => ?_) fun _ => agree_ok h fun _ => rfl
    exact agree_bind (pass_agrees hP _ _ (hP.symbol h hs)) fun _ _ h => agree_ok h fun _ => rfl

omit hn in
theorem fieldConversion_agrees {tokens : List Token} (h : P tokens) :
    Agree P id (fieldConversion tokens) (fieldConversion (tokens.map Token.crlf)) := by
  cases tokens with
  | nil => exact agree_ok h fun _ => rfl
  | cons token rest =>
    simp only [fieldConversion, List.map_cons, lexeme_crlf]
    refine agree_ite (fun hl => ?_) fun _ => agree_ok h fun _ => rfl
    refine agree_bind (pass_agrees hP _ _ (hP.lexeme h hl (by simp))) fun _ _ h => agree_ok h fun _ => ?_
    rw [text_crlf (by rw [hl]; rfl)]
    rfl

omit hP hn in
/-- A specification stops before a closing brace. -/
theorem specParts_give (fuel : Nat) :
    ∀ tokens, Gives (fun found => ∃ token rest, found.2 = token :: rest ∧ token.lexeme = .fieldClose)
      (specParts n fuel tokens) := by
  induction fuel with
  | zero => exact fun tokens => gives_stuck tokens
  | succ fuel ih =>
    intro tokens
    cases tokens with
    | nil => exact gives_stuck []
    | cons token rest =>
      unfold specParts
      dsimp only
      cases hl : token.lexeme with
      | specText => exact ih rest
      | fieldOpen => exact gives_after fun found => ih found.2
      | fieldClose => exact gives_ok ⟨token, rest, rfl, hl⟩
      | _ => exact gives_stuck _

theorem fieldEnd_agrees (value : Phrase) (conversion : Option Char) {tokens : List Token}
    (h : P tokens) :
    Agree P TextPart.crlf (fieldEnd n value conversion tokens)
      (fieldEnd n value.crlf conversion (tokens.map Token.crlf)) := by
  cases tokens with
  | nil => exact agree_stuck []
  | cons token rest =>
    simp only [fieldEnd, List.map_cons, lexeme_crlf, List.length_map]
    refine agree_ite (fun hl => agree_ok (hP.lexeme h hl (by simp)) fun _ => rfl) fun _ => ?_
    refine agree_ite (fun hl => ?_) fun _ => agree_stuck (token :: rest)
    refine agree_bind_gives (specParts_give _ rest) (specParts_agrees hP hn _ (hP.lexeme h hl (by simp)))
      fun _ after hclose h' => ?_
    obtain ⟨brace, behind, rfl, hbrace⟩ := hclose
    refine agree_ok (hP.lexeme h' hbrace nofun) fun hF => ?_
    have htext := textBetween_crlf (hF _ h) (brace :: behind)
    simp only [List.map_cons] at htext
    rw [List.map_cons, htext, dropColons_crlf]
    rfl

theorem field_agrees {tokens : List Token} (h : P tokens) :
    Agree P TextPart.crlf (field n tokens) (field n (tokens.map Token.crlf)) := by
  cases tokens with
  | nil => exact agree_stuck []
  | cons token rest =>
    simp only [field, List.map_cons, lexeme_crlf]
    refine agree_ite (fun hl => ?_) fun _ => agree_stuck (token :: rest)
    refine agree_bind (pass_agrees hP _ _ (hP.lexeme h hl (by simp))) fun _ tokens h => ?_
    refine agree_bind (seriesOrYield_agrees hP hn _ h) fun value tokens h => ?_
    refine agree_bind (pass_agrees hP _ _ h) fun _ tokens h => ?_
    refine agree_bind (fieldMark_agrees hP h) fun _ tokens h => ?_
    refine agree_bind (fieldConversion_agrees hP h) fun conversion tokens h => ?_
    exact fieldEnd_agrees hP hn value conversion h

end

end Marksheet.Grammar
