import Marksheet.Grammar.Statement
import Marksheet.Proofs.Grammar.CrlfPatterns

/-!
# Simple statements with line ends of two characters

The forms of a line are read alike. A module name is compared with a word of
one line, and so is found or not whatever the line ends are
(`crlfText_eq_iff`).
-/

namespace Marksheet.Grammar

open Source Syntax

/-- Every reader that is offered for a word agrees. -/
def OffersAgree (P : List Token → Prop) (offered : Option (Reader Form)) : Prop :=
  ∀ reader ∈ offered, ∀ {tokens}, P tokens →
    Agree P Form.crlf (reader tokens) (reader (tokens.map Token.crlf))

theorem offersAgree_none {P : List Token → Prop} : OffersAgree P none := by
  intro reader hm
  cases hm

theorem offersAgree_if {P : List Token → Prop} {condition : Prop} [Decidable condition]
    {reader : Reader Form} {others : Option (Reader Form)}
    (hr : ∀ {tokens}, P tokens → Agree P Form.crlf (reader tokens) (reader (tokens.map Token.crlf)))
    (ho : OffersAgree P others) : OffersAgree P (if condition then some reader else others) := by
  split
  · intro found hm
    cases hm
    exact hr
  · exact ho

@[simp] theorem endsHere_crlf (indent : Nat) (tokens : List Token) :
    endsHere indent (tokens.map Token.crlf) = endsHere indent tokens := by
  cases tokens with
  | nil => rfl
  | cons token rest =>
    have hahead := ahead_crlf indent lineEndNext (token :: rest)
    rw [List.map_cons] at hahead
    simp only [List.map_cons, endsHere, hahead]
    cases ahead indent lineEndNext (token :: rest) <;> rfl

theorem targetOf?_crlf (items : List Phrase) (comma : Bool) :
    targetOf? (items.map Phrase.crlf) comma = (targetOf? items comma).map Phrase.crlf := by
  have hseries (items : List Phrase) : (patterns? (items.map Phrase.crlf)).map Phrase.series =
      ((patterns? items).map Phrase.series).map Phrase.crlf := by
    rw [patterns?_crlf, Option.map_map, Option.map_map]
    congr 1
    funext items
    simp [Phrase.crlf]
  match items, comma with
  | [], _ => exact hseries []
  | [single], true => exact hseries [single]
  | [single], false => exact Phrase.crlf_pattern? single
  | first :: second :: rest, _ => exact hseries (first :: second :: rest)

theorem texts_crlf (parts : List Phrase) :
    nameList.texts (parts.map Phrase.crlf) = (nameList.texts parts).map crlfText := by
  unfold nameList.texts
  rw [List.filterMap_map, List.map_filterMap]
  refine List.filterMap_congr fun part _ => ?_
  cases part <;> rfl

section

variable {P : List Token → Prop} (hP : Passes P) {n : Nested} (hn : n.Agrees P)

/-! ### Where a statement ends -/

theorem complete_agrees {α : Type} {f : α → α} (indent : Nat)
    {reading reading' : Except Stuck (α × List Token)} (h : Agree P f reading reading') :
    Agree P f (complete indent reading) (complete indent reading') := by
  refine agree_bind h fun value tokens h => ?_
  simp only [endsHere_crlf, peek_crlf]
  refine agree_ite (fun _ => agree_ok h fun _ => rfl) fun _ => ?_
  cases peek indent lineEndNext tokens with
  | none => exact agree_stuck tokens
  | some next =>
    cases tokens with
    | nil => exact agree_stuck []
    | cons token rest => exact agree_stuck (next :: rest)

include hP hn

/-! ### Assignments and expressions -/

theorem assignmentTail_agrees (indent : Nat) {value : Reader Phrase}
    (hvalue : ∀ {tokens}, P tokens → Agree P Phrase.crlf (value tokens) (value (tokens.map Token.crlf)))
    (target : Phrase) {tokens : List Token} (h : P tokens) :
    Agree P Phrase.crlf (assignmentTail n indent value target tokens)
      (assignmentTail n indent value target.crlf (tokens.map Token.crlf)) := by
  cases tokens with
  | nil => exact agree_stuck []
  | cons token rest =>
    unfold assignmentTail
    simp only [List.map_cons, lexeme_crlf]
    cases hl : token.lexeme with
    | symbol symbol =>
      have hrest := hP.lexeme h hl (by simp)
      cases symbol with
      | assign | augmented op =>
        refine agree_bind (pass_agrees hP _ _ hrest) fun _ tokens h => ?_
        exact agree_bind (hvalue h) fun right tokens h => agree_ok h fun _ => rfl
      | colon =>
        refine agree_bind (pass_agrees hP _ _ hrest) fun _ tokens h => ?_
        refine agree_bind (hn.type _ _ h) fun kind tokens h => ?_
        simp only [peekSymbol_crlf]
        refine agree_ite (fun _ => ?_) fun _ => agree_ok h fun _ => rfl
        refine agree_bind (passSymbol_agrees hP _ _ _ h) fun _ tokens h => ?_
        refine agree_bind (pass_agrees hP _ _ h) fun _ tokens h => ?_
        exact agree_bind (hvalue h) fun right tokens h => agree_ok h fun _ => rfl
      | _ => exact agree_stuck (token :: rest)
    | _ => exact agree_stuck (token :: rest)

theorem expressionsOrAssignment_agrees (indent : Nat) {value : Reader Phrase}
    (hvalue : ∀ {tokens}, P tokens → Agree P Phrase.crlf (value tokens) (value (tokens.map Token.crlf)))
    {tokens : List Token} (h : P tokens) :
    Agree P crlfItems (expressionsOrAssignment n indent value tokens)
      (expressionsOrAssignment n indent value (tokens.map Token.crlf)) := by
  cases tokens with
  | nil => exact agree_stuck []
  | cons token rest =>
    simp only [expressionsOrAssignment, List.map_cons, isWord_crlf]
    refine agree_ite (fun _ => ?_) fun _ => ?_
    · refine agree_bind (yieldPhrase_agrees hP hn _ h) fun phrase tokens h => ?_
      exact agree_ok h fun _ => rfl
    · refine agree_bind (expressions_agrees hP hn _ h) fun ⟨items, comma⟩ after hafter => ?_
      obtain ⟨ha, ha'⟩ | ⟨_, mark, rest, ha, ha', hmark⟩ :=
        ahead_cases hP indent lineEndNext hafter
      · simp only [ha, ha']
        exact agree_ok hafter fun _ => rfl
      · have hmarks : marksAssignment mark.crlf = marksAssignment mark := rfl
        simp only [ha, ha', hmarks, crlfItems, Prod.map, id, targetOf?_crlf]
        refine agree_ite (fun _ => ?_) fun _ => agree_ok hafter fun _ => rfl
        cases targetOf? items comma with
        | none => exact agree_stuck (mark :: rest)
        | some target =>
          exact agree_bind (assignmentTail_agrees hP hn indent hvalue target hmark)
            fun phrase tokens h => agree_ok h fun _ => rfl

theorem rightSide_agrees (indent levels : Nat) :
    ∀ {tokens : List Token}, P tokens →
      Agree P Phrase.crlf (rightSide n indent levels tokens)
        (rightSide n indent levels (tokens.map Token.crlf)) := by
  induction levels with
  | zero => exact fun {tokens} _ => agree_stuck tokens
  | succ levels ih =>
    intro tokens h
    refine agree_bind (expressionsOrAssignment_agrees hP hn indent ih h)
      fun ⟨items, comma⟩ tokens h => ?_
    match items, comma with
    | [], _ => exact agree_ok h fun _ => rfl
    | [single], true => exact agree_ok h fun _ => rfl
    | [single], false => exact agree_ok h fun _ => rfl
    | first :: second :: rest, _ => exact agree_ok h fun _ => by simp [Phrase.crlf]

theorem expressionStatement_agrees (indent : Nat) {tokens : List Token} (h : P tokens) :
    Agree P Form.crlf (expressionStatement n indent tokens)
      (expressionStatement n indent (tokens.map Token.crlf)) := by
  unfold expressionStatement
  rw [List.length_map]
  exact agree_bind (expressionsOrAssignment_agrees hP hn indent
    (rightSide_agrees hP hn indent _) h) fun found tokens h => agree_ok h fun _ => rfl

/-! ### Imports -/

omit hn

theorem importName_agrees (place : Place) {tokens : List Token} (h : P tokens) :
    Agree P ImportName.crlf (importName place tokens)
      (importName place (tokens.map Token.crlf)) := by
  refine agree_bind (dottedName_agrees hP place h) fun _ after hafter => ?_
  have htext (hF : Faithful P) : textBetween (tokens.map Token.crlf) (after.map Token.crlf) =
      crlfText (textBetween tokens after) := textBetween_crlf (hF tokens h) after
  simp only [peekWord_crlf]
  refine agree_ite (fun _ => ?_) fun _ => agree_ok hafter fun hF => by rw [htext hF]; rfl
  refine agree_bind (passWord_agrees hP _ _ _ hafter) fun _ tokens h => ?_
  refine agree_bind (passName_agrees hP _ _ h) fun asname tokens h => ?_
  exact agree_ok h fun hF => by rw [htext hF]; rfl

theorem importNames_agrees (place : Place) (fuel : Nat) :
    ∀ (found : List ImportName) {tokens : List Token}, P tokens →
      Agree P (List.map ImportName.crlf) (importNames place fuel found tokens)
        (importNames place fuel (found.map ImportName.crlf) (tokens.map Token.crlf)) := by
  induction fuel with
  | zero => exact fun _ tokens _ => agree_stuck tokens
  | succ fuel ih =>
    intro found tokens h
    unfold importNames
    refine agree_bind (importName_agrees hP place h) fun next tokens h => ?_
    have hfound : found.map ImportName.crlf ++ [next.crlf] =
        (found ++ [next]).map ImportName.crlf := by simp
    simp only [hfound]
    obtain ⟨ha, ha'⟩ | ⟨_, token, rest, ha, ha', hrest⟩ :=
      ahead_cases hP place.indent place.viable h
    · simp only [ha, ha']
      exact agree_ok h fun _ => rfl
    simp only [ha, ha', isSymbol_crlf]
    refine agree_ite (fun hs => ?_) fun _ => agree_ok h fun _ => rfl
    have hrest := hP.symbol hrest hs
    obtain ⟨hb, hb'⟩ | ⟨_, next', rest', hb, hb', hnext⟩ :=
      ahead_cases hP place.indent place.viable hrest
    · simp only [hb, hb']
      exact agree_ok hrest fun _ => rfl
    · simp only [hb, hb', lexeme_crlf]
      exact agree_ite (fun _ => ih (found ++ [next]) hnext) fun _ => agree_ok hrest fun _ => rfl

theorem importList_agrees (indent : Nat) {tokens : List Token} (h : P tokens) :
    Agree P (List.map ImportName.crlf) (importList indent tokens)
      (importList indent (tokens.map Token.crlf)) := by
  cases tokens with
  | nil => exact agree_stuck []
  | cons token rest =>
    simp only [importList, List.map_cons, isSymbol_crlf, List.length_cons, List.length_map]
    refine agree_ite (fun hs => ?_) fun _ => importNames_agrees hP _ _ [] h
    refine agree_bind (pass_agrees hP _ _ (hP.symbol h hs)) fun _ tokens h => ?_
    simp only [List.length_map]
    refine agree_bind (importNames_agrees hP _ _ [] h) fun names tokens h => ?_
    exact agree_bind (passCloser_agrees hP _ _ _ h) fun _ tokens h => agree_ok h fun _ => rfl

theorem importDots_agrees (indent fuel : Nat) :
    ∀ (found : Bool) {tokens : List Token}, P tokens →
      Agree P id (importDots indent fuel found tokens)
        (importDots indent fuel found (tokens.map Token.crlf)) := by
  induction fuel with
  | zero => exact fun _ _ h => agree_ok h fun _ => rfl
  | succ fuel ih =>
    intro found tokens h
    unfold importDots
    obtain ⟨ha, ha'⟩ | ⟨_, token, rest, ha, ha', hrest⟩ := ahead_cases hP indent {} h
    · simp only [ha, ha']
      exact agree_ok h fun _ => rfl
    · simp only [ha, ha', isSymbol_crlf]
      refine agree_ite (fun hs => ?_) fun _ => agree_ok h fun _ => rfl
      exact ih true ((Bool.or_eq_true_iff.1 hs).elim (hP.symbol hrest) (hP.symbol hrest))

theorem importModule_agrees (indent : Nat) {tokens : List Token} (h : P tokens) :
    Agree P crlfText (importModule indent tokens) (importModule indent (tokens.map Token.crlf)) := by
  have htext (after : List Token) (hF : Faithful P) :
      textBetween (tokens.map Token.crlf) (after.map Token.crlf) =
        crlfText (textBetween tokens after) := textBetween_crlf (hF tokens h) after
  unfold importModule
  rw [List.length_map]
  refine agree_bind (importDots_agrees hP indent _ false h) fun relative after hafter => ?_
  simp only [id, peekWord_crlf]
  refine agree_ite (fun _ => agree_ok hafter (htext after)) fun _ => ?_
  refine agree_bind (pass_agrees hP _ _ hafter) fun _ after h => ?_
  exact agree_bind (dottedName_agrees hP _ h) fun _ after h => agree_ok h (htext after)

theorem importFrom_agrees (indent : Nat) {tokens : List Token} (h : P tokens) :
    Agree P Form.crlf (importFrom indent tokens) (importFrom indent (tokens.map Token.crlf)) := by
  refine agree_bind (importModule_agrees hP indent h) fun module after h => ?_
  refine agree_bind (passWord_agrees hP _ _ _ h) fun _ after h => ?_
  refine agree_bind (pass_agrees hP _ _ h) fun _ after h => ?_
  have hfuture : crlfText module = "__future__" ↔ module = "__future__" :=
    crlfText_eq_iff (by decide)
  simp only [hfuture]
  refine agree_ite (fun _ => ?_) fun _ => ?_
  · exact agree_bind (importList_agrees hP indent h) fun _ after h => agree_ok h fun _ => rfl
  cases after with
  | nil => exact agree_stuck []
  | cons token rest =>
    simp only [List.map_cons, isSymbol_crlf]
    refine agree_ite (fun hs => agree_ok (hP.symbol h hs) fun _ => rfl) fun _ => ?_
    exact agree_bind (importList_agrees hP indent h) fun names after h => agree_ok h fun _ => rfl

/-! ### Statements that begin with a keyword -/

theorem nameList_agrees (indent fuel : Nat) :
    ∀ (found : List String) {tokens : List Token}, P tokens →
      Agree P (List.map crlfText) (nameList indent fuel found tokens)
        (nameList indent fuel (found.map crlfText) (tokens.map Token.crlf)) := by
  induction fuel with
  | zero => exact fun _ tokens _ => agree_stuck tokens
  | succ fuel ih =>
    intro found tokens h
    unfold nameList
    refine agree_bind (takeName_agrees_text hP h) fun next tokens h => ?_
    obtain ⟨ha, ha'⟩ | ⟨before, token, rest, ha, ha', hrest⟩ := ahead_cases hP indent lineEndNext h
    · simp only [ha, ha']
      exact agree_ok h fun _ => by simp
    · simp only [ha, ha', isSymbol_crlf]
      refine agree_ite (fun hs => ?_) fun _ => agree_ok h fun _ => by simp
      refine agree_bind (pass_agrees hP _ _ (hP.symbol hrest hs)) fun behind tokens h => ?_
      simpa [← texts_crlf] using ih (found ++ [next] ++ nameList.texts (before ++ behind)) h

theorem names_agrees (indent : Nat) {tokens : List Token} (h : P tokens) :
    Agree P (List.map crlfText) (names indent tokens) (names indent (tokens.map Token.crlf)) := by
  refine agree_bind (pass_agrees hP _ _ h) fun before tokens h => ?_
  simp only [List.length_map, texts_crlf]
  exact nameList_agrees hP indent _ _ h

include hn

theorem optionalSeries_agrees (indent : Nat) {tokens : List Token} (h : P tokens) :
    Agree P (List.map Phrase.crlf) (optionalSeries n indent tokens)
      (optionalSeries n indent (tokens.map Token.crlf)) := by
  unfold optionalSeries
  obtain ⟨ha, ha'⟩ | ⟨before, token, rest, ha, ha', hrest⟩ :=
    ahead_cases hP indent { lineEnd := true, quote := true } h
  · simp only [ha, ha']
    exact agree_ok h fun _ => rfl
  · simp only [ha, ha', beginsOperand_crlf]
    refine agree_ite (fun _ => ?_) fun _ => agree_ok h fun _ => rfl
    exact agree_bind (series_agrees hP hn _ hrest) fun value tokens h => agree_ok h fun _ => by simp

theorem strictExpressions_agrees (indent fuel : Nat) :
    ∀ (found : List Phrase) {tokens : List Token}, P tokens →
      Agree P (List.map Phrase.crlf) (strictExpressions n indent fuel found tokens)
        (strictExpressions n indent fuel (found.map Phrase.crlf) (tokens.map Token.crlf)) := by
  induction fuel with
  | zero => exact fun _ tokens _ => agree_stuck tokens
  | succ fuel ih =>
    intro found tokens h
    unfold strictExpressions
    refine agree_bind (hn.expression _ _ h) fun next tokens h => ?_
    obtain ⟨ha, ha'⟩ | ⟨before, token, rest, ha, ha', hrest⟩ := ahead_cases hP indent lineEndNext h
    · simp only [ha, ha']
      exact agree_ok h fun _ => by simp
    · simp only [ha, ha', isSymbol_crlf]
      refine agree_ite (fun hs => ?_) fun _ => agree_ok h fun _ => by simp
      refine agree_bind (pass_agrees hP _ _ (hP.symbol hrest hs)) fun behind tokens h => ?_
      simpa using ih (found ++ [next] ++ before ++ behind) h

theorem raiseCause_agrees (indent : Nat) (parts : List Phrase) {tokens : List Token}
    (h : P tokens) :
    Agree P Form.crlf (raiseCause n indent parts tokens)
      (raiseCause n indent (parts.map Phrase.crlf) (tokens.map Token.crlf)) := by
  unfold raiseCause
  obtain ⟨ha, ha'⟩ | ⟨before, token, rest, ha, ha', hrest⟩ := ahead_cases hP indent lineEndNext h
  · simp only [ha, ha']
    exact agree_ok h fun _ => rfl
  · simp only [ha, ha', isWord_crlf]
    refine agree_ite (fun hw => ?_) fun _ => agree_ok h fun _ => rfl
    refine agree_bind (pass_agrees hP _ _ (hP.word hrest hw)) fun behind tokens h => ?_
    refine agree_bind (hn.expression _ _ h) fun _ tokens h => agree_ok h fun _ => ?_
    simp

theorem raise_agrees (indent : Nat) {tokens : List Token} (h : P tokens) :
    Agree P Form.crlf (raise n indent tokens) (raise n indent (tokens.map Token.crlf)) := by
  simp only [raise, peekWord_crlf]
  refine agree_ite (fun _ => raiseCause_agrees hP hn indent [] h) fun _ => ?_
  exact agree_bind (optionalSeries_agrees hP hn indent h) fun parts tokens h =>
    raiseCause_agrees hP hn indent parts h

theorem printArguments_agrees (indent fuel : Nat) :
    ∀ {tokens : List Token}, P tokens →
      Agree P id (printArguments n indent fuel tokens)
        (printArguments n indent fuel (tokens.map Token.crlf)) := by
  induction fuel with
  | zero => exact fun h => agree_ok h fun _ => rfl
  | succ fuel ih =>
    intro tokens h
    unfold printArguments
    obtain ⟨ha, ha'⟩ | ⟨_, token, rest, ha, ha', hrest⟩ := ahead_cases hP indent lineEndNext h
    · simp only [ha, ha']
      exact agree_ok h fun _ => rfl
    simp only [ha, ha', isSymbol_crlf]
    refine agree_ite (fun hs => ?_) fun _ => agree_ok h fun _ => rfl
    have hrest := hP.symbol hrest hs
    obtain ⟨hb, hb'⟩ | ⟨_, next, rest', hb, hb', hnext⟩ :=
      ahead_cases hP indent { lineEnd := true, quote := true } hrest
    · simp only [hb, hb']
      exact agree_ok hrest fun _ => rfl
    · simp only [hb, hb', beginsOperand_crlf]
      refine agree_ite (fun _ => ?_) fun _ => agree_ok hrest fun _ => rfl
      exact agree_bind (hn.expression _ _ hnext) fun _ tokens h => ih h

theorem legacyPrint_agrees (indent : Nat) {tokens : List Token} (h : P tokens) :
    Agree P Form.crlf (legacyPrint n indent tokens)
      (legacyPrint n indent (tokens.map Token.crlf)) := by
  refine agree_bind (pass_agrees hP _ _ h) fun _ tokens h => ?_
  extract_lets next
  have hnext : ∀ {tokens}, P tokens →
      Agree P Form.crlf (next tokens) (next (tokens.map Token.crlf)) := by
    intro tokens h
    refine agree_bind (hn.expression _ _ h) fun _ tokens h => ?_
    simp only [List.length_map]
    exact agree_bind (printArguments_agrees hP hn indent _ h) fun _ tokens h =>
      agree_ok h fun _ => rfl
  cases tokens with
  | nil => exact hnext h
  | cons token rest =>
    simp only [List.map_cons, isSymbol_crlf]
    refine agree_ite (fun hs => ?_) fun _ => hnext h
    exact agree_bind (pass_agrees hP _ _ (hP.symbol h hs)) fun _ tokens h => hnext h

theorem legacyExec_agrees (indent : Nat) {tokens : List Token} (h : P tokens) :
    Agree P Form.crlf (legacyExec n indent tokens)
      (legacyExec n indent (tokens.map Token.crlf)) := by
  refine agree_bind (pass_agrees hP _ _ h) fun _ tokens h => ?_
  extract_lets next
  have hnext : ∀ (value value' : Phrase) {tokens}, P tokens →
      Agree P Form.crlf (next (value, tokens)) (next (value', tokens.map Token.crlf)) := by
    intro value value' tokens h
    simp only [next]
    obtain ⟨ha, ha'⟩ | ⟨_, token, rest, ha, ha', hrest⟩ := ahead_cases hP indent lineEndNext h
    · simp only [ha, ha']
      exact agree_ok h fun _ => rfl
    · simp only [ha, ha', isWord_crlf]
      refine agree_ite (fun hw => ?_) fun _ => agree_ok h fun _ => rfl
      refine agree_bind (pass_agrees hP _ _ (hP.word hrest hw)) fun _ tokens h => ?_
      simp only [List.length_map]
      exact agree_bind (strictExpressions_agrees hP hn indent _ [] h) fun _ tokens h =>
        agree_ok h fun _ => rfl
  cases tokens with
  | nil => exact agree_bind (agree_stuck (f := Phrase.crlf) []) fun value _ h =>
      hnext value value.crlf h
  | cons token rest =>
    simp only [List.map_cons, lexeme_crlf]
    refine agree_ite (fun hl => ?_) fun _ => ?_
    · exact hnext (.name token.text) (.name token.crlf.text) (hP.lexeme h hl (by simp))
    · exact agree_bind (literal_agrees hP hn h) fun value _ h => hnext value value.crlf h

theorem typeAlias_agrees (indent : Nat) {tokens : List Token} (h : P tokens) :
    Agree P Form.crlf (typeAlias n indent tokens) (typeAlias n indent (tokens.map Token.crlf)) := by
  refine agree_bind (pass_agrees hP _ _ h) fun _ tokens h => ?_
  refine agree_bind (hn.type _ _ h) fun _ tokens h => ?_
  refine agree_bind (passSymbol_agrees hP _ _ _ h) fun _ tokens h => ?_
  refine agree_bind (pass_agrees hP _ _ h) fun _ tokens h => ?_
  exact agree_bind (hn.type _ _ h) fun _ tokens h => agree_ok h fun _ => rfl

theorem keywordStatement?_agrees (indent : Nat) (word : String) :
    OffersAgree P (keywordStatement? n indent word) := by
  unfold keywordStatement?
  refine offersAgree_if (fun h => agree_ok h fun _ => rfl) ?_
  refine offersAgree_if (fun h => agree_ok h fun _ => rfl) ?_
  refine offersAgree_if (fun h => agree_ok h fun _ => rfl) ?_
  refine offersAgree_if (fun h => ?_) ?_
  · exact agree_bind (optionalSeries_agrees hP hn indent h) fun parts tokens h =>
      agree_ok h fun _ => rfl
  refine offersAgree_if (fun h => ?_) ?_
  · refine agree_bind (g := List.map Phrase.crlf) ?_ fun parts tokens h =>
      agree_ok h fun _ => rfl
    refine agree_bind (pass_agrees hP _ _ h) fun before tokens h => ?_
    exact agree_bind (series_agrees hP hn _ h) fun value tokens h => agree_ok h fun _ => by simp
  refine offersAgree_if (fun h => ?_) ?_
  · refine agree_bind (g := List.map Phrase.crlf) ?_ fun parts tokens h =>
      agree_ok h fun _ => rfl
    refine agree_bind (pass_agrees hP _ _ h) fun before tokens h => ?_
    simp only [List.length_map]
    exact strictExpressions_agrees hP hn indent _ before h
  refine offersAgree_if (raise_agrees hP hn indent) ?_
  refine offersAgree_if (fun h => ?_) ?_
  · exact agree_bind (names_agrees hP indent h) fun found tokens h =>
      agree_ok h fun _ => rfl
  refine offersAgree_if (fun h => ?_) ?_
  · exact agree_bind (names_agrees hP indent h) fun found tokens h =>
      agree_ok h fun _ => rfl
  refine offersAgree_if (fun h => ?_) ?_
  · refine agree_bind (pass_agrees hP _ _ h) fun _ tokens h => ?_
    simp only [List.length_map]
    exact agree_bind (importNames_agrees hP _ _ [] h) fun found tokens h =>
      agree_ok h fun _ => rfl
  refine offersAgree_if (fun h => ?_) offersAgree_none
  exact agree_bind (pass_agrees hP _ _ h) fun _ tokens h => importFrom_agrees hP indent h

theorem simpleStatement_agrees (indent : Nat) {tokens : List Token} (h : P tokens) :
    Agree P Form.crlf (simpleStatement n indent tokens)
      (simpleStatement n indent (tokens.map Token.crlf)) := by
  cases tokens with
  | nil => exact agree_stuck []
  | cons token rest =>
    have hplain := complete_agrees indent (expressionStatement_agrees hP hn indent h)
    rw [List.map_cons] at hplain
    simp only [simpleStatement, List.map_cons, lexeme_crlf, peekSymbol_crlf]
    by_cases hl : token.lexeme = .word
    · have hrest := hP.lexeme h hl (by simp)
      have hkeyword := keywordStatement?_agrees hP hn indent token.text
      simp only [hl, if_true, text_crlf_of_word hl]
      cases hk : keywordStatement? n indent token.text with
      | some reader => exact complete_agrees indent (hkeyword reader hk hrest)
      | none =>
        have hprint := complete_agrees indent (legacyPrint_agrees hP hn indent hrest)
        refine agree_ite (fun _ => ?_) fun _ => agree_ite (fun _ => ?_) fun _ =>
          agree_ite (fun _ => ?_) fun _ => hplain
        · exact agree_ite (fun _ => hprint) fun _ => agree_either hplain hprint
        · exact agree_either hplain (complete_agrees indent (legacyExec_agrees hP hn indent hrest))
        · exact agree_either (complete_agrees indent (typeAlias_agrees hP hn indent hrest)) hplain
    · simpa only [hl, if_false] using hplain

end

end Marksheet.Grammar
