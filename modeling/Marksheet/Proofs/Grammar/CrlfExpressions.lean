import Marksheet.Proofs.Grammar.CrlfBrackets

/-!
# Expressions with line ends of two characters

Operators, anonymous functions and types. With them every reader of a phrase
agrees, by induction on the number of levels (`nested_agrees`).
-/

namespace Marksheet.Grammar

open Source Syntax

/-- Whether a comparison is broken over lines, and its links with other line ends. -/
def crlfComparisons : Bool × List (CmpOp × Phrase) → Bool × List (CmpOp × Phrase) :=
  Prod.map id (List.map crlfLink)

theorem sign?_crlf (token : Token) : sign? token.crlf = sign? token := rfl

theorem awaits_crlf (place : Place) (tokens : List Token) :
    awaits place (tokens.map Token.crlf) = awaits place tokens := by
  cases tokens with
  | nil => rfl
  | cons token rest =>
    simp only [List.map_cons, awaits, isWord_crlf, peek_crlf]
    cases peek place.indent { place.viable with quote := true } rest with
    | none => rfl
    | some next =>
      simp only [Option.map_some, beginsOperand_crlf]
      rw [word_crlf next isInfixWord]

section

variable {P : List Token → Prop} (hP : Passes P) {n : Nested} (hn : n.Agrees P)

include hP hn

/-! ### Binary operators -/

theorem binaryTail_agrees (place : Place) (least fuel : Nat) :
    ∀ (left : Phrase) {tokens : List Token}, P tokens →
      Agree P Phrase.crlf (binaryTail n place least fuel left tokens)
        (binaryTail n place least fuel left.crlf (tokens.map Token.crlf)) := by
  induction fuel with
  | zero => exact fun _ _ h => agree_ok h fun _ => rfl
  | succ fuel ih =>
    intro left tokens h
    unfold binaryTail
    obtain ⟨ha, ha'⟩ | ⟨before, token, rest, ha, ha', hrest⟩ :=
      ahead_cases hP place.indent place.viable h
    · simp only [ha, ha']
      exact agree_ok h fun _ => rfl
    · simp only [ha, ha', lexeme_crlf]
      cases hl : token.lexeme with
      | symbol symbol =>
        cases symbol with
        | op op =>
          refine agree_ite (fun _ => ?_) fun _ => agree_ok h fun _ => rfl
          refine agree_bind (pass_agrees hP _ _ (hP.lexeme hrest hl (by simp))) fun _ tokens h => ?_
          refine agree_bind (hn.operand place _ h) fun right tokens h => ?_
          exact ih (.binary op left right) h
        | _ => exact agree_ok h fun _ => rfl
      | _ => exact agree_ok h fun _ => rfl

theorem operand_agrees (place : Place) (least : Nat) {tokens : List Token} (h : P tokens) :
    Agree P Phrase.crlf (operand n place least tokens)
      (operand n place least (tokens.map Token.crlf)) := by
  cases tokens with
  | nil => exact agree_stuck []
  | cons token rest =>
    have hawaits := awaits_crlf place (token :: rest)
    rw [List.map_cons] at hawaits
    simp only [operand, List.map_cons, sign?_crlf, hawaits]
    cases hs : sign? token with
    | some op =>
      have hne : token.lexeme ≠ .broken := fun hb => by simp [sign?, hb] at hs
      refine agree_ite (fun _ => ?_) fun _ => agree_stuck (token :: rest)
      refine agree_bind (pass_agrees hP _ _ (hP.tail h hne)) fun _ tokens h => ?_
      refine agree_bind (hn.operand place 21 h) fun value tokens h => ?_
      simp only [List.length_map]
      exact binaryTail_agrees hP hn place least _ (.unary op value) h
    | none =>
      refine agree_ite (fun ha => ?_) fun _ => ?_
      · have hw : token.isWord "await" = true := by
          simp only [awaits, Bool.and_eq_true] at ha
          exact ha.2.1
        refine agree_bind (pass_agrees hP _ _ (hP.word h hw)) fun between tokens h => ?_
        refine agree_bind (hn.operand place 21 h) fun value tokens h => ?_
        simpa [Phrase.crlf] using
          binaryTail_agrees hP hn place least tokens.length (.await (between ++ [value])) h
      · refine agree_bind (primary_agrees hP hn place h) fun value tokens h => ?_
        simp only [List.length_map]
        exact binaryTail_agrees hP hn place least _ value h

/-! ### Comparisons -/

omit hn in
/-- The same comparison operator stands at the head of both texts, if there is one. -/
theorem comparisonOp?_cases (place : Place) {tokens : List Token} (h : P tokens) :
    (comparisonOp? place tokens = none ∧ comparisonOp? place (tokens.map Token.crlf) = none) ∨
      ∃ op rest, comparisonOp? place tokens = some (op, rest) ∧
        comparisonOp? place (tokens.map Token.crlf) = some (op, rest.map Token.crlf) ∧ P rest := by
  cases tokens with
  | nil => exact .inl ⟨rfl, rfl⟩
  | cons token rest =>
    simp only [List.map_cons, comparisonOp?, lexeme_crlf]
    cases hl : token.lexeme with
    | symbol symbol =>
      have hrest := hP.lexeme h hl (by simp)
      cases symbol with
      | less | lessEq | greater | greaterEq | eqEq | notEq | lessGreater =>
        exact .inr ⟨_, rest, rfl, rfl, hrest⟩
      | _ => exact .inl ⟨rfl, rfl⟩
    | word =>
      have hrest := hP.lexeme h hl (by simp)
      simp only [text_crlf_of_word hl]
      by_cases hin : token.text = "in"
      · simp only [hin, if_true]
        exact .inr ⟨_, rest, rfl, rfl, hrest⟩
      by_cases hnot : token.text = "not"
      · simp only [hnot, String.reduceEq, if_true, if_false]
        obtain ⟨ha, ha'⟩ | ⟨before, next, rest', ha, ha', hnext⟩ :=
          ahead_cases hP place.indent {} hrest
        · simp only [ha, ha']
          exact .inl ⟨trivial, trivial⟩
        · simp only [ha, ha', isWord_crlf]
          by_cases hw : next.isWord "in" = true
          · simp only [hw, if_true]
            exact .inr ⟨_, rest', rfl, rfl, hP.word hnext hw⟩
          · simp only [hw]
            exact .inl ⟨rfl, rfl⟩
      by_cases his : token.text = "is"
      · simp only [his, String.reduceEq, if_true, if_false]
        obtain ⟨ha, ha'⟩ | ⟨before, next, rest', ha, ha', hnext⟩ :=
          ahead_cases hP place.indent operandNext hrest
        · simp only [ha, ha']
          exact .inr ⟨_, rest, rfl, rfl, hrest⟩
        · simp only [ha, ha', isWord_crlf]
          by_cases hw : next.isWord "not" = true
          · simp only [hw, if_true]
            exact .inr ⟨_, rest', rfl, rfl, hP.word hnext hw⟩
          · simp only [hw]
            exact .inr ⟨_, rest, rfl, rfl, hrest⟩
      · refine .inl ⟨?_, ?_⟩ <;> simp only [hin, hnot, his, if_false]
    | _ => exact .inl ⟨rfl, rfl⟩

theorem comparisonTail_agrees (place : Place) (fuel : Nat) :
    ∀ (broken : Bool) (links : List (CmpOp × Phrase)) {tokens : List Token}, P tokens →
      Agree P crlfComparisons (comparisonTail n place fuel broken links tokens)
        (comparisonTail n place fuel broken (links.map crlfLink) (tokens.map Token.crlf)) := by
  induction fuel with
  | zero => exact fun _ _ _ h => agree_ok h fun _ => rfl
  | succ fuel ih =>
    intro broken links tokens h
    unfold comparisonTail
    obtain ⟨ha, ha'⟩ | ⟨before, token, rest, ha, ha', hrest⟩ :=
      ahead_cases hP place.indent place.viable h
    · simp only [ha, ha']
      exact agree_ok h fun _ => rfl
    · obtain ⟨hc, hc'⟩ | ⟨op, behind, hc, hc', hbehind⟩ := comparisonOp?_cases hP place hrest
      · rw [List.map_cons] at hc'
        simp only [ha, ha', hc, hc']
        exact agree_ok h fun _ => rfl
      · rw [List.map_cons] at hc'
        simp only [ha, ha', hc, hc']
        refine agree_bind (pass_agrees hP _ _ hbehind) fun behind tokens h => ?_
        refine agree_bind (hn.operand place 0 h) fun right tokens h => ?_
        simpa [crlfLink] using
          ih (broken || !before.isEmpty || !behind.isEmpty) (links ++ [(op, right)]) h

theorem comparison_agrees (place : Place) {tokens : List Token} (h : P tokens) :
    Agree P Phrase.crlf (comparison n place tokens) (comparison n place (tokens.map Token.crlf)) := by
  refine agree_bind (operand_agrees hP hn place 0 h) fun left tokens h => ?_
  simp only [List.length_map]
  refine agree_bind (comparisonTail_agrees hP hn place _ false [] h) fun ⟨broken, links⟩ tokens h => ?_
  simp only [crlfComparisons, Prod.map, List.isEmpty_map]
  exact agree_ite (fun _ => agree_ok h fun _ => rfl)
    fun _ => agree_ok h fun _ => by rw [Phrase.crlf, crlfLinks_eq]; rfl

/-! ### Parameters -/

theorem starredParameter_agrees (place : Place) (typed : Bool) {before tokens : List Token}
    (hbefore : P before) (h : P tokens) :
    Agree P Parameter.crlf (starredParameter n place typed before tokens)
      (starredParameter n place typed (before.map Token.crlf) (tokens.map Token.crlf)) := by
  refine agree_bind (pass_agrees hP _ _ h) fun _ tokens h => ?_
  refine agree_bind (hn.operand place 22 h) fun value tokens h => ?_
  have htext (hF : Faithful P) :
      textBetween (before.map Token.crlf) (tokens.map Token.crlf) =
        crlfText (textBetween before tokens) := textBetween_crlf (hF before hbefore) tokens
  simp only [Phrase.crlf_isPlace, peekSymbol_crlf]
  refine agree_ite (fun _ => ?_) fun _ => agree_stuck tokens
  refine agree_ite (fun _ => ?_) fun _ => agree_ok h fun hF => by rw [htext hF]; rfl
  refine agree_bind (passSymbol_agrees hP _ _ _ h) fun _ tokens h => ?_
  refine agree_bind (pass_agrees hP _ _ h) fun _ tokens h => ?_
  refine agree_bind (hn.type place true h) fun _ tokens h => ?_
  exact agree_ok h fun hF => by rw [htext hF]; rfl

theorem parameterTail_agrees (place : Place) (typed : Bool) {text text' : String}
    (ht : Faithful P → text' = crlfText text) {tokens : List Token} (h : P tokens) :
    Agree P Parameter.crlf (parameterTail n place typed text tokens)
      (parameterTail n place typed text' (tokens.map Token.crlf)) := by
  unfold parameterTail
  extract_lets next next'
  have hnext : ∀ (value : Unit) tokens, P tokens →
      Agree P Parameter.crlf (next (value, tokens)) (next' (value, tokens.map Token.crlf)) := by
    intro _ tokens h
    simp only [next, next', peekSymbol_crlf]
    refine agree_ite (fun _ => ?_) fun _ => agree_ok h fun hF => by rw [ht hF]; rfl
    refine agree_bind (passSymbol_agrees hP _ _ _ h) fun _ tokens h => ?_
    refine agree_bind (pass_agrees hP _ _ h) fun _ tokens h => ?_
    refine agree_bind (hn.expression place {} h) fun value tokens h => ?_
    exact agree_ok h fun hF => by rw [ht hF]; rfl
  simp only [peekSymbol_crlf]
  refine agree_ite (fun _ => ?_) fun _ => hnext () tokens h
  refine agree_bind (passSymbol_agrees hP _ _ _ h) fun _ tokens h => ?_
  refine agree_bind (pass_agrees hP _ _ h) fun _ tokens h => ?_
  exact agree_bind (hn.type place true h) fun _ tokens h => hnext () tokens h

theorem parameter_agrees (place : Place) (typed : Bool) {tokens : List Token} (h : P tokens) :
    Agree P Parameter.crlf (parameter n place typed tokens)
      (parameter n place typed (tokens.map Token.crlf)) := by
  cases tokens with
  | nil => exact agree_stuck []
  | cons token rest =>
    unfold parameter
    simp only [List.map_cons, lexeme_crlf]
    cases hl : token.lexeme with
    | word =>
      exact parameterTail_agrees hP hn place typed
        (fun hF => crlfText_text (hF _ h token List.mem_cons_self)) (hP.lexeme h hl (by simp))
    | symbol symbol =>
      have hrest := hP.lexeme h hl (by simp)
      cases symbol with
      | op op =>
        cases op with
        | mul =>
          simp only [peek_crlf]
          cases peek place.indent place.viable rest with
          | none => exact agree_ok hrest fun _ => rfl
          | some next =>
            exact agree_ite (fun _ => starredParameter_agrees hP hn place typed h hrest)
              fun _ => agree_ok hrest fun _ => rfl
        | pow => exact starredParameter_agrees hP hn place typed h hrest
        | div => exact agree_ok hrest fun _ => rfl
        | _ => exact agree_stuck (token :: rest)
      | lparen =>
        refine agree_bind (hn.operand place 22 h) fun value after hafter => ?_
        simp only [Phrase.crlf_pattern?]
        cases value.pattern? with
        | none => exact agree_stuck (token :: rest)
        | some pattern =>
          cases pattern with
          | tuple items =>
            refine agree_bind (parameterTail_agrees hP hn place false
              (fun hF => textBetween_crlf (hF _ h) after) hafter) fun found tokens h => ?_
            cases found <;> exact agree_ok h fun _ => rfl
          | _ => exact agree_stuck (token :: rest)
      | _ => exact agree_stuck (token :: rest)
    | _ => exact agree_stuck (token :: rest)

theorem parameters_agrees (place : Place) (typed : Bool) (ends : Symbol) (fuel : Nat) :
    ∀ (found : List Parameter) {tokens : List Token}, P tokens →
      Agree P (List.map Parameter.crlf) (parameters n place typed ends fuel found tokens)
        (parameters n place typed ends fuel (found.map Parameter.crlf) (tokens.map Token.crlf)) := by
  induction fuel with
  | zero => exact fun _ tokens _ => agree_stuck tokens
  | succ fuel ih =>
    intro found tokens h
    unfold parameters
    refine agree_bind (parameter_agrees hP hn place typed h) fun next tokens h => ?_
    have hfound : found.map Parameter.crlf ++ [next.crlf] = (found ++ [next]).map Parameter.crlf := by
      simp
    simp only [peekSymbol_crlf, hfound]
    refine agree_ite (fun _ => ?_) fun _ => agree_ok h fun _ => rfl
    refine agree_bind (passSymbol_agrees hP _ _ _ h) fun _ tokens h => ?_
    refine agree_bind (pass_agrees hP _ _ h) fun _ tokens h => ?_
    cases tokens with
    | nil => exact agree_stuck []
    | cons token rest =>
      exact agree_ite (fun _ => agree_ok h fun _ => rfl) fun _ => ih (found ++ [next]) h

/-! ### Expressions -/

theorem lambda_agrees (place : Place) (level : Level) {tokens : List Token} (h : P tokens) :
    Agree P Phrase.crlf (lambda n place level tokens)
      (lambda n place level (tokens.map Token.crlf)) := by
  refine agree_bind (takeWord_agrees hP _ h) fun _ tokens h => ?_
  refine agree_bind (pass_agrees hP _ _ h) fun _ tokens h => ?_
  extract_lets next
  have hnext : ∀ (params : List Parameter) tokens, P tokens → Agree P Phrase.crlf
      (next (params, tokens)) (next (params.map Parameter.crlf, tokens.map Token.crlf)) := by
    intro params tokens h
    refine agree_bind (passSymbol_agrees hP _ _ _ h) fun _ tokens h => ?_
    refine agree_bind (pass_agrees hP _ _ h) fun _ tokens h => ?_
    refine agree_bind (hn.expression place _ h) fun body tokens h => agree_ok h fun _ => ?_
    rw [Phrase.crlf, crlfParameters_eq]
  cases tokens with
  | nil => exact agree_bind (agree_stuck []) hnext
  | cons token rest =>
    simp only [List.map_cons, isSymbol_crlf, List.length_cons, List.length_map]
    refine agree_ite (fun _ => hnext [] _ h) fun _ => ?_
    exact agree_bind (parameters_agrees hP hn ⟨place.indent, {}⟩ false .colon _ [] h) hnext

theorem simpleExpression_agrees (place : Place) (level : Level) {tokens : List Token}
    (h : P tokens) :
    Agree P Phrase.crlf (simpleExpression n place level tokens)
      (simpleExpression n place level (tokens.map Token.crlf)) := by
  cases tokens with
  | nil => exact agree_stuck []
  | cons token rest =>
    simp only [simpleExpression, List.map_cons, isWord_crlf, peekSymbol_crlf]
    refine agree_ite (fun hw => ?_) fun _ => agree_ite (fun _ => ?_) fun _ => ?_
    · refine agree_bind (pass_agrees hP _ _ (hP.word h hw)) fun _ tokens h => ?_
      exact agree_bind (hn.expression place _ h) fun value tokens h => agree_ok h fun _ => rfl
    · exact lambda_agrees hP hn place level h
    · rw [word_crlf token fun text => (constantWord? text).isNone]
      refine agree_ite (fun hw => ?_) fun _ => comparison_agrees hP hn place h
      have hl : token.lexeme = .word := by
        simp only [Bool.and_eq_true, decide_eq_true_eq] at hw
        exact hw.1.1
      refine agree_bind (passSymbol_agrees hP _ _ _ (hP.lexeme h hl (by simp))) fun _ tokens h => ?_
      refine agree_bind (pass_agrees hP _ _ h) fun _ tokens h => ?_
      refine agree_bind (hn.expression place _ h) fun value tokens h => agree_ok h fun _ => ?_
      rw [text_crlf (by rw [hl]; rfl), Phrase.crlf]

theorem infixTail_agrees (place : Place) (level : Level) (fuel : Nat) :
    ∀ (left left' : Phrase), (Faithful P → left' = left.crlf) →
      ∀ {tokens : List Token}, P tokens →
        Agree P Phrase.crlf (infixTail n place level fuel left tokens)
          (infixTail n place level fuel left' (tokens.map Token.crlf)) := by
  induction fuel with
  | zero => exact fun _ _ hl _ h => agree_ok h hl
  | succ fuel ih =>
    intro left left' hl tokens h
    unfold infixTail
    obtain ⟨ha, ha'⟩ | ⟨before, token, rest, ha, ha', hrest⟩ :=
      ahead_cases hP place.indent place.viable h
    · simp only [ha, ha']
      exact agree_ok h hl
    have hrest (word : String) (binds : Bool)
        (hw : (token.isWord word && binds) = true) : P rest :=
      hP.word hrest (Bool.and_eq_true_iff.1 hw).1
    simp only [ha, ha', isWord_crlf]
    refine agree_ite (fun hw => ?_) fun _ => agree_ite (fun hw => ?_) fun _ =>
      agree_ite (fun hw => ?_) fun _ => agree_ite (fun hw => ?_) fun _ => agree_ok h hl
    · refine agree_bind (pass_agrees hP _ _ (hrest _ _ hw)) fun _ tokens h => ?_
      refine agree_bind (hn.expression place _ h) fun right tokens h => ?_
      exact ih (.boolean .or left right) _ (fun hF => by rw [hl hF, Phrase.crlf]) h
    · refine agree_bind (pass_agrees hP _ _ (hrest _ _ hw)) fun _ tokens h => ?_
      refine agree_bind (hn.expression place _ h) fun right tokens h => ?_
      exact ih (.boolean .and left right) _ (fun hF => by rw [hl hF, Phrase.crlf]) h
    · refine agree_bind (pass_agrees hP _ _ (hrest _ _ hw)) fun b tokens h => ?_
      refine agree_bind (hn.expression _ _ h) fun test tokens h => ?_
      refine agree_bind (passWord_agrees hP _ _ _ h) fun c tokens h => ?_
      refine agree_bind (pass_agrees hP _ _ h) fun d tokens h => ?_
      refine agree_bind (hn.expression place _ h) fun orelse tokens h => ?_
      exact ih (.conditional (!(before ++ b ++ c ++ d).isEmpty) left test orelse) _
        (fun hF => by simp only [hl hF, Phrase.crlf, ← List.map_append, List.isEmpty_map]) h
    · refine agree_bind (pass_agrees hP _ _ (hrest _ _ hw)) fun behind start hstart => ?_
      refine agree_bind (hn.expression place _ hstart) fun target tokens h => ?_
      refine ih (.asPattern left (before ++ behind) target (textBetween start tokens)) _
        (fun hF => ?_) h
      rw [hl hF, textBetween_crlf (hF start hstart), Phrase.crlf, crlfPhrases_eq, List.map_append]

theorem expression_agrees (place : Place) (level : Level) {tokens : List Token} (h : P tokens) :
    Agree P Phrase.crlf (expression n place level tokens)
      (expression n place level (tokens.map Token.crlf)) := by
  refine agree_bind (simpleExpression_agrees hP hn place level h) fun left tokens h => ?_
  simp only [List.length_map]
  exact infixTail_agrees hP hn place level _ left left.crlf (fun _ => rfl) h

/-! ### Types -/

theorem typeArguments_agrees (indent : Nat) {tokens : List Token} (h : P tokens) :
    Agree P id (typeArguments n indent tokens) (typeArguments n indent (tokens.map Token.crlf)) := by
  refine agree_bind (takeSymbol_agrees hP _ h) fun _ tokens h => ?_
  refine agree_bind (pass_agrees hP _ _ h) fun _ tokens h => ?_
  refine agree_bind (hn.type _ _ h) fun first tokens h => ?_
  simp only [List.length_map]
  refine agree_bind (moreElements_agrees hP (hn.type _ _) _ _ _ [first] h) fun _ tokens h => ?_
  exact agree_ok h fun _ => rfl

theorem typeTail_agrees (place : Place) (colon : Bool) (fuel : Nat) :
    ∀ (left : Phrase) (plain : Bool) {tokens : List Token}, P tokens →
      Agree P Phrase.crlf (typeTail n place colon fuel (left, plain) tokens)
        (typeTail n place colon fuel (left.crlf, plain) (tokens.map Token.crlf)) := by
  induction fuel with
  | zero => exact fun _ _ _ h => agree_ok h fun _ => rfl
  | succ fuel ih =>
    intro left plain tokens h
    unfold typeTail
    obtain ⟨ha, ha'⟩ | ⟨before, token, rest, ha, ha', hrest⟩ :=
      ahead_cases hP place.indent place.viable h
    · simp only [ha, ha']
      exact agree_ok h fun _ => rfl
    have hrest (flag : Bool) (symbol : Symbol)
        (hs : (flag && token.isSymbol symbol) = true) : P rest :=
      hP.symbol hrest (Bool.and_eq_true_iff.1 hs).2
    simp only [ha, ha', isSymbol_crlf]
    refine agree_ite (fun hs => ?_) fun _ => agree_ite (fun hs => ?_) fun _ =>
      agree_ite (fun hs => ?_) fun _ => agree_ok h fun _ => rfl
    · refine agree_bind (pass_agrees hP _ _ (hrest _ _ hs)) fun _ tokens h => ?_
      exact agree_bind (hn.type place false h) fun _ tokens h => ih (.other "union_type") false h
    · exact agree_bind (passName_agrees hP _ _ (hrest _ _ hs)) fun _ tokens h =>
        ih (.other "member_type") false h
    · refine agree_bind (pass_agrees hP _ _ (hrest _ _ hs)) fun _ tokens h => ?_
      exact agree_bind (hn.type place true h) fun _ tokens h => agree_ok h fun _ => rfl

omit hn in
theorem splatType_agrees (place : Place) {tokens : List Token} (h : P tokens) :
    Agree P Phrase.crlf (splatType place tokens) (splatType place (tokens.map Token.crlf)) := by
  cases tokens with
  | nil => exact agree_stuck []
  | cons token rest =>
    simp only [splatType, List.map_cons, isSymbol_crlf]
    refine agree_ite (fun hs => ?_) fun _ => agree_stuck (token :: rest)
    have hrest : P rest := (Bool.or_eq_true_iff.1 hs).elim (hP.symbol h) (hP.symbol h)
    refine agree_bind (passName_agrees hP _ _ hrest) fun _ tokens h => ?_
    simp only [peek_crlf]
    cases peek place.indent place.viable tokens with
    | none => exact agree_ok h fun _ => rfl
    | some next => exact agree_ite (fun _ => agree_stuck tokens) fun _ => agree_ok h fun _ => rfl

theorem type_agrees (place : Place) (colon : Bool) {tokens : List Token} (h : P tokens) :
    Agree P Phrase.crlf (type n place colon tokens) (type n place colon (tokens.map Token.crlf)) := by
  have htail := fun (plain : Bool) (left : Phrase) (tokens : List Token) (h : P tokens) =>
    typeTail_agrees hP hn place colon tokens.length left plain h
  unfold type
  extract_lets generic generic'
  have hgeneric : generic' = generic := by
    cases tokens with
    | nil => rfl
    | cons token rest =>
      simp only [generic, generic', List.map_cons, peekSymbol_crlf]
      rw [word_crlf token fun text => !isReservedWord text]
  rw [hgeneric]
  refine agree_ite (fun _ => ?_) fun _ => ?_
  · refine agree_bind (takeName_agrees hP h) fun _ tokens h => ?_
    refine agree_bind (pass_agrees hP _ _ h) fun _ tokens h => ?_
    refine agree_bind (typeArguments_agrees hP hn _ h) fun _ tokens h => ?_
    simp only [List.length_map]
    exact htail false (.other "generic_type") tokens h
  · have hsplat := splatType_agrees hP place h
    generalize splatType place tokens = reading at hsplat ⊢
    generalize splatType place (tokens.map Token.crlf) = reading' at hsplat ⊢
    apply agree_cases hsplat
    · intro left tokens h
      simp only [List.length_map]
      exact htail false left tokens h
    · refine fun _ => agree_bind (hn.expression place {} h) fun left tokens h => ?_
      simp only [List.length_map]
      exact htail true left tokens h

omit hn in
/-- Every reader of a phrase agrees with itself on tokens with other line ends. -/
theorem nested_agrees (levels : Nat) : (nested levels).Agrees P := by
  induction levels with
  | zero =>
    exact ⟨fun _ _ {tokens} _ => agree_stuck tokens, fun _ _ {tokens} _ => agree_stuck tokens,
      fun {tokens} _ => agree_stuck tokens, fun _ _ {tokens} _ => agree_stuck tokens⟩
  | succ levels ih =>
    exact ⟨fun place level {_} h => expression_agrees hP ih place level h,
      fun place least {_} h => operand_agrees hP ih place least h,
      fun {_} h => field_agrees hP ih h, fun place colon {_} h => type_agrees hP ih place colon h⟩

end

end Marksheet.Grammar
