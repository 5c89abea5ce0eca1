import Marksheet.Grammar.Block
import Marksheet.Proofs.Grammar.CrlfStatements

/-!
# Compound statements with line ends of two characters

The readers of lines, suites, clauses and definitions. A reader of nested
blocks is assumed to agree (`Blocks.Agrees`).
-/

namespace Marksheet.Grammar

open Source Syntax

/-- What stands behind a colon, with other line ends. -/
def crlfSuite : List Phrase × Block → List Phrase × Block :=
  Prod.map (List.map Phrase.crlf) (List.map Sentence.crlf)

/-- The readers of nested blocks agree. -/
def Blocks.Agrees (P : List Token → Prop) (b : Blocks) : Prop :=
  ∀ indent {tokens}, P tokens → Agree P (List.map Sentence.crlf) (b.block indent tokens)
    (b.block indent (tokens.map Token.crlf))

@[simp] theorem continuedSentences_crlf (continued : List Continued) :
    continuedSentences (continued.map fun line => (crlfText line.1, line.2)) =
      (continuedSentences continued).map Sentence.crlf := by
  simp [continuedSentences]

theorem starDirectly_crlf (tokens : List Token) :
    starDirectly (tokens.map Token.crlf) = starDirectly tokens := by
  cases tokens with
  | nil => rfl
  | cons token rest =>
    have hgap : token.crlf.gap = crlfGap token.gap := rfl
    simp only [List.map_cons, starDirectly, hgap, isEmpty_crlfGap, isSymbol_crlf]

section

variable {P : List Token → Prop} (hP : Passes P)

include hP

/-- What is kept when the gap of a token is settled. -/
theorem Passes.settle (indent : Nat) (viable : Viable) {token : Token} {rest : List Token}
    (h : P (token :: rest)) : P ((Grammar.settle indent viable token).token :: rest) := by
  obtain ⟨gap, hgap⟩ := exists_gap_settleFrom indent viable (token.gap.length + 1) [] token
  rw [Grammar.settle, hgap]
  exact hP.gap gap h

variable {n : Nested} (hn : n.Agrees P)

include hn

theorem simpleLine_agrees (indent fuel : Nat) :
    ∀ (found : Block) {tokens : List Token}, P tokens →
      Agree P (List.map Sentence.crlf) (simpleLine n indent fuel found tokens)
        (simpleLine n indent fuel (found.map Sentence.crlf) (tokens.map Token.crlf)) := by
  induction fuel with
  | zero => exact fun _ tokens _ => agree_stuck tokens
  | succ fuel ih =>
    intro found tokens h
    unfold simpleLine
    extract_lets start start'
    have hstart : start' = start := by cases tokens <;> rfl
    rw [hstart]
    refine agree_bind (simpleStatement_agrees hP hn indent h) fun form tokens h => ?_
    cases tokens with
    | nil => exact agree_stuck []
    | cons token rest =>
      have hset := hP.settle indent lineEndNext h
      have hfound (more : Block) : found.map Sentence.crlf ++ [Sentence.mk form.crlf start] ++
          more.map Sentence.crlf = (found ++ [Sentence.mk form start] ++ more).map Sentence.crlf := by
        simp
      simp only [List.map_cons, settle_crlf, Settled.crlf, continuedSentences_crlf, hfound]
      cases (Grammar.settle indent lineEndNext token).verdict with
      | lineEnds => exact agree_ok hset fun _ => rfl
      | _ =>
        refine agree_bind (takeSymbol_agrees hP _ hset) fun _ tokens h => ?_
        cases tokens with
        | nil => exact agree_stuck []
        | cons token rest =>
          have hset := hP.settle indent { lineEnd := true, quote := true } h
          simp only [List.map_cons, settle_crlf, Settled.crlf, continuedSentences_crlf,
            ← List.map_append]
          cases (Grammar.settle indent { lineEnd := true, quote := true } token).verdict with
          | lineEnds => exact agree_ok hset fun _ => rfl
          | _ => exact ih _ hset

variable {b : Blocks} (hb : b.Agrees P)

include hb

theorem suite_agrees (indent : Nat) {tokens : List Token} (h : P tokens) :
    Agree P crlfSuite (suite n b indent tokens) (suite n b indent (tokens.map Token.crlf)) := by
  cases tokens with
  | nil => exact agree_stuck []
  | cons token rest =>
    have hset := hP.settle indent { opening := true, lineEnd := true, quote := true } h
    simp only [suite, List.map_cons, settle_crlf, Settled.crlf, continuations_crlf,
      List.length_cons, List.length_map]
    cases (Grammar.settle indent { opening := true, lineEnd := true, quote := true } token).verdict with
    | opens width =>
      exact agree_bind (hb width hset) fun body tokens h => agree_ok h fun _ => rfl
    | lineEnds => exact agree_ok hset fun _ => rfl
    | _ =>
      exact agree_bind (simpleLine_agrees hP hn indent _ [] hset) fun body tokens h =>
        agree_ok h fun _ => rfl

theorem colonSuite_agrees (indent : Nat) {tokens : List Token} (h : P tokens) :
    Agree P crlfSuite (colonSuite n b indent tokens)
      (colonSuite n b indent (tokens.map Token.crlf)) := by
  refine agree_bind (passSymbol_agrees hP _ _ _ h) fun before tokens h => ?_
  refine agree_bind (suite_agrees hP hn hb indent h) fun found tokens h => ?_
  exact agree_ok h fun _ => by simp [crlfSuite]

omit hn hb in
/-- The same word begins the next clause in both texts, if there is one. -/
theorem clauseWord?_cases (indent : Nat) (word : String) {tokens : List Token} (h : P tokens) :
    (clauseWord? indent word tokens = none ∧
        clauseWord? indent word (tokens.map Token.crlf) = none) ∨
      ∃ token rest, clauseWord? indent word tokens = some (token, rest) ∧
        clauseWord? indent word (tokens.map Token.crlf) =
          some (token.crlf, rest.map Token.crlf) ∧ P rest := by
  unfold clauseWord?
  obtain ⟨ha, ha'⟩ | ⟨_, token, rest, ha, ha', hrest⟩ := ahead_cases hP indent (clauseNext indent) h
  · rw [ha, ha']
    exact .inl ⟨rfl, rfl⟩
  · simp only [ha, ha', isWord_crlf]
    by_cases hw : token.isWord word = true
    · simp only [hw, if_true]
      exact .inr ⟨token, rest, rfl, rfl, hP.word hrest hw⟩
    · exact .inl ⟨if_neg hw, if_neg hw⟩

theorem elseClause_agrees (indent : Nat) {tokens : List Token} (h : P tokens) :
    Agree P (Option.map (List.map Sentence.crlf)) (elseClause n b indent tokens)
      (elseClause n b indent (tokens.map Token.crlf)) := by
  unfold elseClause
  obtain ⟨hc, hc'⟩ | ⟨_, rest, hc, hc', hrest⟩ := clauseWord?_cases hP indent "else" h
  · simp only [hc, hc']
    exact agree_ok h fun _ => rfl
  · simp only [hc, hc']
    exact agree_bind (colonSuite_agrees hP hn hb indent hrest) fun _ tokens h =>
      agree_ok h fun _ => rfl

/-! ### Conditional statements and loops -/

theorem branches_agrees (indent fuel : Nat) :
    ∀ (found : List Branch) {tokens : List Token}, P tokens →
      Agree P (List.map Branch.crlf) (branches n b indent fuel found tokens)
        (branches n b indent fuel (found.map Branch.crlf) (tokens.map Token.crlf)) := by
  induction fuel with
  | zero => exact fun _ _ h => agree_ok h fun _ => rfl
  | succ fuel ih =>
    intro found tokens h
    unfold branches
    obtain ⟨hc, hc'⟩ | ⟨word, rest, hc, hc', hrest⟩ := clauseWord?_cases hP indent "elif" h
    · simp only [hc, hc']
      refine agree_bind (elseClause_agrees hP hn hb indent h) fun orelse tokens h => ?_
      cases orelse with
      | none => exact agree_ok h fun _ => rfl
      | some body => exact agree_ok h fun _ => by simp
    · simp only [hc, hc']
      refine agree_bind (pass_agrees hP _ _ hrest) fun _ tokens h => ?_
      refine agree_bind (hn.expression _ _ h) fun test tokens h => ?_
      refine agree_bind (colonSuite_agrees hP hn hb indent h) fun ⟨_, body⟩ tokens h => ?_
      have hmore := ih (found ++ [.elif word.start test body]) h
      rw [List.map_append] at hmore
      simpa [crlfSuite] using hmore

theorem ifStatement_agrees (indent : Nat) {tokens : List Token} (h : P tokens) :
    Agree P Form.crlf (ifStatement n b indent tokens)
      (ifStatement n b indent (tokens.map Token.crlf)) := by
  refine agree_bind (pass_agrees hP _ _ h) fun _ tokens h => ?_
  refine agree_bind (hn.expression _ _ h) fun test tokens h => ?_
  refine agree_bind (colonSuite_agrees hP hn hb indent h) fun suite tokens h => ?_
  simp only [List.length_map]
  refine agree_bind (branches_agrees hP hn hb indent _ [] h) fun further tokens h => ?_
  exact agree_ok h fun _ => by simp [Form.crlf, crlfSuite]

theorem whileStatement_agrees (indent : Nat) {tokens : List Token} (h : P tokens) :
    Agree P Form.crlf (whileStatement n b indent tokens)
      (whileStatement n b indent (tokens.map Token.crlf)) := by
  refine agree_bind (pass_agrees hP _ _ h) fun _ tokens h => ?_
  refine agree_bind (hn.expression _ _ h) fun test tokens h => ?_
  refine agree_bind (colonSuite_agrees hP hn hb indent h) fun suite tokens h => ?_
  refine agree_bind (elseClause_agrees hP hn hb indent h) fun orelse tokens h => ?_
  exact agree_ok h fun _ => by cases orelse <;> simp

theorem forStatement_agrees (indent : Nat) {tokens : List Token} (h : P tokens) :
    Agree P Form.crlf (forStatement n b indent tokens)
      (forStatement n b indent (tokens.map Token.crlf)) := by
  refine agree_bind (pass_agrees hP _ _ h) fun _ tokens h => ?_
  refine agree_bind (targets_agrees hP hn _ h) fun target tokens h => ?_
  refine agree_bind (passWord_agrees hP _ _ _ h) fun _ tokens h => ?_
  refine agree_bind (pass_agrees hP _ _ h) fun _ tokens h => ?_
  refine agree_bind (series_agrees hP hn _ h) fun iter tokens h => ?_
  refine agree_bind (colonSuite_agrees hP hn hb indent h) fun suite tokens h => ?_
  refine agree_bind (elseClause_agrees hP hn hb indent h) fun orelse tokens h => ?_
  exact agree_ok h fun _ => by cases orelse <;> simp

/-! ### Exceptions -/

theorem exceptClause_agrees (indent : Nat) (start : Position) {tokens : List Token}
    (h : P tokens) :
    Agree P Rescue.crlf (exceptClause n b indent start tokens)
      (exceptClause n b indent start (tokens.map Token.crlf)) := by
  unfold exceptClause
  extract_lets keep
  have hkeep (parts : List Phrase) : keep (parts.map Phrase.crlf) = (keep parts).map crlfHandled := by
    simp only [keep, List.map_map]
    refine List.map_congr_left fun part _ => ?_
    cases part <;> rfl
  refine agree_bind (pass_agrees hP _ _ h) fun before tokens h => ?_
  cases tokens with
  | nil => exact agree_stuck []
  | cons token rest =>
    simp only [List.map_cons, isSymbol_crlf]
    refine agree_ite (fun _ => ?_) fun _ => ?_
    · refine agree_bind (colonSuite_agrees hP hn hb indent h) fun ⟨behind, body⟩ tokens h => ?_
      exact agree_ok h fun _ => by
        simp only [crlfSuite, Prod.map, ← List.map_append, hkeep, Rescue.crlf, crlfBlock_eq]
    refine agree_bind (hn.expression _ _ h) fun kind after hafter => ?_
    have htext (hF : Faithful P) := textBetween_crlf (hF _ h) after
    rw [List.map_cons] at htext
    simp only [peekSymbol_crlf]
    refine agree_ite (fun _ => ?_) fun _ => ?_
    · refine agree_bind (passSymbol_agrees hP _ _ _ hafter) fun more after h => ?_
      refine agree_bind (pass_agrees hP _ _ h) fun behind after hname => ?_
      refine agree_bind (hn.expression _ _ hname) fun name tokens h => ?_
      have htext' (hF : Faithful P) := textBetween_crlf (hF _ hname) tokens
      refine agree_bind (colonSuite_agrees hP hn hb indent h) fun ⟨last, body⟩ tokens h => ?_
      refine agree_ok h fun hF => ?_
      simp only [htext hF, htext' hF, crlfSuite, Prod.map, hkeep, ← List.map_append, Rescue.crlf,
        crlfBlock_eq]
      simp [crlfHandled]
    · refine agree_bind (colonSuite_agrees hP hn hb indent hafter) fun ⟨last, body⟩ tokens h => ?_
      refine agree_ok h fun hF => ?_
      simp only [htext hF, crlfSuite, Prod.map, hkeep, Rescue.crlf, crlfBlock_eq]
      simp [crlfHandled]

theorem exceptGroup_agrees (indent : Nat) {tokens : List Token} (h : P tokens) :
    Agree P Rescue.crlf (exceptGroup n b indent tokens)
      (exceptGroup n b indent (tokens.map Token.crlf)) := by
  refine agree_bind (pass_agrees hP _ _ h) fun _ tokens h => ?_
  refine agree_bind (hn.expression _ _ h) fun _ tokens h => ?_
  extract_lets next
  have hnext : ∀ (value : Phrase) tokens, P tokens → Agree P Rescue.crlf (next (value, tokens))
      (next (value.crlf, tokens.map Token.crlf)) := by
    intro value tokens h
    exact agree_bind (colonSuite_agrees hP hn hb indent h) fun suite tokens h =>
      agree_ok h fun _ => by simp
  simp only [peekSymbol_crlf]
  refine agree_ite (fun _ => ?_) fun _ => hnext (.other "") tokens h
  refine agree_bind (passSymbol_agrees hP _ _ _ h) fun _ tokens h => ?_
  refine agree_bind (pass_agrees hP _ _ h) fun _ tokens h => ?_
  exact agree_bind (hn.expression _ _ h) hnext

theorem rescues_agrees (indent fuel : Nat) :
    ∀ (group : Option Bool) (found : List Rescue) {tokens : List Token}, P tokens →
      Agree P (List.map Rescue.crlf) (rescues n b indent fuel group found tokens)
        (rescues n b indent fuel group (found.map Rescue.crlf) (tokens.map Token.crlf)) := by
  induction fuel with
  | zero => exact fun _ _ _ h => agree_ok h fun _ => rfl
  | succ fuel ih =>
    intro group found tokens h
    unfold rescues
    obtain ⟨ha, ha'⟩ | ⟨_, token, rest, ha, ha', hrest⟩ := ahead_cases hP indent
      { closing := group.isSome && decide (0 < indent), quote := group.isSome, rescue := true } h
    · simp only [ha, ha']
      exact agree_ite (fun _ => agree_stuck tokens) fun _ => agree_ok h fun _ => rfl
    simp only [ha, ha', isWord_crlf, starDirectly_crlf, start_crlf]
    refine agree_ite (fun hw => ?_) fun _ => agree_ite (fun _ => agree_ok h fun _ => rfl) fun _ =>
      agree_ite (fun _ => agree_stuck (token :: rest)) fun _ => agree_ok h fun _ => rfl
    have hrest := hP.word hrest hw
    refine agree_ite (fun _ => ?_) fun _ => agree_ite (fun _ => agree_ok h fun _ => rfl) fun _ => ?_
    · refine agree_bind (takeSymbol_agrees hP _ hrest) fun _ tokens h => ?_
      refine agree_bind (exceptGroup_agrees hP hn hb indent h) fun next tokens h => ?_
      simpa using ih (some true) (found ++ [next]) h
    · refine agree_bind (exceptClause_agrees hP hn hb indent token.start hrest) fun next tokens h => ?_
      simpa using ih (some false) (found ++ [next]) h

theorem tryStatement_agrees (indent : Nat) {tokens : List Token} (h : P tokens) :
    Agree P Form.crlf (tryStatement n b indent tokens)
      (tryStatement n b indent (tokens.map Token.crlf)) := by
  refine agree_bind (colonSuite_agrees hP hn hb indent h) fun ⟨before, body⟩ tokens h => ?_
  simp -zeta only [List.length_map]
  refine agree_bind (rescues_agrees hP hn hb indent _ none [] h) fun found tokens h => ?_
  extract_lets grouped next grouped' next'
  have hgrouped : grouped' = grouped := by
    cases found with
    | nil => rfl
    | cons clause rest => cases clause <;> rfl
  have hnext : ∀ (orelse : Option Block) tokens, P tokens → Agree P Form.crlf
      (next (orelse, tokens))
      (next' (orelse.map (List.map Sentence.crlf), tokens.map Token.crlf)) := by
    intro orelse tokens h
    have hfound : found.map Rescue.crlf ++
        ((orelse.map (List.map Sentence.crlf)).map Rescue.else).toList =
          (found ++ (orelse.map Rescue.else).toList).map Rescue.crlf := by
      cases orelse <;> simp
    simp only [next, next', hfound, List.isEmpty_map]
    generalize found ++ (orelse.map Rescue.else).toList = clauses
    have hends : Agree P Form.crlf (.ok (.try body clauses, tokens))
        (.ok (.try (body.map Sentence.crlf) (clauses.map Rescue.crlf), tokens.map Token.crlf)) :=
      agree_ok h fun _ => by rw [Form.crlf, crlfBlock_eq, crlfRescues_eq]
    obtain ⟨ha, ha'⟩ | ⟨_, token, rest, ha, ha', hrest⟩ := ahead_cases hP indent
      (if clauses.isEmpty = true then { rescue := true } else clauseNext indent) h
    · simp only [ha, ha']
      exact agree_ite (fun _ => agree_stuck tokens) fun _ => hends
    · simp only [ha, ha', isWord_crlf]
      refine agree_ite (fun hw => ?_) fun _ =>
        agree_ite (fun _ => agree_stuck (token :: rest)) fun _ => hends
      refine agree_bind (colonSuite_agrees hP hn hb indent (hP.word hrest hw)) fun last tokens h => ?_
      exact agree_ok h fun _ => by simp [Form.crlf, Rescue.crlf, crlfSuite]
  simp only [hgrouped, List.isEmpty_map]
  exact agree_ite (fun _ => hnext none tokens h) fun _ =>
    agree_bind (elseClause_agrees hP hn hb indent h) hnext

/-! ### Resources -/

omit hb in
theorem withItems_agrees (place : Place) (fuel : Nat) :
    ∀ (found : List Phrase) {tokens : List Token}, P tokens →
      Agree P (List.map Phrase.crlf) (withItems n place fuel found tokens)
        (withItems n place fuel (found.map Phrase.crlf) (tokens.map Token.crlf)) := by
  induction fuel with
  | zero => exact fun _ tokens _ => agree_stuck tokens
  | succ fuel ih =>
    intro found tokens h
    unfold withItems
    refine agree_bind (hn.expression _ _ h) fun item tokens h => ?_
    have hfound : found.map Phrase.crlf ++ [item.crlf] = (found ++ [item]).map Phrase.crlf := by
      simp
    simp only [hfound]
    obtain ⟨ha, ha'⟩ | ⟨_, token, rest, ha, ha', hrest⟩ :=
      ahead_cases hP place.indent place.viable h
    · simp only [ha, ha']
      exact agree_ok h fun _ => rfl
    simp only [ha, ha', isSymbol_crlf]
    refine agree_ite (fun hs => ?_) fun _ => agree_ok h fun _ => rfl
    have hrest := hP.symbol hrest hs
    obtain ⟨hb, hb'⟩ | ⟨_, next, rest', hb, hb', hnext⟩ :=
      ahead_cases hP place.indent { place.viable with quote := true } hrest
    · simp only [hb, hb']
      exact agree_ok hrest fun _ => rfl
    · simp only [hb, hb', beginsOperand_crlf]
      exact agree_ite (fun _ => ih (found ++ [item]) hnext) fun _ => agree_ok hrest fun _ => rfl

omit hb in
theorem parenthesizedItems_agrees (indent : Nat) {tokens : List Token} (h : P tokens) :
    Agree P (List.map Phrase.crlf) (parenthesizedItems n indent tokens)
      (parenthesizedItems n indent (tokens.map Token.crlf)) := by
  refine agree_bind (takeSymbol_agrees hP _ h) fun _ tokens h => ?_
  refine agree_bind (pass_agrees hP _ _ h) fun _ tokens h => ?_
  simp only [List.length_map]
  refine agree_bind (withItems_agrees hP hn _ _ [] h) fun items tokens h => ?_
  refine agree_bind (passCloser_agrees hP _ _ _ h) fun _ tokens h => ?_
  simp only [List.length_map, peekSymbol_crlf]
  exact agree_ite (fun _ => agree_ok h fun _ => rfl) fun _ => agree_stuck tokens

theorem withStatement_agrees (indent : Nat) {tokens : List Token} (h : P tokens) :
    Agree P Form.crlf (withStatement n b indent tokens)
      (withStatement n b indent (tokens.map Token.crlf)) := by
  refine agree_bind (pass_agrees hP _ _ h) fun _ tokens h => ?_
  simp only [List.length_map]
  refine agree_bind (agree_either (parenthesizedItems_agrees hP hn indent h)
    (withItems_agrees hP hn _ _ [] h)) fun items tokens h => ?_
  refine agree_bind (colonSuite_agrees hP hn hb indent h) fun suite tokens h => ?_
  exact agree_ok h fun _ => by simp [Form.crlf, crlfSuite]

/-! ### Definitions -/

omit hb in
theorem typeParameters_agrees (indent : Nat) {tokens : List Token} (h : P tokens) :
    Agree P id (typeParameters n indent tokens) (typeParameters n indent (tokens.map Token.crlf)) := by
  simp only [typeParameters, peekSymbol_crlf]
  refine agree_ite (fun _ => ?_) fun _ => agree_ok h fun _ => rfl
  exact agree_bind (pass_agrees hP _ _ h) fun _ tokens h => typeArguments_agrees hP hn indent h

/-- The suite of a function definition. -/
theorem definedSuite_agrees (indent : Nat) (name : String) (params : List Parameter)
    {tokens : List Token} (h : P tokens) :
    Agree P Form.crlf
      (do
        let ((_, body), tokens) ← colonSuite n b indent tokens
        return (.define name params body, tokens))
      (do
        let ((_, body), tokens) ← colonSuite n b indent (tokens.map Token.crlf)
        return (.define name (params.map Parameter.crlf) body, tokens)) := by
  refine agree_bind (colonSuite_agrees hP hn hb indent h) fun suite tokens h => ?_
  exact agree_ok h fun _ => by simp

theorem defineStatement_agrees (indent : Nat) {tokens : List Token} (h : P tokens) :
    Agree P Form.crlf (defineStatement n b indent tokens)
      (defineStatement n b indent (tokens.map Token.crlf)) := by
  refine agree_bind (passName_agrees hP _ _ h) fun name tokens h => ?_
  refine agree_bind (typeParameters_agrees hP hn indent h) fun _ tokens h => ?_
  refine agree_bind (passSymbol_agrees hP _ _ _ h) fun _ tokens h => ?_
  refine agree_bind (pass_agrees hP _ _ h) fun _ tokens h => ?_
  extract_lets next next'
  have hnext : ∀ (params : List Parameter) tokens, P tokens → Agree P Form.crlf
      (next (params, tokens)) (next' (params.map Parameter.crlf, tokens.map Token.crlf)) := by
    intro params tokens h
    refine agree_bind (passCloser_agrees hP _ _ _ h) fun _ tokens h => ?_
    have hbody {tokens : List Token} (h : P tokens) :=
      definedSuite_agrees hP hn hb indent name params h
    simp only [peekSymbol_crlf]
    refine agree_ite (fun _ => ?_) fun _ => hbody h
    refine agree_bind (passSymbol_agrees hP _ _ _ h) fun _ tokens h => ?_
    refine agree_bind (pass_agrees hP _ _ h) fun _ tokens h => ?_
    exact agree_bind (hn.type _ _ h) fun _ tokens h => hbody h
  cases tokens with
  | nil => exact agree_bind (agree_stuck []) hnext
  | cons token rest =>
    have hbegins : defineStatement.beginsParameter token.crlf =
        defineStatement.beginsParameter token := rfl
    simp only [List.map_cons, isSymbol_crlf, hbegins, List.length_cons, List.length_map]
    refine agree_ite (fun _ => hnext [] _ h) fun _ => agree_ite (fun _ => ?_) fun _ => hnext [] _ h
    exact agree_bind (parameters_agrees hP hn _ true .rparen _ [] h) hnext

theorem classStatement_agrees (indent : Nat) {tokens : List Token} (h : P tokens) :
    Agree P Form.crlf (classStatement n b indent tokens)
      (classStatement n b indent (tokens.map Token.crlf)) := by
  refine agree_bind (passName_agrees hP _ _ h) fun name tokens h => ?_
  refine agree_bind (typeParameters_agrees hP hn indent h) fun _ tokens h => ?_
  extract_lets next
  have hnext : ∀ (args : List Phrase) tokens, P tokens → Agree P Form.crlf (next (args, tokens))
      (next (args.map Phrase.crlf, tokens.map Token.crlf)) := by
    intro args tokens h
    refine agree_bind (colonSuite_agrees hP hn hb indent h) fun suite tokens h => ?_
    exact agree_ok h fun _ => by simp
  simp only [peekSymbol_crlf]
  refine agree_ite (fun _ => ?_) fun _ => hnext [] tokens h
  refine agree_bind (passSymbol_agrees hP _ _ _ h) fun _ tokens h => ?_
  exact agree_bind (arguments_agrees hP hn indent false h) hnext

theorem definition_agrees (indent : Nat) {tokens : List Token} (h : P tokens) :
    Agree P Form.crlf (definition n b indent tokens)
      (definition n b indent (tokens.map Token.crlf)) := by
  cases tokens with
  | nil => exact agree_stuck []
  | cons token rest =>
    simp only [definition, List.map_cons, isWord_crlf]
    refine agree_ite (fun hw => defineStatement_agrees hP hn hb indent (hP.word h hw)) fun _ =>
      agree_ite (fun hw => classStatement_agrees hP hn hb indent (hP.word h hw)) fun _ =>
        agree_ite (fun hw => ?_) fun _ => agree_stuck (token :: rest)
    exact agree_bind (passWord_agrees hP _ _ _ (hP.word h hw)) fun _ tokens h =>
      defineStatement_agrees hP hn hb indent h

theorem decorated_agrees (indent fuel : Nat) :
    ∀ (found : List (List Phrase)) {tokens : List Token}, P tokens →
      Agree P Form.crlf (decorated n b indent fuel found tokens)
        (decorated n b indent fuel (found.map (List.map Phrase.crlf)) (tokens.map Token.crlf)) := by
  induction fuel with
  | zero => exact fun _ tokens _ => agree_stuck tokens
  | succ fuel ih =>
    intro found tokens h
    unfold decorated
    refine agree_bind (takeSymbol_agrees hP _ h) fun _ tokens h => ?_
    refine agree_bind (pass_agrees hP _ _ h) fun before tokens h => ?_
    refine agree_bind (hn.expression _ _ h) fun value tokens h => ?_
    have hfound : found.map (List.map Phrase.crlf) ++ [before.map Phrase.crlf ++ [value.crlf]] =
        (found ++ [before ++ [value]]).map (List.map Phrase.crlf) := by simp
    cases tokens with
    | nil => exact agree_stuck []
    | cons token rest =>
      have hset := hP.settle indent lineEndNext h
      simp only [List.map_cons, settle_crlf, Settled.crlf, hfound]
      cases (Grammar.settle indent lineEndNext token).verdict with
      | lineEnds =>
        refine agree_bind (pass_agrees hP _ _ hset) fun _ tokens h => ?_
        cases tokens with
        | nil => exact agree_stuck []
        | cons token rest =>
          simp only [List.map_cons, isSymbol_crlf]
          refine agree_ite (fun _ => ih (found ++ [before ++ [value]]) h) fun _ => ?_
          refine agree_bind (definition_agrees hP hn hb indent h) fun form tokens h => ?_
          exact agree_ok h fun _ => rfl
      | _ => exact agree_stuck ((Grammar.settle indent lineEndNext token).token :: rest)

/-! ### Choices by pattern -/

omit hb in
theorem subjects_agrees (indent fuel : Nat) :
    ∀ (found : List Phrase) {tokens : List Token}, P tokens →
      Agree P (List.map Phrase.crlf) (subjects n indent fuel found tokens)
        (subjects n indent fuel (found.map Phrase.crlf) (tokens.map Token.crlf)) := by
  induction fuel with
  | zero => exact fun _ tokens _ => agree_stuck tokens
  | succ fuel ih =>
    intro found tokens h
    unfold subjects
    refine agree_bind (hn.expression _ _ h) fun next tokens h => ?_
    have hfound : found.map Phrase.crlf ++ [next.crlf] = (found ++ [next]).map Phrase.crlf := by
      simp
    simp only [hfound]
    obtain ⟨ha, ha'⟩ | ⟨_, token, rest, ha, ha', hrest⟩ := ahead_cases hP indent {} h
    · simp only [ha, ha']
      exact agree_ok h fun _ => rfl
    simp only [ha, ha', isSymbol_crlf]
    refine agree_ite (fun hs => ?_) fun _ => agree_ok h fun _ => rfl
    refine agree_bind (pass_agrees hP _ _ (hP.symbol hrest hs)) fun _ tokens h => ?_
    cases tokens with
    | nil => exact agree_stuck []
    | cons token rest =>
      exact agree_ite (fun _ => agree_ok h fun _ => rfl) fun _ => ih (found ++ [next]) h

theorem cases_agrees (indent fuel : Nat) :
    ∀ (found : List Case) {tokens : List Token}, P tokens →
      Agree P (List.map Case.crlf) (cases n b indent fuel found tokens)
        (cases n b indent fuel (found.map Case.crlf) (tokens.map Token.crlf)) := by
  induction fuel with
  | zero => exact fun _ tokens _ => agree_stuck tokens
  | succ fuel ih =>
    intro found tokens h
    cases tokens with
    | nil => exact agree_stuck []
    | cons token rest =>
      have hset := hP.settle indent { closing := true } h
      unfold Grammar.cases
      simp -zeta only [List.map_cons, settle_crlf, Settled.crlf]
      extract_lets settled next settled' next'
      have hnext : ∀ (guard : Option (List Phrase)) tokens, P tokens →
          Agree P (List.map Case.crlf) (next (guard, tokens))
            (next' (guard.map (List.map Phrase.crlf), tokens.map Token.crlf)) := by
        intro guard tokens h
        refine agree_bind (colonSuite_agrees hP hn hb indent h) fun suite tokens h => ?_
        have hmore := ih (found ++ [.mk guard suite.2]) h
        rw [List.map_append] at hmore
        simpa [Case.crlf, crlfSuite] using hmore
      have hverdict : settled'.verdict = settled.verdict := rfl
      rw [hverdict]
      cases settled.verdict with
      | closes => exact agree_ok hset fun _ => rfl
      | _ =>
        refine agree_bind (takeWord_agrees hP "case" hset) fun _ tokens h => ?_
        refine agree_bind (pass_agrees hP _ _ h) fun _ tokens h => ?_
        simp only [List.length_map]
        refine agree_bind (casePatterns_agrees hP hn _ _ _ h) fun _ tokens h => ?_
        simp only [peekWord_crlf]
        refine agree_ite (fun _ => ?_) fun _ => hnext none tokens h
        refine agree_bind (passWord_agrees hP _ _ _ h) fun _ tokens h => ?_
        refine agree_bind (pass_agrees hP _ _ h) fun before tokens h => ?_
        refine agree_bind (hn.expression _ _ h) fun test tokens h => ?_
        simpa using hnext (some (before ++ [test])) tokens h

theorem matchStatement_agrees (indent : Nat) {tokens : List Token} (h : P tokens) :
    Agree P Form.crlf (matchStatement n b indent tokens)
      (matchStatement n b indent (tokens.map Token.crlf)) := by
  refine agree_bind (pass_agrees hP _ _ h) fun _ tokens h => ?_
  simp only [List.length_map]
  refine agree_bind (subjects_agrees hP hn indent _ [] h) fun found tokens h => ?_
  refine agree_bind (passSymbol_agrees hP _ _ _ h) fun _ tokens h => ?_
  cases tokens with
  | nil => exact agree_stuck []
  | cons token rest =>
    have hset := hP.settle indent { opening := true, lineEnd := true } h
    simp only [List.map_cons, settle_crlf, Settled.crlf, List.length_cons, List.length_map]
    cases (Grammar.settle indent { opening := true, lineEnd := true } token).verdict with
    | opens width =>
      refine agree_bind (cases_agrees hP hn hb width _ [] hset) fun clauses tokens h => ?_
      exact agree_ok h fun _ => by simp
    | lineEnds => exact agree_ok hset fun _ => by simp
    | _ => exact agree_stuck (_ :: rest)

end

end Marksheet.Grammar
