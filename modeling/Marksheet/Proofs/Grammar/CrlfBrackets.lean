import Marksheet.Proofs.Grammar.CrlfStrings

/-!
# Trailers and brackets with line ends of two characters

Displays, calls, subscripts and comprehensions, with a reader of nested phrases
that is assumed to agree. Where several lines of a reader end in the same
continuation, what the continuation gives is said once (`hnext`).
-/

namespace Marksheet.Grammar

open Source Syntax

section

variable {P : List Token → Prop} (hP : Passes P) {n : Nested} (hn : n.Agrees P)

include hP hn

/-! ### Elements -/

theorem splatElement_agrees (place : Place) {tokens : List Token} (h : P tokens) :
    Agree P Phrase.crlf (splatElement n place tokens)
      (splatElement n place (tokens.map Token.crlf)) := by
  refine agree_bind (takeSymbol_agrees hP _ h) fun _ tokens h => ?_
  refine agree_bind (pass_agrees hP _ _ h) fun between tokens h => ?_
  refine agree_bind (hn.expression place {} h) fun value tokens h => ?_
  exact agree_ok h fun _ => by simp [Phrase.crlf]

theorem doubleSplatElement_agrees (place : Place) {tokens : List Token} (h : P tokens) :
    Agree P Phrase.crlf (doubleSplatElement n place tokens)
      (doubleSplatElement n place (tokens.map Token.crlf)) := by
  refine agree_bind (takeSymbol_agrees hP _ h) fun _ tokens h => ?_
  refine agree_bind (pass_agrees hP _ _ h) fun between tokens h => ?_
  refine agree_bind (hn.expression place {} h) fun value tokens h => ?_
  exact agree_ok h fun _ => by simp [Phrase.crlf]

omit hP hn in
theorem endsElement_agrees (place : Place) (closer : Symbol)
    {reading reading' : Except Stuck (Phrase × List Token)}
    (h : Agree P Phrase.crlf reading reading') :
    Agree P Phrase.crlf (endsElement place closer reading) (endsElement place closer reading') := by
  refine agree_bind h fun value tokens h => ?_
  dsimp only
  rw [peek_crlf]
  cases peek place.indent closerNext tokens with
  | none => exact agree_stuck tokens
  | some token => exact agree_ite (fun _ => agree_ok h fun _ => rfl) fun _ => agree_stuck tokens

theorem parenthesizedSplat_agrees (place : Place) {tokens : List Token} (h : P tokens) :
    Agree P Phrase.crlf (parenthesizedSplat n place tokens)
      (parenthesizedSplat n place (tokens.map Token.crlf)) := by
  refine agree_bind (takeSymbol_agrees hP _ h) fun _ tokens h => ?_
  refine agree_bind (pass_agrees hP _ _ h) fun before tokens h => ?_
  dsimp only
  rw [splitStar_crlf]
  refine agree_bind (splatElement_agrees hP hn _ (hP.star h)) fun value tokens h => ?_
  refine agree_bind (passCloser_agrees hP _ _ _ h) fun after tokens h => ?_
  exact agree_ok h fun _ => by simp [Phrase.crlf]

omit hP hn in
theorem secondIsStar_crlf (tokens : List Token) :
    secondIsStar (tokens.map Token.crlf) = secondIsStar tokens := by
  cases tokens with
  | nil => rfl
  | cons token rest => cases rest <;> rfl

theorem starredElement_agrees (place : Place) (closer : Symbol) {tokens : List Token}
    (h : P tokens) :
    Agree P Phrase.crlf (starredElement n place closer tokens)
      (starredElement n place closer (tokens.map Token.crlf)) := by
  cases tokens with
  | nil => exact agree_stuck []
  | cons token rest =>
    have hsecond := secondIsStar_crlf (token :: rest)
    have hsplit := splitStar_crlf (token :: rest)
    have hwhole := hn.expression place {} h
    rw [List.map_cons] at hsecond hsplit hwhole
    simp only [starredElement, List.map_cons, isSymbol_crlf, hsecond, hsplit]
    refine agree_ite (fun _ => ?_) fun _ => agree_ite (fun _ => ?_) fun _ => hwhole
    · exact agree_either (endsElement_agrees _ _ (splatElement_agrees hP hn _ (hP.star h))) hwhole
    · exact agree_either (endsElement_agrees _ _ (parenthesizedSplat_agrees hP hn _ h)) hwhole

theorem element_agrees (place : Place) (closer : Symbol) {tokens : List Token} (h : P tokens) :
    Agree P Phrase.crlf (element n place closer tokens)
      (element n place closer (tokens.map Token.crlf)) := by
  cases tokens with
  | nil => exact agree_stuck []
  | cons token rest =>
    simp only [element, List.map_cons, isWord_crlf]
    exact agree_ite (fun _ => yieldPhrase_agrees hP hn place h)
      fun _ => starredElement_agrees hP hn place closer h

omit hn in
theorem moreElements_agrees {item : Reader Phrase}
    (hitem : ∀ {tokens}, P tokens →
      Agree P Phrase.crlf (item tokens) (item (tokens.map Token.crlf)))
    (place : Place) (closer : Symbol) (fuel : Nat) :
    ∀ (items : List Phrase) {tokens : List Token}, P tokens →
      Agree P (List.map Phrase.crlf) (moreElements item place closer fuel items tokens)
        (moreElements item place closer fuel (items.map Phrase.crlf) (tokens.map Token.crlf)) := by
  induction fuel with
  | zero => exact fun _ tokens _ => agree_stuck tokens
  | succ fuel ih =>
    intro items tokens h
    unfold moreElements
    refine agree_bind (pass_agrees hP _ _ h) fun before tokens h => ?_
    cases tokens with
    | nil => exact agree_stuck []
    | cons token rest =>
      simp only [List.map_cons, isSymbol_crlf]
      refine agree_ite (fun hs => ?_) fun _ => ?_
      · refine agree_bind (pass_agrees hP _ _ (hP.symbol h hs)) fun behind tokens h => ?_
        cases tokens with
        | nil => exact agree_stuck []
        | cons next rest =>
          simp only [List.map_cons, isSymbol_crlf]
          refine agree_ite (fun hs => agree_ok (hP.symbol h hs) fun _ => by simp) fun _ => ?_
          refine agree_bind (hitem h) fun value tokens h => ?_
          simpa using ih (items ++ before ++ behind ++ [value]) h
      · exact agree_bind (takeCloser_agrees hP _ h) fun _ tokens h => agree_ok h fun _ => by simp

theorem argument_agrees (place : Place) {tokens : List Token} (h : P tokens) :
    Agree P Phrase.crlf (argument n place tokens) (argument n place (tokens.map Token.crlf)) := by
  cases tokens with
  | nil => exact agree_stuck []
  | cons token rest =>
    simp only [argument, List.map_cons, isSymbol_crlf, peekSymbol_crlf]
    refine agree_ite (fun _ => doubleSplatElement_agrees hP hn place h) fun _ => ?_
    rw [word_crlf token fun text => !isReservedWord text]
    refine agree_ite (fun hw => ?_) fun _ => starredElement_agrees hP hn place .rparen h
    have hl : token.lexeme = .word := by
      simp only [Bool.and_eq_true, decide_eq_true_eq] at hw
      exact hw.1.1
    refine agree_bind (passSymbol_agrees hP _ _ _ (hP.lexeme h hl (by simp))) fun _ tokens h => ?_
    refine agree_bind (pass_agrees hP _ _ h) fun _ tokens h => ?_
    refine agree_bind (hn.expression place {} h) fun value tokens h => agree_ok h fun _ => ?_
    rw [text_crlf (by rw [hl]; rfl), Phrase.crlf]

/-! ### Comprehensions -/

omit hP hn in
@[simp] theorem beginsClauses_crlf (indent : Nat) (tokens : List Token) :
    beginsClauses indent (tokens.map Token.crlf) = beginsClauses indent tokens := by
  rw [beginsClauses, beginsClauses, ahead_crlf]
  cases ahead indent closerNext tokens with
  | none => rfl
  | some found => simp only [Option.map_some, isWord_crlf, peekWord_crlf]

theorem moreTargets_agrees (place : Place) (fuel : Nat) :
    ∀ (comma : Bool) (items : List Phrase) {tokens : List Token}, P tokens →
      Agree P crlfItems (moreTargets n place fuel comma items tokens)
        (moreTargets n place fuel comma (items.map Phrase.crlf) (tokens.map Token.crlf)) := by
  induction fuel with
  | zero => exact fun _ _ _ h => agree_ok h fun _ => rfl
  | succ fuel ih =>
    intro comma items tokens h
    unfold moreTargets
    obtain ⟨ha, ha'⟩ | ⟨before, token, rest, ha, ha', hrest⟩ :=
      ahead_cases hP place.indent place.viable h
    · simp only [ha, ha']
      exact agree_ok h fun _ => rfl
    · simp only [ha, ha', isSymbol_crlf]
      refine agree_ite (fun hs => ?_) fun _ => agree_ok h fun _ => rfl
      have hrest := hP.symbol hrest hs
      have hends : Agree P crlfItems (.ok ((items ++ before, true), rest))
          (.ok ((items.map Phrase.crlf ++ before.map Phrase.crlf, true), rest.map Token.crlf)) :=
        agree_ok hrest fun _ => by simp [crlfItems]
      obtain ⟨hb, hb'⟩ | ⟨behind, next, rest', hb, hb', hnext⟩ :=
        ahead_cases hP place.indent { place.viable with quote := true } hrest
      · simp only [hb, hb']
        exact hends
      · simp only [hb, hb', beginsOperand_crlf, isWord_crlf]
        refine agree_ite (fun _ => ?_) fun _ => hends
        refine agree_bind (hn.operand place 22 hnext) fun item tokens h => ?_
        simp only [Phrase.crlf_pattern?]
        cases item.pattern? with
        | none => exact agree_stuck (next :: rest')
        | some item => simpa using ih true (items ++ before ++ behind ++ [item]) h

theorem targets_agrees (place : Place) {tokens : List Token} (h : P tokens) :
    Agree P Phrase.crlf (targets n place tokens) (targets n place (tokens.map Token.crlf)) := by
  refine agree_bind (hn.operand place 22 h) fun first rest h => ?_
  simp only [Phrase.crlf_pattern?]
  cases first.pattern? with
  | none => exact agree_stuck tokens
  | some first =>
    simp only [Option.map_some, List.length_map]
    refine agree_bind (moreTargets_agrees hP hn place _ false [first] h) fun ⟨items, comma⟩ rest h => ?_
    match items, comma with
    | [], _ => exact agree_ok h fun _ => rfl
    | [single], true => exact agree_ok h fun _ => rfl
    | [single], false => exact agree_ok h fun _ => rfl
    | first :: second :: rest, _ => exact agree_ok h fun _ => by simp [Phrase.crlf]

theorem skipIterables_agrees (place : Place) (fuel : Nat) :
    ∀ {tokens : List Token}, P tokens →
      Agree P id (skipIterables n place fuel tokens)
        (skipIterables n place fuel (tokens.map Token.crlf)) := by
  induction fuel with
  | zero => exact fun h => agree_ok h fun _ => rfl
  | succ fuel ih =>
    intro tokens h
    unfold skipIterables
    obtain ⟨ha, ha'⟩ | ⟨before, token, rest, ha, ha', hrest⟩ :=
      ahead_cases hP place.indent place.viable h
    · simp only [ha, ha']
      exact agree_ok h fun _ => rfl
    · simp only [ha, ha', isSymbol_crlf]
      refine agree_ite (fun hs => ?_) fun _ => agree_ok h fun _ => rfl
      have hrest := hP.symbol hrest hs
      obtain ⟨hb, hb'⟩ | ⟨behind, next, rest', hb, hb', hnext⟩ :=
        ahead_cases hP place.indent closerOrQuoteNext hrest
      · simp only [hb, hb']
        exact agree_ok hrest fun _ => rfl
      · simp only [hb, hb', beginsOperand_crlf, isWord_crlf]
        refine agree_ite (fun _ => ?_) fun _ => agree_ok hrest fun _ => rfl
        exact agree_bind (hn.expression place _ hnext) fun _ tokens h => ih h

theorem clause_agrees (indent : Nat) {tokens : List Token} (h : P tokens) :
    Agree P Clause.crlf (clause n indent tokens) (clause n indent (tokens.map Token.crlf)) := by
  cases tokens with
  | nil => exact agree_stuck []
  | cons token rest =>
    unfold clause
    simp -zeta only [List.map_cons, isWord_crlf]
    refine agree_ite (fun hw => ?_) fun _ => ?_
    · refine agree_bind (pass_agrees hP _ _ (hP.word h hw)) fun before tokens h => ?_
      refine agree_bind (hn.expression _ _ h) fun test tokens h => ?_
      exact agree_ok h fun _ => by simp [Clause.crlf]
    · extract_lets place next
      have hnext : ∀ (parts : List Phrase) tokens, P tokens → Agree P Clause.crlf
          (next (parts, tokens)) (next (parts.map Phrase.crlf, tokens.map Token.crlf)) := by
        intro parts tokens h
        refine agree_bind (pass_agrees hP _ _ h) fun _ tokens h => ?_
        refine agree_bind (targets_agrees hP hn _ h) fun target tokens h => ?_
        refine agree_bind (passWord_agrees hP _ _ _ h) fun _ tokens h => ?_
        refine agree_bind (pass_agrees hP _ _ h) fun _ tokens h => ?_
        refine agree_bind (hn.expression _ _ h) fun iter tokens h => ?_
        simp only [List.length_map]
        exact agree_bind (skipIterables_agrees hP hn _ _ h) fun _ tokens h => agree_ok h fun _ => rfl
      refine agree_ite (fun hw => ?_) fun _ => ?_
      · exact agree_bind (passWord_agrees hP _ _ _ (hP.word h hw)) hnext
      · exact agree_bind (takeWord_agrees hP "for" h) fun _ tokens h => hnext [] tokens h

theorem clauses_agrees (indent fuel : Nat) :
    ∀ (found : List Clause) {tokens : List Token}, P tokens →
      Agree P (List.map Clause.crlf) (clauses n indent fuel found tokens)
        (clauses n indent fuel (found.map Clause.crlf) (tokens.map Token.crlf)) := by
  induction fuel with
  | zero => exact fun _ tokens _ => agree_stuck tokens
  | succ fuel ih =>
    intro found tokens h
    simp only [clauses, beginsClauses_crlf, peekWord_crlf]
    refine agree_ite (fun _ => ?_) fun _ => agree_ok h fun _ => rfl
    refine agree_bind (pass_agrees hP _ _ h) fun _ tokens h => ?_
    refine agree_bind (clause_agrees hP hn indent h) fun next tokens h => ?_
    simpa using ih (found ++ [next]) h

theorem comprehension_agrees (indent : Nat) (kind : ComprehensionKind) (body : Phrase)
    (closer : Symbol) {tokens : List Token} (h : P tokens) :
    Agree P Phrase.crlf (comprehension n indent kind body closer tokens)
      (comprehension n indent kind body.crlf closer (tokens.map Token.crlf)) := by
  unfold comprehension
  rw [List.length_map]
  refine agree_bind (clauses_agrees hP hn indent _ [] h) fun found tokens h => ?_
  refine agree_bind (passCloser_agrees hP _ _ _ h) fun _ tokens h => agree_ok h fun _ => ?_
  rw [Phrase.crlf, crlfClauses_eq]

/-! ### Calls, subscripts and attributes -/

theorem arguments_agrees (indent : Nat) (allowClauses : Bool) {tokens : List Token} (h : P tokens) :
    Agree P (List.map Phrase.crlf) (arguments n indent allowClauses tokens)
      (arguments n indent allowClauses (tokens.map Token.crlf)) := by
  refine agree_bind (pass_agrees hP _ _ h) fun before tokens h => ?_
  cases tokens with
  | nil => exact agree_stuck []
  | cons token rest =>
    simp only [List.map_cons, isSymbol_crlf]
    refine agree_ite (fun hs => agree_ok (hP.symbol h hs) fun _ => rfl) fun _ => ?_
    refine agree_ite (fun hs => ?_) fun _ => ?_
    · refine agree_bind (passCloser_agrees hP _ _ _ (hP.symbol h hs)) fun behind tokens h => ?_
      exact agree_ok h fun _ => by simp
    · refine agree_bind (argument_agrees hP hn _ h) fun first after hafter => ?_
      simp only [beginsClauses_crlf, List.length_map]
      refine agree_ite (fun _ => ?_) fun _ => ?_
      · refine agree_bind (hn.expression _ _ h) fun body tokens h => ?_
        refine agree_bind (comprehension_agrees hP hn _ _ body _ h) fun phrase tokens h => ?_
        exact agree_ok h fun _ => rfl
      · simpa using moreElements_agrees hP (argument_agrees hP hn _) _ _ _ (before ++ [first]) hafter

theorem slicePart_agrees (indent : Nat) {tokens : List Token} (h : P tokens) :
    Agree P (List.map Phrase.crlf) (slicePart n indent tokens)
      (slicePart n indent (tokens.map Token.crlf)) := by
  unfold slicePart
  obtain ⟨ha, ha'⟩ | ⟨before, token, rest, ha, ha', hrest⟩ :=
    ahead_cases hP indent closerOrQuoteNext h
  · simp only [ha, ha']
    exact agree_ok h fun _ => rfl
  · simp only [ha, ha', isSymbol_crlf, beginsOperand_crlf]
    refine agree_ite (fun _ => agree_ok hrest fun _ => rfl) fun _ => ?_
    refine agree_ite (fun _ => ?_) fun _ => agree_ok h fun _ => rfl
    refine agree_bind (hn.expression _ _ hrest) fun value tokens h => agree_ok h fun _ => by simp

theorem sliceTail_agrees (indent : Nat) (lower : List Phrase) {tokens : List Token} (h : P tokens) :
    Agree P Phrase.crlf (sliceTail n indent lower tokens)
      (sliceTail n indent (lower.map Phrase.crlf) (tokens.map Token.crlf)) := by
  refine agree_bind (passSymbol_agrees hP _ _ _ h) fun between tokens h => ?_
  refine agree_bind (slicePart_agrees hP hn _ h) fun upper tokens h => ?_
  simp only [peekSymbol_crlf]
  refine agree_ite (fun _ => ?_) fun _ => agree_ok h fun _ => by simp [Phrase.crlf]
  refine agree_bind (passSymbol_agrees hP _ _ _ h) fun between' tokens h => ?_
  refine agree_bind (slicePart_agrees hP hn _ h) fun step tokens h => ?_
  exact agree_ok h fun _ => by simp [Phrase.crlf]

theorem index_agrees (indent : Nat) {tokens : List Token} (h : P tokens) :
    Agree P Phrase.crlf (index n indent tokens) (index n indent (tokens.map Token.crlf)) := by
  cases tokens with
  | nil => exact agree_stuck []
  | cons token rest =>
    simp only [index, List.map_cons, isSymbol_crlf]
    refine agree_ite (fun _ => sliceTail_agrees hP hn _ [] h) fun _ => ?_
    refine agree_bind (hn.expression _ _ h) fun value tokens h => ?_
    simp only [peekSymbol_crlf]
    exact agree_ite (fun _ => sliceTail_agrees hP hn _ [value] h) fun _ => agree_ok h fun _ => rfl

omit hP hn in
theorem withoutContinuations_crlf (items : List Phrase) :
    withoutContinuations (items.map Phrase.crlf) = (withoutContinuations items).map Phrase.crlf := by
  unfold withoutContinuations
  rw [List.filter_map]
  congr 1
  refine List.filter_congr fun item _ => ?_
  cases item <;> rfl

theorem trailer_agrees (indent : Nat) (value : Phrase) {tokens : List Token} (h : P tokens) :
    Agree P Phrase.crlf (trailer n indent value tokens)
      (trailer n indent value.crlf (tokens.map Token.crlf)) := by
  cases tokens with
  | nil => exact agree_stuck []
  | cons token rest =>
    simp only [trailer, List.map_cons, isSymbol_crlf]
    refine agree_ite (fun hs => ?_) fun _ => agree_ite (fun hs => ?_) fun _ => ?_
    · refine agree_bind (passName_agrees hP _ _ (hP.symbol h hs)) fun attr tokens h => ?_
      exact agree_ok h fun _ => rfl
    · refine agree_bind (arguments_agrees hP hn _ _ (hP.symbol h hs)) fun args tokens h => ?_
      exact agree_ok h fun _ => by simp [Phrase.crlf]
    · refine agree_ite (fun hs => ?_) fun _ => agree_stuck (token :: rest)
      refine agree_bind (pass_agrees hP _ _ (hP.symbol h hs)) fun _ tokens h => ?_
      refine agree_bind (index_agrees hP hn _ h) fun first tokens h => ?_
      simp only [List.length_map]
      refine agree_bind (moreElements_agrees hP (index_agrees hP hn _) _ _ _ [first] h)
        fun items tokens h => agree_ok h fun _ => ?_
      rw [Phrase.crlf, crlfPhrases_eq, withoutContinuations_crlf]

theorem trailers_agrees (place : Place) {more : Phrase → Bool}
    (hmore : ∀ value : Phrase, more value.crlf = more value) (fuel : Nat) :
    ∀ (value : Phrase) {tokens : List Token}, P tokens →
      Agree P Phrase.crlf (trailers n place more fuel value tokens)
        (trailers n place more fuel value.crlf (tokens.map Token.crlf)) := by
  induction fuel with
  | zero => exact fun _ _ h => agree_ok h fun _ => rfl
  | succ fuel ih =>
    intro value tokens h
    simp only [trailers, hmore]
    refine agree_ite (fun _ => ?_) fun _ => agree_ok h fun _ => rfl
    obtain ⟨ha, ha'⟩ | ⟨before, token, rest, ha, ha', hrest⟩ :=
      ahead_cases hP place.indent place.viable h
    · simp only [ha, ha']
      exact agree_ok h fun _ => rfl
    · simp only [ha, ha', beginsTrailer_crlf]
      refine agree_ite (fun _ => ?_) fun _ => agree_ok h fun _ => rfl
      exact agree_bind (trailer_agrees hP hn _ value hrest) fun value tokens h => ih value h

/-! ### Brackets -/

theorem parenthesis_agrees (indent : Nat) {tokens : List Token} (h : P tokens) :
    Agree P Phrase.crlf (parenthesis n indent tokens)
      (parenthesis n indent (tokens.map Token.crlf)) := by
  refine agree_bind (pass_agrees hP _ _ h) fun before tokens h => ?_
  cases tokens with
  | nil => exact agree_stuck []
  | cons token rest =>
    simp only [List.map_cons, isSymbol_crlf]
    refine agree_ite (fun hs => ?_) fun _ => ?_
    · exact agree_ok (hP.symbol h hs) fun _ => by simp [Phrase.crlf]
    refine agree_bind (element_agrees hP hn _ _ h) fun first after hafter => ?_
    refine agree_bind (pass_agrees hP _ _ hafter) fun between next hnext => ?_
    cases next with
    | nil => exact agree_stuck []
    | cons mark rest' =>
      have hclauses := beginsClauses_crlf indent (mark :: rest')
      rw [List.map_cons] at hclauses
      simp only [List.map_cons, isSymbol_crlf, List.length_map, hclauses]
      refine agree_ite (fun _ => ?_) fun _ => agree_ite (fun _ => ?_) fun _ => ?_
      · have hmore := moreElements_agrees hP (element_agrees hP hn ⟨indent, closerNext⟩ .rparen)
          ⟨indent, closerNext⟩ .rparen after.length (before ++ [first]) hafter
        rw [List.map_append] at hmore
        exact agree_bind hmore fun items tokens h => agree_ok h fun _ => by simp [Phrase.crlf]
      · exact comprehension_agrees hP hn _ _ first _ hafter
      · refine agree_ite (fun _ => ?_) fun _ => ?_
        · refine agree_either ?_ ?_
          · refine agree_bind (hn.expression _ _ h) fun value tokens h => ?_
            refine agree_bind (passCloser_agrees hP _ _ _ h) fun between tokens h => ?_
            exact agree_ok h fun _ => by simp [Phrase.crlf]
          · refine agree_bind (takeCloser_agrees hP _ hnext) fun _ tokens h => ?_
            exact agree_ok h fun _ => by simp [Phrase.crlf]
        · refine agree_bind (takeCloser_agrees hP _ hnext) fun _ tokens h => ?_
          refine agree_ok h fun _ => ?_
          cases first <;> simp [Phrase.crlf]

theorem brackets_agrees (indent : Nat) {tokens : List Token} (h : P tokens) :
    Agree P Phrase.crlf (brackets n indent tokens)
      (brackets n indent (tokens.map Token.crlf)) := by
  refine agree_bind (pass_agrees hP _ _ h) fun before tokens h => ?_
  cases tokens with
  | nil => exact agree_stuck []
  | cons token rest =>
    simp only [List.map_cons, isSymbol_crlf]
    refine agree_ite (fun hs => ?_) fun _ => ?_
    · exact agree_ok (hP.symbol h hs) fun _ => by simp [Phrase.crlf]
    refine agree_bind (element_agrees hP hn _ _ h) fun first tokens h => ?_
    simp only [beginsClauses_crlf, List.length_map]
    refine agree_ite (fun _ => comprehension_agrees hP hn _ _ first _ h) fun _ => ?_
    have hmore := moreElements_agrees hP (element_agrees hP hn ⟨indent, closerNext⟩ .rbracket)
      ⟨indent, closerNext⟩ .rbracket tokens.length (before ++ [first]) h
    rw [List.map_append] at hmore
    exact agree_bind hmore fun items tokens h => agree_ok h fun _ => by simp [Phrase.crlf]

theorem pairTail_agrees (indent : Nat) (key : Phrase) {tokens : List Token} (h : P tokens) :
    Agree P Phrase.crlf (pairTail n indent key tokens)
      (pairTail n indent key.crlf (tokens.map Token.crlf)) := by
  refine agree_bind (passSymbol_agrees hP _ _ _ h) fun _ tokens h => ?_
  refine agree_bind (pass_agrees hP _ _ h) fun _ tokens h => ?_
  exact agree_bind (hn.expression _ _ h) fun value tokens h => agree_ok h fun _ => rfl

theorem entry_agrees (indent : Nat) {tokens : List Token} (h : P tokens) :
    Agree P Phrase.crlf (entry n indent tokens) (entry n indent (tokens.map Token.crlf)) := by
  cases tokens with
  | nil => exact agree_stuck []
  | cons token rest =>
    simp only [entry, List.map_cons, isSymbol_crlf]
    refine agree_ite (fun _ => doubleSplatElement_agrees hP hn _ h) fun _ => ?_
    exact agree_bind (hn.expression _ _ h) fun key tokens h => pairTail_agrees hP hn _ key h

theorem braces_agrees (indent : Nat) {tokens : List Token} (h : P tokens) :
    Agree P Phrase.crlf (braces n indent tokens) (braces n indent (tokens.map Token.crlf)) := by
  have hentries (found : List Phrase) {tokens : List Token} (h : P tokens) :=
    moreElements_agrees hP (entry_agrees hP hn indent) ⟨indent, closerNext⟩ .rbrace tokens.length
      found h
  have helements (found : List Phrase) {tokens : List Token} (h : P tokens) :=
    moreElements_agrees hP (element_agrees hP hn ⟨indent, closerNext⟩ .rbrace)
      ⟨indent, closerNext⟩ .rbrace tokens.length found h
  refine agree_bind (pass_agrees hP _ _ h) fun before tokens h => ?_
  cases tokens with
  | nil => exact agree_stuck []
  | cons token rest =>
    have hbefore (phrase : Phrase) :
        before.map Phrase.crlf ++ [phrase.crlf] = (before ++ [phrase]).map Phrase.crlf := by simp
    simp only [List.map_cons, isSymbol_crlf]
    refine agree_ite (fun hs => ?_) fun _ => agree_ite (fun hs => ?_) fun _ =>
      agree_ite (fun _ => ?_) fun _ => ?_
    · exact agree_ok (hP.symbol h hs) fun _ => by simp [Phrase.crlf]
    · refine agree_bind (passCloser_agrees hP _ _ _ (hP.symbol h hs)) fun behind tokens h => ?_
      exact agree_ok h fun _ => by simp [Phrase.crlf]
    · refine agree_bind (entry_agrees hP hn _ h) fun first tokens h => ?_
      simp only [List.length_map, hbefore]
      refine agree_bind (hentries _ h) fun items tokens h => agree_ok h fun _ => ?_
      simp [Phrase.crlf]
    · refine agree_bind (element_agrees hP hn _ _ h) fun first after hafter => ?_
      simp only [peekSymbol_crlf, beginsClauses_crlf, List.length_map, hbefore]
      refine agree_ite (fun _ => ?_) fun _ => agree_ite (fun _ => ?_) fun _ => ?_
      · refine agree_bind (entry_agrees hP hn _ h) fun pair after h => ?_
        simp only [beginsClauses_crlf, List.length_map, hbefore]
        refine agree_ite (fun _ => comprehension_agrees hP hn _ _ pair _ h) fun _ => ?_
        refine agree_bind (hentries _ h) fun items tokens h => agree_ok h fun _ => ?_
        simp [Phrase.crlf]
      · exact comprehension_agrees hP hn _ _ first _ hafter
      · refine agree_bind (helements _ hafter) fun items tokens h => agree_ok h fun _ => ?_
        simp [Phrase.crlf]

/-! ### Operands -/

theorem atom_agrees (place : Place) {tokens : List Token} (h : P tokens) :
    Agree P Phrase.crlf (atom n place tokens) (atom n place (tokens.map Token.crlf)) := by
  cases tokens with
  | nil => exact agree_stuck []
  | cons token rest =>
    have htext (hi : token.lexeme.isInner = false) : token.crlf.text = token.text := text_crlf hi
    unfold atom
    simp only [List.map_cons, lexeme_crlf]
    cases hl : token.lexeme with
    | word =>
      have hrest := hP.lexeme h hl (by simp)
      simp only [htext (by rw [hl]; rfl)]
      cases constantWord? token.text with
      | none => exact agree_ok hrest fun _ => rfl
      | some constant => exact agree_ok hrest fun _ => rfl
    | integer => exact agree_ok (hP.lexeme h hl (by simp)) fun _ => by rw [htext (by rw [hl]; rfl)]; rfl
    | float => exact agree_ok (hP.lexeme h hl (by simp)) fun _ => by rw [htext (by rw [hl]; rfl)]; rfl
    | quoteOpen => exact strings_agrees hP hn place h
    | symbol symbol =>
      have hrest := hP.lexeme h hl (by simp)
      cases symbol with
      | ellipsis => exact agree_ok hrest fun _ => rfl
      | lparen => exact parenthesis_agrees hP hn _ hrest
      | lbracket => exact brackets_agrees hP hn _ hrest
      | lbrace => exact braces_agrees hP hn _ hrest
      | _ => exact agree_stuck (token :: rest)
    | _ => exact agree_stuck (token :: rest)

theorem starred_agrees (place : Place) {tokens : List Token} (h : P tokens) :
    Agree P Phrase.crlf (starred n place tokens) (starred n place (tokens.map Token.crlf)) := by
  refine agree_bind (takeSymbol_agrees hP _ h) fun _ tokens h => ?_
  refine agree_bind (pass_agrees hP _ _ h) fun between tokens h => ?_
  refine agree_bind (g := Phrase.crlf) ?_ fun value tokens h => ?_
  · cases tokens with
    | nil => exact agree_stuck []
    | cons token rest =>
      simp only [List.map_cons, isSymbol_crlf]
      exact agree_ite (fun _ => hn.operand _ _ h) fun _ => atom_agrees hP hn _ h
  · simp only [List.length_map]
    refine agree_bind (trailers_agrees hP hn place (fun value => by simp) _ value h)
      fun value tokens h => ?_
    simp only [Phrase.crlf_isPlace]
    exact agree_ite (fun _ => agree_ok h fun _ => by simp [Phrase.crlf]) fun _ => agree_stuck tokens

theorem primary_agrees (place : Place) {tokens : List Token} (h : P tokens) :
    Agree P Phrase.crlf (primary n place tokens) (primary n place (tokens.map Token.crlf)) := by
  unfold primary
  extract_lets next
  have hnext : ∀ (value : Phrase) tokens, P tokens → Agree P Phrase.crlf (next (value, tokens))
      (next (value.crlf, tokens.map Token.crlf)) := by
    intro value tokens h
    simp only [next, List.length_map]
    exact trailers_agrees hP hn place (fun _ => rfl) _ value h
  cases tokens with
  | nil => exact agree_bind (agree_stuck []) hnext
  | cons token rest =>
    have hsplit := splitStar_crlf (token :: rest)
    rw [List.map_cons] at hsplit
    simp only [List.map_cons, isSymbol_crlf, hsplit]
    exact agree_ite (fun _ => agree_bind (starred_agrees hP hn place (hP.star h)) hnext)
      fun _ => agree_bind (atom_agrees hP hn place h) hnext

end

end Marksheet.Grammar
