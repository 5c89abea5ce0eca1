import Marksheet.Proofs.Grammar.CrlfCompound

/-!
# Blocks with line ends of two characters

A block of tokens with other line ends is refused where the block of the tokens
is, with the same words, and is else the same block with other line ends in its
texts (`blocks_agree`). For the whole text this is used twice: with tokens that
are plain, where the readings are the same (`sentences_crlf`), and with tokens
of which one is broken, which are never taken (`not_broken_of_sentences`).
-/

namespace Marksheet.Grammar

open Source Syntax

theorem refuseWhole_crlf (tokens : List Token) (reason : Stuck) :
    refuseWhole (tokens.map Token.crlf) reason = refuseWhole tokens reason := by
  unfold refuseWhole
  rw [List.length_map, ← List.map_drop]
  cases tokens with
  | nil => rfl
  | cons first rest =>
    match (first :: rest).drop ((first :: rest).length - reason.left) with
    | [] => rfl
    | [_] => rfl
    | [_, _] => rfl
    | _ :: _ :: _ :: _ => rfl

section

variable {P : List Token → Prop} (hP : Passes P) {n : Nested} (hn : n.Agrees P) {b : Blocks}
  (hb : b.Agrees P)

include hP hn hb

theorem compound?_agrees (indent : Nat) (word : String) :
    OffersAgree P (compound? n b indent word) := by
  unfold compound?
  refine offersAgree_if (ifStatement_agrees hP hn hb indent) ?_
  refine offersAgree_if (whileStatement_agrees hP hn hb indent) ?_
  refine offersAgree_if (forStatement_agrees hP hn hb indent) ?_
  refine offersAgree_if (tryStatement_agrees hP hn hb indent) ?_
  refine offersAgree_if (withStatement_agrees hP hn hb indent) ?_
  refine offersAgree_if (defineStatement_agrees hP hn hb indent) ?_
  exact offersAgree_if (classStatement_agrees hP hn hb indent) offersAgree_none

/-- Both texts offer a compound statement behind `async`, and these agree, or neither does. -/
theorem asynchronous?_cases (indent : Nat) {tokens : List Token} (h : P tokens) :
    (asynchronous? n b indent tokens = none ∧
        asynchronous? n b indent (tokens.map Token.crlf) = none) ∨
      ∃ reading reading', asynchronous? n b indent tokens = some reading ∧
        asynchronous? n b indent (tokens.map Token.crlf) = some reading' ∧
          Agree P Form.crlf reading reading' := by
  unfold asynchronous?
  obtain ⟨ha, ha'⟩ | ⟨_, token, rest, ha, ha', hrest⟩ := ahead_cases hP indent lineEndNext h
  · rw [ha, ha']
    exact .inl ⟨rfl, rfl⟩
  simp only [ha, ha', isWord_crlf]
  by_cases hw : (token.isWord "def" || token.isWord "for" || token.isWord "with") = true
  · have hl : token.lexeme = .word := by
      simp only [Token.isWord, Bool.or_eq_true, Bool.and_eq_true, decide_eq_true_eq] at hw
      exact hw.elim (fun hw => hw.elim And.left And.left) And.left
    simp only [hw, if_true, text_crlf_of_word hl]
    have hoffer := compound?_agrees hP hn hb indent token.text
    cases hc : compound? n b indent token.text with
    | none => exact .inl ⟨rfl, rfl⟩
    | some reader =>
      exact .inr ⟨_, _, rfl, rfl, hoffer reader hc (hP.lexeme hrest hl (by simp))⟩
  · exact .inl ⟨if_neg hw, if_neg hw⟩

omit hP hn hb in
/-- A compound statement makes a block by itself. -/
theorem singleSentence_agrees {reading reading' : Except Stuck (Form × List Token)}
    (h : Agree P Form.crlf reading reading') (start : Position) :
    Agree P (List.map Sentence.crlf)
      (do
        let (form, tokens) ← reading
        return ([Sentence.mk form start], tokens))
      (do
        let (form, tokens) ← reading'
        return ([Sentence.mk form start], tokens)) :=
  agree_bind h fun _ _ h => agree_ok h fun _ => rfl

theorem statement_agrees (indent : Nat) {tokens : List Token} (h : P tokens) :
    Agree P (List.map Sentence.crlf) (statement n b indent tokens)
      (statement n b indent (tokens.map Token.crlf)) := by
  cases tokens with
  | nil => exact agree_stuck []
  | cons token rest =>
    have hline := simpleLine_agrees hP hn indent (rest.length + 1) [] h
    rw [List.map_cons, List.map_nil] at hline
    have hsingle {reading reading' : Except Stuck (Form × List Token)}
        (h : Agree P Form.crlf reading reading') := singleSentence_agrees h token.start
    simp only [statement, List.map_cons, isSymbol_crlf, lexeme_crlf, start_crlf, List.length_cons,
      List.length_map]
    refine agree_ite (fun _ => hsingle (decorated_agrees hP hn hb indent _ [] h)) fun _ => ?_
    by_cases hl : token.lexeme = .word
    · have hrest := hP.lexeme h hl (by simp)
      have hoffer := compound?_agrees hP hn hb indent token.text
      simp only [hl, if_true, text_crlf_of_word hl]
      cases hc : compound? n b indent token.text with
      | some reader => exact hsingle (hoffer reader hc hrest)
      | none =>
        refine agree_ite (fun _ => ?_) fun _ => agree_ite (fun _ => ?_) fun _ => hline
        · obtain ⟨ha, ha'⟩ | ⟨reading, reading', ha, ha', hagree⟩ :=
            asynchronous?_cases hP hn hb indent hrest
          · simp only [ha, ha']
            exact hline
          · simp only [ha, ha']
            exact hsingle hagree
        · exact agree_either (hsingle (matchStatement_agrees hP hn hb indent hrest)) hline
    · simpa only [hl, if_false] using hline

theorem blockFrom_agrees (indent fuel : Nat) :
    ∀ (found : Block) {tokens : List Token}, P tokens →
      Agree P (List.map Sentence.crlf) (blockFrom n b indent fuel found tokens)
        (blockFrom n b indent fuel (found.map Sentence.crlf) (tokens.map Token.crlf)) := by
  induction fuel with
  | zero => exact fun _ tokens _ => agree_stuck tokens
  | succ fuel ih =>
    intro found tokens h
    cases tokens with
    | nil => exact agree_stuck []
    | cons token rest =>
      have hset := hP.settle indent { closing := decide (0 < indent), quote := true } h
      simp only [blockFrom, List.map_cons, settle_crlf, Settled.crlf, continuedSentences_crlf,
        ← List.map_append, lexeme_crlf]
      generalize Grammar.settle indent { closing := decide (0 < indent), quote := true } token =
        settled at hset ⊢
      cases settled.verdict with
      | closes => exact agree_ok hset fun _ => rfl
      | _ =>
        refine agree_ite (fun _ => agree_ok hset fun _ => rfl) fun _ => ?_
        refine agree_bind (agree_mapError (statement_agrees hP hn hb indent hset) fun reason => ?_)
          fun next tokens h => ?_
        · rw [← List.map_cons, refuseWhole_crlf]
        · have hmore := ih (found ++ continuedSentences settled.continued ++ next) h
          rw [List.map_append] at hmore
          exact hmore

omit hb in
theorem blocks_agree (levels : Nat) : (blocks n levels).Agrees P := by
  induction levels with
  | zero => exact fun _ {tokens} _ => agree_stuck tokens
  | succ levels ih =>
    intro indent tokens h
    simp only [blocks, List.length_map]
    exact blockFrom_agrees hP hn ih indent _ [] h

end

/-! ### Whole texts -/

/-- Tokens that hold line ends only inside of strings. -/
theorem passes_plain : Passes fun tokens => ∀ token ∈ tokens, token.Plain where
  tail h _ := fun token ht => h token (List.mem_cons_of_mem _ ht)
  gap gap h := by
    obtain ⟨htoken, hrest⟩ := List.forall_mem_cons.1 h
    exact List.forall_mem_cons.2 ⟨htoken, hrest⟩
  star {tokens} h := by
    cases tokens with
    | nil => exact h
    | cons token rest =>
      obtain ⟨-, hrest⟩ := List.forall_mem_cons.1 h
      have hstar (star : Token) (hs : star.text = "*") : star.Plain := fun _ => by simp [hs]
      simp only [splitStar]
      split
      · exact List.forall_mem_cons.2 ⟨hstar _ rfl, List.forall_mem_cons.2 ⟨hstar _ rfl, hrest⟩⟩
      · exact h

/-- Tokens of which one is no token at all. -/
theorem passes_broken : Passes fun tokens => ∃ token ∈ tokens, token.lexeme = .broken where
  tail {token rest} h hne := by
    obtain ⟨bad, hb, hbroken⟩ := h
    obtain rfl | hb := List.mem_cons.1 hb
    · exact absurd hbroken hne
    · exact ⟨bad, hb, hbroken⟩
  gap {token rest} gap h := by
    obtain ⟨bad, hb, hbroken⟩ := h
    obtain rfl | hb := List.mem_cons.1 hb
    · exact ⟨_, List.mem_cons_self, hbroken⟩
    · exact ⟨bad, List.mem_cons_of_mem _ hb, hbroken⟩
  star {tokens} h := by
    cases tokens with
    | nil => exact h
    | cons token rest =>
      simp only [splitStar]
      split
      next hs =>
        obtain ⟨bad, hb, hbroken⟩ := h
        obtain rfl | hb := List.mem_cons.1 hb
        · simp [Token.isSymbol, hbroken] at hs
        · exact ⟨bad, List.mem_cons_of_mem _ (List.mem_cons_of_mem _ hb), hbroken⟩
      next => exact h

/-- The sentences of tokens with other line ends are the sentences of the tokens with other line
ends, or both are refused with the same words. -/
theorem sentences_crlf {tokens : List Token} (h : ∀ token ∈ tokens, token.Plain) :
    sentences (tokens.map Token.crlf) = (sentences tokens).map (List.map Sentence.crlf) := by
  have hn := nested_agrees passes_plain (tokens.length + 1)
  have hwhole := (blocks_agree passes_plain hn (tokens.length + 1) 0 h).same fun _ h => h
  simp only [sentences, List.length_map, hwhole]
  cases (blocks (nested (tokens.length + 1)) (tokens.length + 1)).block 0 tokens with
  | error reason => rfl
  | ok found =>
    obtain ⟨block, rest⟩ := found
    match rest with
    | [] => rfl
    | [token] =>
      by_cases hf : token.lexeme = .finish
      · simp [Except.map, bind, Except.bind, hf, pure, Except.pure]
      · simp [Except.map, bind, Except.bind, hf, throw, throwThe, MonadExceptOf.throw,
          sentences.failure]
    | first :: second :: rest =>
      simp [Except.map, bind, Except.bind, throw, throwThe, MonadExceptOf.throw,
        sentences.failure]

/-- A text is read only if all of it can be cut into tokens. -/
theorem not_broken_of_sentences {tokens : List Token} {block : Block}
    (h : sentences tokens = .ok block) : ∀ token ∈ tokens, token.lexeme ≠ .broken := by
  intro bad hmem hbroken
  have hn := nested_agrees passes_broken (tokens.length + 1)
  have hkeeps := (blocks_agree passes_broken hn (tokens.length + 1) 0 ⟨bad, hmem, hbroken⟩).keeps
  simp only [sentences] at h
  cases hread : (blocks (nested (tokens.length + 1)) (tokens.length + 1)).block 0 tokens with
  | error reason =>
    rw [hread] at h
    cases h
  | ok found =>
    obtain ⟨left, hl, hleft⟩ := hkeeps found hread
    rw [hread] at h
    obtain ⟨block', rest⟩ := found
    match rest with
    | [] => cases hl
    | [token] =>
      obtain rfl : left = token := by simpa using hl
      simp [bind, Except.bind, hleft, throw, throwThe, MonadExceptOf.throw] at h
    | first :: second :: rest => cases h

end Marksheet.Grammar
