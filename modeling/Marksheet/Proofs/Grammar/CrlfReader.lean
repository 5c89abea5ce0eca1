import Marksheet.Grammar.Reader
import Marksheet.Proofs.Grammar.Gives
import Marksheet.Proofs.Syntax.Crlf

/-!
# Readings of tokens with line ends of two characters

What happens before a token does not depend on the kind of the line ends
(`settle_crlf`). `Agree` relates a reading with the reading of the same tokens with other line ends:
the second one gives what the first one gives, with other line ends in the texts that are kept. A
reading is made of others as `Gives` says, and each way to make it has one lemma.

On the way a property of the tokens that are left can be kept, if it does not get lost with a token
that is taken (`Passes`): no reading takes a broken token.
-/

namespace Marksheet.Grammar

open Source Syntax

/-! ### Tokens -/

section

variable (token : Token)

@[simp] theorem lexeme_crlf : token.crlf.lexeme = token.lexeme := rfl

@[simp] theorem start_crlf : token.crlf.start = token.start := rfl

@[simp] theorem behind_crlf : token.crlf.behind = token.behind := rfl

@[simp] theorem isSymbol_crlf (symbol : Symbol) : token.crlf.isSymbol symbol = token.isSymbol symbol :=
  rfl

@[simp] theorem close_crlf : token.crlf.close = token.close.crlf := rfl

theorem text_crlf {token : Token} (h : token.lexeme.isInner = false) : token.crlf.text = token.text := by
  simp [Token.crlf, h]

theorem text_crlf_of_word {token : Token} (h : token.lexeme = .word) : token.crlf.text = token.text :=
  text_crlf (by rw [h]; rfl)

/-- A test of the text of a word. -/
theorem word_crlf (p : String → Bool) :
    (decide (token.crlf.lexeme = .word) && p token.crlf.text) =
      (decide (token.lexeme = .word) && p token.text) := by
  by_cases h : token.lexeme = .word
  · rw [text_crlf_of_word h]
    rfl
  · simp [h]

@[simp] theorem isWord_crlf (word : String) : token.crlf.isWord word = token.isWord word :=
  word_crlf token fun text => decide (text = word)

@[simp] theorem beginsWithQuote_crlf : beginsWithQuote token.crlf = beginsWithQuote token := by
  unfold beginsWithQuote
  by_cases h : token.lexeme = .quoteOpen
  · rw [text_crlf (by rw [h]; rfl), lexeme_crlf]
  · simp [h]

end

/-! ### Gaps -/

theorem outlook_append_crlf (skip : Bool) (piece : Trivia) (gap : List Trivia)
    (ih : ∀ found, outlook skip found (crlfGap gap) = outlook skip found gap) (found : Outlook) :
    outlook skip found (crlfGap (piece :: gap)) = outlook skip found (piece :: gap) := by
  cases piece with
  | home c =>
    by_cases hc : c = '\n'
    · simp [Trivia.crlf, crlfChar, hc, outlook, ih]
    · simp [Trivia.crlf, crlfChar, hc, outlook, ih]
  | invisible c =>
    by_cases hc : c = '\n'
    · simp [Trivia.crlf, crlfChar, hc, outlook]
    · simp [Trivia.crlf, crlfChar, hc, outlook]
  | _ => simp [Trivia.crlf, outlook, ih]

theorem outlook_crlf (skip : Bool) (gap : List Trivia) :
    ∀ found, outlook skip found (crlfGap gap) = outlook skip found gap := by
  induction gap with
  | nil => exact fun _ => rfl
  | cons piece gap ih => exact outlook_append_crlf skip piece gap ih

@[simp] theorem look_crlf (indent : Nat) (viable : Viable) (token : Token) :
    look indent viable token.crlf = look indent viable token := by
  have hgap : token.crlf.gap = crlfGap token.gap := rfl
  simp only [look, hgap, outlook_crlf, lexeme_crlf, beginsWithQuote_crlf]
  rfl

theorem dropBlanks_crlf (gap : List Trivia) : dropBlanks (crlfGap gap) = crlfGap (dropBlanks gap) := by
  induction gap with
  | nil => rfl
  | cons piece gap ih =>
    cases piece with
    | home c => by_cases hc : c = '\n' <;> simp [Trivia.crlf, crlfChar, hc, dropBlanks, ih]
    | invisible c => by_cases hc : c = '\n' <;> simp [Trivia.crlf, crlfChar, hc, dropBlanks, ih]
    | _ => simp [Trivia.crlf, dropBlanks, ih]

theorem isEmpty_crlfGap (gap : List Trivia) : (crlfGap gap).isEmpty = gap.isEmpty := by
  cases gap with
  | nil => rfl
  | cons piece gap =>
    cases piece with
    | home c => by_cases hc : c = '\n' <;> simp [Trivia.crlf, crlfChar, hc]
    | invisible c => by_cases hc : c = '\n' <;> simp [Trivia.crlf, crlfChar, hc]
    | _ => rfl

/-- What happens at a point, with other line ends. -/
def Settled.crlf (settled : Settled) : Settled :=
  ⟨settled.continued.map fun line => (crlfText line.1, line.2), settled.verdict, settled.token.crlf⟩

theorem settleFrom_crlf (indent : Nat) (viable : Viable) (fuel : Nat) :
    ∀ (fuel' : Nat) (continued : List Continued) (token : Token), token.gap.length < fuel →
      (crlfGap token.gap).length < fuel' →
        settleFrom indent viable fuel' (continued.map fun line => (crlfText line.1, line.2))
          token.crlf = (settleFrom indent viable fuel continued token).crlf := by
  induction fuel with
  | zero => exact fun _ _ _ h => absurd h (Nat.not_lt_zero _)
  | succ fuel ih =>
    intro fuel' continued token hf hf'
    obtain ⟨fuel', rfl⟩ := Nat.exists_eq_succ_of_ne_zero (Nat.ne_zero_of_lt hf')
    have hlength := length_dropBlanks_le token.gap
    have hlength' := length_dropBlanks_le (crlfGap token.gap)
    rw [dropBlanks_crlf] at hlength'
    have hgap : token.crlf.gap = crlfGap token.gap := rfl
    unfold settleFrom
    rw [look_crlf, hgap, dropBlanks_crlf]
    split
    · simp [Settled.crlf]
    · cases hdrop : dropBlanks token.gap with
      | nil => simp [Settled.crlf]
      | cons piece gap =>
        rw [hdrop] at hlength hlength'
        simp only [List.length_cons, crlfGap_cons, List.length_append] at hlength hlength'
        cases piece with
        | continuation text start =>
          exact ih fuel' ((text, start) :: continued) { token with gap } (by dsimp only; omega)
            (by simp only [Trivia.crlf, List.length_singleton] at hlength'; dsimp only; omega)
        | comment text =>
          exact ih fuel' continued { token with gap } (by dsimp only; omega)
            (by simp only [Trivia.crlf, List.length_singleton] at hlength'; dsimp only; omega)
        | home c => by_cases hc : c = '\n' <;> simp [Trivia.crlf, crlfChar, hc, Settled.crlf]
        | invisible c => by_cases hc : c = '\n' <;> simp [Trivia.crlf, crlfChar, hc, Settled.crlf]
        | _ => simp [Trivia.crlf, Settled.crlf]
    · simp [Settled.crlf]

/-- What happens before a token does not depend on the kind of the line ends. -/
@[simp] theorem settle_crlf (indent : Nat) (viable : Viable) (token : Token) :
    settle indent viable token.crlf = (settle indent viable token).crlf :=
  settleFrom_crlf indent viable (token.gap.length + 1) ((crlfGap token.gap).length + 1) [] token
    (Nat.lt_succ_self _) (Nat.lt_succ_self _)

/-- Settling a gap changes nothing of a token but its gap. -/
theorem exists_gap_settleFrom (indent : Nat) (viable : Viable) (fuel : Nat) :
    ∀ (continued : List Continued) (token : Token), ∃ gap,
      (settleFrom indent viable fuel continued token).token = { token with gap } := by
  induction fuel with
  | zero => exact fun _ _ => ⟨[], rfl⟩
  | succ fuel ih =>
    intro continued token
    unfold settleFrom
    split
    · exact ⟨[], rfl⟩
    · split
      · exact ih _ _
      · exact ih _ _
      · exact ⟨[], rfl⟩
    · exact ⟨token.gap, rfl⟩

@[simp] theorem continuations_crlf (continued : List Continued) :
    continuations (continued.map fun line => (crlfText line.1, line.2)) =
      (continuations continued).map Phrase.crlf := by
  simp [continuations, Phrase.crlf]

/-- What is found behind a gap, with other line ends. -/
theorem ahead_crlf (indent : Nat) (viable : Viable) (tokens : List Token) :
    ahead indent viable (tokens.map Token.crlf) =
      (ahead indent viable tokens).map fun found =>
        (found.1.map Phrase.crlf, found.2.1.crlf, found.2.2.map Token.crlf) := by
  cases tokens with
  | nil => rfl
  | cons token rest =>
    simp only [List.map_cons, ahead, settle_crlf, Settled.crlf, continuations_crlf]
    split <;> rfl

theorem peek_crlf (indent : Nat) (viable : Viable) (tokens : List Token) :
    peek indent viable (tokens.map Token.crlf) = (peek indent viable tokens).map Token.crlf := by
  rw [peek, peek, ahead_crlf, Option.map_map, Option.map_map]
  rfl

@[simp] theorem peekSymbol_crlf (indent : Nat) (viable : Viable) (symbol : Symbol)
    (tokens : List Token) :
    peekSymbol indent viable symbol (tokens.map Token.crlf) =
      peekSymbol indent viable symbol tokens := by
  rw [peekSymbol, peekSymbol, peek_crlf]
  cases peek indent viable tokens <;> rfl

@[simp] theorem peekWord_crlf (indent : Nat) (viable : Viable) (word : String)
    (tokens : List Token) :
    peekWord indent viable word (tokens.map Token.crlf) = peekWord indent viable word tokens := by
  rw [peekWord, peekWord, peek_crlf]
  cases peek indent viable tokens with
  | none => rfl
  | some token => exact isWord_crlf token word

/-! ### Texts of several tokens -/

/-- The text of a piece of a gap with other line ends. -/
theorem foldr_text_crlf (piece : Trivia) (text : String) :
    piece.crlf.foldr (·.text ++ ·) text = crlfText piece.text ++ text := by
  have hchar (c : Char) (of : Char → Trivia) (hof : ∀ d, (of d).text = String.singleton d) :
      ((crlfChar c).map of).foldr (·.text ++ ·) text = crlfText (String.singleton c) ++ text := by
    have hsame : crlfText (String.singleton c) = String.ofList (crlfChar c) := by
      simp [crlfText, crlf]
    rw [hsame]
    unfold crlfChar
    split
    · simp only [List.map_cons, List.map_nil, List.foldr_cons, List.foldr_nil, hof]
      rw [← String.append_assoc]
      rfl
    · simp only [List.map_cons, List.map_nil, List.foldr_cons, List.foldr_nil, hof]
      rfl
  cases piece with
  | home c => exact hchar c .home fun _ => rfl
  | invisible c => exact hchar c .invisible fun _ => rfl
  | newline =>
    rw [Trivia.crlf, List.foldr_cons, List.foldr_cons, List.foldr_nil, ← String.append_assoc]
    rfl
  | comment text' | continuation text' start => rfl
  | space => rfl
  | tab => rfl

theorem crlfText_text {token : Token} (h : token.Plain) : token.crlf.text = crlfText token.text := by
  cases hinner : token.lexeme.isInner with
  | false => rw [text_crlf hinner, crlfText_eq_self (h hinner)]
  | true => simp [Token.crlf, hinner]

theorem verbatim_crlf {token : Token} (h : token.Plain) :
    token.crlf.verbatim = crlfText token.verbatim := by
  have hgap (gap : List Trivia) : (crlfGap gap).foldr (·.text ++ ·) (crlfText token.text) =
      crlfText (gap.foldr (·.text ++ ·) token.text) := by
    induction gap with
    | nil => rfl
    | cons piece gap ih =>
      rw [crlfGap_cons, List.foldr_append, ih, foldr_text_crlf, List.foldr_cons, crlfText_append]
  rw [Token.verbatim, crlfText_text h]
  exact hgap token.gap

/-- The text of tokens with other line ends. -/
theorem verbatim_map_crlf {tokens : List Token} (h : ∀ token ∈ tokens, token.Plain) :
    verbatim (tokens.map Token.crlf) = crlfText (verbatim tokens) := by
  induction tokens with
  | nil => rfl
  | cons token rest ih =>
    obtain ⟨htoken, hrest⟩ := List.forall_mem_cons.1 h
    have hmore := ih hrest
    simp only [verbatim, List.map_cons, List.foldr_cons] at hmore ⊢
    rw [hmore, verbatim_crlf htoken, crlfText_append]

/-- The exact text between two points of a reading, with other line ends. -/
theorem textBetween_crlf {before : List Token} (h : ∀ token ∈ before, token.Plain)
    (after : List Token) :
    textBetween (before.map Token.crlf) (after.map Token.crlf) =
      crlfText (textBetween before after) := by
  unfold textBetween
  rw [List.length_map, List.length_map, ← List.map_take]
  have hfront : ∀ token ∈ before.take (before.length - after.length), token.Plain :=
    fun token ht => h token (List.mem_of_mem_take ht)
  cases hd : before.take (before.length - after.length) with
  | nil => rfl
  | cons token rest =>
    rw [hd] at hfront
    obtain ⟨htoken, hrest⟩ := List.forall_mem_cons.1 hfront
    rw [List.map_cons]
    dsimp only
    rw [crlfText_text htoken, verbatim_map_crlf hrest, crlfText_append]

/-! ### Readings -/

/-- A property of the tokens that are left that does not get lost with a token that is taken. -/
structure Passes (P : List Token → Prop) : Prop where
  tail : ∀ {token rest}, P (token :: rest) → token.lexeme ≠ .broken → P rest
  gap : ∀ {token rest} (gap : List Trivia), P (token :: rest) → P ({ token with gap } :: rest)
  star : ∀ {tokens}, P tokens → P (splitStar tokens)

/-- All tokens that are left hold line ends only inside of strings. -/
def Faithful (P : List Token → Prop) : Prop := ∀ tokens, P tokens → ∀ token ∈ tokens, token.Plain

/-- A reading keeps `P`; and if that makes tokens plain, the other reading gives the same with other
line ends. -/
structure Agree {α : Type} (P : List Token → Prop) (f : α → α)
    (reading reading' : Except Stuck (α × List Token)) : Prop where
  keeps : Gives (fun found => P found.2) reading
  same : Faithful P → reading' = reading.map fun found => (f found.1, found.2.map Token.crlf)

section

variable {α β : Type} {P : List Token → Prop} {f : α → α} {g : β → β}

theorem agree_ok {value value' : α} {tokens : List Token} (h : P tokens)
    (hv : Faithful P → value' = f value) :
    Agree P f (.ok (value, tokens)) (.ok (value', tokens.map Token.crlf)) where
  keeps := gives_ok h
  same hP := by
    rw [hv hP]
    rfl

theorem agree_error (reason : Stuck) : Agree P f (.error reason) (.error reason) where
  keeps := gives_error reason
  same _ := rfl

theorem agree_stuck (tokens : List Token) : Agree P f (stuck tokens) (stuck (tokens.map Token.crlf)) := by
  cases tokens with
  | nil => exact agree_error _
  | cons token rest =>
    have hstuck : stuck (α := α) ((token :: rest).map Token.crlf) = stuck (token :: rest) := by
      simp [stuck]
    rw [hstuck]
    exact agree_error _

/-- What is known of what the first reading gives may be used for the second one. -/
theorem agree_bind_gives {Q : β × List Token → Prop} {reading reading' : Except Stuck (β × List Token)}
    {next next' : β × List Token → Except Stuck (α × List Token)} (hQ : Gives Q reading)
    (h : Agree P g reading reading')
    (hn : ∀ value tokens, Q (value, tokens) → P tokens →
      Agree P f (next (value, tokens)) (next' (g value, tokens.map Token.crlf))) :
    Agree P f (reading >>= next) (reading' >>= next') where
  keeps := by
    cases hr : reading with
    | error reason => exact gives_error reason
    | ok found => exact (hn found.1 found.2 (hQ found hr) (h.keeps found hr)).keeps
  same hP := by
    rw [h.same hP]
    cases hr : reading with
    | error reason => rfl
    | ok found => exact (hn found.1 found.2 (hQ found hr) (h.keeps found hr)).same hP

theorem agree_bind {reading reading' : Except Stuck (β × List Token)}
    {next next' : β × List Token → Except Stuck (α × List Token)} (h : Agree P g reading reading')
    (hn : ∀ value tokens, P tokens →
      Agree P f (next (value, tokens)) (next' (g value, tokens.map Token.crlf))) :
    Agree P f (reading >>= next) (reading' >>= next') :=
  agree_bind_gives (gives_any reading) h fun value tokens _ => hn value tokens

theorem agree_either {first first' second second' : Except Stuck (α × List Token)}
    (h : Agree P f first first') (hs : Agree P f second second') :
    Agree P f (either first second) (either first' second') where
  keeps := gives_either h.keeps hs.keeps
  same hP := by
    rw [h.same hP, hs.same hP]
    cases first with
    | ok found => rfl
    | error reason => cases second <;> rfl

/-- Two readings that go on by cases over what was read before. -/
theorem agree_cases {reading reading' : Except Stuck (β × List Token)} (h : Agree P g reading reading')
    {next next' : Except Stuck (β × List Token) → Except Stuck (α × List Token)}
    (hok : ∀ value tokens, P tokens →
      Agree P f (next (.ok (value, tokens))) (next' (.ok (g value, tokens.map Token.crlf))))
    (herror : ∀ reason, Agree P f (next (.error reason)) (next' (.error reason))) :
    Agree P f (next reading) (next' reading') where
  keeps := by
    cases hr : reading with
    | error reason => exact (herror reason).keeps
    | ok found => exact (hok found.1 found.2 (h.keeps found hr)).keeps
  same hP := by
    rw [h.same hP]
    cases hr : reading with
    | error reason => exact (herror reason).same hP
    | ok found => exact (hok found.1 found.2 (h.keeps found hr)).same hP

theorem agree_mapError {reading reading' : Except Stuck (α × List Token)}
    (h : Agree P f reading reading') {change change' : Stuck → Stuck}
    (hc : ∀ reason, change' reason = change reason) :
    Agree P f (reading.mapError change) (reading'.mapError change') where
  keeps := gives_mapError h.keeps change
  same hP := by
    rw [h.same hP]
    cases reading with
    | ok found => rfl
    | error reason => simp [Except.mapError, Except.map, hc]

theorem agree_ite {condition : Prop} [Decidable condition]
    {reading reading' other other' : Except Stuck (α × List Token)}
    (h : condition → Agree P f reading reading') (ho : ¬ condition → Agree P f other other') :
    Agree P f (if condition then reading else other) (if condition then reading' else other') := by
  split
  · exact h ‹_›
  · exact ho ‹_›

theorem Passes.symbol (hP : Passes P) {token : Token} {rest : List Token} {symbol : Symbol}
    (h : P (token :: rest)) (hs : token.isSymbol symbol = true) : P rest :=
  hP.tail h fun hb => by simp [Token.isSymbol, hb] at hs

theorem Passes.word (hP : Passes P) {token : Token} {rest : List Token} {word : String}
    (h : P (token :: rest)) (hw : token.isWord word = true) : P rest :=
  hP.tail h fun hb => by simp [Token.isWord, hb] at hw

theorem Passes.lexeme (hP : Passes P) {token : Token} {rest : List Token} {lexeme : Lexeme}
    (h : P (token :: rest)) (hl : token.lexeme = lexeme) (hne : lexeme ≠ .broken) : P rest :=
  hP.tail h (hl ▸ hne)

/-- What is kept behind a gap. -/
theorem Passes.ahead (hP : Passes P) {indent : Nat} {viable : Viable} {tokens rest : List Token}
    {parts : List Phrase} {token : Token} (h : P tokens)
    (ha : ahead indent viable tokens = some (parts, token, rest)) : P (token :: rest) := by
  cases tokens with
  | nil => cases ha
  | cons first tokens =>
    obtain ⟨gap, hgap⟩ := exists_gap_settleFrom indent viable (first.gap.length + 1) [] first
    rw [← settle] at hgap
    simp only [Grammar.ahead] at ha
    split at ha
    · obtain ⟨-, rfl, rfl⟩ : _ ∧ _ ∧ _ := by simpa using ha
      rw [hgap]
      exact hP.gap gap h
    · cases ha

/-- A look behind a gap finds the same, or nothing in both texts. -/
theorem ahead_cases (hP : Passes P) (indent : Nat) (viable : Viable) {tokens : List Token}
    (h : P tokens) :
    (ahead indent viable tokens = none ∧ ahead indent viable (tokens.map Token.crlf) = none) ∨
      ∃ parts token rest, ahead indent viable tokens = some (parts, token, rest) ∧
        ahead indent viable (tokens.map Token.crlf) =
          some (parts.map Phrase.crlf, token.crlf, rest.map Token.crlf) ∧ P (token :: rest) := by
  rw [ahead_crlf]
  cases ha : ahead indent viable tokens with
  | none => exact .inl ⟨rfl, rfl⟩
  | some found => exact .inr ⟨found.1, found.2.1, found.2.2, rfl, rfl, hP.ahead h ha⟩

theorem pass_agrees (hP : Passes P) (indent : Nat) (viable : Viable) {tokens : List Token}
    (h : P tokens) :
    Agree P (List.map Phrase.crlf) (pass indent viable tokens)
      (pass indent viable (tokens.map Token.crlf)) := by
  unfold pass
  obtain ⟨ha, ha'⟩ | ⟨parts, token, rest, ha, ha', hrest⟩ := ahead_cases hP indent viable h
  · rw [ha, ha']
    exact agree_stuck tokens
  · rw [ha, ha']
    exact agree_ok hrest fun _ => rfl

theorem takeSymbol_agrees (hP : Passes P) (symbol : Symbol) {tokens : List Token} (h : P tokens) :
    Agree P Token.crlf (takeSymbol symbol tokens) (takeSymbol symbol (tokens.map Token.crlf)) := by
  cases tokens with
  | nil => exact agree_stuck []
  | cons token rest =>
    simp only [List.map_cons, takeSymbol, isSymbol_crlf]
    exact agree_ite (fun hs => agree_ok (hP.symbol h hs) fun _ => rfl)
      fun _ => agree_stuck (token :: rest)

theorem takeCloser_agrees (hP : Passes P) (symbol : Symbol) {tokens : List Token} (h : P tokens) :
    Agree P Token.crlf (takeCloser symbol tokens) (takeCloser symbol (tokens.map Token.crlf)) := by
  cases tokens with
  | nil => exact agree_stuck []
  | cons token rest =>
    simp only [List.map_cons, takeCloser, isSymbol_crlf, List.length_map, behind_crlf]
    refine agree_ite (fun hs => agree_ok (hP.symbol h hs) fun _ => rfl) fun _ => ?_
    exact agree_ite (fun _ => agree_error _) fun _ => agree_stuck (token :: rest)

theorem takeWord_agrees (hP : Passes P) (word : String) {tokens : List Token} (h : P tokens) :
    Agree P Token.crlf (takeWord word tokens) (takeWord word (tokens.map Token.crlf)) := by
  cases tokens with
  | nil => exact agree_stuck []
  | cons token rest =>
    simp only [List.map_cons, takeWord, isWord_crlf]
    exact agree_ite (fun hw => agree_ok (hP.word h hw) fun _ => rfl)
      fun _ => agree_stuck (token :: rest)

theorem takeName_agrees (hP : Passes P) {tokens : List Token} (h : P tokens) :
    Agree P id (takeName tokens) (takeName (tokens.map Token.crlf)) := by
  cases tokens with
  | nil => exact agree_stuck []
  | cons token rest =>
    simp only [List.map_cons, takeName, lexeme_crlf]
    exact agree_ite (fun hl => agree_ok (hP.lexeme h hl (by decide)) fun _ =>
      text_crlf (by rw [hl]; rfl)) fun _ => agree_stuck (token :: rest)

/-- The name that is taken may be kept as a text. -/
theorem takeName_agrees_text (hP : Passes P) {tokens : List Token} (h : P tokens) :
    Agree P crlfText (takeName tokens) (takeName (tokens.map Token.crlf)) := by
  cases tokens with
  | nil => exact agree_stuck []
  | cons token rest =>
    simp only [List.map_cons, takeName, lexeme_crlf]
    exact agree_ite (fun hl => agree_ok (hP.lexeme h hl (by decide)) fun hF =>
      crlfText_text (hF _ h token List.mem_cons_self)) fun _ => agree_stuck (token :: rest)

theorem passSymbol_agrees (hP : Passes P) (indent : Nat) (viable : Viable) (symbol : Symbol)
    {tokens : List Token} (h : P tokens) :
    Agree P (List.map Phrase.crlf) (passSymbol indent viable symbol tokens)
      (passSymbol indent viable symbol (tokens.map Token.crlf)) := by
  refine agree_bind (pass_agrees hP indent viable h) fun parts tokens h => ?_
  exact agree_bind (takeSymbol_agrees hP symbol h) fun _ _ h => agree_ok h fun _ => rfl

theorem passCloser_agrees (hP : Passes P) (indent : Nat) (viable : Viable) (symbol : Symbol)
    {tokens : List Token} (h : P tokens) :
    Agree P (List.map Phrase.crlf) (passCloser indent viable symbol tokens)
      (passCloser indent viable symbol (tokens.map Token.crlf)) := by
  refine agree_bind (pass_agrees hP indent viable h) fun parts tokens h => ?_
  exact agree_bind (takeCloser_agrees hP symbol h) fun _ _ h => agree_ok h fun _ => rfl

theorem passWord_agrees (hP : Passes P) (indent : Nat) (viable : Viable) (word : String)
    {tokens : List Token} (h : P tokens) :
    Agree P (List.map Phrase.crlf) (passWord indent viable word tokens)
      (passWord indent viable word (tokens.map Token.crlf)) := by
  refine agree_bind (pass_agrees hP indent viable h) fun parts tokens h => ?_
  exact agree_bind (takeWord_agrees hP word h) fun _ _ h => agree_ok h fun _ => rfl

theorem passName_agrees (hP : Passes P) (indent : Nat) (viable : Viable) {tokens : List Token}
    (h : P tokens) :
    Agree P id (passName indent viable tokens) (passName indent viable (tokens.map Token.crlf)) :=
  agree_bind (pass_agrees hP indent viable h) fun _ _ h => takeName_agrees hP h

theorem splitStar_crlf (tokens : List Token) :
    splitStar (tokens.map Token.crlf) = (splitStar tokens).map Token.crlf := by
  cases tokens with
  | nil => rfl
  | cons token rest =>
    simp only [List.map_cons, splitStar, isSymbol_crlf, start_crlf, behind_crlf]
    by_cases hstar : token.isSymbol (.op .pow) = true <;> simp only [hstar] <;> rfl

end

end Marksheet.Grammar
