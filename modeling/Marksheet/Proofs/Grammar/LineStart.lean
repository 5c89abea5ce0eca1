import Marksheet.Grammar.Statement
import Marksheet.Proofs.Grammar.Spelling
import Marksheet.Proofs.Source.Lines

/-!
# Where lines begin

A token that begins a line has a width: the indentation of its line. What happens
before it is settled by the width alone: a block opens where the line is indented
more than the block around it, blocks close where it is indented less, and else the
line before it ends or the token comes next, as the grammar can take it.
-/

namespace Marksheet.Grammar

open Marksheet.Source Marksheet.Syntax

/-- The token begins a line of a width, with neither comments nor continued lines before it. The end
of the text is a line without indentation. -/
structure StartsLine (width : Nat) (token : Token) : Prop where
  sight : ∃ ended indent,
    (∀ skip, outlook skip {} token.gap = { ended, indent, reached := true }) ∧
      (ended = true ∨ token.lexeme = .finish) ∧
        width = if token.lexeme = .finish then 0 else indent
  blank : dropBlanks token.gap = []

section

variable {width : Nat} {token : Token} (h : StartsLine width token)

include h

/-- What a look sees before a token that begins a line. -/
theorem look_of_startsLine (indent : Nat) (viable : Viable) :
    ∃ quote passed, look indent viable token =
      if viable.opening = true ∧ indent < width then (.opens width, false)
      else if (viable.closing = true ∨ viable.lineEnd = false ∧ quote = false ∧ viable.closer = false)
          ∧ width < indent then (.closes, false)
      else if viable.lineEnd = true then (.lineEnds, false)
      else (.goesOn, passed) := by
  obtain ⟨ended, column, hsight, hended, hwidth⟩ := h.sight
  refine ⟨viable.quote && beginsWithQuote token, viable.quote && token.lexeme = .quoteOpen, ?_⟩
  have hends : (ended || decide (token.lexeme = .finish)) = true := by
    rw [Bool.or_eq_true, decide_eq_true_eq]
    exact hended
  subst hwidth
  simp only [look, hsight, Bool.false_eq_true, if_false, Bool.true_and, hends, Bool.and_true,
    Option.isNone_none, Bool.and_eq_true, Bool.or_eq_true, Bool.not_eq_true', decide_eq_true_eq,
    and_assoc]

/-- What happens before it: nothing is dropped but the gap, where the token comes next. -/
theorem settle_of_startsLine (indent : Nat) (viable : Viable) :
    ∃ quote, settle indent viable token =
      if viable.opening = true ∧ indent < width then ⟨[], .opens width, token⟩
      else if (viable.closing = true ∨ viable.lineEnd = false ∧ quote = false ∧ viable.closer = false)
          ∧ width < indent then ⟨[], .closes, token⟩
      else if viable.lineEnd = true then ⟨[], .lineEnds, token⟩
      else ⟨[], .goesOn, token.close⟩ := by
  obtain ⟨quote, passed, hlook⟩ := look_of_startsLine h indent viable
  refine ⟨quote, ?_⟩
  rw [settle, settleFrom, hlook]
  split_ifs
  · rfl
  · rfl
  · rfl
  · cases passed <;> simp only [h.blank, List.reverse_nil]

/-- Where a block may open, it opens before a line that is indented more. -/
theorem settle_opens {indent : Nat} {viable : Viable} (hv : viable.opening = true)
    (hw : indent < width) : settle indent viable token = ⟨[], .opens width, token⟩ := by
  obtain ⟨quote, hsettle⟩ := settle_of_startsLine h indent viable
  rw [hsettle, if_pos ⟨hv, hw⟩]

/-- Where a block may close, it closes before a line that is indented less. -/
theorem settle_closes {indent : Nat} {viable : Viable} (hv : viable.closing = true)
    (hw : width < indent) : settle indent viable token = ⟨[], .closes, token⟩ := by
  obtain ⟨quote, hsettle⟩ := settle_of_startsLine h indent viable
  rw [hsettle, if_neg fun hc => absurd hc.2 hw.asymm, if_pos ⟨.inl hv, hw⟩]

/-- Where only a line may end, it ends before a line that is not indented more. -/
theorem settle_lineEnds {indent : Nat} {viable : Viable} (hv : viable.lineEnd = true)
    (hc : viable.closing = false) (hw : width ≤ indent) :
    settle indent viable token = ⟨[], .lineEnds, token⟩ := by
  obtain ⟨quote, hsettle⟩ := settle_of_startsLine h indent viable
  rw [hsettle, if_neg fun ho => absurd ho.2 hw.not_gt, if_neg, if_pos hv]
  rw [hv, hc]
  rintro ⟨hclose | ⟨hclose, -⟩, -⟩ <;> cases hclose

/-- Where no line may end, a line that is indented like its block goes on the block. -/
theorem settle_goesOn {viable : Viable} (hv : viable.lineEnd = false) :
    settle width viable token = ⟨[], .goesOn, token.close⟩ := by
  obtain ⟨quote, hsettle⟩ := settle_of_startsLine h width viable
  rw [hsettle, if_neg fun ho => Nat.lt_irrefl _ ho.2, if_neg fun hc => Nat.lt_irrefl _ hc.2,
    if_neg (by rw [hv]; exact Bool.false_ne_true)]

theorem ahead_of_goesOn {viable : Viable} (hv : viable.lineEnd = false) (rest : List Token) :
    ahead width viable (token :: rest) = some ([], token.close, rest) := by
  rw [ahead, settle_goesOn h hv]
  rfl

theorem ahead_of_closes {indent : Nat} {viable : Viable} (hv : viable.closing = true)
    (hw : width < indent) (rest : List Token) : ahead indent viable (token :: rest) = none := by
  rw [ahead, settle_closes h hv hw]

end

/-! ### Lines in print -/

/-- Blanks are counted up to the token. -/
theorem outlook_of_margin (skip : Bool) (margin : Margin) (found : Outlook) :
    outlook skip found (margin.map Blank.trivia) =
      { found with indent := found.indent + margin.width, reached := true } := by
  induction margin generalizing found with
  | nil => rfl
  | cons blank margin ih =>
    cases blank <;>
    · rw [List.map_cons, Blank.trivia, outlook, ih]
      simp only [Margin.width, List.map_cons, List.sum_cons, Blank.width]
      congr 1
      omega

theorem dropBlanks_margin (margin : Margin) : dropBlanks (margin.map Blank.trivia) = [] := by
  induction margin with
  | nil => rfl
  | cons blank margin ih => cases blank <;> exact ih

/-- The first token of a line in print begins a line of the width of the margin. -/
theorem startsLine_of_margin {token : Token} {margin : Margin}
    (hgap : token.gap = .newline :: margin.map Blank.trivia) (hinside : token.lexeme ≠ .finish) :
    StartsLine margin.width token where
  sight := by
    refine ⟨true, margin.width, fun skip => ?_, .inl rfl, (if_neg hinside).symm⟩
    rw [hgap, outlook, outlook_of_margin]
    simp only [Nat.zero_add]
  blank := by
    rw [hgap]
    exact dropBlanks_margin margin

/-- So does the end of the text. -/
theorem startsLine_of_finish {token : Token} (hgap : token.gap = [.newline])
    (hfinish : token.lexeme = .finish) : StartsLine 0 token where
  sight := ⟨true, 0, fun _ => by rw [hgap]; rfl, .inl rfl, (if_pos hfinish).symm⟩
  blank := by
    rw [hgap]
    rfl

/-- The first line of some, and its tokens. -/
theorem exists_line {tokens : List Token} {line : Line} {lines : List Line}
    (h : SpellsLines tokens (line :: lines)) :
    ∃ first tail more, tokens = first :: (tail ++ more) ∧ StartsLine line.margin.width first ∧
      Writes (first.close :: tail) line.pieces ∧ SpellsLines more lines := by
  cases h with
  | cons hgap hs hm =>
    exact ⟨_, _, _, rfl, startsLine_of_margin hgap (hs.spells.snug _ List.mem_cons_self).inside, hs, hm⟩

/-- Lines in a row, and their tokens. -/
theorem exists_lines {lines more : List Line} {tokens : List Token}
    (h : SpellsLines tokens (lines ++ more)) :
    ∃ before behind, tokens = before ++ behind ∧ SpellsLines before lines ∧
      SpellsLines behind more := by
  induction lines generalizing tokens with
  | nil => exact ⟨[], tokens, rfl, .nil, h⟩
  | cons line lines ih =>
    cases h with
    | @cons first tail _ _ _ hgap hs hm =>
      obtain ⟨before, behind, rfl, hbefore, hbehind⟩ := ih hm
      refine ⟨first :: (tail ++ before), behind, ?_, .cons hgap hs hbefore, hbehind⟩
      rw [List.cons_append, List.append_assoc]

/-! ### Behind a line -/

/-- The words that begin a further clause of a statement. -/
def clauseWords : List String := ["elif", "else", "except", "finally"]

/-- A line begins that is not indented more than a block, and if it is indented like the block it
does not begin with any of the words. -/
inductive Without (words : List String) (indent : Nat) : List Token → Prop where
  | line {width : Nat} {token : Token} (hs : StartsLine width token) (hw : width ≤ indent)
      (hc : width = indent → ∀ word ∈ words, token.isWord word = false) (rest : List Token) :
      Without words indent (token :: rest)

/-- A line begins that does not go on the statement before it. -/
abbrev Behind (indent : Nat) : List Token → Prop := Without clauseWords indent

/-- A line begins that is indented less than a block. -/
inductive Below (indent : Nat) : List Token → Prop where
  | line {width : Nat} {token : Token} (hs : StartsLine width token) (hw : width < indent)
      (rest : List Token) : Below indent (token :: rest)

section

variable {words : List String} {indent : Nat} {rest : List Token}

theorem Below.without (h : Below indent rest) (words : List String) : Without words indent rest := by
  obtain ⟨hs, hw, rest⟩ := h
  exact .line hs hw.le (fun he => absurd he hw.ne) rest

/-- Fewer words are easier to do without. -/
theorem Without.mono (h : Without words indent rest) {fewer : List String} (hf : fewer ⊆ words) :
    Without fewer indent rest := by
  obtain ⟨hs, hw, hc, rest⟩ := h
  exact .line hs hw (fun he word hm => hc he word (hf hm)) rest

/-- What stands behind a statement stands below each deeper block. -/
theorem Without.below (h : Without words indent rest) {deeper : Nat} (hd : indent < deeper) :
    Below deeper rest := by
  obtain ⟨hs, hw, -, rest⟩ := h
  exact .line hs (hw.trans_lt hd) rest

end

section

variable {indent : Nat} {rest : List Token} (h : Behind indent rest)

include h

/-- Where the line may end, nothing more of it comes. -/
theorem Behind.ahead_eq_none {viable : Viable} (hv : viable.lineEnd = true)
    (hc : viable.closing = false) : ahead indent viable rest = none := by
  obtain ⟨hs, hw, -, rest⟩ := h
  rw [ahead, settle_lineEnds hs hv hc hw]

/-- The line ends behind a phrase. -/
theorem Behind.follows (bound : Nat) : Follows (lineOf indent) bound rest :=
  .ends fun _ => h.ahead_eq_none rfl rfl

theorem Behind.endsHere_eq_true : endsHere indent rest = true := by
  have hnone : ahead indent lineEndNext rest = none := h.ahead_eq_none rfl rfl
  obtain ⟨hs, -, -, rest⟩ := h
  simp only [endsHere, hnone]

theorem Behind.peekSymbol_eq_false {viable : Viable} (hv : viable.lineEnd = true)
    (hc : viable.closing = false) (symbol : Symbol) :
    peekSymbol indent viable symbol rest = false := by
  simp only [peekSymbol, peek, h.ahead_eq_none hv hc, Option.map_none]

theorem Behind.peekWord_eq_false {viable : Viable} (hv : viable.lineEnd = true)
    (hc : viable.closing = false) (word : String) : peekWord indent viable word rest = false := by
  simp only [peekWord, peek, h.ahead_eq_none hv hc, Option.map_none]

end

end Marksheet.Grammar
