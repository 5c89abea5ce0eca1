import Mathlib
import Marksheet.Grammar.Expression
import Marksheet.Proofs.Syntax.Print

/-!
# Tokens behind blanks

A token is snug if it stands behind blanks only and does not end the text. Layout
plays no part before a snug token, whatever the grammar could take there, and a
reader sees no more of it than its shape. `Follows` bounds how tightly the tokens
behind a phrase hold on to it: the line ends there, or a snug token comes that is
weak enough.
-/

namespace Marksheet.Grammar

open Marksheet.Source Marksheet.Syntax

/-! ### Snug tokens -/

/-- The token stands behind blanks only and does not end the text. -/
structure Snug (token : Token) : Prop where
  blank : ∀ piece ∈ token.gap, piece = .space
  inside : token.lexeme ≠ .finish

@[simp] theorem close_lexeme (token : Token) : token.close.lexeme = token.lexeme := rfl

@[simp] theorem close_text (token : Token) : token.close.text = token.text := rfl

@[simp] theorem close_isSymbol (token : Token) (symbol : Symbol) :
    token.close.isSymbol symbol = token.isSymbol symbol := rfl

@[simp] theorem close_isWord (token : Token) (word : String) :
    token.close.isWord word = token.isWord word := rfl

theorem Snug.close {token : Token} (h : Snug token) : Snug token.close :=
  ⟨fun _ hm => absurd hm List.not_mem_nil, h.inside⟩

/-- Blanks alone are counted up to the token. -/
theorem outlook_of_blank (skip : Bool) {gap : List Trivia} (h : ∀ piece ∈ gap, piece = .space)
    (found : Outlook) :
    outlook skip found gap =
      { found with indent := found.indent + gap.length, reached := true } := by
  induction gap generalizing found with
  | nil => rfl
  | cons piece gap ih =>
    obtain rfl := h piece List.mem_cons_self
    rw [outlook, ih fun other hm => h other (List.mem_cons_of_mem _ hm)]
    simp only [List.length_cons]
    congr 1
    omega

/-- No comment and no continued line stands in a gap of blanks and line ends. -/
theorem dropBlanks_eq_nil {gap : List Trivia} (h : ∀ piece ∈ gap, piece = .space ∨ piece = .newline) :
    dropBlanks gap = [] := by
  induction gap with
  | nil => rfl
  | cons piece gap ih =>
    have hgap := ih fun other hm => h other (List.mem_cons_of_mem _ hm)
    rcases h piece List.mem_cons_self with rfl | rfl <;> exact hgap

section

variable {token : Token} (h : Snug token) (indent : Nat) (viable : Viable) (rest : List Token)

include h

/-- Nothing happens before a snug token. -/
theorem settle_of_snug : settle indent viable token = ⟨[], .goesOn, token.close⟩ := by
  have hlook : (look indent viable token).1 = .goesOn := by
    simp only [look, outlook_of_blank _ h.blank, h.inside, decide_false, Bool.and_false,
      Bool.or_false, Bool.false_eq_true, if_false, Bool.false_and]
  rw [settle, settleFrom]
  cases hl : look indent viable token with
  | mk verdict passed =>
    rw [hl] at hlook
    obtain rfl : verdict = .goesOn := hlook
    cases passed with
    | true => rfl
    | false =>
      simp only [dropBlanks_eq_nil fun piece hm => .inl (h.blank piece hm), List.reverse_nil]

theorem ahead_of_snug : ahead indent viable (token :: rest) = some ([], token.close, rest) := by
  rw [ahead, settle_of_snug h]
  rfl

theorem pass_of_snug : pass indent viable (token :: rest) = .ok ([], token.close :: rest) := by
  rw [pass, ahead_of_snug h]

theorem peek_of_snug : peek indent viable (token :: rest) = some token.close := by
  rw [peek, ahead_of_snug h]
  rfl

theorem peekSymbol_of_snug (symbol : Symbol) :
    peekSymbol indent viable symbol (token :: rest) = token.isSymbol symbol := by
  rw [peekSymbol, peek_of_snug h]
  rfl

theorem passSymbol_of_snug {symbol : Symbol} (hs : token.isSymbol symbol = true) :
    passSymbol indent viable symbol (token :: rest) = .ok ([], rest) := by
  rw [passSymbol, pass_of_snug h]
  simp only [bind, Except.bind, takeSymbol, close_isSymbol, hs, if_true]
  rfl

theorem passWord_of_snug {word : String} (hw : token.isWord word = true) :
    passWord indent viable word (token :: rest) = .ok ([], rest) := by
  rw [passWord, pass_of_snug h]
  simp only [bind, Except.bind, takeWord, close_isWord, hw, if_true]
  rfl

theorem passName_of_snug (hw : token.lexeme = .word) :
    passName indent viable (token :: rest) = .ok (token.text, rest) := by
  rw [passName, pass_of_snug h]
  simp only [bind, Except.bind, takeName, close_lexeme, hw, if_true, close_text]

end

/-! ### Shapes -/

/-- The shape of a token. -/
def shapeOf (token : Token) : Shape := (token.lexeme, token.text)

section

variable {token : Token} {text : String} {symbol : Symbol}

theorem isWord_of_word (h : shapeOf token = .word text) (word : String) :
    token.isWord word = decide (text = word) := by
  rw [Token.isWord, show token.lexeme = .word from congrArg Prod.fst h,
    show token.text = text from congrArg Prod.snd h]
  rfl

theorem isSymbol_of_word (h : shapeOf token = .word text) (other : Symbol) :
    token.isSymbol other = false := by
  rw [Token.isSymbol, show token.lexeme = .word from congrArg Prod.fst h]
  rfl

theorem isSymbol_of_sign (h : shapeOf token = .sign symbol) (other : Symbol) :
    token.isSymbol other = decide (symbol = other) := by
  rw [Token.isSymbol, show token.lexeme = .symbol symbol from congrArg Prod.fst h]
  exact decide_eq_decide.mpr (by rw [Lexeme.symbol.injEq])

theorem isWord_of_sign (h : shapeOf token = .sign symbol) (word : String) :
    token.isWord word = false := by
  rw [Token.isWord, show token.lexeme = .symbol symbol from congrArg Prod.fst h]
  rfl

end

/-- The tokens are snug and have these shapes. -/
structure Spells (tokens : List Token) (shapes : List Shape) : Prop where
  snug : ∀ token ∈ tokens, Snug token
  shape : tokens.map shapeOf = shapes

namespace Spells

variable {tokens : List Token} {token : Token} {shapes more : List Shape} {shape : Shape}

theorem length_eq (h : Spells tokens shapes) : tokens.length = shapes.length := by
  rw [← h.shape, List.length_map]

theorem ne_nil (h : Spells tokens shapes) (hne : shapes ≠ []) : tokens ≠ [] := by
  rintro rfl
  exact hne h.shape.symm

theorem nil_inv (h : Spells tokens []) : tokens = [] := List.map_eq_nil_iff.mp h.shape

theorem cons_inv (h : Spells tokens (shape :: shapes)) :
    ∃ first rest, tokens = first :: rest ∧ Snug first ∧ shapeOf first = shape ∧
      Spells rest shapes := by
  obtain ⟨first, rest, rfl, hf, hr⟩ := List.map_eq_cons_iff.mp h.shape
  exact ⟨first, rest, rfl, h.snug first List.mem_cons_self, hf,
    ⟨fun token hm => h.snug token (List.mem_cons_of_mem _ hm), hr⟩⟩

theorem single_inv (h : Spells tokens [shape]) :
    ∃ first, tokens = [first] ∧ Snug first ∧ shapeOf first = shape := by
  obtain ⟨first, rest, rfl, hsnug, hshape, hrest⟩ := h.cons_inv
  obtain rfl := hrest.nil_inv
  exact ⟨first, rfl, hsnug, hshape⟩

theorem append_inv (h : Spells tokens (shapes ++ more)) :
    ∃ before behind, tokens = before ++ behind ∧ Spells before shapes ∧ Spells behind more := by
  obtain ⟨before, behind, rfl, hb, hm⟩ := List.map_eq_append_iff.mp h.shape
  exact ⟨before, behind, rfl, ⟨fun token ht => h.snug token (List.mem_append_left _ ht), hb⟩,
    ⟨fun token ht => h.snug token (List.mem_append_right _ ht), hm⟩⟩

theorem append {others : List Token} (h : Spells tokens shapes) (hm : Spells others more) :
    Spells (tokens ++ others) (shapes ++ more) :=
  ⟨fun token ht => (List.mem_append.mp ht).elim (h.snug token) (hm.snug token), by
    rw [List.map_append, h.shape, hm.shape]⟩

theorem close (h : Spells (token :: tokens) shapes) : Spells (token.close :: tokens) shapes := by
  refine ⟨fun other hm => ?_, h.shape⟩
  rcases List.mem_cons.mp hm with rfl | hm
  · exact (h.snug token List.mem_cons_self).close
  · exact h.snug other (List.mem_cons_of_mem _ hm)

/-- Passing the gap before tokens takes nothing but the gap. -/
theorem exists_pass (h : Spells tokens shapes) (hne : shapes ≠ []) :
    ∃ closed, Spells closed shapes ∧
      ∀ indent viable rest, pass indent viable (tokens ++ rest) = .ok ([], closed ++ rest) := by
  cases tokens with
  | nil => exact absurd h.shape.symm hne
  | cons token tail =>
    exact ⟨token.close :: tail, h.close, fun indent viable rest =>
      pass_of_snug (h.snug token List.mem_cons_self) indent viable (tail ++ rest)⟩

end Spells

/-! ### How tightly a token holds on to what stands before it -/

/-- How tightly a symbol holds on to an operand before it. An operator that groups from the left is a
little weaker than an operand of its own precedence; the power is as strong as one. -/
def symbolTightness : Symbol → Nat
  | .op op => if op = .pow then op.precedence else op.precedence - 1
  | .less | .lessEq | .greater | .greaterEq | .eqEq | .notEq | .lessGreater => 12
  | .lparen | .lbracket | .dot => 22
  | .assign | .walrus => 24
  | _ => 0

/-- How tightly a word holds on to an operand before it. -/
def wordTightness (text : String) : Nat :=
  if text = "if" then 1
  else if text = "as" then 2
  else if text = "or" then 9
  else if text = "and" then 10
  else if ["in", "not", "is"].contains text then 12
  else 0

/-- How tightly a shape holds on to an operand before it. A string joins a string before it, and a
mark of assignment takes the name before it. -/
def tightness : Shape → Nat
  | (.symbol symbol, _) => symbolTightness symbol
  | (.word, text) => wordTightness text
  | (.quoteOpen, _) => 23
  | _ => 0

/-- A shape that holds on more weakly than a symbol is not that symbol. -/
theorem ne_symbol_of_tightness_lt {shape : Shape} {symbol : Symbol}
    (h : tightness shape < symbolTightness symbol) : shape.1 ≠ .symbol symbol := by
  obtain ⟨lexeme, text⟩ := shape
  rintro rfl
  exact absurd h (Nat.lt_irrefl _)

theorem isSymbol_of_tightness_lt {token : Token} {bound : Nat}
    (h : tightness (shapeOf token) < bound) (symbol : Symbol) (hs : bound ≤ symbolTightness symbol) :
    token.isSymbol symbol = false :=
  decide_eq_false (ne_symbol_of_tightness_lt (h.trans_le hs))

/-- Behind a phrase at a place the line ends, or a snug token holds on to the phrase more weakly than
a bound. -/
inductive Follows (place : Place) (bound : Nat) : List Token → Prop where
  | ends {tokens : List Token}
      (h : ∀ quote, ahead place.indent { place.viable with quote } tokens = none) :
      Follows place bound tokens
  | snug {token : Token} {rest : List Token} (hs : Snug token)
      (ht : tightness (shapeOf token) < bound) : Follows place bound (token :: rest)

theorem Follows.mono {place : Place} {bound bound' : Nat} {tokens : List Token}
    (h : Follows place bound tokens) (hb : bound ≤ bound') : Follows place bound' tokens := by
  cases h with
  | ends h => exact .ends h
  | snug hs ht => exact .snug hs (ht.trans_le hb)

/-- A symbol that holds on too tightly to follow does not come next. -/
theorem Follows.peekSymbol_eq_false {place : Place} {bound : Nat} {tokens : List Token}
    (h : Follows place bound tokens) {symbol : Symbol} (hs : bound ≤ symbolTightness symbol) :
    peekSymbol place.indent place.viable symbol tokens = false := by
  cases h with
  | ends h => simp only [peekSymbol, peek, h place.viable.quote, Option.map_none]
  | snug hsnug ht =>
    rw [peekSymbol_of_snug hsnug]
    exact isSymbol_of_tightness_lt ht symbol hs

end Marksheet.Grammar
