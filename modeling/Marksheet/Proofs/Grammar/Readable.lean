import Marksheet.Proofs.Grammar.Spelling
import Marksheet.Proofs.Syntax.Print
import Marksheet.Syntax.Abstraction

/-!
# Phrases that can be read

`Readable strength shapes phrase` says that tokens of these shapes are read as the
phrase wherever a phrase of that strength may stand: as an expression at every level
up to the strength, as an operand, and as an operand with trailers, if it is strong
enough for these. What is read in one go goes on with the tail of the same reader, so
that a left operand is read together with what follows it.
-/

namespace Marksheet.Grammar

open Marksheet.Source Marksheet.Syntax

/-! ### First tokens -/

/-- The greatest strength of an expression that begins with a symbol; zero where none does. -/
def symbolHeadStrength : Symbol → Nat
  | .lparen | .lbracket => 22
  | .tilde | .op .add | .op .sub => 20
  | _ => 0

/-- The greatest strength of an expression that begins with a shape; zero where none does. -/
def headStrength : Shape → Nat
  | (.word, text) =>
    if text = "not" then 12
    else if (constantWord? text).isSome || !reservedWords.contains text then 22
    else 0
  | (.integer, _) | (.quoteOpen, _) => 22
  | (.symbol symbol, _) => symbolHeadStrength symbol
  | _ => 0

/-- The second shape leaves the first one its sense: a word is not given a value, and a parenthesis
does not open in front of a star. -/
def keepsSense (first second : Shape) : Bool :=
  match first.1 with
  | .word => second.1 != .symbol .assign && second.1 != .symbol .walrus
  | .symbol .lparen => second.1 != .symbol (.op .mul) && second.1 != .symbol (.op .pow)
  | _ => true

/-- An expression of a strength can begin with these shapes. -/
def Opening (strength : Nat) : List Shape → Prop
  | [] => False
  | [first] => strength ≤ headStrength first ∧ first.1 ≠ .symbol .lparen
  | first :: second :: _ => strength ≤ headStrength first ∧ keepsSense first second = true

namespace Opening

variable {strength : Nat} {shapes more : List Shape}

theorem exists_cons (h : Opening strength shapes) :
    ∃ first rest, shapes = first :: rest ∧ strength ≤ headStrength first := by
  match shapes, h with
  | [first], h => exact ⟨first, [], rfl, h.1⟩
  | first :: second :: rest, h => exact ⟨first, second :: rest, rfl, h.1⟩

theorem mono (h : Opening strength shapes) {weaker : Nat} (hw : weaker ≤ strength) :
    Opening weaker shapes := by
  match shapes, h with
  | [first], h => exact ⟨hw.trans h.1, h.2⟩
  | first :: second :: rest, h => exact ⟨hw.trans h.1, h.2⟩

/-- What holds on to an expression from behind does not change how it begins. -/
theorem append (h : Opening strength shapes) (hm : ∀ next ∈ more.head?, tightness next < 24) :
    Opening strength (shapes ++ more) := by
  match shapes, more, h with
  | [first], [], h => exact h
  | first :: second :: rest, _, h => exact h
  | [first], next :: more, h =>
    refine ⟨h.1, ?_⟩
    unfold keepsSense
    split
    · rw [Bool.and_eq_true, bne_iff_ne, bne_iff_ne]
      exact ⟨ne_symbol_of_tightness_lt (hm next rfl), ne_symbol_of_tightness_lt (hm next rfl)⟩
    · exact absurd ‹_› h.2
    · rfl

end Opening

theorem ne_symbol_of_le_headStrength {shape : Shape} {strength : Nat}
    (h : strength ≤ headStrength shape) {symbol : Symbol}
    (hs : symbolHeadStrength symbol < strength) : shape.1 ≠ .symbol symbol := by
  obtain ⟨lexeme, text⟩ := shape
  rintro rfl
  exact absurd h (Nat.not_le.mpr hs)

section

variable {token : Token} {strength : Nat} (h : strength ≤ headStrength (shapeOf token))

include h

/-- A word that is too weak does not come first. -/
theorem isWord_eq_false {word : String} (hw : headStrength (.word, word) < strength) :
    token.isWord word = false := by
  rw [Token.isWord, Bool.and_eq_false_iff]
  by_contra hc
  simp only [not_or, Bool.not_eq_false, decide_eq_true_eq] at hc
  rw [shapeOf, hc.1, hc.2] at h
  omega

/-- A symbol that is too weak does not come first. -/
theorem isSymbol_eq_false {symbol : Symbol} (hs : symbolHeadStrength symbol < strength) :
    token.isSymbol symbol = false :=
  decide_eq_false (ne_symbol_of_le_headStrength h hs)

/-- Only a weak expression begins with a sign. -/
theorem sign?_eq_none (hs : 20 < strength) : sign? token = none := by
  have hno (symbol : Symbol) (hsign : symbolHeadStrength symbol = 20) :
      token.lexeme ≠ .symbol symbol := ne_symbol_of_le_headStrength h (hsign.trans_lt hs)
  unfold sign?
  split
  · exact absurd ‹_› (hno _ rfl)
  · exact absurd ‹_› (hno _ rfl)
  · exact absurd ‹_› (hno _ rfl)
  · rfl

end

/-- The first word of an expression is not given a value. -/
theorem Opening.peekSymbol_eq_false {strength : Nat} {shapes : List Shape}
    (ho : Opening strength shapes) {token : Token} {tail : List Token}
    (ht : Spells (token :: tail) shapes) (hw : token.lexeme = .word) {place : Place} {bound : Nat}
    {rest : List Token} (hf : Follows place bound rest) (hb : bound ≤ 24) {symbol : Symbol}
    (hs : symbol = .assign ∨ symbol = .walrus) :
    peekSymbol place.indent place.viable symbol (tail ++ rest) = false := by
  have htight : symbolTightness symbol = 24 := by rcases hs with rfl | rfl <;> rfl
  cases tail with
  | nil => exact hf.peekSymbol_eq_false (by omega)
  | cons second tail =>
    have hsnug : Snug second := ht.snug second (List.mem_cons_of_mem _ List.mem_cons_self)
    rw [List.cons_append, peekSymbol_of_snug hsnug]
    obtain rfl := ht.shape
    have hkeeps : keepsSense (shapeOf token) (shapeOf second) = true := ho.2
    rw [keepsSense, shapeOf, hw] at hkeeps
    simp only [Bool.and_eq_true, bne_iff_ne] at hkeeps
    rcases hs with rfl | rfl
    · exact decide_eq_false hkeeps.1
    · exact decide_eq_false hkeeps.2

/-- A parenthesis that begins an expression does not open in front of a star. -/
theorem Opening.secondIsStar_eq_false {strength : Nat} {shapes : List Shape}
    (ho : Opening strength shapes) {token : Token} {tail : List Token}
    (ht : Spells (token :: tail) shapes) (hs : token.isSymbol .lparen = true) (rest : List Token) :
    secondIsStar (token :: (tail ++ rest)) = false := by
  have hlexeme : token.lexeme = .symbol .lparen := of_decide_eq_true hs
  obtain rfl := ht.shape
  cases tail with
  | nil => exact absurd hlexeme ho.2
  | cons second tail =>
    have hkeeps : keepsSense (shapeOf token) (shapeOf second) = true := ho.2
    rw [keepsSense, shapeOf, hlexeme] at hkeeps
    simp only [Bool.and_eq_true, bne_iff_ne] at hkeeps
    exact Bool.or_eq_false_iff.mpr ⟨decide_eq_false hkeeps.1, decide_eq_false hkeeps.2⟩

/-! ### Where the tails of the readers end -/

section

variable {place : Place} {bound : Nat} {rest : List Token} (n : Nested)

theorem moreLiterals_of_follows (h : Follows place bound rest) (hb : bound ≤ 23) (fuel : Nat)
    (pieces : List Phrase) : moreLiterals n place fuel pieces rest = .ok (pieces, rest) := by
  cases fuel with
  | zero => rfl
  | succ fuel =>
    cases h with
    | ends h => simp only [moreLiterals, h true]
    | @snug token rest hs ht =>
      have hquote : token.lexeme ≠ .quoteOpen := by
        intro he
        rw [shapeOf, he] at ht
        exact absurd (ht.trans_le hb) (Nat.lt_irrefl 23)
      simp only [moreLiterals, ahead_of_snug hs, close_lexeme, hquote, if_false]

theorem trailers_of_follows (h : Follows place bound rest) (hb : bound ≤ 22) (fuel : Nat)
    (value : Phrase) : trailers n place (fun _ => true) fuel value rest = .ok (value, rest) := by
  cases fuel with
  | zero => rfl
  | succ fuel =>
    cases h with
    | ends h => simp only [trailers, if_true, h place.viable.quote]
    | snug hs ht =>
      have hno := isSymbol_of_tightness_lt ht
      simp only [trailers, if_true, ahead_of_snug hs, beginsTrailer, close_isSymbol, hno .dot hb,
        hno .lparen hb, hno .lbracket hb, Bool.or_false, Bool.false_eq_true, if_false]

/-- An operator that holds on no more tightly than the bound is too weak to be taken. -/
theorem precedence_lt {op : BinOp} {least : Nat} (ht : symbolTightness (.op op) < bound)
    (hb : bound ≤ 13 ∨ bound < least ∨ bound ≤ 21 ∧ 21 ≤ least) : op.precedence < least := by
  cases op <;> simp only [symbolTightness, BinOp.precedence, reduceCtorEq, if_false, if_true] at ht ⊢ <;>
    omega

theorem binaryTail_of_follows (h : Follows place bound rest) {least : Nat}
    (hb : bound ≤ 13 ∨ bound < least ∨ bound ≤ 21 ∧ 21 ≤ least) (fuel : Nat) (left : Phrase) :
    binaryTail n place least fuel left rest = .ok (left, rest) := by
  cases fuel with
  | zero => rfl
  | succ fuel =>
    cases h with
    | ends h => simp only [binaryTail, h place.viable.quote]
    | @snug token rest hs ht =>
      simp only [binaryTail, ahead_of_snug hs, close_lexeme]
      split
      · rename_i op he
        rw [shapeOf, he] at ht
        rw [if_neg (Nat.not_le.mpr (precedence_lt ht hb))]
      · rfl

theorem comparisonTail_of_follows (h : Follows place bound rest) (hb : bound ≤ 12) (fuel : Nat)
    (broken : Bool) (links : List (CmpOp × Phrase)) :
    comparisonTail n place fuel broken links rest = .ok ((broken, links), rest) := by
  cases fuel with
  | zero => rfl
  | succ fuel =>
    cases h with
    | ends h => simp only [comparisonTail, h place.viable.quote]
    | @snug token rest hs ht =>
      have hnone : comparisonOp? place (token.close :: rest) = none := by
        have hword (word : String) (hw : wordTightness word = 12) (he : token.lexeme = .word) :
            ¬ token.close.text = word := by
          rintro rfl
          rw [shapeOf, he, tightness] at ht
          exact absurd hw (by rw [close_text]; omega)
        have hsymbol (symbol : Symbol) (hsym : symbolTightness symbol = 12) :
            token.lexeme ≠ .symbol symbol :=
          ne_symbol_of_tightness_lt (ht.trans_le (hb.trans hsym.ge))
        simp only [comparisonOp?, close_lexeme]
        split
        all_goals first
          | exact absurd ‹_› (hsymbol _ rfl)
          | rfl
          | (rename_i he
             rw [if_neg (hword "in" rfl he), if_neg (hword "not" rfl he), if_neg (hword "is" rfl he)])
      simp only [comparisonTail, ahead_of_snug hs, hnone]

/-- An infix word that holds on more weakly than the bound is too weak to be taken. -/
theorem infixTail_of_follows (h : Follows place bound rest) {level : Level}
    (hb : bound ≤ 1 ∨ bound < level.least ∨ 12 ≤ level.least) (fuel : Nat)
    (left : Phrase) : infixTail n place level fuel left rest = .ok (left, rest) := by
  cases fuel with
  | zero => rfl
  | succ fuel =>
    cases h with
    | ends h => simp only [infixTail, h place.viable.quote]
    | @snug token rest hs ht =>
      have hword (word : String) (strength : Nat) (hw : 0 < wordTightness word)
          (hstrength : strength ≤ wordTightness word + 1 ∧ strength ≤ 11) :
          (token.isWord word && decide (level.least ≤ strength)) = false := by
        rw [Bool.and_eq_false_iff, or_iff_not_imp_left, Bool.not_eq_false, Token.isWord,
          Bool.and_eq_true, decide_eq_true_eq, decide_eq_true_eq]
        rintro ⟨he, rfl⟩
        rw [shapeOf, he, tightness] at ht
        exact decide_eq_false (by omega)
      simp only [infixTail, ahead_of_snug hs, close_isWord, hword "or" 10 (by decide) (by decide),
        hword "and" 11 (by decide) (by decide), hword "if" 1 (by decide) (by decide),
        hword "as" 2 (by decide) (by decide), Bool.false_eq_true, if_false]

end

/-! ### What can be read -/

/-- How far the reader of operands goes for a phrase of a strength: how tightly it may be told to read
and what it leaves behind. A sign reads no further than a power. -/
def reach (strength : Nat) : Nat :=
  if strength < 20 then strength else if strength < 22 then 21 else 22

theorem reach_mono {strength strength' : Nat} (h : strength ≤ strength') :
    reach strength ≤ reach strength' := by
  unfold reach
  split_ifs <;> omega

/-- Fuel for a token and more is fuel for a step and for what is left behind it. -/
theorem exists_fuel {token : Token} {tail rest : List Token} {fuel : Nat}
    (h : (token :: tail ++ rest).length ≤ fuel) : ∃ less, fuel = less + 1 ∧ rest.length ≤ less := by
  rw [List.cons_append, List.length_cons, List.length_append] at h
  exact ⟨fuel - 1, by omega, by omega⟩

/-- Tokens of the shapes are read as an operand that may have trailers. -/
def ReadsPrimary (shapes : List Shape) (phrase : Phrase) : Prop :=
  ∀ tokens, Spells tokens shapes → ∀ levels, shapes.length ≤ levels + 1 →
    ∀ place rest, Follows place 23 rest →
      ∃ fuel, rest.length ≤ fuel ∧
        primary (nested levels) place (tokens ++ rest) =
          trailers (nested levels) place (fun _ => true) fuel phrase rest

/-- Tokens of the shapes are read as an operand of a strength. -/
def ReadsOperand (strength : Nat) (shapes : List Shape) (phrase : Phrase) : Prop :=
  ∀ tokens, Spells tokens shapes → ∀ levels, shapes.length ≤ levels + 1 →
    ∀ place least rest, least ≤ reach strength → Follows place (reach strength) rest →
      ∃ fuel, rest.length ≤ fuel ∧
        operand (nested levels) place least (tokens ++ rest) =
          binaryTail (nested levels) place least fuel phrase rest

/-- Tokens of the shapes are read as an expression of a strength. -/
def ReadsExpression (strength : Nat) (shapes : List Shape) (phrase : Phrase) : Prop :=
  ∀ tokens, Spells tokens shapes → ∀ levels, shapes.length ≤ levels + 1 →
    ∀ place (level : Level) rest, level.least ≤ strength → Follows place (min strength 12) rest →
      ∃ fuel, rest.length ≤ fuel ∧
        expression (nested levels) place level (tokens ++ rest) =
          infixTail (nested levels) place level fuel phrase rest

/-- The phrase is an expression by itself. -/
def isExpression : Phrase → Bool
  | .continuation _ | .keyword .. | .parenthesizedSplat _ | .assignment .. | .augmented .. => false
  | _ => true

/-- Tokens of the shapes are read as the phrase wherever its strength suffices. -/
structure Readable (strength : Nat) (shapes : List Shape) (phrase : Phrase) : Prop where
  positive : 0 < strength
  opening : Opening strength shapes
  plain : isExpression phrase = true
  asExpression : ReadsExpression strength shapes phrase
  asOperand : 14 ≤ strength → ReadsOperand strength shapes phrase
  asPrimary : 22 ≤ strength → ReadsPrimary shapes phrase

/-! ### From operands with trailers to expressions -/

section

variable {strength : Nat} {shapes : List Shape} {phrase : Phrase}

theorem reach_le (strength : Nat) : reach strength ≤ 22 := by
  unfold reach
  split_ifs <;> omega

theorem readsOperand_of_primary (ho : Opening 22 shapes)
    (h : ReadsPrimary shapes phrase) : ReadsOperand 22 shapes phrase := by
  intro tokens ht levels hl place least rest _ hf
  obtain ⟨fuel, -, hp⟩ := h tokens ht levels hl place rest (hf.mono ((reach_le 22).trans (by decide)))
  rw [trailers_of_follows _ hf (reach_le 22)] at hp
  obtain ⟨first, more, rfl, hfirst⟩ := ho.exists_cons
  obtain ⟨token, tail, rfl, -, rfl, -⟩ := ht.cons_inv
  refine ⟨rest.length, Nat.le_refl _, ?_⟩
  have hawait : token.isWord "await" = false :=
    isWord_eq_false hfirst (by decide)
  rw [List.cons_append] at hp ⊢
  simp only [operand, sign?_eq_none hfirst (by decide), awaits, hawait, Bool.false_and,
    Bool.and_false, Bool.false_eq_true, if_false, hp]
  rfl

/-- An expression that is no negation, function or value with a name is a comparison or an operand. -/
theorem simpleExpression_eq_comparison (hs : 12 < strength) (ho : Opening strength shapes)
    {tokens rest : List Token} (ht : Spells tokens shapes) {place : Place} {bound : Nat}
    (hf : Follows place bound rest) (hb : bound ≤ 24) (n : Nested) (level : Level) :
    simpleExpression n place level (tokens ++ rest) = comparison n place (tokens ++ rest) := by
  obtain ⟨first, more, rfl, hfirst⟩ := ho.exists_cons
  obtain ⟨token, tail, rfl, -, rfl, -⟩ := ht.cons_inv
  have hnot : token.isWord "not" = false :=
    isWord_eq_false hfirst (Nat.lt_of_le_of_lt (by decide) hs)
  have hlambda : token.isWord "lambda" = false :=
    isWord_eq_false hfirst (Nat.lt_of_le_of_lt (by decide) hs)
  have hwalrus : (token.lexeme = .word && (constantWord? token.text).isNone &&
      peekSymbol place.indent place.viable .walrus (tail ++ rest)) = false := by
    by_cases hw : token.lexeme = .word
    · rw [ho.peekSymbol_eq_false ht hw hf hb (.inr rfl), Bool.and_false]
    · rw [decide_eq_false hw, Bool.false_and, Bool.false_and]
  simp only [List.cons_append, simpleExpression, hnot, hlambda, hwalrus, Bool.false_eq_true,
    if_false]

theorem readsExpression_of_operand (hs : 14 ≤ strength) (ho : Opening strength shapes)
    (h : ReadsOperand strength shapes phrase) : ReadsExpression strength shapes phrase := by
  intro tokens ht levels hl place level rest _ hf
  have hreach : 12 ≤ reach strength := by unfold reach; split_ifs <;> omega
  have hf12 : Follows place 12 rest := hf.mono (Nat.min_le_right _ _)
  obtain ⟨fuel, -, hp⟩ := h tokens ht levels hl place 0 rest (Nat.zero_le _) (hf12.mono hreach)
  rw [binaryTail_of_follows _ hf12 (.inl (by decide))] at hp
  refine ⟨rest.length, Nat.le_refl _, ?_⟩
  -- Neither an operator nor a comparison is left to take: what follows is weaker than both.
  have hcomparison : comparison (nested levels) place (tokens ++ rest) = .ok (phrase, rest) := by
    simp only [comparison, hp, bind, Except.bind,
      comparisonTail_of_follows _ hf12 (Nat.le_refl _)]
    rfl
  simp only [expression, simpleExpression_eq_comparison (by omega) ho ht hf12 (by omega),
    hcomparison, bind, Except.bind]

end

namespace Readable

variable {strength : Nat} {shapes : List Shape} {phrase : Phrase}

theorem ofOperand (hs : 14 ≤ strength) (hs' : strength < 22) (ho : Opening strength shapes)
    (hp : isExpression phrase = true) (h : ReadsOperand strength shapes phrase) :
    Readable strength shapes phrase :=
  ⟨by omega, ho, hp, readsExpression_of_operand hs ho h, fun _ => h, fun h => by omega⟩

theorem ofPrimary (ho : Opening 22 shapes) (hp : isExpression phrase = true)
    (h : ReadsPrimary shapes phrase) : Readable 22 shapes phrase :=
  have hoperand : ReadsOperand 22 shapes phrase := readsOperand_of_primary ho h
  ⟨by decide, ho, hp, readsExpression_of_operand (by decide) ho hoperand, fun _ => hoperand,
    fun _ => h⟩

theorem mono (h : Readable strength shapes phrase) {weaker : Nat} (h0 : 0 < weaker)
    (hw : weaker ≤ strength) : Readable weaker shapes phrase where
  positive := h0
  opening := h.opening.mono hw
  plain := h.plain
  asExpression := fun tokens ht levels hl place level rest hleast hf =>
    h.asExpression tokens ht levels hl place level rest (hleast.trans hw)
      (hf.mono (min_le_min_right 12 hw))
  asOperand := fun hs tokens ht levels hl place least rest hleast hf =>
    h.asOperand (hs.trans hw) tokens ht levels hl place least rest (hleast.trans (reach_mono hw))
      (hf.mono (reach_mono hw))
  asPrimary := fun hs => h.asPrimary (hs.trans hw)

/-- An expression inside another one is read to its end. -/
theorem expression_eq_ok (h : Readable strength shapes phrase) {tokens rest : List Token}
    (ht : Spells tokens shapes) {levels : Nat} (hl : shapes.length ≤ levels) {place : Place}
    {level : Level} {bound : Nat} (hleast : level.least ≤ strength) (hf : Follows place bound rest)
    (hs : bound ≤ min strength 12)
    (hb : bound ≤ 1 ∨ bound < level.least ∨ 12 ≤ level.least) :
    (nested levels).expression place level (tokens ++ rest) = .ok (phrase, rest) := by
  obtain ⟨first, more, rfl, -⟩ := h.opening.exists_cons
  cases levels with
  | zero => exact absurd hl (by simp)
  | succ levels =>
    obtain ⟨fuel, -, he⟩ := h.asExpression tokens ht levels hl place level rest hleast (hf.mono hs)
    exact he.trans (infixTail_of_follows _ hf hb fuel phrase)

/-- An operand inside another phrase is read to its end. -/
theorem operand_eq_ok (h : Readable strength shapes phrase) (h14 : 14 ≤ strength)
    {tokens rest : List Token} (ht : Spells tokens shapes) {levels : Nat}
    (hl : shapes.length ≤ levels) {place : Place} {least bound : Nat}
    (hleast : least ≤ reach strength) (hf : Follows place bound rest) (hs : bound ≤ reach strength)
    (hb : bound ≤ 13 ∨ bound < least ∨ bound ≤ 21 ∧ 21 ≤ least) :
    (nested levels).operand place least (tokens ++ rest) = .ok (phrase, rest) := by
  obtain ⟨first, more, rfl, -⟩ := h.opening.exists_cons
  cases levels with
  | zero => exact absurd hl (by simp)
  | succ levels =>
    obtain ⟨fuel, -, he⟩ :=
      h.asOperand h14 tokens ht levels hl place least rest hleast (hf.mono hs)
    exact he.trans (binaryTail_of_follows _ hf hb fuel phrase)

end Readable

end Marksheet.Grammar
