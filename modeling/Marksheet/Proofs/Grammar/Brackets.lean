import Marksheet.Proofs.Grammar.Operators

/-!
# Atoms, brackets and trailers are read

What stands in brackets is read up to the closing bracket; a trailer makes an operand
of the operand before it. Elements and arguments behind the first one are read by one
loop, for any reader of single items.
-/

namespace Marksheet.Grammar

open Marksheet.Source Marksheet.Syntax

/-! ### Atoms -/

/-- A word that is no keyword names no constant and is no negation. -/
theorem headStrength_of_not_reserved {text : String} (h : reservedWords.contains text = false) :
    headStrength (.word text) = 22 ∧ constantWord? text = none := by
  have hne (word : String) (hw : reservedWords.contains word = true) : text ≠ word := by
    rintro rfl
    rw [hw] at h
    cases h
  constructor
  · simp only [headStrength, Shape.word, hne "not" (by decide), h, Bool.not_false, Bool.or_true,
      if_false, if_true]
  · rw [constantWord?, if_neg (hne "True" (by decide)), if_neg (hne "False" (by decide)),
      if_neg (hne "None" (by decide))]

/-- The parts of a printed text. -/
def printedParts (value : String) : List TextPart :=
  if printedBody value = [] then [] else [.content (String.ofList (printedBody value))]

/-- A printed text is read up to its closing quote. -/
theorem literalParts_eq_ok (n : Nested) (value : String) {tokens : List Token}
    (ht : Spells tokens ((if printedBody value = [] then []
      else [(.quoteText, String.ofList (printedBody value))]) ++ [(.quoteClose, "\"")]))
    (rest : List Token) :
    literalParts n (tokens ++ rest).length [] (tokens ++ rest) = .ok (printedParts value, rest) := by
  unfold printedParts
  split at ht
  · rename_i hempty
    obtain ⟨last, rfl, -, hlast⟩ := ht.single_inv
    have hclose : last.lexeme = .quoteClose := congrArg Prod.fst hlast
    simp only [List.singleton_append, List.length_cons, literalParts, hclose, hempty, if_true,
      List.reverse_nil]
  · rename_i hbody
    obtain ⟨text, more, rfl, -, htext, hmore⟩ := ht.cons_inv
    obtain ⟨last, rfl, -, hlast⟩ := hmore.single_inv
    have hquote : text.lexeme = .quoteText := congrArg Prod.fst htext
    have hclose : last.lexeme = .quoteClose := congrArg Prod.fst hlast
    have hcontent : text.text = String.ofList (printedBody value) := congrArg Prod.snd htext
    simp only [List.cons_append, List.nil_append, List.length_cons, literalParts, hquote, hclose,
      hcontent, hbody, if_false, List.reverse_singleton]

namespace Readable

/-- An atom is an operand with trailers. -/
theorem ofAtom {shapes : List Shape} {phrase : Phrase} (ho : Opening 22 shapes)
    (hp : isExpression phrase = true)
    (h : ∀ tokens, Spells tokens shapes → ∀ levels, shapes.length ≤ levels + 1 →
      ∀ place rest, Follows place 23 rest →
        atom (nested levels) place (tokens ++ rest) = .ok (phrase, rest)) :
    Readable 22 shapes phrase := by
  refine ofPrimary ho hp fun tokens ht levels hlen place rest hf => ⟨rest.length, Nat.le_refl _, ?_⟩
  have hatom := h tokens ht levels hlen place rest hf
  obtain ⟨first, more, rfl, hfirst⟩ := ho.exists_cons
  obtain ⟨token, tail, rfl, -, rfl, -⟩ := ht.cons_inv
  have hmul : token.isSymbol (.op .mul) = false := isSymbol_eq_false hfirst (by decide)
  have hpow : token.isSymbol (.op .pow) = false := isSymbol_eq_false hfirst (by decide)
  rw [List.cons_append] at hatom ⊢
  simp only [primary, hmul, hpow, Bool.or_false, Bool.false_eq_true, if_false, hatom, bind,
    Except.bind]

theorem name {text : String} (h : reservedWords.contains text = false) :
    Readable 22 [.word text] (.name text) := by
  obtain ⟨hhead, hconstant⟩ := headStrength_of_not_reserved h
  refine ofAtom ⟨hhead.ge, by simp [Shape.word]⟩ rfl fun tokens ht levels _ place rest _ => ?_
  obtain ⟨token, rfl, -, hshape⟩ := ht.single_inv
  have hlexeme : token.lexeme = .word := congrArg Prod.fst hshape
  obtain rfl : token.text = text := congrArg Prod.snd hshape
  simp only [List.singleton_append, atom, hlexeme, hconstant]

theorem constant {text : String} {value : Constant} (h : constantWord? text = some value) :
    Readable 22 [.word text] (.constant value) := by
  have hhead : headStrength (.word text) = 22 := by
    have hnot : text ≠ "not" := by
      rintro rfl
      cases h
    simp only [headStrength, Shape.word, hnot, h, Option.isSome_some, Bool.true_or, if_false, if_true]
  refine ofAtom ⟨hhead.ge, by simp [Shape.word]⟩ rfl fun tokens ht levels _ place rest _ => ?_
  obtain ⟨token, rfl, -, hshape⟩ := ht.single_inv
  have hlexeme : token.lexeme = .word := congrArg Prod.fst hshape
  obtain rfl : token.text = text := congrArg Prod.snd hshape
  simp only [List.singleton_append, atom, hlexeme, h]

theorem integer (text : String) : Readable 22 [(.integer, text)] (.integer text) := by
  refine ofAtom ⟨Nat.le_refl 22, nofun⟩ rfl fun tokens ht levels _ place rest _ => ?_
  obtain ⟨token, rfl, -, hshape⟩ := ht.single_inv
  have hlexeme : token.lexeme = .integer := congrArg Prod.fst hshape
  obtain rfl : token.text = text := congrArg Prod.snd hshape
  simp only [List.singleton_append, atom, hlexeme]

theorem text (value : String) :
    Readable 22 (Mark.quoted value).shapes (.string false false (printedParts value)) := by
  have hopening : Opening 22 (Mark.quoted value).shapes := by
    rw [Mark.shapes]
    split
    · exact ⟨Nat.le_refl 22, rfl⟩
    · exact ⟨Nat.le_refl 22, rfl⟩
  refine ofAtom hopening rfl fun tokens ht levels _ place rest hf => ?_
  obtain ⟨opening, tail, rfl, -, hshape, htail⟩ := ht.cons_inv
  have hquote : opening.lexeme = .quoteOpen := congrArg Prod.fst hshape
  have htext : opening.text = "\"" := congrArg Prod.snd hshape
  have hliteral : literal (nested levels) (opening :: (tail ++ rest)) =
      .ok (.string false false (printedParts value), rest) := by
    simp only [literal, hquote, if_true, htext, bind, Except.bind,
      literalParts_eq_ok (nested levels) value htail rest]
    rfl
  have hmore : moreLiterals (nested levels) place rest.length
      [.string false false (printedParts value)] rest =
        .ok ([.string false false (printedParts value)], rest) :=
    moreLiterals_of_follows _ hf (Nat.le_refl _) _ _
  simp only [List.cons_append, atom, hquote, strings, hliteral, hmore, bind, Except.bind]
  rfl

end Readable

/-! ### Items in brackets -/

/-- A comma or the closing bracket comes next. -/
def Closes (closer : Symbol) (tokens : List Token) : Prop :=
  ∃ token rest, tokens = token :: rest ∧ Snug token ∧
    (shapeOf token = .sign .comma ∨ shapeOf token = .sign closer)

/-- A bracket that holds nothing before it. -/
def IsCloser (closer : Symbol) : Prop := closer = .rparen ∨ closer = .rbracket

theorem Closes.follows {closer : Symbol} {tokens : List Token} (h : Closes closer tokens)
    (hc : IsCloser closer) (place : Place) : Follows place 1 tokens := by
  obtain ⟨token, rest, rfl, hs, hshape | hshape⟩ := h
  · exact .snug hs (by rw [hshape]; decide)
  · rcases hc with rfl | rfl
    · exact .snug hs (by rw [hshape]; decide)
    · exact .snug hs (by rw [hshape]; decide)

/-- No clause of a comprehension begins with a comma or a closing bracket. -/
theorem Closes.beginsClauses_eq_false {closer : Symbol} {tokens : List Token}
    (h : Closes closer tokens) (indent : Nat) : beginsClauses indent tokens = false := by
  obtain ⟨token, rest, rfl, hs, hshape⟩ := h
  have hword (word : String) : token.isWord word = false := by
    rcases hshape with hshape | hshape
    · exact isWord_of_sign hshape word
    · exact isWord_of_sign hshape word
  simp only [beginsClauses, ahead_of_snug hs, close_isWord, hword, Bool.false_and, Bool.or_false]

section

variable {strength : Nat} {shapes : List Shape} {phrase : Phrase}

theorem starredElement_eq_ok (h : Readable strength shapes phrase) {tokens : List Token}
    (ht : Spells tokens shapes) {levels : Nat} (hl : shapes.length ≤ levels) {place : Place}
    {rest : List Token} (hf : Follows place 1 rest) (closer : Symbol) :
    starredElement (nested levels) place closer (tokens ++ rest) = .ok (phrase, rest) := by
  have hvalue : (nested levels).expression place {} (tokens ++ rest) = .ok (phrase, rest) :=
    h.expression_eq_ok ht hl (Nat.zero_le _) hf (le_min h.positive (by decide))
      (.inl (Nat.le_refl 1))
  have hopening := h.opening
  obtain ⟨first, more, rfl, hfirst⟩ := h.opening.exists_cons
  obtain ⟨token, tail, rfl, -, rfl, -⟩ := ht.cons_inv
  have hmul : token.isSymbol (.op .mul) = false := isSymbol_eq_false hfirst h.positive
  have hpow : token.isSymbol (.op .pow) = false := isSymbol_eq_false hfirst h.positive
  have hparen : (token.isSymbol .lparen && secondIsStar (token :: (tail ++ rest))) = false := by
    cases hs : token.isSymbol .lparen with
    | false => rfl
    | true => rw [hopening.secondIsStar_eq_false ht hs rest, Bool.true_and]
  rw [List.cons_append] at hvalue ⊢
  simp only [starredElement, hmul, hpow, hparen, Bool.or_false, Bool.false_eq_true, if_false, hvalue]

theorem element_eq_ok (h : Readable strength shapes phrase) {tokens : List Token}
    (ht : Spells tokens shapes) {levels : Nat} (hl : shapes.length ≤ levels) {place : Place}
    {rest : List Token} (hf : Follows place 1 rest) (closer : Symbol) :
    element (nested levels) place closer (tokens ++ rest) = .ok (phrase, rest) := by
  have hvalue := starredElement_eq_ok h ht hl hf closer
  obtain ⟨first, more, rfl, hfirst⟩ := h.opening.exists_cons
  obtain ⟨token, tail, rfl, -, rfl, -⟩ := ht.cons_inv
  have hyield : token.isWord "yield" = false :=
    isWord_eq_false hfirst (Nat.lt_of_le_of_lt (by decide) h.positive)
  rw [List.cons_append] at hvalue ⊢
  simp only [element, hyield, Bool.false_eq_true, if_false, hvalue]

end

/-- A reader of single items takes these shapes as the phrase, whatever comes behind them in the
brackets. -/
structure ReadsItem (item : Reader Phrase) (closer : Symbol) (shapes : List Shape) (phrase : Phrase) :
    Prop where
  opens : ∃ first more, shapes = first :: more ∧ first.1 ≠ .symbol closer
  reads : ∀ tokens rest, Spells tokens shapes → Closes closer rest →
    item (tokens ++ rest) = .ok (phrase, rest)

/-- Items, each behind a comma. -/
def behindCommas (items : List (List Shape)) : List Shape :=
  items.flatMap fun item => .sign .comma :: item

theorem behindCommas_cons (item : List Shape) (items : List (List Shape)) :
    behindCommas (item :: items) = .sign .comma :: (item ++ behindCommas items) := rfl

theorem Closes.behind_items {closer : Symbol} {items : List (List Shape)} {tokens rest : List Token}
    (ht : Spells tokens (behindCommas items)) (hr : Closes closer rest) :
    Closes closer (tokens ++ rest) := by
  cases items with
  | nil =>
    obtain rfl := ht.nil_inv
    exact hr
  | cons item items =>
    obtain ⟨comma, tail, rfl, hcomma, hshape, -⟩ := ht.cons_inv
    exact ⟨comma, tail ++ rest, rfl, hcomma, .inl hshape⟩

/-- Items behind commas are read one after the other. -/
theorem moreElements_items {item : Reader Phrase} {closer : Symbol} {items : List (List Shape)}
    {phrases : List Phrase} (h : List.Forall₂ (ReadsItem item closer) items phrases) (place : Place)
    {rest : List Token} (hr : Closes closer rest) (fuel : Nat) :
    ∀ tokens, Spells tokens (behindCommas items) → ∀ before,
      moreElements item place closer (fuel + phrases.length) before (tokens ++ rest) =
        moreElements item place closer fuel (before ++ phrases) rest := by
  induction h with
  | nil =>
    intro tokens ht before
    obtain rfl := ht.nil_inv
    rw [List.nil_append, List.append_nil, List.length_nil, Nat.add_zero]
  | @cons shapes phrase items phrases hitem hitems ih =>
    intro tokens ht before
    rw [behindCommas_cons] at ht
    obtain ⟨comma, tail, rfl, hcomma, hshape, htail⟩ := ht.cons_inv
    obtain ⟨value, further, rfl, hvalue, hfurther⟩ := htail.append_inv
    obtain ⟨first, more, rfl, hfirst⟩ := hitem.opens
    obtain ⟨next, value, rfl, hnext, rfl, -⟩ := hvalue.cons_inv
    have hread := hitem.reads _ (further ++ rest) hvalue.close (hr.behind_items hfurther)
    have hcloser : next.isSymbol closer = false := decide_eq_false hfirst
    have hmark : comma.isSymbol .comma = true := isSymbol_of_sign hshape .comma
    have hgap := pass_of_snug hcomma place.indent closerNext
      (next :: (value ++ (further ++ rest)))
    have hgap' := pass_of_snug hnext place.indent closerOrQuoteNext (value ++ (further ++ rest))
    rw [List.cons_append] at hread
    rw [List.length_cons, ← Nat.add_assoc]
    simp only [List.cons_append, List.append_assoc, moreElements, hgap, hgap', bind, Except.bind,
      close_isSymbol, hmark, hcloser, if_true, Bool.false_eq_true, if_false, hread]
    exact (ih further hfurther _).trans
      (by rw [List.nil_append, List.nil_append, List.append_assoc, List.singleton_append])

/-- What holds of every item that is short enough holds of all items of a list. -/
theorem forall₂_of_length_le {α : Type} {P Q : List Shape → α → Prop} {levels : Nat}
    (hitem : ∀ shapes value, P shapes value → shapes.length ≤ levels → Q shapes value)
    {items : List (List Shape)} {values : List α} (h : List.Forall₂ P items values)
    (hlen : (behindCommas items).length ≤ levels) : List.Forall₂ Q items values := by
  induction h with
  | nil => exact .nil
  | cons hhead htail ih =>
    rw [behindCommas_cons, List.length_cons, List.length_append] at hlen
    exact .cons (hitem _ _ hhead (by omega)) (ih (by omega))

theorem length_le_behindCommas (items : List (List Shape)) :
    items.length ≤ (behindCommas items).length := by
  induction items with
  | nil => exact Nat.le_refl 0
  | cons item items ih =>
    rw [behindCommas_cons, List.length_cons, List.length_cons, List.length_append]
    omega

/-- A last comma may stand before the closing bracket. -/
def IsTrailing (shapes : List Shape) : Prop := shapes = [] ∨ shapes = [.sign .comma]

theorem isTrailing_nil : IsTrailing [] := .inl rfl

/-- The loop ends at the closing bracket. -/
theorem moreElements_end (item : Reader Phrase) (place : Place) {closer : Symbol}
    (hc : IsCloser closer) {trailing : List Shape} (htr : IsTrailing trailing) {tokens : List Token}
    (ht : Spells tokens (trailing ++ [.sign closer])) (fuel : Nat) (before : List Phrase)
    (rest : List Token) :
    moreElements item place closer (fuel + 1) before (tokens ++ rest) = .ok (before, rest) := by
  have hne : Symbol.comma ≠ closer := by rcases hc with rfl | rfl <;> decide
  rcases htr with rfl | rfl
  · obtain ⟨last, rfl, hlast, hshape⟩ := ht.single_inv
    have hcloser : last.isSymbol closer = true := by
      rw [isSymbol_of_sign hshape, decide_eq_true rfl]
    have hcomma : last.isSymbol .comma = false := by
      rw [isSymbol_of_sign hshape, decide_eq_false hne.symm]
    simp only [List.singleton_append, moreElements, pass_of_snug hlast, bind, Except.bind,
      close_isSymbol, hcomma, Bool.false_eq_true, if_false, takeCloser, hcloser, if_true]
    rw [List.append_nil]
    rfl
  · obtain ⟨comma, more, rfl, hcomma, hshape, hmore⟩ := ht.cons_inv
    obtain ⟨last, rfl, hlast, hshape'⟩ := hmore.single_inv
    have hcloser : last.isSymbol closer = true := by
      rw [isSymbol_of_sign hshape', decide_eq_true rfl]
    have hmark : comma.isSymbol .comma = true := isSymbol_of_sign hshape .comma
    simp only [List.cons_append, List.nil_append, moreElements, pass_of_snug hcomma,
      pass_of_snug hlast, bind, Except.bind, close_isSymbol, hmark, hcloser, if_true]
    rw [List.append_nil, List.append_nil]
    rfl

theorem Closes.of_spells {closer : Symbol} {items : List (List Shape)} {trailing : List Shape}
    (htr : IsTrailing trailing) {tokens : List Token}
    (ht : Spells tokens (behindCommas items ++ (trailing ++ [.sign closer]))) (rest : List Token) :
    Closes closer (tokens ++ rest) := by
  obtain ⟨listed, last, rfl, hlisted, hlast⟩ := ht.append_inv
  have hcloses : Closes closer (last ++ rest) := by
    rcases htr with rfl | rfl
    · obtain ⟨token, more, rfl, hs, hshape, -⟩ := hlast.cons_inv
      exact ⟨token, more ++ rest, rfl, hs, .inr hshape⟩
    · obtain ⟨token, more, rfl, hs, hshape, -⟩ := hlast.cons_inv
      exact ⟨token, more ++ rest, rfl, hs, .inl hshape⟩
  rw [List.append_assoc]
  exact hcloses.behind_items hlisted

/-- Items behind commas are read up to the closing bracket. -/
theorem moreElements_eq_ok {item : Reader Phrase} {closer : Symbol} (hc : IsCloser closer)
    {items : List (List Shape)} {phrases : List Phrase}
    (h : List.Forall₂ (ReadsItem item closer) items phrases) {trailing : List Shape}
    (htr : IsTrailing trailing) {tokens : List Token}
    (ht : Spells tokens (behindCommas items ++ (trailing ++ [.sign closer]))) (place : Place)
    (before : List Phrase) (rest : List Token) :
    moreElements item place closer (tokens ++ rest).length before (tokens ++ rest) =
      .ok (before ++ phrases, rest) := by
  obtain ⟨listed, last, rfl, hlisted, hlast⟩ := ht.append_inv
  have hlast' : Spells last (behindCommas [] ++ (trailing ++ [.sign closer])) := hlast
  have hcloses : Closes closer (last ++ rest) := Closes.of_spells htr hlast' rest
  have hfuel : ∃ fuel, (listed ++ last ++ rest).length = fuel + 1 + phrases.length := by
    have hphrases := h.length_eq
    have hlisted := hlisted.length_eq
    have hle := length_le_behindCommas items
    have hlast : last.length = trailing.length + 1 := by rw [hlast.length_eq, List.length_append]; rfl
    refine ⟨(listed ++ last ++ rest).length - 1 - phrases.length, ?_⟩
    simp only [List.length_append] at hlast ⊢
    omega
  obtain ⟨fuel, hfuel⟩ := hfuel
  rw [hfuel, List.append_assoc, moreElements_items h place hcloses (fuel + 1) listed hlisted,
    moreElements_end item place hc htr hlast]

/-! ### Parentheses and displays -/

theorem Opening.paren {strength : Nat} {shapes : List Shape} (h : Opening strength shapes)
    (h0 : 0 < strength) (more : List Shape) : Opening 22 (.sign .lparen :: (shapes ++ more)) := by
  obtain ⟨first, rest, rfl, hfirst⟩ := h.exists_cons
  refine ⟨Nat.le_refl 22, ?_⟩
  simp only [keepsSense, Shape.sign, Bool.and_eq_true, bne_iff_ne]
  exact ⟨ne_symbol_of_le_headStrength hfirst h0, ne_symbol_of_le_headStrength hfirst h0⟩

theorem isCloser_rparen : IsCloser .rparen := .inl rfl

theorem isCloser_rbracket : IsCloser .rbracket := .inr rfl

theorem symbolHeadStrength_closer {closer : Symbol} (hc : IsCloser closer) :
    symbolHeadStrength closer = 0 := by
  rcases hc with rfl | rfl <;> rfl

/-- The element reader takes an item of a display. -/
theorem element_readsItem {levels : Nat} (indent : Nat) {closer : Symbol} (hc : IsCloser closer)
    (shapes : List Shape) (phrase : Phrase) (h : Readable 1 shapes phrase)
    (hlen : shapes.length ≤ levels) :
    ReadsItem (element (nested levels) ⟨indent, closerNext⟩ closer) closer shapes phrase where
  opens := by
    obtain ⟨first, more, hshapes, hfirst⟩ := h.opening.exists_cons
    exact ⟨first, more, hshapes, ne_symbol_of_le_headStrength hfirst
      (symbolHeadStrength_closer hc ▸ Nat.one_pos)⟩
  reads := fun tokens rest ht hr => element_eq_ok h ht hlen (hr.follows hc _) closer

namespace Readable

variable {strength : Nat} {shapes : List Shape} {phrase : Phrase}

/-- An expression in parentheses. -/
theorem parenthesized (h : Readable strength shapes phrase) :
    Readable 22 (.sign .lparen :: (shapes ++ [.sign .rparen])) (.parenthesized [phrase]) := by
  refine ofAtom (h.opening.paren h.positive _) rfl fun tokens ht levels hlen place rest _ => ?_
  obtain ⟨paren, tail, rfl, -, hparen, htail⟩ := ht.cons_inv
  obtain ⟨value, last, rfl, hvalue, hlast⟩ := htail.append_inv
  obtain ⟨closer, rfl, hsnug, hcloser⟩ := hlast.single_inv
  have hlexeme : paren.lexeme = .symbol .lparen := congrArg Prod.fst hparen
  have hopening := h.opening
  obtain ⟨first, more, rfl, hfirst⟩ := hopening.exists_cons
  obtain ⟨token, value, rfl, htoken, rfl, -⟩ := hvalue.cons_inv
  have hno (symbol : Symbol) (hs : symbolHeadStrength symbol = 0) : token.isSymbol symbol = false :=
    isSymbol_eq_false hfirst (hs ▸ h.positive)
  have hcloses : Closes .rparen (closer :: rest) := ⟨closer, rest, rfl, hsnug, .inr hcloser⟩
  have hread : element (nested levels) ⟨place.indent, closerNext⟩ .rparen
      (token.close :: (value ++ closer :: rest)) = .ok (phrase, closer :: rest) := by
    refine element_eq_ok h hvalue.close ?_ (hcloses.follows isCloser_rparen _) .rparen
    simp only [List.length_cons, List.length_append] at hlen ⊢
    omega
  have hcomma : closer.isSymbol .comma = false := isSymbol_of_sign hcloser .comma
  have hclose : closer.isSymbol .rparen = true := isSymbol_of_sign hcloser .rparen
  have hcloses' : Closes .rparen (closer.close :: rest) :=
    ⟨closer.close, rest, rfl, hsnug.close, .inr hcloser⟩
  have hgap := pass_of_snug htoken place.indent closerOrQuoteNext (value ++ closer :: rest)
  simp only [List.cons_append, List.append_assoc, List.nil_append, atom, hlexeme, parenthesis,
    hgap, bind, Except.bind, close_isSymbol, hno .rparen rfl, hno (.op .mul) rfl,
    hno (.op .pow) rfl, Bool.or_false, Bool.false_eq_true, if_false, hread, pass_of_snug hsnug,
    hcomma, hcloses'.beginsClauses_eq_false, takeCloser, hclose, if_true]
  have hplain := h.plain
  cases phrase <;> first | rfl | cases hplain

/-- The items of a display are read up to the closing bracket. -/
theorem elements_eq_ok {closer : Symbol} (hc : IsCloser closer) {items : List (List Shape)}
    {phrases : List Phrase} (hi : List.Forall₂ (Readable 1) items phrases) {trailing : List Shape}
    (htr : IsTrailing trailing) {tokens : List Token}
    (ht : Spells tokens (behindCommas items ++ (trailing ++ [.sign closer]))) (levels : Nat)
    (hlen : (behindCommas items).length ≤ levels) (indent : Nat) (before : List Phrase)
    (rest : List Token) :
    moreElements (element (nested levels) ⟨indent, closerNext⟩ closer) ⟨indent, closerNext⟩ closer
      (tokens ++ rest).length before (tokens ++ rest) = .ok (before ++ phrases, rest) :=
  moreElements_eq_ok hc (forall₂_of_length_le (element_readsItem indent hc) hi hlen) htr ht _ before rest

/-- A list without items. -/
theorem emptyList : Readable 22 [.sign .lbracket, .sign .rbracket] (.list []) := by
  refine ofAtom ⟨Nat.le_refl 22, rfl⟩ rfl fun tokens ht levels _ place rest _ => ?_
  obtain ⟨bracket, tail, rfl, -, hbracket, htail⟩ := ht.cons_inv
  obtain ⟨closer, rfl, hsnug, hcloser⟩ := htail.single_inv
  have hlexeme : bracket.lexeme = .symbol .lbracket := congrArg Prod.fst hbracket
  have hclose : closer.isSymbol .rbracket = true := isSymbol_of_sign hcloser .rbracket
  simp only [List.cons_append, List.nil_append, atom, hlexeme, brackets, pass_of_snug hsnug, bind,
    Except.bind, close_isSymbol, hclose, if_true]
  rfl

/-- A list of items. -/
theorem list (h : Readable 1 shapes phrase) {items : List (List Shape)} {phrases : List Phrase}
    (hi : List.Forall₂ (Readable 1) items phrases) :
    Readable 22 (.sign .lbracket :: (shapes ++ (behindCommas items ++ [.sign .rbracket])))
      (.list (phrase :: phrases)) := by
  have hopening : Opening 22
      (.sign .lbracket :: (shapes ++ (behindCommas items ++ [.sign .rbracket]))) := by
    obtain ⟨first, rest, rfl, -⟩ := h.opening.exists_cons
    exact ⟨Nat.le_refl 22, rfl⟩
  refine ofAtom hopening rfl fun tokens ht levels hlen place rest _ => ?_
  obtain ⟨bracket, tail, rfl, -, hbracket, htail⟩ := ht.cons_inv
  obtain ⟨value, further, rfl, hvalue, hfurther⟩ := htail.append_inv
  simp only [List.length_cons, List.length_append] at hlen
  have hlexeme : bracket.lexeme = .symbol .lbracket := congrArg Prod.fst hbracket
  have hcloses : Closes .rbracket (further ++ rest) := Closes.of_spells isTrailing_nil hfurther rest
  have hmore := elements_eq_ok isCloser_rbracket hi isTrailing_nil hfurther levels (by omega)
    place.indent [phrase] rest
  have hopening := h.opening
  obtain ⟨first, more, rfl, hfirst⟩ := hopening.exists_cons
  obtain ⟨token, value, rfl, htoken, rfl, -⟩ := hvalue.cons_inv
  have hno : token.isSymbol .rbracket = false := isSymbol_eq_false hfirst Nat.one_pos
  have hread : element (nested levels) ⟨place.indent, closerNext⟩ .rbracket
      (token.close :: (value ++ (further ++ rest))) = .ok (phrase, further ++ rest) :=
    element_eq_ok h hvalue.close (by omega) (hcloses.follows isCloser_rbracket _) .rbracket
  simp only [List.cons_append, List.append_assoc, List.nil_append, atom, hlexeme, brackets,
    pass_of_snug htoken, bind, Except.bind, close_isSymbol, hno, Bool.false_eq_true, if_false, hread,
    hcloses.beginsClauses_eq_false, hmore]
  rfl

/-- A tuple without items. -/
theorem emptyTuple : Readable 22 [.sign .lparen, .sign .rparen] (.tuple []) := by
  refine ofAtom ⟨Nat.le_refl 22, rfl⟩ rfl fun tokens ht levels _ place rest _ => ?_
  obtain ⟨paren, tail, rfl, -, hparen, htail⟩ := ht.cons_inv
  obtain ⟨closer, rfl, hsnug, hcloser⟩ := htail.single_inv
  have hlexeme : paren.lexeme = .symbol .lparen := congrArg Prod.fst hparen
  have hclose : closer.isSymbol .rparen = true := isSymbol_of_sign hcloser .rparen
  simp only [List.cons_append, List.nil_append, atom, hlexeme, parenthesis, pass_of_snug hsnug, bind,
    Except.bind, close_isSymbol, hclose, if_true]
  rfl

/-- A tuple of items: there is a comma in it. -/
theorem tuple (h : Readable 1 shapes phrase) {items : List (List Shape)} {phrases : List Phrase}
    (hi : List.Forall₂ (Readable 1) items phrases) {trailing : List Shape}
    (htr : IsTrailing trailing)
    (hcomma : items ≠ [] ∨ trailing ≠ []) :
    Readable 22 (.sign .lparen :: (shapes ++ (behindCommas items ++ (trailing ++ [.sign .rparen]))))
      (.tuple (phrase :: phrases)) := by
  refine ofAtom (h.opening.paren h.positive _) rfl fun tokens ht levels hlen place rest _ => ?_
  obtain ⟨paren, tail, rfl, -, hparen, htail⟩ := ht.cons_inv
  obtain ⟨value, further, rfl, hvalue, hfurther⟩ := htail.append_inv
  simp only [List.length_cons, List.length_append] at hlen
  have hlexeme : paren.lexeme = .symbol .lparen := congrArg Prod.fst hparen
  have hcloses : Closes .rparen (further ++ rest) := Closes.of_spells htr hfurther rest
  have hmore := elements_eq_ok isCloser_rparen hi htr hfurther levels (by omega)
    place.indent [phrase] rest
  obtain ⟨marks, hmarks⟩ : ∃ marks, behindCommas items ++ (trailing ++ [Shape.sign .rparen]) =
      .sign .comma :: marks := by
    rcases hcomma with hcomma | hcomma
    · obtain ⟨item, others, rfl⟩ := List.exists_cons_of_ne_nil hcomma
      exact ⟨_, rfl⟩
    · obtain rfl := htr.resolve_left hcomma
      cases items <;> exact ⟨_, rfl⟩
  rw [hmarks] at hfurther
  obtain ⟨mark, further, rfl, hmark, hmarkShape, -⟩ := hfurther.cons_inv
  have hcomma : mark.close.isSymbol .comma = true := isSymbol_of_sign hmarkShape .comma
  have hgap := pass_of_snug hmark place.indent closerNext (further ++ rest)
  have hopening := h.opening
  obtain ⟨first, more, rfl, hfirst⟩ := hopening.exists_cons
  obtain ⟨token, value, rfl, htoken, rfl, -⟩ := hvalue.cons_inv
  have hno : token.isSymbol .rparen = false := isSymbol_eq_false hfirst Nat.one_pos
  have hread : element (nested levels) ⟨place.indent, closerNext⟩ .rparen
      (token.close :: (value ++ (mark :: further ++ rest))) = .ok (phrase, mark :: further ++ rest) :=
    element_eq_ok h hvalue.close (by omega) (hcloses.follows isCloser_rparen _) .rparen
  rw [List.cons_append] at hread hmore
  simp only [List.cons_append, List.append_assoc, List.nil_append, atom, hlexeme, parenthesis,
    pass_of_snug htoken, bind, Except.bind, close_isSymbol token, hno, Bool.false_eq_true, if_false,
    hread, hgap, hcomma, if_true, hmore]
  rfl

/-! ### Trailers -/

/-- A trailer makes an operand with trailers of another one. -/
theorem trailer (h : Readable 22 shapes phrase) {symbol : Symbol}
    (hsymbol : symbol = .dot ∨ symbol = .lparen ∨ symbol = .lbracket) {more : List Shape}
    {whole : Phrase} (hw : isExpression whole = true)
    (hm : ∀ tokens, Spells tokens (.sign symbol :: more) → ∀ levels, more.length < levels →
      ∀ indent rest,
        Grammar.trailer (nested levels) indent phrase (tokens ++ rest) = .ok (whole, rest)) :
    Readable 22 (shapes ++ .sign symbol :: more) whole := by
  have htight : symbolTightness symbol = 22 := by rcases hsymbol with rfl | rfl | rfl <;> rfl
  have hopening : Opening 22 (shapes ++ .sign symbol :: more) := by
    refine h.opening.append fun next hn => ?_
    obtain rfl := Option.mem_some_iff.mp hn
    exact htight.trans_lt (by decide)
  refine ofPrimary hopening hw fun tokens ht levels hlen place rest hf => ?_
  obtain ⟨before, behind, rfl, hbefore, hbehind⟩ := ht.append_inv
  obtain ⟨token, tail, rfl, hsnug, hshape, htail⟩ := hbehind.cons_inv
  simp only [List.length_append, List.length_cons] at hlen
  have hpos := h.length_pos
  obtain ⟨fuel, hfuel, hread⟩ := h.asPrimary (Nat.le_refl 22) before hbefore levels (by omega) place
    (token :: tail ++ rest) (.snug hsnug (by rw [hshape]; exact htight.trans_lt (by decide)))
  have hbegins : beginsTrailer token.close = true := by
    simp only [beginsTrailer, close_isSymbol, isSymbol_of_sign hshape, Bool.or_eq_true,
      decide_eq_true_eq, or_assoc, hsymbol]
  have htrailer := hm _ hbehind.close levels (by omega) place.indent rest
  obtain ⟨fuel, rfl, hrest⟩ := exists_fuel hfuel
  refine ⟨fuel, hrest, ?_⟩
  rw [List.cons_append] at htrailer
  rw [List.append_assoc, hread, List.cons_append, trailers, ahead_of_snug hsnug]
  simp only [if_true, hbegins, htrailer, bind, Except.bind]

/-- An attribute of an operand. -/
theorem member (h : Readable 22 shapes phrase) (attr : String) :
    Readable 22 (shapes ++ [.sign .dot, .word attr]) (.attribute phrase attr) := by
  refine trailer h (.inl rfl) rfl fun tokens ht levels _ indent rest => ?_
  obtain ⟨dot, tail, rfl, -, hdot, htail⟩ := ht.cons_inv
  obtain ⟨name, rfl, hname, hshape⟩ := htail.single_inv
  have hmark : dot.isSymbol .dot = true := isSymbol_of_sign hdot .dot
  have hword : name.lexeme = .word := congrArg Prod.fst hshape
  obtain rfl : name.text = attr := congrArg Prod.snd hshape
  simp only [List.cons_append, List.nil_append, Grammar.trailer, hmark, if_true,
    passName_of_snug hname _ _ _ hword, bind, Except.bind]
  rfl

/-- A subscript with one index. -/
theorem indexed (h : Readable 22 shapes phrase) {strength' : Nat}
    {shapes' : List Shape} {index : Phrase} (hi : Readable strength' shapes' index) :
    Readable 22 (shapes ++ .sign .lbracket :: (shapes' ++ [.sign .rbracket]))
      (.subscript phrase [index]) := by
  refine trailer h (.inr (.inr rfl)) rfl fun tokens ht levels hlen indent rest => ?_
  obtain ⟨bracket, tail, rfl, -, hbracket, htail⟩ := ht.cons_inv
  obtain ⟨value, last, rfl, hvalue, hlast⟩ := htail.append_inv
  have hend := moreElements_end (Grammar.index (nested levels) indent) ⟨indent, closerNext⟩
    isCloser_rbracket isTrailing_nil hlast rest.length [index] rest
  obtain ⟨closer, rfl, hsnug, hcloser⟩ := hlast.single_inv
  simp only [List.length_append, List.length_cons] at hlen
  have hcloses : Closes .rbracket (closer :: rest) := ⟨closer, rest, rfl, hsnug, .inr hcloser⟩
  have hfollows : Follows ⟨indent, closerNext⟩ 1 (closer :: rest) :=
    hcloses.follows isCloser_rbracket _
  have hdot : bracket.isSymbol .dot = false := isSymbol_of_sign hbracket .dot
  have hparen : bracket.isSymbol .lparen = false := isSymbol_of_sign hbracket .lparen
  have hopens : bracket.isSymbol .lbracket = true := isSymbol_of_sign hbracket .lbracket
  have hcolon : closer.isSymbol .colon = false := isSymbol_of_sign hcloser .colon
  have hcomma : closer.isSymbol .comma = false := isSymbol_of_sign hcloser .comma
  have hclose : closer.isSymbol .rbracket = true := isSymbol_of_sign hcloser .rbracket
  have hopening := hi.opening
  obtain ⟨first, more, rfl, hfirst⟩ := hopening.exists_cons
  obtain ⟨token, value, rfl, htoken, rfl, -⟩ := hvalue.cons_inv
  have hnoColon : token.isSymbol .colon = false := isSymbol_eq_false hfirst hi.positive
  have hread : (nested levels).expression ⟨indent, closerNext⟩ {}
      (token.close :: (value ++ closer :: rest)) = .ok (index, closer :: rest) :=
    hi.expression_eq_ok hvalue.close (by omega) (Nat.zero_le _) hfollows
      (le_min hi.positive (by decide)) (.inl (Nat.le_refl 1))
  have hindex : Grammar.index (nested levels) indent (token.close :: (value ++ closer :: rest)) =
      .ok (index, closer :: rest) := by
    simp only [Grammar.index, close_isSymbol, hnoColon, Bool.false_eq_true, if_false, hread, bind,
      Except.bind, peekSymbol_of_snug hsnug, hcolon]
    rfl
  have hitem : withoutContinuations [index] = [index] := by
    have hplain := hi.plain
    cases index <;> first | rfl | cases hplain
  simp only [List.cons_append, List.append_assoc, List.nil_append, Grammar.trailer, hdot, hparen,
    hopens, Bool.false_eq_true, if_false, if_true, pass_of_snug htoken, bind, Except.bind, hindex]
  rw [List.singleton_append] at hend
  simp only [List.length_cons, hend, hitem]
  rfl

end Readable

/-! ### Calls -/

/-- Shapes of an argument, by position or by name, and the phrase it is read as. -/
inductive Argument : List Shape → Phrase → Prop where
  | positional {shapes : List Shape} {phrase : Phrase} (h : Readable 1 shapes phrase) :
      Argument shapes phrase
  | keyword {name : String} (hn : isReservedWord name = false) {shapes : List Shape}
      {phrase : Phrase} (h : Readable 1 shapes phrase) :
      Argument (.word name :: .sign .assign :: shapes) (.keyword name phrase)

/-- An argument begins with no symbol that begins no expression. -/
theorem Argument.exists_cons {shapes : List Shape} {phrase : Phrase} (h : Argument shapes phrase) :
    ∃ first more, shapes = first :: more ∧
      ∀ symbol, symbolHeadStrength symbol = 0 → first.1 ≠ .symbol symbol := by
  cases h with
  | positional h =>
    obtain ⟨first, more, hshapes, hfirst⟩ := h.opening.exists_cons
    exact ⟨first, more, hshapes, fun symbol hs =>
      ne_symbol_of_le_headStrength hfirst (hs ▸ Nat.one_pos)⟩
  | keyword hn h => exact ⟨_, _, rfl, nofun⟩

theorem Argument.eq_ok {shapes : List Shape} {phrase : Phrase} (h : Argument shapes phrase)
    {tokens : List Token} (ht : Spells tokens shapes) (levels : Nat) (hl : shapes.length ≤ levels)
    {indent : Nat} {rest : List Token} (hf : Follows ⟨indent, closerNext⟩ 1 rest) :
    argument (nested levels) ⟨indent, closerNext⟩ (tokens ++ rest) = .ok (phrase, rest) := by
  cases h with
  | positional h =>
    have hread := starredElement_eq_ok h ht hl hf .rparen
    have hopening := h.opening
    obtain ⟨first, more, rfl, hfirst⟩ := hopening.exists_cons
    obtain ⟨token, tail, rfl, -, rfl, -⟩ := ht.cons_inv
    have hpow : token.isSymbol (.op .pow) = false := isSymbol_eq_false hfirst Nat.one_pos
    have hassign : (token.lexeme = .word && !isReservedWord token.text &&
        peekSymbol indent closerNext .assign (tail ++ rest)) = false := by
      by_cases hw : token.lexeme = .word
      · have hpeek := hopening.peekSymbol_eq_false ht hw hf (by decide) (.inl rfl)
        rw [hpeek, Bool.and_false]
      · rw [decide_eq_false hw, Bool.false_and, Bool.false_and]
    rw [List.cons_append] at hread ⊢
    simp only [argument, hpow, hassign, Bool.false_eq_true, if_false, hread]
  | @keyword name hn shapes phrase h =>
    obtain ⟨word, tail, rfl, -, hword, htail⟩ := ht.cons_inv
    obtain ⟨assign, value, rfl, hsnug, hassign, hvalue⟩ := htail.cons_inv
    obtain ⟨value', hvalue', hpass⟩ := hvalue.exists_pass h.ne_nil
    have hlexeme : word.lexeme = .word := congrArg Prod.fst hword
    obtain rfl : word.text = name := congrArg Prod.snd hword
    have hpow : word.isSymbol (.op .pow) = false := isSymbol_of_word hword _
    have hmark : assign.isSymbol .assign = true := isSymbol_of_sign hassign .assign
    have hread : (nested levels).expression ⟨indent, closerNext⟩ {} (value' ++ rest) =
        .ok (phrase, rest) := by
      refine h.expression_eq_ok hvalue' ?_ (Nat.zero_le _) hf (by decide) (.inl (Nat.le_refl 1))
      simp only [List.length_cons] at hl
      omega
    simp only [List.cons_append, argument, hpow, Bool.false_eq_true, if_false, hlexeme, decide_true,
      hn, Bool.not_false, Bool.true_and, peekSymbol_of_snug hsnug, hmark, if_true,
      passSymbol_of_snug hsnug _ _ _ hmark, hpass, hread, bind, Except.bind]
    rfl

/-- The argument reader takes an item of a call. -/
theorem argument_readsItem (levels indent : Nat) (shapes : List Shape) (phrase : Phrase)
    (h : Argument shapes phrase) (hlen : shapes.length ≤ levels) :
    ReadsItem (argument (nested levels) ⟨indent, closerNext⟩) .rparen shapes phrase where
  opens := by
    obtain ⟨first, more, hshapes, hfirst⟩ := h.exists_cons
    exact ⟨first, more, hshapes, hfirst .rparen rfl⟩
  reads := fun tokens rest ht hr => h.eq_ok ht levels hlen (hr.follows isCloser_rparen _)

/-- Shapes of all arguments of a call. -/
inductive Arguments : List Shape → List Phrase → Prop where
  | nil : Arguments [] []
  | cons {shapes : List Shape} {phrase : Phrase} (h : Argument shapes phrase)
      {items : List (List Shape)} {phrases : List Phrase} (hi : List.Forall₂ Argument items phrases) :
      Arguments (shapes ++ behindCommas items) (phrase :: phrases)

theorem Arguments.eq_ok {shapes : List Shape} {phrases : List Phrase} (h : Arguments shapes phrases)
    {tokens : List Token} (ht : Spells tokens (shapes ++ [.sign .rparen])) (levels : Nat)
    (hl : shapes.length ≤ levels) (indent : Nat) (allowed : Bool) (rest : List Token) :
    arguments (nested levels) indent allowed (tokens ++ rest) = .ok (phrases, rest) := by
  cases h with
  | nil =>
    obtain ⟨closer, rfl, hsnug, hcloser⟩ := ht.single_inv
    have hclose : closer.isSymbol .rparen = true := isSymbol_of_sign hcloser .rparen
    simp only [List.cons_append, List.nil_append, arguments, pass_of_snug hsnug, bind, Except.bind,
      close_isSymbol, hclose, if_true]
    rfl
  | @cons shapes phrase h items phrases hi =>
    rw [List.append_assoc] at ht
    obtain ⟨value, further, rfl, hvalue, hfurther⟩ := ht.append_inv
    rw [List.length_append] at hl
    have hcloses : Closes .rparen (further ++ rest) :=
      Closes.of_spells isTrailing_nil hfurther rest
    have hmore := moreElements_eq_ok isCloser_rparen
      (forall₂_of_length_le (argument_readsItem levels indent) hi (by omega)) isTrailing_nil hfurther
      ⟨indent, closerNext⟩ [phrase] rest
    have hargument := h
    obtain ⟨first, more, rfl, hfirst⟩ := h.exists_cons
    obtain ⟨token, value, rfl, htoken, rfl, -⟩ := hvalue.cons_inv
    have hclose : token.isSymbol .rparen = false := decide_eq_false (hfirst .rparen rfl)
    have hcomma : token.isSymbol .comma = false := decide_eq_false (hfirst .comma rfl)
    have hread := hargument.eq_ok hvalue.close levels (by omega)
      (hcloses.follows isCloser_rparen ⟨indent, closerNext⟩)
    rw [List.cons_append] at hread
    simp only [List.cons_append, List.append_assoc, List.nil_append, arguments,
      pass_of_snug htoken, bind, Except.bind, close_isSymbol, hclose, hcomma, Bool.false_eq_true,
      if_false, hread, hcloses.beginsClauses_eq_false, Bool.and_false, hmore]

/-- A call of an operand. -/
theorem Readable.called {shapes : List Shape} {phrase : Phrase} (h : Readable 22 shapes phrase)
    {args : List Shape} {phrases : List Phrase} (ha : Arguments args phrases) :
    Readable 22 (shapes ++ .sign .lparen :: (args ++ [.sign .rparen])) (.call phrase phrases) := by
  refine trailer h (.inr (.inl rfl)) rfl fun tokens ht levels hlen indent rest => ?_
  obtain ⟨paren, tail, rfl, -, hparen, htail⟩ := ht.cons_inv
  rw [List.length_append] at hlen
  have hread := ha.eq_ok htail levels (by omega) indent true rest
  have hdot : paren.isSymbol .dot = false := isSymbol_of_sign hparen .dot
  have hopens : paren.isSymbol .lparen = true := isSymbol_of_sign hparen .lparen
  simp only [List.cons_append, Grammar.trailer, hdot, hopens, Bool.false_eq_true, if_false, if_true,
    hread, bind, Except.bind]
  rfl

end Marksheet.Grammar
