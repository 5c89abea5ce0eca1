import Marksheet.Proofs.Grammar.Headers

/-!
# Values bound to names and targets

The word `as` stands in `except` clauses and in `with` headers. A `with` header that
begins with a parenthesis might enclose its items: it does not in print, since what the
parenthesis encloses is one item, or something other than a colon stands behind it.
-/

namespace Marksheet.Grammar

open Marksheet.Source Marksheet.Syntax

/-! ### The word `as` -/

/-- A value, the word `as` and what it is bound to make one expression, with the text of the
latter. -/
theorem asPattern_eq_ok {shapes shapes' : List Shape} {phrase phrase' : Phrase}
    (h : Readable 3 shapes phrase) (h' : Readable 3 shapes' phrase') {tokens tokens' : List Token}
    (ht : Spells tokens shapes) {word : Token} (hs : Snug word) (hw : shapeOf word = .word "as")
    (ht' : Spells tokens' shapes') {levels : Nat} (hl : shapes.length + shapes'.length < levels)
    {place : Place} {rest : List Token} (hr : Follows place 1 rest) :
    ∃ closed, Spells closed shapes' ∧
      (nested levels).expression place {} (tokens ++ word :: (tokens' ++ rest)) =
        .ok (.asPattern phrase [] phrase' (textBetween (closed ++ rest) rest), rest) := by
  obtain ⟨levels, rfl⟩ := Nat.exists_eq_succ_of_ne_zero (Nat.ne_zero_of_lt hl)
  obtain ⟨closed, hclosed, hpass⟩ := ht'.exists_pass h'.ne_nil
  refine ⟨closed, hclosed, ?_⟩
  have hfollows : Follows place (min 3 12) (word :: (tokens' ++ rest)) :=
    .snug hs (by rw [hw]; decide)
  obtain ⟨fuel, hfuel, hread⟩ := h.asExpression tokens ht levels (by omega) place {} _
    (Nat.zero_le 3) hfollows
  obtain ⟨fuel, rfl⟩ := Nat.exists_eq_succ_of_ne_zero (Nat.ne_zero_of_lt hfuel)
  have htarget : (nested levels).expression place { least := 3 } (closed ++ rest) =
      .ok (phrase', rest) :=
    h'.expression_eq_ok hclosed (by omega) (Nat.le_refl 3) hr (by decide) (.inl (Nat.le_refl 1))
  have hword (other : String) : word.isWord other = decide ("as" = other) := isWord_of_word hw other
  refine hread.trans ?_
  simp only [infixTail, ahead_of_snug hs, close_isWord, hword, show ("as" = "or") = False by decide,
    show ("as" = "and") = False by decide, show ("as" = "if") = False by decide, decide_false,
    decide_true, Bool.false_and, Bool.true_and, Bool.false_eq_true, if_false, Nat.zero_le, if_true,
    hpass, htarget, bind, Except.bind, List.append_nil,
    infixTail_of_follows (nested levels) hr (.inl (Nat.le_refl 1))]

/-- A phrase that stands for an expression in print binds nothing. -/
theorem handlerHead_of_isWritable {phrase : Phrase} (h : phrase.expr.isWritable = true)
    (text : String) : handlerHead [(phrase, text)] = (some phrase.expr, none) := by
  cases phrase with
  | asPattern =>
    rw [Phrase.expr, Expr.isWritable] at h
    · cases h
    all_goals nofun
  | _ => rfl

/-- The text of one token. -/
theorem textBetween_singleton (token : Token) (rest : List Token) :
    textBetween ([token] ++ rest) rest = token.text := by
  have htake : ([token] ++ rest).take (([token] ++ rest).length - rest.length) = [token] := by
    rw [List.length_append, Nat.add_sub_cancel, List.take_left]
  rw [textBetween, htake]
  exact String.append_empty

section

variable {levels indent : Nat} {colon : Token} (hs : Snug colon) (hc : shapeOf colon = .sign .colon)
  {rest after : List Token} {b : Blocks} {body : Block}
  (hsuite : suite (nested levels) b indent rest = .ok (([], body), after))

include hs hc hsuite

/-- A clause for all exceptions. -/
theorem exceptClause_all (start : Position) :
    exceptClause (nested levels) b indent start (colon :: rest) = .ok (.except start [] body, after) := by
  have hcolon := colonSuite_eq_ok hs.close hc hsuite
  have hmark : colon.isSymbol .colon = true := isSymbol_of_sign hc .colon
  simp only [exceptClause, pass_of_snug hs, close_isSymbol, hmark, if_true, hcolon, bind, Except.bind]
  rfl

/-- A clause for what an expression tells, with a name or without. -/
theorem exceptClause_of_expression {first : Token} {tail : List Token} (hf : Snug first)
    (hno : first.isSymbol .colon = false) {phrase : Phrase}
    (h : (nested levels).expression ⟨indent, {}⟩ {} (first.close :: (tail ++ colon :: rest)) =
      .ok (phrase, colon :: rest)) (start : Position) :
    exceptClause (nested levels) b indent start (first :: (tail ++ colon :: rest)) =
      .ok (.except start [(phrase, textBetween (first.close :: (tail ++ colon :: rest))
        (colon :: rest))] body, after) := by
  have hcolon := colonSuite_eq_ok hs hc hsuite
  have hcomma : colon.isSymbol .comma = false := isSymbol_of_sign hc .comma
  simp only [exceptClause, pass_of_snug hf, close_isSymbol, hno, Bool.false_eq_true, if_false, h,
    peekSymbol_of_snug hs, hcomma, hcolon, bind, Except.bind]
  rfl

end

/-- An `except` clause with its kind and its name. -/
theorem exceptClause_eq_ok (extra : Redundance) {kind : Option Expr} {name : Option String}
    (hk : kind.all Expr.isWritable = true) (hn : name.all isName = true)
    (hkn : (kind.isSome || name.isNone) = true) {tokens : List Token}
    (ht : Spells tokens (shapesOf (caughtPieces extra kind name))) {levels : Nat}
    (hl : tokens.length ≤ levels) {indent : Nat} {colon : Token} (hs : Snug colon)
    (hc : shapeOf colon = .sign .colon) {rest after : List Token} {b : Blocks} {body : Block}
    (hsuite : suite (nested levels) b indent rest = .ok (([], body), after)) :
    ∃ parts, starDirectly (tokens ++ colon :: rest) = false ∧ handlerHead parts = (kind, name) ∧
      ∀ start, exceptClause (nested levels) b indent start (tokens ++ colon :: rest) =
        .ok (.except start parts body, after) := by
  cases kind with
  | none =>
    obtain rfl : name = none := Option.isNone_iff_eq_none.mp hkn
    obtain rfl := ht.nil_inv
    have hstar : colon.isSymbol (.op .mul) = false := isSymbol_of_sign hc _
    refine ⟨[], ?_, rfl, exceptClause_all hs hc hsuite⟩
    rw [List.nil_append, starDirectly, hstar, Bool.and_false]
  | some kind =>
    obtain ⟨phrase, rfl, hread⟩ := within_reads (bare_reads extra kind hk) 3 3 rfl extra
    have hfollows : Follows ⟨indent, {}⟩ 1 (colon :: rest) := follows_colon hs hc _
    rw [caughtPieces, shapesOf_append] at ht
    have hlen := ht.length_eq
    rw [List.length_append] at hlen
    obtain ⟨first, tail, rfl⟩ := List.exists_cons_of_ne_nil
      (ht.ne_nil (List.append_ne_nil_of_left_ne_nil hread.ne_nil _))
    have hsnug : Snug first := ht.snug first List.mem_cons_self
    have hstrong : 1 ≤ headStrength (shapeOf first) := by
      obtain ⟨shape, more, hshapes, hshape⟩ := hread.opening.exists_cons
      rw [hshapes] at ht
      obtain ⟨other, others, he, -, rfl, -⟩ := ht.cons_inv
      obtain ⟨rfl, -⟩ := List.cons.inj he
      exact Nat.le_trans (by decide) hshape
    have hcolon : first.isSymbol .colon = false := isSymbol_eq_false hstrong (by decide)
    have hstar : first.isSymbol (.op .mul) = false := isSymbol_eq_false hstrong (by decide)
    -- What the clause tells is what the expression behind its word is.
    obtain ⟨whole, hwhole, hhead⟩ : ∃ whole,
        (nested levels).expression ⟨indent, {}⟩ {} (first.close :: (tail ++ colon :: rest)) =
          .ok (whole, colon :: rest) ∧
        ∀ text, handlerHead [(whole, text)] = (some phrase.expr, name) := by
      obtain ⟨before, behind, hsplit, hbefore, hbehind⟩ := ht.close.append_inv
      rw [← List.cons_append, hsplit]
      cases name with
      | none =>
        obtain rfl := hbehind.nil_inv
        rw [List.append_nil]
        exact ⟨phrase, hread.expression_eq_ok hbefore (by omega) (Nat.zero_le 3) hfollows
          (by decide) (.inl (Nat.le_refl 1)), handlerHead_of_isWritable hk⟩
      | some name =>
        rw [Option.all_some, isName, Bool.and_eq_true, Bool.not_eq_true'] at hn
        obtain ⟨mark, tail, rfl, hmark, has, htail⟩ :=
          (show Spells behind (.word "as" :: [.word name]) from hbehind).cons_inv
        have hname : Readable 3 [.word name] (.name name) :=
          (Readable.name hn.2).mono (by decide) (by decide)
        have hbound : (shapesOf (bound (some name))).length = 2 := rfl
        have hfuel : (shapesOf (within 3 extra phrase.expr (bare extra phrase.expr))).length +
            [Shape.word name].length < levels := by
          rw [List.length_singleton]
          omega
        obtain ⟨closed, hclosed, hpattern⟩ :=
          asPattern_eq_ok hread hname hbefore hmark has htail hfuel hfollows
        obtain ⟨last, rfl, -, hlast⟩ := hclosed.single_inv
        obtain rfl : last.text = name := congrArg Prod.snd hlast
        rw [List.append_assoc, List.cons_append]
        refine ⟨_, hpattern, fun text => ?_⟩
        rw [textBetween_singleton]
        rfl
    have hclause := exceptClause_of_expression hs hc hsuite hsnug hcolon hwhole
    have htext := hhead (textBetween (first.close :: (tail ++ colon :: rest)) (colon :: rest))
    refine ⟨_, ?_, htext, hclause⟩
    rw [List.cons_append, starDirectly, hstar, Bool.and_false]

/-! ### Items of `with` headers -/

/-- A phrase that stands for an expression in print is an item without a target. -/
theorem withItem_of_isWritable {phrase : Phrase} (h : phrase.expr.isWritable = true) :
    withItem phrase = ⟨phrase.expr, none⟩ := by
  cases phrase with
  | asPattern =>
    rw [Phrase.expr, Expr.isWritable] at h
    · cases h
    all_goals nofun
  | _ => rfl

/-- Tokens of the shapes are read as an expression that is this item. -/
structure ReadsItemOf (levels : Nat) (place : Place) (shapes : List Shape) (item : WithItem) :
    Prop where
  strong : ∃ first more, shapes = first :: more ∧ 0 < headStrength first
  reads : ∀ tokens rest, Spells tokens shapes → Follows place 1 rest → ∃ phrase,
    (nested levels).expression place {} (tokens ++ rest) = .ok (phrase, rest) ∧ withItem phrase = item

theorem readsItemOf_of_readable {levels : Nat} (place : Place) {shapes : List Shape} {phrase : Phrase}
    (h : Readable 1 shapes phrase) (hl : shapes.length ≤ levels) :
    ReadsItemOf levels place shapes (withItem phrase) where
  strong := h.opening.exists_cons
  reads := fun tokens rest ht hr => ⟨phrase, h.expression_eq_ok ht hl (Nat.zero_le 1) hr (by decide)
    (.inl (Nat.le_refl 1)), rfl⟩

theorem readsItemOf_of_target {levels : Nat} (place : Place) {shapes shapes' : List Shape}
    {phrase phrase' : Phrase} (h : Readable 3 shapes phrase) (h' : Readable 22 shapes' phrase')
    (hl : (shapes ++ .word "as" :: shapes').length ≤ levels) :
    ReadsItemOf levels place (shapes ++ .word "as" :: shapes') ⟨phrase.expr, some phrase'.target⟩ where
  strong := by
    obtain ⟨first, more, rfl, hfirst⟩ := h.opening.exists_cons
    exact ⟨first, more ++ .word "as" :: shapes', rfl, Nat.lt_of_lt_of_le (by decide) hfirst⟩
  reads := fun tokens rest ht hr => by
    obtain ⟨before, behind, rfl, hbefore, hbehind⟩ := ht.append_inv
    obtain ⟨word, tail, rfl, hword, hshape, htail⟩ := hbehind.cons_inv
    rw [List.length_append, List.length_cons] at hl
    have hlt : shapes.length + shapes'.length < levels := by omega
    obtain ⟨closed, -, hread⟩ := asPattern_eq_ok h (h'.mono (by decide) (by decide)) hbefore hword
      hshape htail hlt hr
    rw [List.append_assoc, List.cons_append]
    exact ⟨_, hread, rfl⟩

/-- Behind the last item, and what is left then: a last comma is taken. -/
inductive EndsItems : List Token → List Token → Prop where
  | plain {token : Token} {rest : List Token} (hs : Snug token)
      (hc : shapeOf token = .sign .colon ∨ shapeOf token = .sign .rparen) :
      EndsItems (token :: rest) (token :: rest)
  | comma {comma next : Token} {rest : List Token} (hs : Snug comma)
      (hc : shapeOf comma = .sign .comma) (hn : Snug next) (hb : beginsOperand next = false) :
      EndsItems (comma :: next :: rest) (next :: rest)

theorem EndsItems.follows {tokens last : List Token} (h : EndsItems tokens last) (place : Place) :
    Follows place 1 tokens := by
  cases h with
  | plain hs hc => exact .snug hs (by rcases hc with hc | hc <;> rw [hc] <;> decide)
  | comma hs hc => exact .snug hs (by rw [hc]; decide)

/-- Items are read one after the other. -/
theorem withItems_eq_ok {levels : Nat} {place : Place} {items : List (List Shape)}
    {more : List WithItem} (hi : List.Forall₂ (ReadsItemOf levels place) items more) :
    ∀ {shapes : List Shape} {item : WithItem}, ReadsItemOf levels place shapes item → ∀ tokens,
      Spells tokens (shapes ++ behindCommas items) → ∀ after last, EndsItems after last →
        ∀ fuel, items.length < fuel → ∀ found, ∃ phrases,
          withItems (nested levels) place fuel found (tokens ++ after) = .ok (found ++ phrases, last) ∧
            phrases.map withItem = item :: more := by
  induction hi with
  | nil =>
    intro shapes item h tokens ht after last hend fuel hfuel found
    obtain ⟨fuel, rfl⟩ := Nat.exists_eq_succ_of_ne_zero (Nat.ne_zero_of_lt hfuel)
    have hnil : shapes ++ behindCommas [] = shapes := List.append_nil shapes
    rw [hnil] at ht
    obtain ⟨phrase, hread, rfl⟩ := h.reads tokens after ht (hend.follows place)
    refine ⟨[phrase], ?_, rfl⟩
    cases hend with
    | @plain token _ hs hc =>
      have hno : token.isSymbol .comma = false := by
        rcases hc with hc | hc <;> exact isSymbol_of_sign hc .comma
      simp only [withItems, hread, bind, Except.bind, ahead_of_snug hs, close_isSymbol, hno,
        Bool.false_eq_true, if_false]
      rfl
    | @comma comma next _ hs hc hn hb =>
      have hmark : comma.isSymbol .comma = true := isSymbol_of_sign hc .comma
      have hnext : beginsOperand next.close = false := hb
      simp only [withItems, hread, bind, Except.bind, ahead_of_snug hs, close_isSymbol, hmark, if_true,
        ahead_of_snug hn, hnext, Bool.false_eq_true, if_false]
      rfl
  | @cons shapes' item' items more hnext hi ih =>
    intro shapes item h tokens ht after last hend fuel hfuel found
    obtain ⟨fuel, rfl⟩ := Nat.exists_eq_succ_of_ne_zero (Nat.ne_zero_of_lt hfuel)
    rw [behindCommas_cons] at ht
    obtain ⟨first, behind, rfl, hfirst, hbehind⟩ := ht.append_inv
    obtain ⟨comma, tail, rfl, hcomma, hshape, htail⟩ := hbehind.cons_inv
    have hmark : comma.isSymbol .comma = true := isSymbol_of_sign hshape .comma
    obtain ⟨phrase, hread, rfl⟩ := h.reads first (comma :: (tail ++ after)) hfirst
      (.snug hcomma (by rw [hshape]; decide))
    obtain ⟨shape, others, hshapes, hstrong⟩ := hnext.strong
    have hshown := htail
    rw [hshapes] at hshown
    obtain ⟨start, tail, rfl, hstart, rfl, -⟩ := hshown.cons_inv
    have hbegins : beginsOperand start.close = true := beginsOperand_of_headStrength hstrong
    obtain ⟨phrases, hrest, hitems⟩ := ih hnext _ htail.close after last hend fuel
      (Nat.lt_of_succ_lt_succ hfuel) (found ++ [phrase])
    refine ⟨phrase :: phrases, ?_, by rw [List.map_cons, hitems]⟩
    rw [List.append_assoc, List.cons_append, withItems, hread]
    rw [List.cons_append, List.append_assoc] at hrest
    simp only [bind, Except.bind, ahead_of_snug hcomma, close_isSymbol, hmark, if_true,
      List.cons_append, ahead_of_snug hstart, hbegins, hrest, List.nil_append]

/-! ### Parentheses at the head of a `with` header -/

/-- What a parenthesis at the head of shapes encloses, if there is one: one expression, or the items
of a tuple with something else than a colon behind it. -/
inductive Encloses : List Shape → Prop where
  | nothing {first : Shape} {more : List Shape} (h : first.1 ≠ .symbol .lparen) :
      Encloses (first :: more)
  | one {shapes : List Shape} {phrase : Phrase} (h : Readable 1 shapes phrase) (more : List Shape) :
      Encloses (.sign .lparen :: (shapes ++ .sign .rparen :: more))
  | empty (more : List Shape) : Encloses (.sign .lparen :: .sign .rparen :: more)
  | several {shapes : List Shape} {phrase : Phrase} (h : Readable 1 shapes phrase)
      {items : List (List Shape)} {phrases : List Phrase}
      (hi : List.Forall₂ (Readable 1) items phrases) {trailing : List Shape}
      (htr : IsTrailing trailing) {next : Shape} (hn : next.1 ≠ .symbol .colon) (more : List Shape) :
      Encloses (.sign .lparen ::
        (shapes ++ (behindCommas items ++ (trailing ++ .sign .rparen :: next :: more))))

theorem Encloses.append {shapes : List Shape} (h : Encloses shapes) (more : List Shape) :
    Encloses (shapes ++ more) := by
  cases h with
  | nothing h => exact .nothing h
  | one h =>
    simp only [List.cons_append, List.append_assoc]
    exact .one h _
  | empty => exact .empty _
  | several h hi htr hn =>
    simp only [List.cons_append, List.append_assoc]
    exact .several h hi htr hn _

/-- A tuple that goes on is no group of items. -/
theorem tuple_encloses (extra : Redundance) {items : List Expr} (h : allWritable items = true)
    {next : Shape} (hn : next.1 ≠ .symbol .colon) (more : List Shape) :
    Encloses (shapesOf (bare extra (.tuple items)) ++ next :: more) := by
  obtain ⟨phrases, rfl, hread⟩ := items_read extra 0 items h
  rw [bare, List.cons_append, List.cons_append, shapesOf_cons, shapesOf_append, shapesOf_append,
    shapesOf_singleton]
  generalize printedItems extra 0 (exprs phrases) = pieces at hread ⊢
  cases pieces with
  | nil =>
    cases hread
    exact .empty _
  | cons first pieces =>
    rw [List.map_cons] at hread
    cases hread with
    | @cons _ phrase _ phrases hfirst hmore =>
      have htrailing : IsTrailing (shapesOf (if (exprs (phrase :: phrases)).length = 1
          then [close (.sign .comma)] else [])) := by
        split
        · exact .inr rfl
        · exact .inl rfl
      rw [shapesOf_separated]
      simp only [List.append_assoc]
      exact .several hfirst hmore htrailing hn more

/-- Parentheses around an expression enclose it. -/
theorem enclosed_encloses {e : Expr} {strength : Nat} {pieces : List Piece} (h : Reads e strength pieces)
    (count : Nat) : Encloses (shapesOf (enclosed (count + 1) pieces)) := by
  rw [shapesOf_enclosed]
  cases count with
  | zero =>
    obtain ⟨phrase, -, hread⟩ := h
    exact .one (hread.mono Nat.one_pos hread.positive) []
  | succ count =>
    obtain ⟨phrase, -, hread⟩ := enclosed_reads h count
    exact .one (hread.mono Nat.one_pos hread.positive) []

/-- What holds of a left operand with parentheses around it or without. -/
theorem within_encloses (needed : Nat) (extra : Redundance) {e : Expr} (he : e.isWritable = true)
    (h : e.isTuple = false → Encloses (shapesOf (bare extra e))) {next : Shape}
    (hn : next.1 ≠ .symbol .colon) (more : List Shape) :
    Encloses (shapesOf (within needed extra e (bare extra e)) ++ next :: more) := by
  rw [within]
  cases extra [] + if e.strength < needed then 1 else 0 with
  | zero =>
    cases e with
    | tuple items =>
      rw [Expr.isWritable] at he
      exact tuple_encloses extra he hn more
    | _ => exact (h rfl).append _
  | succ count => exact (enclosed_encloses (bare_reads extra e he) count).append _

/-- No printed expression but a tuple is a group of items: an expression that begins with a
parenthesis is one on the left of a sign or a word. -/
theorem bare_encloses (extra : Redundance) : (e : Expr) → e.isWritable = true → e.isTuple = false →
    Encloses (shapesOf (bare extra e))
  | .name _, _, _ | .str _, _, _ | .int _, _, _ | .bool true, _, _ | .bool false, _, _ | .none, _, _
  | .list _, _, _ | .not _, _, _ => .nothing nofun
  | .unary op _, _, _ => by
    rw [bare, shapesOf_cons]
    exact .nothing (by cases op <;> nofun)
  | .tuple _, _, ht => nomatch ht
  | .boolOp op left right, h, _ => by
    rw [Expr.isWritable, Bool.and_eq_true] at h
    rw [bare, shapesOf_append]
    refine within_encloses _ _ h.1 (bare_encloses (extra.part 0) left h.1) ?_ _
    nofun
  | .compare left links, h, _ => by
    simp only [Expr.isWritable, Bool.and_eq_true, Bool.not_eq_true'] at h
    obtain ⟨⟨hleft, hne⟩, -⟩ := h
    cases links with
    | nil => cases hne
    | cons link links =>
      obtain ⟨op, operand⟩ := link
      have hencloses {next : Shape} := @within_encloses 14 (extra.part 0) left hleft
        (bare_encloses (extra.part 0) left hleft) next
      rw [bare, printedLinks, shapesOf_append, List.append_assoc, shapesOf_append]
      cases op <;> (refine hencloses ?_ _; nofun)
  | .binOp op left right, h, _ => by
    rw [Expr.isWritable, Bool.and_eq_true] at h
    rw [bare, shapesOf_append]
    refine within_encloses _ _ h.1 (bare_encloses (extra.part 0) left h.1) ?_ _
    nofun
  | .call func args kwargs, h, _ => by
    simp only [Expr.isWritable, Bool.and_eq_true] at h
    obtain ⟨⟨hfunc, -⟩, -⟩ := h
    rw [bare, List.append_assoc, List.cons_append, shapesOf_append]
    refine within_encloses _ _ hfunc (bare_encloses (extra.part 0) func hfunc) ?_ _
    nofun
  | .attribute value attr, h, _ => by
    rw [Expr.isWritable, Bool.and_eq_true] at h
    rw [bare, shapesOf_append]
    refine within_encloses _ _ h.1 (bare_encloses (extra.part 0) value h.1) ?_ _
    nofun
  | .subscript value index, h, _ => by
    rw [Expr.isWritable, Bool.and_eq_true] at h
    rw [bare, List.append_assoc, List.cons_append, shapesOf_append]
    refine within_encloses _ _ h.1 (bare_encloses (extra.part 0) value h.1) ?_ _
    nofun
  | .ifExp test body orelse, h, _ => by
    simp only [Expr.isWritable, Bool.and_eq_true] at h
    obtain ⟨⟨-, hbody⟩, -⟩ := h
    rw [bare, List.append_assoc, List.cons_append, shapesOf_append]
    refine within_encloses _ _ hbody (bare_encloses (extra.part 0) body hbody) ?_ _
    nofun

theorem either_error {α : Type} {first second : Except Stuck α} {e : Stuck} {result : α}
    (h : first = .error e) (hs : second = .ok result) : either first second = .ok result := by
  rw [h, hs]
  rfl

/-- A closing parenthesis behind items, and what comes next. -/
theorem parenthesizedItems_of_items {levels indent : Nat} {paren : Token}
    (hp : shapeOf paren = .sign .lparen) {tokens closed rest : List Token} {closer : Token}
    (hpass : pass indent closerOrQuoteNext tokens = .ok ([], closed)) (hs : Snug closer)
    (hc : shapeOf closer = .sign .rparen) {phrases : List Phrase}
    (hread : withItems (nested levels) ⟨indent, closerNext⟩ closed.length [] closed =
      .ok (phrases, closer :: rest))
    (hno : phrases.length < 2 ∨ peekSymbol indent {} .colon rest = false) :
    ∃ e, parenthesizedItems (nested levels) indent (paren :: tokens) = .error e := by
  have hopens : paren.isSymbol .lparen = true := isSymbol_of_sign hp .lparen
  have hcloses : closer.isSymbol .rparen = true := isSymbol_of_sign hc .rparen
  have hfail : (decide (2 ≤ phrases.length) && peekSymbol indent {} .colon rest) = false := by
    rcases hno with hno | hno
    · rw [decide_eq_false (Nat.not_le.mpr hno), Bool.false_and]
    · rw [hno, Bool.and_false]
  refine ⟨_, (?_ : parenthesizedItems (nested levels) indent (paren :: tokens) = stuck rest)⟩
  simp only [parenthesizedItems, takeSymbol, hopens, if_true, hpass, hread, passCloser,
    pass_of_snug hs, takeCloser, close_isSymbol, hcloses, bind, Except.bind, pure, Except.pure, hfail,
    Bool.false_eq_true, if_false]

/-- A header in print does not begin with a group of items. -/
theorem parenthesizedItems_eq_error {shapes : List Shape} (h : Encloses shapes)
    {tokens : List Token} (ht : Spells tokens shapes) {levels : Nat} (hl : shapes.length ≤ levels)
    (indent : Nat) (rest : List Token) :
    ∃ e, parenthesizedItems (nested levels) indent (tokens ++ rest) = .error e := by
  cases h with
  | nothing h =>
    obtain ⟨token, tail, rfl, -, rfl, -⟩ := ht.cons_inv
    have hno : token.isSymbol .lparen = false := decide_eq_false h
    refine ⟨_, (?_ : parenthesizedItems (nested levels) indent _ = stuck (token :: (tail ++ rest)))⟩
    simp only [List.cons_append, parenthesizedItems, takeSymbol, hno, Bool.false_eq_true, if_false,
      bind, Except.bind]
    rfl
  | empty more =>
    obtain ⟨paren, tail, rfl, -, hparen, htail⟩ := ht.cons_inv
    obtain ⟨closer, tail, rfl, hcloser, hshape, -⟩ := htail.cons_inv
    have hopens : paren.isSymbol .lparen = true := isSymbol_of_sign hparen .lparen
    have hnone : beginsOperand closer.close = false := by
      rw [beginsOperand, close_lexeme,
        show closer.lexeme = .symbol .rparen from congrArg Prod.fst hshape]
    obtain ⟨e, he⟩ := expression_eq_error levels hnone ⟨indent, closerNext⟩ {} (tail ++ rest)
    refine ⟨e, ?_⟩
    simp only [List.cons_append, parenthesizedItems, takeSymbol, hopens, if_true,
      pass_of_snug hcloser, List.length_cons, withItems, he, bind, Except.bind]
  | @one shapes phrase h more =>
    obtain ⟨paren, tail, rfl, -, hparen, htail⟩ := ht.cons_inv
    obtain ⟨inner, behind, rfl, hinner, hbehind⟩ := htail.append_inv
    obtain ⟨closer, tail, rfl, hcloser, hshape, -⟩ := hbehind.cons_inv
    obtain ⟨closed, hclosed, hpass⟩ := hinner.exists_pass h.ne_nil
    simp only [List.length_cons, List.length_append] at hl
    have hnil : Spells closed (shapes ++ behindCommas []) := (List.append_nil shapes).symm ▸ hclosed
    obtain ⟨phrases, hread, hitems⟩ := withItems_eq_ok List.Forall₂.nil
      (readsItemOf_of_readable ⟨indent, closerNext⟩ h (show _ ≤ levels by omega)) closed hnil
      (closer :: (tail ++ rest)) _ (.plain hcloser (.inr hshape))
      (closed ++ closer :: (tail ++ rest)).length (by simp) []
    have hone := congrArg List.length hitems
    rw [List.length_map] at hone
    rw [List.cons_append, List.append_assoc, List.cons_append]
    exact parenthesizedItems_of_items hparen (hpass _ _ _) hcloser hshape hread
      (.inl (hone.trans_lt Nat.one_lt_two))
  | @several shapes phrase h items phrases hi trailing htr next hn more =>
    rw [← List.append_assoc] at ht
    obtain ⟨paren, tail, rfl, -, hparen, htail⟩ := ht.cons_inv
    obtain ⟨inner, behind, rfl, hinner, hbehind⟩ := htail.append_inv
    simp only [List.length_cons, List.length_append] at hl
    -- With a last comma or without, the items end at the parenthesis.
    obtain ⟨closer, following, tail, hend, hcloser, hshape, hfollowing, hfollowingShape⟩ :
        ∃ closer following tail, EndsItems (behind ++ rest) (closer :: following :: tail) ∧
          Snug closer ∧ shapeOf closer = .sign .rparen ∧ Snug following ∧
            shapeOf following = next := by
      rcases htr with rfl | rfl
      · obtain ⟨closer, tail, rfl, hcloser, hshape, htail⟩ := hbehind.cons_inv
        obtain ⟨following, tail, rfl, hfollowing, hfollowingShape, -⟩ := htail.cons_inv
        exact ⟨closer, following, _, .plain hcloser (.inr hshape), hcloser, hshape, hfollowing,
          hfollowingShape⟩
      · obtain ⟨comma, tail, rfl, hcomma, hcommaShape, htail⟩ := hbehind.cons_inv
        obtain ⟨closer, tail, rfl, hcloser, hshape, htail⟩ := htail.cons_inv
        obtain ⟨following, tail, rfl, hfollowing, hfollowingShape, -⟩ := htail.cons_inv
        have hnone : beginsOperand closer = false := by
          rw [beginsOperand, show closer.lexeme = .symbol .rparen from congrArg Prod.fst hshape]
        exact ⟨closer, following, _, .comma hcomma hcommaShape hcloser hnone, hcloser, hshape,
          hfollowing, hfollowingShape⟩
    obtain ⟨closed, hclosed, hpass⟩ :=
      hinner.exists_pass (List.append_ne_nil_of_left_ne_nil h.ne_nil _)
    have hitems : List.Forall₂ (ReadsItemOf levels ⟨indent, closerNext⟩) items
        (phrases.map withItem) :=
      List.forall₂_map_right_iff.mpr (forall₂_of_length_le
        (fun shapes phrase h hl => readsItemOf_of_readable _ h hl) hi (by omega))
    have hfuel : items.length < (closed ++ (behind ++ rest)).length := by
      have hcommas := length_le_behindCommas items
      have hlen := hclosed.length_eq
      have hpos := h.length_pos
      rw [List.length_append] at hlen ⊢
      omega
    obtain ⟨found, hread, -⟩ := withItems_eq_ok hitems
      (readsItemOf_of_readable ⟨indent, closerNext⟩ h (show _ ≤ levels by omega)) closed hclosed
      _ _ hend _ hfuel []
    have hcolon : peekSymbol indent {} .colon (following :: tail) = false := by
      rw [peekSymbol_of_snug hfollowing]
      subst hfollowingShape
      exact decide_eq_false hn
    rw [List.cons_append, List.append_assoc]
    exact parenthesizedItems_of_items hparen (hpass _ _ _) hcloser hshape hread (.inr hcolon)

/-! ### `with` headers -/

/-- A context in print is read as an expression that is no bare tuple. -/
theorem context_reads (extra : Redundance) {e : Expr} (h : e.isWritable = true) :
    Reads e 3 (contextPieces extra e) ∧ Encloses (shapesOf (contextPieces extra e)) := by
  have hread := within_reads (bare_reads extra e h) 3 3 rfl extra
  rw [contextPieces]
  cases htuple : e.isTuple with
  | true =>
    obtain ⟨phrase, he, henclosed⟩ := enclosed_reads hread 0
    exact ⟨⟨phrase, he, henclosed.mono (by decide) (by decide)⟩, enclosed_encloses hread 0⟩
  | false =>
    refine ⟨hread, (?_ : Encloses (shapesOf (within 3 extra e (bare extra e))))⟩
    rw [within]
    cases extra [] + if e.strength < 3 then 1 else 0 with
    | zero => exact bare_encloses extra e h htuple
    | succ count => exact enclosed_encloses (bare_reads extra e h) count

/-- An item in print is read as the item, and begins with no group of items. -/
theorem item_reads (extra : Redundance) {item : WithItem} (h : item.isWritable = true) :
    (∀ levels place, (shapesOf (itemPieces extra item)).length ≤ levels →
      ReadsItemOf levels place (shapesOf (itemPieces extra item)) item) ∧
        Encloses (shapesOf (itemPieces extra item)) := by
  obtain ⟨context, target⟩ := item
  rw [WithItem.isWritable, Bool.and_eq_true] at h
  obtain ⟨⟨phrase, rfl, hread⟩, hencloses⟩ := context_reads extra h.1
  rw [itemPieces, shapesOf_append]
  refine ⟨fun levels place hl => ?_, hencloses.append _⟩
  cases target with
  | none =>
    rw [show shapesOf _ ++ shapesOf [] = _ from List.append_nil _] at hl ⊢
    have hitem := readsItemOf_of_readable place (hread.mono Nat.one_pos (by decide)) hl
    exact withItem_of_isWritable h.1 ▸ hitem
  | some target =>
    obtain ⟨phrase', hread', -, rfl⟩ := target_reads target h.2
    simp only [shapesOf_cons, shapesOf_spaced] at hl ⊢
    exact readsItemOf_of_target place hread hread' hl

theorem items_readItems (style : Style) (items : List WithItem)
    (h : ∀ item ∈ items, item.isWritable = true) (levels : Nat) (place : Place) : ∀ number,
      (behindCommas ((itemsPieces style number items).map shapesOf)).length ≤ levels →
        List.Forall₂ (ReadsItemOf levels place) ((itemsPieces style number items).map shapesOf)
          items := by
  induction items with
  | nil => exact fun _ _ => .nil
  | cons item items ih =>
    intro number hl
    rw [itemsPieces, List.map_cons] at hl ⊢
    rw [behindCommas_cons, List.length_cons, List.length_append] at hl
    exact .cons ((item_reads _ (h item List.mem_cons_self)).1 levels place (by omega))
      (ih (fun other hm => h other (List.mem_cons_of_mem _ hm)) (number + 1) (by omega))

/-- The items between the word of a header and its colon. -/
theorem withStatement_eq_ok (style : Style) {items : List WithItem} (hne : items ≠ [])
    (hi : ∀ item ∈ items, item.isWritable = true) {tokens : List Token}
    (ht : Spells tokens (shapesOf (separated (itemsPieces style 0 items)))) {levels : Nat}
    (hl : tokens.length ≤ levels) {indent : Nat} {colon : Token} (hs : Snug colon)
    (hc : shapeOf colon = .sign .colon) {rest after : List Token} {b : Blocks} {body : Block}
    (hsuite : suite (nested levels) b indent rest = .ok (([], body), after)) :
    ∃ phrases, phrases.map withItem = items ∧
      withStatement (nested levels) b indent (tokens ++ colon :: rest) =
        .ok (.with phrases body, after) := by
  obtain ⟨first, items, rfl⟩ := List.exists_cons_of_ne_nil hne
  obtain ⟨hfirst, hencloses⟩ := item_reads (style.parens 0) (hi first List.mem_cons_self)
  rw [itemsPieces, shapesOf_separated, Nat.zero_add] at ht
  have hlen := ht.length_eq
  rw [List.length_append] at hlen
  have hsome : shapesOf (itemPieces (style.parens 0) first) ≠ [] := by
    obtain ⟨shape, more, hshapes, -⟩ := (hfirst _ ⟨indent, {}⟩ (Nat.le_refl _)).strong
    rw [hshapes]
    exact List.cons_ne_nil _ _
  obtain ⟨closed, hclosed, hpass⟩ := ht.exists_pass (List.append_ne_nil_of_left_ne_nil hsome _)
  obtain ⟨e, herror⟩ := parenthesizedItems_eq_error (hencloses.append _) hclosed
    (show _ ≤ levels by rw [List.length_append]; omega) indent (colon :: rest)
  have hmore := items_readItems style items (fun item hm => hi item (List.mem_cons_of_mem _ hm))
    levels ⟨indent, {}⟩ 1 (by omega)
  have hfuel : ((itemsPieces style 1 items).map shapesOf).length <
      (closed ++ colon :: rest).length := by
    have hcommas := length_le_behindCommas ((itemsPieces style 1 items).map shapesOf)
    have hlen' := hclosed.length_eq
    rw [List.length_append] at hlen' ⊢
    rw [List.length_cons]
    omega
  have hend : EndsItems (colon :: rest) (colon :: rest) := .plain hs (.inl hc)
  obtain ⟨phrases, hread, hitems⟩ := withItems_eq_ok hmore (hfirst levels ⟨indent, {}⟩ (by omega))
    closed hclosed _ _ hend _ hfuel []
  refine ⟨phrases, hitems, ?_⟩
  simp only [withStatement, hpass, either_error herror hread, colonSuite_eq_ok hs hc hsuite, bind,
    Except.bind]
  rfl

end Marksheet.Grammar
