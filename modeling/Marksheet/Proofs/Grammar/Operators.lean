import Marksheet.Proofs.Grammar.Readable

/-!
# Operators and their operands are read

Each lemma puts an operator between phrases that can be read. The strengths are those
that the operands need in print, and the lemma gives the strength of the whole.
-/

namespace Marksheet.Grammar

open Marksheet.Source Marksheet.Syntax

namespace Readable

variable {strength strength' : Nat} {shapes shapes' : List Shape} {phrase phrase' : Phrase}

theorem ne_nil (h : Readable strength shapes phrase) : shapes ≠ [] := by
  obtain ⟨first, more, rfl, -⟩ := h.opening.exists_cons
  exact List.cons_ne_nil _ _

theorem length_pos (h : Readable strength shapes phrase) : 0 < shapes.length :=
  List.length_pos_iff.mpr h.ne_nil

/-- A sign and its operand. -/
theorem unary (h : Readable strength shapes phrase) (hs : 20 ≤ strength) (op : UnaryOp) :
    Readable 20 (.sign op.mark :: shapes) (.unary op phrase) := by
  refine ofOperand (by decide) (by decide) ?_ rfl ?_
  · obtain ⟨first, more, rfl, -⟩ := h.opening.exists_cons
    cases op <;> exact ⟨by decide, rfl⟩
  · intro tokens ht levels hl place least rest hleast hf
    obtain ⟨token, tail, rfl, -, hshape, htail⟩ := ht.cons_inv
    obtain ⟨closed, hclosed, hpass⟩ := htail.exists_pass h.ne_nil
    have hsign : sign? token = some op := by
      have hlexeme : token.lexeme = .symbol op.mark := congrArg Prod.fst hshape
      rw [sign?, hlexeme]
      cases op <;> rfl
    have hvalue : (nested levels).operand place 21 (closed ++ rest) = .ok (phrase, rest) :=
      h.operand_eq_ok (by omega) hclosed (Nat.le_of_succ_le_succ hl) (reach_mono hs) hf
        (reach_mono hs) (.inr (.inr ⟨by decide, by decide⟩))
    refine ⟨rest.length, Nat.le_refl _, ?_⟩
    have hleast' : least ≤ 21 := hleast
    simp only [List.cons_append, operand, hsign, hleast', if_true, hpass, hvalue, bind, Except.bind]

/-- A binary operator between its operands. -/
theorem binary (hl : Readable strength shapes phrase) (hr : Readable strength' shapes' phrase')
    (op : BinOp) (hs : op.leftStrength ≤ strength) (hs' : op.rightStrength ≤ strength') :
    Readable op.precedence (shapes ++ .sign (.op op) :: shapes') (.binary op phrase phrase') := by
  have hprecedence : 14 ≤ op.precedence ∧ op.precedence < 22 ∧
      reach op.precedence = op.precedence := by
    cases op <;> decide
  have hleft : op.precedence ≤ op.leftStrength := by cases op <;> decide
  have htight : symbolTightness (.op op) < reach op.leftStrength := by cases op <;> decide
  have hright : 14 ≤ op.rightStrength ∧ op.precedence ≤ reach op.rightStrength := by
    cases op <;> decide
  refine ofOperand hprecedence.1 hprecedence.2.1
    ((hl.opening.mono (hleft.trans hs)).append ?_) rfl ?_
  · intro next hn
    obtain rfl := Option.mem_some_iff.mp hn
    exact htight.trans_le ((reach_le _).trans (by decide))
  · intro tokens ht levels hlen place least rest hleast hf
    obtain ⟨before, behind, rfl, hbefore, hbehind⟩ := ht.append_inv
    obtain ⟨token, tail, rfl, hsnug, hshape, htail⟩ := hbehind.cons_inv
    obtain ⟨closed, hclosed, hpass⟩ := htail.exists_pass hr.ne_nil
    have hlexeme : token.lexeme = .symbol (.op op) := congrArg Prod.fst hshape
    simp only [List.length_append, List.length_cons] at hlen
    have hpos := hl.length_pos
    have hfollows : Follows place (reach strength) (token :: tail ++ rest) := by
      refine .snug hsnug ?_
      rw [hshape]
      exact htight.trans_le (reach_mono hs)
    obtain ⟨fuel, hfuel, hread⟩ := hl.asOperand (by omega) before hbefore levels (by omega) place
      least (token :: tail ++ rest) (hleast.trans (reach_mono (hleft.trans hs))) hfollows
    -- A power takes a power on its right; the other operators take only stronger operands there.
    have hvalue : (nested levels).operand place
        (if op = .pow then op.precedence else op.precedence + 1) (closed ++ rest) =
          .ok (phrase', rest) := by
      refine hr.operand_eq_ok (hright.1.trans hs') hclosed (by omega) ?_ hf
        (hprecedence.2.2.le.trans (hright.2.trans (reach_mono hs'))) ?_
      · refine le_trans ?_ (reach_mono hs')
        cases op <;> decide
      · cases op <;> decide
    obtain ⟨fuel, rfl, hrest⟩ := exists_fuel hfuel
    refine ⟨fuel, hrest, ?_⟩
    rw [hprecedence.2.2] at hleast
    rw [List.append_assoc, hread, binaryTail, List.cons_append, ahead_of_snug hsnug]
    simp only [close_lexeme, hlexeme, hleast, if_true, hpass, hvalue, bind, Except.bind]

/-- The word `not` and its operand. -/
theorem negation (h : Readable strength shapes phrase) (hs : 12 ≤ strength) :
    Readable 12 (.word "not" :: shapes) (.not phrase) := by
  refine ⟨by decide, ?_, rfl, ?_, fun h => absurd h (by decide), fun h => absurd h (by decide)⟩
  · obtain ⟨first, more, rfl, hfirst⟩ := h.opening.exists_cons
    refine ⟨by decide, ?_⟩
    have h0 : 0 < strength := h.positive
    simp only [keepsSense, Shape.word, Bool.and_eq_true, bne_iff_ne]
    exact ⟨ne_symbol_of_le_headStrength hfirst h0, ne_symbol_of_le_headStrength hfirst h0⟩
  · intro tokens ht levels hl place level rest hleast hf
    obtain ⟨token, tail, rfl, -, hshape, htail⟩ := ht.cons_inv
    obtain ⟨closed, hclosed, hpass⟩ := htail.exists_pass h.ne_nil
    have hword : token.isWord "not" = true := isWord_of_word hshape "not"
    have hvalue : (nested levels).expression place { least := 12 } (closed ++ rest) =
        .ok (phrase, rest) :=
      h.expression_eq_ok hclosed (Nat.le_of_succ_le_succ hl) hs hf (by omega)
        (.inr (.inr (Nat.le_refl _)))
    refine ⟨rest.length, Nat.le_refl _, ?_⟩
    simp only [List.cons_append, expression, simpleExpression, hword, if_true, hpass, hvalue, bind,
      Except.bind]
    rfl

/-- A boolean operator that is strong enough is taken with its right operand. -/
theorem infixTail_boolean (n : Nested) (place : Place) {level : Level} {op : BoolOp}
    (hleast : level.least ≤ op.strength) {token : Token} (hs : Snug token)
    (hshape : shapeOf token = .word op.symbol) (fuel : Nat) (left : Phrase) (rest : List Token) :
    infixTail n place level (fuel + 1) left (token :: rest) = (do
      let (_, tokens) ← pass place.indent operandNext rest
      let (right, tokens) ← n.expression place { least := op.strength + 1 } tokens
      infixTail n place level fuel (.boolean op left right) tokens) := by
  have hword (word : String) : token.close.isWord word = decide (op.symbol = word) :=
    isWord_of_word hshape word
  rw [infixTail, ahead_of_snug hs]
  cases op with
  | or =>
    have hleast' : level.least ≤ 10 := hleast
    have hor : (token.close.isWord "or" && decide (level.least ≤ 10)) = true := by
      rw [hword, decide_eq_true hleast']
      rfl
    simp only [hor, if_true]
    rfl
  | and =>
    have hor : (token.close.isWord "or" && decide (level.least ≤ 10)) = false := by
      rw [hword]
      rfl
    have hleast' : level.least ≤ 11 := hleast
    have hand : (token.close.isWord "and" && decide (level.least ≤ 11)) = true := by
      rw [hword, decide_eq_true hleast']
      rfl
    simp only [hor, hand, Bool.false_eq_true, if_false, if_true]
    rfl

/-- A boolean operator between its operands. -/
theorem boolean (hl : Readable strength shapes phrase) (hr : Readable strength' shapes' phrase')
    (op : BoolOp) (hs : op.strength ≤ strength) (hs' : op.strength + 1 ≤ strength') :
    Readable op.strength (shapes ++ .word op.symbol :: shapes') (.boolean op phrase phrase') := by
  have hstrength : 10 ≤ op.strength ∧ op.strength ≤ 11 := by cases op <;> decide
  have htight : tightness (.word op.symbol) + 1 = op.strength := by cases op <;> decide
  refine ⟨by omega, (hl.opening.mono hs).append ?_, rfl, ?_, fun h => by omega, fun h => by omega⟩
  · intro next hn
    obtain rfl := Option.mem_some_iff.mp hn
    omega
  · intro tokens ht levels hlen place level rest hleast hf
    obtain ⟨before, behind, rfl, hbefore, hbehind⟩ := ht.append_inv
    obtain ⟨token, tail, rfl, hsnug, hshape, htail⟩ := hbehind.cons_inv
    obtain ⟨closed, hclosed, hpass⟩ := htail.exists_pass hr.ne_nil
    simp only [List.length_append, List.length_cons] at hlen
    have hpos := hl.length_pos
    have hfollows : Follows place (min strength 12) (token :: tail ++ rest) := by
      refine .snug hsnug ?_
      rw [hshape]
      omega
    obtain ⟨fuel, hfuel, hread⟩ := hl.asExpression before hbefore levels (by omega) place level
      (token :: tail ++ rest) (hleast.trans hs) hfollows
    have hvalue : (nested levels).expression place { least := op.strength + 1 } (closed ++ rest) =
        .ok (phrase', rest) :=
      hr.expression_eq_ok hclosed (by omega) hs' hf (by omega) (.inr (.inl (by dsimp only; omega)))
    obtain ⟨fuel, rfl, hrest⟩ := exists_fuel hfuel
    refine ⟨fuel, hrest, ?_⟩
    rw [List.append_assoc, hread, List.cons_append, infixTail_boolean _ _ hleast hsnug hshape]
    simp only [hpass, hvalue, bind, Except.bind]

/-- A conditional: its body, its test and its alternative. -/
theorem conditional {strength'' : Nat} {shapes'' : List Shape} {phrase'' : Phrase}
    (hb : Readable strength shapes phrase) (hs : 2 ≤ strength)
    (ht : Readable strength' shapes' phrase') (ho : Readable strength'' shapes'' phrase'') :
    Readable 1 (shapes ++ .word "if" :: (shapes' ++ .word "else" :: shapes''))
      (.conditional false phrase phrase' phrase'') := by
  refine ⟨by decide, (hb.opening.mono (by omega)).append ?_, rfl, ?_, fun h => absurd h (by decide),
    fun h => absurd h (by decide)⟩
  · intro next hn
    obtain rfl := Option.mem_some_iff.mp hn
    decide
  · intro tokens hspells levels hlen place level rest hleast hf
    obtain ⟨before, behind, rfl, hbefore, hbehind⟩ := hspells.append_inv
    obtain ⟨iff, tail, rfl, hsnug, hshape, htail⟩ := hbehind.cons_inv
    obtain ⟨test, behind, rfl, htest, hbehind⟩ := htail.append_inv
    obtain ⟨els, orelse, rfl, hsnug', hshape', horelse⟩ := hbehind.cons_inv
    obtain ⟨test', htest, hpass⟩ := htest.exists_pass ht.ne_nil
    obtain ⟨orelse', horelse, hpass'⟩ := horelse.exists_pass ho.ne_nil
    simp only [List.length_append, List.length_cons] at hlen
    have hpos := hb.length_pos
    have hfollows : Follows place (min strength 12) (iff :: (test ++ els :: orelse) ++ rest) := by
      refine .snug hsnug ?_
      rw [hshape]
      exact lt_min hs (by decide)
    obtain ⟨fuel, hfuel, hread⟩ := hb.asExpression before hbefore levels (by omega) place level
      (iff :: (test ++ els :: orelse) ++ rest) (hleast.trans (by omega)) hfollows
    have htestValue : (nested levels).expression ⟨place.indent, {}⟩ {}
        (test' ++ (els :: orelse ++ rest)) = .ok (phrase', els :: orelse ++ rest) := by
      refine ht.expression_eq_ok htest (by omega) (Nat.zero_le _) (.snug hsnug' ?_)
        (le_min ht.positive (by decide)) (.inl (Nat.le_refl 1))
      rw [hshape']
      decide
    have horelseValue : (nested levels).expression place { least := 1 } (orelse' ++ rest) =
        .ok (phrase'', rest) :=
      ho.expression_eq_ok horelse (by omega) ho.positive hf (le_min ho.positive (by decide))
        (.inl (Nat.le_refl 1))
    obtain ⟨fuel, rfl, hrest⟩ := exists_fuel hfuel
    refine ⟨fuel, hrest, ?_⟩
    have hword (word : String) : iff.close.isWord word = decide ("if" = word) :=
      isWord_of_word hshape word
    have helse : els.isWord "else" = true := isWord_of_word hshape' "else"
    have hleast' : level.least ≤ 1 := hleast
    have htake : (iff.close.isWord "if" && decide (level.least ≤ 1)) = true := by
      rw [hword, decide_eq_true hleast']
      rfl
    have hor : iff.close.isWord "or" = false := hword "or"
    have hand : iff.close.isWord "and" = false := hword "and"
    rw [List.append_assoc, hread, infixTail, List.cons_append, ahead_of_snug hsnug]
    simp only [hor, hand, htake, Bool.false_and, Bool.false_eq_true, if_false, if_true,
      List.append_assoc, hpass, bind, Except.bind, htestValue]
    simp only [List.cons_append, passWord_of_snug hsnug' _ _ _ helse, hpass', horelseValue]
    rfl

end Readable

/-! ### Chains of comparisons -/

/-- The shapes of a comparison operator. -/
def cmpShapes (op : CmpOp) : List Shape := op.marks.flatMap Mark.shapes

/-- Shapes that spell the links of a chain: operators, each with an operand behind it. -/
inductive Links : List Shape → List (CmpOp × Phrase) → Prop where
  | nil : Links [] []
  | cons (op : CmpOp) {strength : Nat} {shapes more : List Shape} {phrase : Phrase}
      {links : List (CmpOp × Phrase)} (h : Readable strength shapes phrase) (hs : 14 ≤ strength)
      (hm : Links more links) : Links (cmpShapes op ++ (shapes ++ more)) ((op, phrase) :: links)

/-- A comparison operator is read from its tokens, unless a word behind it makes it another one. -/
theorem comparisonOp?_eq_some (op : CmpOp) {tokens : List Token} (ht : Spells tokens (cmpShapes op))
    (place : Place) {next : Token} (hn : Snug next) (hnot : next.isWord "not" = false)
    (rest : List Token) :
    ∃ first more, tokens = first :: more ∧ Snug first ∧ tightness (shapeOf first) = 12 ∧
      comparisonOp? place (first.close :: (more ++ next :: rest)) = some (op, next :: rest) := by
  have hsign (symbol : Symbol) (first : Token) (h : shapeOf first = .sign symbol) :
      first.lexeme = .symbol symbol := congrArg Prod.fst h
  have hword (text : String) (first : Token) (h : shapeOf first = .word text) :
      first.lexeme = .word ∧ first.text = text := ⟨congrArg Prod.fst h, congrArg Prod.snd h⟩
  have hone (shape : Shape) (hshapes : cmpShapes op = [shape]) (htight : tightness shape = 12)
      (hop : ∀ first, shapeOf first = shape →
        comparisonOp? place (first :: next :: rest) = some (op, next :: rest)) :
      ∃ first more, tokens = first :: more ∧ Snug first ∧ tightness (shapeOf first) = 12 ∧
        comparisonOp? place (first.close :: (more ++ next :: rest)) = some (op, next :: rest) := by
    rw [hshapes] at ht
    obtain ⟨first, rfl, hsnug, rfl⟩ := ht.single_inv
    exact ⟨first, [], rfl, hsnug, htight, hop first.close rfl⟩
  have htwo (text text' : String) (hshapes : cmpShapes op = [.word text, .word text'])
      (htight : wordTightness text = 12)
      (hop : ∀ first second, shapeOf first = .word text → shapeOf second = .word text' →
        Snug second →
          comparisonOp? place (first :: second :: next :: rest) = some (op, next :: rest)) :
      ∃ first more, tokens = first :: more ∧ Snug first ∧ tightness (shapeOf first) = 12 ∧
        comparisonOp? place (first.close :: (more ++ next :: rest)) = some (op, next :: rest) := by
    rw [hshapes] at ht
    obtain ⟨first, more, rfl, hsnug, hfirst, hmore⟩ := ht.cons_inv
    obtain ⟨second, rfl, hsnug', hsecond⟩ := hmore.single_inv
    refine ⟨first, [second], rfl, hsnug, ?_, hop first.close second hfirst hsecond hsnug'⟩
    rw [hfirst]
    exact htight
  cases op with
  | isIn =>
    refine hone (.word "in") rfl rfl fun first h => ?_
    simp only [comparisonOp?, (hword _ _ h).1, (hword _ _ h).2, if_true]
  | is =>
    refine hone (.word "is") rfl rfl fun first h => ?_
    simp only [comparisonOp?, (hword _ _ h).1, (hword _ _ h).2, ahead_of_snug hn, close_isWord, hnot]
    rfl
  | notIn =>
    refine htwo "not" "in" rfl rfl fun first second h h' hsnug => ?_
    have hin : second.isWord "in" = true := isWord_of_word h' "in"
    simp only [comparisonOp?, (hword _ _ h).1, (hword _ _ h).2, ahead_of_snug hsnug, close_isWord,
      hin]
    rfl
  | isNot =>
    refine htwo "is" "not" rfl rfl fun first second h h' hsnug => ?_
    have hnot' : second.isWord "not" = true := isWord_of_word h' "not"
    simp only [comparisonOp?, (hword _ _ h).1, (hword _ _ h).2, ahead_of_snug hsnug, close_isWord,
      hnot']
    rfl
  | _ =>
    refine hone (.sign _) rfl rfl fun first h => ?_
    simp only [comparisonOp?, hsign _ _ h]

theorem cmpShapes_eq_cons (op : CmpOp) :
    ∃ first more, cmpShapes op = first :: more ∧ tightness first = 12 := by
  cases op <;> exact ⟨_, _, rfl, rfl⟩

/-- A link holds on to the operand before it like a comparison. -/
theorem Links.follows {shapes : List Shape} {links : List (CmpOp × Phrase)} (h : Links shapes links)
    {tokens : List Token} (ht : Spells tokens shapes) {place : Place} {rest : List Token}
    (hf : Follows place 12 rest) : Follows place 13 (tokens ++ rest) := by
  cases h with
  | nil =>
    obtain rfl := ht.nil_inv
    exact hf.mono (by decide)
  | cons op h hs hm =>
    obtain ⟨first, more, hshapes, htight⟩ := cmpShapes_eq_cons op
    rw [hshapes, List.cons_append] at ht
    obtain ⟨token, tail, rfl, hsnug, rfl, -⟩ := ht.cons_inv
    exact .snug hsnug (by omega)

theorem Links.length_le {shapes : List Shape} {links : List (CmpOp × Phrase)}
    (h : Links shapes links) : links.length ≤ shapes.length := by
  induction h with
  | nil => exact Nat.le_refl 0
  | cons op h hs hm ih =>
    have hpos := h.length_pos
    simp only [List.length_append, List.length_cons]
    omega

/-- The links of a chain are read one after the other. -/
theorem comparisonTail_links {shapes : List Shape} {links : List (CmpOp × Phrase)}
    (h : Links shapes links) {place : Place} {rest : List Token} (hf : Follows place 12 rest)
    (levels : Nat) :
    ∀ tokens, Spells tokens shapes → shapes.length ≤ levels → ∀ fuel, links.length ≤ fuel →
      ∀ before, comparisonTail (nested levels) place fuel false before (tokens ++ rest) =
        .ok ((false, before ++ links), rest) := by
  induction h with
  | nil =>
    intro tokens ht _ fuel _ before
    obtain rfl := ht.nil_inv
    rw [List.nil_append, List.append_nil, comparisonTail_of_follows _ hf (Nat.le_refl _)]
  | @cons op strength shapes more phrase links h hs hm ih =>
    intro tokens ht hlen fuel hfuel before
    obtain ⟨ops, behind, rfl, hops, hbehind⟩ := ht.append_inv
    obtain ⟨operand, further, rfl, hoperand, hfurther⟩ := hbehind.append_inv
    have hfollows : Follows place 13 (further ++ rest) := hm.follows hfurther hf
    obtain ⟨shape, tailShapes, rfl, hhead⟩ := h.opening.exists_cons
    obtain ⟨next, operand, rfl, hsnug, rfl, -⟩ := hoperand.cons_inv
    have hnot : next.isWord "not" = false :=
      isWord_eq_false hhead (Nat.lt_of_lt_of_le (by decide) hs)
    obtain ⟨first, ops, rfl, hfirst, -, hop⟩ :=
      comparisonOp?_eq_some op hops place hsnug hnot (operand ++ (further ++ rest))
    simp only [List.length_append, List.length_cons] at hlen
    have hvalue : (nested levels).operand place 0 (next.close :: operand ++ (further ++ rest)) =
        .ok (phrase, further ++ rest) :=
      h.operand_eq_ok hs hoperand.close (by rw [List.length_cons]; omega) (Nat.zero_le _) hfollows
        (Nat.le_trans (by decide) (reach_mono hs)) (.inl (Nat.le_refl _))
    cases fuel with
    | zero => simp at hfuel
    | succ fuel =>
      have hnext := ih further hfurther (by omega) fuel (Nat.le_of_succ_le_succ hfuel)
        (before ++ [(op, phrase)])
      have hgap := pass_of_snug hsnug place.indent operandNext (operand ++ (further ++ rest))
      rw [List.cons_append] at hvalue
      simp only [List.cons_append, List.append_assoc, comparisonTail, ahead_of_snug hfirst, hop,
        hgap, hvalue, bind, Except.bind]
      exact hnext.trans (by rw [List.append_assoc, List.singleton_append])

namespace Readable

/-- An operand and the links of a chain behind it. -/
theorem comparison {strength : Nat} {shapes more : List Shape} {phrase : Phrase}
    {links : List (CmpOp × Phrase)} (h : Readable strength shapes phrase) (hs : 14 ≤ strength)
    (hm : Links more links) (hne : links ≠ []) :
    Readable 13 (shapes ++ more) (.comparison false phrase links) := by
  have hopening : Opening 13 (shapes ++ more) := by
    refine (h.opening.mono (Nat.le_trans (by decide) hs)).append fun next hn => ?_
    cases hm with
    | nil => exact absurd hn (by simp)
    | cons op h hs hm =>
      obtain ⟨first, further, hshapes, htight⟩ := cmpShapes_eq_cons op
      rw [hshapes] at hn
      obtain rfl := Option.mem_some_iff.mp hn
      omega
  refine ⟨by decide, hopening, rfl, ?_, fun h => absurd h (by decide), fun h => absurd h (by decide)⟩
  intro tokens ht levels hlen place level rest _ hf
  have hsimple := simpleExpression_eq_comparison (by decide) hopening ht hf (by decide)
    (nested levels) level
  obtain ⟨before, behind, rfl, hbefore, hbehind⟩ := ht.append_inv
  have hfollows : Follows place 13 (behind ++ rest) := hm.follows hbehind hf
  simp only [List.length_append] at hlen
  have hpos := h.length_pos
  obtain ⟨fuel, -, hread⟩ := h.asOperand hs before hbefore levels (by omega) place 0
    (behind ++ rest) (Nat.zero_le _) (hfollows.mono (Nat.le_trans (by decide) (reach_mono hs)))
  rw [binaryTail_of_follows _ hfollows (.inl (Nat.le_refl _))] at hread
  have hlinks : links.length ≤ (behind ++ rest).length := by
    rw [List.length_append, hbehind.length_eq]
    exact Nat.le_add_right_of_le hm.length_le
  have htail := comparisonTail_links hm hf levels behind hbehind (by omega) _ hlinks []
  have hempty : links.isEmpty = false := by rwa [List.isEmpty_eq_false_iff]
  refine ⟨rest.length, Nat.le_refl _, ?_⟩
  rw [expression, hsimple, Grammar.comparison, List.append_assoc, hread]
  simp only [bind, Except.bind, htail, List.nil_append, hempty, Bool.false_eq_true, if_false]
  rfl

end Readable

end Marksheet.Grammar
