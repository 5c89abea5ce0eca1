import Marksheet.Proofs.Grammar.SimpleLines
import Marksheet.Proofs.Grammar.Targets

/-!
# Headers are read

The header of a compound statement is a word, what belongs to it, and a colon. Behind
the colon a block opens. Each reader of a header is followed up to the colon, whatever
stands in the block.
-/

namespace Marksheet.Grammar

open Marksheet.Source Marksheet.Syntax

/-- The tokens of a header: its word, what stands behind the word, and the colon. -/
theorem header_inv {word : String} {pieces : List Piece} {tokens : List Token}
    (h : Writes tokens (header word pieces)) :
    ∃ first middle colon, tokens = first :: (middle ++ [colon]) ∧ shapeOf first = .word word ∧
      Spells middle (shapesOf pieces) ∧ Snug colon ∧ shapeOf colon = .sign .colon := by
  obtain ⟨first, tail, rfl, -, hshape, -, htail⟩ := h.cons_inv rfl
  obtain ⟨middle, last, rfl, hmiddle, hlast⟩ := htail.append_inv
  obtain ⟨colon, rfl, hsnug, hcolon⟩ := hlast.spells.single_inv
  exact ⟨first, middle, colon, rfl, hshape, shapesOf_spaced pieces ▸ hmiddle.spells, hsnug, hcolon⟩

section

variable {levels indent : Nat} {b : Blocks} {colon : Token} (hs : Snug colon)
  (hc : shapeOf colon = .sign .colon) {rest : List Token}

include hs hc

/-- A colon follows an expression. -/
theorem follows_colon (place : Place) : Follows place 1 (colon :: rest) :=
  .snug hs (by rw [hc]; decide)

variable {body : Block} {after : List Token}
  (hsuite : suite (nested levels) b indent rest = .ok (([], body), after))

include hsuite

/-- The block behind a colon. -/
theorem colonSuite_eq_ok :
    colonSuite (nested levels) b indent (colon :: rest) = .ok (([], body), after) := by
  have hmark : colon.isSymbol .colon = true := isSymbol_of_sign hc .colon
  simp only [colonSuite, passSymbol_of_snug hs _ _ _ hmark, hsuite, bind, Except.bind]
  rfl

end

/-- A block opens before a line that is indented more. -/
theorem suite_eq_ok {levels indent width : Nat} {b : Blocks} {first : Token}
    (hf : StartsLine width first) (hw : indent < width) {more after : List Token} {body : Block}
    (h : b.block width (first :: more) = .ok (body, after)) :
    suite (nested levels) b indent (first :: more) = .ok (([], body), after) := by
  have hopens : settle indent { opening := true, lineEnd := true, quote := true } first =
      ⟨[], .opens width, first⟩ := settle_opens hf rfl hw
  simp only [suite, hopens, h, bind, Except.bind]
  rfl

/-! ### Conditions and loops -/

section

variable {e : Expr} {pieces : List Piece} (h : Reads e 1 pieces) {tokens : List Token}
  (ht : Spells tokens (shapesOf pieces)) {levels : Nat} (hl : tokens.length ≤ levels)
  {colon : Token} (hs : Snug colon) (hc : shapeOf colon = .sign .colon) (rest : List Token)

include h ht hl hs hc

/-- An expression between the word of a header and its colon. -/
theorem condition_eq_ok (indent : Nat) :
    ∃ phrase closed, phrase.expr = e ∧
      pass indent operandNext (tokens ++ colon :: rest) = .ok ([], closed ++ colon :: rest) ∧
      (nested levels).expression ⟨indent, {}⟩ {} (closed ++ colon :: rest) =
        .ok (phrase, colon :: rest) := by
  obtain ⟨phrase, rfl, hread⟩ := h
  obtain ⟨closed, hclosed, hpass⟩ := ht.exists_pass hread.ne_nil
  exact ⟨phrase, closed, rfl, hpass _ _ _, hread.expression_eq_ok hclosed (ht.length_eq ▸ hl)
    (Nat.zero_le 1) (follows_colon hs hc _) (by decide) (.inl (Nat.le_refl 1))⟩

variable {rest} {indent : Nat} {b : Blocks} {body : Block} {after last : List Token}
  (hsuite : suite (nested levels) b indent rest = .ok (([], body), after))

include hsuite

theorem ifStatement_eq_ok {further : List Branch}
    (hmore : branches (nested levels) b indent after.length [] after = .ok (further, last)) :
    ∃ phrase : Phrase, phrase.expr = e ∧
      ifStatement (nested levels) b indent (tokens ++ colon :: rest) =
        .ok (.if phrase body further, last) := by
  obtain ⟨phrase, closed, he, hpass, hread⟩ := condition_eq_ok h ht hl hs hc rest indent
  refine ⟨phrase, he, ?_⟩
  simp only [ifStatement, hpass, hread, colonSuite_eq_ok hs hc hsuite, hmore, bind, Except.bind]
  rfl

theorem whileStatement_eq_ok {orelse : Option Block}
    (hmore : elseClause (nested levels) b indent after = .ok (orelse, last)) :
    ∃ phrase : Phrase, phrase.expr = e ∧
      whileStatement (nested levels) b indent (tokens ++ colon :: rest) =
        .ok (.while phrase body (orelse.getD []), last) := by
  obtain ⟨phrase, closed, he, hpass, hread⟩ := condition_eq_ok h ht hl hs hc rest indent
  refine ⟨phrase, he, ?_⟩
  simp only [whileStatement, hpass, hread, colonSuite_eq_ok hs hc hsuite, hmore, bind, Except.bind]
  rfl

end

/-- A loop over what an expression gives. -/
theorem forStatement_eq_ok {target : Target} {pieces pieces' : List Piece}
    (h : ReadsTarget target pieces) {e : Expr} (h' : Reads e 1 pieces') {tokens : List Token}
    (ht : Spells tokens (shapesOf (pieces ++ apart (.word "in") :: spaced pieces'))) {levels : Nat}
    (hl : tokens.length ≤ levels) {indent : Nat} {colon : Token} (hs : Snug colon)
    (hc : shapeOf colon = .sign .colon) {rest after last : List Token} {b : Blocks} {body : Block}
    (hsuite : suite (nested levels) b indent rest = .ok (([], body), after))
    {orelse : Option Block}
    (hmore : elseClause (nested levels) b indent after = .ok (orelse, last)) :
    ∃ phrase phrase' : Phrase, phrase.target = target ∧ phrase'.expr = e ∧
      forStatement (nested levels) b indent (tokens ++ colon :: rest) =
        .ok (.for phrase phrase' body (orelse.getD []), last) := by
  obtain ⟨phrase, hread, hpattern, rfl⟩ := h
  obtain ⟨phrase', rfl, hread'⟩ := h'
  rw [shapesOf_append, shapesOf_cons, shapesOf_spaced] at ht
  have hlen := ht.length_eq
  simp only [List.length_append] at hlen
  obtain ⟨closed, hclosed, hpass⟩ := ht.exists_pass
    (List.append_ne_nil_of_left_ne_nil hread.ne_nil _)
  obtain ⟨before, behind, rfl, hbefore, hbehind⟩ := hclosed.append_inv
  obtain ⟨word, tail, rfl, hword, hshape, htail⟩ := hbehind.cons_inv
  obtain ⟨iter, hiter, hpass'⟩ := htail.exists_pass hread'.ne_nil
  have hin : word.isWord "in" = true := isWord_of_word hshape "in"
  have htargets := targets_eq_ok hread hpattern hbefore (show _ ≤ levels by omega)
    ⟨indent, {}⟩ hword hshape (tail ++ colon :: rest)
  have hending : Ending ⟨indent, {}⟩ (colon :: rest) := .colon hs hc
  have hseries := series_eq_ok hread' hiter (show _ ≤ levels by omega) hending
  refine ⟨phrase, phrase', rfl, rfl, ?_⟩
  simp only [forStatement, hpass, List.append_assoc, List.cons_append, htargets,
    passWord_of_snug hword _ _ _ hin, hpass', hseries, colonSuite_eq_ok hs hc hsuite, hmore, bind,
    Except.bind]
  rfl

/-! ### Functions -/

/-- Shapes of a parameter, without or with a default, and what it is read as. -/
inductive Parametric : List Shape → Parameter → Prop where
  | plain (name : String) : Parametric [.word name] (.plain name)
  | defaulted (name : String) {shapes : List Shape} {phrase : Phrase} (h : Readable 1 shapes phrase) :
      Parametric (.word name :: .sign .assign :: shapes) (.defaulted name phrase)

theorem Parametric.exists_cons {shapes : List Shape} {found : Parameter}
    (h : Parametric shapes found) : ∃ name more, shapes = .word name :: more := by
  cases h <;> exact ⟨_, _, rfl⟩

theorem parameter_eq_ok {shapes : List Shape} {found : Parameter} (h : Parametric shapes found)
    {tokens : List Token} (ht : Spells tokens shapes) {levels : Nat} (hl : shapes.length ≤ levels)
    (place : Place) {rest : List Token} (hr : Closes .rparen rest) :
    parameter (nested levels) place true (tokens ++ rest) = .ok (found, rest) := by
  have hfollows : Follows place 1 rest := hr.follows isCloser_rparen place
  have hcolon : peekSymbol place.indent place.viable .colon rest = false := by
    obtain ⟨token, rest, rfl, hs, hshape | hshape⟩ := hr <;>
    · rw [peekSymbol_of_snug hs, isSymbol_of_sign hshape]
      rfl
  have hassign : peekSymbol place.indent place.viable .assign rest = false :=
    hfollows.peekSymbol_eq_false (by decide)
  cases h with
  | plain name =>
    obtain ⟨word, rfl, -, hshape⟩ := ht.single_inv
    have hlexeme : word.lexeme = .word := congrArg Prod.fst hshape
    obtain rfl : word.text = name := congrArg Prod.snd hshape
    simp only [List.singleton_append, parameter, hlexeme, parameterTail, hcolon, hassign,
      Bool.and_false, Bool.false_eq_true, if_false, bind, Except.bind, pure, Except.pure]
  | @defaulted name shapes phrase h =>
    obtain ⟨word, tail, rfl, -, hshape, htail⟩ := ht.cons_inv
    obtain ⟨mark, value, rfl, hmark, hmarkShape, hvalue⟩ := htail.cons_inv
    obtain ⟨closed, hclosed, hpass⟩ := hvalue.exists_pass h.ne_nil
    have hlexeme : word.lexeme = .word := congrArg Prod.fst hshape
    obtain rfl : word.text = name := congrArg Prod.snd hshape
    have his : mark.isSymbol .assign = true := isSymbol_of_sign hmarkShape .assign
    have hno : mark.isSymbol .colon = false := isSymbol_of_sign hmarkShape .colon
    have hread : (nested levels).expression place {} (closed ++ rest) = .ok (phrase, rest) := by
      refine h.expression_eq_ok hclosed ?_ (Nat.zero_le 1) hfollows (by decide) (.inl (Nat.le_refl 1))
      simp only [List.length_cons] at hl
      omega
    simp only [List.cons_append, parameter, hlexeme, parameterTail, peekSymbol_of_snug hmark, hno,
      his, Bool.and_false, Bool.false_eq_true, if_false, if_true, bind, Except.bind, pure,
      Except.pure, passSymbol_of_snug hmark _ _ _ his, hpass, hread]

/-- Parameters are read up to the closing parenthesis. -/
theorem parameters_eq_ok {levels : Nat} (place : Place) {closer : Token} (hs : Snug closer)
    (hc : shapeOf closer = .sign .rparen) (rest : List Token) {items : List (List Shape)}
    {more : List Parameter} (hi : List.Forall₂ Parametric items more) :
    ∀ {shapes : List Shape} {found : Parameter}, Parametric shapes found →
      (shapes ++ behindCommas items).length ≤ levels → ∀ tokens,
        Spells tokens (shapes ++ behindCommas items) → ∀ fuel, items.length < fuel → ∀ before,
          parameters (nested levels) place true .rparen fuel before (tokens ++ closer :: rest) =
            .ok (before ++ found :: more, closer :: rest) := by
  have hend : Closes .rparen (closer :: rest) := ⟨closer, rest, rfl, hs, .inr hc⟩
  induction hi with
  | nil =>
    intro shapes found h hl tokens ht fuel hfuel before
    obtain ⟨fuel, rfl⟩ := Nat.exists_eq_succ_of_ne_zero (Nat.ne_zero_of_lt hfuel)
    have hno : closer.isSymbol .comma = false := isSymbol_of_sign hc .comma
    have hnil : shapes ++ behindCommas [] = shapes := List.append_nil shapes
    rw [hnil] at hl ht
    simp only [parameters, parameter_eq_ok h ht hl place hend, peekSymbol_of_snug hs, hno,
      Bool.false_eq_true, if_false, bind, Except.bind]
    rfl
  | @cons item next items more hnext hi ih =>
    intro shapes found h hl tokens ht fuel hfuel before
    obtain ⟨fuel, rfl⟩ := Nat.exists_eq_succ_of_ne_zero (Nat.ne_zero_of_lt hfuel)
    rw [behindCommas_cons] at hl ht
    obtain ⟨first, behind, rfl, hfirst, hbehind⟩ := ht.append_inv
    obtain ⟨comma, tail, rfl, hcomma, hshape, htail⟩ := hbehind.cons_inv
    rw [List.length_append, List.length_cons] at hl
    have hcloses : Closes .rparen (comma :: (tail ++ closer :: rest)) :=
      ⟨comma, _, rfl, hcomma, .inl hshape⟩
    have hmark : comma.isSymbol .comma = true := isSymbol_of_sign hshape .comma
    obtain ⟨name, others, rfl⟩ := hnext.exists_cons
    obtain ⟨word, tail, rfl, hword, hwordShape, -⟩ := htail.cons_inv
    have hrest := ih hnext (by omega) _ htail.close fuel (Nat.lt_of_succ_lt_succ hfuel)
      (before ++ [found])
    have hno : word.isSymbol .rparen = false := isSymbol_of_word hwordShape _
    rw [List.append_assoc, List.cons_append, parameters,
      parameter_eq_ok h hfirst (by omega) place hcloses]
    rw [List.cons_append] at hrest
    simp only [bind, Except.bind, peekSymbol_of_snug hcomma, hmark, if_true,
      passSymbol_of_snug hcomma _ _ _ hmark, List.cons_append, pass_of_snug hword, close_isSymbol,
      hno, Bool.false_eq_true, if_false, hrest, List.append_assoc, List.nil_append]

/-- An identifier has no stars at its head. -/
theorem dropStars_of_isName {name : String} (h : isName name = true) : dropStars name = name := by
  rw [isName, Bool.and_eq_true] at h
  obtain ⟨c, word, htext, hc, -⟩ := exists_cons_of_isIdentifier h.1
  have hstar : c ≠ '*' := by
    rintro rfl
    revert hc
    decide
  rw [dropStars, htext, List.dropWhile_cons_of_neg (by simpa using hstar), ← htext,
    String.ofList_toList]

/-- Parameters in print are read as parameters that stand for them. -/
theorem params_read (style : Style) (number : Nat) (params : List Param)
    (h : params.all Param.isWritable = true) :
    ∃ found, List.Forall₂ Parametric ((paramsPieces style number params).map shapesOf) found ∧
      paramsOf found = params := by
  induction params generalizing number with
  | nil => exact ⟨[], .nil, rfl⟩
  | cons param params ih =>
    rw [List.all_cons, Bool.and_eq_true] at h
    obtain ⟨found, hfound, hparams⟩ := ih (number + 1) h.2
    obtain ⟨name, default⟩ := param
    rw [Param.isWritable, Bool.and_eq_true] at h
    cases default with
    | none =>
      refine ⟨.plain name :: found, .cons (.plain name) hfound, ?_⟩
      rw [paramsOf, dropStars_of_isName h.1.1, hparams]
    | some value =>
      obtain ⟨phrase, rfl, hread⟩ := printed_reads (style.parens number) h.1.2
      refine ⟨.defaulted name phrase :: found, .cons (.defaulted name hread) hfound, ?_⟩
      rw [paramsOf, hparams]

section

variable {levels indent : Nat} {colon : Token} (hs : Snug colon) (hc : shapeOf colon = .sign .colon)
  {rest after : List Token} {b : Blocks} {body : Block}
  (hsuite : suite (nested levels) b indent rest = .ok (([], body), after))

include hs hc hsuite

/-- The header of a function with its parameters. -/
theorem defineStatement_eq_ok (style : Style) (name : String) {params : List Param}
    (hp : params.all Param.isWritable = true) {tokens : List Token}
    (ht : Spells tokens (shapesOf (close (.word name) :: close (.sign .lparen) ::
      separated (paramsPieces style 0 params) ++ [close (.sign .rparen)])))
    (hl : tokens.length ≤ levels) :
    ∃ found, paramsOf found = params ∧
      defineStatement (nested levels) b indent (tokens ++ colon :: rest) =
        .ok (.define name found body, after) := by
  obtain ⟨found, hfound, hparams⟩ := params_read style 0 params hp
  refine ⟨found, hparams, ?_⟩
  rw [List.cons_append, List.cons_append, shapesOf_cons, shapesOf_cons, shapesOf_append] at ht
  obtain ⟨word, tail, rfl, hword, hshape, htail⟩ :=
    (show Spells tokens (.word name :: .sign .lparen :: (_ ++ [.sign .rparen])) from ht).cons_inv
  obtain ⟨paren, tail, rfl, hparen, hparenShape, htail⟩ := htail.cons_inv
  obtain ⟨listed, last, rfl, hlisted, hlast⟩ := htail.append_inv
  obtain ⟨closer, rfl, hcloser, hcloserShape⟩ := hlast.single_inv
  have hlexeme : word.lexeme = .word := congrArg Prod.fst hshape
  obtain rfl : word.text = name := congrArg Prod.snd hshape
  have hopens : paren.isSymbol .lparen = true := isSymbol_of_sign hparenShape .lparen
  have hbracket : paren.isSymbol .lbracket = false := isSymbol_of_sign hparenShape .lbracket
  have hcloses : closer.isSymbol .rparen = true := isSymbol_of_sign hcloserShape .rparen
  have harrow : colon.isSymbol .arrow = false := isSymbol_of_sign hc .arrow
  have hcolon := colonSuite_eq_ok hs hc hsuite
  have hend : passCloser indent closerNext .rparen (closer :: colon :: rest) =
      .ok ([], colon :: rest) := by
    simp only [passCloser, pass_of_snug hcloser, takeCloser, close_isSymbol, hcloses, if_true, bind,
      Except.bind]
    rfl
  generalize hpieces : paramsPieces style 0 params = pieces at hfound hlisted
  cases pieces with
  | nil =>
    cases hfound
    obtain rfl := hlisted.nil_inv
    simp only [List.nil_append, List.cons_append, defineStatement,
      passName_of_snug hword _ _ _ hlexeme, typeParameters, peekSymbol_of_snug hparen, hbracket,
      Bool.false_eq_true, if_false, passSymbol_of_snug hparen _ _ _ hopens, pass_of_snug hcloser,
      close_isSymbol, hcloses, if_true, bind, Except.bind, pure, Except.pure, passCloser,
      pass_of_snug hcloser.close, takeCloser, peekSymbol_of_snug hs, harrow, hcolon]
  | cons first pieces =>
    rw [List.map_cons] at hfound
    cases hfound with
    | @cons _ param _ others hfirst hmore =>
      rw [shapesOf_separated] at hlisted
      have hlen := hlisted.length_eq
      have hfuel : (pieces.map shapesOf).length < (listed ++ closer :: colon :: rest).length := by
        have hcommas := length_le_behindCommas (pieces.map shapesOf)
        rw [List.length_append] at hlen
        rw [List.length_append, List.length_cons]
        omega
      obtain ⟨given, more, hshapes⟩ := hfirst.exists_cons
      rw [hshapes] at hfirst hlisted hlen
      obtain ⟨start, listed, rfl, hstart, hstartShape, -⟩ := hlisted.cons_inv
      simp only [List.length_cons, List.length_append] at hl hlen
      have hread := parameters_eq_ok ⟨indent, closerNext⟩ hcloser hcloserShape (colon :: rest) hmore
        hfirst (show _ ≤ levels by simp only [List.length_cons, List.length_append]; omega) _
        hlisted.close _ hfuel []
      have hno : start.isSymbol .rparen = false := isSymbol_of_word hstartShape _
      have hbegins : defineStatement.beginsParameter start.close = true := by
        rw [defineStatement.beginsParameter, close_lexeme,
          show start.lexeme = .word from congrArg Prod.fst hstartShape]
      simp only [List.cons_append, List.length_cons] at hread
      simp only [List.cons_append, List.append_assoc, List.nil_append, defineStatement,
        passName_of_snug hword _ _ _ hlexeme, typeParameters, peekSymbol_of_snug hparen, hbracket,
        Bool.false_eq_true, if_false, passSymbol_of_snug hparen _ _ _ hopens, pass_of_snug hstart,
        close_isSymbol, hno, hbegins, if_true, bind, Except.bind, pure, Except.pure,
        List.length_cons, hread, hend, peekSymbol_of_snug hs, harrow, hcolon]

/-- The header of a class without bases, or with its bases as arguments. -/
theorem classStatement_eq_ok (extra : Redundance) (name : String) {bases : List Expr}
    (hb : allWritable bases = true) {tokens : List Token}
    (ht : Spells tokens (shapesOf (close (.word name) ::
      if bases.isEmpty then []
      else close (.sign .lparen) :: separated (printedItems extra 0 bases) ++
        [close (.sign .rparen)])))
    (hl : tokens.length ≤ levels) :
    ∃ args, positional args ++ (keywords args).map (·.2) = bases ∧
      classStatement (nested levels) b indent (tokens ++ colon :: rest) =
        .ok (.class name args body, after) := by
  obtain ⟨word, tail, rfl, hword, hshape, htail⟩ :=
    (show Spells tokens (.word name :: shapesOf _) from ht).cons_inv
  have hlexeme : word.lexeme = .word := congrArg Prod.fst hshape
  obtain rfl : word.text = name := congrArg Prod.snd hshape
  have hcolon := colonSuite_eq_ok hs hc hsuite
  split at htail
  · rename_i hempty
    obtain rfl := List.isEmpty_iff.mp hempty
    obtain rfl := htail.nil_inv
    have hno (symbol : Symbol) (hne : Symbol.colon ≠ symbol) : colon.isSymbol symbol = false :=
      (isSymbol_of_sign hc symbol).trans (decide_eq_false hne)
    refine ⟨[], rfl, ?_⟩
    simp only [List.nil_append, List.cons_append, classStatement,
      passName_of_snug hword _ _ _ hlexeme, typeParameters, peekSymbol_of_snug hs,
      hno .lbracket (by decide), hno .lparen (by decide), Bool.false_eq_true, if_false, bind,
      Except.bind, pure, Except.pure, hcolon]
  · obtain ⟨phrases, rfl, hread⟩ := items_read extra 0 bases hb
    obtain ⟨hargs, hkwargs⟩ := positional_of_readable hread []
    have harguments := arguments_of_forall₂ (hread.imp fun _ _ h => Argument.positional h)
    rw [List.cons_append, shapesOf_cons, shapesOf_append] at htail
    obtain ⟨paren, tail, rfl, hparen, hparenShape, htail⟩ :=
      (show Spells tail (.sign .lparen :: (_ ++ [.sign .rparen])) from htail).cons_inv
    have hlen := htail.length_eq
    simp only [List.length_append, List.length_cons] at hlen hl
    have hlist := harguments.eq_ok htail levels (by omega) indent false (colon :: rest)
    have hopens : paren.isSymbol .lparen = true := isSymbol_of_sign hparenShape .lparen
    have hbracket : paren.isSymbol .lbracket = false := isSymbol_of_sign hparenShape .lbracket
    rw [List.append_nil] at hargs hkwargs
    refine ⟨phrases, ?_, ?_⟩
    · rw [hargs, hkwargs]
      exact (List.append_nil _).trans (List.append_nil _)
    · simp only [List.cons_append, classStatement, passName_of_snug hword _ _ _ hlexeme,
        typeParameters, peekSymbol_of_snug hparen, hbracket, hopens, Bool.false_eq_true, if_false,
        if_true, passSymbol_of_snug hparen _ _ _ hopens, hlist, bind, Except.bind, pure, Except.pure,
        hcolon]

end

end Marksheet.Grammar
