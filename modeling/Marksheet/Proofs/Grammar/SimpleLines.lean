import Marksheet.Grammar.Program
import Marksheet.Proofs.Grammar.LineStart
import Marksheet.Proofs.Grammar.Printed

/-!
# Simple statements are read

A simple statement is read up to the end of its line. A line with an expression or an
assignment may begin with a word that also begins a statement of another kind; it is
enough that the reading as that kind fails.
-/

namespace Marksheet.Grammar

open Marksheet.Source Marksheet.Syntax

/-! ### Series at their end -/

/-- Nothing goes on a series of expressions: the line ends, or a colon comes. -/
inductive Ending (place : Place) : List Token → Prop where
  | lineEnd {tokens : List Token}
      (h : ∀ quote, ahead place.indent { place.viable with quote } tokens = none) :
      Ending place tokens
  | colon {token : Token} {rest : List Token} (hs : Snug token)
      (hc : shapeOf token = .sign .colon) : Ending place (token :: rest)

theorem Behind.ending {indent : Nat} {rest : List Token} (h : Behind indent rest) :
    Ending (lineOf indent) rest := .lineEnd fun _ => h.ahead_eq_none rfl rfl

section

variable {place : Place} {rest : List Token} (h : Ending place rest)

include h

theorem Ending.follows : Follows place 1 rest := by
  cases h with
  | lineEnd h => exact .ends h
  | colon hs hc => exact .snug hs (by rw [hc]; decide)

theorem Ending.moreExpressions_eq_ok (n : Nested) (level : Level) (fuel : Nat) (comma : Bool)
    (items : List Phrase) :
    moreExpressions n place level fuel comma items rest = .ok ((items, comma), rest) := by
  cases fuel with
  | zero => rfl
  | succ fuel =>
    cases h with
    | lineEnd h => simp only [moreExpressions, h place.viable.quote]
    | colon hs hc =>
      have hcomma := isSymbol_of_sign hc .comma
      simp only [moreExpressions, ahead_of_snug hs, close_isSymbol, hcomma, reduceCtorEq,
        decide_false, Bool.false_eq_true, if_false]

end

section

variable {shapes : List Shape} {phrase : Phrase} (h : Readable 1 shapes phrase)
  {tokens rest : List Token} (ht : Spells tokens shapes) {levels : Nat}
  (hl : shapes.length ≤ levels) {place : Place}

include h ht hl

theorem expressions_eq_ok (hr : Ending place rest) :
    expressions (nested levels) place (tokens ++ rest) = .ok (([phrase], false), rest) := by
  have hread : (nested levels).expression place {} (tokens ++ rest) = .ok (phrase, rest) :=
    h.expression_eq_ok ht hl (Nat.zero_le 1) hr.follows (by decide) (.inl (Nat.le_refl 1))
  simp only [expressions, hread, bind, Except.bind, hr.moreExpressions_eq_ok]

theorem series_eq_ok (hr : Ending place rest) :
    series (nested levels) place (tokens ++ rest) = .ok (phrase, rest) := by
  simp only [series, expressions_eq_ok h ht hl hr, bind, Except.bind]
  rfl

end

/-- An operand can begin like an expression. -/
theorem beginsOperand_of_headStrength {token : Token} (h : 0 < headStrength (shapeOf token)) :
    beginsOperand token = true := by
  obtain ⟨gap, lexeme, text, start, behind⟩ := token
  cases lexeme with
  | word | integer | quoteOpen => rfl
  | symbol symbol =>
    cases symbol with
    | op op => cases op <;> first | rfl | cases h
    | _ => first | rfl | cases h
  | _ => cases h

/-! ### Lines -/

section

variable {levels indent : Nat} {token : Token} {more rest : List Token} {form : Form}

/-- A statement that is read up to the end of its line is complete. -/
theorem complete_eq_ok (hr : Behind indent rest) {reading : Except Stuck (Form × List Token)}
    (h : reading = .ok (form, rest)) : complete indent reading = .ok (form, rest) := by
  simp only [h, complete, bind, Except.bind, hr.endsHere_eq_true, if_true]
  rfl

/-- It is a line by itself. -/
theorem simpleLine_eq_ok (hr : Behind indent rest)
    (h : simpleStatement (nested levels) indent (token :: more) = .ok (form, rest)) (fuel : Nat) :
    simpleLine (nested levels) indent (fuel + 1) [] (token :: more) =
      .ok ([.mk form token.start], rest) := by
  obtain ⟨hs, hw, -, rest⟩ := hr
  simp only [simpleLine, h, bind, Except.bind, settle_lineEnds hs (show lineEndNext.lineEnd = true from rfl) rfl hw]
  rfl

/-- The words that begin a simple statement of their own. -/
def simpleWords : List String := ["pass", "break", "continue", "return", "import", "from"]

/-- A word begins a simple statement, and what stands behind it is read. -/
theorem statement_of_keyword (hr : Behind indent rest) {word : String} (hw : word ∈ simpleWords)
    (ht : shapeOf token = .word word) {reader : Reader Form}
    (hk : keywordStatement? (nested levels) indent word = some reader)
    (h : reader more = .ok (form, rest)) (b : Blocks) :
    statement (nested levels) b indent (token :: more) = .ok ([.mk form token.start], rest) := by
  have hlexeme : token.lexeme = .word := congrArg Prod.fst ht
  have htext : token.text = word := congrArg Prod.snd ht
  have hat : token.isSymbol (.op .matMul) = false := isSymbol_of_word ht _
  have hsimple : simpleStatement (nested levels) indent (token :: more) = .ok (form, rest) := by
    simp only [simpleStatement, hlexeme, if_true, htext, hk, complete_eq_ok hr h]
  have hline := simpleLine_eq_ok hr hsimple more.length
  have hcompound : compound? (nested levels) b indent word = none ∧ word ≠ "async" ∧
      word ≠ "match" := by
    simp only [simpleWords, List.mem_cons, List.not_mem_nil, or_false] at hw
    rcases hw with rfl | rfl | rfl | rfl | rfl | rfl <;> exact ⟨rfl, by decide, by decide⟩
  simp only [statement, hat, Bool.false_eq_true, if_false, hlexeme, if_true, htext, hcompound.1,
    hcompound.2.1, hcompound.2.2, List.length_cons, hline]

/-- The line begins like an expression, and no statement of another kind is read from its head. -/
structure StartsPlain (levels indent : Nat) (token : Token) (more : List Token) : Prop where
  strong : 0 < headStrength (shapeOf token)
  print : token.isWord "print" = true →
    peekSymbol indent { lineEnd := true, quote := true } (.op .rShift) more = false
  type : token.isWord "type" = true → ∃ e, typeAlias (nested levels) indent more = .error e
  «match» : token.isWord "match" = true →
    ∀ b, ∃ e, matchStatement (nested levels) b indent more = .error e

namespace StartsPlain

variable (hs : StartsPlain levels indent token more)

include hs

/-- No expression begins with the word of a statement. -/
theorem text_ne {word : String} (hw : headStrength (.word, word) = 0) (hf : token.lexeme = .word) :
    ¬ token.text = word := by
  rintro rfl
  have hstrong := hs.strong
  rw [shapeOf, hf, hw] at hstrong
  cases hstrong

theorem keywordStatement?_eq_none (hf : token.lexeme = .word) :
    keywordStatement? (nested levels) indent token.text = none := by
  have hne (word : String) (hw : headStrength (.word, word) = 0) := hs.text_ne hw hf
  simp only [keywordStatement?, hne "pass" rfl, hne "break" rfl, hne "continue" rfl,
    hne "return" rfl, hne "del" rfl, hne "assert" rfl, hne "raise" rfl, hne "global" rfl,
    hne "nonlocal" rfl, hne "import" rfl, hne "from" rfl, if_false]

theorem compound?_eq_none (hf : token.lexeme = .word) (b : Blocks) :
    compound? (nested levels) b indent token.text = none := by
  have hne (word : String) (hw : headStrength (.word, word) = 0) := hs.text_ne hw hf
  simp only [compound?, hne "if" rfl, hne "while" rfl, hne "for" rfl, hne "try" rfl,
    hne "with" rfl, hne "def" rfl, hne "class" rfl, if_false]

/-- The reading as an expression statement is the one that counts. -/
theorem simpleStatement_eq_ok (hr : Behind indent rest)
    (h : expressionStatement (nested levels) indent (token :: more) = .ok (form, rest)) :
    simpleStatement (nested levels) indent (token :: more) = .ok (form, rest) := by
  have hplain := complete_eq_ok hr h
  rw [simpleStatement]
  by_cases hf : token.lexeme = .word
  · have hword (word : String) (ht : token.text = word) : token.isWord word = true := by
      rw [Token.isWord, decide_eq_true hf, decide_eq_true ht]
      rfl
    simp only [hf, if_true, hs.keywordStatement?_eq_none hf]
    split_ifs with hprint hshift hexec htype
    · rw [hs.print (hword _ hprint)] at hshift
      cases hshift
    · rw [hplain]
      rfl
    · rw [hplain]
      rfl
    · obtain ⟨e, he⟩ := hs.type (hword _ htype)
      rw [hplain, he]
      rfl
    · exact hplain
  · simp only [hf, if_false, hplain]

/-- The statement is this line. -/
theorem statement_eq_ok (hr : Behind indent rest)
    (h : expressionStatement (nested levels) indent (token :: more) = .ok (form, rest))
    (b : Blocks) :
    statement (nested levels) b indent (token :: more) = .ok ([.mk form token.start], rest) := by
  have hline := simpleLine_eq_ok hr (hs.simpleStatement_eq_ok hr h) more.length
  have hat : token.isSymbol (.op .matMul) = false := isSymbol_eq_false hs.strong (by decide)
  simp only [statement, hat, Bool.false_eq_true, if_false, List.length_cons]
  by_cases hf : token.lexeme = .word
  · have hasync : ¬ token.text = "async" := hs.text_ne rfl hf
    simp only [hf, if_true, hs.compound?_eq_none hf, hasync, if_false]
    split_ifs with hmatch
    · have hword : token.isWord "match" = true := by
        rw [Token.isWord, decide_eq_true hf, decide_eq_true hmatch]
        rfl
      obtain ⟨e, he⟩ := hs.match hword b
      rw [hline, he]
      rfl
    · exact hline
  · simp only [hf, if_false]
    exact hline

end StartsPlain

end

/-! ### Expressions that are statements -/

section

variable {shapes : List Shape} {phrase : Phrase} (h : Readable 1 shapes phrase)
  {token : Token} {tail rest : List Token} (ht : Spells (token :: tail) shapes) {levels : Nat}
  {indent : Nat}

include h ht

theorem head_strong : 0 < headStrength (shapeOf token) := by
  obtain ⟨first, more, hshapes, hfirst⟩ := h.opening.exists_cons
  obtain rfl : shapeOf token = first := (List.cons.inj (ht.shape.trans hshapes)).1
  exact hfirst

/-- What starts plainly among shapes does so among tokens. -/
theorem startsPlain_of_shapes (hp : startsPlainly shapes = true)
    (hr : peekSymbol indent { lineEnd := true, quote := true } (.op .rShift) rest = false) :
    StartsPlain levels indent token (tail ++ rest) := by
  have hstrong := head_strong h ht
  obtain rfl := ht.shape
  have hno {word : String} (hw : token.isWord word = true) :
      word ≠ "match" ∧ word ≠ "type" ∧
        (word = "print" → (tail.map shapeOf).head?.map Prod.fst ≠ some (.symbol (.op .rShift))) := by
    simp only [Token.isWord, Bool.and_eq_true, decide_eq_true_eq] at hw
    obtain ⟨hlexeme, rfl⟩ := hw
    rw [List.map_cons, shapeOf, hlexeme] at hp
    simpa only [startsPlainly, Bool.and_eq_true, bne_iff_ne, Bool.not_eq_true',
      Bool.and_eq_false_imp, beq_iff_eq, beq_eq_false_iff_ne, and_assoc] using hp
  refine ⟨hstrong, fun hw => ?_, fun hw => absurd rfl (hno hw).2.1, fun hw => absurd rfl (hno hw).1⟩
  cases tail with
  | nil => exact hr
  | cons second tail =>
    have hsnug : Snug second := ht.snug second (List.mem_cons_of_mem _ List.mem_cons_self)
    rw [List.cons_append, peekSymbol_of_snug hsnug, Token.isSymbol, decide_eq_false_iff_not]
    exact fun he => (hno hw).2.2 rfl (congrArg some he)

end

/-- An expression alone is no assignment. -/
theorem expressionsOrAssignment_eq_ok {indent : Nat} {rest : List Token} (hr : Behind indent rest)
    {levels : Nat} {shapes : List Shape} {phrase : Phrase}
    (h : Readable 1 shapes phrase) {tokens : List Token} (ht : Spells tokens shapes)
    (hl : shapes.length ≤ levels) (value : Reader Phrase) :
    expressionsOrAssignment (nested levels) indent value (tokens ++ rest) =
      .ok (([phrase], false), rest) := by
  have hread := expressions_eq_ok h ht hl hr.ending
  have hnone : ahead indent lineEndNext rest = none := hr.ahead_eq_none rfl rfl
  obtain ⟨token, tail, rfl⟩ := List.exists_cons_of_ne_nil (ht.ne_nil h.ne_nil)
  have hyield : token.isWord "yield" = false := isWord_eq_false (head_strong h ht) (by decide)
  rw [List.cons_append] at hread ⊢
  simp only [expressionsOrAssignment, hyield, Bool.false_eq_true, if_false, hread, bind, Except.bind,
    hnone]
  rfl

/-- No expression begins with a token that begins no operand. -/
theorem expression_eq_error (levels : Nat) {mark : Token} (h : beginsOperand mark = false)
    (place : Place) (level : Level) (more : List Token) :
    ∃ e, (nested levels).expression place level (mark :: more) = .error e := by
  cases levels with
  | zero => exact ⟨_, rfl⟩
  | succ levels =>
    have hatom : atom (nested levels) place (mark :: more) = stuck (mark :: more) ∧
        sign? mark = none ∧ mark.isSymbol (.op .mul) = false ∧ mark.isSymbol (.op .pow) = false ∧
          ¬ mark.lexeme = .word := by
      obtain ⟨gap, lexeme, text, start, behind⟩ := mark
      cases lexeme with
      | symbol symbol =>
        cases symbol with
        | op op => cases op <;> first | exact ⟨rfl, rfl, rfl, rfl, nofun⟩ | cases h
        | _ => first | exact ⟨rfl, rfl, rfl, rfl, nofun⟩ | cases h
      | _ => first | exact ⟨rfl, rfl, rfl, rfl, nofun⟩ | cases h
    obtain ⟨hatom, hsign, hmul, hpow, hlexeme⟩ := hatom
    have hword (word : String) : mark.isWord word = false := by
      rw [Token.isWord, decide_eq_false hlexeme, Bool.false_and]
    have hprimary : primary (nested levels) place (mark :: more) = stuck (mark :: more) := by
      simp only [primary, hmul, hpow, Bool.or_false, Bool.false_eq_true, if_false, hatom]
      rfl
    refine ⟨_, (?_ : expression (nested levels) place level (mark :: more) = stuck (mark :: more))⟩
    simp only [expression, simpleExpression, hword, hlexeme, decide_false, Bool.false_and,
      Bool.false_eq_true, if_false, comparison, operand, hsign, awaits, Bool.and_false, hprimary,
      bind, Except.bind]
    rfl

/-! ### Lines that are simple statements -/

/-- The pieces of a line are read as a statement of the kind. -/
def ReadsLine (pieces : List Piece) (kind : StmtKind) : Prop :=
  ∀ token tail, Writes (token :: tail) pieces → ∀ levels, (token :: tail).length ≤ levels →
    ∀ indent rest, Behind indent rest → ∀ b, ∃ form,
      statement (nested levels) b indent (token :: (tail ++ rest)) =
        .ok ([.mk form token.start], rest) ∧
      form.kind [] = kind ∧ ∀ start, legacyInForm? start form = none

/-- A word alone. -/
theorem word_readsLine {word : String} {form : Form} (hw : word ∈ simpleWords)
    (hk : ∀ n indent, keywordStatement? n indent word = some fun tokens => .ok (form, tokens))
    (hl : ∀ start, legacyInForm? start form = none) :
    ReadsLine [close (.word word)] (form.kind []) := by
  intro token tail ht levels _ indent rest hr b
  obtain ⟨word, he, -, hshape⟩ := ht.spells.single_inv
  obtain ⟨rfl, rfl⟩ := List.cons.inj he
  exact ⟨form, statement_of_keyword hr hw hshape (hk _ _) rfl b, rfl, hl⟩

theorem keyword_return (n : Nested) (indent : Nat) :
    keywordStatement? n indent "return" = some fun tokens => do
      let (parts, tokens) ← optionalSeries n indent tokens
      return (.return parts, tokens) :=
  rfl

theorem return_readsLine {value : Option Expr} {pieces : List Piece}
    (h : ∀ e, value = some e → Reads e 1 pieces) (hn : value = none → pieces = []) :
    ReadsLine (close (.word "return") :: spaced pieces) (.return value) := by
  intro token tail ht levels hl indent rest hr b
  have hspells := ht.spells
  rw [shapesOf_cons, shapesOf_spaced] at hspells
  obtain ⟨word, more, he, -, hshape, hmore⟩ :=
    (show Spells (token :: tail) (.word "return" :: shapesOf pieces) from hspells).cons_inv
  obtain ⟨rfl, rfl⟩ := List.cons.inj he
  have hkeyword := keyword_return (nested levels) indent
  cases value with
  | none =>
    obtain rfl := hn rfl
    obtain rfl := hmore.nil_inv
    have hnone : ahead indent { lineEnd := true, quote := true } rest = none :=
      hr.ahead_eq_none rfl rfl
    refine ⟨.return [], statement_of_keyword hr (by decide) hshape hkeyword ?_ b, rfl, fun _ => rfl⟩
    simp only [List.nil_append, optionalSeries, hnone, bind, Except.bind]
    rfl
  | some e =>
    obtain ⟨phrase, rfl, hread⟩ := h e rfl
    obtain ⟨first, tail, rfl⟩ := List.exists_cons_of_ne_nil (hmore.ne_nil hread.ne_nil)
    have hlen := hmore.length_eq
    rw [List.length_cons] at hl
    have hseries := series_eq_ok hread hmore.close (show _ ≤ levels by omega) hr.ending
    have hbegins : beginsOperand first.close = true :=
      beginsOperand_of_headStrength (head_strong hread hmore.close)
    refine ⟨.return [phrase], statement_of_keyword hr (by decide) hshape hkeyword ?_ b, ?_,
      fun _ => rfl⟩
    · rw [List.cons_append] at hseries
      simp only [List.cons_append, optionalSeries,
        ahead_of_snug (hmore.snug first List.mem_cons_self), hbegins, if_true, hseries, bind,
        Except.bind]
      rfl
    · simp only [Form.kind, exprs, List.head?_cons]

/-- An expression that can stand alone is a statement. -/
theorem statement_of_isExpression {phrase : Phrase} (h : isExpression phrase = true) :
    phrase.statement = .expr phrase.expr := by
  cases phrase with
  | assignment | augmented => cases h
  | _ => rfl

theorem expr_readsLine {e : Expr} {pieces : List Piece} (h : Reads e 1 pieces)
    (hp : startsPlainly (shapesOf pieces) = true) : ReadsLine pieces (.expr e) := by
  intro token tail ht levels hl indent rest hr b
  obtain ⟨phrase, rfl, hread⟩ := h
  have hspells := ht.spells
  rw [hspells.length_eq] at hl
  have hstatement : expressionStatement (nested levels) indent (token :: (tail ++ rest)) =
      .ok (.expression [phrase], rest) := by
    simp only [expressionStatement, ← List.cons_append,
      expressionsOrAssignment_eq_ok hr hread hspells hl, bind, Except.bind]
    rfl
  refine ⟨_, (startsPlain_of_shapes hread hspells hp
    (hr.peekSymbol_eq_false rfl rfl _)).statement_eq_ok hr hstatement b, ?_,
    fun _ => rfl⟩
  exact statement_of_isExpression hread.plain

end Marksheet.Grammar
