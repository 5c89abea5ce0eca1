import Marksheet.Proofs.Grammar.Blocks

/-!
# Compound statements are read

Each clause of a compound statement is a header and a suite. A clause goes on the
statement if its word begins a line that is indented like the statement; any other line
ends the statement.
-/

namespace Marksheet.Grammar

open Marksheet.Source Marksheet.Syntax

/-! ### Clauses -/

/-- What stands behind the word of a clause: the other pieces of its header, a colon and a suite that
stands for the statements; and what is left behind the suite. -/
inductive Clause (levels : Nat) (b : Blocks) (indent : Nat) (pieces : List Piece) (body : List Stmt) :
    List Token → List Token → Prop where
  | mk {middle inner after : List Token} {colon : Token} {block : Block}
      (hm : Spells middle (shapesOf pieces)) (hl : middle.length ≤ levels) (hs : Snug colon)
      (hc : shapeOf colon = .sign .colon)
      (hsuite : suite (nested levels) b indent inner = .ok (([], block), after))
      (hb : Stands block body) : Clause levels b indent pieces body (middle ++ colon :: inner) after

/-- The lines of a clause, and lines behind them that are not indented more. -/
theorem exists_clause {margin : Margin} {pieces : List Piece} {lines more : List Line}
    {body : List Stmt} (hb : ReadsSuite lines margin.width body)
    (hbegin : BeginsWithout [] margin.width more) {word : String} {tokens : List Token}
    (ht : SpellsLines tokens (⟨margin, header word pieces⟩ :: (lines ++ more))) {levels depth : Nat}
    (hl : tokens.length ≤ levels) (hd : tokens.length ≤ depth) {words : List String}
    {rest : List Token} (hr : Without words margin.width rest) :
    ∃ first tail behind, tokens ++ rest = first :: tail ∧ StartsLine margin.width first ∧
      shapeOf first = .word word ∧ SpellsLines behind more ∧ behind.length < tokens.length ∧
        Clause levels (blocks (nested levels) depth) margin.width pieces body tail (behind ++ rest) := by
  obtain ⟨first, tail, others, rfl, hs, hwrites, hmore⟩ := exists_line ht
  obtain ⟨inner, behind, rfl, hinner, hbehind⟩ := exists_lines hmore
  obtain ⟨closed, middle, colon, he, hshape, hmiddle, hsnug, hcolon⟩ := header_inv hwrites
  obtain ⟨rfl, rfl⟩ := List.cons.inj he
  simp only [List.length_cons, List.length_append] at hl hd ⊢
  obtain ⟨block, hsuite, hblock⟩ := hb inner hinner levels depth (by omega) (by omega)
    (behind ++ rest) (without_of_lines hbegin hbehind (hr.mono (List.nil_subset _)))
  refine ⟨first, middle ++ colon :: (inner ++ (behind ++ rest)), behind, ?_, hs, hshape, hbehind,
    by omega, .mk hmiddle (by omega) hsnug hcolon hsuite hblock⟩
  simp only [List.cons_append, List.append_assoc, List.nil_append]

theorem shapesOf_header (word : String) (pieces : List Piece) :
    shapesOf (header word pieces) = .word word :: (shapesOf pieces ++ [.sign .colon]) := by
  rw [header, List.cons_append, shapesOf_cons, shapesOf_append, shapesOf_spaced]
  rfl

/-- A header begins with its word. -/
theorem beginsWithout_header {words : List String} {word : String} (h : word ∉ words)
    (margin : Margin) (pieces : List Piece) (lines : List Line) :
    BeginsWithout words margin.width (⟨margin, header word pieces⟩ :: lines) := by
  refine .cons ⟨margin, header word pieces⟩ (shapesOf_header word pieces) (fun other hm he => ?_) lines
  obtain rfl : word = other := congrArg Prod.snd he
  exact h hm

/-- A statement begins with a word that begins a compound one. -/
theorem statement_of_compound {n : Nested} {b : Blocks} {indent : Nat} {token : Token}
    {more rest : List Token} {form : Form} {word : String} (ht : shapeOf token = .word word)
    {reader : Reader Form} (hk : compound? n b indent word = some reader)
    (h : reader more = .ok (form, rest)) :
    statement n b indent (token :: more) = .ok ([.mk form token.start], rest) := by
  have hlexeme : token.lexeme = .word := congrArg Prod.fst ht
  obtain rfl : token.text = word := congrArg Prod.snd ht
  have hat : token.isSymbol (.op .matMul) = false := isSymbol_of_word ht _
  simp only [statement, hat, Bool.false_eq_true, if_false, hlexeme, if_true, hk, h, bind, Except.bind]
  rfl

/-- A compound statement is read if its reader reads what stands behind its word: its first clause, and
the lines behind the suite. -/
theorem readsStatement_of_clauses {margin : Margin} {word : String} {pieces : List Piece}
    {lines more : List Line} {body : List Stmt} {kind : StmtKind}
    (hb : ReadsSuite lines margin.width body) (hbegin : BeginsWithout [] margin.width more)
    (h : ∀ levels depth tail behind rest,
      Clause levels (blocks (nested levels) depth) margin.width pieces body tail (behind ++ rest) →
        SpellsLines behind more → behind.length ≤ levels → behind.length ≤ depth →
          Behind margin.width rest → ∃ form reader,
            compound? (nested levels) (blocks (nested levels) depth) margin.width word = some reader ∧
              reader tail = .ok (form, rest) ∧ StandsFor form kind) :
    ReadsStatement (⟨margin, header word pieces⟩ :: (lines ++ more)) margin.width kind := by
  intro first tail hspells levels depth hl hd rest hr
  obtain ⟨other, tail', behind, he, -, hshape, hbehind, hlen, hclause⟩ :=
    exists_clause hb hbegin hspells hl hd hr
  rw [List.cons_append] at he
  obtain ⟨rfl, htail⟩ := List.cons.inj he
  obtain ⟨form, reader, hreader, hread, hform⟩ :=
    h levels depth tail' behind rest hclause hbehind (by omega) (by omega) hr
  refine ⟨form, ?_, hform⟩
  rw [htail]
  exact statement_of_compound hshape hreader hread

/-- A statement on one line. -/
theorem readsStatement_of_line {pieces : List Piece} {kind : StmtKind} (h : ReadsLine pieces kind)
    (margin : Margin) : ReadsStatement [⟨margin, pieces⟩] margin.width kind := by
  intro first tail ht levels depth hl _ rest hr
  obtain ⟨other, tail', more, he, -, hwrites, hmore⟩ := exists_line ht
  cases hmore
  rw [List.append_nil] at he
  obtain ⟨rfl, rfl⟩ := List.cons.inj he
  obtain ⟨form, hread, hform, hmodern⟩ := h first.close tail hwrites levels hl _ rest hr
    (blocks (nested levels) depth)
  exact ⟨form, hread, by rw [hform], hmodern⟩

/-- The word of a clause at the head of a line. -/
theorem clauseWord?_of_line {indent : Nat} {first : Token} (hs : StartsLine indent first)
    (word : String) (rest : List Token) :
    clauseWord? indent word (first :: rest) =
      if first.isWord word then some (first.close, rest) else none := by
  rw [clauseWord?, ahead_of_goesOn hs rfl]
  rfl

/-- Something comes behind lines, if only the end of the text. -/
theorem Without.length_lt {words : List String} {indent : Nat} {rest : List Token}
    (h : Without words indent rest) (tokens : List Token) :
    tokens.length < (tokens ++ rest).length := by
  obtain ⟨-, -, -, rest⟩ := h
  rw [List.length_append, List.length_cons]
  omega

/-- No clause of the word goes on a statement before lines without it. -/
theorem ahead_of_without {words : List String} {indent : Nat} {rest : List Token}
    (h : Without words indent rest) {word : String} (hw : word ∈ words) :
    ahead indent (clauseNext indent) rest = none ∨
      ∃ token more, ahead indent (clauseNext indent) rest = some ([], token, more) ∧
        token.isWord word = false := by
  obtain @⟨width, token, hs, hle, hc, rest⟩ := h
  rcases Nat.eq_or_lt_of_le hle with rfl | hlt
  · exact .inr ⟨token.close, rest, ahead_of_goesOn hs rfl rest, hc rfl word hw⟩
  · exact .inl (ahead_of_closes hs (decide_eq_true (Nat.zero_lt_of_lt hlt)) hlt rest)

theorem clauseWord?_of_without {words : List String} {indent : Nat} {rest : List Token}
    (h : Without words indent rest) {word : String} (hw : word ∈ words) :
    clauseWord? indent word rest = none := by
  rcases ahead_of_without h hw with hnone | ⟨token, more, hsome, hno⟩
  · simp only [clauseWord?, hnone]
  · simp only [clauseWord?, hsome, hno, Bool.false_eq_true, if_false]

/-! ### Optional clauses -/

/-- A clause of a word alone, if there are statements for it. -/
theorem exists_optional {margin : Margin} {word : String} {body : List Stmt} {lines : List Line}
    (hb : body ≠ [] → ReadsSuite lines margin.width body) {tokens : List Token}
    (ht : SpellsLines tokens (optionalClause margin word body lines)) {levels depth : Nat}
    (hl : tokens.length ≤ levels) (hd : tokens.length ≤ depth) {words : List String}
    {rest : List Token} (hr : Without words margin.width rest) :
    body = [] ∧ tokens = [] ∨ ∃ first tail block, tokens ++ rest = first :: tail ∧
      StartsLine margin.width first ∧ shapeOf first = .word word ∧ Stands block body ∧
        colonSuite (nested levels) (blocks (nested levels) depth) margin.width tail =
          .ok (([], block), rest) := by
  rw [optionalClause] at ht
  split at ht
  · rename_i hempty
    cases ht
    exact .inl ⟨List.isEmpty_iff.mp hempty, rfl⟩
  · rename_i hsome
    rw [← List.append_nil lines] at ht
    obtain ⟨first, tail, behind, he, hs, hshape, hbehind, -, hclause⟩ :=
      exists_clause (hb fun he => hsome (List.isEmpty_iff.mpr he)) (.nil _ _) ht hl hd hr
    cases hbehind
    obtain ⟨hmiddle, -, hsnug, hcolon, hsuite, hblock⟩ := hclause
    obtain rfl := hmiddle.nil_inv
    exact .inr ⟨first, _, _, he, hs, hshape, hblock, colonSuite_eq_ok hsnug hcolon hsuite⟩

/-- The lines are read as an else clause, or as none. -/
def ReadsElse (lines : List Line) (indent : Nat) (orelse : List Stmt) : Prop :=
  ∀ tokens, SpellsLines tokens lines → ∀ levels depth, tokens.length ≤ levels →
    tokens.length ≤ depth → ∀ rest, Without ["else"] indent rest → ∃ found,
      elseClause (nested levels) (blocks (nested levels) depth) indent (tokens ++ rest) =
        .ok (found, rest) ∧ Stands (found.getD []) orelse

theorem readsElse_optional {margin : Margin} {orelse : List Stmt} {lines : List Line}
    (h : orelse ≠ [] → ReadsSuite lines margin.width orelse) :
    ReadsElse (optionalClause margin "else" orelse lines) margin.width orelse := by
  intro tokens ht levels depth hl hd rest hr
  rcases exists_optional h ht hl hd hr with
    ⟨rfl, rfl⟩ | ⟨first, tail, block, he, hs, hshape, hblock, hcolon⟩
  · refine ⟨none, ?_, .nil⟩
    simp only [List.nil_append, elseClause, clauseWord?_of_without hr List.mem_cons_self]
  · have hword : first.isWord "else" = true := isWord_of_word hshape "else"
    refine ⟨some block, ?_, hblock⟩
    simp only [he, elseClause, clauseWord?_of_line hs, hword, if_true, hcolon, bind, Except.bind]
    rfl

theorem beginsWithout_optional {words : List String} {word : String} (h : word ∉ words)
    (margin : Margin) (body : List Stmt) (lines : List Line) :
    BeginsWithout words margin.width (optionalClause margin word body lines) := by
  rw [optionalClause]
  split
  · exact .nil _ _
  · exact beginsWithout_header h margin [] lines

/-! ### Conditionals -/

/-- The further branches stand for the else-branch. -/
structure StandsForBranches (further : List Branch) (orelse : List Stmt) : Prop where
  same : unlinedStmts (branchStmts further) = unlinedStmts orelse
  modern : legacyInBranches? further = none

/-- The lines are read as the further branches of a conditional. -/
def ReadsBranches (lines : List Line) (indent : Nat) (orelse : List Stmt) : Prop :=
  ∀ tokens, SpellsLines tokens lines → ∀ levels depth, tokens.length ≤ levels →
    tokens.length ≤ depth → ∀ rest, Behind indent rest → ∀ fuel, tokens.length < fuel → ∀ found,
      ∃ further, branches (nested levels) (blocks (nested levels) depth) indent fuel found
        (tokens ++ rest) = .ok (found ++ further, rest) ∧ StandsForBranches further orelse

/-- An else clause is the last branch. -/
theorem readsBranches_of_else {lines : List Line} {indent : Nat} {orelse : List Stmt}
    (h : ReadsElse lines indent orelse) (hb : BeginsWithout ["elif"] indent lines) :
    ReadsBranches lines indent orelse := by
  intro tokens ht levels depth hl hd rest hr fuel hfuel found
  obtain ⟨fuel, rfl⟩ := Nat.exists_eq_succ_of_ne_zero (Nat.ne_zero_of_lt hfuel)
  obtain ⟨last, hread, hlast⟩ := h tokens ht levels depth hl hd rest (hr.mono (by decide))
  have hnone := clauseWord?_of_without (without_of_lines hb ht (hr.mono (by decide)))
    (List.mem_singleton_self "elif")
  cases last with
  | none =>
    refine ⟨[], ?_, hlast.same, rfl⟩
    simp only [branches, hnone, hread, bind, Except.bind, List.append_nil]
    rfl
  | some block =>
    refine ⟨[.else block], ?_, ?_, ?_⟩
    · simp only [branches, hnone, hread, bind, Except.bind]
      rfl
    · rw [branchStmts]
      exact hlast.same
    · rw [legacyInBranches?, legacyInBranches?, Option.or_none]
      exact hlast.modern

/-- A branch with a condition, and the branches behind it. -/
theorem readsBranches_elif {margin : Margin} {test : Expr} {pieces : List Piece}
    (ht : Reads test 1 pieces) {lines more : List Line} {body orelse : List Stmt}
    (hb : ReadsSuite lines margin.width body) (hm : ReadsBranches more margin.width orelse)
    (hbegin : BeginsWithout [] margin.width more) (line : Nat) :
    ReadsBranches (⟨margin, header "elif" pieces⟩ :: (lines ++ more)) margin.width
      [.mk (.if test body orelse) line] := by
  intro tokens hspells levels depth hl hd rest hr fuel hfuel found
  obtain ⟨fuel, rfl⟩ := Nat.exists_eq_succ_of_ne_zero (Nat.ne_zero_of_lt hfuel)
  obtain ⟨first, tail, behind, he, hs, hshape, hbehind, hlen, hclause⟩ :=
    exists_clause hb hbegin hspells hl hd hr
  obtain @⟨middle, inner, _, colon, block, hmiddle, hlm, hsnug, hcolon, hsuite, hblock⟩ := hclause
  have helif : first.isWord "elif" = true := isWord_of_word hshape "elif"
  obtain ⟨phrase, closed, rfl, hpass, hread⟩ :=
    condition_eq_ok ht hmiddle hlm hsnug hcolon inner margin.width
  obtain ⟨further, hfurther, hbranches⟩ := hm behind hbehind levels depth (by omega) (by omega) rest
    hr fuel (by omega) (found ++ [.elif first.start phrase block])
  refine ⟨.elif first.start phrase block :: further, ?_, ?_, ?_⟩
  · simp only [he, branches, clauseWord?_of_line hs, helif, if_true, hpass, hread,
      colonSuite_eq_ok hsnug hcolon hsuite, bind, Except.bind]
    exact hfurther.trans (by rw [List.append_assoc, List.singleton_append])
  · simp only [branchStmts, unlinedStmts, StmtKind.unlined, hblock.same, hbranches.same]
  · rw [legacyInBranches?, hblock.modern, Option.none_or, hbranches.modern]

theorem readsStatement_if {margin : Margin} {test : Expr} {pieces : List Piece}
    (ht : Reads test 1 pieces) {lines more : List Line} {body orelse : List Stmt}
    (hb : ReadsSuite lines margin.width body) (hm : ReadsBranches more margin.width orelse)
    (hbegin : BeginsWithout [] margin.width more) :
    ReadsStatement (⟨margin, header "if" pieces⟩ :: (lines ++ more)) margin.width
      (.if test body orelse) := by
  refine readsStatement_of_clauses hb hbegin
    fun levels depth tail behind rest hclause hbehind hlevels hdepth hr => ?_
  obtain ⟨hmiddle, hlm, hsnug, hcolon, hsuite, hblock⟩ := hclause
  obtain ⟨further, hfurther, hbranches⟩ := hm behind hbehind levels depth hlevels hdepth rest hr _
    (hr.length_lt behind) []
  obtain ⟨phrase, rfl, hread⟩ :=
    ifStatement_eq_ok ht hmiddle hlm hsnug hcolon hsuite hfurther
  refine ⟨.if phrase _ further, _, rfl, hread, ?_, fun start => ?_⟩
  · simp only [Form.kind, StmtKind.unlined, hblock.same, hbranches.same]
  · rw [legacyInForm?, hblock.modern, Option.none_or, hbranches.modern]

/-! ### Loops -/

section

variable {margin : Margin} {lines more : List Line} {body orelse : List Stmt}
  (hb : ReadsSuite lines margin.width body) (hm : ReadsElse more margin.width orelse)
  (hbegin : BeginsWithout [] margin.width more)

include hb hm hbegin

theorem readsStatement_while {test : Expr} {pieces : List Piece} (ht : Reads test 1 pieces) :
    ReadsStatement (⟨margin, header "while" pieces⟩ :: (lines ++ more)) margin.width
      (.while test body orelse) := by
  refine readsStatement_of_clauses hb hbegin
    fun levels depth tail behind rest hclause hbehind hlevels hdepth hr => ?_
  obtain ⟨hmiddle, hlm, hsnug, hcolon, hsuite, hblock⟩ := hclause
  obtain ⟨last, hlast, helse⟩ := hm behind hbehind levels depth hlevels hdepth rest
    (hr.mono (by decide))
  obtain ⟨phrase, rfl, hread⟩ := whileStatement_eq_ok ht hmiddle hlm hsnug hcolon hsuite hlast
  refine ⟨_, _, rfl, hread, ?_, fun start => ?_⟩
  · simp only [Form.kind, StmtKind.unlined, hblock.same, helse.same]
  · rw [legacyInForm?, hblock.modern, Option.none_or, helse.modern]

theorem readsStatement_for {target : Target} {pieces pieces' : List Piece}
    (ht : ReadsTarget target pieces) {iter : Expr} (hi : Reads iter 1 pieces') :
    ReadsStatement
      (⟨margin, header "for" (pieces ++ apart (.word "in") :: spaced pieces')⟩ :: (lines ++ more))
      margin.width (.for target iter body orelse) := by
  refine readsStatement_of_clauses hb hbegin
    fun levels depth tail behind rest hclause hbehind hlevels hdepth hr => ?_
  obtain ⟨hmiddle, hlm, hsnug, hcolon, hsuite, hblock⟩ := hclause
  obtain ⟨last, hlast, helse⟩ := hm behind hbehind levels depth hlevels hdepth rest
    (hr.mono (by decide))
  obtain ⟨phrase, phrase', rfl, rfl, hread⟩ :=
    forStatement_eq_ok ht hi hmiddle hlm hsnug hcolon hsuite hlast
  refine ⟨_, _, rfl, hread, ?_, fun start => ?_⟩
  · simp only [Form.kind, StmtKind.unlined, hblock.same, helse.same]
  · rw [legacyInForm?, hblock.modern, Option.none_or, helse.modern]

end

/-! ### Definitions and contexts -/

/-- A statement of one clause is read if its header is. -/
theorem readsStatement_of_clause {margin : Margin} {lines : List Line} {body : List Stmt}
    (hb : ReadsSuite lines margin.width body) {word : String} {pieces : List Piece} {kind : StmtKind}
    (h : ∀ levels b tail after, Clause levels b margin.width pieces body tail after →
      ∃ form reader, compound? (nested levels) b margin.width word = some reader ∧
        reader tail = .ok (form, after) ∧ StandsFor form kind) :
    ReadsStatement (⟨margin, header word pieces⟩ :: lines) margin.width kind := by
  have hread : ReadsStatement (⟨margin, header word pieces⟩ :: (lines ++ [])) margin.width kind := by
    refine readsStatement_of_clauses hb (.nil _ _)
      fun levels depth tail behind rest hclause hbehind _ _ _ => ?_
    cases hbehind
    exact h levels _ tail rest hclause
  rwa [List.append_nil] at hread

section

variable {margin : Margin} {lines : List Line} {body : List Stmt}
  (hb : ReadsSuite lines margin.width body) (style : Style)

include hb

theorem readsStatement_functionDef (name : String) {params : List Param}
    (hp : params.all Param.isWritable = true) :
    ReadsStatement (⟨margin, functionPieces style name params⟩ :: lines) margin.width
      (.functionDef name params [] body) := by
  refine readsStatement_of_clause hb fun levels b tail after hclause => ?_
  obtain ⟨hmiddle, hlm, hsnug, hcolon, hsuite, hblock⟩ := hclause
  obtain ⟨found, rfl, hread⟩ :=
    defineStatement_eq_ok hsnug hcolon hsuite style name hp hmiddle hlm
  refine ⟨_, _, rfl, hread, ?_, fun start => ?_⟩
  · simp only [Form.kind, StmtKind.unlined, hblock.same]
  · rw [legacyInForm?, hblock.modern]

theorem readsStatement_classDef (name : String) {bases : List Expr} (h : allWritable bases = true) :
    ReadsStatement (⟨margin, classPieces style name bases⟩ :: lines) margin.width
      (.classDef name bases [] body) := by
  refine readsStatement_of_clause hb fun levels b tail after hclause => ?_
  obtain ⟨hmiddle, hlm, hsnug, hcolon, hsuite, hblock⟩ := hclause
  obtain ⟨args, rfl, hread⟩ :=
    classStatement_eq_ok hsnug hcolon hsuite (style.parens 0) name h hmiddle hlm
  refine ⟨_, _, rfl, hread, ?_, fun start => ?_⟩
  · simp only [Form.kind, StmtKind.unlined, hblock.same]
  · rw [legacyInForm?, hblock.modern]

theorem readsStatement_with {items : List WithItem} (hne : items ≠ [])
    (hi : ∀ item ∈ items, item.isWritable = true) :
    ReadsStatement (⟨margin, header "with" (separated (itemsPieces style 0 items))⟩ :: lines)
      margin.width (.with items body) := by
  refine readsStatement_of_clause hb fun levels b tail after hclause => ?_
  obtain ⟨hmiddle, hlm, hsnug, hcolon, hsuite, hblock⟩ := hclause
  obtain ⟨phrases, rfl, hread⟩ :=
    withStatement_eq_ok style hne hi hmiddle hlm hsnug hcolon hsuite
  refine ⟨_, _, rfl, hread, ?_, fun start => ?_⟩
  · simp only [Form.kind, StmtKind.unlined, hblock.same]
  · rw [legacyInForm?, hblock.modern]

end

/-! ### Exceptions -/

/-- The clauses stand for the handlers, and there is no other clause among them. -/
structure StandsForHandlers (found : List Rescue) (given : List Handler) : Prop where
  same : unlinedHandlers (handlers found) = unlinedHandlers given
  modern : legacyInRescues? found = none
  only : ∀ rescue ∈ found, ∃ start parts body, rescue = .except start parts body

/-- The lines are read as `except` clauses. The first clause of all decides whether they make groups;
these do not. -/
def ReadsHandlers (lines : List Line) (indent : Nat) (given : List Handler) : Prop :=
  ∀ tokens, SpellsLines tokens lines → ∀ levels depth, tokens.length ≤ levels →
    tokens.length ≤ depth → ∀ rest, Without ["except"] indent rest → ∀ fuel, tokens.length < fuel →
      ∀ group, group = some false ∨ group = none ∧ given ≠ [] → ∀ found, ∃ more,
        rescues (nested levels) (blocks (nested levels) depth) indent fuel group found
          (tokens ++ rest) = .ok (found ++ more, rest) ∧ StandsForHandlers more given

theorem readsHandlers_nil (indent : Nat) : ReadsHandlers [] indent [] := by
  intro tokens ht levels depth _ _ rest hr fuel hfuel group hgroup found
  cases ht
  obtain ⟨fuel, rfl⟩ := Nat.exists_eq_succ_of_ne_zero (Nat.ne_zero_of_lt hfuel)
  obtain rfl := hgroup.resolve_right fun h => h.2 rfl
  refine ⟨[], ?_, rfl, rfl, nofun⟩
  obtain @⟨width, token, hs, hw, hc, rest⟩ := hr
  rw [List.nil_append, List.append_nil, rescues]
  rcases Nat.eq_or_lt_of_le hw with rfl | hlt
  · have hno := hc rfl "except" List.mem_cons_self
    simp only [ahead_of_goesOn hs, close_isWord, hno, Bool.false_eq_true, if_false,
      Option.isNone_some, ite_self]
  · have hnone := ahead_of_closes hs
      (show (Viable.mk false false true false (decide (0 < indent)) true).closing = true from
        decide_eq_true (Nat.zero_lt_of_lt hlt)) hlt rest
    simp only [Option.isSome_some, Bool.true_and, hnone, Option.isNone_some, Bool.false_eq_true,
      if_false]

theorem readsHandlers_cons {margin : Margin} {extra : Redundance} {kind : Option Expr}
    {name : Option String} (hk : kind.all Expr.isWritable = true) (hn : name.all isName = true)
    (hkn : (kind.isSome || name.isNone) = true) {lines more : List Line} {body : List Stmt}
    (hb : ReadsSuite lines margin.width body) {given : List Handler}
    (hm : ReadsHandlers more margin.width given) (hbegin : BeginsWithout [] margin.width more)
    (line : Nat) :
    ReadsHandlers (⟨margin, header "except" (caughtPieces extra kind name)⟩ :: (lines ++ more))
      margin.width (.mk kind name body line :: given) := by
  intro tokens ht levels depth hl hd rest hr fuel hfuel group hgroup found
  obtain ⟨fuel, rfl⟩ := Nat.exists_eq_succ_of_ne_zero (Nat.ne_zero_of_lt hfuel)
  obtain ⟨first, tail, behind, he, hs, hshape, hbehind, hlen, hclause⟩ :=
    exists_clause hb hbegin ht hl hd hr
  obtain @⟨middle, inner, _, colon, block, hmiddle, hlm, hsnug, hcolon, hsuite, hblock⟩ := hclause
  obtain ⟨parts, hstar, hhead, hread⟩ :=
    exceptClause_eq_ok extra hk hn hkn hmiddle hlm hsnug hcolon hsuite
  have hexcept : first.isWord "except" = true := isWord_of_word hshape "except"
  obtain ⟨others, hothers, hstands⟩ := hm behind hbehind levels depth (by omega) (by omega) rest hr
    fuel (by omega) (some false) (.inl rfl) (found ++ [.except first.start parts block])
  have hgroup' : group ≠ some true := by
    rcases hgroup with rfl | ⟨rfl, -⟩ <;> nofun
  refine ⟨.except first.start parts block :: others, ?_, ?_, ?_, ?_⟩
  · rw [he, rescues, ahead_of_goesOn hs rfl]
    simp only [close_isWord, hexcept, if_true, hstar, Bool.and_false, Bool.false_eq_true, if_false,
      hgroup', hread, bind, Except.bind]
    exact hothers.trans (by rw [List.append_assoc, List.singleton_append])
  · simp only [handlers, hhead, unlinedHandlers, hblock.same, hstands.same]
  · rw [legacyInRescues?, hblock.modern, Option.none_or, hstands.modern]
  · exact List.forall_mem_cons.mpr ⟨⟨_, _, _, rfl⟩, hstands.only⟩

/-- Clauses for exceptions before other clauses. -/
theorem StandsForHandlers.append {found : List Rescue} {given : List Handler}
    (h : StandsForHandlers found given) (more : List Rescue) :
    handlers (found ++ more) = handlers found ++ handlers more ∧
      elseStmts (found ++ more) = elseStmts more ∧ finallyStmts (found ++ more) = finallyStmts more ∧
        legacyInRescues? (found ++ more) = legacyInRescues? more := by
  have hmodern := h.modern
  have honly := h.only
  clear h
  induction found with
  | nil => exact ⟨rfl, rfl, rfl, rfl⟩
  | cons rescue found ih =>
    obtain ⟨⟨start, parts, body, rfl⟩, hothers⟩ := List.forall_mem_cons.mp honly
    rw [legacyInRescues?, Option.or_eq_none_iff] at hmodern
    obtain ⟨hhandlers, helse, hfinally, hlegacy⟩ := ih hmodern.2 hothers
    simp only [List.cons_append, handlers, elseStmts, finallyStmts, legacyInRescues?, hhandlers, helse,
      hfinally, hlegacy, hmodern.1, Option.none_or, and_self]

/-- A statement of all clauses that exceptions have. -/
theorem standsFor_try {block : Block} {body other finalbody : List Stmt} {found : List Rescue}
    {given : List Handler} {orelse final : Option Block} (hb : Stands block body)
    (hh : StandsForHandlers found given) (he : Stands (orelse.getD []) other)
    (hf : Stands (final.getD []) finalbody) :
    StandsFor (.try block (found ++ (orelse.map Rescue.else).toList ++
      (final.map Rescue.finally).toList)) (.try body given other finalbody) := by
  obtain ⟨hhandlers, helse, hfinally, hlegacy⟩ :=
    hh.append ((orelse.map Rescue.else).toList ++ (final.map Rescue.finally).toList)
  have he' := he.same
  have hf' := hf.same
  have he'' := he.modern
  have hf'' := hf.modern
  rw [List.append_assoc]
  constructor
  · rw [Form.kind, StmtKind.unlined, StmtKind.unlined, hhandlers, helse, hfinally, hb.same]
    cases orelse <;> cases final <;>
      simp_all [handlers, elseStmts, finallyStmts, hh.same, stmts]
  · intro start
    rw [legacyInForm?, hb.modern, hlegacy, Option.none_or]
    cases orelse <;> cases final <;> simp_all [legacyInRescues?]

/-- A `try` statement from its parts: without handlers there is no else clause, and a finally clause
has to come. -/
theorem tryStatement_eq_ok {n : Nested} {b : Blocks} {indent : Nat} {tail after : List Token}
    {block : Block} (hb : colonSuite n b indent tail = .ok (([], block), after))
    {found : List Rescue} {behind : List Token}
    (hr : rescues n b indent after.length none [] after = .ok (found, behind))
    (hg : ∀ body more, found ≠ .exceptGroup body :: more) {orelse : Option Block}
    {last : List Token}
    (he : if found = [] then orelse = none ∧ last = behind
      else elseClause n b indent behind = .ok (orelse, last)) {final : Option Block}
    {rest : List Token}
    (hf : found ≠ [] ∧ final = none ∧ last = rest ∧
        (ahead indent (clauseNext indent) last = none ∨ ∃ token more,
          ahead indent (clauseNext indent) last = some ([], token, more) ∧
            token.isWord "finally" = false) ∨
      ∃ first more block, last = first :: more ∧ StartsLine indent first ∧
        first.isWord "finally" = true ∧ final = some block ∧
          colonSuite n b indent more = .ok (([], block), rest)) :
    tryStatement n b indent tail = .ok (.try block (found ++ (orelse.map Rescue.else).toList ++
      (final.map Rescue.finally).toList), rest) := by
  by_cases hempty : found = []
  · subst hempty
    obtain ⟨rfl, rfl⟩ := he
    obtain ⟨hsome, -⟩ | ⟨first, more, block', rfl, hs, hword, rfl, hcolon⟩ := hf
    · exact absurd rfl hsome
    · simp only [tryStatement, hb, hr, bind, Except.bind, List.isEmpty_nil, Bool.true_or, if_true,
        pure, Except.pure, Option.map_none, Option.toList_none, List.append_nil, ahead_of_goesOn hs,
        close_isWord, hword, hcolon]
      rfl
  · rw [if_neg hempty] at he
    have hsome : found.isEmpty = false := List.isEmpty_eq_false_iff.mpr hempty
    have hsome' : (found ++ (orelse.map Rescue.else).toList).isEmpty = false :=
      List.isEmpty_eq_false_iff.mpr (List.append_ne_nil_of_left_ne_nil hempty _)
    obtain ⟨-, rfl, rfl, hnone⟩ | ⟨first, more, block', rfl, hs, hword, rfl, hcolon⟩ := hf
    · rcases hnone with hnone | ⟨token, more, hahead, hno⟩
      · simp only [tryStatement, hb, hr, bind, Except.bind, hsome, Bool.or_false,
          Bool.false_eq_true, if_false, he, hsome', hnone, Option.map_none, Option.toList_none,
          List.append_nil]
        rfl
      · simp only [tryStatement, hb, hr, bind, Except.bind, hsome, Bool.or_false,
          Bool.false_eq_true, if_false, he, hsome', hahead, hno, Option.map_none, Option.toList_none,
          List.append_nil]
        rfl
    · have hahead : ahead indent (clauseNext indent) (first :: more) = some ([], first.close, more) :=
        ahead_of_goesOn hs rfl more
      simp only [tryStatement, hb, hr, bind, Except.bind, hsome, Bool.or_false,
        Bool.false_eq_true, if_false, he, hsome', hahead, close_isWord, hword, if_true, hcolon]
      rfl

theorem readsStatement_try {margin : Margin} {lines more : List Line} {body : List Stmt}
    (hb : ReadsSuite lines margin.width body) {given : List Handler}
    (hm : ReadsHandlers more margin.width given) (hbegin : BeginsWithout [] margin.width more)
    {other finalbody : List Stmt} {elseLines finalLines : List Line}
    (he : other ≠ [] → ReadsSuite elseLines margin.width other)
    (hf : finalbody ≠ [] → ReadsSuite finalLines margin.width finalbody)
    (hgiven : given = [] → more = [] ∧ other = [] ∧ finalbody ≠ []) :
    ReadsStatement
      (⟨margin, header "try" []⟩ :: (lines ++ (more ++ (optionalClause margin "else" other elseLines ++
        optionalClause margin "finally" finalbody finalLines)))) margin.width
      (.try body given other finalbody) := by
  have hfinalBegins {words : List String} (hw : "finally" ∉ words) :
      BeginsWithout words margin.width (optionalClause margin "finally" finalbody finalLines) :=
    beginsWithout_optional hw margin finalbody finalLines
  have helseBegins {words : List String} (hw : "else" ∉ words) :
      BeginsWithout words margin.width (optionalClause margin "else" other elseLines) :=
    beginsWithout_optional hw margin other elseLines
  refine readsStatement_of_clauses hb
    (hbegin.append ((helseBegins List.not_mem_nil).append (hfinalBegins List.not_mem_nil)))
    fun levels depth tail behind rest hclause hbehind hlevels hdepth hr => ?_
  obtain @⟨middle, inner, _, colon, block, hmiddle, -, hsnug, hcolon, hsuite, hblock⟩ := hclause
  obtain rfl := hmiddle.nil_inv
  obtain ⟨handlerTokens, behind, rfl, hhandlers, hbehind⟩ := exists_lines hbehind
  obtain ⟨elseTokens, finalTokens, rfl, helse, hfinal⟩ := exists_lines hbehind
  simp only [List.length_append] at hlevels hdepth
  have hnoElse : Without ["else"] margin.width (finalTokens ++ rest) :=
    without_of_lines (hfinalBegins (by decide)) hfinal (hr.mono (by decide))
  have hnoExcept : Without ["except"] margin.width (elseTokens ++ (finalTokens ++ rest)) :=
    without_of_lines (helseBegins (by decide)) helse
      (without_of_lines (hfinalBegins (by decide)) hfinal (hr.mono (by decide)))
  have hcolon' := colonSuite_eq_ok hsnug hcolon hsuite
  have hfinally := exists_optional hf hfinal (show _ ≤ levels by omega) (show _ ≤ depth by omega) hr
  cases given with
  | nil =>
    obtain ⟨rfl, rfl, hne⟩ := hgiven rfl
    cases hhandlers
    cases helse
    obtain ⟨hempty, -⟩ | ⟨first, more, final, he, hs, hshape, hfinal, hread⟩ := hfinally
    · exact absurd hempty hne
    have hfound : rescues (nested levels) (blocks (nested levels) depth) margin.width
        (first :: more).length none [] (first :: more) = .ok ([], first :: more) := by
      rw [List.length_cons, rescues]
      simp only [ahead_of_goesOn hs, close_isWord, isWord_of_word hshape]
      rfl
    simp only [List.nil_append, he] at hcolon'
    refine ⟨_, _, rfl, tryStatement_eq_ok hcolon' hfound nofun ⟨rfl, rfl⟩
      (.inr ⟨first, more, final, rfl, hs, isWord_of_word hshape "finally", rfl, hread⟩), ?_⟩
    exact standsFor_try hblock ⟨rfl, rfl, nofun⟩ .nil hfinal
  | cons handler given =>
    obtain ⟨found, hfound, hstands⟩ := hm handlerTokens hhandlers levels depth (by omega) (by omega)
      _ hnoExcept _ (hnoExcept.length_lt handlerTokens) none (.inr ⟨rfl, List.cons_ne_nil _ _⟩) []
    have hsome : found ≠ [] := by
      rintro rfl
      cases handler with
      | mk kind name body line =>
        have hnone := hstands.same
        simp only [handlers, unlinedHandlers, List.nil_eq, reduceCtorEq] at hnone
    have honly : ∀ body more, found ≠ .exceptGroup body :: more := by
      rintro body more rfl
      obtain ⟨_, _, _, h⟩ := hstands.only _ List.mem_cons_self
      cases h
    obtain ⟨last, hlast, horelse⟩ := readsElse_optional he elseTokens helse levels depth (by omega)
      (by omega) _ hnoElse
    have helseRead : if found = [] then last = none ∧ finalTokens ++ rest = elseTokens ++
        (finalTokens ++ rest) else elseClause (nested levels) (blocks (nested levels) depth)
          margin.width (elseTokens ++ (finalTokens ++ rest)) = .ok (last, finalTokens ++ rest) := by
      rwa [if_neg hsome]
    simp only [List.append_assoc] at hcolon' ⊢
    obtain ⟨rfl, rfl⟩ | ⟨first, more, final, hlines, hs, hshape, hfinal, hread⟩ := hfinally
    · exact ⟨_, _, rfl, tryStatement_eq_ok hcolon' hfound honly helseRead
        (.inl ⟨hsome, rfl, rfl, ahead_of_without hr (by decide)⟩),
        standsFor_try hblock hstands horelse .nil⟩
    · exact ⟨_, _, rfl, tryStatement_eq_ok hcolon' hfound honly helseRead
        (.inr ⟨first, more, final, hlines, hs, isWord_of_word hshape "finally", rfl, hread⟩),
        standsFor_try hblock hstands horelse hfinal⟩

end Marksheet.Grammar
