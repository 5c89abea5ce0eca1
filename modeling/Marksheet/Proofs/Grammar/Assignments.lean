import Marksheet.Proofs.Grammar.SimpleLines
import Marksheet.Proofs.Grammar.Targets

/-!
# Assignments are read

The target of an assignment is read as an expression, up to the mark behind it. The mark
`=` holds on to a name more tightly than what may follow an expression; the mark of an
augmented assignment does not.
-/

namespace Marksheet.Grammar

open Marksheet.Source Marksheet.Syntax

/-! ### Targets before marks -/

section

variable {indent : Nat} {rest : List Token} {levels : Nat}

/-- The symbol marks an assignment. -/
def IsMark (symbol : Symbol) : Prop := symbol = .assign ∨ ∃ op, symbol = .augmented op

/-- A name before `=` is read as an expression. -/
theorem expression_before_assign {name : String} (hn : reservedWords.contains name = false)
    {token mark : Token} (ht : shapeOf token = .word name) (hm : Snug mark)
    (hshape : shapeOf mark = .sign .assign) (hl : 0 < levels) (place : Place) (more : List Token) :
    (nested levels).expression place {} (token :: mark :: more) =
      .ok (.name name, mark :: more) := by
  obtain ⟨levels, rfl⟩ := Nat.exists_eq_succ_of_ne_zero hl.ne'
  obtain ⟨hhead, hconstant⟩ := headStrength_of_not_reserved hn
  have hlexeme : token.lexeme = .word := congrArg Prod.fst ht
  have htext : token.text = name := congrArg Prod.snd ht
  have hne (word : String) (hw : headStrength (.word word) < 22) : token.isWord word = false :=
    isWord_eq_false (by rw [ht, hhead]) hw
  have hmark : mark.lexeme = .symbol .assign := congrArg Prod.fst hshape
  have hother (other : Symbol) : mark.isSymbol other = decide (.assign = other) :=
    isSymbol_of_sign hshape other
  have hword (word : String) : mark.isWord word = false := isWord_of_sign hshape word
  have hprimary : primary (nested levels) place (token :: mark :: more) =
      .ok (.name name, mark :: more) := by
    have htrailer : beginsTrailer mark.close = false := by
      simp only [beginsTrailer, close_isSymbol, hother, reduceCtorEq, decide_false, Bool.or_false]
    simp only [primary, isSymbol_of_word ht, Bool.or_false, Bool.false_eq_true, if_false, atom,
      hlexeme, htext, hconstant, bind, Except.bind, List.length_cons, trailers, if_true,
      ahead_of_snug hm, htrailer]
  have hsign : sign? token = none := by
    simp only [sign?, hlexeme]
  have hoperand : operand (nested levels) place 0 (token :: mark :: more) =
      .ok (.name name, mark :: more) := by
    have hbinary (fuel : Nat) (left : Phrase) :
        binaryTail (nested levels) place 0 (fuel + 1) left (mark :: more) =
          .ok (left, mark :: more) := by
      simp only [binaryTail, ahead_of_snug hm, close_lexeme, hmark]
    simp only [operand, hsign, awaits, hne "await" (by decide), Bool.false_and, Bool.and_false,
      Bool.false_eq_true, if_false, hprimary, bind, Except.bind, List.length_cons, hbinary]
  have hcomparison : comparison (nested levels) place (token :: mark :: more) =
      .ok (.name name, mark :: more) := by
    have hnone : comparisonOp? place (mark.close :: more) = none := by
      simp only [comparisonOp?, close_lexeme, hmark]
    simp only [comparison, hoperand, bind, Except.bind, List.length_cons, comparisonTail,
      ahead_of_snug hm, hnone]
    rfl
  change expression (nested levels) place {} _ = _
  simp only [expression, simpleExpression, hne "not" (by decide), hne "lambda" (by decide),
    peekSymbol_of_snug hm, hother, reduceCtorEq, decide_false, Bool.and_false, Bool.false_eq_true,
    if_false, hcomparison, bind, Except.bind, List.length_cons, infixTail, ahead_of_snug hm,
    close_isWord, hword, Bool.false_and]

/-- A target with a mark behind it and what its reader makes of that. -/
theorem expressionsOrAssignment_mark {token mark : Token} {tail more : List Token} {phrase : Phrase}
    (hy : token.isWord "yield" = false) (hm : Snug mark) {symbol : Symbol} (hsymbol : IsMark symbol)
    (hshape : shapeOf mark = .sign symbol)
    (hread : (nested levels).expression (lineOf indent) {} (token :: (tail ++ mark :: more)) =
      .ok (phrase, mark :: more)) (hp : phrase.pattern? = some phrase) {value : Reader Phrase}
    {whole : Phrase} (htail : assignmentTail (nested levels) indent value phrase
      (mark.close :: more) = .ok (whole, rest)) :
    expressionsOrAssignment (nested levels) indent value (token :: (tail ++ mark :: more)) =
      .ok (([whole], false), rest) := by
  have hmark : mark.lexeme = .symbol symbol := congrArg Prod.fst hshape
  have hcomma : mark.isSymbol .comma = false := by
    rw [isSymbol_of_sign hshape]
    rcases hsymbol with rfl | ⟨op, rfl⟩ <;> rfl
  have hmarks : marksAssignment mark.close = true := by
    simp only [marksAssignment, close_lexeme, hmark]
    rcases hsymbol with rfl | ⟨op, rfl⟩ <;> rfl
  have hmore : expressions (nested levels) (lineOf indent) (token :: (tail ++ mark :: more)) =
      .ok (([phrase], false), mark :: more) := by
    simp only [expressions, hread, bind, Except.bind, List.length_cons, moreExpressions,
      ahead_of_snug hm, close_isSymbol, hcomma, Bool.false_eq_true, if_false]
  simp only [expressionsOrAssignment, hy, Bool.false_eq_true, if_false, hmore, bind, Except.bind,
    ahead_of_snug hm, hmarks, if_true, targetOf?, hp, htail]
  rfl

/-! ### Chains -/

/-- The phrase of a chain of assignments to names. -/
def chained (value : Phrase) : List String → Phrase
  | [] => value
  | name :: rest => .assignment (.name name) none (some (chained value rest))

/-- What a chain of assignments stands for. -/
theorem chain_chained {value : Phrase} (hv : isExpression value = true) (names : List String) :
    (chained value names).chain = (names.map .name, some value.expr) := by
  induction names with
  | nil =>
    cases value with
    | assignment => cases hv
    | _ => rfl
  | cons name names ih => simp only [chained, Phrase.chain, ih, Phrase.target, List.map_cons]

theorem shapesOf_assigned (value : List Piece) (name : String) (targets : List Target) :
    shapesOf (assigned value (.name name :: targets)) =
      .word name :: .sign .assign :: shapesOf (assigned value targets) := by
  rw [assigned, Target.pieces, Target.expr, bare, List.cons_append, List.nil_append, shapesOf_cons,
    shapesOf_cons, shapesOf_spaced]
  rfl

theorem length_le_assigned (value : List Piece) (names : List String) :
    names.length ≤ (shapesOf (assigned value (names.map .name))).length := by
  induction names with
  | nil => exact Nat.zero_le _
  | cons name names ih =>
    rw [List.map_cons, shapesOf_assigned, List.length_cons, List.length_cons, List.length_cons]
    omega

/-- A chain of assignments is read from left to right, each value through the reader of the one
before it. -/
theorem assigned_eq_ok (hr : Behind indent rest) {value : List Piece} {phrase : Phrase}
    (h : Readable 1 (shapesOf value) phrase) (names : List String)
    (hn : ∀ name ∈ names, reservedWords.contains name = false) :
    ∀ fuel, names.length ≤ fuel → ∀ tokens,
      Spells tokens (shapesOf (assigned value (names.map .name))) →
      (shapesOf (assigned value (names.map .name))).length ≤ levels →
        expressionsOrAssignment (nested levels) indent (rightSide (nested levels) indent fuel)
            (tokens ++ rest) = .ok (([chained phrase names], false), rest) := by
  induction names with
  | nil => exact fun fuel _ tokens ht hl => expressionsOrAssignment_eq_ok hr h ht hl _
  | cons name names ih =>
    intro fuel hfuel tokens ht hl
    rw [List.map_cons, shapesOf_assigned] at ht hl
    obtain ⟨token, tail, rfl, -, hshape, htail⟩ := ht.cons_inv
    obtain ⟨mark, more, rfl, hmark, hassign, hmore⟩ := htail.cons_inv
    have hne : shapesOf (assigned value (names.map .name)) ≠ [] := by
      cases names with
      | nil => exact h.ne_nil
      | cons next names =>
        rw [List.map_cons, shapesOf_assigned]
        exact List.cons_ne_nil _ _
    obtain ⟨closed, hclosed, hpass⟩ := hmore.exists_pass hne
    simp only [List.length_cons] at hl hfuel
    obtain ⟨fuel, rfl⟩ : ∃ less, fuel = less + 1 := ⟨fuel - 1, by omega⟩
    have hright : rightSide (nested levels) indent (fuel + 1) (closed ++ rest) =
        .ok (chained phrase names, rest) := by
      simp only [rightSide, bind, Except.bind,
        ih (fun other hm => hn other (List.mem_cons_of_mem _ hm)) fuel (by omega) closed hclosed
          (by omega)]
      rfl
    rw [List.cons_append, List.cons_append]
    have hname := hn name List.mem_cons_self
    have hyield : token.isWord "yield" = false :=
      isWord_eq_false (by rw [hshape, (headStrength_of_not_reserved hname).1]) (by decide)
    refine @expressionsOrAssignment_mark _ _ _ _ _ [] _ _ hyield hmark _ (.inl rfl) hassign
      (expression_before_assign hname hshape hmark hassign (by omega) _ _) rfl _ _ ?_
    have hlexeme : mark.close.lexeme = .symbol .assign := congrArg Prod.fst hassign
    simp only [assignmentTail, hlexeme, hpass, hright, bind, Except.bind]
    rfl

/-- No operand begins with the mark of an assignment. -/
theorem beginsOperand_of_isMark {mark : Token} {symbol : Symbol} (hsymbol : IsMark symbol)
    (hshape : shapeOf mark = .sign symbol) : beginsOperand mark = false := by
  have hmark : mark.lexeme = .symbol symbol := congrArg Prod.fst hshape
  rw [beginsOperand, hmark]
  rcases hsymbol with rfl | ⟨op, rfl⟩ <;> rfl

/-- A name before the mark of an assignment begins no statement of another kind. -/
theorem startsPlain_of_mark {name : String} (hn : reservedWords.contains name = false)
    {token mark : Token} (ht : shapeOf token = .word name) (hm : Snug mark) {symbol : Symbol}
    (hsymbol : IsMark symbol) (hshape : shapeOf mark = .sign symbol) (more : List Token) :
    StartsPlain levels indent token (mark :: more) where
  strong := by
    rw [ht, (headStrength_of_not_reserved hn).1]
    decide
  print _ := by
    rw [peekSymbol_of_snug hm, isSymbol_of_sign hshape]
    rcases hsymbol with rfl | ⟨op, rfl⟩ <;> rfl
  type _ := by
    have hclose : shapeOf mark.close = .sign symbol := hshape
    have hmark : mark.close.lexeme = .symbol symbol := congrArg Prod.fst hclose
    have htype : ∃ e, (nested levels).type ⟨indent, {}⟩ true (mark.close :: more) = .error e := by
      cases levels with
      | zero => exact ⟨_, rfl⟩
      | succ levels =>
        have hne : symbol ≠ .op .mul ∧ symbol ≠ .op .pow := by
          rcases hsymbol with rfl | ⟨op, rfl⟩ <;> exact ⟨nofun, nofun⟩
        have hno (other : Symbol) (hne : symbol ≠ other) : mark.isSymbol other = false :=
          (isSymbol_of_sign hshape other).trans (decide_eq_false hne)
        obtain ⟨e, he⟩ := expression_eq_error levels (beginsOperand_of_isMark hsymbol hclose)
          ⟨indent, {}⟩ {} more
        refine ⟨e, (?_ : Grammar.type (nested levels) ⟨indent, {}⟩ true (mark.close :: more) = _)⟩
        simp only [Grammar.type, hmark, reduceCtorEq, decide_false, Bool.false_and,
          Bool.false_eq_true, if_false, splatType, close_isSymbol, hno _ hne.1, hno _ hne.2,
          Bool.or_false, stuck, he, bind, Except.bind]
    obtain ⟨e, he⟩ := htype
    exact ⟨e, by simp only [typeAlias, pass_of_snug hm, he, bind, Except.bind]⟩
  «match» _ b := by
    have hclose : shapeOf mark.close = .sign symbol := hshape
    obtain ⟨e, he⟩ := expression_eq_error levels (beginsOperand_of_isMark hsymbol hclose)
      ⟨indent, {}⟩ {} more
    exact ⟨e, by simp only [matchStatement, pass_of_snug hm, List.length_cons, subjects, he, bind,
      Except.bind]⟩

end

theorem assign_readsLine {e : Expr} {pieces : List Piece} (h : Reads e 1 pieces) (name : String)
    (names : List String) (hn : ∀ other ∈ name :: names, reservedWords.contains other = false) :
    ReadsLine (assigned pieces ((name :: names).map .name)) (.assign ((name :: names).map .name) e) := by
  intro token tail ht levels hl indent rest hr b
  obtain ⟨phrase, rfl, hread⟩ := h
  have hspells := ht.spells
  have hlen := hspells.length_eq
  have hfuel : (name :: names).length ≤ (token :: (tail ++ rest)).length := by
    rw [← List.cons_append, List.length_append, hlen]
    exact (length_le_assigned pieces (name :: names)).trans (Nat.le_add_right _ _)
  have hread' := assigned_eq_ok hr hread (name :: names) hn _ hfuel _ hspells (hlen.symm.trans_le hl)
  have hstatement : expressionStatement (nested levels) indent (token :: (tail ++ rest)) =
      .ok (.expression [chained phrase (name :: names)], rest) := by
    rw [List.cons_append] at hread'
    simp only [expressionStatement, hread', bind, Except.bind]
    rfl
  rw [List.map_cons, shapesOf_assigned] at hspells
  obtain ⟨first, more, he, -, hshape, hmore⟩ := hspells.cons_inv
  obtain ⟨rfl, rfl⟩ := List.cons.inj he
  obtain ⟨mark, more, rfl, hmark, hassign, -⟩ := hmore.cons_inv
  have hstarts : StartsPlain levels indent token (mark :: (more ++ rest)) :=
    startsPlain_of_mark (hn name List.mem_cons_self) hshape hmark (.inl rfl) hassign _
  refine ⟨_, hstarts.statement_eq_ok hr hstatement b, ?_, fun _ => rfl⟩
  have hchain := chain_chained hread.plain (name :: names)
  rw [chained] at hchain
  simp only [Form.kind, expressionStmt, chained, Phrase.statement, hchain]

/-- The target of an augmented assignment is a name, or it begins no statement of another kind. -/
theorem augAssign_readsLine {e : Expr} {pieces : List Piece} (h : Reads e 1 pieces) {target : Target}
    (hw : target.isWritable = true)
    (hp : (target.isName || startsPlainly (shapesOf target.pieces)) = true) (op : BinOp) :
    ReadsLine (target.pieces ++ apart (.sign (.augmented op)) :: spaced pieces)
      (.augAssign target op e) := by
  intro token tail ht levels hl indent rest hr b
  obtain ⟨phrase, rfl, hread⟩ := h
  obtain ⟨place, hplace, hpattern, hstands⟩ := target_reads target hw
  have hspells := ht.spells
  rw [shapesOf_append, shapesOf_cons, shapesOf_spaced] at hspells
  obtain ⟨before, behind, he, hbefore, hbehind⟩ := hspells.append_inv
  obtain ⟨mark, more, rfl, hmark, haugmented, hvalue⟩ :=
    (show Spells behind (.sign (.augmented op) :: shapesOf pieces) from hbehind).cons_inv
  obtain ⟨first, before, rfl⟩ := List.exists_cons_of_ne_nil (hbefore.ne_nil hplace.ne_nil)
  rw [List.cons_append] at he
  obtain ⟨rfl, rfl⟩ := List.cons.inj he
  obtain ⟨closed, hclosed, hpass⟩ := hvalue.exists_pass hread.ne_nil
  have hlen := hbefore.length_eq
  have hlen' := hvalue.length_eq
  simp only [List.length_cons, List.length_append] at hl hlen
  have hfollows : Follows (lineOf indent) 1 (mark :: (more ++ rest)) :=
    .snug hmark (by rw [haugmented]; exact Nat.one_pos)
  have htarget := hplace.expression_eq_ok hbefore (show _ ≤ levels by omega)
    (show Level.least {} ≤ 22 from Nat.zero_le _) hfollows (by decide) (.inl (Nat.le_refl 1))
  rw [List.cons_append] at htarget
  have hplain : Readable 1 (shapesOf target.pieces) place := hplace.mono Nat.one_pos (by decide)
  have hyield : token.isWord "yield" = false := isWord_eq_false (head_strong hplain hbefore) (by decide)
  have hright (fuel : Nat) : rightSide (nested levels) indent (fuel + 1) (closed ++ rest) =
      .ok (phrase, rest) := by
    simp only [rightSide, bind, Except.bind,
      expressionsOrAssignment_eq_ok hr hread hclosed (show _ ≤ levels by omega)]
    rfl
  have hlexeme : mark.close.lexeme = .symbol (.augmented op) := congrArg Prod.fst haugmented
  have htail (fuel : Nat) : assignmentTail (nested levels) indent
      (rightSide (nested levels) indent (fuel + 1)) place (mark.close :: (more ++ rest)) =
        .ok (.augmented place op phrase, rest) := by
    simp only [assignmentTail, hlexeme, hpass, hright, bind, Except.bind]
    rfl
  have hstatement : expressionStatement (nested levels) indent
      (token :: (before ++ mark :: (more ++ rest))) =
        .ok (.expression [.augmented place op phrase], rest) := by
    simp only [expressionStatement, List.length_cons,
      expressionsOrAssignment_mark hyield hmark (.inr ⟨op, rfl⟩) haugmented htarget hpattern (htail _),
      bind, Except.bind]
    rfl
  have hstarts : StartsPlain levels indent token (before ++ mark :: (more ++ rest)) := by
    rw [Bool.or_eq_true] at hp
    rcases hp with hname | hp
    · cases target with
      | name text =>
        rw [Target.isName, isName, Bool.and_eq_true, Bool.not_eq_true'] at hname
        obtain ⟨first, hfirst, -, hshape⟩ := hbefore.single_inv
        obtain ⟨rfl, rfl⟩ := List.cons.inj hfirst
        exact startsPlain_of_mark hname.2 hshape hmark (.inr ⟨op, rfl⟩) haugmented _
      | _ => cases hname
    · refine startsPlain_of_shapes hplain hbefore hp ?_
      rw [peekSymbol_of_snug hmark, isSymbol_of_sign haugmented]
      rfl
  rw [List.append_assoc, List.cons_append]
  exact ⟨_, hstarts.statement_eq_ok hr hstatement b,
    congrArg (StmtKind.augAssign · op phrase.expr) hstands, fun _ => rfl⟩

end Marksheet.Grammar
