import Marksheet.Proofs.Grammar.OnwardStatements
import Marksheet.Proofs.Grammar.Orderly
import Marksheet.Proofs.Syntax.Places

/-!
# What is read stands in the order of the source text

Each reader of a statement has one lemma about the places in the form that it
gives: with those of the tokens left, they are part of the places of the tokens
that were read, and in their order. `blocks_lay` closes the circle by induction
on the number of levels, and `read_places` says it of a whole source text, whose
places go upwards: so do the places of its statements.
-/

namespace Marksheet.Grammar

open Marksheet.Source Marksheet.Syntax

section

variable {n : Nested} (h : Onward n)
include h

/-! ### Lines of simple statements -/

/-- A simple statement has no places in it, and its first token is taken. -/
theorem simpleStatement_lays (indent : Nat) (tokens : List Token) :
    Lays Form.places (behind tokens) (simpleStatement n indent tokens) := by
  intro found he
  have hsimple : Simple found.1 := simpleStatement_gives n indent tokens found he
  have hleft := simpleStatement_leaves h indent tokens found he
  rw [places_of_suites _ hsimple.2]
  exact hleft

omit h in
theorem blockPlaces_continued (continued : List Continued) :
    blockPlaces (continuedSentences continued) = continuedPlaces continued := by
  induction continued with
  | nil => rfl
  | cons line rest ih => exact congrArg (line.2 :: ·) ih

omit h in
/-- Sentences that continued lines make behind those found, and the token that follows. -/
theorem continued_sublist (indent : Nat) (viable : Viable) (found : Block) (token : Token)
    (rest : List Token) :
    (blockPlaces (found ++ continuedSentences (settle indent viable token).continued) ++
      places ((settle indent viable token).token :: rest)).Sublist
        (blockPlaces found ++ places (token :: rest)) := by
  rw [blockPlaces_append, blockPlaces_continued, List.append_assoc]
  exact (List.Sublist.refl _).append (settle_places indent viable token rest)

omit h in
/-- A reading behind the sentences found and those of continued lines. -/
theorem lays_continued {α : Type} {laid : α → List Position}
    {reading : Except Stuck (α × List Token)} (indent : Nat) (viable : Viable) {found : Block}
    {token : Token} {rest : List Token}
    (hr : Lays laid (blockPlaces (found ++ continuedSentences (settle indent viable token).continued) ++
      places ((settle indent viable token).token :: rest)) reading) :
    Lays laid (blockPlaces found ++ places (token :: rest)) reading :=
  lays_mono (continued_sublist indent viable found token rest) hr

theorem simpleLine_lays (indent : Nat) (fuel : Nat) : ∀ (found : Block) (tokens : List Token),
    Lays blockPlaces (blockPlaces found ++ places tokens) (simpleLine n indent fuel found tokens) := by
  induction fuel with
  | zero => exact fun _ tokens => lays_stuck tokens
  | succ fuel ih =>
    intro found tokens
    cases tokens with
    | nil => exact lays_stuck _
    | cons token rest =>
      -- the statement begins at the first token, and its form is laid behind it
      have hroom : ((blockPlaces found ++ [token.start]) ++ behind (token :: rest)).Sublist
          (blockPlaces found ++ places (token :: rest)) := by
        rw [List.append_assoc]
        exact (List.Sublist.refl _).append (start_behind_sublist token rest)
      refine lays_mono hroom (lays_bind (simpleStatement_lays h indent _) fun form tokens => ?_)
      have hfound : blockPlaces found ++ [token.start] ++ form.places =
          blockPlaces (found ++ [.mk form token.start]) := by
        simp [blockPlaces_append, blockPlaces, Sentence.places]
      rw [hfound]
      dsimp only
      split
      · exact lays_stuck _
      · refine lays_continued indent lineEndNext ?_
        split
        · exact lays_ok (.refl _)
        · refine lays_behind (lays_weaken (takeSymbol_leaves _ _)) fun _ tokens => ?_
          dsimp only
          split
          · exact lays_stuck _
          · refine lays_continued indent { lineEnd := true, quote := true } ?_
            split
            · exact lays_ok (.refl _)
            · exact ih _ _

/-! ### Suites -/

omit h in
/-- The readers of nested blocks lay the places of the blocks that they give. -/
def Blocks.LayPlaces (b : Blocks) : Prop :=
  ∀ indent tokens, Lays blockPlaces (places tokens) (b.block indent tokens)

/-- A reading of what stands behind a colon lays the places of the suite. -/
abbrev LaysSuite (room : List Position)
    (reading : Except Stuck ((List Phrase × Block) × List Token)) : Prop :=
  Lays (fun found => blockPlaces found.2) room reading

variable {b : Blocks} (hb : b.LayPlaces)
include hb

theorem suite_lays (indent : Nat) (tokens : List Token) :
    LaysSuite (places tokens) (suite n b indent tokens) := by
  unfold suite
  split
  · exact lays_stuck _
  · refine lays_mono (settled_sublist indent { opening := true, lineEnd := true, quote := true } _ _) ?_
    dsimp only
    split
    · exact lays_first (hb _ _) fun _ _ => lays_ok (.refl _)
    · exact lays_ok (.refl _)
    · exact lays_first (simpleLine_lays h indent _ [] _) fun _ _ => lays_ok (.refl _)

theorem colonSuite_lays (indent : Nat) (tokens : List Token) :
    LaysSuite (places tokens) (colonSuite n b indent tokens) := by
  refine lays_after (passSymbol_leaves _ _ _ tokens) fun _ tokens => ?_
  exact lays_first (suite_lays h hb indent tokens) fun _ _ => lays_ok (.refl _)

omit h hb in
/-- The place of the word that begins a clause comes before those behind it. -/
theorem clauseWord?_sublist {indent : Nat} {word : String} {tokens rest : List Token}
    {token : Token} (hword : clauseWord? indent word tokens = some (token, rest)) :
    (token.start :: places rest).Sublist (places tokens) := by
  unfold clauseWord? at hword
  split at hword
  · next parts first others hahead =>
    split at hword
    · cases hword
      have hstart : (token.start :: places rest).Sublist (places (token :: rest)) :=
        .trans (.cons_cons _ (rest_sublist token rest)) (start_behind_sublist token rest)
      exact hstart.trans (ahead_sublist hahead)
    · cases hword
  · cases hword

theorem elseClause_lays (indent : Nat) (tokens : List Token) :
    Lays (fun orelse : Option Block => blockPlaces (orelse.getD [])) (places tokens)
      (elseClause n b indent tokens) := by
  unfold elseClause
  split
  · next token rest hword =>
    have hrest := (List.sublist_cons_self _ _).trans (clauseWord?_sublist hword)
    refine lays_mono hrest (lays_first (colonSuite_lays h hb indent rest) fun _ _ => ?_)
    exact lays_ok (.refl _)
  · exact lays_ok (.refl _)

/-! ### Conditional statements and loops -/

theorem branches_lay (indent : Nat) (fuel : Nat) : ∀ (found : List Branch) (tokens : List Token),
    Lays branchesPlaces (branchesPlaces found ++ places tokens)
      (branches n b indent fuel found tokens) := by
  induction fuel with
  | zero => exact fun _ _ => lays_ok (.refl _)
  | succ fuel ih =>
    intro found tokens
    unfold branches
    split
    · next word rest hword =>
      have hroom : ((branchesPlaces found ++ [word.start]) ++ places rest).Sublist
          (branchesPlaces found ++ places tokens) := by
        rw [List.append_assoc]
        exact (List.Sublist.refl _).append (clauseWord?_sublist hword)
      refine lays_mono hroom (lays_behind (pass_leaves _ _ rest) fun _ tokens => ?_)
      refine lays_behind (lays_weaken (h.expression _ _ tokens)) fun test tokens => ?_
      refine lays_bind (colonSuite_lays h hb indent tokens) fun body tokens => ?_
      have hfound : branchesPlaces found ++ [word.start] ++ blockPlaces body.2 =
          branchesPlaces (found ++ [.elif word.start test body.2]) := by
        simp [branchesPlaces_append, branchesPlaces, Branch.places]
      rw [hfound]
      exact ih _ tokens
    · refine lays_bind (elseClause_lays h hb indent tokens) fun orelse tokens => ?_
      cases orelse with
      | none => exact lays_ok (by simp [blockPlaces])
      | some body =>
        refine lays_ok ?_
        simp [branchesPlaces_append, branchesPlaces, Branch.places]

theorem ifStatement_lays (indent : Nat) (tokens : List Token) :
    Lays Form.places (places tokens) (ifStatement n b indent tokens) := by
  refine lays_after (pass_leaves _ _ tokens) fun _ tokens => ?_
  refine lays_past (h.expression _ _ tokens) fun test tokens => ?_
  refine lays_first (colonSuite_lays h hb indent tokens) fun body tokens => ?_
  exact lays_bind (branches_lay h hb indent _ [] tokens) fun further _ => lays_ok (.refl _)

theorem whileStatement_lays (indent : Nat) (tokens : List Token) :
    Lays Form.places (places tokens) (whileStatement n b indent tokens) := by
  refine lays_after (pass_leaves _ _ tokens) fun _ tokens => ?_
  refine lays_past (h.expression _ _ tokens) fun test tokens => ?_
  refine lays_first (colonSuite_lays h hb indent tokens) fun body tokens => ?_
  exact lays_bind (elseClause_lays h hb indent tokens) fun orelse _ => lays_ok (.refl _)

theorem forStatement_lays (indent : Nat) (tokens : List Token) :
    Lays Form.places (places tokens) (forStatement n b indent tokens) := by
  refine lays_after (pass_leaves _ _ tokens) fun _ tokens => ?_
  refine lays_past (targets_leaves h _ tokens) fun target tokens => ?_
  refine lays_after (passWord_leaves _ _ _ tokens) fun _ tokens => ?_
  refine lays_after (pass_leaves _ _ tokens) fun _ tokens => ?_
  refine lays_past (series_leaves h _ tokens) fun iter tokens => ?_
  refine lays_first (colonSuite_lays h hb indent tokens) fun body tokens => ?_
  exact lays_bind (elseClause_lays h hb indent tokens) fun orelse _ => lays_ok (.refl _)

/-! ### Exceptions -/

theorem exceptClause_lays (indent : Nat) (start : Position) (tokens : List Token) :
    Lays Rescue.places ([start] ++ places tokens) (exceptClause n b indent start tokens) := by
  refine lays_behind (pass_leaves _ _ tokens) fun _ tokens => ?_
  dsimp only
  split
  · split
    · exact lays_bind (colonSuite_lays h hb indent _) fun _ _ => lays_ok (.refl _)
    · refine lays_behind (lays_weaken (h.expression _ _ _)) fun _ after => ?_
      split
      · refine lays_behind (passSymbol_leaves _ _ _ after) fun _ after => ?_
        refine lays_behind (pass_leaves _ _ after) fun _ after => ?_
        refine lays_behind (lays_weaken (h.expression _ _ after)) fun _ tokens => ?_
        exact lays_bind (colonSuite_lays h hb indent tokens) fun _ _ => lays_ok (.refl _)
      · exact lays_bind (colonSuite_lays h hb indent after) fun _ _ => lays_ok (.refl _)
  · exact lays_stuck _

theorem exceptGroup_lays (indent : Nat) (tokens : List Token) :
    Lays Rescue.places (places tokens) (exceptGroup n b indent tokens) := by
  refine lays_after (pass_leaves _ _ tokens) fun _ tokens => ?_
  refine lays_past (h.expression _ _ tokens) fun _ tokens => ?_
  dsimp only
  split
  · refine lays_after (passSymbol_leaves _ _ _ tokens) fun _ tokens => ?_
    refine lays_after (pass_leaves _ _ tokens) fun _ tokens => ?_
    refine lays_past (h.expression _ _ tokens) fun _ tokens => ?_
    exact lays_first (colonSuite_lays h hb indent tokens) fun _ _ => lays_ok (.refl _)
  · refine lays_after (leaves_all _ tokens) fun _ tokens => ?_
    exact lays_first (colonSuite_lays h hb indent tokens) fun _ _ => lays_ok (.refl _)

theorem rescues_lay (indent : Nat) (fuel : Nat) :
    ∀ (group : Option Bool) (found : List Rescue) (tokens : List Token),
      Lays rescuesPlaces (rescuesPlaces found ++ places tokens)
        (rescues n b indent fuel group found tokens) := by
  induction fuel with
  | zero => exact fun _ _ _ => lays_ok (.refl _)
  | succ fuel ih =>
    intro group found tokens
    have hdone : Lays rescuesPlaces (rescuesPlaces found ++ places tokens) (.ok (found, tokens)) :=
      lays_ok (.refl _)
    have hfound (clause : Rescue) :
        rescuesPlaces found ++ clause.places = rescuesPlaces (found ++ [clause]) := by
      simp [rescuesPlaces_append, rescuesPlaces]
    unfold rescues
    dsimp only
    split
    · next parts token rest hahead =>
      have hstart : ([token.start] ++ places rest).Sublist (places tokens) := by
        refine .trans (.trans (.cons_cons _ (rest_sublist token rest)) ?_) (ahead_sublist hahead)
        exact start_behind_sublist token rest
      split
      · split
        · have hrest := (List.sublist_cons_self _ _).trans hstart
          refine lays_mono ((List.Sublist.refl _).append hrest) ?_
          refine lays_behind (lays_weaken (takeSymbol_leaves _ rest)) fun _ tokens => ?_
          refine lays_bind (exceptGroup_lays h hb indent tokens) fun clause tokens => ?_
          rw [hfound clause]
          exact ih _ _ tokens
        · split
          · exact hdone
          · refine lays_mono ((List.Sublist.refl _).append hstart) ?_
            refine lays_bind (exceptClause_lays h hb indent token.start rest) fun clause tokens => ?_
            rw [hfound clause]
            exact ih _ _ tokens
      · split
        · exact hdone
        · split
          · exact lays_stuck _
          · exact hdone
    · split
      · exact lays_stuck _
      · exact hdone

omit h hb in
theorem rescuesPlaces_orelse (found : List Rescue) (orelse : Option Block) :
    rescuesPlaces (found ++ (orelse.map Rescue.else).toList) =
      rescuesPlaces found ++ blockPlaces (orelse.getD []) := by
  cases orelse <;> simp [rescuesPlaces_append, rescuesPlaces, Rescue.places, blockPlaces]

/-- The end of a `try` statement, where a finally clause may stand. -/
theorem finallyClause_lays (indent : Nat) (viable : Viable) (body : Block) (found : List Rescue)
    (orelse : Option Block) (tokens : List Token) :
    let found' := found ++ (orelse.map Rescue.else).toList
    Lays Form.places
      (blockPlaces body ++ rescuesPlaces found ++ blockPlaces (orelse.getD []) ++ places tokens)
      (match ahead indent viable tokens with
      | some (_, token, rest) =>
        if token.isWord "finally" then do
          let ((_, last), tokens) ← colonSuite n b indent rest
          return (.try body (found' ++ [.finally last]), tokens)
        else if found'.isEmpty then stuck (token :: rest)
        else return (.try body found', tokens)
      | none => if found'.isEmpty then stuck tokens else return (.try body found', tokens)) := by
  intro found'
  rw [List.append_assoc (blockPlaces body), ← rescuesPlaces_orelse]
  have hdone : Lays Form.places (blockPlaces body ++ rescuesPlaces found' ++ places tokens)
      (.ok (.try body found', tokens)) := lays_ok (.refl _)
  split
  · next parts token rest hahead =>
    have hrest := (tail_sublist token rest).trans (ahead_sublist hahead)
    split
    · refine lays_mono ((List.Sublist.refl _).append hrest) ?_
      refine lays_bind (colonSuite_lays h hb indent rest) fun last tokens => lays_ok ?_
      simp [Form.places, rescuesPlaces_append, rescuesPlaces, Rescue.places, found']
    · split
      · exact lays_stuck _
      · exact hdone
  · split
    · exact lays_stuck _
    · exact hdone

theorem tryStatement_lays (indent : Nat) (tokens : List Token) :
    Lays Form.places (places tokens) (tryStatement n b indent tokens) := by
  refine lays_first (colonSuite_lays h hb indent tokens) fun body tokens => ?_
  refine lays_bind (rescues_lay h hb indent _ none [] tokens) fun found tokens => ?_
  -- without an else clause nothing is laid between the clauses and the tokens left
  have hnone : (blockPlaces body.2 ++ rescuesPlaces found ++ places tokens) =
      blockPlaces body.2 ++ rescuesPlaces found ++ blockPlaces (none.getD []) ++ places tokens := by
    simp [blockPlaces]
  have hshut (viable : Viable) :=
    hnone ▸ finallyClause_lays h hb indent viable body.2 found none tokens
  dsimp only
  split
  · rw [Bool.or_true, if_pos rfl]
    exact hshut _
  · split
    · exact hshut _
    · refine lays_bind (elseClause_lays h hb indent tokens) fun orelse tokens => ?_
      exact finallyClause_lays h hb indent _ body.2 found orelse tokens

/-! ### Headers with items, parameters and arguments -/

omit hb in
theorem withItems_leaves (place : Place) (fuel : Nat) :
    ∀ found tokens, Leaves (places tokens) (withItems n place fuel found tokens) := by
  induction fuel with
  | zero => exact fun _ tokens => lays_stuck tokens
  | succ fuel ih =>
    intro found tokens
    refine lays_past (h.expression _ _ tokens) fun item tokens => ?_
    dsimp only
    split
    · next parts token rest hahead =>
      split
      · refine lays_beyond hahead ?_
        split
        · next between next rest' hnext =>
          split
          · exact lays_ahead hnext (ih _ _)
          · exact leaves_all _ _
        · exact leaves_all _ _
      · exact leaves_all _ tokens
    · exact leaves_all _ tokens

omit hb in
theorem parenthesizedItems_leaves (indent : Nat) (tokens : List Token) :
    Leaves (places tokens) (parenthesizedItems n indent tokens) := by
  refine lays_past (takeSymbol_leaves _ tokens) fun _ tokens => ?_
  refine lays_after (pass_leaves _ _ tokens) fun _ tokens => ?_
  refine lays_after (withItems_leaves h _ _ _ tokens) fun items tokens => ?_
  refine lays_after (passCloser_leaves _ _ _ tokens) fun _ tokens => ?_
  dsimp only
  split
  · exact leaves_all items tokens
  · exact lays_stuck _

theorem withStatement_lays (indent : Nat) (tokens : List Token) :
    Lays Form.places (places tokens) (withStatement n b indent tokens) := by
  refine lays_after (pass_leaves _ _ tokens) fun _ tokens => ?_
  refine lays_after (lays_either (parenthesizedItems_leaves h indent tokens)
    (withItems_leaves h _ _ _ tokens)) fun items tokens => ?_
  exact lays_first (colonSuite_lays h hb indent tokens) fun _ _ => lays_ok (.refl _)

omit hb in
theorem typeParameters_leaves (indent : Nat) (tokens : List Token) :
    Leaves (places tokens) (typeParameters n indent tokens) := by
  unfold typeParameters
  split
  · refine lays_after (pass_leaves _ _ tokens) fun _ tokens => ?_
    exact lays_weaken (typeArguments_leaves h indent tokens)
  · exact leaves_all _ tokens

/-- A function definition behind its parameters. -/
theorem definedBody_lays (indent : Nat) (name : String) (params : List Parameter)
    (tokens : List Token) :
    Lays Form.places (places tokens) (do
      let (_, tokens) ← passCloser indent closerNext .rparen tokens
      let (_, tokens) ←
        if peekSymbol indent {} .arrow tokens then do
          let (_, tokens) ← passSymbol indent {} .arrow tokens
          let (_, tokens) ← pass indent operandNext tokens
          let (_, tokens) ← n.type ⟨indent, {}⟩ false tokens
          pure ((), tokens)
        else pure ((), tokens)
      let ((_, body), tokens) ← colonSuite n b indent tokens
      return (Form.define name params body, tokens)) := by
  refine lays_after (passCloser_leaves _ _ _ tokens) fun _ tokens => ?_
  dsimp only
  split
  · refine lays_after (passSymbol_leaves _ _ _ tokens) fun _ tokens => ?_
    refine lays_after (pass_leaves _ _ tokens) fun _ tokens => ?_
    refine lays_past (h.type _ _ tokens) fun _ tokens => ?_
    refine lays_after (leaves_all _ tokens) fun _ tokens => ?_
    exact lays_first (colonSuite_lays h hb indent tokens) fun _ _ => lays_ok (.refl _)
  · refine lays_after (leaves_all _ tokens) fun _ tokens => ?_
    exact lays_first (colonSuite_lays h hb indent tokens) fun _ _ => lays_ok (.refl _)

theorem defineStatement_lays (indent : Nat) (tokens : List Token) :
    Lays Form.places (places tokens) (defineStatement n b indent tokens) := by
  refine lays_after (passName_leaves _ _ tokens) fun name tokens => ?_
  refine lays_after (typeParameters_leaves h indent tokens) fun _ tokens => ?_
  refine lays_after (passSymbol_leaves _ _ _ tokens) fun _ tokens => ?_
  refine lays_after (pass_leaves _ _ tokens) fun _ tokens => ?_
  have hbody (params : List Parameter) (tokens : List Token) :=
    definedBody_lays h hb indent name params tokens
  dsimp only
  split
  · split
    · exact lays_after (leaves_all _ _) hbody
    · split
      · exact lays_after (parameters_leaves h _ _ _ _ _ _) hbody
      · exact lays_after (leaves_all _ _) hbody
  · exact lays_after (lays_stuck _) hbody

theorem classStatement_lays (indent : Nat) (tokens : List Token) :
    Lays Form.places (places tokens) (classStatement n b indent tokens) := by
  refine lays_after (passName_leaves _ _ tokens) fun name tokens => ?_
  refine lays_after (typeParameters_leaves h indent tokens) fun _ tokens => ?_
  dsimp only
  split
  · refine lays_after (passSymbol_leaves _ _ _ tokens) fun _ tokens => ?_
    refine lays_after (arguments_leaves h _ _ tokens) fun args tokens => ?_
    exact lays_first (colonSuite_lays h hb indent tokens) fun _ _ => lays_ok (.refl _)
  · refine lays_after (leaves_all _ tokens) fun args tokens => ?_
    exact lays_first (colonSuite_lays h hb indent tokens) fun _ _ => lays_ok (.refl _)

theorem definition_lays (indent : Nat) (tokens : List Token) :
    Lays Form.places (places tokens) (definition n b indent tokens) := by
  unfold definition
  split
  · split
    · exact lays_tail (defineStatement_lays h hb indent _)
    · split
      · exact lays_tail (classStatement_lays h hb indent _)
      · split
        · refine lays_tail (lays_after (passWord_leaves _ _ _ _) fun _ tokens => ?_)
          exact defineStatement_lays h hb indent tokens
        · exact lays_stuck _
  · exact lays_stuck _

theorem decorated_lays (indent : Nat) (fuel : Nat) :
    ∀ (found : List (List Phrase)) (tokens : List Token),
      Lays Form.places (behind tokens) (decorated n b indent fuel found tokens) := by
  induction fuel with
  | zero => exact fun _ tokens => lays_stuck tokens
  | succ fuel ih =>
    intro found tokens
    refine lays_after (takeSymbol_leaves _ tokens) fun _ tokens => ?_
    refine lays_after (pass_leaves _ _ tokens) fun _ tokens => ?_
    refine lays_past (h.expression _ _ tokens) fun _ tokens => ?_
    dsimp only
    split
    · exact lays_stuck _
    · refine lays_mono (settled_sublist indent lineEndNext _ _) ?_
      split
      · refine lays_after (pass_leaves _ _ _) fun _ tokens => ?_
        dsimp only
        split
        · split
          · exact lays_weaken (ih _ _)
          · exact lays_first (definition_lays h hb indent _) fun _ _ => lays_ok (.refl _)
        · exact lays_stuck _
      · exact lays_stuck _

/-! ### Matching -/

omit hb in
theorem subjects_leaves (indent : Nat) (fuel : Nat) :
    ∀ found tokens, Leaves (places tokens) (subjects n indent fuel found tokens) := by
  induction fuel with
  | zero => exact fun _ tokens => lays_stuck tokens
  | succ fuel ih =>
    intro found tokens
    refine lays_past (h.expression _ _ tokens) fun next tokens => ?_
    dsimp only
    split
    · next parts token rest hahead =>
      split
      · refine lays_beyond hahead (lays_after (pass_leaves _ _ _) fun _ tokens => ?_)
        dsimp only
        split
        · split
          · exact leaves_all _ _
          · exact ih _ _
        · exact lays_stuck _
      · exact leaves_all _ tokens
    · exact leaves_all _ tokens

theorem cases_lay (indent : Nat) (fuel : Nat) : ∀ (found : List Case) (tokens : List Token),
    Lays casesPlaces (casesPlaces found ++ places tokens) (cases n b indent fuel found tokens) := by
  induction fuel with
  | zero => exact fun _ tokens => lays_stuck tokens
  | succ fuel ih =>
    intro found tokens
    -- a clause behind its guard, which may be missing
    have hclause (guard : Option (List Phrase)) (tokens : List Token) :
        Lays casesPlaces (casesPlaces found ++ places tokens) (do
          let ((_, body), tokens) ← colonSuite n b indent tokens
          cases n b indent fuel (found ++ [.mk guard body]) tokens) := by
      refine lays_bind (colonSuite_lays h hb indent tokens) fun body tokens => ?_
      have hfound : casesPlaces found ++ blockPlaces body.2 =
          casesPlaces (found ++ [.mk guard body.2]) := by
        simp [casesPlaces_append, casesPlaces, Case.places]
      rw [hfound]
      exact ih _ tokens
    unfold cases
    split
    · exact lays_stuck _
    · refine lays_mono ((List.Sublist.refl _).append (settled_sublist indent { closing := true } _ _)) ?_
      dsimp only
      split
      · exact lays_ok (.refl _)
      · refine lays_behind (lays_weaken (takeWord_leaves _ _)) fun _ tokens => ?_
        refine lays_behind (pass_leaves _ _ tokens) fun _ tokens => ?_
        refine lays_behind (casePatterns_leaves h _ _ _ tokens) fun _ tokens => ?_
        dsimp only
        split
        · refine lays_behind (passWord_leaves _ _ _ tokens) fun _ tokens => ?_
          refine lays_behind (pass_leaves _ _ tokens) fun _ tokens => ?_
          refine lays_behind (lays_weaken (h.expression _ _ tokens)) fun _ tokens => ?_
          exact lays_behind (leaves_all _ tokens) hclause
        · exact lays_behind (leaves_all _ tokens) hclause

theorem matchStatement_lays (indent : Nat) (tokens : List Token) :
    Lays Form.places (places tokens) (matchStatement n b indent tokens) := by
  refine lays_after (pass_leaves _ _ tokens) fun _ tokens => ?_
  refine lays_after (subjects_leaves h indent _ _ tokens) fun found tokens => ?_
  refine lays_after (passSymbol_leaves _ _ _ tokens) fun _ tokens => ?_
  dsimp only
  split
  · exact lays_stuck _
  · refine lays_mono (settled_sublist indent { opening := true, lineEnd := true } _ _) ?_
    split
    · exact lays_first (cases_lay h hb _ _ [] _) fun _ _ => lays_ok (.refl _)
    · exact lays_ok (.refl _)
    · exact lays_stuck _

/-! ### Statements and blocks -/

theorem compound?_lays (indent : Nat) (word : String) (reader : Reader Form)
    (hr : reader ∈ compound? n b indent word) (tokens : List Token) :
    Lays Form.places (places tokens) (reader tokens) := by
  unfold compound? at hr
  split_ifs at hr <;> cases hr
  · exact ifStatement_lays h hb indent tokens
  · exact whileStatement_lays h hb indent tokens
  · exact forStatement_lays h hb indent tokens
  · exact tryStatement_lays h hb indent tokens
  · exact withStatement_lays h hb indent tokens
  · exact defineStatement_lays h hb indent tokens
  · exact classStatement_lays h hb indent tokens

theorem asynchronous?_lays (indent : Nat) (tokens : List Token) :
    ∀ reading ∈ asynchronous? n b indent tokens, Lays Form.places (places tokens) reading := by
  unfold asynchronous?
  split
  · next parts token rest hahead =>
    split
    · intro reading hm
      obtain ⟨reader, hr, rfl⟩ := Option.map_eq_some_iff.mp hm
      exact lays_beyond hahead (compound?_lays h hb indent token.text reader hr rest)
    · simp
  · simp

omit h hb in
/-- A compound statement makes a block by itself. -/
theorem singleSentence_lays {token : Token} {rest : List Token}
    {reading : Except Stuck (Form × List Token)}
    (hr : Lays Form.places (behind (token :: rest)) reading) :
    Lays blockPlaces (places (token :: rest)) (do
      let (form, tokens) ← reading
      return ([.mk form token.start], tokens)) := by
  have hstart : ([token.start] ++ behind (token :: rest)).Sublist (places (token :: rest)) :=
    start_behind_sublist token rest
  refine lays_mono hstart ?_
  refine lays_bind hr fun form tokens => lays_ok ?_
  simp [blockPlaces, Sentence.places]

theorem statement_lays (indent : Nat) (tokens : List Token) :
    Lays blockPlaces (places tokens) (statement n b indent tokens) := by
  unfold statement
  split
  · next token rest =>
    have hline := simpleLine_lays h indent (token :: rest).length [] (token :: rest)
    dsimp only
    split
    · exact singleSentence_lays (decorated_lays h hb indent _ _ _)
    · split
      · split
        · next reader hr =>
          exact singleSentence_lays (lays_taken (compound?_lays h hb indent _ reader hr rest))
        · split
          · split
            · next reading hr =>
              exact singleSentence_lays (lays_taken (asynchronous?_lays h hb indent rest reading hr))
            · exact hline
          · split
            · have hmatch : Lays Form.places (behind (token :: rest)) (matchStatement n b indent rest) :=
                lays_taken (matchStatement_lays h hb indent rest)
              exact lays_either (singleSentence_lays hmatch) hline
            · exact hline
      · exact hline
  · exact lays_stuck _

theorem blockFrom_lays (indent : Nat) (fuel : Nat) : ∀ (found : Block) (tokens : List Token),
    Lays blockPlaces (blockPlaces found ++ places tokens) (blockFrom n b indent fuel found tokens) := by
  induction fuel with
  | zero => exact fun _ tokens => lays_stuck tokens
  | succ fuel ih =>
    intro found tokens
    unfold blockFrom
    split
    · exact lays_stuck _
    · refine lays_continued indent { closing := 0 < indent, quote := true } ?_
      dsimp only
      split
      · exact lays_ok (.refl _)
      · split
        · exact lays_ok (.refl _)
        · refine lays_bind (gives_mapError (statement_lays h hb indent _) _) fun next tokens => ?_
          rw [← blockPlaces_append]
          exact ih _ tokens

end

/-- The readers of nested blocks lay the places of blocks at every level. -/
theorem blocks_lay {n : Nested} (h : Onward n) (levels : Nat) : (blocks n levels).LayPlaces := by
  induction levels with
  | zero => exact fun _ tokens => lays_stuck tokens
  | succ levels ih => exact fun indent tokens => blockFrom_lays h ih indent _ [] tokens

theorem sentences_places (tokens : List Token) :
    Gives (fun block => (blockPlaces block).Sublist (places tokens)) (sentences tokens) := by
  have hblocks := blocks_lay (nested_onward (tokens.length + 1)) (tokens.length + 1) 0 tokens
  refine gives_bind hblocks fun read hread => ?_
  have hplaces := (List.sublist_append_left _ _).trans hread
  dsimp only
  split
  · split
    · exact gives_ok hplaces
    · exact gives_error _
  · exact gives_error _
  · exact gives_ok hplaces

/-- The places of the statements that are read are places of the source text, in its order. -/
theorem read_sublist {source : String} {block : Block} (h : read source = .ok block) :
    (blockPlaces block).Sublist (places (tokenize source)) := by
  unfold read at h
  split at h
  · next found he =>
    cases h
    exact sentences_places _ _ he
  · cases h

/-- Each statement that is read begins before all that follow it. -/
theorem read_ascends {source : String} {block : Block} (h : read source = .ok block) :
    (blockPlaces block).Pairwise Position.Before :=
  (places_ascend source).sublist (read_sublist h)

end Marksheet.Grammar
