import Marksheet.Grammar.Program
import Marksheet.Proofs.Grammar.Gives
import Marksheet.Proofs.Syntax.Suite

/-!
# What is read has its clauses in order

Each reader of a statement has one lemma about what it gives: a form whose
clauses are in order, if the readers of nested blocks give such blocks.
`blocks_give` closes the circle by induction on the number of levels, and
`read_orderly` says it of a whole source text.
-/

namespace Marksheet.Grammar

open Marksheet.Source Marksheet.Syntax

/-- A reading of a form gives one whose clauses are in order. -/
abbrev GivesForm (reading : Except Stuck (Form × List Token)) : Prop :=
  Gives (fun found => found.1.Orderly) reading

/-- A reading of a block gives one whose clauses are in order. -/
abbrev GivesBlock (reading : Except Stuck (Block × List Token)) : Prop :=
  Gives (fun found => Syntax.Orderly found.1) reading

/-! ### Simple statements -/

/-- The form is in order and has no suites. -/
def Simple (form : Form) : Prop := form.InOrder ∧ form.suites = []

theorem orderly_of_simple {form : Form} (h : Simple form) : form.Orderly :=
  ⟨h.1, by simp [h.2]⟩

/-- A reading of a form gives a simple statement. -/
abbrev GivesSimple (reading : Except Stuck (Form × List Token)) : Prop :=
  Gives (fun found => Simple found.1) reading

theorem complete_gives (indent : Nat) {reading : Except Stuck (Form × List Token)}
    (h : GivesSimple reading) : GivesSimple (complete indent reading) := by
  refine gives_bind h fun found hf => ?_
  dsimp only
  split
  · exact gives_ok hf
  · split
    · exact gives_stuck _
    · exact gives_stuck _

theorem expressionStatement_gives (n : Nested) (indent : Nat) (tokens : List Token) :
    GivesSimple (expressionStatement n indent tokens) :=
  gives_after fun _ => gives_ok ⟨trivial, rfl⟩

theorem importFrom_gives (indent : Nat) (tokens : List Token) :
    GivesSimple (importFrom indent tokens) := by
  refine gives_after fun _ => ?_
  refine gives_after fun _ => ?_
  refine gives_after fun found => ?_
  dsimp only
  split
  · exact gives_after fun _ => gives_ok ⟨trivial, rfl⟩
  · split
    · split
      · exact gives_ok ⟨trivial, rfl⟩
      · exact gives_after fun _ => gives_ok ⟨trivial, rfl⟩
    · exact gives_stuck _

theorem raiseCause_gives (n : Nested) (indent : Nat) (parts : List Phrase) (tokens : List Token) :
    GivesSimple (raiseCause n indent parts tokens) := by
  unfold raiseCause
  split
  · split
    · refine gives_after fun _ => ?_
      exact gives_after fun _ => gives_ok ⟨trivial, rfl⟩
    · exact gives_ok ⟨trivial, rfl⟩
  · exact gives_ok ⟨trivial, rfl⟩

theorem raise_gives (n : Nested) (indent : Nat) (tokens : List Token) :
    GivesSimple (raise n indent tokens) := by
  unfold raise
  split
  · exact raiseCause_gives n indent [] tokens
  · exact gives_after fun _ => raiseCause_gives n indent _ _

theorem legacyPrint_gives (n : Nested) (indent : Nat) (tokens : List Token) :
    GivesSimple (legacyPrint n indent tokens) := by
  refine gives_after fun _ => ?_
  dsimp only
  split
  · split
    · refine gives_after fun _ => ?_
      refine gives_after fun _ => ?_
      refine gives_after fun _ => ?_
      exact gives_after fun _ => gives_ok ⟨trivial, rfl⟩
    · refine gives_after fun _ => ?_
      refine gives_after fun _ => ?_
      exact gives_after fun _ => gives_ok ⟨trivial, rfl⟩
  · refine gives_after fun _ => ?_
    refine gives_after fun _ => ?_
    exact gives_after fun _ => gives_ok ⟨trivial, rfl⟩

/-- The older exec statement behind its code, which may name the scopes it runs in. -/
theorem execScopes_gives (n : Nested) (indent : Nat) (tokens : List Token) :
    GivesSimple (match ahead indent lineEndNext tokens with
      | some (_, token, rest) =>
        if token.isWord "in" then do
          let (_, tokens) ← pass indent operandNext rest
          let (_, tokens) ← strictExpressions n indent tokens.length [] tokens
          return (.legacyExec, tokens)
        else return (.legacyExec, tokens)
      | none => return (.legacyExec, tokens)) := by
  split
  · split
    · refine gives_after fun _ => ?_
      exact gives_after fun _ => gives_ok ⟨trivial, rfl⟩
    · exact gives_ok ⟨trivial, rfl⟩
  · exact gives_ok ⟨trivial, rfl⟩

theorem legacyExec_gives (n : Nested) (indent : Nat) (tokens : List Token) :
    GivesSimple (legacyExec n indent tokens) := by
  refine gives_after fun _ => ?_
  dsimp only
  split
  · split
    · exact gives_after fun found => execScopes_gives n indent found.2
    · exact gives_after fun found => execScopes_gives n indent found.2
  · exact gives_after fun found => execScopes_gives n indent found.2

theorem typeAlias_gives (n : Nested) (indent : Nat) (tokens : List Token) :
    GivesSimple (typeAlias n indent tokens) := by
  refine gives_after fun _ => ?_
  refine gives_after fun _ => ?_
  refine gives_after fun _ => ?_
  refine gives_after fun _ => ?_
  exact gives_after fun _ => gives_ok ⟨trivial, rfl⟩

theorem keywordStatement?_gives (n : Nested) (indent : Nat) (word : String) :
    Offers GivesSimple (keywordStatement? n indent word) := by
  refine offers_if (fun _ => gives_ok ⟨trivial, rfl⟩) ?_
  refine offers_if (fun _ => gives_ok ⟨trivial, rfl⟩) ?_
  refine offers_if (fun _ => gives_ok ⟨trivial, rfl⟩) ?_
  refine offers_if (fun _ => gives_after fun _ => gives_ok ⟨trivial, rfl⟩) ?_
  refine offers_if (fun _ => gives_after fun _ => gives_ok ⟨trivial, rfl⟩) ?_
  refine offers_if (fun _ => gives_after fun _ => gives_ok ⟨trivial, rfl⟩) ?_
  refine offers_if (raise_gives n indent) ?_
  refine offers_if (fun _ => gives_after fun _ => gives_ok ⟨trivial, rfl⟩) ?_
  refine offers_if (fun _ => gives_after fun _ => gives_ok ⟨trivial, rfl⟩) ?_
  refine offers_if (fun _ => gives_after fun _ => gives_after fun _ => gives_ok ⟨trivial, rfl⟩) ?_
  refine offers_if (fun _ => gives_after fun found => importFrom_gives indent found.2) ?_
  exact offers_none

theorem simpleStatement_gives (n : Nested) (indent : Nat) (tokens : List Token) :
    GivesSimple (simpleStatement n indent tokens) := by
  unfold simpleStatement
  split
  · next token rest =>
    have hplain := complete_gives indent (expressionStatement_gives n indent (token :: rest))
    have hprint := complete_gives indent (legacyPrint_gives n indent rest)
    dsimp only
    split
    · split
      · next reader hk =>
        have hform := keywordStatement?_gives n indent token.text reader hk rest
        exact complete_gives indent hform
      · split
        · split
          · exact hprint
          · exact gives_either hplain hprint
        · split
          · exact gives_either hplain (complete_gives indent (legacyExec_gives n indent rest))
          · split
            · exact gives_either (complete_gives indent (typeAlias_gives n indent rest)) hplain
            · exact hplain
    · exact hplain
  · exact gives_stuck _

/-! ### Suites -/

theorem orderly_continued {found : Block} (h : Syntax.Orderly found) (continued : List Continued) :
    Syntax.Orderly (found ++ continuedSentences continued) := by
  refine orderly_append h (orderly_iff.mpr ?_)
  intro sentence hm
  obtain ⟨line, -, rfl⟩ := List.mem_map.mp hm
  exact orderly_of_simple ⟨trivial, rfl⟩

theorem simpleLine_gives (n : Nested) (indent : Nat) (fuel : Nat) :
    ∀ {found : Block} (tokens : List Token), Syntax.Orderly found →
      GivesBlock (simpleLine n indent fuel found tokens) := by
  induction fuel with
  | zero => exact fun tokens _ => gives_stuck tokens
  | succ fuel ih =>
    intro found tokens hfound
    refine gives_bind (simpleStatement_gives n indent tokens) fun read hread => ?_
    have hnext : ∀ start, Syntax.Orderly (found ++ [.mk read.1 start]) := fun start =>
      orderly_append hfound (orderly_singleton (orderly_of_simple hread))
    dsimp only
    split
    · exact gives_stuck _
    · split
      · exact gives_ok (orderly_continued (hnext _) _)
      · refine gives_after fun _ => ?_
        split
        · exact gives_stuck _
        · split
          · exact gives_ok (orderly_continued (orderly_continued (hnext _) _) _)
          · exact ih _ (orderly_continued (orderly_continued (hnext _) _) _)

/-- The readers of nested blocks give blocks whose clauses are in order. -/
def Blocks.GiveOrderly (b : Blocks) : Prop := ∀ indent tokens, GivesBlock (b.block indent tokens)

/-- A reading of what stands behind a colon gives a suite whose clauses are in order. -/
abbrev GivesSuite (reading : Except Stuck ((List Phrase × Block) × List Token)) : Prop :=
  Gives (fun found => Syntax.Orderly found.1.2) reading

section

variable {b : Blocks}

theorem suite_gives (n : Nested) (hb : b.GiveOrderly) (indent : Nat) (tokens : List Token) :
    GivesSuite (suite n b indent tokens) := by
  unfold suite
  split
  · exact gives_stuck _
  · dsimp only
    split
    · exact gives_bind (hb _ _) fun _ hbody => gives_ok hbody
    · exact gives_ok orderly_nil
    · exact gives_bind (simpleLine_gives n indent _ _ orderly_nil) fun _ hbody => gives_ok hbody

theorem colonSuite_gives (n : Nested) (hb : b.GiveOrderly) (indent : Nat) (tokens : List Token) :
    GivesSuite (colonSuite n b indent tokens) := by
  refine gives_after fun read => ?_
  exact gives_bind (suite_gives n hb indent read.2) fun _ hbody => gives_ok hbody

theorem elseClause_gives (n : Nested) (hb : b.GiveOrderly) (indent : Nat) (tokens : List Token) :
    Gives (fun found => ∀ body ∈ found.1, Syntax.Orderly body) (elseClause n b indent tokens) := by
  unfold elseClause
  split
  · refine gives_bind (colonSuite_gives n hb indent _) fun read hbody => gives_ok ?_
    simpa using hbody
  · exact gives_ok (by simp)

/-! ### Conditional statements and loops -/

theorem branches_give (n : Nested) (hb : b.GiveOrderly) (indent : Nat) (fuel : Nat) :
    ∀ {found : List Branch} (tokens : List Token), (∀ branch ∈ found, branch.isElif = true) →
      (∀ branch ∈ found, Syntax.Orderly branch.suite) →
      Gives (fun read => BranchesInOrder read.1 ∧ ∀ branch ∈ read.1, Syntax.Orderly branch.suite)
        (branches n b indent fuel found tokens) := by
  induction fuel with
  | zero =>
    intro found tokens helif hsuites
    exact gives_ok ⟨⟨found, none, by simp, helif⟩, hsuites⟩
  | succ fuel ih =>
    intro found tokens helif hsuites
    unfold branches
    split
    · refine gives_after fun _ => ?_
      refine gives_after fun test => ?_
      refine gives_bind (colonSuite_gives n hb indent _) fun read hbody => ?_
      refine ih read.2 ?_ ?_
      · exact List.forall_mem_append.mpr ⟨helif, by simp [Branch.isElif]⟩
      · exact List.forall_mem_append.mpr ⟨hsuites, by simpa [Branch.suite] using hbody⟩
    · refine gives_bind (elseClause_gives n hb indent tokens) fun read horelse => ?_
      dsimp only
      split
      · next body he =>
        refine gives_ok ⟨⟨found, some body, rfl, helif⟩, ?_⟩
        exact List.forall_mem_append.mpr ⟨hsuites, by simpa [Branch.suite] using horelse body he⟩
      · exact gives_ok ⟨⟨found, none, by simp, helif⟩, hsuites⟩

theorem ifStatement_gives (n : Nested) (hb : b.GiveOrderly) (indent : Nat) (tokens : List Token) :
    GivesForm (ifStatement n b indent tokens) := by
  refine gives_after fun _ => ?_
  refine gives_after fun test => ?_
  refine gives_bind (colonSuite_gives n hb indent _) fun body hbody => ?_
  refine gives_bind (branches_give n hb indent _ _ (by simp) (by simp)) fun further hfurther => ?_
  refine gives_ok ⟨hfurther.1, ?_⟩
  refine List.forall_mem_cons.mpr ⟨hbody, fun entry hm => ?_⟩
  obtain ⟨branch, index, hbranch, rfl⟩ := mem_map_zipIdx hm
  exact hfurther.2 branch (List.mem_of_getElem? hbranch)

/-- The body and the else-branch of a loop, which may be missing. -/
theorem orderly_loop {body : Block} {orelse : Option Block} (hbody : Syntax.Orderly body)
    (horelse : ∀ block ∈ orelse, Syntax.Orderly block) :
    ∀ entry ∈ [(Slot.body, body), (Slot.orelse 0, orelse.getD [])], Syntax.Orderly entry.2 := by
  refine List.forall_mem_cons.mpr ⟨hbody, List.forall_mem_singleton.mpr ?_⟩
  cases orelse with
  | none => exact orderly_nil
  | some block => exact horelse block rfl

theorem whileStatement_gives (n : Nested) (hb : b.GiveOrderly) (indent : Nat)
    (tokens : List Token) : GivesForm (whileStatement n b indent tokens) := by
  refine gives_after fun _ => ?_
  refine gives_after fun test => ?_
  refine gives_bind (colonSuite_gives n hb indent _) fun body hbody => ?_
  refine gives_bind (elseClause_gives n hb indent _) fun orelse horelse => ?_
  exact gives_ok ⟨trivial, orderly_loop hbody horelse⟩

theorem forStatement_gives (n : Nested) (hb : b.GiveOrderly) (indent : Nat) (tokens : List Token) :
    GivesForm (forStatement n b indent tokens) := by
  refine gives_after fun _ => ?_
  refine gives_after fun target => ?_
  refine gives_after fun _ => ?_
  refine gives_after fun _ => ?_
  refine gives_after fun iter => ?_
  refine gives_bind (colonSuite_gives n hb indent _) fun body hbody => ?_
  refine gives_bind (elseClause_gives n hb indent _) fun orelse horelse => ?_
  exact gives_ok ⟨trivial, orderly_loop hbody horelse⟩

/-! ### Exceptions -/

theorem exceptClause_gives (n : Nested) (hb : b.GiveOrderly) (indent : Nat)
    (start : Source.Position) (tokens : List Token) :
    Gives (fun read => read.1.isExcept = true ∧ Syntax.Orderly read.1.suite)
      (exceptClause n b indent start tokens) := by
  refine gives_after fun _ => ?_
  dsimp only
  split
  · split
    · exact gives_bind (colonSuite_gives n hb indent _) fun _ hbody => gives_ok ⟨rfl, hbody⟩
    · refine gives_after fun _ => ?_
      split
      · refine gives_after fun _ => ?_
        refine gives_after fun _ => ?_
        refine gives_after fun _ => ?_
        exact gives_bind (colonSuite_gives n hb indent _) fun _ hbody => gives_ok ⟨rfl, hbody⟩
      · exact gives_bind (colonSuite_gives n hb indent _) fun _ hbody => gives_ok ⟨rfl, hbody⟩
  · exact gives_stuck _

theorem exceptGroup_gives (n : Nested) (hb : b.GiveOrderly) (indent : Nat) (tokens : List Token) :
    Gives (fun read => read.1.isGroup = true ∧ Syntax.Orderly read.1.suite)
      (exceptGroup n b indent tokens) := by
  refine gives_after fun _ => ?_
  refine gives_after fun _ => ?_
  dsimp only
  split
  · refine gives_after fun _ => ?_
    refine gives_after fun _ => ?_
    refine gives_after fun _ => ?_
    exact gives_bind (colonSuite_gives n hb indent _) fun _ hbody => gives_ok ⟨rfl, hbody⟩
  · refine gives_after fun _ => ?_
    exact gives_bind (colonSuite_gives n hb indent _) fun _ hbody => gives_ok ⟨rfl, hbody⟩

/-- The clauses are of the kind that `group` tells. -/
def OfKind (group : Option Bool) (clauses : List Rescue) : Prop :=
  match group with
  | none => clauses = []
  | some false => ∀ clause ∈ clauses, clause.isExcept = true
  | some true => ∀ clause ∈ clauses, clause.isGroup = true

/-- Clauses of the one kind or the other, all suites of which have their clauses in order. -/
def Rescued (clauses : List Rescue) : Prop :=
  ((∀ clause ∈ clauses, clause.isExcept = true) ∨ ∀ clause ∈ clauses, clause.isGroup = true) ∧
    ∀ clause ∈ clauses, Syntax.Orderly clause.suite

theorem rescued_of_kind {group : Option Bool} {clauses : List Rescue} (hkind : OfKind group clauses)
    (hsuites : ∀ clause ∈ clauses, Syntax.Orderly clause.suite) : Rescued clauses := by
  refine ⟨?_, hsuites⟩
  match group, hkind with
  | none, hnone => exact .inl (by simp [show clauses = [] from hnone])
  | some false, hexcept => exact .inl hexcept
  | some true, hgroups => exact .inr hgroups

/-- A group clause may follow unless the clauses before are of the other kind. -/
theorem ofKind_group {group : Option Bool} {clauses : List Rescue} {next : Rescue}
    (hkind : OfKind group clauses) (hgroup : group ≠ some false) (hn : next.isGroup = true) :
    OfKind (some true) (clauses ++ [next]) := by
  have hold : ∀ clause ∈ clauses, clause.isGroup = true := by
    match group, hkind with
    | none, hnone => simp [show clauses = [] from hnone]
    | some false, _ => exact absurd rfl hgroup
    | some true, hgroups => exact hgroups
  exact List.forall_mem_append.mpr ⟨hold, List.forall_mem_singleton.mpr hn⟩

/-- An `except` clause may follow unless the clauses before are group clauses. -/
theorem ofKind_except {group : Option Bool} {clauses : List Rescue} {next : Rescue}
    (hkind : OfKind group clauses) (hgroup : group ≠ some true) (hn : next.isExcept = true) :
    OfKind (some false) (clauses ++ [next]) := by
  have hold : ∀ clause ∈ clauses, clause.isExcept = true := by
    match group, hkind with
    | none, hnone => simp [show clauses = [] from hnone]
    | some false, hexcept => exact hexcept
    | some true, _ => exact absurd rfl hgroup
  exact List.forall_mem_append.mpr ⟨hold, List.forall_mem_singleton.mpr hn⟩

theorem rescues_give (n : Nested) (hb : b.GiveOrderly) (indent : Nat) (fuel : Nat) :
    ∀ {group : Option Bool} {found : List Rescue} (tokens : List Token), OfKind group found →
      (∀ clause ∈ found, Syntax.Orderly clause.suite) →
      Gives (fun read => Rescued read.1) (rescues n b indent fuel group found tokens) := by
  induction fuel with
  | zero => exact fun tokens hkind hsuites => gives_ok (rescued_of_kind hkind hsuites)
  | succ fuel ih =>
    intro group found tokens hkind hsuites
    have hdone := rescued_of_kind hkind hsuites
    unfold rescues
    dsimp only
    split
    · split
      · split
        · next hgroup =>
          have hother : group ≠ some false := by
            rintro rfl
            simp at hgroup
          refine gives_after fun _ => ?_
          refine gives_bind (exceptGroup_gives n hb indent _) fun read hread => ?_
          refine ih read.2 (ofKind_group hkind hother hread.1) ?_
          exact List.forall_mem_append.mpr ⟨hsuites, List.forall_mem_singleton.mpr hread.2⟩
        · split
          · exact gives_ok hdone
          · next hother =>
            refine gives_bind (exceptClause_gives n hb indent _ _) fun read hread => ?_
            refine ih read.2 (ofKind_except hkind hother hread.1) ?_
            exact List.forall_mem_append.mpr ⟨hsuites, List.forall_mem_singleton.mpr hread.2⟩
      · split
        · exact gives_ok hdone
        · split
          · exact gives_stuck _
          · exact gives_ok hdone
    · split
      · exact gives_stuck _
      · exact gives_ok hdone


/-- Clauses of one kind, then an else and a finally clause that may be missing. -/
theorem orderly_try {body : Block} {found : List Rescue} (orelse last : Option Block)
    (hbody : Syntax.Orderly body) (hfound : Rescued found)
    (horelse : ∀ block ∈ orelse, Syntax.Orderly block) (hlast : ∀ block ∈ last, Syntax.Orderly block) :
    (Form.try body (found ++ (orelse.map Rescue.else).toList ++
      (last.map Rescue.finally).toList)).Orderly := by
  rw [List.append_assoc]
  refine ⟨⟨found, orelse, last, rfl, hfound.1⟩, ?_⟩
  refine List.forall_mem_cons.mpr ⟨hbody, fun entry hm => ?_⟩
  obtain ⟨clause, index, hclause, rfl⟩ := mem_map_zipIdx hm
  have hsuites : ∀ clause ∈ found ++ ((orelse.map Rescue.else).toList ++
      (last.map Rescue.finally).toList), Syntax.Orderly clause.suite := by
    refine List.forall_mem_append.mpr ⟨hfound.2, List.forall_mem_append.mpr ⟨?_, ?_⟩⟩
    · simpa [Rescue.suite] using horelse
    · simpa [Rescue.suite] using hlast
  exact hsuites clause (List.mem_of_getElem? hclause)

/-- The end of a `try` statement, where a finally clause may stand. -/
theorem finallyClause_gives (n : Nested) (hb : b.GiveOrderly) (indent : Nat) (viable : Viable)
    {body : Block} {found : List Rescue} (orelse : Option Block) (hbody : Syntax.Orderly body)
    (hfound : Rescued found) (horelse : ∀ block ∈ orelse, Syntax.Orderly block)
    (tokens : List Token) :
    let found := found ++ (orelse.map Rescue.else).toList
    GivesForm (match ahead indent viable tokens with
      | some (_, token, rest) =>
        if token.isWord "finally" then do
          let ((_, last), tokens) ← colonSuite n b indent rest
          return (.try body (found ++ [.finally last]), tokens)
        else if found.isEmpty then stuck (token :: rest)
        else return (.try body found, tokens)
      | none => if found.isEmpty then stuck tokens else return (.try body found, tokens)) := by
  intro found
  have hnone : (Form.try body found).Orderly := by
    simpa using orderly_try orelse none hbody hfound horelse (by simp)
  split
  · split
    · refine gives_bind (colonSuite_gives n hb indent _) fun last hlast => gives_ok ?_
      exact orderly_try orelse (some last.1.2) hbody hfound horelse (by simpa using hlast)
    · split
      · exact gives_stuck _
      · exact gives_ok hnone
  · split
    · exact gives_stuck _
    · exact gives_ok hnone

theorem tryStatement_gives (n : Nested) (hb : b.GiveOrderly) (indent : Nat) (tokens : List Token) :
    GivesForm (tryStatement n b indent tokens) := by
  refine gives_bind (colonSuite_gives n hb indent tokens) fun body hbody => ?_
  refine gives_bind (rescues_give n hb indent _ _ rfl (by simp)) fun found hfound => ?_
  have hshut := (finallyClause_gives n hb indent · none hbody hfound (by simp) found.2)
  dsimp only
  split
  · rw [Bool.or_true, if_pos rfl]
    exact hshut _
  · split
    · exact hshut _
    · refine gives_bind (elseClause_gives n hb indent _) fun orelse horelse => ?_
      exact finallyClause_gives n hb indent _ orelse.1 hbody hfound horelse _

/-! ### Definitions -/

theorem withStatement_gives (n : Nested) (hb : b.GiveOrderly) (indent : Nat) (tokens : List Token) :
    GivesForm (withStatement n b indent tokens) := by
  refine gives_after fun _ => ?_
  refine gives_after fun items => ?_
  refine gives_bind (colonSuite_gives n hb indent _) fun body hbody => ?_
  exact gives_ok ⟨trivial, List.forall_mem_singleton.mpr hbody⟩

/-- A function definition behind its parameters. -/
theorem definedBody_gives (n : Nested) (hb : b.GiveOrderly) (indent : Nat) (name : String)
    (params : List Parameter) (tokens : List Token) :
    GivesForm (do
      let (_, tokens) ← passCloser indent closerNext .rparen tokens
      let (_, tokens) ←
        if peekSymbol indent {} .arrow tokens then do
          let (_, tokens) ← passSymbol indent {} .arrow tokens
          let (_, tokens) ← pass indent operandNext tokens
          let (_, tokens) ← n.type ⟨indent, {}⟩ false tokens
          pure ((), tokens)
        else pure ((), tokens)
      let ((_, body), tokens) ← colonSuite n b indent tokens
      return (.define name params body, tokens)) := by
  refine gives_after fun _ => ?_
  dsimp only
  split
  · refine gives_after fun _ => ?_
    refine gives_after fun _ => ?_
    refine gives_after fun _ => ?_
    refine gives_after fun _ => ?_
    refine gives_bind (colonSuite_gives n hb indent _) fun body hbody => ?_
    exact gives_ok ⟨trivial, List.forall_mem_singleton.mpr hbody⟩
  · refine gives_after fun _ => ?_
    refine gives_bind (colonSuite_gives n hb indent _) fun body hbody => ?_
    exact gives_ok ⟨trivial, List.forall_mem_singleton.mpr hbody⟩

theorem defineStatement_gives (n : Nested) (hb : b.GiveOrderly) (indent : Nat)
    (tokens : List Token) : GivesForm (defineStatement n b indent tokens) := by
  refine gives_after fun name => ?_
  refine gives_after fun _ => ?_
  refine gives_after fun _ => ?_
  refine gives_after fun _ => ?_
  dsimp only
  split
  · split
    · exact gives_after fun params => definedBody_gives n hb indent name.1 params.1 params.2
    · split
      · exact gives_after fun params => definedBody_gives n hb indent name.1 params.1 params.2
      · exact gives_after fun params => definedBody_gives n hb indent name.1 params.1 params.2
  · exact gives_after fun params => definedBody_gives n hb indent name.1 params.1 params.2

theorem classStatement_gives (n : Nested) (hb : b.GiveOrderly) (indent : Nat)
    (tokens : List Token) : GivesForm (classStatement n b indent tokens) := by
  refine gives_after fun name => ?_
  refine gives_after fun _ => ?_
  dsimp only
  split
  · refine gives_after fun _ => ?_
    refine gives_after fun args => ?_
    refine gives_bind (colonSuite_gives n hb indent _) fun body hbody => ?_
    exact gives_ok ⟨trivial, List.forall_mem_singleton.mpr hbody⟩
  · refine gives_after fun args => ?_
    refine gives_bind (colonSuite_gives n hb indent _) fun body hbody => ?_
    exact gives_ok ⟨trivial, List.forall_mem_singleton.mpr hbody⟩

theorem definition_gives (n : Nested) (hb : b.GiveOrderly) (indent : Nat) (tokens : List Token) :
    GivesForm (definition n b indent tokens) := by
  unfold definition
  split
  · split
    · exact defineStatement_gives n hb indent _
    · split
      · exact classStatement_gives n hb indent _
      · split
        · exact gives_after fun _ => defineStatement_gives n hb indent _
        · exact gives_stuck _
  · exact gives_stuck _

theorem decorated_gives (n : Nested) (hb : b.GiveOrderly) (indent : Nat) (fuel : Nat) :
    ∀ (found : List (List Phrase)) (tokens : List Token),
      GivesForm (decorated n b indent fuel found tokens) := by
  induction fuel with
  | zero => exact fun _ tokens => gives_stuck tokens
  | succ fuel ih =>
    intro found tokens
    refine gives_after fun _ => ?_
    refine gives_after fun _ => ?_
    refine gives_after fun _ => ?_
    dsimp only
    split
    · exact gives_stuck _
    · split
      · refine gives_after fun _ => ?_
        split
        · split
          · exact ih _ _
          · exact gives_bind (definition_gives n hb indent _) fun _ hform => gives_ok hform
        · exact gives_stuck _
      · exact gives_stuck _

/-! ### Matching -/

theorem cases_give (n : Nested) (hb : b.GiveOrderly) (indent : Nat) (fuel : Nat) :
    ∀ {found : List Case} (tokens : List Token), (∀ clause ∈ found, Syntax.Orderly clause.suite) →
      Gives (fun read => ∀ clause ∈ read.1, Syntax.Orderly clause.suite)
        (cases n b indent fuel found tokens) := by
  induction fuel with
  | zero => exact fun tokens _ => gives_stuck tokens
  | succ fuel ih =>
    intro found tokens hsuites
    unfold cases
    split
    · exact gives_stuck _
    · dsimp only
      split
      · exact gives_ok hsuites
      · refine gives_after fun _ => ?_
        refine gives_after fun _ => ?_
        refine gives_after fun _ => ?_
        split
        · refine gives_after fun _ => ?_
          refine gives_after fun _ => ?_
          refine gives_after fun _ => ?_
          refine gives_after fun guard => ?_
          refine gives_bind (colonSuite_gives n hb indent _) fun body hbody => ?_
          refine ih body.2 (List.forall_mem_append.mpr ⟨hsuites, ?_⟩)
          exact List.forall_mem_singleton.mpr hbody
        · refine gives_after fun guard => ?_
          refine gives_bind (colonSuite_gives n hb indent _) fun body hbody => ?_
          refine ih body.2 (List.forall_mem_append.mpr ⟨hsuites, ?_⟩)
          exact List.forall_mem_singleton.mpr hbody

theorem matchStatement_gives (n : Nested) (hb : b.GiveOrderly) (indent : Nat)
    (tokens : List Token) : GivesForm (matchStatement n b indent tokens) := by
  refine gives_after fun _ => ?_
  refine gives_after fun found => ?_
  refine gives_after fun _ => ?_
  dsimp only
  split
  · exact gives_stuck _
  · split
    · refine gives_bind (cases_give n hb _ _ _ (by simp)) fun read hread => ?_
      refine gives_ok ⟨trivial, fun entry hm => ?_⟩
      obtain ⟨clause, index, hclause, rfl⟩ := mem_map_zipIdx hm
      exact hread clause (List.mem_of_getElem? hclause)
    · exact gives_ok ⟨trivial, by simp [Form.suites]⟩
    · exact gives_stuck _

/-! ### Statements and blocks -/

theorem compound?_gives (n : Nested) (hb : b.GiveOrderly) (indent : Nat) (word : String) :
    Offers GivesForm (compound? n b indent word) := by
  refine offers_if (ifStatement_gives n hb indent) ?_
  refine offers_if (whileStatement_gives n hb indent) ?_
  refine offers_if (forStatement_gives n hb indent) ?_
  refine offers_if (tryStatement_gives n hb indent) ?_
  refine offers_if (withStatement_gives n hb indent) ?_
  refine offers_if (defineStatement_gives n hb indent) ?_
  refine offers_if (classStatement_gives n hb indent) ?_
  exact offers_none

theorem asynchronous?_gives (n : Nested) (hb : b.GiveOrderly) (indent : Nat) (tokens : List Token) :
    ∀ reading ∈ asynchronous? n b indent tokens, GivesForm reading := by
  unfold asynchronous?
  split
  · next token rest _ =>
    split
    · intro reading hm
      obtain ⟨reader, hr, rfl⟩ := Option.map_eq_some_iff.mp hm
      exact compound?_gives n hb indent token.text reader hr rest
    · simp
  · simp

/-- A compound statement makes a block by itself. -/
theorem singleSentence_gives {reading : Except Stuck (Form × List Token)} (h : GivesForm reading)
    (start : Source.Position) :
    GivesBlock (do
      let (form, tokens) ← reading
      return ([.mk form start], tokens)) :=
  gives_bind h fun _ hread => gives_ok (orderly_singleton hread)

theorem statement_gives (n : Nested) (hb : b.GiveOrderly) (indent : Nat) (tokens : List Token) :
    GivesBlock (statement n b indent tokens) := by
  unfold statement
  split
  · next token rest =>
    have hline := simpleLine_gives n indent (token :: rest).length (token :: rest) orderly_nil
    dsimp only
    split
    · exact singleSentence_gives (decorated_gives n hb indent _ _ _) _
    · split
      · split
        · next reader hr =>
          have hform := compound?_gives n hb indent token.text reader hr rest
          exact singleSentence_gives hform _
        · split
          · split
            · next reading hr =>
              have hform := asynchronous?_gives n hb indent rest reading hr
              exact singleSentence_gives hform _
            · exact hline
          · split
            · have hform := matchStatement_gives n hb indent rest
              exact gives_either (singleSentence_gives hform _) hline
            · exact hline
      · exact hline
  · exact gives_stuck _

theorem blockFrom_gives (n : Nested) (hb : b.GiveOrderly) (indent : Nat) (fuel : Nat) :
    ∀ {found : Block} (tokens : List Token), Syntax.Orderly found →
      GivesBlock (blockFrom n b indent fuel found tokens) := by
  induction fuel with
  | zero => exact fun tokens _ => gives_stuck tokens
  | succ fuel ih =>
    intro found tokens hfound
    unfold blockFrom
    split
    · exact gives_stuck _
    · have hmore := orderly_continued hfound
      dsimp only
      split
      · exact gives_ok (hmore _)
      · split
        · exact gives_ok (hmore _)
        · refine gives_bind (gives_mapError (statement_gives n hb indent _) _) fun next hnext => ?_
          exact ih next.2 (orderly_append (hmore _) hnext)

end

/-- The readers of nested blocks give orderly blocks at every level. -/
theorem blocks_give (n : Nested) (levels : Nat) : (blocks n levels).GiveOrderly := by
  induction levels with
  | zero => exact fun _ tokens => gives_stuck tokens
  | succ levels ih => exact fun indent tokens => blockFrom_gives n ih indent _ tokens orderly_nil

theorem sentences_give (tokens : List Token) : Gives Syntax.Orderly (sentences tokens) := by
  refine gives_bind (blocks_give _ _ 0 tokens) fun read hread => ?_
  dsimp only
  split
  · split
    · exact gives_ok hread
    · exact gives_error _
  · exact gives_error _
  · exact gives_ok hread

/-- The clauses of all statements of a source text that is read are in order. -/
theorem read_orderly {source : String} {block : Block} (h : read source = .ok block) :
    Syntax.Orderly block := by
  unfold read at h
  split at h
  · next found he =>
    cases h
    exact sentences_give _ _ he
  · cases h

end Marksheet.Grammar
