import Mathlib.Data.List.Flatten
import Marksheet.Proofs.Syntax.Places

/-!
# Lines of a tree

`blockStartLines` lists the lines of the statements and handlers of a block, with
all that is nested in them, in the order in which they are written. The block that
a concrete one stands for has its lines from the places there, in their order
(`block_laid`). Where these lines never decrease, no statement begins before one
that holds it or that stands before it (`ordered_of_within`).
-/

namespace Marksheet.Syntax

open Marksheet.Source (Position)

/-! ### Nested blocks -/

/-- The line of a handler. -/
def Handler.line : Handler → Nat
  | .mk _ _ _ line => line

/-- The handlers of a statement. -/
def StmtKind.handlers : StmtKind → List Handler
  | .try _ handlers _ _ => handlers
  | _ => []

/-- The blocks of a statement in the order in which they are written. -/
def StmtKind.blocks : StmtKind → List (List Stmt)
  | .if _ body orelse | .while _ body orelse | .for _ _ body orelse => [body, orelse]
  | .functionDef _ _ _ body | .classDef _ _ _ body | .with _ body => [body]
  | .try body handlers orelse finalbody =>
    body :: handlers.map Handler.body ++ [orelse, finalbody]
  | .match _ cases => cases.map MatchCase.body
  | _ => []

/-- A statement stands in a block, at any depth. -/
inductive Within : List Stmt → Stmt → Prop where
  | here {block : List Stmt} {stmt : Stmt} (member : stmt ∈ block) : Within block stmt
  | inside {block suite : List Stmt} {outer stmt : Stmt} (member : outer ∈ block)
      (entered : suite ∈ outer.kind.blocks) (inner : Within suite stmt) : Within block stmt

/-! ### Lines in the order of writing -/

mutual

/-- The line of a statement and the lines in it. -/
def Stmt.startLines : Stmt → List Nat
  | .mk kind line => line :: kind.startLines

/-- The lines of a block. -/
def blockStartLines : List Stmt → List Nat
  | [] => []
  | stmt :: rest => stmt.startLines ++ blockStartLines rest

/-- The lines in a statement. -/
def StmtKind.startLines : StmtKind → List Nat
  | .if _ body orelse | .while _ body orelse | .for _ _ body orelse =>
    blockStartLines body ++ blockStartLines orelse
  | .functionDef _ _ _ body | .classDef _ _ _ body | .with _ body => blockStartLines body
  | .try body handlers orelse finalbody =>
    blockStartLines body ++ handlerStartLines handlers ++
      (blockStartLines orelse ++ blockStartLines finalbody)
  | .match _ cases => caseStartLines cases
  | _ => []

/-- The line of a handler and the lines in it. -/
def Handler.startLines : Handler → List Nat
  | .mk _ _ body line => line :: blockStartLines body

/-- The lines of handlers. -/
def handlerStartLines : List Handler → List Nat
  | [] => []
  | handler :: rest => handler.startLines ++ handlerStartLines rest

/-- The lines of a `case` clause. -/
def MatchCase.startLines : MatchCase → List Nat
  | .mk _ body => blockStartLines body

/-- The lines of `case` clauses. -/
def caseStartLines : List MatchCase → List Nat
  | [] => []
  | clause :: rest => clause.startLines ++ caseStartLines rest

end

theorem Stmt.startLines_eq (stmt : Stmt) : stmt.startLines = stmt.line :: stmt.kind.startLines := by
  cases stmt
  rfl

theorem Handler.startLines_eq (handler : Handler) :
    handler.startLines = handler.line :: blockStartLines handler.body := by
  cases handler
  rfl

theorem blockStartLines_eq (block : List Stmt) :
    blockStartLines block = block.flatMap Stmt.startLines := by
  induction block with
  | nil => rfl
  | cons stmt rest ih => rw [blockStartLines, ih, List.flatMap_cons]

theorem handlerStartLines_eq (handlers : List Handler) :
    handlerStartLines handlers = handlers.flatMap Handler.startLines := by
  induction handlers with
  | nil => rfl
  | cons handler rest ih => rw [handlerStartLines, ih, List.flatMap_cons]

theorem caseStartLines_eq (cases : List MatchCase) :
    caseStartLines cases = cases.flatMap MatchCase.startLines := by
  induction cases with
  | nil => rfl
  | cons clause rest ih => rw [caseStartLines, ih, List.flatMap_cons]

theorem handlers_startLines (handlers : List Handler) :
    ((handlers.map Handler.body).flatMap blockStartLines).Sublist (handlerStartLines handlers) := by
  rw [handlerStartLines_eq, List.flatMap_map]
  refine .flatMap_right handlers fun handler _ => ?_
  rw [handler.startLines_eq]
  exact List.sublist_cons_self _ _

theorem cases_startLines (cases : List MatchCase) :
    (cases.map MatchCase.body).flatMap blockStartLines = caseStartLines cases := by
  rw [caseStartLines_eq, List.flatMap_map]
  congr 1
  funext clause
  cases clause
  rfl

/-- The lines of the blocks of a statement are lines in it, in the same order. -/
theorem blocks_startLines (kind : StmtKind) :
    (kind.blocks.flatMap blockStartLines).Sublist kind.startLines := by
  cases kind with
  | «if» _ body orelse | «while» _ body orelse | «for» _ _ body orelse =>
    have horelse : ([orelse].flatMap blockStartLines).Sublist (blockStartLines orelse) := by simp
    exact (List.Sublist.refl (blockStartLines body)).append horelse
  | functionDef _ _ _ body | classDef _ _ _ body | «with» _ body =>
    have hbody : ([body].flatMap blockStartLines).Sublist (blockStartLines body) := by simp
    exact hbody
  | «try» body handlers orelse finalbody =>
    have hlast : ([orelse, finalbody].flatMap blockStartLines).Sublist
        (blockStartLines orelse ++ blockStartLines finalbody) := by simp
    have hmiddle := (List.Sublist.refl (blockStartLines body)).append (handlers_startLines handlers)
    have hall := hmiddle.append hlast
    rwa [← List.flatMap_cons, ← List.flatMap_append] at hall
  | «match» _ cases => exact (cases_startLines cases).symm ▸ .refl _
  | _ => exact .refl _

/-- The lines of a handler are lines in its statement. -/
theorem handler_startLines {kind : StmtKind} {handler : Handler} (h : handler ∈ kind.handlers) :
    handler.startLines.Sublist kind.startLines := by
  cases kind with
  | «try» body handlers orelse finalbody =>
    have hall : handler.startLines.Sublist (handlerStartLines handlers) := by
      rw [handlerStartLines_eq]
      exact List.sublist_flatten_of_mem (List.mem_map_of_mem h)
    exact (hall.trans (List.sublist_append_right _ _)).trans (List.sublist_append_left _ _)
  | _ => cases h

/-! ### Lines of the places in the concrete form -/

/-- The lines of the block that a concrete one stands for are lines of places there, in their
order. -/
def Laid (block : Block) : Prop :=
  (blockStartLines (stmts block)).Sublist ((blockPlaces block).map Position.line)

/-- An `elif` has its own line, and what stands behind an else-branch is lost. -/
theorem branches_laid (branches : List Branch) (h : ∀ branch ∈ branches, Laid branch.suite) :
    (blockStartLines (branchStmts branches)).Sublist
      ((branchesPlaces branches).map Position.line) := by
  induction branches with
  | nil => exact .refl _
  | cons branch rest ih =>
    obtain ⟨hbranch, hrest⟩ := List.forall_mem_cons.mp h
    rw [branchesPlaces, List.map_append]
    cases branch with
    | elif start test body =>
      have hinner := hbranch.append (ih hrest)
      simpa [branchStmts, blockStartLines, Stmt.startLines, StmtKind.startLines, Branch.places,
        Branch.suite] using hinner
    | «else» body => exact hbranch.trans (List.sublist_append_left _ _)

theorem cases_laid (cases : List Case) (h : ∀ clause ∈ cases, Laid clause.suite) :
    (caseStartLines (matchCases cases)).Sublist ((casesPlaces cases).map Position.line) := by
  induction cases with
  | nil => exact .refl _
  | cons clause rest ih =>
    obtain ⟨hclause, hrest⟩ := List.forall_mem_cons.mp h
    cases clause
    rw [casesPlaces, List.map_append]
    exact hclause.append (ih hrest)

/-- An `except` clause has its own line, and no other clause makes a handler. -/
theorem handlers_laid (clauses : List Rescue) (h : ∀ clause ∈ clauses, Laid clause.suite) :
    (handlerStartLines (handlers clauses)).Sublist ((rescuesPlaces clauses).map Position.line) := by
  induction clauses with
  | nil => exact .refl _
  | cons clause rest ih =>
    obtain ⟨hclause, hrest⟩ := List.forall_mem_cons.mp h
    rw [rescuesPlaces, List.map_append]
    cases clause with
    | except start parts body =>
      have hinner := hclause.append (ih hrest)
      simpa [handlers, handlerStartLines, Handler.startLines, Rescue.places, Rescue.suite] using
        hinner
    | _ => exact (ih hrest).trans (List.sublist_append_right _ _)

theorem handlers_append (first second : List Rescue) :
    handlers (first ++ second) = handlers first ++ handlers second := by
  induction first with
  | nil => rfl
  | cons clause rest ih => cases clause <;> simp [handlers, ih]

/-- An else clause and a last one make no handlers, and their own blocks. -/
theorem lastClauses_laid (orelse last : Option Block) (ho : ∀ body ∈ orelse, Laid body)
    (hl : ∀ body ∈ last, Laid body) :
    handlers ((orelse.map Rescue.else).toList ++ (last.map Rescue.finally).toList) = [] ∧
      (blockStartLines (elseStmts ((orelse.map Rescue.else).toList ++
          (last.map Rescue.finally).toList)) ++
        blockStartLines (finallyStmts ((orelse.map Rescue.else).toList ++
          (last.map Rescue.finally).toList))).Sublist
        ((rescuesPlaces ((orelse.map Rescue.else).toList ++
          (last.map Rescue.finally).toList)).map Position.line) := by
  cases orelse with
  | none =>
    cases last with
    | none => exact ⟨rfl, .refl _⟩
    | some last =>
      have hlast : (blockStartLines (stmts last)).Sublist _ := hl last rfl
      exact ⟨rfl, by
        simpa [elseStmts, finallyStmts, blockStartLines, rescuesPlaces, Rescue.places] using hlast⟩
  | some orelse =>
    have horelse : (blockStartLines (stmts orelse)).Sublist _ := ho orelse rfl
    cases last with
    | none =>
      exact ⟨rfl, by
        simpa [elseStmts, finallyStmts, blockStartLines, rescuesPlaces, Rescue.places] using
          horelse⟩
    | some last =>
      have hboth := horelse.append (hl last rfl)
      exact ⟨rfl, by simpa [elseStmts, finallyStmts, rescuesPlaces, Rescue.places] using hboth⟩

/-- The clauses of a `try` statement in order: handlers, an else-branch and a last block. -/
theorem clauses_laid {clauses : List Rescue} (horder : ClausesInOrder clauses)
    (h : ∀ clause ∈ clauses, Laid clause.suite) :
    (handlerStartLines (handlers clauses) ++
      (blockStartLines (elseStmts clauses) ++ blockStartLines (finallyStmts clauses))).Sublist
        ((rescuesPlaces clauses).map Position.line) := by
  obtain ⟨heads, orelse, last, rfl, hkinds⟩ := horder
  have hplain : ∀ head ∈ heads, head.isExcept = true ∨ head.isGroup = true := fun head hm =>
    hkinds.imp (· head hm) (· head hm)
  obtain ⟨hheads, hrest⟩ := List.forall_mem_append.mp h
  obtain ⟨hnone, hlater⟩ := lastClauses_laid orelse last
    (fun body hm => hrest (.else body) (by simp [Option.mem_def.mp hm]))
    (fun body hm => hrest (.finally body) (by simp [Option.mem_def.mp hm]))
  rw [rescuesPlaces_append, List.map_append, handlers_append, (laterStmts_append hplain).1,
    (laterStmts_append hplain).2, hnone, List.append_nil]
  exact (handlers_laid heads hheads).append hlater

/-- An expression statement holds no other. -/
theorem expressionStmt_startLines (parts : List Phrase) :
    (expressionStmt parts).startLines = [] := by
  have hsingle (phrase : Phrase) : phrase.statement.startLines = [] := by
    unfold Phrase.statement
    split
    · rfl
    · split <;> rfl
    · rfl
    · rfl
  unfold expressionStmt
  split
  · exact hsingle _
  · rfl

/-- The lines in a statement are lines of the places in its concrete form, in their order. -/
theorem form_laid : ∀ (decorators : List Expr) (form : Form), form.InOrder →
    (∀ body ∈ form.bodies, Laid body) →
      (form.kind decorators).startLines.Sublist (form.places.map Position.line)
  | _, .if test body further, _, h => by
    rw [bodies_if] at h
    obtain ⟨hbody, hfurther⟩ := List.forall_mem_cons.mp h
    have hbranches := branches_laid further fun branch hm =>
      hfurther branch.suite (List.mem_map_of_mem hm)
    have hall := hbody.append hbranches
    rwa [← List.map_append] at hall
  | _, .while _ body orelse, _, h | _, .for _ _ body orelse, _, h => by
    have hall := (h body (by simp [Form.bodies, Form.suites])).append
      (h orelse (by simp [Form.bodies, Form.suites]))
    rwa [← List.map_append] at hall
  | _, .try body clauses, horder, h => by
    rw [bodies_try] at h
    obtain ⟨hbody, hrest⟩ := List.forall_mem_cons.mp h
    have hclauses := clauses_laid horder fun clause hm =>
      hrest clause.suite (List.mem_map_of_mem hm)
    have hall := hbody.append hclauses
    rwa [← List.append_assoc, ← List.map_append] at hall
  | _, .with _ body, _, h | _, .define _ _ body, _, h | _, .class _ _ body, _, h =>
    h body (by simp [Form.bodies, Form.suites])
  | _, .decorated _ definition, horder, h => form_laid _ definition horder h
  | _, .match subjects clauses, _, h => by
    rw [bodies_match] at h
    exact cases_laid clauses fun clause hm => h clause.suite (List.mem_map_of_mem hm)
  | _, .expression parts, _, _ => (expressionStmt_startLines parts).symm ▸ List.nil_sublist _
  | _, .assert parts, _, _ => by
    unfold Form.kind
    split <;> exact List.nil_sublist _
  | _, .continuation, _, _ | _, .legacyPrint, _, _ | _, .legacyExec, _, _ | _, .return _, _, _
  | _, .delete _, _, _ | _, .raise _, _, _ | _, .imports _, _, _ | _, .importFrom .., _, _
  | _, .importFuture, _, _ | _, .global _, _, _ | _, .nonlocal _, _, _ | _, .pass, _, _
  | _, .break, _, _ | _, .continue, _, _ | _, .typeAlias, _, _ => List.nil_sublist _

/-- The lines of the block that a concrete one stands for are lines of its places, in their
order. -/
theorem block_laid {block : Block} (h : Orderly block) : Laid block := by
  induction h with
  | @intro block here inside ih =>
    have hlines : blockStartLines (stmts block) =
        block.flatMap fun sentence => sentence.stmt.startLines := by
      rw [blockStartLines_eq, stmts_eq_map, List.flatMap_map]
    rw [Laid, hlines, blockPlaces_eq, List.map_flatMap]
    refine .flatMap_right block fun sentence hm => ?_
    have hform := form_laid [] sentence.form (here sentence hm) fun body hbody => by
      obtain ⟨entry, hentry, rfl⟩ := List.mem_map.mp hbody
      exact ih sentence hm entry hentry
    rw [Stmt.startLines_eq, sentence.stmt_line, sentence.stmt_kind, sentence_places, List.map_cons]
    exact hform.cons_cons _

/-! ### Lines that never decrease -/

/-- How the lines of a statement and of all that it holds lie in a text of so many lines. -/
structure Stmt.Ordered (count : Nat) (stmt : Stmt) : Prop where
  /-- It begins in the text. -/
  range : 1 ≤ stmt.line ∧ stmt.line ≤ count
  /-- In each of its blocks lines never decrease, and nothing there begins before it. -/
  blocks : ∀ block ∈ stmt.kind.blocks,
    (block.Pairwise fun first second => first.line ≤ second.line) ∧
      ∀ inner, Within block inner → stmt.line ≤ inner.line
  /-- Nothing in one of its blocks begins before anything in a block before that. -/
  across : stmt.kind.blocks.Pairwise fun first second =>
    ∀ inner, Within first inner → ∀ later, Within second later → inner.line ≤ later.line
  /-- Each handler begins in the text, not before the statement, and nothing in it before it. -/
  handlers : ∀ handler ∈ stmt.kind.handlers,
    (1 ≤ handler.line ∧ handler.line ≤ count) ∧ stmt.line ≤ handler.line ∧
      ∀ inner, Within handler.body inner → handler.line ≤ inner.line

/-- The lines of a statement are lines of every block in which it stands. -/
theorem Within.startLines {block : List Stmt} {stmt : Stmt} (h : Within block stmt) :
    stmt.startLines.Sublist (blockStartLines block) := by
  have hmember {block : List Stmt} {stmt : Stmt} (hm : stmt ∈ block) :
      stmt.startLines.Sublist (blockStartLines block) := by
    rw [blockStartLines_eq]
    exact List.sublist_flatten_of_mem (List.mem_map_of_mem hm)
  induction h with
  | here member => exact hmember member
  | @inside block suite outer stmt member entered inner ih =>
    have hsuite : (blockStartLines suite).Sublist outer.kind.startLines :=
      (List.sublist_flatten_of_mem (List.mem_map_of_mem entered)).trans
        (blocks_startLines outer.kind)
    have houter : outer.kind.startLines.Sublist outer.startLines := by
      rw [outer.startLines_eq]
      exact List.sublist_cons_self _ _
    exact ((ih.trans hsuite).trans houter).trans (hmember member)

theorem Within.line_mem {block : List Stmt} {stmt : Stmt} (h : Within block stmt) :
    stmt.line ∈ blockStartLines block := by
  refine h.startLines.subset ?_
  rw [stmt.startLines_eq]
  exact List.mem_cons_self

/-- If no line of a block decreases, its own statements stand in the order of their lines. -/
theorem pairwise_line {block : List Stmt} (h : (blockStartLines block).Pairwise (· ≤ ·)) :
    block.Pairwise fun first second => first.line ≤ second.line := by
  rw [blockStartLines_eq, List.pairwise_flatMap] at h
  refine h.2.imp fun {first second} hall => hall _ ?_ _ ?_
  · rw [first.startLines_eq]
    exact List.mem_cons_self
  · rw [second.startLines_eq]
    exact List.mem_cons_self

/-- Where lines never decrease, they are in order around every statement. -/
theorem ordered_of_within {count : Nat} {block : List Stmt} {stmt : Stmt}
    (hsorted : (blockStartLines block).Pairwise (· ≤ ·))
    (hrange : ∀ line ∈ blockStartLines block, 1 ≤ line ∧ line ≤ count) (h : Within block stmt) :
    stmt.Ordered count := by
  have hlines := hsorted.sublist h.startLines
  rw [stmt.startLines_eq, List.pairwise_cons] at hlines
  obtain ⟨hself, hinner⟩ := hlines
  have hblocks := hinner.sublist (blocks_startLines stmt.kind)
  rw [List.pairwise_flatMap] at hblocks
  refine ⟨hrange _ h.line_mem, fun suite hm => ⟨pairwise_line (hblocks.1 suite hm), ?_⟩, ?_, ?_⟩
  · intro inner hw
    have hline : inner.line ∈ stmt.kind.blocks.flatMap blockStartLines :=
      List.mem_flatMap.mpr ⟨suite, hm, hw.line_mem⟩
    exact hself _ ((blocks_startLines stmt.kind).subset hline)
  · exact hblocks.2.imp fun hall inner hw later hl => hall _ hw.line_mem _ hl.line_mem
  · intro handler hm
    have hhandler := handler_startLines hm
    have hin : handler.line ∈ stmt.kind.startLines := by
      refine hhandler.subset ?_
      rw [handler.startLines_eq]
      exact List.mem_cons_self
    have hbelow := hinner.sublist hhandler
    rw [handler.startLines_eq, List.pairwise_cons] at hbelow
    have hall : handler.line ∈ blockStartLines block := by
      refine h.startLines.subset ?_
      rw [stmt.startLines_eq]
      exact List.mem_cons_of_mem _ hin
    exact ⟨hrange _ hall, hself _ hin, fun inner hw => hbelow.1 _ hw.line_mem⟩

end Marksheet.Syntax
