import Marksheet.Syntax.Tree

/-!
# Trees without their lines

Two trees are the same up to the lines of their statements and handlers if they are
equal once all lines are wiped out.
-/

namespace Marksheet.Syntax

mutual

/-- A statement with all lines in it wiped out. -/
def StmtKind.unlined : StmtKind → StmtKind
  | .if test body orelse => .if test (unlinedStmts body) (unlinedStmts orelse)
  | .while test body orelse => .while test (unlinedStmts body) (unlinedStmts orelse)
  | .for target iter body orelse => .for target iter (unlinedStmts body) (unlinedStmts orelse)
  | .functionDef name params decorators body =>
    .functionDef name params decorators (unlinedStmts body)
  | .classDef name bases decorators body => .classDef name bases decorators (unlinedStmts body)
  | .with items body => .with items (unlinedStmts body)
  | .try body handlers orelse finalbody =>
    .try (unlinedStmts body) (unlinedHandlers handlers) (unlinedStmts orelse)
      (unlinedStmts finalbody)
  | .match subjects cases => .match subjects (unlinedCases cases)
  | .expr value => .expr value
  | .assign targets value => .assign targets value
  | .annAssign target kind value => .annAssign target kind value
  | .augAssign target op value => .augAssign target op value
  | .return value => .return value
  | .imports names => .imports names
  | .importFrom module names wildcard => .importFrom module names wildcard
  | .global names => .global names
  | .nonlocal names => .nonlocal names
  | .raise value => .raise value
  | .assert test msg => .assert test msg
  | .delete items => .delete items
  | .pass => .pass
  | .break => .break
  | .continue => .continue
  | .unsupported kind => .unsupported kind

/-- Statements with all lines wiped out. -/
def unlinedStmts : List Stmt → List Stmt
  | [] => []
  | .mk kind _ :: rest => .mk kind.unlined 0 :: unlinedStmts rest

/-- Handlers with all lines wiped out. -/
def unlinedHandlers : List Handler → List Handler
  | [] => []
  | .mk kind name body _ :: rest => .mk kind name (unlinedStmts body) 0 :: unlinedHandlers rest

/-- The clauses of a `match` with all lines wiped out. -/
def unlinedCases : List MatchCase → List MatchCase
  | [] => []
  | .mk guard body :: rest => .mk guard (unlinedStmts body) :: unlinedCases rest

end

/-- A tree with all lines wiped out. -/
def Module.unlined (tree : Module) : Module := ⟨unlinedStmts tree.body⟩

theorem unlinedStmts_append (body more : List Stmt) :
    unlinedStmts (body ++ more) = unlinedStmts body ++ unlinedStmts more := by
  induction body with
  | nil => simp only [List.nil_append, unlinedStmts]
  | cons stmt body ih =>
    obtain ⟨kind, line⟩ := stmt
    simp only [List.cons_append, unlinedStmts, ih]

end Marksheet.Syntax
