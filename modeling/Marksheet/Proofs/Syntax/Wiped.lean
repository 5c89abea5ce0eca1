import Mathlib.Data.List.Basic
import Marksheet.Syntax.Tree

/-!
# Trees without their texts

`Module.wiped` wipes out of a tree the texts that no check looks at: the values
of strings, the names of parameters and handlers, declared names, and every
imported name but `random` and `choice`. Two trees are the same up to such
texts if they are equal then.
-/

namespace Marksheet.Syntax

/-- An imported name that a check looks for; no other name is kept. -/
def knownName (name : String) : String :=
  if name = "random" ∨ name = "choice" then name else ""

mutual

/-- The expression with the texts in it wiped out. -/
def Expr.wiped : Expr → Expr
  | .name id => .name id
  | .str _ => .str ""
  | .fstring parts => .fstring (wipedParts parts)
  | .int value => .int value
  | .float bits => .float bits
  | .bool value => .bool value
  | .none => .none
  | .ellipsis => .ellipsis
  | .list items => .list (wipedExprs items)
  | .tuple items => .tuple (wipedExprs items)
  | .set items => .set (wipedExprs items)
  | .dict entries => .dict (wipedEntries entries)
  | .boolOp op left right => .boolOp op left.wiped right.wiped
  | .not operand => .not operand.wiped
  | .unary op operand => .unary op operand.wiped
  | .compare left links => .compare left.wiped (wipedLinks links)
  | .binOp op left right => .binOp op left.wiped right.wiped
  | .call func args kwargs => .call func.wiped (wipedExprs args) (wipedKeywords kwargs)
  | .attribute value attr => .attribute value.wiped attr
  | .subscript value index => .subscript value.wiped index.wiped
  | .slice lower upper step => .slice (wipedExpr? lower) (wipedExpr? upper) (wipedExpr? step)
  | .ifExp test body orelse => .ifExp test.wiped body.wiped orelse.wiped
  | .comprehension kind elt value generators =>
    .comprehension kind elt.wiped (wipedExpr? value) (wipedGenerators generators)
  | .lambda params body => .lambda (wipedParams params) body.wiped
  | .namedExpr id value => .namedExpr id value.wiped
  | .yield value => .yield (wipedExpr? value)
  | .starred value => .starred value.wiped
  | .unsupported kind => .unsupported kind

/-- The expressions with the texts in them wiped out. -/
def wipedExprs : List Expr → List Expr
  | [] => []
  | value :: rest => value.wiped :: wipedExprs rest

/-- An expression that may be absent, with the texts in it wiped out. -/
def wipedExpr? : Option Expr → Option Expr
  | none => none
  | some value => some value.wiped

/-- The entries of a mapping with the texts in them wiped out. -/
def wipedEntries : List (Option Expr × Expr) → List (Option Expr × Expr)
  | [] => []
  | (key, value) :: rest => (wipedExpr? key, value.wiped) :: wipedEntries rest

/-- The links of a comparison with the texts in them wiped out. -/
def wipedLinks : List (CmpOp × Expr) → List (CmpOp × Expr)
  | [] => []
  | (op, operand) :: rest => (op, operand.wiped) :: wipedLinks rest

/-- The keyword arguments with the texts in them wiped out. -/
def wipedKeywords : List (String × Expr) → List (String × Expr)
  | [] => []
  | (name, value) :: rest => (name, value.wiped) :: wipedKeywords rest

/-- The part of a string without its texts. -/
def FStringPart.wiped : FStringPart → FStringPart
  | .literal _ => .literal ""
  | .interpolation value conversion spec =>
    .interpolation value.wiped conversion (spec.map fun _ => "")

/-- The parts of a string without their texts. -/
def wipedParts : List FStringPart → List FStringPart
  | [] => []
  | part :: rest => part.wiped :: wipedParts rest

/-- The clause of a comprehension with the texts in it wiped out. -/
def Generator.wiped : Generator → Generator
  | .mk target iter conditions => .mk target.wiped iter.wiped (wipedExprs conditions)

/-- The clauses of a comprehension with the texts in them wiped out. -/
def wipedGenerators : List Generator → List Generator
  | [] => []
  | clause :: rest => clause.wiped :: wipedGenerators rest

/-- The parameter without its name. -/
def Param.wiped : Param → Param
  | .mk _ default => .mk "" (wipedExpr? default)

/-- The parameters without their names. -/
def wipedParams : List Param → List Param
  | [] => []
  | param :: rest => param.wiped :: wipedParams rest

/-- The target with the texts in it wiped out. -/
def Target.wiped : Target → Target
  | .name id => .name id
  | .tuple items => .tuple (wipedTargets items)
  | .subscript value index => .subscript value.wiped index.wiped
  | .attribute value attr => .attribute value.wiped attr
  | .starred target => .starred target.wiped
  | .unsupported kind => .unsupported kind

/-- The targets with the texts in them wiped out. -/
def wipedTargets : List Target → List Target
  | [] => []
  | target :: rest => target.wiped :: wipedTargets rest

end

/-- The entry of a mapping with the texts in it wiped out. -/
def wipedEntry (entry : Option Expr × Expr) : Option Expr × Expr :=
  (entry.1.map Expr.wiped, entry.2.wiped)

/-- The link of a comparison with the texts in it wiped out. -/
def wipedLink (link : CmpOp × Expr) : CmpOp × Expr := (link.1, link.2.wiped)

/-- The keyword argument with the texts in it wiped out. -/
def wipedKeyword (keyword : String × Expr) : String × Expr := (keyword.1, keyword.2.wiped)

/-- The imported name if a check looks for it. -/
def ImportName.wiped (imported : ImportName) : ImportName :=
  ⟨knownName imported.name, imported.asname⟩

/-- The item of a `with` header with the texts in it wiped out. -/
def WithItem.wiped (item : WithItem) : WithItem :=
  ⟨item.context.wiped, item.target.map Target.wiped⟩

@[simp] theorem wipedExprs_eq (items : List Expr) : wipedExprs items = items.map Expr.wiped := by
  induction items with
  | nil => rfl
  | cons item items ih => rw [wipedExprs, List.map_cons, ih]

@[simp] theorem wipedExpr?_eq (item : Option Expr) : wipedExpr? item = item.map Expr.wiped := by
  cases item <;> rfl

@[simp] theorem wipedEntries_eq (entries : List (Option Expr × Expr)) :
    wipedEntries entries = entries.map wipedEntry := by
  induction entries with
  | nil => rfl
  | cons entry entries ih => rw [wipedEntries, List.map_cons, ih, wipedEntry, wipedExpr?_eq]

@[simp] theorem wipedLinks_eq (links : List (CmpOp × Expr)) : wipedLinks links = links.map wipedLink := by
  induction links with
  | nil => rfl
  | cons link links ih => rw [wipedLinks, List.map_cons, ih, wipedLink]

@[simp] theorem wipedKeywords_eq (keywords : List (String × Expr)) :
    wipedKeywords keywords = keywords.map wipedKeyword := by
  induction keywords with
  | nil => rfl
  | cons keyword keywords ih => rw [wipedKeywords, List.map_cons, ih, wipedKeyword]

@[simp] theorem wipedParts_eq (parts : List FStringPart) :
    wipedParts parts = parts.map FStringPart.wiped := by
  induction parts with
  | nil => rfl
  | cons part parts ih => rw [wipedParts, List.map_cons, ih]

@[simp] theorem wipedGenerators_eq (clauses : List Generator) :
    wipedGenerators clauses = clauses.map Generator.wiped := by
  induction clauses with
  | nil => rfl
  | cons clause clauses ih => rw [wipedGenerators, List.map_cons, ih]

@[simp] theorem wipedParams_eq (params : List Param) : wipedParams params = params.map Param.wiped := by
  induction params with
  | nil => rfl
  | cons param params ih => rw [wipedParams, List.map_cons, ih]

@[simp] theorem wipedTargets_eq (targets : List Target) :
    wipedTargets targets = targets.map Target.wiped := by
  induction targets with
  | nil => rfl
  | cons target targets ih => rw [wipedTargets, List.map_cons, ih]

/-! ### Statements -/

mutual

/-- The statement with the texts in it wiped out. -/
def Stmt.wiped : Stmt → Stmt
  | .mk kind line => .mk kind.wiped line

/-- The form of a statement with the texts in it wiped out. -/
def StmtKind.wiped : StmtKind → StmtKind
  | .expr value => .expr value.wiped
  | .assign targets value => .assign (targets.map Target.wiped) value.wiped
  | .annAssign target kind value => .annAssign target.wiped kind.wiped (value.map Expr.wiped)
  | .augAssign target op value => .augAssign target.wiped op value.wiped
  | .if test body orelse => .if test.wiped (wipedStmts body) (wipedStmts orelse)
  | .while test body orelse => .while test.wiped (wipedStmts body) (wipedStmts orelse)
  | .for target iter body orelse =>
    .for target.wiped iter.wiped (wipedStmts body) (wipedStmts orelse)
  | .functionDef name params decorators body =>
    .functionDef name (params.map Param.wiped) (decorators.map Expr.wiped) (wipedStmts body)
  | .classDef name bases decorators body =>
    .classDef name (bases.map Expr.wiped) (decorators.map Expr.wiped) (wipedStmts body)
  | .with items body => .with (items.map WithItem.wiped) (wipedStmts body)
  | .return value => .return (value.map Expr.wiped)
  | .imports names => .imports (names.map ImportName.wiped)
  | .importFrom module names wildcard =>
    .importFrom (knownName module) (names.map ImportName.wiped) wildcard
  | .global names => .global (names.map fun _ => "")
  | .nonlocal names => .nonlocal (names.map fun _ => "")
  | .try body handlers orelse finalbody =>
    .try (wipedStmts body) (wipedHandlers handlers) (wipedStmts orelse) (wipedStmts finalbody)
  | .raise value => .raise (value.map Expr.wiped)
  | .assert test msg => .assert test.wiped (msg.map Expr.wiped)
  | .delete items => .delete (items.map Expr.wiped)
  | .match subjects cases => .match (subjects.map Expr.wiped) (wipedCases cases)
  | .pass => .pass
  | .break => .break
  | .continue => .continue
  | .unsupported kind => .unsupported kind

/-- The statements with the texts in them wiped out. -/
def wipedStmts : List Stmt → List Stmt
  | [] => []
  | stmt :: rest => stmt.wiped :: wipedStmts rest

/-- The handler without its name and with the texts in it wiped out. -/
def Handler.wiped : Handler → Handler
  | .mk kind name body line =>
    .mk (kind.map Expr.wiped) (name.map fun _ => "") (wipedStmts body) line

/-- The handlers without their names and with the texts in them wiped out. -/
def wipedHandlers : List Handler → List Handler
  | [] => []
  | handler :: rest => handler.wiped :: wipedHandlers rest

/-- The clause of a `match` with the texts in it wiped out. -/
def MatchCase.wiped : MatchCase → MatchCase
  | .mk guard body => .mk (guard.map Expr.wiped) (wipedStmts body)

/-- The clauses of a `match` with the texts in them wiped out. -/
def wipedCases : List MatchCase → List MatchCase
  | [] => []
  | clause :: rest => clause.wiped :: wipedCases rest

end

@[simp] theorem wipedStmts_eq (body : List Stmt) : wipedStmts body = body.map Stmt.wiped := by
  induction body with
  | nil => rfl
  | cons stmt body ih => rw [wipedStmts, List.map_cons, ih]

@[simp] theorem wipedHandlers_eq (handlers : List Handler) :
    wipedHandlers handlers = handlers.map Handler.wiped := by
  induction handlers with
  | nil => rfl
  | cons handler handlers ih => rw [wipedHandlers, List.map_cons, ih]

@[simp] theorem wipedCases_eq (cases : List MatchCase) :
    wipedCases cases = cases.map MatchCase.wiped := by
  induction cases with
  | nil => rfl
  | cons clause cases ih => rw [wipedCases, List.map_cons, ih]

/-- The tree with the texts in it wiped out. -/
def Module.wiped (tree : Module) : Module := ⟨tree.body.map Stmt.wiped⟩

end Marksheet.Syntax
