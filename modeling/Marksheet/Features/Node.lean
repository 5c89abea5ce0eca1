import Marksheet.Syntax.Tree

/-!
# The nodes of a tree

`Module.nodes` lists every statement and every expression of a module, each
once, from whatever part of a statement or expression it stands in. An
expression carries whether it is *saved*: whether it stands in the value of a
plain or annotated assignment. The names that a comprehension binds and the
defaults of parameters start afresh: what stands in them is not saved, wherever
they stand themselves.
-/

namespace Marksheet.Features

open Syntax

/-- A statement or an expression as it stands in a tree. -/
inductive Node where
  | stmt (form : StmtKind)
  | expr (form : Expr) (saved : Bool)

mutual

/-- The nodes strictly below an expression. -/
def belowExpr (saved : Bool) : Expr → List Node
  | .name _ | .str _ | .int _ | .float _ | .bool _ | .none | .ellipsis | .unsupported _ => []
  | .fstring parts => belowParts saved parts
  | .list items | .tuple items | .set items => exprNodes saved items
  | .dict entries => entryNodes saved entries
  | .boolOp _ left right | .binOp _ left right =>
    (.expr left saved :: belowExpr saved left) ++ (.expr right saved :: belowExpr saved right)
  | .not operand | .unary _ operand | .starred operand =>
    .expr operand saved :: belowExpr saved operand
  | .compare left links => (.expr left saved :: belowExpr saved left) ++ linkNodes saved links
  | .call func args kwargs =>
    (.expr func saved :: belowExpr saved func) ++ exprNodes saved args ++ keywordNodes saved kwargs
  | .attribute value _ => .expr value saved :: belowExpr saved value
  | .subscript value index =>
    (.expr value saved :: belowExpr saved value) ++ (.expr index saved :: belowExpr saved index)
  | .slice lower upper step =>
    optionNodes saved lower ++ optionNodes saved upper ++ optionNodes saved step
  | .ifExp test body orelse =>
    (.expr test saved :: belowExpr saved test) ++ (.expr body saved :: belowExpr saved body) ++
      (.expr orelse saved :: belowExpr saved orelse)
  | .comprehension _ elt value generators =>
    generatorNodes saved generators ++ (.expr elt saved :: belowExpr saved elt) ++
      optionNodes saved value
  | .lambda params body => paramNodes params ++ (.expr body saved :: belowExpr saved body)
  | .namedExpr _ value => .expr value saved :: belowExpr saved value
  | .yield value => optionNodes saved value

/-- The nodes of an expression that may be absent. -/
def optionNodes (saved : Bool) : Option Expr → List Node
  | none => []
  | some value => .expr value saved :: belowExpr saved value

/-- The nodes of a list of expressions. -/
def exprNodes (saved : Bool) : List Expr → List Node
  | [] => []
  | value :: rest => (.expr value saved :: belowExpr saved value) ++ exprNodes saved rest

/-- The nodes of the entries of a mapping. -/
def entryNodes (saved : Bool) : List (Option Expr × Expr) → List Node
  | [] => []
  | (key, value) :: rest =>
    optionNodes saved key ++ (.expr value saved :: belowExpr saved value) ++ entryNodes saved rest

/-- The nodes of the links of a comparison. -/
def linkNodes (saved : Bool) : List (CmpOp × Expr) → List Node
  | [] => []
  | (_, operand) :: rest =>
    (.expr operand saved :: belowExpr saved operand) ++ linkNodes saved rest

/-- The nodes of keyword arguments. -/
def keywordNodes (saved : Bool) : List (String × Expr) → List Node
  | [] => []
  | (_, value) :: rest => (.expr value saved :: belowExpr saved value) ++ keywordNodes saved rest

/-- The nodes in the parts of a string with replacement fields. -/
def belowParts (saved : Bool) : List FStringPart → List Node
  | [] => []
  | .literal _ :: rest => belowParts saved rest
  | .interpolation value _ _ :: rest =>
    (.expr value saved :: belowExpr saved value) ++ belowParts saved rest

/-- The nodes of the clauses of a comprehension. -/
def generatorNodes (saved : Bool) : List Generator → List Node
  | [] => []
  | .mk target iter conditions :: rest =>
    targetNodes target ++ (.expr iter saved :: belowExpr saved iter) ++
      exprNodes saved conditions ++ generatorNodes saved rest

/-- The nodes of the defaults of parameters. -/
def paramNodes : List Param → List Node
  | [] => []
  | .mk _ default :: rest => optionNodes false default ++ paramNodes rest

/-- The nodes in a target. -/
def targetNodes : Target → List Node
  | .name _ | .unsupported _ => []
  | .tuple items => targetsNodes items
  | .subscript value index =>
    (.expr value false :: belowExpr false value) ++ (.expr index false :: belowExpr false index)
  | .attribute value _ => .expr value false :: belowExpr false value
  | .starred target => targetNodes target

/-- The nodes in a list of targets. -/
def targetsNodes : List Target → List Node
  | [] => []
  | target :: rest => targetNodes target ++ targetsNodes rest

end

/-- An expression and the nodes below it. -/
def nodesOf (saved : Bool) (value : Expr) : List Node := .expr value saved :: belowExpr saved value

/-- The nodes of the items of a `with` header. -/
def withItemNodes (items : List WithItem) : List Node :=
  items.flatMap fun item =>
    nodesOf false item.context ++ (item.target.map targetNodes).getD []

mutual

/-- The nodes strictly below a statement. -/
def belowStmt : StmtKind → List Node
  | .expr value => nodesOf false value
  | .assign targets value => targetsNodes targets ++ nodesOf true value
  | .annAssign target kind value =>
    targetNodes target ++ nodesOf false kind ++ optionNodes true value
  | .augAssign target _ value => targetNodes target ++ nodesOf false value
  | .if test body orelse | .while test body orelse =>
    nodesOf false test ++ stmtNodes body ++ stmtNodes orelse
  | .for target iter body orelse =>
    targetNodes target ++ nodesOf false iter ++ stmtNodes body ++ stmtNodes orelse
  | .functionDef _ params decorators body =>
    exprNodes false decorators ++ paramNodes params ++ stmtNodes body
  | .classDef _ bases decorators body =>
    exprNodes false decorators ++ exprNodes false bases ++ stmtNodes body
  | .with items body => withItemNodes items ++ stmtNodes body
  | .return value | .raise value => optionNodes false value
  | .try body handlers orelse finalbody =>
    stmtNodes body ++ handlerNodes handlers ++ stmtNodes orelse ++ stmtNodes finalbody
  | .assert test msg => nodesOf false test ++ optionNodes false msg
  | .delete items => exprNodes false items
  | .match subjects cases => exprNodes false subjects ++ caseNodes cases
  | .imports _ | .importFrom .. | .global _ | .nonlocal _ | .pass | .break | .continue
  | .unsupported _ => []

/-- The nodes of a list of statements. -/
def stmtNodes : List Stmt → List Node
  | [] => []
  | .mk kind _ :: rest => (.stmt kind :: belowStmt kind) ++ stmtNodes rest

/-- The nodes of the clauses that take exceptions. -/
def handlerNodes : List Handler → List Node
  | [] => []
  | .mk kind _ body _ :: rest => optionNodes false kind ++ stmtNodes body ++ handlerNodes rest

/-- The nodes of the clauses of a `match`. -/
def caseNodes : List MatchCase → List Node
  | [] => []
  | .mk guard body :: rest => optionNodes false guard ++ stmtNodes body ++ caseNodes rest

end

/-- Every statement and expression of a module. -/
def nodes (module : Module) : List Node := stmtNodes module.body

end Marksheet.Features
