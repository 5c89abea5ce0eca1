import Marksheet.Syntax.Literal
import Marksheet.Syntax.Sentence

/-!
# From the concrete form to the abstract tree

`Phrase.expr` and `Phrase.target` give the expression and the target that a
phrase stands for, `Sentence.stmt` the statement. Parentheses, comments and the
pieces of joined strings disappear; whatever a place cannot hold is kept as
`unsupported` under its grammatical name, so every concrete form has an
abstract one. A block keeps one statement for each of its sentences.
-/

namespace Marksheet.Syntax

/-- Write each doubled occurrence of a character once. -/
def undouble (brace : Char) : List Char → List Char
  | a :: b :: rest =>
    if a = brace && b = brace then brace :: undouble brace rest
    else a :: undouble brace (b :: rest)
  | rest => rest

/-- The text that a run of string content stands for. -/
def contentText (format raw : Bool) (text : String) : String :=
  let text :=
    if format then String.ofList (undouble '\x7d' (undouble '\x7b' text.toList)) else text
  if raw then text else unescape text

/-- Append literal text, merging it into a literal part at the end. -/
def pushLiteral (parts : List FStringPart) (text : String) : List FStringPart :=
  match parts.getLast? with
  | some (.literal last) => parts.dropLast ++ [.literal (last ++ text)]
  | _ => parts ++ [.literal text]

/-- The literal texts of parts, joined. -/
def literalText (parts : List FStringPart) : String :=
  parts.foldl (fun text part => match part with
    | .literal value => text ++ value
    | .interpolation .. => text) ""

/-- Append one piece of adjacent strings to the parts before it. -/
def appendPiece (parts : List FStringPart) (piece : Expr) : List FStringPart :=
  match piece with
  | .str text => pushLiteral parts text
  | .fstring inner => parts ++ inner
  | other => parts ++ [.interpolation other none none]

/-- The string that adjacent pieces make: a plain one if all of them are plain. -/
def joinStrings (pieces : List Expr) : Expr :=
  if pieces.all Expr.isStr then .str (String.join (pieces.map Expr.strValue))
  else .fstring (pieces.foldl appendPiece [])

/-- A text without the stars at its head. -/
def dropStars (text : String) : String := String.ofList (text.toList.dropWhile (· = '*'))

/-- A text without the line ends behind it. -/
def dropLineEnds (text : String) : String :=
  String.ofList (text.toList.reverse.dropWhile (· = '\n')).reverse

/-- The constant's expression. -/
def Constant.expr : Constant → Expr
  | .true => .bool Bool.true
  | .false => .bool Bool.false
  | .none => .none
  | .ellipsis => .ellipsis

/-- The first expression of some, or else an unsupported one. -/
def firstOr (kind : String) : List Expr → Expr
  | [] => .unsupported kind
  | first :: _ => first

/-- Wrap the first expression of some, or else give an unsupported one. -/
def starredFirst (kind : String) : List Expr → Expr
  | [] => .unsupported kind
  | first :: _ => .starred first

/-- The last of some expressions. -/
def lastOf? (items : List Expr) : Option Expr := items.getLast?

mutual

/-- The expression that a phrase stands for. -/
def Phrase.expr : Phrase → Expr
  | .name text => .name text
  | .integer text =>
    match integerValue? text with
    | some value => .int value
    | none => .unsupported "integer"
  | .float text =>
    match floatBits? text with
    | some bits => .float bits
    | none => .unsupported "float"
  | .constant value => value.expr
  | .string format raw parts =>
    let parts := textParts format raw parts
    if format then .fstring parts else .str (literalText parts)
  | .strings pieces => joinStrings (exprs pieces)
  | .list items => .list (exprs items)
  | .tuple items | .series items => .tuple (exprs items)
  | .set items => .set (exprs items)
  | .dict entries => .dict (entryExprs entries)
  | .parenthesized parts => firstOr "parenthesized_expression" (exprs parts)
  | .boolean op left right => .boolOp op left.expr right.expr
  | .not operand => .not operand.expr
  | .unary op operand => .unary op operand.expr
  | .await parts => firstOr "await" (exprs parts)
  | .binary op left right => .binOp op left.expr right.expr
  | .comparison broken left links =>
    if broken then .unsupported "comparison_operator"
    else .compare left.expr (linkExprs links)
  | .conditional broken body test orelse =>
    if broken then .unsupported "conditional_expression"
    else .ifExp test.expr body.expr orelse.expr
  | .call func args => .call func.expr (positional args) (keywords args)
  | .attribute value attr => .attribute value.expr attr
  | .subscript value indices =>
    match exprs indices with
    | [single] => .subscript value.expr single
    | several => .subscript value.expr (.tuple several)
  | .slice lower upper step =>
    .slice (lastOf? (exprs lower)) (lastOf? (exprs upper)) (lastOf? (exprs step))
  | .comprehension kind (.pair key value) clauses =>
    .comprehension kind key.expr (some value.expr) (generators clauses).1
  | .comprehension kind body clauses => .comprehension kind body.expr none (generators clauses).1
  | .lambda params body => .lambda (paramsOf params) body.expr
  | .named name value => .namedExpr name value.expr
  | .yield parts => .yield (exprs parts).head?
  | .splat parts => starredFirst "list_splat" (exprs parts)
  | .doubleSplat parts => starredFirst "dictionary_splat" (exprs parts)
  | .parenthesizedSplat parts => starredFirst "parenthesized_list_splat" (exprs parts)
  | .continuation _ => .unsupported "line_continuation"
  | .pair .. => .unsupported "pair"
  | .keyword .. => .unsupported "keyword_argument"
  | .asPattern .. => .unsupported "as_pattern"
  | .assignment .. => .unsupported "assignment"
  | .augmented .. => .unsupported "augmented_assignment"
  | .other kind => .unsupported kind

/-- The expressions of phrases. -/
def exprs : List Phrase → List Expr
  | [] => []
  | phrase :: rest => phrase.expr :: exprs rest

/-- The entries of a dict; what is no pair has no key. -/
def entryExprs : List Phrase → List (Option Expr × Expr)
  | [] => []
  | .pair key value :: rest => (some key.expr, value.expr) :: entryExprs rest
  | entry :: rest => (none, entry.expr) :: entryExprs rest

/-- The operators and operands of a chain. -/
def linkExprs : List (CmpOp × Phrase) → List (CmpOp × Expr)
  | [] => []
  | (op, operand) :: rest => (op, operand.expr) :: linkExprs rest

/-- The arguments that are not given by keyword. -/
def positional : List Phrase → List Expr
  | [] => []
  | .keyword _ _ :: rest => positional rest
  | arg :: rest => arg.expr :: positional rest

/-- The arguments that are given by keyword. -/
def keywords : List Phrase → List (String × Expr)
  | [] => []
  | .keyword name value :: rest => (name, value.expr) :: keywords rest
  | _ :: rest => keywords rest

/-- The parts of a string, adjacent texts merged. -/
def textParts (format raw : Bool) : List TextPart → List FStringPart
  | [] => []
  | .content text :: rest =>
    let text := contentText format raw text
    match textParts format raw rest with
    | .literal next :: more => .literal (text ++ next) :: more
    | parts => .literal text :: parts
  | .field value conversion spec :: rest =>
    .interpolation value.expr conversion (spec.map dropLineEnds) :: textParts format raw rest

/-- The generators of a clause sequence, and the conditions before its first `for`. A
condition belongs to the nearest `for` before it. -/
def generators : List Clause → List Generator × List Expr
  | [] => ([], [])
  | .forIn target iter :: rest =>
    let (found, conditions) := generators rest
    (.mk target.target iter.expr conditions :: found, [])
  | .condition parts :: rest =>
    let (found, conditions) := generators rest
    (found, firstOr "if_clause" (exprs parts) :: conditions)

/-- The named parameters of a list. -/
def paramsOf : List Parameter → List Param
  | [] => []
  | .plain text :: rest => .mk (dropStars text) none :: paramsOf rest
  | .defaulted text value :: rest => .mk text (some value.expr) :: paramsOf rest
  | .unnamed :: rest => paramsOf rest

/-- The target that a phrase stands for. -/
def Phrase.target : Phrase → Target
  | .name text => .name text
  | .list items | .tuple items | .series items => .tuple (targetsOf items)
  | .parenthesized parts =>
    match targetsOf parts with
    | [] => .unsupported "parenthesized_expression"
    | first :: _ => first
  | .subscript value indices =>
    match exprs indices with
    | [single] => .subscript value.expr single
    | several => .subscript value.expr (.tuple several)
  | .attribute value attr => .attribute value.expr attr
  | .splat parts =>
    match targetsOf parts with
    | [] => .unsupported "list_splat"
    | first :: _ => .starred first
  | phrase => .unsupported phrase.grammarName

/-- The targets of phrases. -/
def targetsOf : List Phrase → List Target
  | [] => []
  | phrase :: rest => phrase.target :: targetsOf rest

end

/-- The targets of a chain of assignments and the value at its end, if there is one. -/
def Phrase.chain : Phrase → List Target × Option Expr
  | .assignment target _ (some value) =>
    let (targets, value) := value.chain
    (target.target :: targets, value)
  | .assignment target _ none => ([target.target], none)
  | phrase => ([], some phrase.expr)

/-- The statement that an expression statement's only part is. -/
def Phrase.statement (phrase : Phrase) : StmtKind :=
  match phrase with
  | .assignment target (some annotation) value =>
    .annAssign target.target annotation.expr (value.map Phrase.expr)
  | .assignment _ none _ =>
    match phrase.chain with
    | (targets, some value) => .assign targets value
    | (_, none) => .unsupported "assignment"
  | .augmented target op value => .augAssign target.target op value.expr
  | _ => .expr phrase.expr

/-- The statement that the parts of an expression statement make. -/
def expressionStmt : List Phrase → StmtKind
  | [single] => single.statement
  | parts => .expr (.tuple (exprs parts))

/-- The expressions that a `del` statement lists; a tuple stands for its items. -/
def deletedExprs (parts : List Phrase) : List Expr :=
  (exprs parts).flatMap fun item => match item with
    | .tuple items => items
    | single => [single]

/-- An item of a `with` header. -/
def withItem : Phrase → WithItem
  | .asPattern value _ target _ => ⟨value.expr, some target.target⟩
  | phrase => ⟨phrase.expr, none⟩

/-- The kind and the name of an exception handler. -/
def handlerHead : List (Phrase × String) → Option Expr × Option String
  | [] => (none, none)
  | [(.asPattern value between _ text, _)] =>
    let name := match between with
      | .continuation text :: _ => text
      | _ => text
    (some value.expr, some name)
  | [(kind, _)] => (some kind.expr, none)
  | (kind, _) :: (_, name) :: _ => (some kind.expr, some name)

mutual

/-- The statement that a sentence stands for. -/
def Sentence.stmt : Sentence → Stmt
  | .mk form start => .mk (form.kind []) start.line

/-- The statements of a block, one for each sentence. -/
def stmts : List Sentence → List Stmt
  | [] => []
  | sentence :: rest => sentence.stmt :: stmts rest

/-- The form of statement, given the decorators before it. -/
def Form.kind (decorators : List Expr) : Form → StmtKind
  | .continuation => .unsupported "line_continuation"
  | .expression parts => expressionStmt parts
  | .legacyPrint => .unsupported "print_statement"
  | .legacyExec => .unsupported "exec_statement"
  | .assert parts =>
    match exprs parts with
    | [] => .unsupported "assert_statement"
    | test :: rest => .assert test rest.head?
  | .return parts => .return (exprs parts).head?
  | .delete parts => .delete (deletedExprs parts)
  | .raise parts => .raise (exprs parts).head?
  | .imports names => .imports names
  | .importFrom module names wildcard => .importFrom module names wildcard
  | .importFuture | .pass => .pass
  | .global names => .global names
  | .nonlocal names => .nonlocal names
  | .break => .break
  | .continue => .continue
  | .typeAlias => .unsupported "type_alias_statement"
  | .if test body further => .if test.expr (stmts body) (branchStmts further)
  | .while test body orelse => .while test.expr (stmts body) (stmts orelse)
  | .for target iter body orelse => .for target.target iter.expr (stmts body) (stmts orelse)
  | .try body clauses =>
    .try (stmts body) (handlers clauses) (elseStmts clauses) (finallyStmts clauses)
  | .with items body => .with (items.map withItem) (stmts body)
  | .define name params body => .functionDef name (paramsOf params) decorators (stmts body)
  | .class name args body =>
    .classDef name (positional args ++ (keywords args).map (·.2)) decorators (stmts body)
  | .decorated before definition =>
    definition.kind (before.filterMap fun parts => (exprs parts).head?)
  | .match subjects cases => .match (exprs subjects) (matchCases cases)

/-- The else-branch that further branches make: an `elif` is a single statement in it. -/
def branchStmts : List Branch → List Stmt
  | [] => []
  | .elif start test body :: rest =>
    [.mk (.if test.expr (stmts body) (branchStmts rest)) start.line]
  | .else body :: _ => stmts body

/-- The handlers among the clauses of a `try` statement; group clauses give none. -/
def handlers : List Rescue → List Handler
  | [] => []
  | .except start parts body :: rest =>
    let (kind, name) := handlerHead parts
    .mk kind name (stmts body) start.line :: handlers rest
  | _ :: rest => handlers rest

/-- The statements of the last else clause. -/
def elseStmts : List Rescue → List Stmt
  | [] => []
  | .else body :: rest =>
    match elseStmts rest with
    | [] => stmts body
    | later => later
  | _ :: rest => elseStmts rest

/-- The statements of the last finally clause. -/
def finallyStmts : List Rescue → List Stmt
  | [] => []
  | .finally body :: rest =>
    match finallyStmts rest with
    | [] => stmts body
    | later => later
  | _ :: rest => finallyStmts rest

/-- The clauses of a `match` statement. -/
def matchCases : List Case → List MatchCase
  | [] => []
  | .mk guard body :: rest =>
    .mk (guard.bind fun parts => (exprs parts).head?) (stmts body) :: matchCases rest

end

/-- The tree of a whole text. -/
def Module.ofBlock (block : Block) : Module := ⟨stmts block⟩

end Marksheet.Syntax
