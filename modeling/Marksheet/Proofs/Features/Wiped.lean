import Marksheet.Features.Record
import Marksheet.Proofs.Syntax.Wiped

/-!
# The record does not look at texts

Wiping the texts out of a tree wipes them out of each of its nodes
(`nodes_wiped`), and no test of a record looks at them. So the record stays the
same (`ofModule_wiped`).
-/

namespace Marksheet.Features

open Syntax

/-- The node with the texts in it wiped out. -/
def Node.wiped : Node → Node
  | .stmt form => .stmt form.wiped
  | .expr form saved => .expr form.wiped saved

/-! ### Nodes -/

mutual

theorem belowExpr_wiped (saved : Bool) : ∀ value : Expr,
    belowExpr saved value.wiped = (belowExpr saved value).map Node.wiped
  | .name _ | .str _ | .int _ | .float _ | .bool _ | .none | .ellipsis | .unsupported _ => rfl
  | .fstring parts => by
    rw [Expr.wiped, wipedParts_eq, belowExpr, belowExpr, belowParts_wiped saved parts]
  | .list items | .tuple items | .set items => by
    rw [Expr.wiped, wipedExprs_eq, belowExpr, belowExpr, exprNodes_wiped saved items]
  | .dict entries => by
    rw [Expr.wiped, wipedEntries_eq, belowExpr, belowExpr, entryNodes_wiped saved entries]
  | .boolOp _ left right | .binOp _ left right => by
    simp only [Expr.wiped, belowExpr, belowExpr_wiped saved left, belowExpr_wiped saved right,
      List.map_append, List.map_cons, Node.wiped]
  | .not operand | .unary _ operand | .starred operand => by
    simp only [Expr.wiped, belowExpr, belowExpr_wiped saved operand, List.map_cons, Node.wiped]
  | .compare left links => by
    simp only [Expr.wiped, wipedLinks_eq, belowExpr, belowExpr_wiped saved left,
      linkNodes_wiped saved links, List.map_append, List.map_cons, Node.wiped]
  | .call func args kwargs => by
    simp only [Expr.wiped, wipedExprs_eq, wipedKeywords_eq, belowExpr, belowExpr_wiped saved func,
      exprNodes_wiped saved args, keywordNodes_wiped saved kwargs, List.map_append, List.map_cons,
      Node.wiped]
  | .attribute value _ => by
    simp only [Expr.wiped, belowExpr, belowExpr_wiped saved value, List.map_cons, Node.wiped]
  | .subscript value index => by
    simp only [Expr.wiped, belowExpr, belowExpr_wiped saved value, belowExpr_wiped saved index,
      List.map_append, List.map_cons, Node.wiped]
  | .slice lower upper step => by
    simp only [Expr.wiped, wipedExpr?_eq, belowExpr, optionNodes_wiped saved lower,
      optionNodes_wiped saved upper, optionNodes_wiped saved step, List.map_append]
  | .ifExp test body orelse => by
    simp only [Expr.wiped, belowExpr, belowExpr_wiped saved test, belowExpr_wiped saved body,
      belowExpr_wiped saved orelse, List.map_append, List.map_cons, Node.wiped]
  | .comprehension _ elt value generators => by
    simp only [Expr.wiped, wipedExpr?_eq, wipedGenerators_eq, belowExpr, belowExpr_wiped saved elt,
      optionNodes_wiped saved value, generatorNodes_wiped saved generators, List.map_append,
      List.map_cons, Node.wiped]
  | .lambda params body => by
    simp only [Expr.wiped, wipedParams_eq, belowExpr, belowExpr_wiped saved body,
      paramNodes_wiped params, List.map_append, List.map_cons, Node.wiped]
  | .namedExpr _ value => by
    simp only [Expr.wiped, belowExpr, belowExpr_wiped saved value, List.map_cons, Node.wiped]
  | .yield value => by
    simp only [Expr.wiped, wipedExpr?_eq, belowExpr, optionNodes_wiped saved value]

theorem optionNodes_wiped (saved : Bool) : ∀ value : Option Expr,
    optionNodes saved (value.map Expr.wiped) = (optionNodes saved value).map Node.wiped
  | none => rfl
  | some value => by
    simp only [Option.map_some, optionNodes, belowExpr_wiped saved value, List.map_cons, Node.wiped]

theorem exprNodes_wiped (saved : Bool) : ∀ items : List Expr,
    exprNodes saved (items.map Expr.wiped) = (exprNodes saved items).map Node.wiped
  | [] => rfl
  | value :: rest => by
    simp only [List.map_cons, exprNodes, belowExpr_wiped saved value, exprNodes_wiped saved rest,
      List.map_append, Node.wiped]

theorem entryNodes_wiped (saved : Bool) : ∀ entries : List (Option Expr × Expr),
    entryNodes saved (entries.map wipedEntry) = (entryNodes saved entries).map Node.wiped
  | [] => rfl
  | (key, value) :: rest => by
    simp only [List.map_cons, wipedEntry, entryNodes, optionNodes_wiped saved key,
      belowExpr_wiped saved value, entryNodes_wiped saved rest, List.map_append, Node.wiped]

theorem linkNodes_wiped (saved : Bool) : ∀ links : List (CmpOp × Expr),
    linkNodes saved (links.map wipedLink) = (linkNodes saved links).map Node.wiped
  | [] => rfl
  | (_, operand) :: rest => by
    simp only [List.map_cons, wipedLink, linkNodes, belowExpr_wiped saved operand,
      linkNodes_wiped saved rest, List.map_append, Node.wiped]

theorem keywordNodes_wiped (saved : Bool) : ∀ keywords : List (String × Expr),
    keywordNodes saved (keywords.map wipedKeyword) = (keywordNodes saved keywords).map Node.wiped
  | [] => rfl
  | (_, value) :: rest => by
    simp only [List.map_cons, wipedKeyword, keywordNodes, belowExpr_wiped saved value,
      keywordNodes_wiped saved rest, List.map_append, Node.wiped]

theorem belowParts_wiped (saved : Bool) : ∀ parts : List FStringPart,
    belowParts saved (parts.map FStringPart.wiped) = (belowParts saved parts).map Node.wiped
  | [] => rfl
  | .literal _ :: rest => by
    simp only [List.map_cons, FStringPart.wiped, belowParts, belowParts_wiped saved rest]
  | .interpolation value _ _ :: rest => by
    simp only [List.map_cons, FStringPart.wiped, belowParts, belowExpr_wiped saved value,
      belowParts_wiped saved rest, List.map_append, Node.wiped]

theorem generatorNodes_wiped (saved : Bool) : ∀ clauses : List Generator,
    generatorNodes saved (clauses.map Generator.wiped) =
      (generatorNodes saved clauses).map Node.wiped
  | [] => rfl
  | .mk target iter conditions :: rest => by
    simp only [List.map_cons, Generator.wiped, wipedExprs_eq, generatorNodes, targetNodes_wiped target,
      belowExpr_wiped saved iter, exprNodes_wiped saved conditions, generatorNodes_wiped saved rest,
      List.map_append, Node.wiped]

theorem paramNodes_wiped : ∀ params : List Param,
    paramNodes (params.map Param.wiped) = (paramNodes params).map Node.wiped
  | [] => rfl
  | .mk _ default :: rest => by
    simp only [List.map_cons, Param.wiped, wipedExpr?_eq, paramNodes, optionNodes_wiped false default,
      paramNodes_wiped rest, List.map_append]

theorem targetNodes_wiped : ∀ target : Target,
    targetNodes target.wiped = (targetNodes target).map Node.wiped
  | .name _ | .unsupported _ => rfl
  | .tuple items => by rw [Target.wiped, wipedTargets_eq, targetNodes, targetNodes, targetsNodes_wiped items]
  | .subscript value index => by
    simp only [Target.wiped, targetNodes, belowExpr_wiped false value, belowExpr_wiped false index,
      List.map_append, List.map_cons, Node.wiped]
  | .attribute value _ => by
    simp only [Target.wiped, targetNodes, belowExpr_wiped false value, List.map_cons, Node.wiped]
  | .starred target => by rw [Target.wiped, targetNodes, targetNodes, targetNodes_wiped target]

theorem targetsNodes_wiped : ∀ targets : List Target,
    targetsNodes (targets.map Target.wiped) = (targetsNodes targets).map Node.wiped
  | [] => rfl
  | target :: rest => by
    simp only [List.map_cons, targetsNodes, targetNodes_wiped target, targetsNodes_wiped rest,
      List.map_append]

end

theorem nodesOf_wiped (saved : Bool) (value : Expr) :
    nodesOf saved value.wiped = (nodesOf saved value).map Node.wiped := by
  rw [nodesOf, nodesOf, belowExpr_wiped, List.map_cons, Node.wiped]

theorem withItemNodes_wiped (items : List WithItem) :
    withItemNodes (items.map WithItem.wiped) = (withItemNodes items).map Node.wiped := by
  rw [withItemNodes, withItemNodes, List.flatMap_map, List.map_flatMap]
  refine List.flatMap_congr fun item _ => ?_
  obtain ⟨context, target⟩ := item
  simp only [WithItem.wiped, nodesOf_wiped, List.map_append]
  cases target with
  | none => rfl
  | some target => simp only [Option.map_some, Option.getD_some, targetNodes_wiped]

mutual

theorem belowStmt_wiped : ∀ form : StmtKind, belowStmt form.wiped = (belowStmt form).map Node.wiped
  | .imports _ | .importFrom _ _ _ | .global _ | .nonlocal _ | .pass | .break | .continue
  | .unsupported _ => rfl
  | .expr value => by rw [StmtKind.wiped, belowStmt, belowStmt, nodesOf_wiped]
  | .assign targets value => by
    simp only [StmtKind.wiped, belowStmt, targetsNodes_wiped, nodesOf_wiped, List.map_append]
  | .annAssign target kind value => by
    simp only [StmtKind.wiped, belowStmt, targetNodes_wiped, nodesOf_wiped, optionNodes_wiped,
      List.map_append]
  | .augAssign target _ value => by
    simp only [StmtKind.wiped, belowStmt, targetNodes_wiped, nodesOf_wiped, List.map_append]
  | .if test body orelse | .while test body orelse => by
    simp only [StmtKind.wiped, wipedStmts_eq, belowStmt, nodesOf_wiped, stmtNodes_wiped body,
      stmtNodes_wiped orelse, List.map_append]
  | .for target iter body orelse => by
    simp only [StmtKind.wiped, wipedStmts_eq, belowStmt, targetNodes_wiped, nodesOf_wiped,
      stmtNodes_wiped body, stmtNodes_wiped orelse, List.map_append]
  | .functionDef _ params decorators body => by
    simp only [StmtKind.wiped, wipedStmts_eq, belowStmt, exprNodes_wiped, paramNodes_wiped,
      stmtNodes_wiped body, List.map_append]
  | .classDef _ bases decorators body => by
    simp only [StmtKind.wiped, wipedStmts_eq, belowStmt, exprNodes_wiped, stmtNodes_wiped body,
      List.map_append]
  | .with items body => by
    simp only [StmtKind.wiped, wipedStmts_eq, belowStmt, withItemNodes_wiped, stmtNodes_wiped body,
      List.map_append]
  | .return value | .raise value => by rw [StmtKind.wiped, belowStmt, belowStmt, optionNodes_wiped]
  | .try body handlers orelse finalbody => by
    simp only [StmtKind.wiped, wipedStmts_eq, wipedHandlers_eq, belowStmt, stmtNodes_wiped body,
      handlerNodes_wiped handlers, stmtNodes_wiped orelse, stmtNodes_wiped finalbody, List.map_append]
  | .assert test msg => by
    simp only [StmtKind.wiped, belowStmt, nodesOf_wiped, optionNodes_wiped, List.map_append]
  | .delete items => by rw [StmtKind.wiped, belowStmt, belowStmt, exprNodes_wiped]
  | .match subjects cases => by
    simp only [StmtKind.wiped, wipedCases_eq, belowStmt, exprNodes_wiped, caseNodes_wiped cases,
      List.map_append]

theorem stmtNodes_wiped : ∀ body : List Stmt,
    stmtNodes (body.map Stmt.wiped) = (stmtNodes body).map Node.wiped
  | [] => rfl
  | .mk form _ :: rest => by
    simp only [List.map_cons, Stmt.wiped, stmtNodes, belowStmt_wiped form, stmtNodes_wiped rest,
      List.map_append, Node.wiped]

theorem handlerNodes_wiped : ∀ handlers : List Handler,
    handlerNodes (handlers.map Handler.wiped) = (handlerNodes handlers).map Node.wiped
  | [] => rfl
  | .mk kind _ body _ :: rest => by
    simp only [List.map_cons, Handler.wiped, wipedStmts_eq, handlerNodes, optionNodes_wiped,
      stmtNodes_wiped body, handlerNodes_wiped rest, List.map_append]

theorem caseNodes_wiped : ∀ cases : List MatchCase,
    caseNodes (cases.map MatchCase.wiped) = (caseNodes cases).map Node.wiped
  | [] => rfl
  | .mk guard body :: rest => by
    simp only [List.map_cons, MatchCase.wiped, wipedStmts_eq, caseNodes, optionNodes_wiped,
      stmtNodes_wiped body, caseNodes_wiped rest, List.map_append]

end

/-- The nodes of a tree without texts are the nodes of the tree without their texts. -/
theorem nodes_wiped (tree : Module) : nodes tree.wiped = (nodes tree).map Node.wiped :=
  stmtNodes_wiped tree.body

/-! ### Tests that look at no text -/

theorem knownName_eq_iff {name known : String} (h : known = "random" ∨ known = "choice") :
    knownName name = known ↔ name = known := by
  unfold knownName
  split
  · exact Iff.rfl
  next hn =>
    constructor
    · rintro rfl
      exact absurd h (by decide)
    · rintro rfl
      exact absurd h hn

theorem any_wiped_name (names : List ImportName) {known : String}
    (h : known = "random" ∨ known = "choice") :
    (names.map ImportName.wiped).any (·.name = known) = names.any (·.name = known) := by
  rw [List.any_map]
  congr 1
  funext imported
  simp only [Function.comp_apply, ImportName.wiped, knownName_eq_iff h]

theorem isIf_wiped (stmt : Stmt) : isIf stmt.wiped = isIf stmt := by
  obtain ⟨form, line⟩ := stmt
  cases form <;> rfl

theorem elifLinks?_wiped : ∀ body : List Stmt, elifLinks? (body.map Stmt.wiped) = elifLinks? body
  | [] => rfl
  | .mk _ _ :: .mk _ _ :: _ => by simp only [List.map_cons, Stmt.wiped, elifLinks?]
  | [.mk (.if test body orelse) line] => by
    simp only [List.map_cons, List.map_nil, Stmt.wiped, StmtKind.wiped, wipedStmts_eq, elifLinks?,
      elifLinks?_wiped orelse]
  | [.mk (.while ..) _] | [.mk (.for ..) _] | [.mk (.functionDef ..) _] | [.mk (.classDef ..) _]
  | [.mk (.with ..) _] | [.mk (.try ..) _] | [.mk (.match ..) _] | [.mk (.expr ..) _]
  | [.mk (.assign ..) _] | [.mk (.annAssign ..) _] | [.mk (.augAssign ..) _]
  | [.mk (.return ..) _] | [.mk (.imports ..) _] | [.mk (.importFrom ..) _]
  | [.mk (.global ..) _] | [.mk (.nonlocal ..) _] | [.mk (.raise ..) _] | [.mk (.assert ..) _]
  | [.mk (.delete ..) _] | [.mk .pass _] | [.mk .break _] | [.mk .continue _]
  | [.mk (.unsupported ..) _] => by
    simp only [List.map_cons, List.map_nil, Stmt.wiped, StmtKind.wiped, elifLinks?]

@[simp] theorem isStr_wiped (value : Expr) : value.wiped.isStr = value.isStr := by
  cases value <;> rfl

@[simp] theorem nameOf?_wiped (value : Expr) : nameOf? value.wiped = nameOf? value := by
  cases value <;> rfl

@[simp] theorem isBooleanish_wiped (value : Expr) : isBooleanish value.wiped = isBooleanish value := by
  cases value <;> rfl

@[simp] theorem isNameIn_wiped (names : NameSet) (value : Expr) :
    isNameIn names value.wiped = isNameIn names value := by
  rw [isNameIn, isNameIn, nameOf?_wiped]

namespace Node

theorem isIf_wiped (node : Node) : node.wiped.isIf = node.isIf := by
  cases node with
  | stmt form => cases form <;> rfl
  | expr form saved => rfl

theorem isIfElse_wiped (node : Node) : node.wiped.isIfElse = node.isIfElse := by
  cases node with
  | stmt form => cases form <;> first | rfl | simp [wiped, isIfElse, StmtKind.wiped]
  | expr form saved => rfl

theorem isElifChain_wiped (node : Node) : node.wiped.isElifChain = node.isElifChain := by
  cases node with
  | stmt form =>
    cases form <;> first | rfl | simp [wiped, isElifChain, StmtKind.wiped, elifLinks?_wiped]
  | expr form saved => rfl

theorem isNestedIf_wiped (node : Node) : node.wiped.isNestedIf = node.isNestedIf := by
  cases node with
  | stmt form =>
    cases form with
    | «if» test body orelse =>
      simp only [wiped, isNestedIf, StmtKind.wiped, wipedStmts_eq, List.any_map]
      congr 1
      exact funext Features.isIf_wiped
    | _ => rfl
  | expr form saved => rfl

theorem isFor_wiped (node : Node) : node.wiped.isFor = node.isFor := by
  cases node with
  | stmt form => cases form <;> rfl
  | expr form saved => rfl

theorem importsRandom_wiped (node : Node) : node.wiped.importsRandom = node.importsRandom := by
  cases node with
  | stmt form =>
    cases form with
    | imports names => exact any_wiped_name names (.inl rfl)
    | _ => rfl
  | expr form saved => rfl

theorem importsChoice_wiped (node : Node) : node.wiped.importsChoice = node.importsChoice := by
  cases node with
  | stmt form =>
    cases form with
    | importFrom module names wildcard =>
      simp only [wiped, importsChoice, StmtKind.wiped, knownName_eq_iff (.inl rfl),
        any_wiped_name names (.inr rfl)]
    | _ => rfl
  | expr form saved => rfl

theorem isBoolOp_wiped (op : BoolOp) (node : Node) : node.wiped.isBoolOp op = node.isBoolOp op := by
  cases node with
  | stmt form => rfl
  | expr form saved => cases form <;> rfl

theorem isComparison_wiped (node : Node) : node.wiped.isComparison = node.isComparison := by
  cases node with
  | stmt form => rfl
  | expr form saved => cases form <;> rfl

theorem isMembershipTest_wiped (node : Node) :
    node.wiped.isMembershipTest = node.isMembershipTest := by
  cases node with
  | stmt form => rfl
  | expr form saved =>
    cases form <;> first
      | rfl
      | simp [wiped, isMembershipTest, Expr.wiped, wipedLink, Function.comp_def]

theorem isStringList_wiped (node : Node) : node.wiped.isStringList = node.isStringList := by
  cases node with
  | stmt form => rfl
  | expr form saved =>
    cases form <;> first
      | rfl
      | simp [wiped, isStringList, Expr.wiped, Function.comp_def]

/-- What is called has the head that it had. -/
theorem isStringMethodCall_wiped (node : Node) :
    node.wiped.isStringMethodCall = node.isStringMethodCall := by
  cases node with
  | stmt form => rfl
  | expr form saved =>
    cases form with
    | call func args kwargs => cases func <;> rfl
    | _ => rfl

theorem isRandomChoice_wiped (node : Node) : node.wiped.isRandomChoice = node.isRandomChoice := by
  cases node with
  | stmt form => rfl
  | expr form saved =>
    cases form with
    | call func args kwargs =>
      cases func <;> first
        | rfl
        | simp [wiped, isRandomChoice, Expr.wiped]
    | _ => rfl

theorem isInputCall_wiped (node : Node) : node.wiped.isInputCall = node.isInputCall := by
  cases node with
  | stmt form => rfl
  | expr form saved =>
    cases form with
    | call func args kwargs => cases func <;> rfl
    | _ => rfl

theorem isSavedInputCall_wiped (node : Node) :
    node.wiped.isSavedInputCall = node.isSavedInputCall := by
  cases node with
  | stmt form => rfl
  | expr form saved =>
    cases form with
    | call func args kwargs => cases func <;> rfl
    | _ => rfl

theorem printed_wiped (node : Node) : node.wiped.printed = node.printed.map Expr.wiped := by
  cases node with
  | stmt form => rfl
  | expr form saved =>
    cases form with
    | call func args kwargs =>
      cases func with
      | name id =>
        simp only [wiped, Expr.wiped, wipedExprs_eq, printed]
        split <;> rfl
      | _ => rfl
    | _ => rfl

theorem addends_wiped (node : Node) : node.wiped.addends = node.addends.map Expr.wiped := by
  cases node with
  | stmt form => rfl
  | expr form saved =>
    cases form with
    | binOp op left right =>
      simp only [wiped, Expr.wiped, addends]
      split <;> rfl
    | _ => rfl

theorem stringNames_wiped (node : Node) : node.wiped.stringNames = node.stringNames := by
  cases node with
  | stmt form =>
    cases form with
    | assign targets value =>
      simp only [wiped, StmtKind.wiped, stringNames, isStr_wiped, List.filterMap_map]
      congr 1
      refine List.filterMap_congr fun target _ => ?_
      cases target <;> rfl
    | _ => rfl
  | expr form saved => rfl

/-- A test of what is printed that looks at no text. -/
theorem any_printed_wiped {test : Expr → Bool} (h : ∀ value : Expr, test value.wiped = test value)
    (node : Node) : node.wiped.printed.any test = node.printed.any test := by
  rw [printed_wiped, List.any_map]
  exact congrArg _ (funext h)

theorem printsBoolean_wiped (node : Node) : node.wiped.printsBoolean = node.printsBoolean :=
  any_printed_wiped isBooleanish_wiped node

/-- A test of what is added that looks at no text. -/
theorem any_addends_wiped {test : Expr → Bool} (h : ∀ value : Expr, test value.wiped = test value)
    (node : Node) : node.wiped.addends.any test = node.addends.any test := by
  rw [addends_wiped, List.any_map]
  exact congrArg _ (funext h)

end Node

/-! ### The record -/

/-- A test that looks at no text finds the same among nodes without texts. -/
theorem any_map_wiped {test : Node → Bool} (h : ∀ node : Node, test node.wiped = test node)
    (nodes : List Node) : (nodes.map Node.wiped).any test = nodes.any test := by
  rw [List.any_map]
  exact congrArg _ (funext h)

theorem countP_map_wiped {test : Node → Bool} (h : ∀ node : Node, test node.wiped = test node)
    (nodes : List Node) : (nodes.map Node.wiped).countP test = nodes.countP test := by
  rw [List.countP_map]
  exact congrArg (List.countP · nodes) (funext h)

theorem flatMap_map_wiped (nodes : List Node) :
    (nodes.map Node.wiped).flatMap Node.stringNames = nodes.flatMap Node.stringNames := by
  rw [List.flatMap_map]
  exact congrArg (List.flatMap · nodes) (funext Node.stringNames_wiped)

/-- Nodes without their texts have the same record. -/
theorem ofNodes_wiped (nodes : List Node) :
    Record.ofNodes (nodes.map Node.wiped) = Record.ofNodes nodes := by
  simp only [Record.ofNodes, flatMap_map_wiped, any_map_wiped Node.isIf_wiped,
    any_map_wiped Node.isIfElse_wiped, any_map_wiped Node.isElifChain_wiped,
    any_map_wiped (Node.isBoolOp_wiped _), any_map_wiped Node.isComparison_wiped,
    any_map_wiped Node.isMembershipTest_wiped, any_map_wiped Node.isStringMethodCall_wiped,
    any_map_wiped Node.isRandomChoice_wiped, any_map_wiped Node.importsRandom_wiped,
    any_map_wiped Node.importsChoice_wiped, any_map_wiped Node.isStringList_wiped,
    any_map_wiped Node.isFor_wiped, any_map_wiped Node.isNestedIf_wiped,
    countP_map_wiped Node.isInputCall_wiped, countP_map_wiped Node.isSavedInputCall_wiped,
    any_map_wiped Node.printsBoolean_wiped]
  congr 1
  · exact any_map_wiped (fun node => Node.any_printed_wiped (isNameIn_wiped _) node) nodes
  · refine any_map_wiped (fun node => Node.any_addends_wiped (fun value => ?_) node) nodes
    rw [isStr_wiped, isNameIn_wiped]

/-- Wiping the texts out of a tree leaves its record as it is. -/
theorem ofModule_wiped (tree : Module) : Record.ofModule tree.wiped = Record.ofModule tree := by
  rw [Record.ofModule, Record.ofModule, nodes_wiped, ofNodes_wiped]

end Marksheet.Features
