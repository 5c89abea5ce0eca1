import Marksheet.Features.Node

/-!
# The shapes that checks look for

Each definition says of one node, by itself and its nearest parts, whether it
has a shape that a check looks for, or which names it brings. Nothing here
looks further into the tree than the shape asks for.
-/

namespace Marksheet.Features

open Syntax

/-- The name of an expression that is a bare name. -/
def nameOf? : Expr → Option String
  | .name id => some id
  | _ => none

/-- A statement that is an `if`. -/
def isIf : Stmt → Bool
  | .mk (.if ..) _ => true
  | _ => false

/-- The number of `elif` links behind an else-branch that ends in a plain `else` of one statement:
a link is an else-branch that is a single `if`. Any other else-branch ends no chain. -/
def elifLinks? : List Stmt → Option Nat
  | [.mk kind _] =>
    match kind with
    | .if _ _ next => (elifLinks? next).map (· + 1)
    | _ => some 0
  | _ => none

/-- The methods that count as string transforms. -/
def stringMethods : List String := ["strip", "lower", "upper"]

/-- An expression that is printed as a truth value: a literal, a comparison, `and`, `or` or `not`. -/
def isBooleanish : Expr → Bool
  | .bool _ | .compare .. | .boolOp .. | .not _ => true
  | _ => false

namespace Node

/-- An `if` statement. -/
def isIf : Node → Bool
  | .stmt (.if ..) => true
  | _ => false

/-- An `if` with an else-branch. -/
def isIfElse : Node → Bool
  | .stmt (.if _ _ orelse) => !orelse.isEmpty
  | _ => false

/-- An `if` behind which at least two `elif` links end in a plain `else`. -/
def isElifChain : Node → Bool
  | .stmt (.if _ _ orelse) =>
    match elifLinks? orelse with
    | some links => 2 ≤ links
    | none => false
  | _ => false

/-- An `if` with another directly in its body. -/
def isNestedIf : Node → Bool
  | .stmt (.if _ body _) => body.any Features.isIf
  | _ => false

/-- A `for` statement. -/
def isFor : Node → Bool
  | .stmt (.for ..) => true
  | _ => false

/-- An import of the module `random`. -/
def importsRandom : Node → Bool
  | .stmt (.imports names) => names.any (·.name = "random")
  | _ => false

/-- An import of `choice`, or of everything, from `random`. -/
def importsChoice : Node → Bool
  | .stmt (.importFrom module names wildcard) =>
    module = "random" && (wildcard || names.any (·.name = "choice"))
  | _ => false

/-- A combination by the given connective. -/
def isBoolOp (op : BoolOp) : Node → Bool
  | .expr (.boolOp found _ _) _ => found = op
  | _ => false

/-- A comparison. -/
def isComparison : Node → Bool
  | .expr (.compare ..) _ => true
  | _ => false

/-- A comparison with `in` or `not in` among its operators. -/
def isMembershipTest : Node → Bool
  | .expr (.compare _ links) _ => links.any (·.1.isMembership)
  | _ => false

/-- A list display of at least one item, all of them plain strings. -/
def isStringList : Node → Bool
  | .expr (.list items) _ => !items.isEmpty && items.all Expr.isStr
  | _ => false

/-- A call of a string transform on something. -/
def isStringMethodCall : Node → Bool
  | .expr (.call (.attribute _ attr) _ _) _ => stringMethods.contains attr
  | _ => false

/-- A call of `choice`, by itself or of `random`. -/
def isRandomChoice : Node → Bool
  | .expr (.call (.name id) _ _) _ => id = "choice"
  | .expr (.call (.attribute value attr) _ _) _ => attr = "choice" && nameOf? value = some "random"
  | _ => false

/-- A call of `input`. -/
def isInputCall : Node → Bool
  | .expr (.call (.name id) _ _) _ => id = "input"
  | _ => false

/-- A call of `input` whose answer an assignment saves. -/
def isSavedInputCall : Node → Bool
  | .expr (.call (.name id) _ _) saved => saved && id = "input"
  | _ => false

/-- The positional arguments of a call of `print`. -/
def printed : Node → List Expr
  | .expr (.call (.name id) args _) _ => if id = "print" then args else []
  | _ => []

/-- A call of `print` with an argument that is printed as a truth value. -/
def printsBoolean (node : Node) : Bool := node.printed.any isBooleanish

/-- The two operands of an addition. -/
def addends : Node → List Expr
  | .expr (.binOp op left right) _ => if op = .add then [left, right] else []
  | _ => []

/-- The bare names that a plain assignment binds to a string literal. -/
def stringNames : Node → List String
  | .stmt (.assign targets value) =>
    if value.isStr then
      targets.filterMap fun target => match target with
        | .name id => some id
        | _ => none
    else []
  | _ => []

end Node

end Marksheet.Features
