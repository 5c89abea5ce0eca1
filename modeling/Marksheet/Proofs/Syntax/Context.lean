import Marksheet.Syntax.Tree

/-!
# Trees with a hole for statements

A frame is a statement without one of its blocks, a layer is a frame with the
statements before and behind it, and a context is the layers around a hole,
from the outside inwards. Filling the hole with a block gives the statements of
a module. There is a frame for every block that a statement can hold, the
branches of an `if`, the suites of handlers and of `case` clauses included.
-/

namespace Marksheet.Syntax

/-- A statement without one of its blocks. -/
inductive Frame where
  | ifBody (test : Expr) (orelse : List Stmt)
  | ifElse (test : Expr) (body : List Stmt)
  | whileBody (test : Expr) (orelse : List Stmt)
  | whileElse (test : Expr) (body : List Stmt)
  | forBody (target : Target) (iter : Expr) (orelse : List Stmt)
  | forElse (target : Target) (iter : Expr) (body : List Stmt)
  | functionDef (name : String) (params : List Param) (decorators : List Expr)
  | classDef (name : String) (bases decorators : List Expr)
  | with (items : List WithItem)
  | tryBody (handlers : List Handler) (orelse finalbody : List Stmt)
  /-- A handler between the others. -/
  | handler (body : List Stmt) (before : List Handler) (kind : Option Expr) (name : Option String)
      (line : Nat) (after : List Handler) (orelse finalbody : List Stmt)
  | tryElse (body : List Stmt) (handlers : List Handler) (finalbody : List Stmt)
  | finalBody (body : List Stmt) (handlers : List Handler) (orelse : List Stmt)
  /-- A `case` clause between the others. -/
  | case (subjects : List Expr) (before : List MatchCase) (guard : Option Expr)
      (after : List MatchCase)

namespace Frame

/-- The statement with its missing block. -/
def fill : Frame → List Stmt → StmtKind
  | ifBody test orelse, block => .if test block orelse
  | ifElse test body, block => .if test body block
  | whileBody test orelse, block => .while test block orelse
  | whileElse test body, block => .while test body block
  | forBody target iter orelse, block => .for target iter block orelse
  | forElse target iter body, block => .for target iter body block
  | functionDef name params decorators, block => .functionDef name params decorators block
  | classDef name bases decorators, block => .classDef name bases decorators block
  | .with items, block => .with items block
  | tryBody handlers orelse finalbody, block => .try block handlers orelse finalbody
  | handler body before kind name line after orelse finalbody, block =>
    .try body (before ++ .mk kind name block line :: after) orelse finalbody
  | tryElse body handlers finalbody, block => .try body handlers block finalbody
  | finalBody body handlers orelse, block => .try body handlers orelse block
  | case subjects before guard after, block =>
    .match subjects (before ++ .mk guard block :: after)

/-- The missing block is the else-branch of an `if`. -/
def isElse : Frame → Bool
  | ifElse .. => true
  | _ => false

end Frame

/-- A frame among the statements around it. -/
structure Layer where
  before : List Stmt
  frame : Frame
  line : Nat
  after : List Stmt

/-- The layers around a hole, from the outside inwards. -/
abbrev Context := List Layer

/-- The statements of a context with a block in its hole. -/
def plug : Context → List Stmt → List Stmt
  | [], block => block
  | layer :: inner, block =>
    layer.before ++ .mk (layer.frame.fill (plug inner block)) layer.line :: layer.after

/-- The hole of a context is the whole else-branch of an `if`. -/
def inElse : Context → Bool
  | [] => false
  | [layer] => layer.frame.isElse
  | _ :: layer :: inner => inElse (layer :: inner)

theorem plug_append (outer inner : Context) (block : List Stmt) :
    plug (outer ++ inner) block = plug outer (plug inner block) := by
  induction outer with
  | nil => rfl
  | cons layer outer ih => simp only [List.cons_append, plug, ih]

end Marksheet.Syntax
