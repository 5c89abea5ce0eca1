import Marksheet.Syntax.Operator

/-!
# The abstract tree of a submission

Every construct that can hold statements or expressions has a constructor of
its own, so a walk over the tree reaches every nested scope. Constructs that no
check looks at are kept by name as `unsupported`, so that unusual programs are
graded too. An expression never holds a statement; the two groups of types are
declared one after the other.
-/

namespace Marksheet.Syntax

/-- The four displays that a comprehension can build. -/
inductive ComprehensionKind where
  | list | set | dict | generator
  deriving DecidableEq, Repr, Inhabited

mutual

/-- Expressions. -/
inductive Expr where
  | name (id : String)
  /-- A plain string, escapes resolved. -/
  | str (value : String)
  /-- A string with replacement fields. -/
  | fstring (parts : List FStringPart)
  /-- An integer literal below two to the 63. -/
  | int (value : Nat)
  /-- A floating-point literal by the bits of its nearest double. -/
  | float (bits : UInt64)
  | bool (value : Bool)
  | none
  | ellipsis
  | list (items : List Expr)
  | tuple (items : List Expr)
  | set (items : List Expr)
  /-- An entry without a key spreads a mapping. -/
  | dict (entries : List (Option Expr × Expr))
  | boolOp (op : BoolOp) (left right : Expr)
  | not (operand : Expr)
  | unary (op : UnaryOp) (operand : Expr)
  /-- A chain keeps each operator with its right operand. -/
  | compare (left : Expr) (links : List (CmpOp × Expr))
  | binOp (op : BinOp) (left right : Expr)
  | call (func : Expr) (args : List Expr) (kwargs : List (String × Expr))
  | attribute (value : Expr) (attr : String)
  | subscript (value index : Expr)
  | slice (lower upper step : Option Expr)
  | ifExp (test body orelse : Expr)
  /-- Only a dict comprehension has a `value`; its `elt` is the key. -/
  | comprehension (kind : ComprehensionKind) (elt : Expr) (value : Option Expr)
      (generators : List Generator)
  | lambda (params : List Param) (body : Expr)
  | namedExpr (id : String) (value : Expr)
  | yield (value : Option Expr)
  | starred (value : Expr)
  | unsupported (kind : String)

/-- One part of a string with replacement fields. -/
inductive FStringPart where
  | literal (value : String)
  | interpolation (expr : Expr) (conversion : Option Char) (spec : Option String)

/-- One `for` clause of a comprehension with the conditions behind it. -/
inductive Generator where
  | mk (target : Target) (iter : Expr) (conditions : List Expr)

/-- A parameter of a function; starred ones keep their bare name. -/
inductive Param where
  | mk (name : String) (default : Option Expr)

/-- What an assignment or loop can bind. -/
inductive Target where
  | name (id : String)
  | tuple (items : List Target)
  | subscript (value index : Expr)
  | attribute (value : Expr) (attr : String)
  | starred (target : Target)
  | unsupported (kind : String)

end

instance : Inhabited Expr := ⟨.none⟩
instance : Inhabited Target := ⟨.unsupported ""⟩
instance : Inhabited FStringPart := ⟨.literal ""⟩
instance : Inhabited Generator := ⟨⟨default, default, []⟩⟩
instance : Inhabited Param := ⟨⟨"", Option.none⟩⟩

/-- A plain string literal. -/
def Expr.isStr : Expr → Bool
  | .str _ => true
  | _ => false

/-- The text of a plain string literal; empty otherwise. -/
def Expr.strValue : Expr → String
  | .str value => value
  | _ => ""

/-- An imported name and the name it is bound to. -/
structure ImportName where
  /-- The dotted name as written. -/
  name : String
  /-- The name behind `as`. -/
  asname : Option String
  deriving DecidableEq, Repr, Inhabited

namespace ImportName

/-- The part of a dotted name before its first dot. -/
def firstPart (name : String) : String := String.ofList (name.toList.takeWhile (· != '.'))

/-- The name that the import binds: the one behind `as`, or else the first part. -/
def boundName (imported : ImportName) : String :=
  match imported.asname with
  | some name => name
  | none => firstPart imported.name

end ImportName

/-- A context and its target in a `with` header. -/
structure WithItem where
  context : Expr
  target : Option Target
  deriving Inhabited

mutual

/-- A statement with the line it begins on. -/
inductive Stmt where
  | mk (kind : StmtKind) (line : Nat)

/-- The forms of a statement. -/
inductive StmtKind where
  | expr (value : Expr)
  /-- Targets are listed from left to right. -/
  | assign (targets : List Target) (value : Expr)
  | annAssign (target : Target) ( annotation : Expr) (value : Option Expr)
  | augAssign (target : Target) (op : BinOp) (value : Expr)
  /-- An `elif` is a single `if` in the else-branch. -/
  | «if» (test : Expr) (body orelse : List Stmt)
  | while (test : Expr) (body orelse : List Stmt)
  | for (target : Target) (iter : Expr) (body orelse : List Stmt)
  | functionDef (name : String) (params : List Param) (decorators : List Expr) (body : List Stmt)
  | classDef (name : String) (bases decorators : List Expr) (body : List Stmt)
  | with (items : List WithItem) (body : List Stmt)
  | return (value : Option Expr)
  | imports (names : List ImportName)
  | importFrom (module : String) (names : List ImportName) (wildcard : Bool)
  | global (names : List String)
  | nonlocal (names : List String)
  | try (body : List Stmt) (handlers : List Handler) (orelse finalbody : List Stmt)
  | raise (value : Option Expr)
  | assert (test : Expr) (msg : Option Expr)
  | delete (items : List Expr)
  | match (subjects : List Expr) (cases : List MatchCase)
  | pass
  | break
  | continue
  | unsupported (kind : String)

/-- An `except` clause; without a kind it takes every exception. -/
inductive Handler where
  | mk (kind : Option Expr) (name : Option String) (body : List Stmt) (line : Nat)

/-- A `case` clause; its pattern is not kept. -/
inductive MatchCase where
  | mk (guard : Option Expr) (body : List Stmt)

end

instance : Inhabited Stmt := ⟨⟨.pass, 0⟩⟩

/-- The form of a statement. -/
def Stmt.kind : Stmt → StmtKind
  | .mk kind _ => kind

/-- The line of a statement. -/
def Stmt.line : Stmt → Nat
  | .mk _ line => line

/-- A parsed submission. -/
structure Module where
  body : List Stmt
  deriving Inhabited

end Marksheet.Syntax
