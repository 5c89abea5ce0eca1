/-!
# Operators of the graded language

Each group of operators is a closed type with its written form. Reading a
written form back gives the operator again; a second spelling of one operator
(`<>`) is read as well but never written.
-/

namespace Marksheet.Syntax

/-- The two operators of boolean logic. -/
inductive BoolOp where
  | and | or
  deriving DecidableEq, Repr, Inhabited

/-- The written form of a boolean operator. -/
def BoolOp.symbol : BoolOp → String
  | .and => "and"
  | .or => "or"

/-- The arithmetic signs before an operand. -/
inductive UnaryOp where
  | neg | pos | invert
  deriving DecidableEq, Repr, Inhabited

/-- The written form of a sign. -/
def UnaryOp.symbol : UnaryOp → String
  | .neg => "-"
  | .pos => "+"
  | .invert => "~"

/-- The comparison operators. -/
inductive CmpOp where
  | eq | notEq | lt | ltE | gt | gtE | isIn | notIn | is | isNot
  deriving DecidableEq, Repr, Inhabited

namespace CmpOp

/-- The written form of a comparison. -/
def symbol : CmpOp → String
  | .eq => "=="
  | .notEq => "!="
  | .lt => "<"
  | .ltE => "<="
  | .gt => ">"
  | .gtE => ">="
  | .isIn => "in"
  | .notIn => "not in"
  | .is => "is"
  | .isNot => "is not"

/-- Read a comparison; inequality has two spellings. -/
def ofSymbol? (text : String) : Option CmpOp :=
  if text = "==" then some .eq
  else if text = "!=" then some .notEq
  else if text = "<>" then some .notEq
  else if text = "<" then some .lt
  else if text = "<=" then some .ltE
  else if text = ">" then some .gt
  else if text = ">=" then some .gtE
  else if text = "in" then some .isIn
  else if text = "not in" then some .notIn
  else if text = "is" then some .is
  else if text = "is not" then some .isNot
  else none

/-- A comparison is read back from its written form. -/
theorem ofSymbol?_symbol (op : CmpOp) : ofSymbol? op.symbol = some op := by
  cases op <;> decide

/-- The two operators that ask for membership. -/
def isMembership : CmpOp → Bool
  | .isIn | .notIn => true
  | _ => false

end CmpOp

/-- The binary arithmetic and bitwise operators. -/
inductive BinOp where
  | add | sub | mul | div | floorDiv | mod | pow
  | bitAnd | bitOr | bitXor | lShift | rShift | matMul
  deriving DecidableEq, Repr, Inhabited

namespace BinOp

/-- The written form of a binary operator. -/
def symbol : BinOp → String
  | .add => "+"
  | .sub => "-"
  | .mul => "*"
  | .div => "/"
  | .floorDiv => "//"
  | .mod => "%"
  | .pow => "**"
  | .bitAnd => "&"
  | .bitOr => "|"
  | .bitXor => "^"
  | .lShift => "<<"
  | .rShift => ">>"
  | .matMul => "@"

/-- Read a binary operator without any equals sign behind it. -/
def ofBareSymbol? (text : String) : Option BinOp :=
  if text = "+" then some .add
  else if text = "-" then some .sub
  else if text = "*" then some .mul
  else if text = "/" then some .div
  else if text = "//" then some .floorDiv
  else if text = "%" then some .mod
  else if text = "**" then some .pow
  else if text = "&" then some .bitAnd
  else if text = "|" then some .bitOr
  else if text = "^" then some .bitXor
  else if text = "<<" then some .lShift
  else if text = ">>" then some .rShift
  else if text = "@" then some .matMul
  else none

/-- Read a binary operator; equals signs behind it, as in an augmented assignment,
do not count. -/
def ofSymbol? (text : String) : Option BinOp :=
  ofBareSymbol? (String.ofList ((text.toList.reverse.dropWhile (· = '=')).reverse))

/-- An operator is read back from its written form. -/
theorem ofBareSymbol?_symbol (op : BinOp) : ofBareSymbol? op.symbol = some op := by
  cases op <;> decide

/-- How tightly an operator binds; a larger number binds more tightly. -/
def precedence : BinOp → Nat
  | .bitOr => 14
  | .bitAnd => 15
  | .bitXor => 16
  | .lShift | .rShift => 17
  | .add | .sub => 18
  | .mul | .matMul | .div | .mod | .floorDiv => 19
  | .pow => 21

end BinOp

end Marksheet.Syntax
