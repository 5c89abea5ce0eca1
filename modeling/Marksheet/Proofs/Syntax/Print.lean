import Marksheet.Source.Token
import Marksheet.Json.Basic
import Marksheet.Source.Alphabet
import Marksheet.Syntax.Tree

/-!
# Expressions in print

An expression is printed as a list of pieces, each a mark that may have a blank
before it. Every expression has a strength, and every place in print has one; an
expression that is weaker than its place gets parentheses there, and any number of
further ones may be put around it. The strengths are those of the grammar: a
conditional is weakest, then come `or`, `and`, `not`, comparisons, the binary
operators, signs, the power, and what can have trailers.
-/

namespace Marksheet.Syntax

open Marksheet.Source (Symbol Lexeme)
open Marksheet.Source.Alphabet (beginsWord continuesWord)

/-! ### Words -/

/-- The keywords, which are never names. -/
def reservedWords : List String :=
  ["False", "None", "True", "and", "as", "assert", "async", "await", "break", "class", "continue",
    "def", "del", "elif", "else", "except", "finally", "for", "from", "global", "if", "import", "in",
    "is", "lambda", "nonlocal", "not", "or", "pass", "raise", "return", "try", "while", "with",
    "yield"]

/-- The words that are names except where they begin a statement. -/
def statementWords : List String := ["match", "type", "print", "exec"]

/-- The word is a name wherever it stands. -/
def isFreeWord (text : String) : Bool := !reservedWords.contains text && !statementWords.contains text

/-- A word by its characters. -/
def isIdentifier (text : String) : Bool :=
  match text.toList with
  | [] => false
  | first :: rest => beginsWord first && rest.all continuesWord

/-! ### Marks and pieces -/

/-- What is printed without a blank in it. -/
inductive Mark where
  | word (text : String)
  | number (value : Nat)
  | sign (symbol : Symbol)
  /-- A text in double quotes. -/
  | quoted (text : String)
  deriving DecidableEq, Repr, Inhabited

/-- A mark with a blank before it or none. -/
structure Piece where
  blank : Bool
  mark : Mark
  deriving DecidableEq, Repr, Inhabited

/-- A character in double quotes: quotes, backslashes and control characters are escaped. -/
def printedChar (c : Char) : List Char :=
  if c = '\"' then ['\\', '\"']
  else if c = '\\' then ['\\', '\\']
  else if c = '\n' then ['\\', 'n']
  else if c = '\r' then ['\\', 'r']
  else if c = '\t' then ['\\', 't']
  else if c.toNat < 32 || c.toNat = 127 then
    ['\\', 'x', Json.hexDigit (c.toNat / 16), Json.hexDigit (c.toNat % 16)]
  else [c]

/-- The text between the quotes. -/
def printedBody (text : String) : List Char := text.toList.flatMap printedChar

/-- The text of a mark. -/
def Mark.chars : Mark → List Char
  | .word text => text.toList
  | .number value => (toString value).toList
  | .sign symbol => symbol.text.toList
  | .quoted text => '\"' :: printedBody text ++ ['\"']

/-- The text of a piece. -/
def Piece.chars (piece : Piece) : List Char :=
  if piece.blank then ' ' :: piece.mark.chars else piece.mark.chars

/-- The text of pieces. -/
def textOf (pieces : List Piece) : List Char := pieces.flatMap Piece.chars

/-- What the grammar sees of a token: its lexeme and its text. -/
abbrev Shape := Lexeme × String

/-- The shape of a symbol. -/
def Shape.sign (symbol : Symbol) : Shape := (.symbol symbol, symbol.text)

/-- The shape of a word. -/
def Shape.word (text : String) : Shape := (.word, text)

/-- The shapes of the tokens that a mark is cut into. -/
def Mark.shapes : Mark → List Shape
  | .word text => [.word text]
  | .number value => [(.integer, toString value)]
  | .sign symbol => [.sign symbol]
  | .quoted text =>
    (.quoteOpen, "\"") ::
      (if printedBody text = [] then [] else [(.quoteText, String.ofList (printedBody text))]) ++
        [(.quoteClose, "\"")]

/-- The shapes of the tokens that pieces are cut into. -/
def shapesOf (pieces : List Piece) : List Shape := pieces.flatMap fun piece => piece.mark.shapes

/-- A mark directly behind the one before it. -/
def close (mark : Mark) : Piece := ⟨false, mark⟩

/-- A mark behind a blank. -/
def apart (mark : Mark) : Piece := ⟨true, mark⟩

/-- Pieces behind a blank. -/
def spaced : List Piece → List Piece
  | [] => []
  | piece :: rest => apart piece.mark :: rest

/-- Pieces with commas between them. -/
def separated : List (List Piece) → List Piece
  | [] => []
  | [item] => item
  | item :: next :: rest => item ++ close (.sign .comma) :: spaced (separated (next :: rest))

/-- Pieces in parentheses, any number of times. -/
def enclosed : Nat → List Piece → List Piece
  | 0, pieces => pieces
  | count + 1, pieces =>
    close (.sign .lparen) :: enclosed count pieces ++ [close (.sign .rparen)]

/-! ### Strengths -/

/-- The strength of a boolean operator. -/
def BoolOp.strength : BoolOp → Nat
  | .or => 10
  | .and => 11

/-- The strength of an expression. A number is weaker than what a dot may follow. -/
def Expr.strength : Expr → Nat
  | .ifExp .. => 1
  | .boolOp op _ _ => op.strength
  | .not _ => 12
  | .compare .. => 13
  | .binOp op _ _ => op.precedence
  | .unary .. => 20
  | .int _ => 22
  | _ => 23

/-- The strength that the left operand needs: equal operators group from the left, powers from the
right. -/
def BinOp.leftStrength (op : BinOp) : Nat := if op = .pow then 22 else op.precedence

/-- The strength that the right operand needs; a sign may follow a power. -/
def BinOp.rightStrength (op : BinOp) : Nat := if op = .pow then 20 else op.precedence + 1

/-! ### Expressions that can be printed -/

mutual

/-- The expression can be printed: it has no constructs but those below, its names and integers can
be written, and every chain of comparisons has a link. -/
def Expr.isPrintable : Expr → Bool
  | .name id => isIdentifier id && isFreeWord id
  | .int value => value < Nat.pow 2 63
  | .str _ | .bool _ | .none => true
  | .list items | .tuple items => allPrintable items
  | .boolOp _ left right | .binOp _ left right => left.isPrintable && right.isPrintable
  | .not operand | .unary _ operand => operand.isPrintable
  | .compare left links => left.isPrintable && !links.isEmpty && linksPrintable links
  | .call func args kwargs =>
    func.isPrintable && allPrintable args && keywordsPrintable kwargs
  | .attribute value attr => value.isPrintable && isIdentifier attr && !reservedWords.contains attr
  | .subscript value index => value.isPrintable && index.isPrintable
  | .ifExp test body orelse => test.isPrintable && body.isPrintable && orelse.isPrintable
  | _ => false

/-- All expressions of a list can be printed. -/
def allPrintable : List Expr → Bool
  | [] => true
  | item :: rest => item.isPrintable && allPrintable rest

/-- All operands of a chain can be printed. -/
def linksPrintable : List (CmpOp × Expr) → Bool
  | [] => true
  | (_, operand) :: rest => operand.isPrintable && linksPrintable rest

/-- All arguments by name can be printed. -/
def keywordsPrintable : List (String × Expr) → Bool
  | [] => true
  | (name, value) :: rest =>
    isIdentifier name && !reservedWords.contains name && value.isPrintable && keywordsPrintable rest

end

/-- The word can name something: it is an identifier and no keyword. -/
def isName (text : String) : Bool := isIdentifier text && !reservedWords.contains text

mutual

/-- The expression can be written in a program: it is as one that can be printed, but every name that
is no keyword will do. -/
def Expr.isWritable : Expr → Bool
  | .name id => isName id
  | .int value => value < Nat.pow 2 63
  | .str _ | .bool _ | .none => true
  | .list items | .tuple items => allWritable items
  | .boolOp _ left right | .binOp _ left right => left.isWritable && right.isWritable
  | .not operand | .unary _ operand => operand.isWritable
  | .compare left links => left.isWritable && !links.isEmpty && linksWritable links
  | .call func args kwargs => func.isWritable && allWritable args && keywordsWritable kwargs
  | .attribute value attr => value.isWritable && isName attr
  | .subscript value index => value.isWritable && index.isWritable
  | .ifExp test body orelse => test.isWritable && body.isWritable && orelse.isWritable
  | _ => false

/-- All expressions of a list can be written. -/
def allWritable : List Expr → Bool
  | [] => true
  | item :: rest => item.isWritable && allWritable rest

/-- All operands of a chain can be written. -/
def linksWritable : List (CmpOp × Expr) → Bool
  | [] => true
  | (_, operand) :: rest => operand.isWritable && linksWritable rest

/-- All arguments by name can be written. -/
def keywordsWritable : List (String × Expr) → Bool
  | [] => true
  | (name, value) :: rest => isName name && value.isWritable && keywordsWritable rest

end

mutual

theorem Expr.isWritable_of_isPrintable : ∀ e : Expr, e.isPrintable = true → e.isWritable = true
  | .name id, h => by
    rw [Expr.isPrintable, isFreeWord] at h
    simp only [Bool.and_eq_true] at h
    rw [Expr.isWritable, isName, h.1, h.2.1]
    rfl
  | .int _, h => h
  | .str _, _ | .bool _, _ | .none, _ => rfl
  | .list items, h | .tuple items, h => allWritable_of_allPrintable items h
  | .boolOp _ left right, h | .binOp _ left right, h => by
    rw [Expr.isPrintable, Bool.and_eq_true] at h
    rw [Expr.isWritable, left.isWritable_of_isPrintable h.1, right.isWritable_of_isPrintable h.2]
    rfl
  | .not operand, h | .unary _ operand, h => operand.isWritable_of_isPrintable h
  | .compare left links, h => by
    simp only [Expr.isPrintable, Bool.and_eq_true] at h
    rw [Expr.isWritable, left.isWritable_of_isPrintable h.1.1, h.1.2,
      linksWritable_of_linksPrintable links h.2]
    rfl
  | .call func args kwargs, h => by
    simp only [Expr.isPrintable, Bool.and_eq_true] at h
    rw [Expr.isWritable, func.isWritable_of_isPrintable h.1.1,
      allWritable_of_allPrintable args h.1.2, keywordsWritable_of_keywordsPrintable kwargs h.2]
    rfl
  | .attribute value attr, h => by
    simp only [Expr.isPrintable, Bool.and_eq_true] at h
    rw [Expr.isWritable, value.isWritable_of_isPrintable h.1.1, isName, h.1.2, h.2]
    rfl
  | .subscript value index, h => by
    rw [Expr.isPrintable, Bool.and_eq_true] at h
    rw [Expr.isWritable, value.isWritable_of_isPrintable h.1, index.isWritable_of_isPrintable h.2]
    rfl
  | .ifExp test body orelse, h => by
    simp only [Expr.isPrintable, Bool.and_eq_true] at h
    rw [Expr.isWritable, test.isWritable_of_isPrintable h.1.1, body.isWritable_of_isPrintable h.1.2,
      orelse.isWritable_of_isPrintable h.2]
    rfl

theorem allWritable_of_allPrintable : ∀ items : List Expr, allPrintable items = true →
    allWritable items = true
  | [], _ => rfl
  | item :: rest, h => by
    rw [allPrintable, Bool.and_eq_true] at h
    rw [allWritable, item.isWritable_of_isPrintable h.1, allWritable_of_allPrintable rest h.2]
    rfl

theorem linksWritable_of_linksPrintable : ∀ links : List (CmpOp × Expr), linksPrintable links = true →
    linksWritable links = true
  | [], _ => rfl
  | (_, operand) :: rest, h => by
    rw [linksPrintable, Bool.and_eq_true] at h
    rw [linksWritable, operand.isWritable_of_isPrintable h.1,
      linksWritable_of_linksPrintable rest h.2]
    rfl

theorem keywordsWritable_of_keywordsPrintable : ∀ kwargs : List (String × Expr),
    keywordsPrintable kwargs = true → keywordsWritable kwargs = true
  | [], _ => rfl
  | (name, value) :: rest, h => by
    simp only [keywordsPrintable, Bool.and_eq_true] at h
    rw [keywordsWritable, isName, h.1.1.1, h.1.1.2, value.isWritable_of_isPrintable h.1.2,
      keywordsWritable_of_keywordsPrintable rest h.2]
    rfl

end

/-! ### Printing -/

/-- How many parentheses are put around the expression at the end of a way though it needs none; a
way gives the number of a part, then of a part in it. -/
abbrev Redundance := List Nat → Nat

/-- The redundance of a part. -/
def Redundance.part (extra : Redundance) (number : Nat) : Redundance :=
  fun way => extra (number :: way)

/-- An expression, printed in a place that needs a strength. -/
def within (needed : Nat) (extra : Redundance) (e : Expr) (pieces : List Piece) : List Piece :=
  enclosed (extra [] + if e.strength < needed then 1 else 0) pieces

/-- The marks of a comparison operator. -/
def CmpOp.marks : CmpOp → List Mark
  | .eq => [.sign .eqEq]
  | .notEq => [.sign .notEq]
  | .lt => [.sign .less]
  | .ltE => [.sign .lessEq]
  | .gt => [.sign .greater]
  | .gtE => [.sign .greaterEq]
  | .isIn => [.word "in"]
  | .notIn => [.word "not", .word "in"]
  | .is => [.word "is"]
  | .isNot => [.word "is", .word "not"]

/-- The symbol of a sign. -/
def UnaryOp.mark : UnaryOp → Symbol
  | .neg => .op .sub
  | .pos => .op .add
  | .invert => .tilde

mutual

/-- An expression without parentheses around it. -/
def bare (extra : Redundance) : Expr → List Piece
  | .name id => [close (.word id)]
  | .str value => [close (.quoted value)]
  | .int value => [close (.number value)]
  | .bool value => [close (.word (if value then "True" else "False"))]
  | .none => [close (.word "None")]
  | .list items =>
    close (.sign .lbracket) :: separated (printedItems extra 0 items) ++ [close (.sign .rbracket)]
  | .tuple items =>
    close (.sign .lparen) :: separated (printedItems extra 0 items) ++
      (if items.length = 1 then [close (.sign .comma)] else []) ++ [close (.sign .rparen)]
  | .boolOp op left right =>
    within op.strength (extra.part 0) left (bare (extra.part 0) left) ++
      apart (.word op.symbol) ::
        spaced (within (op.strength + 1) (extra.part 1) right (bare (extra.part 1) right))
  | .not operand =>
    close (.word "not") ::
      spaced (within 12 (extra.part 0) operand (bare (extra.part 0) operand))
  | .unary op operand =>
    close (.sign op.mark) :: within 20 (extra.part 0) operand (bare (extra.part 0) operand)
  | .compare left links =>
    within 14 (extra.part 0) left (bare (extra.part 0) left) ++ printedLinks extra 1 links
  | .binOp op left right =>
    within op.leftStrength (extra.part 0) left (bare (extra.part 0) left) ++
      apart (.sign (.op op)) ::
        spaced (within op.rightStrength (extra.part 1) right (bare (extra.part 1) right))
  | .call func args kwargs =>
    within 22 (extra.part 0) func (bare (extra.part 0) func) ++
      close (.sign .lparen) ::
        separated (printedItems extra 1 args ++ printedKeywords extra (1 + args.length) kwargs) ++
          [close (.sign .rparen)]
  | .attribute value attr =>
    within 23 (extra.part 0) value (bare (extra.part 0) value) ++
      [close (.sign .dot), close (.word attr)]
  | .subscript value index =>
    within 22 (extra.part 0) value (bare (extra.part 0) value) ++
      close (.sign .lbracket) :: within 0 (extra.part 1) index (bare (extra.part 1) index) ++
        [close (.sign .rbracket)]
  | .ifExp test body orelse =>
    within 2 (extra.part 0) body (bare (extra.part 0) body) ++
      apart (.word "if") :: spaced (within 0 (extra.part 1) test (bare (extra.part 1) test)) ++
        apart (.word "else") ::
          spaced (within 1 (extra.part 2) orelse (bare (extra.part 2) orelse))
  | _ => []

/-- Items of a display or arguments by position. -/
def printedItems (extra : Redundance) (number : Nat) : List Expr → List (List Piece)
  | [] => []
  | item :: rest =>
    within 0 (extra.part number) item (bare (extra.part number) item) ::
      printedItems extra (number + 1) rest

/-- The links of a chain of comparisons. -/
def printedLinks (extra : Redundance) (number : Nat) : List (CmpOp × Expr) → List Piece
  | [] => []
  | (op, operand) :: rest =>
    op.marks.map apart ++
      spaced (within 14 (extra.part number) operand (bare (extra.part number) operand)) ++
        printedLinks extra (number + 1) rest

/-- Arguments by name. -/
def printedKeywords (extra : Redundance) (number : Nat) : List (String × Expr) → List (List Piece)
  | [] => []
  | (name, value) :: rest =>
    (close (.word name) :: close (.sign .assign) ::
      within 0 (extra.part number) value (bare (extra.part number) value)) ::
        printedKeywords extra (number + 1) rest

end

/-- An expression in print, with redundant parentheses. -/
def printed (extra : Redundance) (e : Expr) : List Piece := within 0 extra e (bare extra e)

end Marksheet.Syntax
