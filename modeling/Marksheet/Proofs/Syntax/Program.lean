import Mathlib
import Marksheet.Proofs.Syntax.Print

/-!
# Programs in print

A program is printed on lines, one for each simple statement and for each header of a
compound one. The statements of a block have the same margin, which is the margin of
the statement around them and some more blanks, other ones in every block if need be.
An else-branch that is a single `if` is printed as `elif` or as `else` with the `if`
below it. All these choices make a style, and any style will do.
-/

namespace Marksheet.Syntax

/-! ### Lines -/

/-- A character of a margin. -/
inductive Blank where
  | space | tab
  deriving DecidableEq, Repr, Inhabited

def Blank.char : Blank → Char
  | .space => ' '
  | .tab => '\t'

/-- The columns that a blank counts. -/
def Blank.width : Blank → Nat
  | .space => 1
  | .tab => 8

/-- What stands before the first mark of a line. -/
abbrev Margin := List Blank

/-- The columns that a margin counts. -/
def Margin.width (margin : Margin) : Nat := (margin.map Blank.width).sum

/-- A line in print. -/
structure Line where
  margin : Margin
  pieces : List Piece
  deriving DecidableEq, Repr, Inhabited

/-- The text of a line, its end included. -/
def Line.chars (line : Line) : List Char :=
  line.margin.map Blank.char ++ textOf line.pieces ++ ['\n']

/-- The text of lines. -/
def textOfLines (lines : List Line) : List Char := lines.flatMap Line.chars

/-! ### Styles -/

/-- How a program is printed. A way gives the number of a statement in its block, then the number of
a block in the statement, and so on. -/
structure Style where
  /-- The blanks by which a block is indented more than the statement around it; at least one. -/
  step : List Nat → Blank × List Blank
  /-- An else-branch that is a single `if` is printed as `elif`. -/
  joined : List Nat → Bool
  /-- The redundant parentheses in an expression. -/
  extra : List Nat → Redundance

/-- The style of a part. -/
def Style.part (style : Style) (number : Nat) : Style where
  step way := style.step (number :: way)
  joined way := style.joined (number :: way)
  extra way := style.extra (number :: way)

/-- The margin of a block in a statement with a margin. -/
def Style.deeper (style : Style) (margin : Margin) : Margin :=
  margin ++ (style.step []).1 :: (style.step []).2

/-- The redundant parentheses in an expression of a statement, by its number. -/
def Style.parens (style : Style) (number : Nat) : Redundance := style.extra [number]

/-- Each block is indented by four spaces, else-branches are joined, and no parentheses are
redundant. -/
def Style.plain : Style where
  step _ := (.space, [.space, .space, .space])
  joined _ := true
  extra _ _ := 0

/-! ### Names with dots -/

/-- The parts of a name between its dots. -/
def partsOf (name : String) : List String := (name.toList.splitOn '.').map String.ofList

/-- Words with dots between them. -/
def dotted : List String → List Piece
  | [] => []
  | part :: rest =>
    close (.word part) :: rest.flatMap fun next => [close (.sign .dot), close (.word next)]

/-- Every part of the name can name something. -/
def isDottedName (name : String) : Bool := (partsOf name).all isName

/-- The dots at the head of a relative module. -/
def leadingDots (module : String) : Nat := (module.toList.takeWhile (· = '.')).length

/-- The name behind these dots. -/
def behindDots (module : String) : String := String.ofList (module.toList.dropWhile (· = '.'))

/-- Dots that are written together: three make one mark. -/
def dots (count : Nat) : List Piece :=
  List.replicate (count / 3) (close (.sign .ellipsis)) ++
    List.replicate (count % 3) (close (.sign .dot))

/-- A module by its name, by dots alone, or by dots and a name. -/
def isModuleName (module : String) : Bool :=
  isDottedName (behindDots module) || (behindDots module).isEmpty && 0 < leadingDots module

/-- A module in print. -/
def modulePieces (module : String) : List Piece :=
  dots (leadingDots module) ++
    if (behindDots module).isEmpty then [] else dotted (partsOf (behindDots module))

/-! ### What stands on a line -/

/-- A word behind what it binds. -/
def bound : Option String → List Piece
  | none => []
  | some name => [apart (.word "as"), apart (.word name)]

/-- An imported name. -/
def importPieces (imported : ImportName) : List Piece :=
  dotted (partsOf imported.name) ++ bound imported.asname

/-- The expression does not begin like a statement of another kind. -/
def startsPlainly : List Shape → Bool
  | (.word, text) :: rest =>
    text != "match" && text != "type" &&
      !(text == "print" && rest.head?.map Prod.fst == some (.symbol (.op .rShift)))
  | _ => true

/-- An expression that is a statement by itself: it is in parentheses if it would begin like a
statement of another kind. -/
def alone (extra : Redundance) (e : Expr) : List Piece :=
  enclosed (if startsPlainly (shapesOf (printed extra e)) then 0 else 1) (printed extra e)

mutual

/-- The expression that looks like a target. -/
def Target.expr : Target → Expr
  | .name id => .name id
  | .tuple items => .tuple (targetExprs items)
  | .subscript value index => .subscript value index
  | .attribute value attr => .attribute value attr
  | .starred target => .starred target.expr
  | .unsupported kind => .unsupported kind

/-- The expressions that look like targets. -/
def targetExprs : List Target → List Expr
  | [] => []
  | target :: rest => target.expr :: targetExprs rest

end

/-- A target. Parentheses around a pattern would make another pattern of it, so there are none that
are redundant. -/
def Target.pieces (target : Target) : List Piece := bare (fun _ => 0) target.expr

/-- Targets, each with the mark of an assignment behind it, and the value. -/
def assigned (value : List Piece) : List Target → List Piece
  | [] => value
  | target :: rest => target.pieces ++ apart (.sign .assign) :: spaced (assigned value rest)

/-- A parameter of a function. -/
def paramPieces (extra : Redundance) : Param → List Piece
  | .mk name none => [close (.word name)]
  | .mk name (some value) => close (.word name) :: close (.sign .assign) :: printed extra value

/-- Parameters from a number on. -/
def paramsPieces (style : Style) (number : Nat) : List Param → List (List Piece)
  | [] => []
  | param :: rest =>
    paramPieces (style.parens number) param :: paramsPieces style (number + 1) rest

/-- The expression is a tuple. -/
def Expr.isTuple : Expr → Bool
  | .tuple _ => true
  | _ => false

/-- A context of a `with` header. A tuple gets parentheses of its own: those of the tuple would
enclose contexts. -/
def contextPieces (extra : Redundance) (e : Expr) : List Piece :=
  enclosed (if e.isTuple then 1 else 0) (within 3 extra e (bare extra e))

/-- A context with its target. -/
def itemPieces (extra : Redundance) (item : WithItem) : List Piece :=
  contextPieces extra item.context ++
    match item.target with
    | none => []
    | some target => apart (.word "as") :: spaced target.pieces

/-- The items of a `with` header from a number on. -/
def itemsPieces (style : Style) (number : Nat) : List WithItem → List (List Piece)
  | [] => []
  | item :: rest => itemPieces (style.parens number) item :: itemsPieces style (number + 1) rest

/-- A word with what stands behind it, and a colon. -/
def header (word : String) (pieces : List Piece) : List Piece :=
  close (.word word) :: spaced pieces ++ [close (.sign .colon)]

/-- What an `except` clause handles. -/
def caughtPieces (extra : Redundance) : Option Expr → Option String → List Piece
  | none, _ => []
  | some kind, name => within 3 extra kind (bare extra kind) ++ bound name

/-- The header of a function. -/
def functionPieces (style : Style) (name : String) (params : List Param) : List Piece :=
  header "def" (close (.word name) :: close (.sign .lparen) ::
    separated (paramsPieces style 0 params) ++ [close (.sign .rparen)])

/-- The header of a class, with parentheses if there are bases. -/
def classPieces (style : Style) (name : String) (bases : List Expr) : List Piece :=
  header "class" (close (.word name) ::
    if bases.isEmpty then []
    else close (.sign .lparen) :: separated (printedItems (style.parens 0) 0 bases) ++
      [close (.sign .rparen)])

/-- A simple statement. -/
def simplePieces (style : Style) : StmtKind → List Piece
  | .expr value => alone (style.parens 0) value
  | .assign targets value => assigned (printed (style.parens 0) value) targets
  | .augAssign target op value =>
    target.pieces ++ apart (.sign (.augmented op)) :: spaced (printed (style.parens 0) value)
  | .return none => [close (.word "return")]
  | .return (some value) => close (.word "return") :: spaced (printed (style.parens 0) value)
  | .imports names => close (.word "import") :: spaced (separated (names.map importPieces))
  | .importFrom module names wildcard =>
    close (.word "from") :: spaced (modulePieces module) ++ apart (.word "import") ::
      if wildcard then [apart (.sign (.op .mul))]
      else spaced (separated (names.map importPieces))
  | .pass => [close (.word "pass")]
  | .break => [close (.word "break")]
  | .continue => [close (.word "continue")]
  | _ => []

/-! ### Programs that can be written -/

/-- The target is a name that can be written. -/
def Target.isName : Target → Bool
  | .name id => Syntax.isName id
  | _ => false

mutual

/-- The target can be written: a name, a tuple of targets, a subscript or an attribute. -/
def Target.isWritable : Target → Bool
  | .name id => Syntax.isName id
  | .tuple items => targetsWritable items
  | .subscript value index => value.isWritable && index.isWritable
  | .attribute value attr => value.isWritable && Syntax.isName attr
  | _ => false

/-- All targets of a list can be written. -/
def targetsWritable : List Target → Bool
  | [] => true
  | target :: rest => target.isWritable && targetsWritable rest

end

def Param.isWritable : Param → Bool
  | .mk name default => isName name && default.all Expr.isWritable

def ImportName.isWritable (imported : ImportName) : Bool :=
  isDottedName imported.name && imported.asname.all isName

def WithItem.isWritable (item : WithItem) : Bool :=
  item.context.isWritable && item.target.all Target.isWritable

mutual

/-- The statement can be written: it has no constructs but those below, its suites are not empty, and
what it needs is there. The target of an augmented assignment does not begin like a statement of
another kind, unless it is a name. -/
def StmtKind.isWritable : StmtKind → Bool
  | .expr value => value.isWritable
  | .assign targets value =>
    !targets.isEmpty && targets.all Target.isName && value.isWritable
  | .augAssign target _ value =>
    target.isWritable && (target.isName || startsPlainly (shapesOf target.pieces)) && value.isWritable
  | .if test body orelse | .while test body orelse =>
    test.isWritable && !body.isEmpty && stmtsWritable body && stmtsWritable orelse
  | .for target iter body orelse =>
    target.isWritable && iter.isWritable && !body.isEmpty && stmtsWritable body &&
      stmtsWritable orelse
  | .functionDef name params decorators body =>
    isName name && params.all Param.isWritable && decorators.isEmpty && !body.isEmpty &&
      stmtsWritable body
  | .classDef name bases decorators body =>
    isName name && allWritable bases && decorators.isEmpty && !body.isEmpty && stmtsWritable body
  | .with items body =>
    !items.isEmpty && items.all WithItem.isWritable && !body.isEmpty && stmtsWritable body
  | .return value => value.all Expr.isWritable
  | .imports names => !names.isEmpty && names.all ImportName.isWritable
  | .importFrom module names wildcard =>
    isModuleName module && module != "__future__" &&
      if wildcard then names.isEmpty else !names.isEmpty && names.all ImportName.isWritable
  | .try body handlers orelse finalbody =>
    !body.isEmpty && stmtsWritable body && handlersWritable handlers && stmtsWritable orelse &&
      stmtsWritable finalbody &&
        if handlers.isEmpty then orelse.isEmpty && !finalbody.isEmpty else true
  | .pass | .break | .continue => true
  | _ => false

/-- All statements of a block can be written. -/
def stmtsWritable : List Stmt → Bool
  | [] => true
  | .mk kind _ :: rest => kind.isWritable && stmtsWritable rest

/-- All handlers can be written; one with a name has a kind. -/
def handlersWritable : List Handler → Bool
  | [] => true
  | .mk kind name body _ :: rest =>
    kind.all Expr.isWritable && name.all isName && (kind.isSome || name.isNone) && !body.isEmpty &&
      stmtsWritable body && handlersWritable rest

end

def Module.isWritable (tree : Module) : Bool := stmtsWritable tree.body

/-! ### Printing -/

/-- The lines of a block below a header of their own, unless the block is empty. -/
def optionalClause (margin : Margin) (word : String) (body : List Stmt) (lines : List Line) :
    List Line :=
  if body.isEmpty then [] else ⟨margin, header word []⟩ :: lines

mutual

/-- The lines of a statement with a margin. A conditional begins with the given word, `if` or
`elif`. -/
def kindLines (style : Style) (margin : Margin) (word : String) : StmtKind → List Line
  | .if test body orelse =>
    ⟨margin, header word (printed (style.parens 0) test)⟩ ::
      blockLines (style.part 0) ((style.part 0).deeper margin) 0 body ++
        elseLines (style.part 1) margin orelse
  | .while test body orelse =>
    ⟨margin, header "while" (printed (style.parens 0) test)⟩ ::
      blockLines (style.part 0) ((style.part 0).deeper margin) 0 body ++
        optionalClause margin "else" orelse
          (blockLines (style.part 1) ((style.part 1).deeper margin) 0 orelse)
  | .for target iter body orelse =>
    ⟨margin, header "for"
        (target.pieces ++ apart (.word "in") :: spaced (printed (style.parens 0) iter))⟩ ::
      blockLines (style.part 0) ((style.part 0).deeper margin) 0 body ++
        optionalClause margin "else" orelse
          (blockLines (style.part 1) ((style.part 1).deeper margin) 0 orelse)
  | .functionDef name params _ body =>
    ⟨margin, functionPieces style name params⟩ ::
      blockLines (style.part 0) ((style.part 0).deeper margin) 0 body
  | .classDef name bases _ body =>
    ⟨margin, classPieces style name bases⟩ ::
      blockLines (style.part 0) ((style.part 0).deeper margin) 0 body
  | .with items body =>
    ⟨margin, header "with" (separated (itemsPieces style 0 items))⟩ ::
      blockLines (style.part 0) ((style.part 0).deeper margin) 0 body
  | .try body handlers orelse finalbody =>
    ⟨margin, header "try" []⟩ ::
      blockLines (style.part 0) ((style.part 0).deeper margin) 0 body ++
        (handlerLines (style.part 1) margin 0 handlers ++
          (optionalClause margin "else" orelse
            (blockLines (style.part 2) ((style.part 2).deeper margin) 0 orelse) ++
              optionalClause margin "finally" finalbody
                (blockLines (style.part 3) ((style.part 3).deeper margin) 0 finalbody)))
  | kind => [⟨margin, simplePieces style kind⟩]

/-- The lines of a block with a margin, from a number on. -/
def blockLines (style : Style) (margin : Margin) (number : Nat) : List Stmt → List Line
  | [] => []
  | .mk kind _ :: rest =>
    kindLines (style.part number) margin "if" kind ++ blockLines style margin (number + 1) rest

/-- The lines of the else-branch of a conditional. -/
def elseLines (style : Style) (margin : Margin) : List Stmt → List Line
  | [] => []
  | .mk kind _ :: rest =>
    match style.joined [] && rest.isEmpty, kind with
    | true, .if test body orelse =>
      kindLines (style.part 0) margin "elif" (.if test body orelse)
    | _, kind =>
      ⟨margin, header "else" []⟩ ::
        (kindLines (style.part 0) (style.deeper margin) "if" kind ++
          blockLines style (style.deeper margin) 1 rest)

/-- The lines of `except` clauses, from a number on. -/
def handlerLines (style : Style) (margin : Margin) (number : Nat) : List Handler → List Line
  | [] => []
  | .mk kind name body _ :: rest =>
    ⟨margin, header "except" (caughtPieces ((style.part number).parens 0) kind name)⟩ ::
      blockLines (style.part number) ((style.part number).deeper margin) 0 body ++
        handlerLines style margin (number + 1) rest

end

/-- An else-branch goes on the conditional as a branch of its own, or it is a clause. -/
theorem elseLines_cases (style : Style) (margin : Margin) (kind : StmtKind) (line : Nat)
    (rest : List Stmt) :
    (∃ test body orelse, kind = .if test body orelse ∧ rest = [] ∧
      elseLines style margin (.mk kind line :: rest) = kindLines (style.part 0) margin "elif" kind) ∨
    elseLines style margin (.mk kind line :: rest) =
      optionalClause margin "else" (.mk kind line :: rest)
        (blockLines style (style.deeper margin) 0 (.mk kind line :: rest)) := by
  unfold elseLines
  split
  · rename_i test body orelse hjoined
    exact .inl ⟨test, body, orelse, rfl, List.isEmpty_iff.mp (Bool.and_eq_true_iff.mp hjoined).2, rfl⟩
  · exact .inr rfl

/-- The lines of a program. -/
def programLines (style : Style) (tree : Module) : List Line := blockLines style [] 0 tree.body

/-- The text of a program. -/
def programText (style : Style) (tree : Module) : String :=
  String.ofList (textOfLines (programLines style tree))

end Marksheet.Syntax
