import Marksheet.Features.NameSet
import Marksheet.Features.Shape

/-!
# The features of a submission

A record holds what the checks on structure need to know of a tree: which
shapes occur in it, how often it asks for input, and which names it binds to
strings. The two flags on string variables are settled by the names of the
whole tree, so a use counts before the assignment too. Nothing in a record
depends on the order of statements or on running the program.
-/

namespace Marksheet.Features

open Syntax

/-- What a submission's tree contains. -/
structure Record where
  /-- Any `if` statement. -/
  hasIf : Bool
  /-- An `if` with an else-branch; an `elif` is one. -/
  hasIfElse : Bool
  /-- An `if` followed by at least two `elif` and a plain `else`. -/
  hasElifChain : Bool
  usesOr : Bool
  usesAnd : Bool
  hasComparison : Bool
  /-- A comparison by `in` or `not in`. -/
  usesInOperator : Bool
  usesStringMethod : Bool
  /-- `choice` or `random.choice` is called. -/
  usesRandomChoice : Bool
  importsRandom : Bool
  importsRandomChoice : Bool
  hasListOfStrings : Bool
  hasForLoop : Bool
  /-- An `if` directly in the body of another. -/
  hasNestedIf : Bool
  /-- How often `input` is called. -/
  inputCalls : Nat
  /-- How often `input` is called in the value of an assignment. -/
  savedInputCalls : Nat
  /-- The names bound to a string literal. -/
  stringVars : NameSet
  printsStringVar : Bool
  concatenatesStrings : Bool
  printsBoolean : Bool
  deriving Inhabited, DecidableEq

/-- A bare name out of the set. -/
def isNameIn (names : NameSet) (value : Expr) : Bool :=
  match nameOf? value with
  | some name => name ∈ names
  | none => false

namespace Record

/-- The record of a list of nodes. -/
def ofNodes (nodes : List Node) : Record :=
  let names := NameSet.ofList (nodes.flatMap Node.stringNames)
  { hasIf := nodes.any Node.isIf
    hasIfElse := nodes.any Node.isIfElse
    hasElifChain := nodes.any Node.isElifChain
    usesOr := nodes.any (Node.isBoolOp .or)
    usesAnd := nodes.any (Node.isBoolOp .and)
    hasComparison := nodes.any Node.isComparison
    usesInOperator := nodes.any Node.isMembershipTest
    usesStringMethod := nodes.any Node.isStringMethodCall
    usesRandomChoice := nodes.any Node.isRandomChoice
    importsRandom := nodes.any Node.importsRandom
    importsRandomChoice := nodes.any Node.importsChoice
    hasListOfStrings := nodes.any Node.isStringList
    hasForLoop := nodes.any Node.isFor
    hasNestedIf := nodes.any Node.isNestedIf
    inputCalls := nodes.countP Node.isInputCall
    savedInputCalls := nodes.countP Node.isSavedInputCall
    stringVars := names
    printsStringVar := nodes.any fun node => node.printed.any (isNameIn names)
    concatenatesStrings := nodes.any fun node =>
      node.addends.any fun operand => operand.isStr || isNameIn names operand
    printsBoolean := nodes.any Node.printsBoolean }

/-- The record of a module. -/
def ofModule (module : Module) : Record := ofNodes (Features.nodes module)

/-- Some answer is saved to a variable. -/
def hasInputSaved (record : Record) : Bool := 1 ≤ record.savedInputCalls

/-- Some answer is used without being saved. -/
def hasInputUnsaved (record : Record) : Bool := record.savedInputCalls < record.inputCalls

/-- `choice` is called, and it or its module is imported. -/
def randomChoiceOk (record : Record) : Bool :=
  record.usesRandomChoice && (record.importsRandom || record.importsRandomChoice)

/-- Some name is bound to a string literal. -/
def assignsString (record : Record) : Bool := !record.stringVars.isEmpty

/-- `and` or `or` is used. -/
def usesBooleanLogic (record : Record) : Bool := record.usesAnd || record.usesOr

end Record

end Marksheet.Features
