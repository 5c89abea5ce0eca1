import Marksheet.Grammar.Block
import Marksheet.Source.Lexer
import Marksheet.Syntax.Abstraction

/-!
# Parsing a submission

`parse` reads a source text into the abstract tree or refuses it. A text that
the grammar takes is still refused when it holds a statement of the older
language; the refusal names the first such statement in document order.
-/

namespace Marksheet.Grammar

open Marksheet.Source Marksheet.Syntax

/-- The two statements that only the older language has. -/
inductive Legacy where
  | print | exec
  deriving DecidableEq, Repr, Inhabited

/-- What is said about a statement of the older language. -/
def Legacy.detail : Legacy → String
  | .print => "Missing parentheses in call to 'print'"
  | .exec => "Missing parentheses in call to 'exec'"

mutual

/-- The first statement of the older language in a sentence, with its place. -/
def legacyIn? : Sentence → Option (Legacy × Position)
  | .mk form start => legacyInForm? start form

/-- The first statement of the older language in a block. -/
def legacyInBlock? : List Sentence → Option (Legacy × Position)
  | [] => none
  | sentence :: rest => (legacyIn? sentence).or (legacyInBlock? rest)

/-- The first statement of the older language in a form that begins at a place. -/
def legacyInForm? (start : Position) : Form → Option (Legacy × Position)
  | .legacyPrint => some (.print, start)
  | .legacyExec => some (.exec, start)
  | .if _ body further => (legacyInBlock? body).or (legacyInBranches? further)
  | .while _ body orelse => (legacyInBlock? body).or (legacyInBlock? orelse)
  | .for _ _ body orelse => (legacyInBlock? body).or (legacyInBlock? orelse)
  | .try body clauses => (legacyInBlock? body).or (legacyInRescues? clauses)
  | .with _ body => legacyInBlock? body
  | .define _ _ body => legacyInBlock? body
  | .class _ _ body => legacyInBlock? body
  | .decorated _ definition => legacyInForm? start definition
  | .match _ cases => legacyInCases? cases
  | _ => none

/-- The first statement of the older language in further branches. -/
def legacyInBranches? : List Branch → Option (Legacy × Position)
  | [] => none
  | .elif _ _ body :: rest => (legacyInBlock? body).or (legacyInBranches? rest)
  | .else body :: rest => (legacyInBlock? body).or (legacyInBranches? rest)

/-- The first statement of the older language in the clauses of a `try` statement. -/
def legacyInRescues? : List Rescue → Option (Legacy × Position)
  | [] => none
  | .except _ _ body :: rest => (legacyInBlock? body).or (legacyInRescues? rest)
  | .exceptGroup body :: rest => (legacyInBlock? body).or (legacyInRescues? rest)
  | .else body :: rest => (legacyInBlock? body).or (legacyInRescues? rest)
  | .finally body :: rest => (legacyInBlock? body).or (legacyInRescues? rest)

/-- The first statement of the older language in the clauses of a `match` statement. -/
def legacyInCases? : List Case → Option (Legacy × Position)
  | [] => none
  | .mk _ body :: rest => (legacyInBlock? body).or (legacyInCases? rest)

end

/-- The concrete form of a source text, or why the grammar does not take it. -/
def read (source : String) : Except Failure Block :=
  match sentences (tokenize source) with
  | .ok block => .ok block
  | .error e => .error e.failure

/-- The tree of a submission, or why it is refused. -/
def parse (source : String) : Except Failure Module :=
  match read source with
  | .error failure => .error failure
  | .ok block =>
    match legacyInBlock? block with
    | some (legacy, place) => .error (.atPlace legacy.detail place)
    | none => .ok (.ofBlock block)

end Marksheet.Grammar
