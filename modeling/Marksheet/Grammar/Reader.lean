import Marksheet.Grammar.Layout
import Marksheet.Syntax.Phrase

/-!
# Reading tokens

A `Reader` takes tokens from the head of a list or gets stuck. Where several
readings of the same tokens are tried in turn, the failure that came furthest
is the one reported.

Every reader of a phrase is called with the gap before its first token already
settled; it settles each further gap itself, naming what the grammar could take
there.
-/

namespace Marksheet.Grammar

open Marksheet.Source Marksheet.Syntax

/-- Why a source text is refused. -/
structure Failure where
  /-- What is wrong. -/
  detail : String
  /-- The line, from one; zero when no place is known. -/
  line : Nat
  /-- The byte column, from one; zero when no place is known. -/
  column : Nat
  deriving DecidableEq, Repr, Inhabited

/-- The text of a refusal. -/
def Failure.display (failure : Failure) : String :=
  s!"SyntaxError: {failure.detail} (line {failure.line}, column {failure.column})"

/-- A refusal at a place. -/
def Failure.atPlace (detail : String) (place : Position) : Failure :=
  ⟨detail, place.line, place.column⟩

/-- No reading goes on. -/
structure Stuck where
  /-- The number of tokens that were left. -/
  left : Nat
  /-- The refusal to report. -/
  failure : Failure
  deriving Repr, Inhabited

/-- Of two failures the one that came further; the first one if both came equally far. -/
def Stuck.further (first second : Stuck) : Stuck :=
  if second.left < first.left then second else first

/-- A reader takes tokens from the head of a list and gives a value and the tokens
left. -/
abbrev Reader (α : Type) := List Token → Except Stuck (α × List Token)

/-- Nothing can begin with the first token. -/
def stuck {α : Type} (tokens : List Token) : Except Stuck (α × List Token) :=
  let place := match tokens with
    | token :: _ => token.start
    | [] => .first
  .error ⟨tokens.length, .atPlace "invalid syntax" place⟩

/-- Try a second reading where the first one fails. -/
def either {α : Type} (first second : Except Stuck α) : Except Stuck α :=
  match first with
  | .ok result => .ok result
  | .error e =>
    match second with
    | .ok result => .ok result
    | .error e' => .error (e.further e')

/-- Where a phrase stands: the indentation of its block and what may follow it. -/
structure Place where
  indent : Nat
  viable : Viable
  deriving Repr, Inhabited

/-- The same place with something else to follow. -/
def Place.followedBy (place : Place) (viable : Viable) : Place := { place with viable }

/-- An operand follows: a string may come, but no line end and no bracket. -/
def operandNext : Viable := { quote := true }

/-- A closing bracket may follow. -/
def closerNext : Viable := { closer := true }

/-- A closing bracket or a string may follow. -/
def closerOrQuoteNext : Viable := { closer := true, quote := true }

/-- The line may end. -/
def lineEndNext : Viable := { lineEnd := true }

/-- The parts that continued lines make. -/
def continuations (continued : List Continued) : List Phrase :=
  continued.map fun line => .continuation line.1

/-- Look behind a gap: the continued lines, the next token without its gap, and the
tokens behind it. There is none where a line ends or a block closes. -/
def ahead (indent : Nat) (viable : Viable) : List Token → Option (List Phrase × Token × List Token)
  | [] => none
  | token :: rest =>
    let settled := settle indent viable token
    match settled.verdict with
    | .goesOn => some (continuations settled.continued, settled.token, rest)
    | _ => none

/-- Pass a gap: some token has to follow. -/
def pass (indent : Nat) (viable : Viable) (tokens : List Token) :
    Except Stuck (List Phrase × List Token) :=
  match ahead indent viable tokens with
  | some (parts, token, rest) => .ok (parts, token :: rest)
  | none => stuck tokens

/-- The next token behind the gap, if there is one. -/
def peek (indent : Nat) (viable : Viable) (tokens : List Token) : Option Token :=
  (ahead indent viable tokens).map fun found => found.2.1

/-- The next token behind the gap is this symbol. -/
def peekSymbol (indent : Nat) (viable : Viable) (symbol : Symbol) (tokens : List Token) : Bool :=
  match peek indent viable tokens with
  | some token => token.isSymbol symbol
  | none => false

/-- The next token behind the gap is this word. -/
def peekWord (indent : Nat) (viable : Viable) (word : String) (tokens : List Token) : Bool :=
  match peek indent viable tokens with
  | some token => token.isWord word
  | none => false

/-- Take a symbol. -/
def takeSymbol (symbol : Symbol) : Reader Token
  | token :: rest => if token.isSymbol symbol then .ok (token, rest) else stuck (token :: rest)
  | [] => stuck []

/-- Take a closing bracket. Where a colon stands in its place, the bracket is what is
missing. -/
def takeCloser (symbol : Symbol) : Reader Token
  | token :: rest =>
    if token.isSymbol symbol then .ok (token, rest)
    else if token.isSymbol .colon then
      .error ⟨rest.length + 1, .atPlace ("expected '" ++ symbol.text ++ "'") token.behind⟩
    else stuck (token :: rest)
  | [] => stuck []

/-- Take one particular word. -/
def takeWord (word : String) : Reader Token
  | token :: rest => if token.isWord word then .ok (token, rest) else stuck (token :: rest)
  | [] => stuck []

/-- Take any word. -/
def takeName : Reader String
  | token :: rest =>
    if token.lexeme = .word then .ok (token.text, rest) else stuck (token :: rest)
  | [] => stuck []

/-- Pass a gap and take a symbol. -/
def passSymbol (indent : Nat) (viable : Viable) (symbol : Symbol) (tokens : List Token) :
    Except Stuck (List Phrase × List Token) := do
  let (parts, tokens) ← pass indent viable tokens
  let (_, tokens) ← takeSymbol symbol tokens
  return (parts, tokens)

/-- Pass a gap and take a closing bracket. -/
def passCloser (indent : Nat) (viable : Viable) (symbol : Symbol) (tokens : List Token) :
    Except Stuck (List Phrase × List Token) := do
  let (parts, tokens) ← pass indent viable tokens
  let (_, tokens) ← takeCloser symbol tokens
  return (parts, tokens)

/-- Pass a gap and take one particular word. -/
def passWord (indent : Nat) (viable : Viable) (word : String) (tokens : List Token) :
    Except Stuck (List Phrase × List Token) := do
  let (parts, tokens) ← pass indent viable tokens
  let (_, tokens) ← takeWord word tokens
  return (parts, tokens)

/-- Pass a gap and take any word. -/
def passName (indent : Nat) (viable : Viable) (tokens : List Token) :
    Except Stuck (String × List Token) := do
  let (_, tokens) ← pass indent viable tokens
  takeName tokens

/-- The exact text of the tokens between two points of a reading, without the gap
before the first one. -/
def textBetween (before after : List Token) : String :=
  match before.take (before.length - after.length) with
  | [] => ""
  | token :: rest => token.text ++ verbatim rest

/-- A double star read as a single star with another one behind it. -/
def splitStar : List Token → List Token
  | token :: rest =>
    if token.isSymbol (.op .pow) then
      let middle := { token.start with column := token.start.column + 1 }
      let star (start : Position) : Token := ⟨[], .symbol (.op .mul), "*", start, start⟩
      { star token.start with gap := token.gap, behind := token.behind } :: star middle :: rest
    else token :: rest
  | [] => []

end Marksheet.Grammar
