import Marksheet.Grammar.Expression

/-!
# Reading the patterns of `case` clauses

Patterns are read to find where they end; nothing of them is kept. As with
expressions, a nested pattern is read through an argument and `casePattern`
closes the circle by recursion on the number of levels.
-/

namespace Marksheet.Grammar

open Marksheet.Source Marksheet.Syntax

/-- A reader that keeps nothing. -/
abbrev Skipper := Place → Reader Unit

/-- Words separated by dots. -/
def dottedTail (place : Place) : Nat → Reader Unit
  | 0, tokens => .ok ((), tokens)
  | fuel + 1, tokens =>
    if peekSymbol place.indent place.viable .dot tokens then do
      let (_, tokens) ← passSymbol place.indent place.viable .dot tokens
      let (_, tokens) ← passName place.indent {} tokens
      dottedTail place fuel tokens
    else .ok ((), tokens)

/-- A dotted name. -/
def dottedName (place : Place) : Reader Unit := fun tokens => do
  let (_, tokens) ← takeName tokens
  dottedTail place tokens.length tokens

/-- Items separated by commas up to a closing bracket, a last comma allowed; there may
be none. -/
def skipItems (item : Skipper) (indent : Nat) (closer : Symbol) : Reader Unit := fun tokens => do
  let (_, tokens) ← pass indent closerOrQuoteNext tokens
  match tokens with
  | token :: rest =>
    if token.isSymbol closer then return ((), rest)
    else
      let place : Place := ⟨indent, closerNext⟩
      let unit : Reader Phrase := fun tokens => do
        let (_, tokens) ← item place tokens
        return (.other "", tokens)
      let (_, tokens) ← item place tokens
      let (_, tokens) ← moreElements unit place closer tokens.length [] tokens
      return ((), tokens)
  | [] => stuck tokens

/-- A number, and perhaps a second one behind a sign. -/
def numberPattern (place : Place) : Reader Unit := fun tokens =>
  match tokens with
  | token :: rest =>
    if token.lexeme = .integer || token.lexeme = .float then
      match ahead place.indent place.viable rest with
      | some (_, sign, rest') =>
        if sign.isSymbol (.op .add) || sign.isSymbol (.op .sub) then do
          let (_, tokens) ← pass place.indent {} rest'
          match tokens with
          | number :: rest =>
            if number.lexeme = .integer || number.lexeme = .float then return ((), rest)
            else stuck tokens
          | [] => stuck tokens
        else .ok ((), rest)
      | none => .ok ((), rest)
    else stuck tokens
  | [] => stuck tokens

/-- A pattern without alternatives. -/
def closedPattern (n : Nested) (pattern simple : Skipper) : Skipper := fun place tokens =>
  match tokens with
  | token :: rest =>
    match token.lexeme with
    | .integer | .float => numberPattern place tokens
    | .symbol (.op .sub) => do
      let (_, tokens) ← pass place.indent {} rest
      numberPattern place tokens
    | .symbol (.op .mul) | .symbol (.op .pow) => do
      let (_, tokens) ← passName place.indent {} rest
      return ((), tokens)
    | .quoteOpen => do
      let (_, tokens) ← strings n place tokens
      return ((), tokens)
    | .symbol .lparen => skipItems pattern place.indent .rparen rest
    | .symbol .lbracket => skipItems pattern place.indent .rbracket rest
    | .symbol .lbrace =>
      let item : Skipper := fun place tokens =>
        match tokens with
        | token :: rest =>
          if token.isSymbol (.op .pow) || token.isSymbol (.op .mul) then do
            let (_, tokens) ← passName place.indent {} rest
            return ((), tokens)
          else do
            let (_, tokens) ← simple ⟨place.indent, {}⟩ tokens
            let (_, tokens) ← passSymbol place.indent {} .colon tokens
            let (_, tokens) ← pass place.indent operandNext tokens
            pattern place tokens
        | [] => stuck tokens
      skipItems item place.indent .rbrace rest
    | .word =>
      if (constantWord? token.text).isSome then .ok ((), rest)
      else do
        let (_, tokens) ← dottedName place tokens
        if peekSymbol place.indent place.viable .lparen tokens then
          let (_, tokens) ← passSymbol place.indent place.viable .lparen tokens
          skipItems pattern place.indent .rparen tokens
        else return ((), tokens)
    | _ => stuck tokens
  | [] => stuck tokens

/-- Further alternatives of a pattern. -/
def alternatives (closed : Skipper) (place : Place) : Nat → Reader Unit
  | 0, tokens => .ok ((), tokens)
  | fuel + 1, tokens =>
    if peekSymbol place.indent place.viable (.op .bitOr) tokens then do
      let (_, tokens) ← passSymbol place.indent place.viable (.op .bitOr) tokens
      let (_, tokens) ← pass place.indent operandNext tokens
      let (_, tokens) ← closed place tokens
      alternatives closed place fuel tokens
    else .ok ((), tokens)

/-- Alternatives separated by bars. -/
def simplePattern (n : Nested) (pattern simple : Skipper) : Skipper := fun place tokens => do
  let (_, tokens) ← closedPattern n pattern simple place tokens
  alternatives (closedPattern n pattern simple) place tokens.length tokens

/-- Names behind `as`. -/
def bindings (place : Place) : Nat → Reader Unit
  | 0, tokens => .ok ((), tokens)
  | fuel + 1, tokens =>
    if peekWord place.indent place.viable "as" tokens then do
      let (_, tokens) ← passWord place.indent place.viable "as" tokens
      let (_, tokens) ← passName place.indent {} tokens
      bindings place fuel tokens
    else .ok ((), tokens)

/-- A pattern: a keyword pattern or alternatives, perhaps bound to a name. -/
def fullPattern (n : Nested) (pattern simple : Skipper) : Skipper := fun place tokens =>
  match tokens with
  | token :: rest =>
    if token.lexeme = .word && (constantWord? token.text).isNone &&
        peekSymbol place.indent place.viable .assign rest then do
      let (_, tokens) ← passSymbol place.indent place.viable .assign rest
      let (_, tokens) ← pass place.indent operandNext tokens
      let (_, tokens) ← simplePattern n pattern simple place tokens
      bindings place tokens.length tokens
    else do
      let (_, tokens) ← simplePattern n pattern simple place tokens
      bindings place tokens.length tokens
  | [] => stuck tokens

/-- The readers of patterns, full and simple, for a number of levels. -/
def patternReaders (n : Nested) : Nat → Skipper × Skipper
  | 0 => (fun _ => stuck, fun _ => stuck)
  | levels + 1 =>
    let (pattern, simple) := patternReaders n levels
    (fullPattern n pattern simple, simplePattern n pattern simple)

/-- The patterns of a clause, separated by commas. -/
def casePatterns (n : Nested) (place : Place) (levels : Nat) : Nat → Reader Unit
  | 0, tokens => stuck tokens
  | fuel + 1, tokens => do
    let (_, tokens) ← (patternReaders n levels).1 place tokens
    if peekSymbol place.indent place.viable .comma tokens then
      let (_, tokens) ← passSymbol place.indent place.viable .comma tokens
      let (_, tokens) ← pass place.indent operandNext tokens
      match tokens with
      | token :: _ =>
        if token.isSymbol .colon || token.isWord "if" then return ((), tokens)
        else casePatterns n place levels fuel tokens
      | [] => stuck tokens
    else return ((), tokens)

end Marksheet.Grammar
