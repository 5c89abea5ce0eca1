import Marksheet.Grammar.Statement

/-!
# Reading compound statements and blocks

A block is read for an indentation. `suite` reads what stands behind a colon: a
block on lines of its own, statements on the same line, or nothing. The readers
are not recursive; nested blocks are read through `Blocks`, and `blocks` closes
the circle by recursion on the number of levels.
-/

namespace Marksheet.Grammar

open Marksheet.Source Marksheet.Syntax

/-- The readers of nested blocks. -/
structure Blocks where
  /-- The sentences of a block up to its closing, for its indentation. -/
  block : Nat → Reader Block

/-- The sentences that continued lines make. -/
def continuedSentences (continued : List Continued) : Block :=
  continued.map fun line => .mk .continuation line.2

/-- Simple statements on one line, and the end of the line, which is not taken. -/
def simpleLine (n : Nested) (indent : Nat) : Nat → Block → Reader Block
  | 0, _, tokens => stuck tokens
  | fuel + 1, found, tokens => do
    let start := match tokens with
      | token :: _ => token.start
      | [] => .first
    let (form, tokens) ← simpleStatement n indent tokens
    let found := found ++ [.mk form start]
    match tokens with
    | [] => stuck tokens
    | token :: rest =>
      let settled := settle indent lineEndNext token
      let found := found ++ continuedSentences settled.continued
      match settled.verdict with
      | .lineEnds => return (found, settled.token :: rest)
      | _ =>
        let (_, tokens) ← takeSymbol .semicolon (settled.token :: rest)
        match tokens with
        | [] => stuck tokens
        | token :: rest =>
          let settled := settle indent { lineEnd := true, quote := true } token
          let found := found ++ continuedSentences settled.continued
          match settled.verdict with
          | .lineEnds => return (found, settled.token :: rest)
          | _ => simpleLine n indent fuel found (settled.token :: rest)

/-- What stands behind a colon, with the continued lines before it. -/
def suite (n : Nested) (b : Blocks) (indent : Nat) : Reader (List Phrase × Block) := fun tokens =>
  match tokens with
  | [] => stuck tokens
  | token :: rest =>
    let settled := settle indent { opening := true, lineEnd := true, quote := true } token
    let before := continuations settled.continued
    let tokens := settled.token :: rest
    match settled.verdict with
    | .opens width => do
      let (body, tokens) ← b.block width tokens
      return ((before, body), tokens)
    | .lineEnds => .ok ((before, []), tokens)
    | _ => do
      let (body, tokens) ← simpleLine n indent tokens.length [] tokens
      return ((before, body), tokens)

/-- A colon and what stands behind it. -/
def colonSuite (n : Nested) (b : Blocks) (indent : Nat) : Reader (List Phrase × Block) :=
  fun tokens => do
    let (before, tokens) ← passSymbol indent {} .colon tokens
    let ((behind, body), tokens) ← suite n b indent tokens
    return ((before ++ behind, body), tokens)

/-- What the grammar could take behind a complete clause of a compound statement. -/
def clauseNext (indent : Nat) : Viable := { closing := 0 < indent, quote := true }

/-- The next clause begins with this word, which is taken with the gap before it. -/
def clauseWord? (indent : Nat) (word : String) (tokens : List Token) :
    Option (Token × List Token) :=
  match ahead indent (clauseNext indent) tokens with
  | some (_, token, rest) => if token.isWord word then some (token, rest) else none
  | none => none

/-- An optional else clause; none when it is missing. -/
def elseClause (n : Nested) (b : Blocks) (indent : Nat) : Reader (Option Block) := fun tokens =>
  match clauseWord? indent "else" tokens with
  | some (_, rest) => do
    let ((_, body), tokens) ← colonSuite n b indent rest
    return (some body, tokens)
  | none => .ok (none, tokens)

/-- Further branches of a conditional statement. -/
def branches (n : Nested) (b : Blocks) (indent : Nat) : Nat → List Branch → Reader (List Branch)
  | 0, found, tokens => .ok (found, tokens)
  | fuel + 1, found, tokens =>
    match clauseWord? indent "elif" tokens with
    | some (word, rest) => do
      let (_, tokens) ← pass indent operandNext rest
      let (test, tokens) ← n.expression ⟨indent, {}⟩ {} tokens
      let ((_, body), tokens) ← colonSuite n b indent tokens
      branches n b indent fuel (found ++ [.elif word.start test body]) tokens
    | none => do
      let (orelse, tokens) ← elseClause n b indent tokens
      match orelse with
      | some body => return (found ++ [.else body], tokens)
      | none => return (found, tokens)

/-- A conditional statement, behind its word. -/
def ifStatement (n : Nested) (b : Blocks) (indent : Nat) : Reader Form := fun tokens => do
  let (_, tokens) ← pass indent operandNext tokens
  let (test, tokens) ← n.expression ⟨indent, {}⟩ {} tokens
  let ((_, body), tokens) ← colonSuite n b indent tokens
  let (further, tokens) ← branches n b indent tokens.length [] tokens
  return (.if test body further, tokens)

/-- A `while` loop, behind its word. -/
def whileStatement (n : Nested) (b : Blocks) (indent : Nat) : Reader Form := fun tokens => do
  let (_, tokens) ← pass indent operandNext tokens
  let (test, tokens) ← n.expression ⟨indent, {}⟩ {} tokens
  let ((_, body), tokens) ← colonSuite n b indent tokens
  let (orelse, tokens) ← elseClause n b indent tokens
  return (.while test body (orelse.getD []), tokens)

/-- A `for` loop, behind its word. -/
def forStatement (n : Nested) (b : Blocks) (indent : Nat) : Reader Form := fun tokens => do
  let (_, tokens) ← pass indent operandNext tokens
  let (target, tokens) ← targets n ⟨indent, {}⟩ tokens
  let (_, tokens) ← passWord indent {} "in" tokens
  let (_, tokens) ← pass indent operandNext tokens
  let (iter, tokens) ← series n ⟨indent, {}⟩ tokens
  let ((_, body), tokens) ← colonSuite n b indent tokens
  let (orelse, tokens) ← elseClause n b indent tokens
  return (.for target iter body (orelse.getD []), tokens)

/-- An `except` clause behind its word. -/
def exceptClause (n : Nested) (b : Blocks) (indent : Nat) (start : Position) : Reader Rescue :=
  fun tokens => do
    let keep (parts : List Phrase) : List (Phrase × String) :=
      parts.map fun part => match part with
        | .continuation text => (part, text)
        | _ => (part, "")
    let (before, tokens) ← pass indent operandNext tokens
    match tokens with
    | token :: _ =>
      if token.isSymbol .colon then
        let ((behind, body), tokens) ← colonSuite n b indent tokens
        return (.except start (keep (before ++ behind)) body, tokens)
      else
        let (kind, after) ← n.expression ⟨indent, {}⟩ {} tokens
        let parts := keep before ++ [(kind, textBetween tokens after)]
        if peekSymbol indent {} .comma after then
          let (before, after) ← passSymbol indent {} .comma after
          let (behind, after) ← pass indent operandNext after
          let (name, tokens) ← n.expression ⟨indent, {}⟩ {} after
          let parts := parts ++ keep (before ++ behind) ++ [(name, textBetween after tokens)]
          let ((behind, body), tokens) ← colonSuite n b indent tokens
          return (.except start (parts ++ keep behind) body, tokens)
        else
          let ((behind, body), tokens) ← colonSuite n b indent after
          return (.except start (parts ++ keep behind) body, tokens)
    | [] => stuck tokens

/-- A group clause behind its word and star. -/
def exceptGroup (n : Nested) (b : Blocks) (indent : Nat) : Reader Rescue := fun tokens => do
  let (_, tokens) ← pass indent operandNext tokens
  let (_, tokens) ← n.expression ⟨indent, {}⟩ {} tokens
  let (_, tokens) ←
    if peekSymbol indent {} .comma tokens then do
      let (_, tokens) ← passSymbol indent {} .comma tokens
      let (_, tokens) ← pass indent operandNext tokens
      n.expression ⟨indent, {}⟩ {} tokens
    else pure (Phrase.other "", tokens)
  let ((_, body), tokens) ← colonSuite n b indent tokens
  return (.exceptGroup body, tokens)

/-- A star follows without a gap: the word before it begins a group clause. -/
def starDirectly : List Token → Bool
  | token :: _ => token.gap.isEmpty && token.isSymbol (.op .mul)
  | [] => false

/-- The clauses of a `try` statement up to its else clause. `group` tells the kind that
the clauses before had, if there were any. -/
def rescues (n : Nested) (b : Blocks) (indent : Nat) :
    Nat → Option Bool → List Rescue → Reader (List Rescue)
  | 0, _, found, tokens => .ok (found, tokens)
  | fuel + 1, group, found, tokens =>
    let viable : Viable :=
      { closing := group.isSome && decide (0 < indent), quote := group.isSome, rescue := true }
    match ahead indent viable tokens with
    | some (_, token, rest) =>
      if token.isWord "except" then
        if group != some false && starDirectly rest then do
          let (_, tokens) ← takeSymbol (.op .mul) rest
          let (next, tokens) ← exceptGroup n b indent tokens
          rescues n b indent fuel (some true) (found ++ [next]) tokens
        else if group = some true then .ok (found, tokens)
        else do
          let (next, tokens) ← exceptClause n b indent token.start rest
          rescues n b indent fuel (some false) (found ++ [next]) tokens
      else if token.isWord "finally" then .ok (found, tokens)
      else if group.isNone then stuck (token :: rest)
      else .ok (found, tokens)
    | none => if group.isNone then stuck tokens else .ok (found, tokens)

/-- A `try` statement, behind its word. -/
def tryStatement (n : Nested) (b : Blocks) (indent : Nat) : Reader Form := fun tokens => do
  let ((_, body), tokens) ← colonSuite n b indent tokens
  let (found, tokens) ← rescues n b indent tokens.length none [] tokens
  let grouped := match found with
    | .exceptGroup _ :: _ => true
    | _ => false
  let (orelse, tokens) ←
    if found.isEmpty || grouped then pure (none, tokens) else elseClause n b indent tokens
  let found := found ++ (orelse.map Rescue.else).toList
  let viable : Viable :=
    if found.isEmpty then { rescue := true } else clauseNext indent
  match ahead indent viable tokens with
  | some (_, token, rest) =>
    if token.isWord "finally" then
      let ((_, last), tokens) ← colonSuite n b indent rest
      return (.try body (found ++ [.finally last]), tokens)
    else if found.isEmpty then stuck (token :: rest)
    else return (.try body found, tokens)
  | none => if found.isEmpty then stuck tokens else return (.try body found, tokens)

/-- The items of a `with` header. -/
def withItems (n : Nested) (place : Place) : Nat → List Phrase → Reader (List Phrase)
  | 0, _, tokens => stuck tokens
  | fuel + 1, found, tokens => do
    let (item, tokens) ← n.expression place {} tokens
    let found := found ++ [item]
    match ahead place.indent place.viable tokens with
    | some (_, token, rest) =>
      if token.isSymbol .comma then
        match ahead place.indent { place.viable with quote := true } rest with
        | some (_, next, rest') =>
          if beginsOperand next then withItems n place fuel found (next :: rest')
          else return (found, rest)
        | none => return (found, rest)
      else return (found, tokens)
    | none => return (found, tokens)

/-- Two or more items in parentheses, directly before the colon. -/
def parenthesizedItems (n : Nested) (indent : Nat) : Reader (List Phrase) := fun tokens => do
  let (_, tokens) ← takeSymbol .lparen tokens
  let (_, tokens) ← pass indent closerOrQuoteNext tokens
  let (items, tokens) ← withItems n ⟨indent, closerNext⟩ tokens.length [] tokens
  let (_, tokens) ← passCloser indent closerNext .rparen tokens
  if 2 ≤ items.length && peekSymbol indent {} .colon tokens then return (items, tokens)
  else stuck tokens

/-- A `with` statement, behind its word. -/
def withStatement (n : Nested) (b : Blocks) (indent : Nat) : Reader Form := fun tokens => do
  let (_, tokens) ← pass indent operandNext tokens
  let (items, tokens) ←
    either (parenthesizedItems n indent tokens) (withItems n ⟨indent, {}⟩ tokens.length [] tokens)
  let ((_, body), tokens) ← colonSuite n b indent tokens
  return (.with items body, tokens)

/-- Type parameters in brackets, if there are any. -/
def typeParameters (n : Nested) (indent : Nat) : Reader Unit := fun tokens =>
  if peekSymbol indent {} .lbracket tokens then do
    let (_, tokens) ← pass indent {} tokens
    typeArguments n indent tokens
  else .ok ((), tokens)

/-- The definition of a function, behind its word. -/
def defineStatement (n : Nested) (b : Blocks) (indent : Nat) : Reader Form := fun tokens => do
  let (name, tokens) ← passName indent {} tokens
  let (_, tokens) ← typeParameters n indent tokens
  let (_, tokens) ← passSymbol indent {} .lparen tokens
  let (_, tokens) ← pass indent closerNext tokens
  let (params, tokens) ←
    match tokens with
    | token :: _ =>
      if token.isSymbol .rparen then pure ([], tokens)
      else if beginsParameter token then
        parameters n ⟨indent, closerNext⟩ true .rparen tokens.length [] tokens
      else pure ([], tokens)
    | [] => stuck tokens
  let (_, tokens) ← passCloser indent closerNext .rparen tokens
  let (_, tokens) ←
    if peekSymbol indent {} .arrow tokens then do
      let (_, tokens) ← passSymbol indent {} .arrow tokens
      let (_, tokens) ← pass indent operandNext tokens
      let (_, tokens) ← n.type ⟨indent, {}⟩ false tokens
      pure ((), tokens)
    else pure ((), tokens)
  let ((_, body), tokens) ← colonSuite n b indent tokens
  return (.define name params body, tokens)
where
  /-- A parameter can begin with the token. -/
  beginsParameter (token : Token) : Bool :=
    match token.lexeme with
    | .word | .symbol (.op .mul) | .symbol (.op .pow) | .symbol (.op .div) | .symbol .lparen => true
    | _ => false

/-- The definition of a class, behind its word. -/
def classStatement (n : Nested) (b : Blocks) (indent : Nat) : Reader Form := fun tokens => do
  let (name, tokens) ← passName indent {} tokens
  let (_, tokens) ← typeParameters n indent tokens
  let (args, tokens) ←
    if peekSymbol indent {} .lparen tokens then do
      let (_, tokens) ← passSymbol indent {} .lparen tokens
      arguments n indent false tokens
    else pure ([], tokens)
  let ((_, body), tokens) ← colonSuite n b indent tokens
  return (.class name args body, tokens)

/-- A definition that may stand behind decorators. -/
def definition (n : Nested) (b : Blocks) (indent : Nat) : Reader Form := fun tokens =>
  match tokens with
  | token :: rest =>
    if token.isWord "def" then defineStatement n b indent rest
    else if token.isWord "class" then classStatement n b indent rest
    else if token.isWord "async" then do
      let (_, tokens) ← passWord indent {} "def" rest
      defineStatement n b indent tokens
    else stuck tokens
  | [] => stuck tokens

/-- Decorators and what they decorate; the first token is the sign of a decorator. -/
def decorated (n : Nested) (b : Blocks) (indent : Nat) :
    Nat → List (List Phrase) → Reader Form
  | 0, _, tokens => stuck tokens
  | fuel + 1, found, tokens => do
    let (_, tokens) ← takeSymbol (.op .matMul) tokens
    let (before, tokens) ← pass indent operandNext tokens
    let (value, tokens) ← n.expression (lineOf indent) {} tokens
    let found := found ++ [before ++ [value]]
    match tokens with
    | [] => stuck tokens
    | token :: rest =>
      let settled := settle indent lineEndNext token
      match settled.verdict with
      | .lineEnds =>
        let (_, tokens) ← pass indent {} (settled.token :: rest)
        match tokens with
        | token :: _ =>
          if token.isSymbol (.op .matMul) then decorated n b indent fuel found tokens
          else
            let (form, tokens) ← definition n b indent tokens
            return (.decorated found form, tokens)
        | [] => stuck tokens
      | _ => stuck (settled.token :: rest)

/-- The subjects of a `match` statement, a last comma allowed. -/
def subjects (n : Nested) (indent : Nat) : Nat → List Phrase → Reader (List Phrase)
  | 0, _, tokens => stuck tokens
  | fuel + 1, found, tokens => do
    let (next, tokens) ← n.expression ⟨indent, {}⟩ {} tokens
    let found := found ++ [next]
    match ahead indent {} tokens with
    | some (_, token, rest) =>
      if token.isSymbol .comma then
        let (_, tokens) ← pass indent operandNext rest
        match tokens with
        | next :: _ =>
          if next.isSymbol .colon then return (found, tokens)
          else subjects n indent fuel found tokens
        | [] => stuck tokens
      else return (found, tokens)
    | none => return (found, tokens)

/-- The clauses of a `match` statement in a block of an indentation. -/
def cases (n : Nested) (b : Blocks) (indent : Nat) : Nat → List Case → Reader (List Case)
  | 0, _, tokens => stuck tokens
  | fuel + 1, found, tokens =>
    match tokens with
    | [] => stuck tokens
    | token :: rest =>
      let settled := settle indent { closing := true } token
      match settled.verdict with
      | .closes => .ok (found, settled.token :: rest)
      | _ => do
        let (_, tokens) ← takeWord "case" (settled.token :: rest)
        let (_, tokens) ← pass indent operandNext tokens
        let levels := tokens.length
        let (_, tokens) ← casePatterns n ⟨indent, {}⟩ levels levels tokens
        let (guard, tokens) ←
          if peekWord indent {} "if" tokens then do
            let (_, tokens) ← passWord indent {} "if" tokens
            let (before, tokens) ← pass indent operandNext tokens
            let (test, tokens) ← n.expression ⟨indent, {}⟩ {} tokens
            pure (some (before ++ [test]), tokens)
          else pure (none, tokens)
        let ((_, body), tokens) ← colonSuite n b indent tokens
        cases n b indent fuel (found ++ [.mk guard body]) tokens

/-- A `match` statement, behind its word. -/
def matchStatement (n : Nested) (b : Blocks) (indent : Nat) : Reader Form := fun tokens => do
  let (_, tokens) ← pass indent { lineEnd := true, quote := true } tokens
  let (found, tokens) ← subjects n indent tokens.length [] tokens
  let (_, tokens) ← passSymbol indent {} .colon tokens
  match tokens with
  | [] => stuck tokens
  | token :: rest =>
    let settled := settle indent { opening := true, lineEnd := true } token
    let tokens := settled.token :: rest
    match settled.verdict with
    | .opens width =>
      let (clauses, tokens) ← cases n b width tokens.length [] tokens
      return (.match found clauses, tokens)
    | .lineEnds => return (.match found [], tokens)
    | _ => stuck tokens

/-- The compound statement that a word begins. -/
def compound? (n : Nested) (b : Blocks) (indent : Nat) (word : String) : Option (Reader Form) :=
  if word = "if" then some (ifStatement n b indent)
  else if word = "while" then some (whileStatement n b indent)
  else if word = "for" then some (forStatement n b indent)
  else if word = "try" then some (tryStatement n b indent)
  else if word = "with" then some (withStatement n b indent)
  else if word = "def" then some (defineStatement n b indent)
  else if word = "class" then some (classStatement n b indent)
  else none

/-- The compound statement that begins behind the word `async`. -/
def asynchronous? (n : Nested) (b : Blocks) (indent : Nat) (tokens : List Token) :
    Option (Except Stuck (Form × List Token)) :=
  match ahead indent lineEndNext tokens with
  | some (_, token, rest) =>
    if token.isWord "def" || token.isWord "for" || token.isWord "with" then
      (compound? n b indent token.text).map (· rest)
    else none
  | none => none

/-- A statement: a compound one, or a line of simple ones. -/
def statement (n : Nested) (b : Blocks) (indent : Nat) : Reader Block := fun tokens =>
  match tokens with
  | token :: rest =>
    let line := simpleLine n indent tokens.length [] tokens
    let single (reading : Except Stuck (Form × List Token)) : Except Stuck (Block × List Token) := do
      let (form, tokens) ← reading
      return ([.mk form token.start], tokens)
    if token.isSymbol (.op .matMul) then single (decorated n b indent tokens.length [] tokens)
    else if token.lexeme = .word then
      match compound? n b indent token.text with
      | some reader => single (reader rest)
      | none =>
        if token.text = "async" then
          match asynchronous? n b indent rest with
          | some reading => single reading
          | none => line
        else if token.text = "match" then either (single (matchStatement n b indent rest)) line
        else line
    else line
  | [] => stuck tokens

/-- The refusal of a statement of the whole text. Where nothing but a character that no rule takes
stands before the end, the statement cannot be finished, and all of it is refused. -/
def refuseWhole (tokens : List Token) (reason : Stuck) : Stuck :=
  match tokens, tokens.drop (tokens.length - reason.left) with
  | first :: _, [bad, last] =>
    if bad.lexeme = .broken && last.lexeme = .finish then
      { reason with failure := .atPlace reason.failure.detail first.start }
    else reason
  | _, _ => reason

/-- The sentences of a block up to its closing; those of the whole text, for the
indentation zero, up to its end. -/
def blockFrom (n : Nested) (b : Blocks) (indent : Nat) : Nat → Block → Reader Block
  | 0, _, tokens => stuck tokens
  | fuel + 1, found, tokens =>
    match tokens with
    | [] => stuck tokens
    | token :: rest =>
      let settled := settle indent { closing := 0 < indent, quote := true } token
      let found := found ++ continuedSentences settled.continued
      let tokens := settled.token :: rest
      match settled.verdict with
      | .closes => .ok (found, tokens)
      | _ =>
        if settled.token.lexeme = .finish then .ok (found, tokens)
        else do
          let (next, tokens) ← (statement n b indent tokens).mapError fun reason =>
            if indent = 0 then refuseWhole tokens reason else reason
          blockFrom n b indent fuel (found ++ next) tokens

/-- The readers of nested blocks for a number of levels. -/
def blocks (n : Nested) : Nat → Blocks
  | 0 => { block := fun _ => stuck }
  | levels + 1 =>
    { block := fun indent tokens => blockFrom n (blocks n levels) indent tokens.length [] tokens }

/-- The sentences of a whole source text. -/
def sentences (tokens : List Token) : Except Stuck Block := do
  let levels := tokens.length + 1
  let n := nested levels
  let (found, rest) ← (blocks n levels).block 0 tokens
  match rest with
  | [token] => if token.lexeme = .finish then return found else throw (⟨1, failure token⟩)
  | token :: _ => throw ⟨rest.length, failure token⟩
  | [] => return found
where
  /-- The refusal at a token that is left over. -/
  failure (token : Token) : Failure := .atPlace "invalid syntax" token.start

end Marksheet.Grammar
