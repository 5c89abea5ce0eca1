import Marksheet.Grammar.CasePattern
import Marksheet.Syntax.Sentence

/-!
# Reading simple statements

A simple statement ends at the end of its line or at a semicolon. Where the
first word may also be a name (`print`, `exec`, `type`), the readings are tried
in the order in which the grammar prefers them, and a reading counts only if
the statement ends behind it.
-/

namespace Marksheet.Grammar

open Marksheet.Source Marksheet.Syntax

/-- The place of a phrase that may end its line. -/
def lineOf (indent : Nat) : Place := ⟨indent, lineEndNext⟩

/-- The statement ends here. -/
def endsHere (indent : Nat) : List Token → Bool
  | token :: rest =>
    match ahead indent lineEndNext (token :: rest) with
    | some (_, next, _) => next.isSymbol .semicolon
    | none => true
  | [] => false

/-- The reading succeeds and the statement ends behind it. -/
def complete {α : Type} (indent : Nat) (reading : Except Stuck (α × List Token)) :
    Except Stuck (α × List Token) := do
  let (value, tokens) ← reading
  if endsHere indent tokens then return (value, tokens)
  else
    match peek indent lineEndNext tokens, tokens with
    | some next, _ :: rest => stuck (next :: rest)
    | _, _ => stuck tokens

/-! ### Assignments and expressions -/

/-- The target that a series of phrases can be. -/
def targetOf? (items : List Phrase) (comma : Bool) : Option Phrase :=
  match items, comma with
  | [single], false => single.pattern?
  | items, _ => (patterns? items).map .series

/-- What stands behind the target of an assignment, whose mark is the first token. -/
def assignmentTail (n : Nested) (indent : Nat) (value : Reader Phrase) (target : Phrase) :
    Reader Phrase := fun tokens =>
  match tokens with
  | token :: rest =>
    match token.lexeme with
    | .symbol .assign => do
      let (_, tokens) ← pass indent operandNext rest
      let (right, tokens) ← value tokens
      return (.assignment target none (some right), tokens)
    | .symbol (.augmented op) => do
      let (_, tokens) ← pass indent operandNext rest
      let (right, tokens) ← value tokens
      return (.augmented target op right, tokens)
    | .symbol .colon => do
      let (_, tokens) ← pass indent operandNext rest
      let ( annotation, tokens) ← n.type (lineOf indent) true tokens
      if peekSymbol indent lineEndNext .assign tokens then
        let (_, tokens) ← passSymbol indent lineEndNext .assign tokens
        let (_, tokens) ← pass indent operandNext tokens
        let (right, tokens) ← value tokens
        return (.assignment target (some annotation) (some right), tokens)
      else return (.assignment target (some annotation) none, tokens)
    | _ => stuck tokens
  | [] => stuck tokens

/-- The token marks an assignment. -/
def marksAssignment (token : Token) : Bool :=
  match token.lexeme with
  | .symbol .assign | .symbol .colon | .symbol (.augmented _) => true
  | _ => false

/-- Expressions, or an assignment to them; without a mark, their parts and whether there
was a comma are kept apart. -/
def expressionsOrAssignment (n : Nested) (indent : Nat) (value : Reader Phrase) :
    Reader (List Phrase × Bool) := fun tokens =>
  match tokens with
  | token :: _ =>
    if token.isWord "yield" then do
      let (phrase, tokens) ← yieldPhrase n (lineOf indent) tokens
      return (([phrase], false), tokens)
    else do
      let ((items, comma), after) ← expressions n (lineOf indent) tokens
      match ahead indent lineEndNext after with
      | some (_, mark, rest) =>
        if marksAssignment mark then
          match targetOf? items comma with
          | some target =>
            let (phrase, tokens) ← assignmentTail n indent value target (mark :: rest)
            return (([phrase], false), tokens)
          | none => stuck (mark :: rest)
        else return ((items, comma), after)
      | none => return ((items, comma), after)
  | [] => stuck tokens

/-- The right side of an assignment; each level allows one more assignment in it. -/
def rightSide (n : Nested) (indent : Nat) : Nat → Reader Phrase
  | 0, tokens => stuck tokens
  | levels + 1, tokens => do
    let ((items, comma), tokens) ←
      expressionsOrAssignment n indent (rightSide n indent levels) tokens
    match items, comma with
    | [single], false => return (single, tokens)
    | items, _ => return (.series items, tokens)

/-- An expression statement. -/
def expressionStatement (n : Nested) (indent : Nat) : Reader Form := fun tokens => do
  let ((items, _), tokens) ←
    expressionsOrAssignment n indent (rightSide n indent tokens.length) tokens
  return (.expression items, tokens)

/-! ### Imports -/

/-- An imported name and perhaps the name it is bound to. -/
def importName (place : Place) : Reader ImportName := fun tokens => do
  let (_, after) ← dottedName place tokens
  let name := textBetween tokens after
  if peekWord place.indent place.viable "as" after then
    let (_, tokens) ← passWord place.indent place.viable "as" after
    let (asname, tokens) ← passName place.indent {} tokens
    return (⟨name, some asname⟩, tokens)
  else return (⟨name, none⟩, after)

/-- Imported names, a last comma allowed. -/
def importNames (place : Place) : Nat → List ImportName → Reader (List ImportName)
  | 0, _, tokens => stuck tokens
  | fuel + 1, found, tokens => do
    let (next, tokens) ← importName place tokens
    let found := found ++ [next]
    match ahead place.indent place.viable tokens with
    | some (_, token, rest) =>
      if token.isSymbol .comma then
        match ahead place.indent place.viable rest with
        | some (_, next, rest') =>
          if next.lexeme = .word then importNames place fuel found (next :: rest')
          else return (found, rest)
        | none => return (found, rest)
      else return (found, tokens)
    | none => return (found, tokens)

/-- Imported names, in parentheses or not. -/
def importList (indent : Nat) : Reader (List ImportName) := fun tokens =>
  match tokens with
  | token :: rest =>
    if token.isSymbol .lparen then do
      let (_, tokens) ← pass indent {} rest
      let (names, tokens) ← importNames ⟨indent, closerNext⟩ tokens.length [] tokens
      let (_, tokens) ← passCloser indent closerNext .rparen tokens
      return (names, tokens)
    else importNames (lineOf indent) tokens.length [] tokens
  | [] => stuck tokens

/-- The dots before a relative module name. -/
def importDots (indent : Nat) : Nat → Bool → Reader Bool
  | 0, found, tokens => .ok (found, tokens)
  | fuel + 1, found, tokens =>
    match ahead indent {} tokens with
    | some (_, token, rest) =>
      if token.isSymbol .dot || token.isSymbol .ellipsis then importDots indent fuel true rest
      else .ok (found, tokens)
    | none => .ok (found, tokens)

/-- The module of an import, up to the word `import`, by its exact text. -/
def importModule (indent : Nat) : Reader String := fun tokens => do
  let (relative, after) ← importDots indent tokens.length false tokens
  if relative && peekWord indent {} "import" after then
    return (textBetween tokens after, after)
  else
    let (_, after) ← pass indent {} after
    let (_, after) ← dottedName ⟨indent, {}⟩ after
    return (textBetween tokens after, after)

/-- An import of names from a module, behind its first word. -/
def importFrom (indent : Nat) : Reader Form := fun tokens => do
  let (module, after) ← importModule indent tokens
  let (_, after) ← passWord indent {} "import" after
  let (_, after) ← pass indent {} after
  if module = "__future__" then
    let (_, after) ← importList indent after
    return (.importFuture, after)
  else
    match after with
    | token :: rest =>
      if token.isSymbol (.op .mul) then return (.importFrom module [] true, rest)
      else
        let (names, after) ← importList indent after
        return (.importFrom module names false, after)
    | [] => stuck after

/-! ### Statements that begin with a keyword -/

/-- Optional expressions behind a keyword, as parts. -/
def optionalSeries (n : Nested) (indent : Nat) : Reader (List Phrase) := fun tokens =>
  match ahead indent { lineEnd := true, quote := true } tokens with
  | some (before, token, rest) =>
    if beginsOperand token then do
      let (value, tokens) ← series n (lineOf indent) (token :: rest)
      return (before ++ [value], tokens)
    else .ok ([], tokens)
  | none => .ok ([], tokens)

/-- Expressions separated by commas, with no comma at their end. -/
def strictExpressions (n : Nested) (indent : Nat) :
    Nat → List Phrase → Reader (List Phrase)
  | 0, _, tokens => stuck tokens
  | fuel + 1, found, tokens => do
    let (next, tokens) ← n.expression (lineOf indent) {} tokens
    let found := found ++ [next]
    match ahead indent lineEndNext tokens with
    | some (before, token, rest) =>
      if token.isSymbol .comma then
        let (behind, tokens) ← pass indent operandNext rest
        strictExpressions n indent fuel (found ++ before ++ behind) tokens
      else return (found, tokens)
    | none => return (found, tokens)

/-- Names separated by commas, with the continued lines between them. -/
def nameList (indent : Nat) : Nat → List String → Reader (List String)
  | 0, _, tokens => stuck tokens
  | fuel + 1, found, tokens => do
    let (next, tokens) ← takeName tokens
    let found := found ++ [next]
    match ahead indent lineEndNext tokens with
    | some (before, token, rest) =>
      if token.isSymbol .comma then
        let (behind, tokens) ← pass indent {} rest
        nameList indent fuel (found ++ texts (before ++ behind)) tokens
      else return (found, tokens)
    | none => return (found, tokens)
where
  /-- The texts of continued lines. -/
  texts (parts : List Phrase) : List String :=
    parts.filterMap fun part => match part with
      | .continuation text => some text
      | _ => none

/-- Names behind a keyword. -/
def names (indent : Nat) : Reader (List String) := fun tokens => do
  let (before, tokens) ← pass indent {} tokens
  nameList indent tokens.length (nameList.texts before) tokens

/-- The cause of an exception, behind its value. -/
def raiseCause (n : Nested) (indent : Nat) (parts : List Phrase) : Reader Form := fun tokens =>
  match ahead indent lineEndNext tokens with
  | some (before, token, rest) =>
    if token.isWord "from" then do
      let (behind, tokens) ← pass indent operandNext rest
      let (_, tokens) ← n.expression (lineOf indent) {} tokens
      return (.raise (parts ++ before ++ behind), tokens)
    else .ok (.raise parts, tokens)
  | none => .ok (.raise parts, tokens)

/-- Raising an exception, behind the keyword. -/
def raise (n : Nested) (indent : Nat) : Reader Form := fun tokens => do
  if peekWord indent { lineEnd := true, quote := true } "from" tokens then
    raiseCause n indent [] tokens
  else
    let (parts, tokens) ← optionalSeries n indent tokens
    raiseCause n indent parts tokens

/-- Further arguments of the older print statement, a last comma allowed. -/
def printArguments (n : Nested) (indent : Nat) : Nat → Reader Unit
  | 0, tokens => .ok ((), tokens)
  | fuel + 1, tokens =>
    match ahead indent lineEndNext tokens with
    | some (_, token, rest) =>
      if token.isSymbol .comma then
        match ahead indent { lineEnd := true, quote := true } rest with
        | some (_, next, rest') =>
          if beginsOperand next then do
            let (_, tokens) ← n.expression (lineOf indent) {} (next :: rest')
            printArguments n indent fuel tokens
          else .ok ((), rest)
        | none => .ok ((), rest)
      else .ok ((), tokens)
    | none => .ok ((), tokens)

/-- The older print statement, behind its word. -/
def legacyPrint (n : Nested) (indent : Nat) : Reader Form := fun tokens => do
  let (_, tokens) ← pass indent { lineEnd := true, quote := true } tokens
  let tokens ←
    match tokens with
    | token :: rest =>
      if token.isSymbol (.op .rShift) then do
        let (_, tokens) ← pass indent operandNext rest
        pure tokens
      else pure tokens
    | [] => pure tokens
  let (_, tokens) ← n.expression (lineOf indent) {} tokens
  let (_, tokens) ← printArguments n indent tokens.length tokens
  return (.legacyPrint, tokens)

/-- The older exec statement, behind its word. -/
def legacyExec (n : Nested) (indent : Nat) : Reader Form := fun tokens => do
  let (_, tokens) ← pass indent { lineEnd := true, quote := true } tokens
  let (_, tokens) ←
    match tokens with
    | token :: rest =>
      if token.lexeme = .word then pure (Phrase.name token.text, rest)
      else literal n tokens
    | [] => stuck tokens
  match ahead indent lineEndNext tokens with
  | some (_, token, rest) =>
    if token.isWord "in" then
      let (_, tokens) ← pass indent operandNext rest
      let (_, tokens) ← strictExpressions n indent tokens.length [] tokens
      return (.legacyExec, tokens)
    else return (.legacyExec, tokens)
  | none => return (.legacyExec, tokens)

/-- A new name for a type, behind its word. -/
def typeAlias (n : Nested) (indent : Nat) : Reader Form := fun tokens => do
  let (_, tokens) ← pass indent { lineEnd := true, quote := true } tokens
  let (_, tokens) ← n.type ⟨indent, {}⟩ true tokens
  let (_, tokens) ← passSymbol indent {} .assign tokens
  let (_, tokens) ← pass indent operandNext tokens
  let (_, tokens) ← n.type (lineOf indent) true tokens
  return (.typeAlias, tokens)

/-- A keyword statement by its word: the tokens behind it are read. -/
def keywordStatement? (n : Nested) (indent : Nat) (word : String) : Option (Reader Form) :=
  let keep (form : List Phrase → Form) (reader : Reader (List Phrase)) : Reader Form :=
    fun tokens => do
      let (parts, tokens) ← reader tokens
      return (form parts, tokens)
  let required (reader : Nat → List Phrase → Reader (List Phrase)) : Reader (List Phrase) :=
    fun tokens => do
      let (before, tokens) ← pass indent operandNext tokens
      reader tokens.length before tokens
  if word = "pass" then some fun tokens => .ok (.pass, tokens)
  else if word = "break" then some fun tokens => .ok (.break, tokens)
  else if word = "continue" then some fun tokens => .ok (.continue, tokens)
  else if word = "return" then some (keep .return (optionalSeries n indent))
  else if word = "del" then
    some (keep .delete (required fun _ before tokens => do
      let (value, tokens) ← series n (lineOf indent) tokens
      return (before ++ [value], tokens)))
  else if word = "assert" then some (keep .assert (required (strictExpressions n indent)))
  else if word = "raise" then some (raise n indent)
  else if word = "global" then
    some fun tokens => do
      let (found, tokens) ← names indent tokens
      return (.global found, tokens)
  else if word = "nonlocal" then
    some fun tokens => do
      let (found, tokens) ← names indent tokens
      return (.nonlocal found, tokens)
  else if word = "import" then
    some fun tokens => do
      let (_, tokens) ← pass indent {} tokens
      let (found, tokens) ← importNames (lineOf indent) tokens.length [] tokens
      return (.imports found, tokens)
  else if word = "from" then
    some fun tokens => do
      let (_, tokens) ← pass indent {} tokens
      importFrom indent tokens
  else none

/-- A simple statement up to the semicolon or line end behind it. -/
def simpleStatement (n : Nested) (indent : Nat) : Reader Form := fun tokens =>
  match tokens with
  | token :: rest =>
    let plain := complete indent (expressionStatement n indent tokens)
    if token.lexeme = .word then
      match keywordStatement? n indent token.text with
      | some reader => complete indent (reader rest)
      | none =>
        if token.text = "print" then
          if peekSymbol indent { lineEnd := true, quote := true } (.op .rShift) rest then
            complete indent (legacyPrint n indent rest)
          else either plain (complete indent (legacyPrint n indent rest))
        else if token.text = "exec" then
          either plain (complete indent (legacyExec n indent rest))
        else if token.text = "type" then
          either (complete indent (typeAlias n indent rest)) plain
        else plain
    else plain
  | [] => stuck tokens

end Marksheet.Grammar
