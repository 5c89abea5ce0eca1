import Marksheet.Grammar.Reader
import Marksheet.Source.Alphabet

/-!
# Reading expressions

The readers here are not recursive: a nested phrase is read through `Nested`,
the readers for one level of nesting less. `nested` closes the circle by
recursion on the number of levels, and each nested phrase begins behind at
least one token of the phrase around it, so the number of tokens is enough.

Words are keywords only where their keyword could stand. Where an expression
begins these are `not`, `lambda`, `await` and the constants; where an operand
begins, only `await` and the constants. Infix words are keywords behind a
complete operand. `Level.least` is the least binding strength an infix operator
needs to be taken: 1 for the conditional, 2 for `as`, 10 for `or`, 11 for `and`.
-/

namespace Marksheet.Grammar

open Marksheet.Source Marksheet.Syntax

/-- How far an expression reaches. -/
structure Level where
  /-- The least binding strength of an infix operator that is taken. -/
  least : Nat := 0
  /-- The body of a function that begins here reaches no further either. -/
  tight : Bool := false
  deriving Repr, Inhabited

/-- The readers of nested phrases. -/
structure Nested where
  /-- An expression of a level. -/
  expression : Place → Level → Reader Phrase
  /-- An operand with the binary operators that bind at least so tightly. -/
  operand : Place → Nat → Reader Phrase
  /-- A replacement field of a string. -/
  field : Reader TextPart
  /-- A type; the flag says that a colon may continue it. -/
  type : Place → Bool → Reader Phrase

/-- The word is an infix operator behind a complete operand. -/
def isInfixWord (word : String) : Bool :=
  ["and", "or", "not", "in", "is", "if", "else", "as", "for", "async", "from"].contains word

/-- An operand can begin with the token. -/
def beginsOperand (token : Token) : Bool :=
  match token.lexeme with
  | .word | .integer | .float | .quoteOpen => true
  | .symbol symbol =>
    match symbol with
    | .lparen | .lbracket | .lbrace | .ellipsis | .tilde => true
    | .op .add | .op .sub | .op .mul | .op .pow => true
    | _ => false
  | _ => false

/-! ### Strings -/

/-- The parts of a string up to its closing quote. -/
def literalParts (n : Nested) : Nat → List TextPart → Reader (List TextPart)
  | 0, _, tokens => stuck tokens
  | fuel + 1, parts, tokens =>
    match tokens with
    | token :: rest =>
      match token.lexeme with
      | .quoteText => literalParts n fuel (.content token.text :: parts) rest
      | .quoteClose => .ok (parts.reverse, rest)
      | .fieldOpen => do
        let (part, tokens) ← n.field tokens
        literalParts n fuel (part :: parts) tokens
      | _ => stuck tokens
    | [] => stuck tokens

/-- One string literal. -/
def literal (n : Nested) : Reader Phrase := fun tokens =>
  match tokens with
  | token :: rest =>
    if token.lexeme = .quoteOpen then do
      let flags := token.text.toList.takeWhile Alphabet.isStringFlag
      let (parts, tokens) ← literalParts n rest.length [] rest
      let has (lower upper : Char) := flags.any fun c => c = lower || c = upper
      return (.string (has 'f' 'F') (has 'r' 'R') parts, tokens)
    else stuck tokens
  | [] => stuck tokens

/-- Further literals behind a string. -/
def moreLiterals (n : Nested) (place : Place) : Nat → List Phrase → Reader (List Phrase)
  | 0, pieces, tokens => .ok (pieces, tokens)
  | fuel + 1, pieces, tokens =>
    match ahead place.indent { place.viable with quote := true } tokens with
    | some (between, token, rest) =>
      if token.lexeme = .quoteOpen then do
        let (piece, tokens) ← literal n (token :: rest)
        moreLiterals n place fuel (pieces ++ between ++ [piece]) tokens
      else .ok (pieces, tokens)
    | none => .ok (pieces, tokens)

/-- One or more adjacent string literals. -/
def strings (n : Nested) (place : Place) : Reader Phrase := fun tokens => do
  let (first, tokens) ← literal n tokens
  let (pieces, tokens) ← moreLiterals n place tokens.length [first] tokens
  match pieces with
  | [single] => return (single, tokens)
  | _ => return (.strings pieces, tokens)

/-! ### Series of expressions -/

/-- Further expressions behind commas. The flag tells whether there was a comma. -/
def moreExpressions (n : Nested) (place : Place) (level : Level) :
    Nat → Bool → List Phrase → Reader (List Phrase × Bool)
  | 0, comma, items, tokens => .ok ((items, comma), tokens)
  | fuel + 1, comma, items, tokens =>
    match ahead place.indent place.viable tokens with
    | some (before, token, rest) =>
      if token.isSymbol .comma then
        match ahead place.indent { place.viable with quote := true } rest with
        | some (behind, next, rest') =>
          if beginsOperand next then do
            let (item, tokens) ← n.expression place level (next :: rest')
            moreExpressions n place level fuel true (items ++ before ++ behind ++ [item]) tokens
          else .ok ((items ++ before, true), rest)
        | none => .ok ((items ++ before, true), rest)
      else .ok ((items, comma), tokens)
    | none => .ok ((items, comma), tokens)

/-- Expressions separated by commas, a last comma allowed, and whether there was a
comma at all. -/
def expressions (n : Nested) (place : Place) : Reader (List Phrase × Bool) := fun tokens => do
  let (first, tokens) ← n.expression place {} tokens
  moreExpressions n place {} tokens.length false [first] tokens

/-- An expression, or several as one series. -/
def series (n : Nested) (place : Place) : Reader Phrase := fun tokens => do
  let ((items, comma), tokens) ← expressions n place tokens
  match items, comma with
  | [single], false => return (single, tokens)
  | items, _ => return (.series items, tokens)

/-- The word `yield` and what it gives. -/
def yieldPhrase (n : Nested) (place : Place) : Reader Phrase := fun tokens => do
  let (_, tokens) ← takeWord "yield" tokens
  match ahead place.indent { place.viable with quote := true } tokens with
  | some (between, token, rest) =>
    if token.isWord "from" then
      let (behind, tokens) ← pass place.indent operandNext rest
      let (value, tokens) ← n.expression place {} tokens
      return (.yield (between ++ behind ++ [value]), tokens)
    else if beginsOperand token then
      let (value, tokens) ← series n place (token :: rest)
      return (.yield (between ++ [value]), tokens)
    else return (.yield [], tokens)
  | none => return (.yield [], tokens)

/-- A series, or the word `yield` and what it gives. -/
def seriesOrYield (n : Nested) (place : Place) : Reader Phrase := fun tokens =>
  match tokens with
  | token :: _ => if token.isWord "yield" then yieldPhrase n place tokens else series n place tokens
  | [] => stuck tokens

/-! ### Replacement fields -/

/-- The specification of a field up to its closing brace, which is not taken. -/
def specParts (n : Nested) : Nat → Reader Unit
  | 0, tokens => stuck tokens
  | fuel + 1, tokens =>
    match tokens with
    | token :: rest =>
      match token.lexeme with
      | .specText => specParts n fuel rest
      | .fieldOpen => do
        let (_, tokens) ← n.field tokens
        specParts n fuel tokens
      | .fieldClose => .ok ((), tokens)
      | _ => stuck tokens
    | [] => stuck tokens

/-- A text without the colons at its head. -/
def dropColons (text : String) : String := String.ofList (text.toList.dropWhile (· = ':'))

/-- Pass an equals sign behind the expression of a field, if there is one. -/
def fieldMark : Reader Unit := fun tokens =>
  match tokens with
  | token :: rest =>
    if token.isSymbol .assign then do
      let (_, tokens) ← pass 0 closerNext rest
      return ((), tokens)
    else .ok ((), tokens)
  | [] => .ok ((), [])

/-- The conversion of a field, if there is one. -/
def fieldConversion : Reader (Option Char) := fun tokens =>
  match tokens with
  | token :: rest =>
    if token.lexeme = .conversion then do
      let (_, tokens) ← pass 0 closerNext rest
      return ((token.text.toList.drop 1).head?, tokens)
    else .ok (none, tokens)
  | [] => .ok (none, [])

/-- The closing brace of a field, or its specification and the brace behind it. -/
def fieldEnd (n : Nested) (value : Phrase) (conversion : Option Char) : Reader TextPart :=
  fun tokens =>
    match tokens with
    | token :: rest =>
      if token.lexeme = .fieldClose then return (.field value conversion none, rest)
      else if token.lexeme = .specOpen then do
        let (_, after) ← specParts n rest.length rest
        let spec := dropColons (textBetween tokens after)
        return (.field value conversion (some spec), after.drop 1)
      else stuck tokens
    | [] => stuck tokens

/-- A replacement field: an expression, then perhaps an equals sign, a conversion and a
specification. -/
def field (n : Nested) : Reader TextPart := fun tokens =>
  match tokens with
  | token :: rest =>
    if token.lexeme = .fieldOpen then do
      let (_, tokens) ← pass 0 operandNext rest
      let (value, tokens) ← seriesOrYield n ⟨0, closerNext⟩ tokens
      let (_, tokens) ← pass 0 closerNext tokens
      let (_, tokens) ← fieldMark tokens
      let (conversion, tokens) ← fieldConversion tokens
      fieldEnd n value conversion tokens
    else stuck tokens
  | [] => stuck tokens

/-! ### Trailers: attributes, calls and subscripts -/

/-- A star and the expression behind it, as an element of a display or call. -/
def splatElement (n : Nested) (place : Place) : Reader Phrase := fun tokens => do
  let (_, tokens) ← takeSymbol (.op .mul) tokens
  let (between, tokens) ← pass place.indent operandNext tokens
  let (value, tokens) ← n.expression place {} tokens
  return (.splat (between ++ [value]), tokens)

/-- A double star and the expression behind it. -/
def doubleSplatElement (n : Nested) (place : Place) : Reader Phrase := fun tokens => do
  let (_, tokens) ← takeSymbol (.op .pow) tokens
  let (between, tokens) ← pass place.indent operandNext tokens
  let (value, tokens) ← n.expression place {} tokens
  return (.doubleSplat (between ++ [value]), tokens)

/-- The reading succeeds and a comma or the closing bracket follows. -/
def endsElement (place : Place) (closer : Symbol) (reading : Except Stuck (Phrase × List Token)) :
    Except Stuck (Phrase × List Token) := do
  let (value, tokens) ← reading
  match peek place.indent closerNext tokens with
  | some token =>
    if token.isSymbol .comma || token.isSymbol closer then return (value, tokens)
    else stuck tokens
  | none => stuck tokens

/-- A starred element in parentheses of its own. -/
def parenthesizedSplat (n : Nested) (place : Place) : Reader Phrase := fun tokens => do
  let (_, tokens) ← takeSymbol .lparen tokens
  let (before, tokens) ← pass place.indent closerOrQuoteNext tokens
  let (value, tokens) ← splatElement n ⟨place.indent, closerNext⟩ (splitStar tokens)
  let (after, tokens) ← passCloser place.indent closerNext .rparen tokens
  return (.parenthesizedSplat (before ++ [value] ++ after), tokens)

/-- The second token is a star or a double star. -/
def secondIsStar : List Token → Bool
  | _ :: token :: _ => token.isSymbol (.op .mul) || token.isSymbol (.op .pow)
  | _ => false

/-- An element that is read by its stars where those reach to the end of the element,
and as an expression otherwise. -/
def starredElement (n : Nested) (place : Place) (closer : Symbol) : Reader Phrase :=
  fun tokens =>
    match tokens with
    | token :: _ =>
      if token.isSymbol (.op .mul) || token.isSymbol (.op .pow) then
        either (endsElement place closer (splatElement n place (splitStar tokens)))
          (n.expression place {} tokens)
      else if token.isSymbol .lparen && secondIsStar tokens then
        either (endsElement place closer (parenthesizedSplat n place tokens))
          (n.expression place {} tokens)
      else n.expression place {} tokens
    | [] => stuck tokens

/-- An element of a list, set or tuple. -/
def element (n : Nested) (place : Place) (closer : Symbol) : Reader Phrase := fun tokens =>
  match tokens with
  | token :: _ =>
    if token.isWord "yield" then yieldPhrase n place tokens
    else starredElement n place closer tokens
  | [] => stuck tokens

/-- Further elements up to the closing bracket, each read by `item`. -/
def moreElements (item : Reader Phrase) (place : Place) (closer : Symbol) :
    Nat → List Phrase → Reader (List Phrase)
  | 0, _, tokens => stuck tokens
  | fuel + 1, items, tokens => do
    let (before, tokens) ← pass place.indent closerNext tokens
    match tokens with
    | token :: rest =>
      if token.isSymbol .comma then
        let (behind, tokens) ← pass place.indent closerOrQuoteNext rest
        match tokens with
        | next :: rest' =>
          if next.isSymbol closer then return (items ++ before ++ behind, rest')
          else
            let (value, tokens) ← item tokens
            moreElements item place closer fuel (items ++ before ++ behind ++ [value]) tokens
        | [] => stuck tokens
      else
        let (_, tokens) ← takeCloser closer tokens
        return (items ++ before, tokens)
    | [] => stuck tokens

/-- A word that cannot name an argument because it is a keyword where one begins. -/
def isReservedWord (word : String) : Bool :=
  ["not", "lambda", "True", "False", "None"].contains word

/-- An argument of a call. -/
def argument (n : Nested) (place : Place) : Reader Phrase := fun tokens =>
  match tokens with
  | token :: rest =>
    if token.isSymbol (.op .pow) then doubleSplatElement n place tokens
    else if token.lexeme = .word && !isReservedWord token.text &&
        peekSymbol place.indent closerNext .assign rest then do
      let (_, tokens) ← passSymbol place.indent closerNext .assign rest
      let (_, tokens) ← pass place.indent operandNext tokens
      let (value, tokens) ← n.expression place {} tokens
      return (.keyword token.text value, tokens)
    else starredElement n place .rparen tokens
  | [] => stuck tokens

/-- The next token begins a clause of a comprehension. -/
def beginsClauses (indent : Nat) (tokens : List Token) : Bool :=
  match ahead indent closerNext tokens with
  | some (_, token, rest) =>
    token.isWord "for" || (token.isWord "async" && peekWord indent {} "for" rest)
  | none => false

/-- Further targets behind commas. -/
def moreTargets (n : Nested) (place : Place) : Nat → Bool → List Phrase → Reader (List Phrase × Bool)
  | 0, comma, items, tokens => .ok ((items, comma), tokens)
  | fuel + 1, comma, items, tokens =>
    match ahead place.indent place.viable tokens with
    | some (before, token, rest) =>
      if token.isSymbol .comma then
        match ahead place.indent { place.viable with quote := true } rest with
        | some (behind, next, rest') =>
          if beginsOperand next && !next.isWord "in" then do
            let (item, tokens) ← n.operand place 22 (next :: rest')
            match item.pattern? with
            | some item =>
              moreTargets n place fuel true (items ++ before ++ behind ++ [item]) tokens
            | none => stuck (next :: rest')
          else .ok ((items ++ before, true), rest)
        | none => .ok ((items ++ before, true), rest)
      else .ok ((items, comma), tokens)
    | none => .ok ((items, comma), tokens)

/-- The targets of a loop or a clause, up to the word `in`. -/
def targets (n : Nested) (place : Place) : Reader Phrase := fun tokens => do
  let (first, rest) ← n.operand place 22 tokens
  match first.pattern? with
  | none => stuck tokens
  | some first =>
    let ((items, comma), rest) ← moreTargets n place rest.length false [first] rest
    match items, comma with
    | [single], false => return (single, rest)
    | items, _ => return (.series items, rest)

/-- Further expressions behind the first one that a clause runs over; they do not
count. -/
def skipIterables (n : Nested) (place : Place) : Nat → Reader Unit
  | 0, tokens => .ok ((), tokens)
  | fuel + 1, tokens =>
    match ahead place.indent place.viable tokens with
    | some (_, token, rest) =>
      if token.isSymbol .comma then
        match ahead place.indent closerOrQuoteNext rest with
        | some (_, next, rest') =>
          if beginsOperand next && !(next.isWord "for" || next.isWord "if" || next.isWord "async")
          then do
            let (_, tokens) ← n.expression place { least := 2, tight := true } (next :: rest')
            skipIterables n place fuel tokens
          else .ok ((), rest)
        | none => .ok ((), rest)
      else .ok ((), tokens)
    | none => .ok ((), tokens)

/-- One clause of a comprehension, whose first word is the first token. -/
def clause (n : Nested) (indent : Nat) : Reader Clause := fun tokens =>
  match tokens with
  | token :: rest =>
    if token.isWord "if" then do
      let (before, tokens) ← pass indent operandNext rest
      let (test, tokens) ← n.expression ⟨indent, closerNext⟩ { least := 2 } tokens
      return (.condition (before ++ [test]), tokens)
    else do
      let (_, rest) ←
        if token.isWord "async" then passWord indent {} "for" rest
        else do
          let (_, rest) ← takeWord "for" tokens
          pure ([], rest)
      let (_, tokens) ← pass indent operandNext rest
      let (target, tokens) ← targets n ⟨indent, {}⟩ tokens
      let (_, tokens) ← passWord indent {} "in" tokens
      let (_, tokens) ← pass indent operandNext tokens
      let place : Place := ⟨indent, closerNext⟩
      let (iter, tokens) ← n.expression place { least := 2, tight := true } tokens
      let (_, tokens) ← skipIterables n place tokens.length tokens
      return (.forIn target iter, tokens)
  | [] => stuck tokens

/-- The clauses of a comprehension. -/
def clauses (n : Nested) (indent : Nat) : Nat → List Clause → Reader (List Clause)
  | 0, _, tokens => stuck tokens
  | fuel + 1, found, tokens =>
    if beginsClauses indent tokens || peekWord indent closerNext "if" tokens then do
      let (_, tokens) ← pass indent closerNext tokens
      let (next, tokens) ← clause n indent tokens
      clauses n indent fuel (found ++ [next]) tokens
    else .ok (found, tokens)

/-- The clauses of a comprehension and its closing bracket. -/
def comprehension (n : Nested) (indent : Nat) (kind : ComprehensionKind) (body : Phrase)
    (closer : Symbol) : Reader Phrase := fun tokens => do
  let (found, tokens) ← clauses n indent tokens.length [] tokens
  let (_, tokens) ← passCloser indent closerNext closer tokens
  return (.comprehension kind body found, tokens)

/-- The arguments of a call behind the opening parenthesis. -/
def arguments (n : Nested) (indent : Nat) (allowClauses : Bool) : Reader (List Phrase) :=
  fun tokens => do
    let place : Place := ⟨indent, closerNext⟩
    let (before, tokens) ← pass indent closerOrQuoteNext tokens
    match tokens with
    | token :: rest =>
      if token.isSymbol .rparen then return (before, rest)
      else if token.isSymbol .comma then
        let (behind, tokens) ← passCloser indent closerNext .rparen rest
        return (before ++ behind, tokens)
      else
        let (first, after) ← argument n place tokens
        if allowClauses && beginsClauses indent after then
          let (body, tokens) ← n.expression place {} tokens
          let (phrase, tokens) ← comprehension n indent .generator body .rparen tokens
          return ([phrase], tokens)
        else moreElements (argument n place) place .rparen after.length (before ++ [first]) after
    | [] => stuck tokens

/-- What may stand behind a colon of a slice. -/
def slicePart (n : Nested) (indent : Nat) : Reader (List Phrase) := fun tokens =>
  match ahead indent closerOrQuoteNext tokens with
  | some (before, token, rest) =>
    if token.isSymbol .colon then .ok (before, token :: rest)
    else if beginsOperand token then do
      let (value, tokens) ← n.expression ⟨indent, closerNext⟩ {} (token :: rest)
      return (before ++ [value], tokens)
    else .ok ([], tokens)
  | none => .ok ([], tokens)

/-- What stands behind the first part of a slice. -/
def sliceTail (n : Nested) (indent : Nat) (lower : List Phrase) : Reader Phrase :=
  fun tokens => do
    let (between, tokens) ← passSymbol indent closerNext .colon tokens
    let (upper, tokens) ← slicePart n indent tokens
    if peekSymbol indent closerNext .colon tokens then
      let (between', tokens) ← passSymbol indent closerNext .colon tokens
      let (step, tokens) ← slicePart n indent tokens
      return (.slice (lower ++ between) (upper ++ between') step, tokens)
    else return (.slice (lower ++ between) upper [], tokens)

/-- An index or a slice. -/
def index (n : Nested) (indent : Nat) : Reader Phrase := fun tokens =>
  match tokens with
  | token :: _ =>
    if token.isSymbol .colon then sliceTail n indent [] tokens
    else do
      let (value, tokens) ← n.expression ⟨indent, closerNext⟩ {} tokens
      if peekSymbol indent closerNext .colon tokens then sliceTail n indent [value] tokens
      else return (value, tokens)
  | [] => stuck tokens

/-- Only the phrases that are no continued lines. -/
def withoutContinuations (items : List Phrase) : List Phrase :=
  items.filter fun item => match item with
    | .continuation _ => false
    | _ => true

/-- One trailer, whose first token is the first token. -/
def trailer (n : Nested) (indent : Nat) (value : Phrase) : Reader Phrase := fun tokens =>
  match tokens with
  | token :: rest =>
    if token.isSymbol .dot then do
      let (attr, tokens) ← passName indent {} rest
      return (.attribute value attr, tokens)
    else if token.isSymbol .lparen then do
      let (args, tokens) ← arguments n indent true rest
      return (.call value args, tokens)
    else if token.isSymbol .lbracket then do
      let (_, tokens) ← pass indent operandNext rest
      let (first, tokens) ← index n indent tokens
      let (items, tokens) ←
        moreElements (index n indent) ⟨indent, closerNext⟩ .rbracket tokens.length [first] tokens
      return (.subscript value (withoutContinuations items), tokens)
    else stuck tokens
  | [] => stuck tokens

/-- The token begins a trailer. -/
def beginsTrailer (token : Token) : Bool :=
  token.isSymbol .dot || token.isSymbol .lparen || token.isSymbol .lbracket

/-- Read trailers as long as there are any and `more` holds of the phrase so far. -/
def trailers (n : Nested) (place : Place) (more : Phrase → Bool) : Nat → Phrase → Reader Phrase
  | 0, value, tokens => .ok (value, tokens)
  | fuel + 1, value, tokens =>
    if more value then
      match ahead place.indent place.viable tokens with
      | some (_, token, rest) =>
        if beginsTrailer token then do
          let (value, tokens) ← trailer n place.indent value (token :: rest)
          trailers n place more fuel value tokens
        else .ok (value, tokens)
      | none => .ok (value, tokens)
    else .ok (value, tokens)

/-! ### Brackets -/

/-- What stands in parentheses. -/
def parenthesis (n : Nested) (indent : Nat) : Reader Phrase := fun tokens => do
  let place : Place := ⟨indent, closerNext⟩
  let (before, tokens) ← pass indent closerOrQuoteNext tokens
  match tokens with
  | token :: rest =>
    if token.isSymbol .rparen then return (.tuple before, rest)
    else
      let starred := token.isSymbol (.op .mul) || token.isSymbol (.op .pow)
      let (first, after) ← element n place .rparen tokens
      let (between, next) ← pass indent closerNext after
      match next with
      | mark :: _ =>
        if mark.isSymbol .comma then
          let (items, tokens) ← moreElements (element n place .rparen) place .rparen after.length
            (before ++ [first]) after
          return (.tuple items, tokens)
        else if beginsClauses indent next then
          comprehension n indent .generator first .rparen after
        else if starred then
          -- a single starred operand in parentheses is an expression if it can be
          let asExpression : Except Stuck (Phrase × List Token) := do
            let (value, tokens) ← n.expression place {} tokens
            let (between, tokens) ← passCloser indent closerNext .rparen tokens
            return (.parenthesized (before ++ [value] ++ between), tokens)
          either asExpression (do
            let (_, tokens) ← takeCloser .rparen next
            return (.tuple (before ++ [first] ++ between), tokens))
        else
          let (_, tokens) ← takeCloser .rparen next
          let value := match first with
            | .parenthesizedSplat parts => .parenthesized parts
            | value => value
          return (.parenthesized (before ++ [value] ++ between), tokens)
      | [] => stuck next
  | [] => stuck tokens

/-- What stands in square brackets. -/
def brackets (n : Nested) (indent : Nat) : Reader Phrase := fun tokens => do
  let place : Place := ⟨indent, closerNext⟩
  let (before, tokens) ← pass indent closerOrQuoteNext tokens
  match tokens with
  | token :: rest =>
    if token.isSymbol .rbracket then return (.list before, rest)
    else
      let (first, tokens) ← element n place .rbracket tokens
      if beginsClauses indent tokens then comprehension n indent .list first .rbracket tokens
      else
        let (items, tokens) ← moreElements (element n place .rbracket) place .rbracket
          tokens.length (before ++ [first]) tokens
        return (.list items, tokens)
  | [] => stuck tokens

/-- The value of an entry, behind its key. -/
def pairTail (n : Nested) (indent : Nat) (key : Phrase) : Reader Phrase := fun tokens => do
  let (_, tokens) ← passSymbol indent closerNext .colon tokens
  let (_, tokens) ← pass indent operandNext tokens
  let (value, tokens) ← n.expression ⟨indent, closerNext⟩ {} tokens
  return (.pair key value, tokens)

/-- An entry of a dict. -/
def entry (n : Nested) (indent : Nat) : Reader Phrase := fun tokens =>
  match tokens with
  | token :: _ =>
    if token.isSymbol (.op .pow) then doubleSplatElement n ⟨indent, closerNext⟩ tokens
    else do
      let (key, tokens) ← n.expression ⟨indent, closerNext⟩ {} tokens
      pairTail n indent key tokens
  | [] => stuck tokens

/-- What stands in braces. -/
def braces (n : Nested) (indent : Nat) : Reader Phrase := fun tokens => do
  let place : Place := ⟨indent, closerNext⟩
  let (before, tokens) ← pass indent closerOrQuoteNext tokens
  match tokens with
  | token :: rest =>
    if token.isSymbol .rbrace then return (.dict before, rest)
    else if token.isSymbol .comma then
      let (behind, tokens) ← passCloser indent closerNext .rbrace rest
      return (.dict (before ++ behind), tokens)
    else if token.isSymbol (.op .pow) then
      let (first, tokens) ← entry n indent tokens
      let (items, tokens) ← moreElements (entry n indent) place .rbrace tokens.length
        (before ++ [first]) tokens
      return (.dict items, tokens)
    else
      let (first, after) ← element n place .rbrace tokens
      if peekSymbol indent closerNext .colon after then
        let (pair, after) ← entry n indent tokens
        if beginsClauses indent after then comprehension n indent .dict pair .rbrace after
        else
          let (items, tokens) ← moreElements (entry n indent) place .rbrace after.length
            (before ++ [pair]) after
          return (.dict items, tokens)
      else if beginsClauses indent after then comprehension n indent .set first .rbrace after
      else
        let (items, tokens) ← moreElements (element n place .rbrace) place .rbrace after.length
          (before ++ [first]) after
        return (.set items, tokens)
  | [] => stuck tokens

/-! ### Operands -/

/-- The constant that a word names. -/
def constantWord? (word : String) : Option Constant :=
  if word = "True" then some .true
  else if word = "False" then some .false
  else if word = "None" then some .none
  else none

/-- An operand without trailers; a star is read by `primary`. -/
def atom (n : Nested) (place : Place) : Reader Phrase := fun tokens =>
  match tokens with
  | token :: rest =>
    match token.lexeme with
    | .word =>
      match constantWord? token.text with
      | some constant => .ok (.constant constant, rest)
      | none => .ok (.name token.text, rest)
    | .integer => .ok (.integer token.text, rest)
    | .float => .ok (.float token.text, rest)
    | .quoteOpen => strings n place tokens
    | .symbol .ellipsis => .ok (.constant .ellipsis, rest)
    | .symbol .lparen => parenthesis n place.indent rest
    | .symbol .lbracket => brackets n place.indent rest
    | .symbol .lbrace => braces n place.indent rest
    | _ => stuck tokens
  | [] => stuck tokens

/-- A starred operand: the star takes a bare name, or else the shortest operand that
ends in an attribute or a subscript. -/
def starred (n : Nested) (place : Place) : Reader Phrase := fun tokens => do
  let (_, tokens) ← takeSymbol (.op .mul) tokens
  let (between, tokens) ← pass place.indent operandNext tokens
  let base : Except Stuck (Phrase × List Token) :=
    match tokens with
    | token :: _ =>
      if token.isSymbol (.op .mul) then n.operand place 22 tokens else atom n place tokens
    | [] => stuck tokens
  let (value, tokens) ← base
  let (value, tokens) ←
    trailers n place (fun value => !value.isPlace) tokens.length value tokens
  if value.isPlace then return (.splat (between ++ [value]), tokens) else stuck tokens

/-- An operand with its trailers. -/
def primary (n : Nested) (place : Place) : Reader Phrase := fun tokens => do
  let (value, tokens) ←
    match tokens with
    | token :: _ =>
      if token.isSymbol (.op .mul) || token.isSymbol (.op .pow) then
        starred n place (splitStar tokens)
      else atom n place tokens
    | [] => stuck tokens
  trailers n place (fun _ => true) tokens.length value tokens

/-- The sign that a token is before an operand. -/
def sign? (token : Token) : Option UnaryOp :=
  match token.lexeme with
  | .symbol (.op .sub) => some .neg
  | .symbol (.op .add) => some .pos
  | .symbol .tilde => some .invert
  | _ => none

/-- The word `await` at the head is a keyword: an operand follows it. -/
def awaits (place : Place) : List Token → Bool
  | token :: rest =>
    token.isWord "await" &&
      match peek place.indent { place.viable with quote := true } rest with
      | some next => beginsOperand next && !(next.lexeme = .word && isInfixWord next.text)
      | none => false
  | [] => false

/-- Binary operators behind an operand. -/
def binaryTail (n : Nested) (place : Place) (least : Nat) : Nat → Phrase → Reader Phrase
  | 0, left, tokens => .ok (left, tokens)
  | fuel + 1, left, tokens =>
    match ahead place.indent place.viable tokens with
    | some (_, token, rest) =>
      match token.lexeme with
      | .symbol (.op op) =>
        if least ≤ op.precedence then do
          let (_, tokens) ← pass place.indent operandNext rest
          let next := if op = .pow then op.precedence else op.precedence + 1
          let (right, tokens) ← n.operand place next tokens
          binaryTail n place least fuel (.binary op left right) tokens
        else .ok (left, tokens)
      | _ => .ok (left, tokens)
    | none => .ok (left, tokens)

/-- An operand with the binary operators that bind at least so tightly. A sign and
`await` bind more tightly than every operator but the power. -/
def operand (n : Nested) (place : Place) (least : Nat) : Reader Phrase := fun tokens =>
  match tokens with
  | token :: rest =>
    match sign? token with
    | some op =>
      if least ≤ 21 then do
        let (_, tokens) ← pass place.indent operandNext rest
        let (value, tokens) ← n.operand place 21 tokens
        binaryTail n place least tokens.length (.unary op value) tokens
      else stuck tokens
    | none =>
      if least ≤ 21 && awaits place tokens then do
        let (between, tokens) ← pass place.indent { place.viable with quote := true } rest
        let (value, tokens) ← n.operand place 21 tokens
        binaryTail n place least tokens.length (.await (between ++ [value])) tokens
      else do
        let (value, tokens) ← primary n place tokens
        binaryTail n place least tokens.length value tokens
  | [] => stuck tokens

/-! ### Expressions -/

/-- The comparison operator at the head and the tokens behind it. -/
def comparisonOp? (place : Place) : List Token → Option (CmpOp × List Token)
  | token :: rest =>
    match token.lexeme with
    | .symbol .less => some (.lt, rest)
    | .symbol .lessEq => some (.ltE, rest)
    | .symbol .greater => some (.gt, rest)
    | .symbol .greaterEq => some (.gtE, rest)
    | .symbol .eqEq => some (.eq, rest)
    | .symbol .notEq | .symbol .lessGreater => some (.notEq, rest)
    | .word =>
      if token.text = "in" then some (.isIn, rest)
      else if token.text = "not" then
        match ahead place.indent {} rest with
        | some (_, next, rest') => if next.isWord "in" then some (.notIn, rest') else none
        | none => none
      else if token.text = "is" then
        match ahead place.indent operandNext rest with
        | some (_, next, rest') =>
          if next.isWord "not" then some (.isNot, rest') else some (.is, rest)
        | none => some (.is, rest)
      else none
    | _ => none
  | [] => none

/-- Comparisons behind an operand; the flag tells whether a continued line stands
between the parts. -/
def comparisonTail (n : Nested) (place : Place) :
    Nat → Bool → List (CmpOp × Phrase) → Reader (Bool × List (CmpOp × Phrase))
  | 0, broken, links, tokens => .ok ((broken, links), tokens)
  | fuel + 1, broken, links, tokens =>
    match ahead place.indent place.viable tokens with
    | some (before, token, rest) =>
      match comparisonOp? place (token :: rest) with
      | some (op, rest) => do
        let (behind, tokens) ← pass place.indent operandNext rest
        let (right, tokens) ← n.operand place 0 tokens
        comparisonTail n place fuel (broken || !before.isEmpty || !behind.isEmpty)
          (links ++ [(op, right)]) tokens
      | none => .ok ((broken, links), tokens)
    | none => .ok ((broken, links), tokens)

/-- A comparison chain or a single operand. -/
def comparison (n : Nested) (place : Place) : Reader Phrase := fun tokens => do
  let (left, tokens) ← operand n place 0 tokens
  let ((broken, links), tokens) ← comparisonTail n place tokens.length false [] tokens
  if links.isEmpty then return (left, tokens)
  else return (.comparison broken left links, tokens)

/-- A parameter behind its star or stars. -/
def starredParameter (n : Nested) (place : Place) (typed : Bool) (before : List Token) :
    Reader Parameter := fun tokens => do
  let (_, tokens) ← pass place.indent {} tokens
  let (value, tokens) ← n.operand place 22 tokens
  if value.isPlace then
    let text := textBetween before tokens
    if typed && peekSymbol place.indent place.viable .colon tokens then
      let (_, tokens) ← passSymbol place.indent place.viable .colon tokens
      let (_, tokens) ← pass place.indent operandNext tokens
      let (_, tokens) ← n.type place true tokens
      return (.plain text, tokens)
    else return (.plain text, tokens)
  else stuck tokens

/-- What may stand behind a parameter's name: a type where types are allowed, and a
default. -/
def parameterTail (n : Nested) (place : Place) (typed : Bool) (text : String) :
    Reader Parameter := fun tokens => do
  let (_, tokens) ←
    if typed && peekSymbol place.indent place.viable .colon tokens then do
      let (_, tokens) ← passSymbol place.indent place.viable .colon tokens
      let (_, tokens) ← pass place.indent operandNext tokens
      let (_, tokens) ← n.type place true tokens
      pure ((), tokens)
    else pure ((), tokens)
  if peekSymbol place.indent place.viable .assign tokens then
    let (_, tokens) ← passSymbol place.indent place.viable .assign tokens
    let (_, tokens) ← pass place.indent operandNext tokens
    let (value, tokens) ← n.expression place {} tokens
    return (.defaulted text value, tokens)
  else return (.plain text, tokens)

/-- One entry of a parameter list. -/
def parameter (n : Nested) (place : Place) (typed : Bool) : Reader Parameter := fun tokens =>
  match tokens with
  | token :: rest =>
    match token.lexeme with
    | .word => parameterTail n place typed token.text rest
    | .symbol (.op .mul) =>
      match peek place.indent place.viable rest with
      | some next =>
        if beginsOperand next then starredParameter n place typed tokens rest
        else .ok (.unnamed, rest)
      | none => .ok (.unnamed, rest)
    | .symbol (.op .pow) => starredParameter n place typed tokens rest
    | .symbol (.op .div) => .ok (.unnamed, rest)
    | .symbol .lparen => do
      let (value, after) ← n.operand place 22 tokens
      match value.pattern? with
      | some (.tuple _) => do
        let (found, after') ← parameterTail n place false (textBetween tokens after) after
        match found with
        | .plain _ => return (.unnamed, after')
        | found => return (found, after')
      | _ => stuck tokens
    | _ => stuck tokens
  | [] => stuck tokens

/-- A parameter list up to the token that ends it, which is not taken. -/
def parameters (n : Nested) (place : Place) (typed : Bool) (ends : Symbol) :
    Nat → List Parameter → Reader (List Parameter)
  | 0, _, tokens => stuck tokens
  | fuel + 1, found, tokens => do
    let (next, tokens) ← parameter n place typed tokens
    let found := found ++ [next]
    if peekSymbol place.indent place.viable .comma tokens then
      let (_, tokens) ← passSymbol place.indent place.viable .comma tokens
      let (_, tokens) ← pass place.indent place.viable tokens
      match tokens with
      | token :: _ =>
        if token.isSymbol ends then return (found, tokens)
        else parameters n place typed ends fuel found tokens
      | [] => stuck tokens
    else return (found, tokens)

/-- An anonymous function. -/
def lambda (n : Nested) (place : Place) (level : Level) : Reader Phrase := fun tokens => do
  let (_, tokens) ← takeWord "lambda" tokens
  let header : Place := ⟨place.indent, {}⟩
  let (_, tokens) ← pass place.indent {} tokens
  let (params, tokens) ←
    match tokens with
    | token :: _ =>
      if token.isSymbol .colon then pure ([], tokens)
      else parameters n header false .colon tokens.length [] tokens
    | [] => stuck tokens
  let (_, tokens) ← passSymbol place.indent {} .colon tokens
  let (_, tokens) ← pass place.indent operandNext tokens
  let (body, tokens) ←
    n.expression place (if level.tight then { least := 2, tight := true } else {}) tokens
  return (.lambda params body, tokens)

/-- An expression without infix words. -/
def simpleExpression (n : Nested) (place : Place) (level : Level) : Reader Phrase := fun tokens =>
  match tokens with
  | token :: rest =>
    if token.isWord "not" then do
      let (_, tokens) ← pass place.indent operandNext rest
      let (value, tokens) ← n.expression place { least := 12 } tokens
      return (.not value, tokens)
    else if token.isWord "lambda" then lambda n place level tokens
    else if token.lexeme = .word && (constantWord? token.text).isNone &&
        peekSymbol place.indent place.viable .walrus rest then do
      let (_, tokens) ← passSymbol place.indent place.viable .walrus rest
      let (_, tokens) ← pass place.indent operandNext tokens
      let (value, tokens) ← n.expression place { least := 2 } tokens
      return (.named token.text value, tokens)
    else comparison n place tokens
  | [] => stuck tokens

/-- Infix words behind an expression. -/
def infixTail (n : Nested) (place : Place) (level : Level) : Nat → Phrase → Reader Phrase
  | 0, left, tokens => .ok (left, tokens)
  | fuel + 1, left, tokens =>
    match ahead place.indent place.viable tokens with
    | some (before, token, rest) =>
      if token.isWord "or" && level.least ≤ 10 then do
        let (_, tokens) ← pass place.indent operandNext rest
        let (right, tokens) ← n.expression place { least := 11 } tokens
        infixTail n place level fuel (.boolean .or left right) tokens
      else if token.isWord "and" && level.least ≤ 11 then do
        let (_, tokens) ← pass place.indent operandNext rest
        let (right, tokens) ← n.expression place { least := 12 } tokens
        infixTail n place level fuel (.boolean .and left right) tokens
      else if token.isWord "if" && level.least ≤ 1 then do
        let (b, tokens) ← pass place.indent operandNext rest
        let (test, tokens) ← n.expression ⟨place.indent, {}⟩ {} tokens
        let (c, tokens) ← passWord place.indent {} "else" tokens
        let (d, tokens) ← pass place.indent operandNext tokens
        let (orelse, tokens) ← n.expression place { least := 1 } tokens
        let broken := !(before ++ b ++ c ++ d).isEmpty
        infixTail n place level fuel (.conditional broken left test orelse) tokens
      else if token.isWord "as" && level.least ≤ 2 then do
        let (behind, start) ← pass place.indent operandNext rest
        let (target, tokens) ← n.expression place { least := 3 } start
        infixTail n place level fuel
          (.asPattern left (before ++ behind) target (textBetween start tokens)) tokens
      else .ok (left, tokens)
    | none => .ok (left, tokens)

/-- An expression of a level. -/
def expression (n : Nested) (place : Place) (level : Level) : Reader Phrase := fun tokens => do
  let (left, tokens) ← simpleExpression n place level tokens
  infixTail n place level tokens.length left tokens

/-! ### Types -/

/-- Types in square brackets. -/
def typeArguments (n : Nested) (indent : Nat) : Reader Unit := fun tokens => do
  let (_, tokens) ← takeSymbol .lbracket tokens
  let (_, tokens) ← pass indent operandNext tokens
  let place : Place := ⟨indent, closerNext⟩
  let (first, tokens) ← n.type place true tokens
  let (_, tokens) ←
    moreElements (n.type place true) place .rbracket tokens.length [first] tokens
  return ((), tokens)

/-- What continues a type: a bar or a dot behind one that is no expression, or a colon
where one may continue it. -/
def typeTail (n : Nested) (place : Place) (colon : Bool) : Nat → Phrase × Bool → Reader Phrase
  | 0, (left, _), tokens => .ok (left, tokens)
  | fuel + 1, (left, plain), tokens =>
    match ahead place.indent place.viable tokens with
    | some (_, token, rest) =>
      if !plain && token.isSymbol (.op .bitOr) then do
        let (_, tokens) ← pass place.indent operandNext rest
        let (_, tokens) ← n.type place false tokens
        typeTail n place colon fuel (.other "union_type", false) tokens
      else if !plain && token.isSymbol .dot then do
        let (_, tokens) ← passName place.indent {} rest
        typeTail n place colon fuel (.other "member_type", false) tokens
      else if colon && token.isSymbol .colon then do
        let (_, tokens) ← pass place.indent operandNext rest
        let (_, tokens) ← n.type place true tokens
        return (.other "constrained_type", tokens)
      else .ok (left, tokens)
    | none => .ok (left, tokens)

/-- A starred name as a type. -/
def splatType (place : Place) : Reader Phrase := fun tokens =>
  match tokens with
  | token :: rest =>
    if token.isSymbol (.op .mul) || token.isSymbol (.op .pow) then do
      let (_, tokens) ← passName place.indent operandNext rest
      match peek place.indent place.viable tokens with
      | some next => if beginsTrailer next then stuck tokens else return (.other "splat_type", tokens)
      | none => return (.other "splat_type", tokens)
    else stuck tokens
  | [] => stuck tokens

/-- A type: a starred name, a name with types in brackets, or an expression. Only
expressions are kept. -/
def type (n : Nested) (place : Place) (colon : Bool) : Reader Phrase := fun tokens => do
  let generic : Bool := match tokens with
    | token :: rest =>
      token.lexeme = .word && !isReservedWord token.text &&
        peekSymbol place.indent place.viable .lbracket rest
    | [] => false
  if generic then
    let (_, tokens) ← takeName tokens
    let (_, tokens) ← pass place.indent place.viable tokens
    let (_, tokens) ← typeArguments n place.indent tokens
    typeTail n place colon tokens.length (.other "generic_type", false) tokens
  else
    match splatType place tokens with
    | .ok (phrase, tokens) => typeTail n place colon tokens.length (phrase, false) tokens
    | .error _ =>
      let (phrase, tokens) ← n.expression place {} tokens
      typeTail n place colon tokens.length (phrase, true) tokens

/-- The readers of nested phrases for a number of levels. -/
def nested : Nat → Nested
  | 0 =>
    { expression := fun _ _ => stuck
      operand := fun _ _ => stuck
      field := stuck
      type := fun _ _ => stuck }
  | levels + 1 =>
    { expression := expression (nested levels)
      operand := operand (nested levels)
      field := field (nested levels)
      type := type (nested levels) }

end Marksheet.Grammar
