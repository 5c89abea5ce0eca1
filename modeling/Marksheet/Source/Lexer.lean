import Marksheet.Source.Token
import Marksheet.Source.Quoted

/-!
# From text to tokens

`tokenize` cuts a source text into tokens. Outside strings the longest lexeme
wins. Inside a string the content comes in runs, and a replacement field is cut
like ordinary code up to its conversion, its format specification or its
closing brace. A character that no rule takes becomes a `broken` token, which
no grammar rule accepts.
-/

namespace Marksheet.Source

open Alphabet
open Marksheet.Syntax (BinOp)

/-- Where the next token is cut. -/
inductive Mode where
  /-- In an open string. -/
  | quoted (quotation : Quotation)
  /-- In a replacement field, with the number of open brackets and of colons that
  still belong to anonymous functions outside any bracket. -/
  | field (brackets : Nat) (colons : Nat)
  /-- In the format specification of a field. -/
  | spec
  deriving DecidableEq, Repr, Inhabited

/-- The gap at the head of the text, its end, and what follows it. -/
def takeGap : Option (List Char) → Position → List Char → List Trivia × Position × List Char
  | some comment, here, [] => ([.comment (String.ofList comment.reverse)], here, [])
  | some comment, here, c :: rest =>
    if c = '\n' then
      let (gap, stop, more) := takeGap none (here.step c) rest
      (.comment (String.ofList comment.reverse) :: .newline :: gap, stop, more)
    else if c = '\r' && rest.head? = some '\n' then
      let (gap, stop, more) := takeGap none (here.step c) rest
      (.comment (String.ofList comment.reverse) :: .home c :: gap, stop, more)
    else takeGap (some (c :: comment)) (here.step c) rest
  | none, here, [] => ([], here, [])
  | none, here, '\\' :: '\n' :: rest =>
    let (gap, stop, more) := takeGap none ((here.step '\\').step '\n') rest
    (.continuation "\\\n" here :: gap, stop, more)
  | none, here, '\\' :: '\r' :: '\n' :: rest =>
    let (gap, stop, more) := takeGap none (((here.step '\\').step '\r').step '\n') rest
    (.continuation "\\\r\n" here :: gap, stop, more)
  | none, here, ['\\'] => ([.continuation "\\" here], here.step '\\', [])
  | none, here, c :: rest =>
    let add (piece : Trivia) :=
      let (gap, stop, more) := takeGap none (here.step c) rest
      (piece :: gap, stop, more)
    if c = ' ' then add .space
    else if c = '\t' then add .tab
    else if c = '\n' then add .newline
    else if c = '\r' || c = Char.ofNat 12 then add (.home c)
    else if isInvisible c then add (.invisible c)
    else if c = '#' then takeGap (some ['#']) (here.step c) rest
    else ([], here, c :: rest)

/-- The length of a group of digits in which single underscores may follow digits,
as in a decimal number: every underscore stands behind a digit. -/
def decimalLength : List Char → Nat
  | [] => 0
  | [c] => if isDigit c then 1 else 0
  | c :: d :: rest =>
    if isDigit c then
      if d = '_' then decimalLength rest + 2 else decimalLength (d :: rest) + 1
    else 0

/-- The length of a group of digits in which single underscores may stand before
digits, as behind a radix mark. -/
def radixLength (digit : Char → Bool) : List Char → Nat
  | [] => 0
  | [c] => if digit c then 1 else 0
  | c :: d :: rest =>
    if digit c then radixLength digit (d :: rest) + 1
    else if c = '_' && digit d then radixLength digit rest + 2
    else 0

/-- The length of an exponent, sign and mark included; zero when there is none. -/
def exponentLength : List Char → Nat
  | mark :: rest =>
    if mark = 'e' || mark = 'E' then
      match rest with
      | sign :: more =>
        if sign = '+' || sign = '-' then
          let digits := decimalLength more
          if digits = 0 then 0 else digits + 2
        else
          let digits := decimalLength rest
          if digits = 0 then 0 else digits + 1
      | [] => 0
    else 0
  | [] => 0

/-- The first character is one of two letters. -/
def startsWith (lower upper : Char) (text : List Char) : Bool :=
  text.head? = some lower || text.head? = some upper

/-- The length of a number with the letter behind it, if it has one. -/
def withLetter (lower upper : Char) (text : List Char) (length : Nat) : Nat :=
  if startsWith lower upper (text.drop length) then length + 1 else length

/-- How many digits of its radix stand behind the mark of one. -/
def markedDigits (mark : Char) (text : List Char) : Nat :=
  if mark = 'x' || mark = 'X' then radixLength isHexDigit text
  else if mark = 'o' || mark = 'O' then radixLength (fun c => '0' ≤ c && c ≤ '7') text
  else if mark = 'b' || mark = 'B' then radixLength (fun c => c = '0' || c = '1') text
  else 0

/-- The length of an integer in a radix with a mark, without a letter behind it. -/
def radixNumber? : List Char → Option Nat
  | '0' :: mark :: rest =>
    if markedDigits mark rest = 0 then none else some (markedDigits mark rest + 2)
  | _ => none

/-- The decimal number at the head of a text: its length and whether it is an integer. -/
def decimalNumber? (text : List Char) : Option (Nat × Lexeme) :=
  let whole := decimalLength text
  let afterWhole := text.drop whole
  if afterWhole.head? = some '.' then
    let fraction := decimalLength (afterWhole.drop 1)
    if whole = 0 && fraction = 0 then none
    else
      let length := whole + 1 + fraction
      some (withLetter 'j' 'J' text (length + exponentLength (text.drop length)), .float)
  else if whole = 0 then none
  else
    let exponent := exponentLength afterWhole
    if exponent = 0 then
      let plain := if startsWith 'l' 'L' afterWhole then whole + 1 else withLetter 'j' 'J' text whole
      some (plain, .integer)
    else some (withLetter 'j' 'J' text (whole + exponent), .float)

/-- The number at the head of a text: its length and whether it is an integer.
The longest spelling wins. -/
def takeNumber (text : List Char) : Option (Nat × Lexeme) :=
  match radixNumber? text with
  | some length => some (withLetter 'l' 'L' text length, .integer)
  | none => decimalNumber? text

/-- The symbol at the head of a text; the longest one wins. -/
def takeSymbol : List Char → Option Symbol
  | '*' :: '*' :: '=' :: _ => some (.augmented .pow)
  | '/' :: '/' :: '=' :: _ => some (.augmented .floorDiv)
  | '>' :: '>' :: '=' :: _ => some (.augmented .rShift)
  | '<' :: '<' :: '=' :: _ => some (.augmented .lShift)
  | '.' :: '.' :: '.' :: _ => some .ellipsis
  | '*' :: '*' :: _ => some (.op .pow)
  | '/' :: '/' :: _ => some (.op .floorDiv)
  | '>' :: '>' :: _ => some (.op .rShift)
  | '<' :: '<' :: _ => some (.op .lShift)
  | '<' :: '=' :: _ => some .lessEq
  | '>' :: '=' :: _ => some .greaterEq
  | '=' :: '=' :: _ => some .eqEq
  | '!' :: '=' :: _ => some .notEq
  | '<' :: '>' :: _ => some .lessGreater
  | '-' :: '>' :: _ => some .arrow
  | ':' :: '=' :: _ => some .walrus
  | '+' :: '=' :: _ => some (.augmented .add)
  | '-' :: '=' :: _ => some (.augmented .sub)
  | '*' :: '=' :: _ => some (.augmented .mul)
  | '/' :: '=' :: _ => some (.augmented .div)
  | '%' :: '=' :: _ => some (.augmented .mod)
  | '@' :: '=' :: _ => some (.augmented .matMul)
  | '&' :: '=' :: _ => some (.augmented .bitAnd)
  | '|' :: '=' :: _ => some (.augmented .bitOr)
  | '^' :: '=' :: _ => some (.augmented .bitXor)
  | '+' :: _ => some (.op .add)
  | '-' :: _ => some (.op .sub)
  | '*' :: _ => some (.op .mul)
  | '/' :: _ => some (.op .div)
  | '%' :: _ => some (.op .mod)
  | '@' :: _ => some (.op .matMul)
  | '&' :: _ => some (.op .bitAnd)
  | '|' :: _ => some (.op .bitOr)
  | '^' :: _ => some (.op .bitXor)
  | '~' :: _ => some .tilde
  | '<' :: _ => some .less
  | '>' :: _ => some .greater
  | '=' :: _ => some .assign
  | '(' :: _ => some .lparen
  | ')' :: _ => some .rparen
  | '[' :: _ => some .lbracket
  | ']' :: _ => some .rbracket
  | '\x7b' :: _ => some .lbrace
  | '\x7d' :: _ => some .rbrace
  | ',' :: _ => some .comma
  | ':' :: _ => some .colon
  | ';' :: _ => some .semicolon
  | '.' :: _ => some .dot
  | _ => none

/-- The two tokens cut last, newest first, as far as later cuts depend on them. -/
structure Recent where
  /-- The newest token. -/
  last : Lexeme × String := (.finish, "")
  /-- The one before it. -/
  before : Lexeme × String := (.finish, "")

/-- A word that an expression may follow directly, so that a name behind it may be
given a value in place. -/
def opensOperand : Lexeme × String → Bool
  | (.fieldOpen, _) => true
  | (.symbol .comma, _) => true
  | (.word, text) => ["not", "and", "or", "if", "else", "yield", "from"].contains text
  | _ => false

/-- One cut: the lexeme, its text, and the modes that hold behind it. -/
structure Cut where
  lexeme : Lexeme
  taken : List Char
  modes : List Mode

/-- Cut a token of code that begins with the given text, which is not empty. -/
def cutCode (modes : List Mode) (recent : Recent) (text : List Char) : Cut :=
  let flags := text.takeWhile isStringFlag
  match text.drop flags.length with
  | quote :: behind =>
    if isQuote quote then
      let (quotation, marks, _) := Quotation.ofOpening flags quote behind
      ⟨.quoteOpen, flags ++ marks, .quoted quotation :: modes⟩
    else code flags
  | [] => code flags
where
  /-- Cut a token that is no string. -/
  code (_flags : List Char) : Cut :=
    match text with
    | [] => ⟨.finish, [], modes⟩
    | c :: rest =>
      if beginsWord c then
        let word := c :: rest.takeWhile continuesWord
        let modes := match modes with
          | .field 0 colons :: outer =>
            if word = "lambda".toList && recent.last.1 != .symbol .dot then
              .field 0 (colons + 1) :: outer
            else modes
          | _ => modes
        ⟨.word, word, modes⟩
      else
        match takeNumber text with
        | some (length, lexeme) => ⟨lexeme, text.take length, modes⟩
        | none =>
          match modes with
          | .field 0 colons :: outer => cutField colons outer c rest
          | _ => cutSymbol
  /-- Cut a token of a replacement field outside of all brackets that is no word and no number. -/
  cutField (colons : Nat) (outer : List Mode) (c : Char) (rest : List Char) : Cut :=
    if c = '\x7d' then ⟨.fieldClose, [c], outer⟩
    else if c = '!' && rest.head? != some '=' then
      match rest with
      | letter :: _ =>
        if 'a' ≤ letter && letter ≤ 'z' then ⟨.conversion, [c, letter], modes⟩
        else ⟨.broken, [c], modes⟩
      | [] => ⟨.broken, [c], modes⟩
    else if c = ':' then
      if colons > 0 then ⟨.symbol .colon, [c], .field 0 (colons - 1) :: outer⟩
      else if rest.head? = some '=' && recent.last.1 = .word && opensOperand recent.before
      then ⟨.symbol .walrus, text.take 2, modes⟩
      else ⟨.specOpen, [c], .spec :: outer⟩
    else cutSymbol
  /-- Cut a symbol, keeping count of brackets. -/
  cutSymbol : Cut :=
    match takeSymbol text with
    | none => ⟨.broken, text.take 1, modes⟩
    | some symbol =>
      let modes := match modes with
        | .field depth colons :: outer =>
          match symbol with
          | .lparen | .lbracket | .lbrace => .field (depth + 1) colons :: outer
          | .rparen | .rbracket | .rbrace => .field (depth - 1) colons :: outer
          | _ => modes
        | _ => modes
      ⟨.symbol symbol, text.take symbol.text.length, modes⟩

/-- Cut a token of an open string. -/
def cutQuoted (q : Quotation) (outer : List Mode) (text : List Char) : Cut :=
  let run := q.scan text
  if !run.content.isEmpty then ⟨.quoteText, run.content, .quoted q :: outer⟩
  else
    match run.ending with
    | .closed mark => ⟨.quoteClose, mark, outer⟩
    | .field => ⟨.fieldOpen, text.take 1, .field 0 0 :: .quoted q :: outer⟩
    | .unclosed => ⟨.broken, text.take 1, .quoted q :: outer⟩

/-- Cut a token of a format specification. -/
def cutSpec (outer : List Mode) (text : List Char) : Cut :=
  match text with
  | [] => ⟨.finish, [], outer⟩
  | c :: _ =>
    if c = '\x7b' then ⟨.fieldOpen, [c], .field 0 0 :: .spec :: outer⟩
    else if c = '\x7d' then ⟨.fieldClose, [c], outer⟩
    else
      ⟨.specText, text.takeWhile fun d => d != '\x7b' && d != '\x7d', .spec :: outer⟩

/-- The gap before the next token, its end, and what follows it. Inside of strings there is none. -/
def gapBefore (modes : List Mode) (here : Position) (text : List Char) :
    List Trivia × Position × List Char :=
  match modes with
  | .quoted _ :: _ | .spec :: _ => ([], here, text)
  | _ => takeGap none here text

/-- Cut the next token of a text that is not empty. -/
def nextCut (modes : List Mode) (recent : Recent) (text : List Char) : Cut :=
  match modes with
  | .quoted q :: outer => cutQuoted q outer text
  | .spec :: outer => cutSpec outer text
  | _ => cutCode modes recent text

/-- Cut tokens as long as the fuel lasts. Every cut takes at least one character, so
the length of the text is fuel enough. -/
def tokensFrom : Nat → List Mode → Recent → Position → List Char → List Token
  | 0, _, _, here, _ => [⟨[], .broken, "", here, here⟩]
  | fuel + 1, modes, recent, here, text =>
    let (gap, start, behind) := gapBefore modes here text
    match behind with
    | [] =>
      match modes with
      | [] => [⟨gap, .finish, "", start, here⟩]
      | _ => [⟨gap, .broken, "", start, here⟩]
    | _ =>
      let cut := nextCut modes recent behind
      let token : Token := ⟨gap, cut.lexeme, String.ofList cut.taken, start, here⟩
      token :: tokensFrom fuel cut.modes ⟨(token.lexeme, token.text), recent.last⟩
        (start.advance cut.taken) (behind.drop cut.taken.length)

/-- Cut a source text into tokens; the last one marks the end. -/
def tokenize (text : String) : List Token :=
  tokensFrom (text.length + 1) [] {} .first text.toList

end Marksheet.Source
