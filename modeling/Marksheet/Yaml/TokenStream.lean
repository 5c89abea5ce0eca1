import Marksheet.Yaml.Scalar.Block
import Marksheet.Yaml.Scalar.Plain
import Marksheet.Yaml.Scalar.Quoted
import Marksheet.Yaml.Token

/-!
# The tokens of a text, one after the other

Tokens are read only as far as they are asked for, so a fault further on does
not hide what stands before it. A scalar, an alias or a collection on one line
may turn out to be a key once a colon follows: such a place is remembered, and
tokens are read on until it is settled. Where nothing but a key can stand, a
missing colon is a fault.
-/

namespace Marksheet.Yaml

/-- A place where a key may have begun. -/
structure PossibleKey where
  /-- Nothing but a key can stand there. -/
  required : Bool
  /-- The number of the token that would follow the key's mark. -/
  number : Nat
  mark : Mark
  deriving DecidableEq, Repr, Inhabited

/-- A text whose tokens are being read. -/
structure TokenStream where
  mark : Mark
  /-- What has not been read yet. -/
  rest : List Char
  started : Bool
  ended : Bool
  /-- Tokens that have been read and not been taken. -/
  queue : List Token
  /-- How many tokens have been taken. -/
  taken : Nat
  /-- The column of the innermost block; negative outside of blocks. -/
  indent : Int
  /-- The columns of the blocks around it, innermost first. -/
  outer : List Int
  /-- A key may begin at the next token. -/
  keyAllowed : Bool
  /-- The possible key of each open bracket, innermost first, and of the block around them. -/
  keys : List (Option PossibleKey)
  deriving Inhabited

namespace TokenStream

/-- The stream of a text. -/
def ofChars (text : List Char) : TokenStream where
  mark := .zero
  rest := text
  started := false
  ended := false
  queue := []
  taken := 0
  indent := -1
  outer := []
  keyAllowed := true
  keys := [none]

/-- The stream is between brackets. -/
def inBrackets (stream : TokenStream) : Bool := 1 < stream.keys.length

/-- Append a token. -/
def enqueue (stream : TokenStream) (kind : TokenKind) (start stop : Mark) : TokenStream :=
  { stream with queue := stream.queue ++ [⟨kind, start, stop⟩] }

/-- Put a token without extent before the token with a number. -/
def insertAt (stream : TokenStream) (number : Nat) (kind : TokenKind) (mark : Mark) :
    TokenStream :=
  { stream with queue := stream.queue.insertIdx (number - stream.taken) ⟨kind, mark, mark⟩ }

/-- Go on to a place in the text. -/
def moveTo (stream : TokenStream) (mark : Mark) (rest : List Char) : TokenStream :=
  { stream with mark := mark, rest := rest }

/-- Append a token of so many characters and go on behind it. -/
def take (stream : TokenStream) (kind : TokenKind) (count : Nat) : TokenStream :=
  let behind := stream.mark.forward count
  (stream.enqueue kind stream.mark behind).moveTo behind (stream.rest.drop count)

/-- The fault of a key without a colon. -/
def keyFault (stream : TokenStream) (key : PossibleKey) : Fault :=
  .within "while scanning a simple key" key.mark "could not find expected ':'" stream.mark

/-- A key is on one line and has at most so many characters before its colon. -/
def longestKey : Nat := 1024

/-- Give up a possible key that has become impossible. -/
def refreshKey (stream : TokenStream) : Option PossibleKey → Except Fault (Option PossibleKey)
  | none => .ok none
  | some key =>
    if key.mark.line < stream.mark.line || key.mark.index + longestKey < stream.mark.index then
      if key.required then .error (stream.keyFault key) else .ok none
    else .ok (some key)

/-- Give up all possible keys that have become impossible. -/
def refreshKeys (stream : TokenStream) : Except Fault TokenStream := do
  return { stream with keys := ← stream.keys.mapM stream.refreshKey }

/-- Give up the innermost possible key. -/
def forgetKey (stream : TokenStream) : Except Fault TokenStream :=
  match stream.keys with
  | some key :: others =>
    if key.required then .error (stream.keyFault key)
    else .ok { stream with keys := none :: others }
  | _ => .ok stream

/-- A key may begin here, if one is allowed. -/
def saveKey (stream : TokenStream) : Except Fault TokenStream :=
  if stream.keyAllowed then do
    let required := !stream.inBrackets && stream.indent = stream.mark.column
    let key := ⟨required, stream.taken + stream.queue.length, stream.mark⟩
    let stream ← stream.forgetKey
    return { stream with keys := some key :: stream.keys.tail }
  else .ok stream

/-- Open a block at a column that is deeper than the innermost one. -/
def openBlock (stream : TokenStream) (column : Nat) (number : Option Nat) (kind : TokenKind)
    (mark : Mark) : TokenStream :=
  if stream.inBrackets || (column : Int) ≤ stream.indent then stream
  else
    let stream := { stream with outer := stream.indent :: stream.outer, indent := column }
    match number with
    | some number => stream.insertAt number kind mark
    | none => stream.enqueue kind mark mark

/-- The columns that are left, and the ends of blocks, when all deeper than a column are closed. -/
def closeColumns (column : Int) (mark : Mark) : Int → List Int → Int × List Int × List Token
  | indent, [] => (indent, [], [])
  | indent, next :: outer =>
    if column < indent then
      let (indent, outer, ends) := closeColumns column mark next outer
      (indent, outer, ⟨.blockEnd, mark, mark⟩ :: ends)
    else (indent, next :: outer, [])

/-- Close all blocks deeper than a column. -/
def closeBlocks (stream : TokenStream) (column : Int) : TokenStream :=
  if stream.inBrackets then stream
  else
    let (indent, outer, ends) := closeColumns column stream.mark stream.indent stream.outer
    { stream with indent := indent, outer := outer, queue := stream.queue ++ ends }

/-- Pass over spaces, remarks and line breaks. A tab counts as a space only where no key can
begin; outside of brackets, a key may begin on a new line. -/
def passGap (inBrackets keyAllowed remark : Bool) (mark : Mark) :
    List Char → Bool × Mark × List Char
  | [] => (keyAllowed, mark, [])
  | c :: rest =>
    if isBreak c then passGap inBrackets (keyAllowed || !inBrackets) false (mark.step c) rest
    else if remark || c = ' ' || (c = '\t' && (inBrackets || !keyAllowed)) then
      passGap inBrackets keyAllowed remark (mark.step c) rest
    else if c = '#' then passGap inBrackets keyAllowed true (mark.step c) rest
    else (keyAllowed, mark, c :: rest)

/-- Read the end of the text. -/
def readEnd (stream : TokenStream) : Except Fault TokenStream := do
  let mark := if stream.mark.column = 0 then stream.mark else
    ⟨stream.mark.index, stream.mark.line + 1, 0⟩
  let stream := { stream with mark := mark }
  let stream ← (stream.closeBlocks (-1)).forgetKey
  return { stream.enqueue .streamEnd mark mark with keyAllowed := false, ended := true }

/-- Read a directive. -/
def readDirectiveToken (stream : TokenStream) : Except Fault TokenStream := do
  let stream ← (stream.closeBlocks (-1)).forgetKey
  let found ← readDirective stream.mark stream.rest
  let stream := stream.enqueue (.directive found.value) stream.mark found.mark
  return { stream.moveTo found.mark found.rest with keyAllowed := false }

/-- Read the mark at the beginning or the end of a document. -/
def readDocumentMark (stream : TokenStream) (kind : TokenKind) : Except Fault TokenStream := do
  let stream ← (stream.closeBlocks (-1)).forgetKey
  return { stream.take kind 3 with keyAllowed := false }

/-- Read an opening bracket. -/
def readOpening (stream : TokenStream) (bracket : Bracket) : Except Fault TokenStream := do
  let stream ← stream.saveKey
  return { stream.take (.opening bracket) 1 with keys := none :: stream.keys, keyAllowed := true }

/-- Read a closing bracket. -/
def readClosing (stream : TokenStream) (bracket : Bracket) : Except Fault TokenStream := do
  let stream ← stream.forgetKey
  let keys := if stream.inBrackets then stream.keys.tail else stream.keys
  return { stream.take (.closing bracket) 1 with keys := keys, keyAllowed := false }

/-- Read a comma. -/
def readComma (stream : TokenStream) : Except Fault TokenStream := do
  let stream ← stream.forgetKey
  return { stream.take .comma 1 with keyAllowed := true }

/-- Read the dash before an entry. -/
def readDash (stream : TokenStream) : Except Fault TokenStream := do
  if !stream.inBrackets && !stream.keyAllowed then
    .error ⟨"block sequence entries are not allowed in this context", stream.mark, none⟩
  else
    let stream := stream.openBlock stream.mark.column none .blockSequence stream.mark
    let stream ← stream.forgetKey
    return { stream.take .dash 1 with keyAllowed := true }

/-- Read the question mark before a key. -/
def readKeyMark (stream : TokenStream) : Except Fault TokenStream := do
  if !stream.inBrackets && !stream.keyAllowed then
    .error ⟨"mapping keys are not allowed in this context", stream.mark, none⟩
  else
    let stream := stream.openBlock stream.mark.column none .blockMapping stream.mark
    let stream ← stream.forgetKey
    return { stream.take .key 1 with keyAllowed := !stream.inBrackets }

/-- Read the colon before a value. What stands before it on the line may become its key. -/
def readColon (stream : TokenStream) : Except Fault TokenStream := do
  match stream.keys with
  | some key :: others =>
    let stream := stream.insertAt key.number .key key.mark
    let stream := stream.openBlock key.mark.column (some key.number) .blockMapping key.mark
    return { stream.take .value 1 with keys := none :: others, keyAllowed := false }
  | _ =>
    if !stream.inBrackets && !stream.keyAllowed then
      .error ⟨"mapping values are not allowed in this context", stream.mark, none⟩
    else
      let stream := stream.openBlock stream.mark.column none .blockMapping stream.mark
      return { stream.take .value 1 with keyAllowed := !stream.inBrackets }

/-- Append a token that may begin a key and go on behind it. -/
def readNodeToken (stream : TokenStream)
    (read : Mark → List Char → Except Fault (Read TokenKind)) : Except Fault TokenStream := do
  let stream ← stream.saveKey
  let found ← read stream.mark stream.rest
  let stream := stream.enqueue found.value stream.mark found.mark
  return { stream.moveTo found.mark found.rest with keyAllowed := false }

/-- Read a quoted scalar. -/
def readQuotedToken (stream : TokenStream) (single : Bool) : Except Fault TokenStream :=
  stream.readNodeToken fun start text => do
    let (value, mark, rest) ← readQuoted single start ⟨start.forward 1, [], .none, 0⟩ text.tail
    return ⟨.scalar value false false, mark, rest⟩

/-- Read a block scalar. -/
def readBlockToken (stream : TokenStream) (literal : Bool) : Except Fault TokenStream := do
  let stream ← stream.forgetKey
  let (value, mark, rest) ← readBlock literal stream.indent stream.mark stream.rest
  let stream := stream.enqueue (.scalar value false literal) stream.mark mark
  return { stream.moveTo mark rest with keyAllowed := true }

/-- Read a plain scalar. -/
def readPlainToken (stream : TokenStream) : Except Fault TokenStream := do
  let stream ← stream.saveKey
  let start := stream.mark
  let least := (stream.indent + 1).toNat
  let found ← readPlain stream.inBrackets least start ⟨start, [], .none, start, true⟩ stream.rest
  let stream := stream.enqueue (.scalar found.text true false) start found.behindText
  return { stream.moveTo found.mark found.rest with keyAllowed := found.brokenOff }

/-- A character that cannot begin a plain scalar by itself. -/
def isIndicator (c : Char) : Bool :=
  "-?:,[]\x7b\x7d#&*!|>'\"%@".toList.contains c || c = Char.ofNat 96

/-- Read the token at a character. -/
def readAt (stream : TokenStream) (c : Char) (behind : List Char) : Except Fault TokenStream :=
  let gap := gapFollows behind
  let atLineStart := stream.mark.column = 0
  let marks (dashOrDot : Char) : Bool :=
    atLineStart && c = dashOrDot && isDocumentIndicator stream.rest
  if atLineStart && c = '%' then stream.readDirectiveToken
  else if marks '-' then stream.readDocumentMark .documentStart
  else if marks '.' then stream.readDocumentMark .documentEnd
  else if c = '[' then stream.readOpening .square
  else if c = '\x7b' then stream.readOpening .curly
  else if c = ']' then stream.readClosing .square
  else if c = '\x7d' then stream.readClosing .curly
  else if c = ',' then stream.readComma
  else if c = '-' && gap then stream.readDash
  else if c = '?' && (stream.inBrackets || gap) then stream.readKeyMark
  else if c = ':' && (stream.inBrackets || gap) then stream.readColon
  else if c = '*' then
    stream.readNodeToken fun start _ => do
      let found ← readAnchor "while scanning an alias" start behind
      return ⟨.alias found.value, found.mark, found.rest⟩
  else if c = '&' then
    stream.readNodeToken fun start _ => do
      let found ← readAnchor "while scanning an anchor" start behind
      return ⟨.anchor found.value, found.mark, found.rest⟩
  else if c = '!' then
    stream.readNodeToken fun start text => do
      let found ← readTag stream.inBrackets start text
      return ⟨.tag found.value, found.mark, found.rest⟩
  else if c = '|' && !stream.inBrackets then stream.readBlockToken true
  else if c = '>' && !stream.inBrackets then stream.readBlockToken false
  else if c = '\'' then stream.readQuotedToken true
  else if c = '\"' then stream.readQuotedToken false
  else if !(isGap c || isIndicator c) ||
      (c = '-' && !(match behind with | d :: _ => isSpace d | [] => false)) ||
      (!stream.inBrackets && (c = '?' || c = ':') && !gap) then
    stream.readPlainToken
  else
    .error (.within "while scanning for the next token" stream.mark
      "found character that cannot start any token" stream.mark)

/-- Read one more token of the text; keys and blocks may bring others. -/
def readMore (stream : TokenStream) : Except Fault TokenStream := do
  if !stream.started then
    return { stream.enqueue .streamStart stream.mark stream.mark with started := true }
  else
    let (keyAllowed, mark, rest) :=
      passGap stream.inBrackets stream.keyAllowed false stream.mark stream.rest
    let stream := { stream.moveTo mark rest with keyAllowed := keyAllowed }
    let stream ← stream.refreshKeys
    let stream := stream.closeBlocks stream.mark.column
    match stream.rest with
    | [] => stream.readEnd
    | c :: behind => stream.readAt c behind

/-- The first token in the queue may still become a key. -/
def unsettled (stream : TokenStream) : Bool :=
  stream.keys.any fun key => match key with
    | some key => key.number = stream.taken
    | none => false

/-- Read on until the first token is settled, at most so many times. -/
def settle : Nat → TokenStream → Except Fault TokenStream
  | 0, stream => .ok stream
  | fuel + 1, stream => do
    if stream.queue.isEmpty then settle fuel (← stream.readMore)
    else
      let stream ← stream.refreshKeys
      if stream.unsettled && !stream.ended then settle fuel (← stream.readMore) else return stream

/-- The first token, settled; each reading takes a character or ends the text. -/
def peek (stream : TokenStream) : Except Fault (Token × TokenStream) := do
  let stream ← settle (stream.rest.length + 3) stream
  return (stream.queue.headD ⟨.streamEnd, stream.mark, stream.mark⟩, stream)

/-- The stream behind its first token. -/
def next (stream : TokenStream) : TokenStream :=
  { stream with queue := stream.queue.tail, taken := stream.taken + 1 }

end TokenStream

end Marksheet.Yaml
