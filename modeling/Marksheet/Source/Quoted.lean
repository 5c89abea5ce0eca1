import Marksheet.Source.Alphabet

/-!
# The inside of a string literal

`Quotation` describes an open string: its flags, its quote and whether the
quote is tripled. `Quotation.scan` takes the longest run of content, which ends
at the closing quote, at the brace of a replacement field, or not at all. It
follows three rules that the text of a string alone decides:

* a backslash takes the characters of its escape with it; in a raw string it
  takes a following quote, backslash or line end;
* in a string with fields a doubled brace belongs to the content;
* a line end inside a string with single quotes is allowed only where a piece
  of content begins, that is behind an escape, a field or the opening quote;
  anywhere else there is no run of content.

A raw string whose last piece consists of such backslash pairs only has that
piece counted to the closing quote; `Ending.closed` carries its text.
-/

namespace Marksheet.Source

open Alphabet

/-- An open string literal. -/
structure Quotation where
  /-- The quotation mark. -/
  quote : Char
  /-- Three marks open and close the string. -/
  triple : Bool
  /-- The string has replacement fields. -/
  format : Bool
  /-- Backslashes stand for themselves. -/
  raw : Bool
  /-- The string is one of bytes. -/
  bytes : Bool
  deriving DecidableEq, Repr, Inhabited

namespace Quotation

/-- The quotation that flags and a quote open, with the number of marks read and
what follows them. -/
def ofOpening (flags : List Char) (quote : Char) (behind : List Char) :
    Quotation × List Char × List Char :=
  let has (lower upper : Char) := flags.any fun c => c = lower || c = upper
  let plain : Quotation :=
    { quote, triple := false, format := has 'f' 'F', raw := has 'r' 'R', bytes := has 'b' 'B' }
  match behind with
  | a :: b :: rest =>
    if a = quote && b = quote && quote != Char.ofNat 96 then
      ({ plain with triple := true }, [quote, quote, quote], rest)
    else (plain, [quote], behind)
  | _ => (plain, [quote], behind)

/-- How a run of content ends. -/
inductive Ending where
  /-- The closing quote follows; the text is what is counted to it. -/
  | closed (mark : List Char)
  /-- A replacement field follows. -/
  | field
  /-- The string does not end. -/
  | unclosed
  deriving DecidableEq, Repr, Inhabited

/-- A run of content: its text, how it ends, and the rest of the source. -/
structure Run where
  content : List Char
  ending : Ending
  rest : List Char
  deriving DecidableEq, Repr, Inhabited

/-- How many of the leading characters of a text, at most `limit`, satisfy a test. -/
def countLeading (test : Char → Bool) : Nat → List Char → Nat
  | 0, _ => 0
  | _, [] => 0
  | limit + 1, c :: rest => if test c then countLeading test limit rest + 1 else 0

/-- The length of a code of so many hexadecimal digits with the mark before it; zero when there are
too few of them. -/
def codeLength (digits : Nat) (behind : List Char) : Nat :=
  if countLeading isHexDigit digits behind = digits then digits + 1 else 0

/-- The length of a name in braces with its mark, given what stands behind the opening brace; zero
when the name is empty or does not end. -/
def namedLength (behind : List Char) : Nat :=
  let name := behind.takeWhile (· != '\x7d')
  if name.isEmpty || name.length = behind.length then 0 else name.length + 3

/-- The length of an escape of octal digits, or of one character; zero when there is none. -/
def shortLength (first : Char) (behind : List Char) : Nat :=
  if isDigit first then countLeading isDigit 2 behind + 1
  else if first = '\n' || first = '\'' || first = '\"' || first = '\\' ||
    "abfrntv".toList.contains first
  then 1
  else 0

/-- The number of characters behind a backslash that belong to its escape; zero
when the backslash stands alone. -/
def escapeLength (behind : List Char) : Nat :=
  match behind with
  | [] => 0
  | 'u' :: rest => codeLength 4 rest
  | 'U' :: rest => codeLength 8 rest
  | 'x' :: rest => codeLength 2 rest
  | 'N' :: '\x7b' :: rest => namedLength rest
  | '\r' :: '\n' :: _ => 2
  | c :: rest => shortLength c rest

/-- The length of the line end at the head of a text; zero when there is none. -/
def lineEndLength : List Char → Nat
  | '\r' :: '\n' :: _ => 2
  | '\r' :: _ => 1
  | '\n' :: _ => 1
  | _ => 0

/-- The number of characters that a backslash in a raw string steps over. -/
def rawLength (quote : Char) (behind : List Char) : Nat :=
  match behind with
  | [] => 0
  | c :: rest =>
    if c = quote || c = '\\' then lineEndLength rest + 1 else lineEndLength behind

/-- The scanning state: content already finished and the current piece, both
reversed, and whether the piece holds a character of its own. -/
structure Progress where
  finished : List Char
  piece : List Char
  solid : Bool

/-- Finish the current piece with some more characters. -/
def Progress.finish (state : Progress) (more : List Char) : Progress :=
  ⟨more.reverse ++ (state.piece ++ state.finished), [], false⟩

/-- Scan with as many steps as the fuel allows. -/
def scanFrom (q : Quotation) : Nat → Progress → List Char → Run
  | 0, state, text => ⟨(state.piece ++ state.finished).reverse, .unclosed, text⟩
  | _, state, [] => ⟨(state.piece ++ state.finished).reverse, .unclosed, []⟩
  | fuel + 1, state, c :: rest =>
    let all := (state.piece ++ state.finished).reverse
    let marks := if q.triple then [q.quote, q.quote, q.quote] else [q.quote]
    if q.format && (c = '\x7b' || c = '\x7d') then
      match rest with
      | d :: more =>
        if d = c then scanFrom q fuel (state.finish [c, c]) more
        else if c = '\x7b' then ⟨all, .field, c :: rest⟩ else ⟨all, .unclosed, c :: rest⟩
      | [] => if c = '\x7b' then ⟨all, .field, c :: rest⟩ else ⟨all, .unclosed, c :: rest⟩
    else if c = '\\' then
      if q.raw then
        let taken := rest.take (rawLength q.quote rest)
        scanFrom q fuel { state with piece := taken.reverse ++ c :: state.piece }
          (rest.drop taken.length)
      else if q.bytes && (rest.head? = some 'N' || rest.head? = some 'u' || rest.head? = some 'U')
      then
        let taken := rest.take 2
        scanFrom q fuel { state with piece := taken.reverse ++ c :: state.piece, solid := true }
          (rest.drop taken.length)
      else
        let taken := rest.take (escapeLength rest)
        scanFrom q fuel (state.finish (c :: taken)) (rest.drop taken.length)
    else if c = q.quote then
      if q.triple && !(rest.take 2 = [q.quote, q.quote]) then
        match rest with
        | d :: more =>
          if d = q.quote then scanFrom q fuel (state.finish [c, d]) more
          else scanFrom q fuel (state.finish [c]) rest
        | [] => scanFrom q fuel (state.finish [c]) rest
      else if state.solid || state.piece.isEmpty then
        ⟨all, .closed marks, rest.drop (marks.length - 1)⟩
      else ⟨state.finished.reverse, .closed (state.piece.reverse ++ marks),
        rest.drop (marks.length - 1)⟩
    else if c = '\n' && state.solid && !q.triple then ⟨[], .unclosed, c :: rest⟩
    else if c = Char.ofNat 0 then ⟨all, .unclosed, c :: rest⟩
    else scanFrom q fuel { state with piece := c :: state.piece, solid := true } rest

/-- The run of content at the head of the text. -/
def scan (q : Quotation) (text : List Char) : Run :=
  scanFrom q (text.length + 1) ⟨[], [], false⟩ text

end Quotation

end Marksheet.Source
