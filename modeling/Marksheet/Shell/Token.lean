import Marksheet.Shell.Syntax
import Marksheet.Source.Alphabet

/-!
# Tokens of a shell script

A script is cut into words, operators and ends of lines. A text that is given on
the spot, behind the line that asks for it, becomes part of the token that asks.
-/

namespace Marksheet.Shell

open Source.Alphabet (isDigit isAsciiLetter)

/-- A piece of a script. -/
inductive Token where
  | word (word : Word)
  | operator (text : String)
  | newline
  /-- The redirection of a descriptor by an operator; its target follows. -/
  | redirect (descriptor : Nat) (operator : String)
  /-- A text on the spot. -/
  | here (descriptor : Nat) (content : Word)
  deriving Inhabited

/-- A character that ends a word that is not in quotes. -/
def endsWord (c : Char) : Bool :=
  [' ', '\t', '\n', ';', '&', '|', '<', '>', '(', ')'].contains c

/-- A character of a variable's name. -/
def isNameChar (c : Char) : Bool := isAsciiLetter c || isDigit c || c = '_'

/-- A character that names a parameter by itself. -/
def isSpecial (c : Char) : Bool := ['#', '?', '$', '@', '*', '!', '-'].contains c || isDigit c

/-- The name of a parameter with an optional default, between braces. -/
def bracedParameter (inside : List Char) : String × Option String :=
  let name := match inside with
    | c :: _ => if isSpecial c then [c] else inside.takeWhile isNameChar
    | [] => []
  match inside.drop name.length with
  | ':' :: '-' :: default => (String.ofList name, some (String.ofList default))
  | _ => (String.ofList name, none)

/-- What a dollar sign stands for, and what follows it. -/
def dollarPart (quoted : Bool) : List Char → Part × List Char
  | '\x7b' :: rest =>
    let inside := rest.takeWhile (· ≠ '\x7d')
    let (name, default) := bracedParameter inside
    (.parameter name quoted default, rest.drop (inside.length + 1))
  | c :: rest =>
    if isSpecial c then (.parameter (String.singleton c) quoted none, rest)
    else
      let name := (c :: rest).takeWhile isNameChar
      if name.isEmpty then (.text "$" quoted, c :: rest)
      else (.parameter (String.ofList name) quoted none, (c :: rest).drop name.length)
  | [] => (.text "$" quoted, [])

/-- A part of one character. -/
def charPart (c : Char) (quoted : Bool) : Part := .text (String.singleton c) quoted

/-- Put a part before others; texts of one kind join. -/
def joinPart : Part → Word → Word
  | .text first quoted, .text second true :: rest =>
    if quoted then .text (first ++ second) true :: rest
    else .text first quoted :: .text second true :: rest
  | .text first quoted, .text second false :: rest =>
    if quoted then .text first quoted :: .text second false :: rest
    else .text (first ++ second) false :: rest
  | part, rest => part :: rest

/-- The parts of a text in which only parameters and some backslashes count, up to a double quote
if one ends it; none if it never does. -/
def scanQuoted (ends : Bool) : (fuel : Nat) → List Char → Option (Word × List Char)
  | 0, _ => none
  | _ + 1, [] => if ends then none else some ([], [])
  | fuel + 1, c :: rest =>
    if ends && c = '\"' then some ([], rest)
    else if c = '$' then do
      let (part, rest) := dollarPart true rest
      let (word, rest) ← scanQuoted ends fuel rest
      return (joinPart part word, rest)
    else
      match c, rest with
      | '\\', next :: behind =>
        if next = '\n' then scanQuoted ends fuel behind
        else if next = '$' || next = '\\' || next = Char.ofNat 96 || (ends && next = '\"') then do
          let (word, rest) ← scanQuoted ends fuel behind
          return (joinPart (charPart next true) word, rest)
        else do
          let (word, rest) ← scanQuoted ends fuel (next :: behind)
          return (joinPart (charPart '\\' true) word, rest)
      | c, rest => do
        let (word, rest) ← scanQuoted ends fuel rest
        return (joinPart (charPart c true) word, rest)

/-- A word, and what follows it. -/
def scanWord : (fuel : Nat) → List Char → Option (Word × List Char)
  | 0, _ => none
  | _ + 1, [] => some ([], [])
  | fuel + 1, c :: rest =>
    if endsWord c then some ([], c :: rest)
    else if c = '\'' then
      let inside := rest.takeWhile (· ≠ '\'')
      match rest.drop inside.length with
      | [] => none
      | _ :: behind => do
        let (word, rest) ← scanWord fuel behind
        return (joinPart (.text (String.ofList inside) true) word, rest)
    else if c = '\"' then do
      let (inside, behind) ← scanQuoted true (rest.length + 1) rest
      let (word, rest) ← scanWord fuel behind
      return ((.text "" true :: inside) ++ word, rest)
    else if c = '$' then do
      let (part, behind) := dollarPart false rest
      let (word, rest) ← scanWord fuel behind
      return (joinPart part word, rest)
    else
      match c, rest with
      | '\\', '\n' :: behind => scanWord fuel behind
      | '\\', next :: behind => do
        let (word, rest) ← scanWord fuel behind
        return (joinPart (charPart next true) word, rest)
      | c, rest => do
        let (word, rest) ← scanWord fuel rest
        return (joinPart (charPart c false) word, rest)

/-! ### Texts on the spot -/

/-- A text on the spot that has been asked for. -/
structure Pending where
  delimiter : String
  /-- The delimiter is in quotes, and nothing in the text counts. -/
  plain : Bool
  /-- Tabs at the head of lines do not count. -/
  stripped : Bool
  deriving Inhabited

/-- The characters of a word, and whether some are in quotes. -/
def wordText (word : Word) : String × Bool :=
  word.foldl (fun (text, quoted) part => match part with
    | .text chars q => (text ++ chars, quoted || q)
    | .parameter name _ _ => (text ++ "$" ++ name, quoted)) ("", false)

/-- The lines up to the delimiter, and what follows it. -/
def hereLines (pending : Pending) : (fuel : Nat) → List Char → List Char × List Char
  | 0, cs => ([], cs)
  | _ + 1, [] => ([], [])
  | fuel + 1, cs =>
    let line := cs.takeWhile (· ≠ '\n')
    let rest := cs.drop (line.length + 1)
    let line := if pending.stripped then line.dropWhile (· = '\t') else line
    if String.ofList line = pending.delimiter then ([], rest)
    else
      let (lines, rest) := hereLines pending fuel rest
      (line ++ '\n' :: lines, rest)

/-- The content of a text on the spot, and what follows it. -/
def hereContent (pending : Pending) (cs : List Char) : Word × List Char :=
  let (lines, rest) := hereLines pending (cs.length + 1) cs
  if pending.plain then ([.text (String.ofList lines) true], rest)
  else
    match scanQuoted false (lines.length + 1) lines with
    | some (word, _) => (word, rest)
    | none => ([.text (String.ofList lines) true], rest)

/-- The contents of all that is pending, in order, and what follows them. -/
def hereContents : List Pending → List Char → List Word × List Char
  | [], cs => ([], cs)
  | pending :: others, cs =>
    let (content, rest) := hereContent pending cs
    let (contents, rest) := hereContents others rest
    (content :: contents, rest)

/-- Put contents into the tokens that wait for them. -/
def fillHere : List Token → List Word → List Token
  | .here descriptor [] :: rest, content :: contents =>
    .here descriptor content :: fillHere rest contents
  | token :: rest, contents => token :: fillHere rest contents
  | [], _ => []

/-! ### Tokens -/

/-- The operators, the longer ones first. -/
def operators : List (List Char) :=
  ["&&".toList, "||".toList, ";;".toList, ";".toList, "&".toList, "|".toList, "(".toList,
    ")".toList]

/-- The operators of redirection, the longer ones first. -/
def redirections : List (List Char) :=
  ["<<-".toList, "<<".toList, "<&".toList, ">>".toList, ">&".toList, ">|".toList, "<".toList,
    ">".toList]

/-- The first of some texts that stands at the head, and what follows it. -/
def matchHead (texts : List (List Char)) (cs : List Char) : Option (List Char × List Char) :=
  texts.findSome? fun text =>
    if text.isPrefixOf cs then some (text, cs.drop text.length) else none

/-- The number before a redirection, if one stands at the head. -/
def matchRedirect (cs : List Char) : Option (Nat × List Char × List Char) :=
  let digits := cs.takeWhile isDigit
  match matchHead redirections (cs.drop digits.length) with
  | none => none
  | some (operator, rest) =>
    let standard := if operator.head? = some '<' then 0 else 1
    some (if digits.isEmpty then standard else (String.ofList digits).toNat?.getD standard,
      operator, rest)

/-- Where the tokens of a script have been read to. -/
structure Progress where
  /-- The tokens of finished lines, the last first. -/
  before : List Token
  /-- The tokens of the present line, the last first. -/
  line : List Token
  /-- What the present line asks for, the last first. -/
  pending : List Pending
  deriving Inhabited

/-- The tokens of a script; none if a quote is not closed. -/
def scan : (fuel : Nat) → Progress → List Char → Option (List Token)
  | 0, _, _ => none
  | _ + 1, progress, [] =>
    some ((fillHere progress.line.reverse []).reverse ++ progress.before).reverse
  | fuel + 1, progress, c :: rest =>
    if c = ' ' || c = '\t' then scan fuel progress rest
    else if c = '#' then scan fuel progress (rest.dropWhile (· ≠ '\n'))
    else if c = '\n' then
      let (contents, behind) := hereContents progress.pending.reverse rest
      let line := fillHere progress.line.reverse contents
      scan fuel ⟨.newline :: (line.reverse ++ progress.before), [], []⟩ behind
    else
      match matchRedirect (c :: rest) with
      | some (descriptor, operator, behind) =>
        if operator = ['<', '<'] || operator = ['<', '<', '-'] then do
          let gap := behind.dropWhile fun c => c = ' ' || c = '\t'
          let (word, behind) ← scanWord (gap.length + 1) gap
          let (delimiter, plain) := wordText word
          let pending := ⟨delimiter, plain, operator = ['<', '<', '-']⟩
          scan fuel ⟨progress.before, .here descriptor [] :: progress.line,
            pending :: progress.pending⟩ behind
        else
          scan fuel { progress with
            line := .redirect descriptor (String.ofList operator) :: progress.line } behind
      | none =>
        match matchHead operators (c :: rest) with
        | some (operator, behind) =>
          scan fuel { progress with
            line := .operator (String.ofList operator) :: progress.line } behind
        | none => do
          let (word, behind) ← scanWord (rest.length + 2) (c :: rest)
          scan fuel { progress with line := .word word :: progress.line } behind

/-- The tokens of a script. -/
def tokens? (script : String) : Option (List Token) :=
  scan (script.length + 1) ⟨[], [], []⟩ script.toList

end Marksheet.Shell
