import Marksheet.Shell.Token

/-!
# Reading a shell script

A list of commands ends at a word or an operator that cannot begin a command;
what asked for the list says which one has to stand there.
-/

namespace Marksheet.Shell

/-- The text of a word that is not in quotes and holds no parameter. -/
def plainWord? : Word → Option String
  | [.text chars false] => some chars
  | _ => none

/-- The keyword at the head of tokens. -/
def keyword? : List Token → Option String
  | .word word :: _ => plainWord? word
  | _ => none

/-- The words that end a list of commands. -/
def closingWords : List String := ["then", "else", "elif", "fi", "do", "done", "\x7d"]

/-- No command begins at the head of tokens. -/
def atClose : List Token → Bool
  | [] => true
  | .operator text :: _ => text = ")" || text = ";;"
  | tokens =>
    match keyword? tokens with
    | some word => closingWords.contains word
    | none => false

/-- The tokens behind ends of lines. -/
def skipLines : List Token → List Token
  | .newline :: rest => skipLines rest
  | tokens => tokens

/-- The tokens behind a keyword, if it stands at the head. -/
def expect? (word : String) (tokens : List Token) : Option (List Token) :=
  if keyword? tokens = some word then some tokens.tail else none

/-- A redirection at the head of tokens. -/
def redirect? : List Token → Option (Redirect × List Token)
  | .here descriptor content :: rest => some (.here descriptor content, rest)
  | .redirect descriptor operator :: .word target :: rest =>
    if operator = "<" then some (.read descriptor target, rest)
    else if operator = ">>" then some (.write descriptor true target, rest)
    else if operator = ">&" || operator = "<&" then some (.copy descriptor target, rest)
    else some (.write descriptor false target, rest)
  | _ => none

/-- The redirections at the head of tokens. -/
def redirects : (fuel : Nat) → List Token → List Redirect × List Token
  | 0, tokens => ([], tokens)
  | fuel + 1, tokens =>
    match redirect? tokens with
    | some (redirect, rest) =>
      let (others, rest) := redirects fuel rest
      (redirect :: others, rest)
    | none => ([], tokens)

/-- The name and the value that a word assigns, if it does. -/
def assignment? : Word → Option (String × Word)
  | .text chars false :: rest =>
    let name := chars.toList.takeWhile isNameChar
    match chars.toList.drop name.length with
    | '=' :: value =>
      if name.isEmpty || (name.head?.map Char.isDigit) = some true then none
      else some (String.ofList name,
        if value.isEmpty then rest else .text (String.ofList value) false :: rest)
    | _ => none
  | _ => none

/-- What has been read of a simple command, all in reverse. -/
structure Simple where
  assignments : List (String × Word)
  words : List Word
  redirects : List Redirect
  deriving Inhabited

/-- The command that has been read. -/
def Simple.command (simple : Simple) : Command :=
  .simple simple.assignments.reverse simple.words.reverse simple.redirects.reverse

/-- The parts of a simple command, and what follows it. -/
def readSimple : (fuel : Nat) → Simple → List Token → Simple × List Token
  | 0, simple, tokens => (simple, tokens)
  | fuel + 1, simple, tokens =>
    match redirect? tokens with
    | some (redirect, rest) =>
      readSimple fuel { simple with redirects := redirect :: simple.redirects } rest
    | none =>
      match tokens with
      | .word word :: rest =>
        match simple.words, assignment? word with
        | [], some assignment =>
          readSimple fuel { simple with assignments := assignment :: simple.assignments } rest
        | _, _ => readSimple fuel { simple with words := word :: simple.words } rest
      | _ => (simple, tokens)

/-- The words at the head of tokens. -/
def takeWords : List Token → List Word × List Token
  | .word word :: rest =>
    let (words, rest) := takeWords rest
    (word :: words, rest)
  | tokens => ([], tokens)

/-- The tokens behind one separator and ends of lines. -/
def skipSeparator : List Token → List Token
  | .operator ";" :: rest => skipLines rest
  | tokens => skipLines tokens

mutual

/-- A list of commands. -/
def readList : (fuel : Nat) → List Token → Option (Command × List Token)
  | 0, _ => none
  | fuel + 1, tokens =>
    let tokens := skipLines tokens
    if atClose tokens then some (.done, tokens)
    else do
      let (first, rest) ← readChain fuel tokens
      match rest with
      | .operator "&" :: rest =>
        let (others, rest) ← readList fuel rest
        return (.sequence (.aside first) others, rest)
      | .operator ";" :: rest =>
        let (others, rest) ← readList fuel rest
        return (.sequence first others, rest)
      | .newline :: rest =>
        let (others, rest) ← readList fuel rest
        return (.sequence first others, rest)
      | rest => if atClose rest then return (first, rest) else none

/-- Pipelines that depend on one another. -/
def readChain : (fuel : Nat) → List Token → Option (Command × List Token)
  | 0, _ => none
  | fuel + 1, tokens => do
    let (first, rest) ← readPipeline fuel tokens
    chain fuel first rest

/-- Go on with a chain behind its first part. -/
def chain : (fuel : Nat) → Command → List Token → Option (Command × List Token)
  | 0, _, _ => none
  | fuel + 1, first, .operator "&&" :: rest => do
    let (second, rest) ← readPipeline fuel (skipLines rest)
    chain fuel (.both first second) rest
  | fuel + 1, first, .operator "||" :: rest => do
    let (second, rest) ← readPipeline fuel (skipLines rest)
    chain fuel (.either first second) rest
  | _ + 1, first, rest => some (first, rest)

/-- Commands of which each reads what the one before writes. -/
def readPipeline : (fuel : Nat) → List Token → Option (Command × List Token)
  | 0, _ => none
  | fuel + 1, tokens => do
    match expect? "!" tokens with
    | some rest =>
      let (command, rest) ← readPipeline fuel rest
      return (.negate command, rest)
    | none =>
      let (first, rest) ← readCommand fuel tokens
      pipes fuel first rest

/-- Go on with a pipeline behind its first part. -/
def pipes : (fuel : Nat) → Command → List Token → Option (Command × List Token)
  | 0, _, _ => none
  | fuel + 1, first, .operator "|" :: rest => do
    let (second, rest) ← readCommand fuel (skipLines rest)
    pipes fuel (.pipe first second) rest
  | _ + 1, first, rest => some (first, rest)

/-- One command with its redirections. -/
def readCommand : (fuel : Nat) → List Token → Option (Command × List Token)
  | 0, _ => none
  | fuel + 1, tokens => do
    let compound (body : Command) (rest : List Token) : Command × List Token :=
      match redirects rest.length rest with
      | ([], rest) => (body, rest)
      | (redirects, rest) => (.group false body redirects, rest)
    match tokens, keyword? tokens with
    | .operator "(" :: rest, _ =>
      let (body, rest) ← readList fuel rest
      match rest with
      | .operator ")" :: rest =>
        let (redirects, rest) := redirects rest.length rest
        return (.group true body redirects, rest)
      | _ => none
    | _, some "\x7b" =>
      let (body, rest) ← readList fuel tokens.tail
      let rest ← expect? "\x7d" rest
      return compound body rest
    | _, some "for" =>
      match tokens.tail with
      | .word name :: rest =>
        let name ← plainWord? name
        let (words, rest) := match expect? "in" (skipLines rest) with
          | some rest => takeWords rest
          | none => ([[.parameter "@" true none]], rest)
        let rest ← expect? "do" (skipSeparator rest)
        let (body, rest) ← readList fuel rest
        let rest ← expect? "done" rest
        return compound (.each name words body) rest
      | _ => none
    | _, some "while" =>
      let (condition, rest) ← readList fuel tokens.tail
      let (body, rest) ← readList fuel (← expect? "do" rest)
      return compound (.loop true condition body) (← expect? "done" rest)
    | _, some "until" =>
      let (condition, rest) ← readList fuel tokens.tail
      let (body, rest) ← readList fuel (← expect? "do" rest)
      return compound (.loop false condition body) (← expect? "done" rest)
    | _, some "if" =>
      let (command, rest) ← readChoice fuel tokens.tail
      return compound command rest
    | _, _ =>
      let (simple, rest) := readSimple tokens.length ⟨[], [], []⟩ tokens
      if rest.length = tokens.length then none else return (simple.command, rest)

/-- A choice behind its first keyword, to its end. -/
def readChoice : (fuel : Nat) → List Token → Option (Command × List Token)
  | 0, _ => none
  | fuel + 1, tokens => do
    let (condition, rest) ← readList fuel tokens
    let (yes, rest) ← readList fuel (← expect? "then" rest)
    match keyword? rest with
    | some "elif" =>
      let (no, rest) ← readChoice fuel rest.tail
      return (.choose condition yes no, rest)
    | some "else" =>
      let (no, rest) ← readList fuel rest.tail
      return (.choose condition yes no, ← expect? "fi" rest)
    | _ => return (.choose condition yes .done, ← expect? "fi" rest)

end

/-- The command that a script is. -/
def parse? (script : String) : Option Command := do
  let tokens ← tokens? script
  match ← readList (8 * tokens.length + 8) tokens with
  | (command, []) => return command
  | _ => none

end Marksheet.Shell
