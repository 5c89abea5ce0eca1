import Marksheet.Yaml.Character

/-!
# Block scalars

A block scalar is introduced by a bar or an angle bracket and is made of the
lines that are indented deeply enough. How deep is given by a digit, or by its
first line. Under a bar the lines are kept; under an angle bracket a break
between two lines that do not begin with a space is folded. A sign decides what
happens to the breaks at the end.
-/

namespace Marksheet.Yaml

/-- What happens to the breaks at the end. -/
inductive Chomping where
  /-- All of them are dropped. -/
  | strip
  /-- The first of them is kept. -/
  | clip
  /-- All of them are kept. -/
  | keep
  deriving DecidableEq, Repr, Inhabited

/-- What a block scalar begins with. -/
structure BlockHeader where
  /-- Lines are kept as they are. -/
  literal : Bool
  chomping : Chomping
  /-- How much deeper than their surroundings the lines are, if it is given. -/
  indent : Option Nat
  deriving DecidableEq, Repr, Inhabited

/-- Where the reading of a block scalar is. -/
inductive BlockMode where
  /-- In the spaces before a line. -/
  | margin
  /-- In a line. -/
  | line
  deriving DecidableEq, Repr, Inhabited

/-- What has been read of a block scalar. -/
structure BlockState where
  mark : Mark
  mode : BlockMode
  /-- The column of the lines, once it is known. -/
  column : Option Nat
  /-- The deepest column of the blank lines before the first one. -/
  deepest : Nat
  /-- The text so far, newest first. -/
  text : List Char
  /-- The break behind the last line. -/
  lastBreak : Option Char
  /-- Further breaks behind it, newest first. -/
  further : List Char
  /-- The last line begins with a space. -/
  spaced : Bool
  deriving Inhabited

/-- The column of the lines, given the deepest blank line and the column of the surroundings. -/
def lineColumn (deepest : Nat) (around : Int) : Nat :=
  max (max deepest (around + 1).toNat) 1

/-- The text with the breaks before a new line, newest first. -/
def BlockState.join (state : BlockState) (literal spaced : Bool) : List Char :=
  if !literal && state.lastBreak = some '\n' && !state.spaced && !spaced then
    if state.further.isEmpty then ' ' :: state.text else state.further ++ state.text
  else state.further ++ (state.lastBreak.toList ++ state.text)

/-- The text of a block scalar that ends here. -/
def BlockState.finish (state : BlockState) (chomping : Chomping) : String :=
  let text := match chomping with
    | .strip => state.text
    | .clip => state.lastBreak.toList ++ state.text
    | .keep => state.further ++ (state.lastBreak.toList ++ state.text)
  String.ofList text.reverse

/-- Read the lines of a block scalar; `around` is the column of its surroundings. -/
def readLines (header : BlockHeader) (around : Int) (start : Mark) (state : BlockState) :
    List Char → Except Fault (String × Mark × List Char)
  | [] => .ok (state.finish header.chomping, state.mark, [])
  | c :: rest =>
    let behind := state.mark.step c
    match state.mode with
    | .line =>
      if isBreak c then
        readLines header around start
          { state with mark := behind, mode := .margin, lastBreak := some c, further := [] } rest
      else
        readLines header around start { state with mark := behind, text := c :: state.text } rest
    | .margin =>
      let inMargin := match state.column with
        | none => true
        | some column => state.mark.column < column
      let deepest := max state.deepest state.mark.column
      if inMargin && c = ' ' then
        readLines header around start { state with mark := behind } rest
      else if inMargin && c = '\t' then
        .error (.within "while scanning a block scalar" start
          "found a tab character where an indentation space is expected" state.mark)
      else if isBreak c then
        readLines header around start
          { state with mark := behind, deepest := deepest, further := c :: state.further } rest
      else
        let column := state.column.getD (lineColumn deepest around)
        if state.mark.column = column then
          let spaced := isSpace c
          readLines header around start
            { mark := behind, mode := .line, column := some column, deepest := deepest
              text := c :: state.join header.literal spaced, lastBreak := none, further := []
              spaced := spaced } rest
        else .ok (state.finish header.chomping, state.mark, c :: rest)

/-- The sign that a header may have. -/
def chompingOf? (c : Char) : Option Chomping :=
  if c = '+' then some .keep else if c = '-' then some .strip else none

/-- The digit that a header may have; it is not zero. -/
def indentOf? (start mark : Mark) : List Char → Except Fault (Option Nat)
  | [] => .ok none
  | c :: _ =>
    if c = '0' then
      .error (.within "while scanning a block scalar" start
        "found an indentation indicator equal to 0" mark)
    else if isDigit c then .ok (some (c.toNat - '0'.toNat))
    else .ok none

/-- Read a block scalar at its first character: its text, the mark behind it, and what stands
there. -/
def readBlock (literal : Bool) (around : Int) (start : Mark) (text : List Char) :
    Except Fault (String × Mark × List Char) := do
  let mark := start.forward 1
  let text := text.tail
  let (chomping, indent, mark, text) ←
    match text.head?.bind chompingOf? with
    | some chomping => do
      let mark := mark.forward 1
      let text := text.tail
      match ← indentOf? start mark text with
      | some indent => pure (chomping, some indent, mark.forward 1, text.tail)
      | none => pure (chomping, none, mark, text)
    | none => do
      match ← indentOf? start mark text with
      | some indent =>
        let mark := mark.forward 1
        let text := text.tail
        match text.head?.bind chompingOf? with
        | some chomping => pure (chomping, some indent, mark.forward 1, text.tail)
        | none => pure (.clip, some indent, mark, text)
      | none => pure (.clip, none, mark, text)
  let spaces := text.takeWhile isSpace
  let mark := mark.forward spaces.length
  let text := text.drop spaces.length
  let remark := if text.head? = some '#' then text.takeWhile (!isBreak ·) else []
  let mark := mark.forward remark.length
  let text := text.drop remark.length
  match text with
  | c :: rest =>
    if isBreak c then
      let header : BlockHeader := ⟨literal, chomping, indent⟩
      let column := indent.map fun depth => (max around 0).toNat + depth
      readLines header around start
        ⟨mark.step c, .margin, column, 0, [], none, [], false⟩ rest
    else
      .error (.within "while scanning a block scalar" start
        "did not find expected comment or line break" mark)
  | [] => .ok ("", mark, [])

end Marksheet.Yaml
