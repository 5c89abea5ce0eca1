import Marksheet.Yaml.Scalar.Gap

/-!
# Plain scalars

A plain scalar has no quotes. It ends before a colon with a gap behind it,
before a comment, before a document indicator, inside brackets before a comma
or bracket, and outside of them before a line that is not indented deeper than
what it stands in. Line breaks fold; a gap at the end is no part of it.
-/

namespace Marksheet.Yaml

/-- A character that ends a plain scalar inside brackets. -/
def endsInBrackets (c : Char) : Bool :=
  c = ',' || c = '[' || c = ']' || c = '\x7b' || c = '\x7d'

/-- What has been read of a plain scalar. -/
structure PlainState where
  mark : Mark
  /-- The text so far, newest first. -/
  text : List Char
  gap : Gap
  /-- The mark behind the text so far. -/
  behindText : Mark
  /-- The next character is the first one, or the first one behind a gap. -/
  fresh : Bool
  deriving Inhabited

/-- A plain scalar that has been read. -/
structure PlainText where
  text : String
  /-- The mark behind the text. -/
  behindText : Mark
  /-- It was left by going on to another line. -/
  brokenOff : Bool
  mark : Mark
  rest : List Char
  deriving Inhabited

/-- Close a plain scalar before what follows. -/
def PlainState.close (state : PlainState) (rest : List Char) : PlainText :=
  ⟨String.ofList state.text.reverse, state.behindText, state.gap.broken, state.mark, rest⟩

/-- Read a plain scalar; `least` is the column that a further line has to reach. -/
def readPlain (inBrackets : Bool) (least : Nat) (start : Mark) (state : PlainState) :
    List Char → Except Fault PlainText
  | [] => .ok (state.close [])
  | c :: rest =>
    if isGap c then
      if c = '\t' && state.gap.broken && state.mark.column < least then
        .error (.within "while scanning a plain scalar" start
          "found a tab character that violates indentation" state.mark)
      else
        readPlain inBrackets least start
          { state with mark := state.mark.step c, gap := state.gap.push c, fresh := true } rest
    else
      let here := c :: rest
      let hadGap := state.gap ≠ .none
      if state.fresh && hadGap && !inBrackets && state.mark.column < least then
        .ok (state.close here)
      else if state.fresh && state.mark.column = 0 && isDocumentIndicator here then
        .ok (state.close here)
      else if state.fresh && c = '#' then .ok (state.close here)
      else if inBrackets && c = ':' &&
          (match rest with | d :: _ => d = '?' || endsInBrackets d | [] => false) then
        .error (.within "while scanning a plain scalar" start "found unexpected ':'" state.mark)
      else if (c = ':' && gapFollows rest) || (inBrackets && endsInBrackets c) then
        .ok (state.close here)
      else
        let behind := state.mark.step c
        readPlain inBrackets least start
          ⟨behind, c :: (state.gap.folded ++ state.text), .none, behind, false⟩ rest

end Marksheet.Yaml
