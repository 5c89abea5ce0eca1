import Marksheet.Yaml.Character

/-!
# Gaps inside a scalar

A scalar may go on over several lines. Between its parts, spaces on one line
are kept; a single line break becomes a space, and further breaks stay. A first
break that is one of Unicode's separators, or that is escaped, is not turned
into a space.
-/

namespace Marksheet.Yaml

/-- What has been read since the last part of a scalar. -/
inductive Gap where
  /-- Spaces on the line of the last part, newest first. -/
  | spaces (read : List Char)
  /-- A first break, if it is not an escaped one, and further breaks, newest first. -/
  | breaks (first : Option Char) (further : List Char)
  deriving DecidableEq, Repr, Inhabited

namespace Gap

/-- There is nothing between two parts. -/
def none : Gap := .spaces []

/-- The gap goes over a line break. -/
def broken : Gap → Bool
  | .spaces _ => false
  | .breaks .. => true

/-- The gap with a space, a tab or a break more. -/
def push (gap : Gap) (c : Char) : Gap :=
  match gap with
  | .spaces read => if isBreak c then .breaks (some c) [] else .spaces (c :: read)
  | .breaks first further =>
    if isBreak c then .breaks first (c :: further) else .breaks first further

/-- What a gap stands for, newest first. -/
def folded : Gap → List Char
  | .spaces read => read
  | .breaks (some '\n') [] => [' ']
  | .breaks (some '\n') further => further
  | .breaks first further => further ++ first.toList

end Gap

end Marksheet.Yaml
