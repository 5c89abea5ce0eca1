/-!
# Wildcards

A wildcard is a sequence of pieces, read from its text by `parse`. An
alternative may be any sequence of pieces again. A piece is written by itself,
by `?`, `*`, a set in brackets or alternatives in braces; two stars next to a
separator stand for whole directories. A backslash makes the character behind
it stand for itself.
-/

namespace Marksheet.Wildcard

/-- A part of a wildcard. -/
inductive Piece where
  | literal (c : Char)
  /-- Any one byte. -/
  | one
  /-- Any run of bytes. -/
  | run
  /-- One byte of a set, or one outside it. -/
  | set (negated : Bool) (ranges : List (Char × Char))
  /-- Any one of several sequences. -/
  | either (branches : List (List Piece))
  /-- Nothing, or anything that ends in a separator. -/
  | leading
  /-- A separator with anything behind it. -/
  | trailing
  /-- A separator, or two with anything in between. -/
  | between
  deriving Inhabited

/-- Why a text is no wildcard. -/
inductive Fault where
  | unclosedSet
  | invalidRange (first last : Char)
  | unopenedGroup
  | unclosedGroup
  | danglingEscape
  deriving DecidableEq, Repr, Inhabited

namespace Fault

/-- What a fault is called. -/
def detail : Fault → String
  | unclosedSet => "unclosed character class; missing ']'"
  | invalidRange first last =>
    "invalid range; '" ++ String.singleton first ++ "' > '" ++ String.singleton last ++ "'"
  | unopenedGroup => "unopened alternate group; missing '\x7b' (maybe escape '\x7d' with '[\x7d]'?)"
  | unclosedGroup => "unclosed alternate group; missing '\x7d' (maybe escape '\x7b' with '[\x7b]'?)"
  | danglingEscape => "dangling '\\'"

/-- The message about a text that is no wildcard. -/
def message (pattern : String) (fault : Fault) : String :=
  "error parsing glob '" ++ pattern ++ "': " ++ fault.detail

end Fault

/-- A group that is open: the pieces before it, newest first, and its finished branches, newest
first. -/
structure Group where
  outer : List Piece
  branches : List (List Piece)
  deriving Inhabited

/-- A set that is open. -/
structure OpenSet where
  negated : Bool
  /-- The ranges, newest first. -/
  ranges : List (Char × Char)
  /-- Nothing of the set has been read yet. -/
  first : Bool
  /-- A dash has been read that may join the newest range to what follows. -/
  dash : Bool
  deriving Inhabited

/-- How the next character is read. -/
inductive Mode where
  | plain
  /-- A backslash is open. -/
  | escaped
  /-- So many characters have been dealt with already. -/
  | skip (count : Nat)
  /-- An opening bracket has been read. -/
  | opened
  | inSet (set : OpenSet)
  deriving Inhabited

/-- What has been read of a wildcard. -/
structure State where
  mode : Mode
  /-- The character before the next one. -/
  previous : Option Char
  /-- The pieces of the innermost branch, newest first. -/
  current : List Piece
  /-- The open groups, innermost first. -/
  groups : List Group
  deriving Inhabited

namespace State

/-- Nothing has been read. -/
def start : State := ⟨.plain, none, [], []⟩

/-- Append a piece to the innermost branch. -/
def push (state : State) (piece : Piece) : State :=
  { state with current := piece :: state.current }

/-- Extend the newest range of a set to a character. -/
def extend (set : OpenSet) (c : Char) : Except Fault OpenSet :=
  match set.ranges with
  | (first, _) :: others =>
    if c < first then .error (.invalidRange first c)
    else .ok { set with ranges := (first, c) :: others, first := false, dash := false }
  | [] => .ok set

/-- Read a character of a set; nothing closes a set before its first character. -/
def readSet (state : State) (set : OpenSet) (c : Char) : Except Fault State :=
  if c = ']' && !set.first then
    let ranges := if set.dash then ('-', '-') :: set.ranges else set.ranges
    .ok { state.push (.set set.negated ranges.reverse) with mode := .plain }
  else if c = '-' && !set.first && !set.dash then
    .ok { state with mode := .inSet ({ set with dash := true }) }
  else if !set.dash then
    let set := { set with ranges := (c, c) :: set.ranges, first := false }
    .ok { state with mode := .inSet set }
  else do
    let set ← extend set c
    return { state with mode := .inSet set }

/-- Two stars, of which the first has been read, before the given character. They stand for
directories where separators, or the ends of a branch, surround them. -/
def readStars (state : State) (behind : Option Char) : State :=
  let atSeparator := behind = some '/'
  let skip (count : Nat) (state : State) : State := { state with mode := .skip count }
  let ordinary := skip 1 ((state.push .run).push .run)
  if state.current.isEmpty then
    if atSeparator then skip 2 (state.push .leading)
    else if behind.isNone then skip 1 (state.push .leading)
    else ordinary
  else if state.previous ≠ some '/' &&
      (state.groups.isEmpty || (state.previous ≠ some ',' && state.previous ≠ some '\x7b')) then
    ordinary
  else
    let endsBranch := behind.isNone ||
      (!state.groups.isEmpty && (behind = some ',' || behind = some '\x7d'))
    if endsBranch || atSeparator then
      let piece := match state.current.head? with
        | some .leading => Piece.leading
        | some .trailing => .trailing
        | _ => if endsBranch then .trailing else .between
      skip (if endsBranch then 1 else 2) { state with current := piece :: state.current.tail }
    else ordinary

/-- Read a character outside sets, before the two given ones. -/
def readPlain (state : State) (c : Char) (next behind : Option Char) : Except Fault State :=
  if c = '?' then .ok (state.push .one)
  else if c = '*' then
    .ok (if next = some '*' then state.readStars behind else state.push .run)
  else if c = '[' then .ok { state with mode := .opened }
  else if c = '\x7b' then
    .ok { state with current := [], groups := ⟨state.current, []⟩ :: state.groups }
  else if c = '\x7d' then
    match state.groups with
    | [] => .error .unopenedGroup
    | group :: others =>
      let branches := (state.current.reverse :: group.branches).reverse
      .ok { state with current := .either branches :: group.outer, groups := others }
  else if c = ',' then
    match state.groups with
    | [] => .ok (state.push (.literal ','))
    | group :: others =>
      let group := { group with branches := state.current.reverse :: group.branches }
      .ok { state with current := [], groups := group :: others }
  else if c = '\\' then .ok { state with mode := .escaped }
  else .ok (state.push (.literal c))

/-- Read a character before the two given ones. -/
def read (state : State) (c : Char) (next behind : Option Char) : Except Fault State := do
  let state ← match state.mode with
    | .plain => state.readPlain c next behind
    | .escaped => .ok { state.push (.literal c) with mode := .plain }
    | .skip (count + 1) => .ok { state with mode := if count = 0 then .plain else .skip count }
    | .skip 0 => state.readPlain c next behind
    | .opened =>
      if c = '!' || c = '^' then .ok { state with mode := .inSet ⟨true, [], true, false⟩ }
      else state.readSet ⟨false, [], true, false⟩ c
    | .inSet set => state.readSet set c
  return { state with previous := some c }

/-- The pieces of a wildcard that has been read. -/
def finish (state : State) : Except Fault (List Piece) :=
  match state.mode with
  | .escaped => .error .danglingEscape
  | .opened | .inSet _ => .error .unclosedSet
  | .plain | .skip _ =>
    if state.groups.isEmpty then .ok state.current.reverse else .error .unclosedGroup

end State

/-- Read the rest of a wildcard. -/
def readAll (state : State) : List Char → Except Fault (List Piece)
  | [] => state.finish
  | c :: rest => do
    let state ← state.read c rest.head? rest.tail.head?
    readAll state rest

/-- Read a wildcard. -/
def parse (pattern : String) : Except Fault (List Piece) := readAll .start pattern.toList

end Marksheet.Wildcard
