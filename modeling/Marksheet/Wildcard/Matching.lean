import Marksheet.Wildcard.Basic

/-!
# What a wildcard matches

A wildcard matches the bytes of a whole name. Matching keeps the list of all
that can be left of the name behind the pieces so far: longest first, each once.
All of them are tails of the same name, so what a run of any bytes can leave is
every tail of the longest.
-/

namespace Marksheet.Wildcard

/-- The bytes of a character. -/
def bytesOf (c : Char) : List UInt8 := String.utf8EncodeChar c

/-- The bytes of a text. -/
def textBytes (text : String) : List UInt8 := text.toUTF8.toList

/-- The separator of a path. -/
def separator : UInt8 := 0x2F

/-- All tails of a list, longest first. -/
def tails {α : Type} : List α → List (List α)
  | [] => [[]]
  | a :: rest => (a :: rest) :: tails rest

/-- The tails that stand behind a separator, longest first. -/
def tailsBehindSeparator : List UInt8 → List (List UInt8)
  | [] => []
  | b :: rest =>
    if b = separator then rest :: tailsBehindSeparator rest else tailsBehindSeparator rest

/-- The byte ranges that a range of characters stands for: its ends byte by byte, and a true range
only from the last byte of the first to the first byte of the last. -/
def rangeBytes (range : Char × Char) : List (UInt8 × UInt8) :=
  let single (b : UInt8) := (b, b)
  if range.1 = range.2 then (bytesOf range.1).map single
  else
    let first := bytesOf range.1
    let last := bytesOf range.2
    match first.getLast?, last with
    | some low, high :: rest => first.dropLast.map single ++ [(low, high)] ++ rest.map single
    | _, _ => []

/-- A byte is in the set. -/
def inSet (ranges : List (Char × Char)) (b : UInt8) : Bool :=
  (ranges.flatMap rangeBytes).any fun range => range.1 ≤ b && b ≤ range.2

/-- Put two lists together, longest first, each length once. -/
def merge : List (List UInt8) → List (List UInt8) → List (List UInt8)
  | lefts, rights =>
    (lefts ++ rights).mergeSort (fun a b => b.length ≤ a.length) |>.foldr
      (fun a kept => match kept.head? with
        | some b => if a.length = b.length then kept else a :: kept
        | none => [a]) []

mutual

/-- A piece stands for nothing at all, so a branch of such pieces is left out. -/
def isVoid : Piece → Bool
  | .either branches => allVoid branches
  | _ => false

/-- Every piece stands for nothing at all. -/
def isVoidBranch : List Piece → Bool
  | [] => true
  | piece :: rest => isVoid piece && isVoidBranch rest

/-- Every branch stands for nothing at all. -/
def allVoid : List (List Piece) → Bool
  | [] => true
  | branch :: rest => isVoidBranch branch && allVoid rest

end

mutual

/-- What a piece can leave of the given remainders. -/
def leave (inputs : List (List UInt8)) : Piece → List (List UInt8)
  | .literal c =>
    inputs.filterMap fun bs =>
      if (bytesOf c).isPrefixOf bs then some (bs.drop (bytesOf c).length) else none
  | .one =>
    inputs.filterMap fun bs => match bs with
      | [] => none
      | _ :: rest => some rest
  | .run =>
    match inputs with
    | [] => []
    | longest :: _ => tails longest
  | .set negated ranges =>
    inputs.filterMap fun bs => match bs with
      | [] => none
      | b :: rest => if inSet ranges b != negated then some rest else none
  | .either branches => if allVoid branches then inputs else leaveEither inputs branches
  | .leading =>
    match inputs with
    | [] => []
    | longest :: _ => merge inputs (tailsBehindSeparator longest)
  | .trailing =>
    match inputs.find? (·.head? = some separator) with
    | some (_ :: rest) => tails rest
    | _ => []
  | .between =>
    match inputs.find? (·.head? = some separator) with
    | some bs => tailsBehindSeparator bs
    | none => []

/-- What a sequence of pieces can leave. -/
def leaveAll (inputs : List (List UInt8)) : List Piece → List (List UInt8)
  | [] => inputs
  | piece :: rest => leaveAll (leave inputs piece) rest

/-- What any of the branches can leave. -/
def leaveEither (inputs : List (List UInt8)) : List (List Piece) → List (List UInt8)
  | [] => []
  | branch :: rest =>
    let others := leaveEither inputs rest
    if isVoidBranch branch then others else merge (leaveAll inputs branch) others

end

/-- A wildcard matches a name. Two stars alone match everything. -/
def isMatch (pieces : List Piece) (name : String) : Bool :=
  match pieces with
  | [.leading] => true
  | pieces => (leaveAll [textBytes name] pieces).contains []

end Marksheet.Wildcard
