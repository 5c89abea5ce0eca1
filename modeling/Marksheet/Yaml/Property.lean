import Marksheet.Yaml.Character

/-!
# Anchors and tags

A node may have an anchor, by which aliases refer to it, and a tag. A tag is
written in full between angle brackets, or as a handle with a suffix. Octets
written by number are read for their form only: beyond ASCII each of them is
kept as one and the same sign, which no known tag holds.
-/

namespace Marksheet.Yaml

/-- What was read, the mark behind it, and what stands there. -/
structure Read (α : Type) where
  value : α
  mark : Mark
  rest : List Char
  deriving Inhabited

/-- A character that may stand right behind an anchor. -/
def endsAnchor : List Char → Bool
  | [] => true
  | c :: _ =>
    isGap c || c = '?' || c = ':' || c = ',' || c = ']' || c = '\x7d' || c = '%' || c = '@' ||
      c = Char.ofNat 96

/-- Read the name of an anchor or an alias behind its mark. -/
def readAnchor (context : String) (start : Mark) (text : List Char) : Except Fault (Read String) :=
  let name := text.takeWhile isNameChar
  let rest := text.drop name.length
  let mark := (start.forward 1).forward name.length
  if name.isEmpty || !endsAnchor rest then
    .error (.within context start "did not find expected alphabetic or numeric character" mark)
  else .ok ⟨String.ofList name, mark, rest⟩

/-- A tag by its handle and its suffix. -/
structure TagName where
  handle : String
  suffix : String
  deriving DecidableEq, Repr, Inhabited

/-- A character of a tag; commas and brackets only where it is written in full. -/
def isTagChar (full : Bool) (c : Char) : Bool :=
  isNameChar c || ";/?:@&=+$.%!~*'()".toList.contains c || (full && ",[]".toList.contains c)

/-- How many octets the sequence has that begins with an octet. -/
def sequenceLength? (octet : Nat) : Option Nat :=
  if octet < 0x80 then some 1
  else if 0xC0 ≤ octet && octet < 0xE0 then some 2
  else if 0xE0 ≤ octet && octet < 0xF0 then some 3
  else if 0xF0 ≤ octet && octet < 0xF8 then some 4
  else none

/-- What has been read of a tag. -/
structure TagState where
  mark : Mark
  /-- The tag so far, newest first. -/
  text : List Char
  /-- How many octets of a sequence are still to come. -/
  octets : Nat
  /-- How many characters have been dealt with already. -/
  skip : Nat
  deriving Inhabited

/-- The octet that is written by number behind a percent sign. -/
def octetOf? : List Char → Option Nat
  | a :: b :: _ => do return (← hexValue? a) * 16 + (← hexValue? b)
  | _ => none

/-- Read the characters of a tag. -/
def readTagText (full : Bool) (context : String) (start : Mark) (state : TagState) :
    List Char → Except Fault (Read (List Char))
  | [] =>
    if state.octets ≠ 0 then
      .error (.within context start "did not find URI escaped octet" state.mark)
    else .ok ⟨state.text.reverse, state.mark, []⟩
  | c :: rest =>
    let behind := state.mark.step c
    match state.skip with
    | skip + 1 => readTagText full context start { state with mark := behind, skip := skip } rest
    | 0 =>
      let fault (problem : String) := Fault.within context start problem state.mark
      if state.octets ≠ 0 || c = '%' then
        match if c = '%' then octetOf? rest else none with
        | none => .error (fault "did not find URI escaped octet")
        | some octet =>
          let sign := if octet < 0x80 then Char.ofNat octet else Char.ofNat 0xFFFD
          if state.octets = 0 then
            match sequenceLength? octet with
            | none => .error (fault "found an incorrect leading UTF-8 octet")
            | some length =>
              readTagText full context start ⟨behind, sign :: state.text, length - 1, 2⟩ rest
          else if 0x80 ≤ octet && octet < 0xC0 then
            readTagText full context start ⟨behind, sign :: state.text, state.octets - 1, 2⟩ rest
          else .error (fault "found an incorrect trailing UTF-8 octet")
      else if isTagChar full c then
        readTagText full context start ⟨behind, c :: state.text, 0, 0⟩ rest
      else .ok ⟨state.text.reverse, state.mark, c :: rest⟩

/-- Read the suffix of a tag; what has been read of it before is given without its first mark. -/
def readTagUri (full directive : Bool) (head : List Char) (start mark : Mark) (text : List Char) :
    Except Fault (Read String) := do
  let context := if directive then "while parsing a %TAG directive" else "while parsing a tag"
  let found ← readTagText full context start ⟨mark, [], 0, 0⟩ text
  if head.isEmpty && found.value.isEmpty then
    .error (.within context start "did not find expected tag URI" found.mark)
  else return ⟨String.ofList (head.tail ++ found.value), found.mark, found.rest⟩

/-- Read the handle of a tag: a mark, a name, and often another mark. -/
def readHandle (directive : Bool) (start mark : Mark) (text : List Char) :
    Except Fault (Read (List Char)) :=
  match text with
  | '!' :: behind =>
    let name := behind.takeWhile isNameChar
    let mark := mark.forward (1 + name.length)
    match behind.drop name.length with
    | '!' :: rest => .ok ⟨'!' :: name ++ ['!'], mark.forward 1, rest⟩
    | rest =>
      if directive && !name.isEmpty then
        .error (.within "while parsing a tag directive" start "did not find expected '!'" mark)
      else .ok ⟨'!' :: name, mark, rest⟩
  | _ =>
    .error (.within
      (if directive then "while scanning a tag directive" else "while scanning a tag") start
      "did not find expected '!'" mark)

/-- Read a tag at its first character. -/
def readTag (inBrackets : Bool) (start : Mark) (text : List Char) :
    Except Fault (Read TagName) := do
  let found ← match text with
    | '!' :: '<' :: behind => do
      let uri ← readTagUri true false [] start (start.forward 2) behind
      match uri.rest with
      | '>' :: rest => pure ⟨⟨"", uri.value⟩, uri.mark.forward 1, rest⟩
      | _ =>
        .error (.within "while scanning a tag" start "did not find the expected '>'" uri.mark)
    | _ => do
      let handle ← readHandle false start start text
      if 2 ≤ handle.value.length && handle.value.getLast? = some '!' then
        let uri ← readTagUri false false [] start handle.mark handle.rest
        pure ⟨⟨String.ofList handle.value, uri.value⟩, uri.mark, uri.rest⟩
      else
        let uri ← readTagUri false false handle.value start handle.mark handle.rest
        let name : TagName := if uri.value.isEmpty then ⟨"", "!"⟩ else ⟨"!", uri.value⟩
        pure ⟨name, uri.mark, uri.rest⟩
  if gapFollows found.rest || (inBrackets && found.rest.head? = some ',') then return found
  else
    .error (.within "while scanning a tag" start "did not find expected whitespace or line break"
      found.mark)

end Marksheet.Yaml
