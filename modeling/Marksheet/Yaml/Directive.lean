import Marksheet.Yaml.Property

/-!
# Directives

A line that begins with a percent sign is a directive: it names the version of
YAML, or what a handle of tags stands for.
-/

namespace Marksheet.Yaml

/-- A directive. -/
inductive Directive where
  | version (major minor : Nat)
  | tag (handle : String) (meaning : String)
  deriving DecidableEq, Repr, Inhabited

/-- Read a number of a version. -/
def readVersionNumber (start mark : Mark) (text : List Char) : Except Fault (Read Nat) :=
  let context := "while scanning a %YAML directive"
  let digits := text.takeWhile isDigit
  if 9 < digits.length then
    .error (.within context start "found extremely long version number" (mark.forward 9))
  else if digits.isEmpty then
    .error (.within context start "did not find expected version number" mark)
  else
    .ok ⟨digits.foldl (fun value c => value * 10 + (c.toNat - '0'.toNat)) 0,
      mark.forward digits.length, text.drop digits.length⟩

/-- Pass over spaces on a line. -/
def passSpaces (mark : Mark) (text : List Char) : Mark × List Char :=
  let spaces := text.takeWhile isSpace
  (mark.forward spaces.length, text.drop spaces.length)

/-- Read a version. -/
def readVersion (start mark : Mark) (text : List Char) : Except Fault (Read Directive) := do
  let (mark, text) := passSpaces mark text
  let major ← readVersionNumber start mark text
  match major.rest with
  | '.' :: rest =>
    let minor ← readVersionNumber start (major.mark.forward 1) rest
    return ⟨.version major.value minor.value, minor.mark, minor.rest⟩
  | _ =>
    .error (.within "while scanning a %YAML directive" start
      "did not find expected digit or '.' character" major.mark)

/-- Read what a handle stands for. -/
def readTagDirective (start mark : Mark) (text : List Char) : Except Fault (Read Directive) := do
  let (mark, text) := passSpaces mark text
  let handle ← readHandle true start mark text
  match handle.rest with
  | c :: _ =>
    if isSpace c then
      let (mark, text) := passSpaces handle.mark handle.rest
      let uri ← readTagUri true true [] start mark text
      if gapFollows uri.rest then
        return ⟨.tag (String.ofList handle.value) uri.value, uri.mark, uri.rest⟩
      else
        .error (.within "while scanning a %TAG directive" start
          "did not find expected whitespace or line break" uri.mark)
    else
      .error (.within "while scanning a %TAG directive" start "did not find expected whitespace"
        handle.mark)
  | [] =>
    .error (.within "while scanning a %TAG directive" start "did not find expected whitespace"
      handle.mark)

/-- Read a directive at its percent sign, up to the end of its line. -/
def readDirective (start : Mark) (text : List Char) : Except Fault (Read Directive) := do
  let context := "while scanning a directive"
  let name := text.tail.takeWhile isNameChar
  let mark := start.forward (1 + name.length)
  let rest := text.drop (1 + name.length)
  if name.isEmpty then
    .error (.within context start "could not find expected directive name" mark)
  else if !gapFollows rest then
    .error (.within context start "found unexpected non-alphabetical character" mark)
  else
    let found ←
      if name = "YAML".toList then readVersion start mark rest
      else if name = "TAG".toList then readTagDirective start mark rest
      else .error (.within context start "found unknown directive name" mark)
    let (mark, text) := passSpaces found.mark found.rest
    let remark := if text.head? = some '#' then text.takeWhile (!isBreak ·) else []
    let mark := mark.forward remark.length
    match text.drop remark.length with
    | [] => return ⟨found.value, mark, []⟩
    | c :: rest =>
      if isBreak c then return ⟨found.value, mark.step c, rest⟩
      else
        .error (.within context start "did not find expected comment or line break" mark)

end Marksheet.Yaml
