import Marksheet.Yaml.Event

/-!
# The first document of a YAML text

A document is the list of its parts, up to its end or to the first fault. An
alias refers to a part by its anchor's number, which is how many names were
known when the anchor was read; a later anchor with the same number takes its
place. A text without any document has one part that stands for nothing.
-/

namespace Marksheet.Yaml

/-- A part of a document. -/
inductive Part where
  | alias (number : Nat)
  | scalar (scalar : Scalar)
  | sequenceStart
  | sequenceEnd
  | mappingStart
  | mappingEnd
  | nothing
  deriving DecidableEq, Repr, Inhabited

/-- Why no parts follow. -/
inductive Ending where
  /-- The document is at its end, and so is the text. -/
  | complete
  /-- The document is at its end, and something follows it. -/
  | followed
  | fault (fault : Fault)
  /-- The text holds a character that no YAML text may hold, behind so many bytes. -/
  | blocked (before : Nat)
  | unknownAnchor (mark : Mark)
  deriving DecidableEq, Repr, Inhabited

/-- A document that has been read. -/
structure Document where
  parts : List (Part × Mark)
  /-- The place of the part with an anchor's number in the list. -/
  anchors : List (Nat × Nat)
  ending : Ending
  deriving Inhabited

namespace Document

/-- What has been read of a document. -/
structure Progress where
  /-- The parts, newest first. -/
  parts : List (Part × Mark)
  /-- How many parts there are. -/
  count : Nat
  /-- The numbers of the names that are known. -/
  names : List (String × Nat)
  anchors : List (Nat × Nat)
  deriving Inhabited

/-- Append a part; its anchor gets the number of names known. -/
def Progress.push (progress : Progress) (part : Part) (mark : Mark)
    (anchor : Option String) : Progress :=
  let progress := match anchor with
    | none => progress
    | some name =>
      let number := progress.names.length
      let others := progress.names.filter fun (known : String × Nat) => known.1 ≠ name
      { progress with
        names := (name, number) :: others
        anchors := (number, progress.count) :: progress.anchors }
  { progress with parts := (part, mark) :: progress.parts, count := progress.count + 1 }

/-- The document so far, with its ending. -/
def Progress.finish (progress : Progress) (ending : Ending) : Document :=
  ⟨progress.parts.reverse, progress.anchors, ending⟩

/-- What follows a document: another one or a fault, or nothing. -/
def endingBehind (stream : EventStream) : Ending :=
  match stream.step with
  | .ok ⟨.streamEnd, _, _⟩ => .complete
  | _ => .followed

/-- Read the parts of a document, at most so many events. -/
def read (progress : Progress) : (fuel : Nat) → EventStream → Document
  | 0, _ => progress.finish .complete
  | fuel + 1, stream =>
    match stream.step with
    | .error fault => progress.finish (.fault fault)
    | .ok ⟨event, mark, stream⟩ =>
      match event with
      | .streamStart | .documentStart => read progress fuel stream
      | .streamEnd => (progress.push .nothing mark none).finish .complete
      | .documentEnd => progress.finish (endingBehind stream)
      | .alias name =>
        match progress.names.lookup name with
        | some number => read (progress.push (.alias number) mark none) fuel stream
        | none => progress.finish (.unknownAnchor mark)
      | .scalar scalar anchor => read (progress.push (.scalar scalar) mark anchor) fuel stream
      | .sequenceStart anchor => read (progress.push .sequenceStart mark anchor) fuel stream
      | .sequenceEnd => read (progress.push .sequenceEnd mark none) fuel stream
      | .mappingStart anchor => read (progress.push .mappingStart mark anchor) fuel stream
      | .mappingEnd => read (progress.push .mappingEnd mark none) fuel stream

/-- Read the first document of a text. A mark of byte order at its beginning does not count. Each
character brings a few events at most. -/
def ofText (text : String) : Document :=
  let chars := text.toList
  let (before, chars) := match chars with
    | c :: rest => if c = Char.ofNat 0xFEFF then (c.utf8Size, rest) else (0, chars)
    | [] => (0, [])
  match blocked? before chars with
  | some before => (⟨[], 0, [], []⟩ : Progress).finish (.blocked before)
  | none =>
    let chars := unbroken chars
    read ⟨[], 0, [], []⟩ (16 * chars.length + 64) (.ofChars chars)

/-- The parts from the one with an anchor's number on. -/
def from? (document : Document) (number : Nat) : Option (List (Part × Mark)) :=
  (document.anchors.lookup number).map document.parts.drop

end Document

end Marksheet.Yaml
