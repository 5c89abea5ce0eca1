import Marksheet.Settings.Valid
import Marksheet.Yaml.Typed

/-!
# Reading settings

Settings are read from the mapping of a YAML document: each known key sets its
field, once; other keys do not count, and fields without a key keep their
default. The first thing that is wrong in the order of the text is reported,
with the key it belongs to and its place. A text of nothing but blanks gives
the standard settings.
-/

namespace Marksheet.Settings

open Yaml (Part Mark Document Scalar Found)

/-- The fields of settings. -/
inductive Field where
  | defaultFile | batchGlob | exclude | scriptedInputs | padExtra | padValue | echoPrompts
  | python | timeoutSecs | randomSeed | lineLimit | headerLines | minQuestions | promptMarker
  deriving DecidableEq, Repr, Inhabited

namespace Field

/-- All fields. -/
def all : List Field :=
  [defaultFile, batchGlob, exclude, scriptedInputs, padExtra, padValue, echoPrompts, python,
    timeoutSecs, randomSeed, lineLimit, headerLines, minQuestions, promptMarker]

/-- The key of a field. -/
def key : Field → String
  | defaultFile => "default_file"
  | batchGlob => "batch_glob"
  | exclude => "exclude"
  | scriptedInputs => "scripted_inputs"
  | padExtra => "pad_extra"
  | padValue => "pad_value"
  | echoPrompts => "echo_prompts"
  | python => "python"
  | timeoutSecs => "timeout_secs"
  | randomSeed => "random_seed"
  | lineLimit => "line_limit"
  | headerLines => "header_lines"
  | minQuestions => "min_questions"
  | promptMarker => "prompt_marker"

/-- The field with a key. -/
def ofKey? (text : String) : Option Field := all.find? (·.key = text)

/-- A field is found by its key. -/
theorem ofKey?_key (field : Field) : ofKey? field.key = some field := by
  cases field <;> decide

end Field

/-- What is wrong with a value. -/
inductive Mistake where
  | wrongType (found : Found) (expected : String)
  | wrongValue (text expected : String)
  | repeatedKey (field : Field)
  deriving DecidableEq, Repr, Inhabited

/-- A mistake in words. -/
def Mistake.words : Mistake → String
  | wrongType found expected => "invalid type: " ++ found.words ++ ", expected " ++ expected
  | wrongValue text expected =>
    "invalid value: " ++ (Found.text text).words ++ ", expected " ++ expected
  | repeatedKey field => "duplicate field `" ++ field.key ++ "`"

/-- Why a text gives no settings. -/
inductive Unreadable where
  /-- A value is wrong, under a path of keys and at a place. -/
  | mistake (mistake : Mistake) (path : String) (place : Mark)
  | fault (fault : Yaml.Fault)
  | blocked (before : Nat)
  | unknownAnchor (place : Mark)
  | severalDocuments
  | cutShort
  deriving DecidableEq, Repr, Inhabited

/-- The message about a text that gives no settings. -/
def Unreadable.message : Unreadable → String
  | mistake wrong path place =>
    (if path.isEmpty then "" else path ++ ": ") ++ wrong.words ++ place.suffix
  | fault found => found.message
  | blocked before =>
    "control characters are not allowed" ++
      if before = 0 then "" else " at position " ++ toString before
  | unknownAnchor place => "unknown anchor" ++ place.suffix
  | severalDocuments =>
    "deserializing from YAML containing more than one document is not supported"
  | cutShort => "EOF while parsing a value"

/-- What a document's ending says where more was to come. -/
def Unreadable.ofEnding : Yaml.Ending → Unreadable
  | .fault found => .fault found
  | .blocked before => .blocked before
  | .unknownAnchor place => .unknownAnchor place
  | .complete | .followed => .cutShort

/-- The parts that are left of a document. -/
abbrev Parts := List (Part × Mark)

/-- Reading a value at the first part gives the value and the parts behind it. -/
abbrev Reading (α : Type) := Parts → Except Unreadable (α × Parts)

/-- The first part and those behind it. -/
def first (document : Document) : Parts → Except Unreadable ((Part × Mark) × Parts)
  | [] => .error (.ofEnding document.ending)
  | part :: rest => .ok (part, rest)

/-- Read at what an alias refers to, or else here; behind an alias only the alias is passed. -/
def follow {α : Type} (document : Document) (read : Reading α) : Reading α := fun parts => do
  let ((part, _), rest) ← first document parts
  match part with
  | .alias number =>
    match document.from? number with
    | some target =>
      let (value, _) ← read target
      return (value, rest)
    | none => .error .cutShort
  | _ => read parts

/-- The mistake of a part that is not what is expected. -/
def wrongPart (part : Part) (expected path : String) (place : Mark) : Unreadable :=
  match part with
  | .scalar scalar =>
    match scalar.found with
    | .ok found => .mistake (.wrongType found expected) path place
    | .error tag => .mistake (.wrongValue scalar.text tag) path place
  | .mappingStart => .mistake (.wrongType .mapping expected) path place
  | .sequenceStart => .mistake (.wrongType .sequence expected) path place
  | _ => .cutShort

/-- Read one scalar by a function on it. -/
def readScalar {α : Type} (document : Document) (expected path : String)
    (value? : Scalar → Option α) : Reading α :=
  follow document fun parts => do
    let ((part, place), rest) ← first document parts
    match part with
    | .scalar scalar =>
      match value? scalar with
      | some value => return (value, rest)
      | none => .error (wrongPart part expected path place)
    | _ => .error (wrongPart part expected path place)

/-- Read a text; any scalar is one. -/
def readText (document : Document) (path : String) : Reading String :=
  readScalar document "a string" path fun scalar => some scalar.text

/-- Read a count. -/
def readCount (document : Document) (expected path : String) : Reading Nat :=
  readScalar document expected path fun scalar =>
    if scalar.readsAs Yaml.intTag then Yaml.countOf? scalar.text else none

/-- Read a truth value. -/
def readBool (document : Document) (path : String) : Reading Bool :=
  readScalar document "a boolean" path fun scalar =>
    if scalar.readsAs Yaml.boolTag then Yaml.boolOf? scalar.text else none

/-- Read a value that may be absent; `around` is the place of the mapping it stands in. -/
def readOptional {α : Type} (document : Document) (around : Mark) (read : Reading α) :
    Reading (Option α) :=
  follow document fun parts => do
    let ((part, _), rest) ← first document parts
    let present := fun (_ : Unit) => do
      let (value, rest) ← read parts
      return (some value, rest)
    match part with
    | .scalar scalar =>
      if !scalar.plain then present ()
      else if scalar.tag = some Yaml.nullTag then
        if Yaml.isNullWord scalar.text then return (none, rest)
        else .error (.mistake (.wrongValue scalar.text "null") "" around)
      else if scalar.tag.isSome then present ()
      else if scalar.text.isEmpty || Yaml.isNullWord scalar.text then return (none, rest)
      else present ()
    | _ => present ()

/-- Read the texts of a sequence up to its end; each is one part. -/
def readTextsFrom (document : Document) (path : String) (index : Nat) : Reading (List String)
  | [] => .error (.ofEnding document.ending)
  | (.sequenceEnd, _) :: rest => .ok ([], rest)
  | part :: rest => do
    let (text, _) ← readText document (path ++ "[" ++ toString index ++ "]") (part :: rest)
    let (texts, rest) ← readTextsFrom document path (index + 1) rest
    return (text :: texts, rest)

/-- Read a sequence of texts; a value that is left out is an empty one. -/
def readTexts (document : Document) (path : String) : Reading (List String) :=
  follow document fun parts => do
    let ((part, place), rest) ← first document parts
    match part with
    | .sequenceStart => readTextsFrom document path 0 rest
    | .scalar scalar =>
      if scalar.plain && scalar.text.isEmpty then return ([], rest)
      else .error (wrongPart part "a sequence" path place)
    | _ => .error (wrongPart part "a sequence" path place)

/-- Pass over one node, with so many collections open. -/
def passNode (document : Document) : (depth : Nat) → Parts → Except Unreadable Parts
  | _, [] => .error (.ofEnding document.ending)
  | depth, (part, _) :: rest =>
    match part with
    | .sequenceStart | .mappingStart => passNode document (depth + 1) rest
    | .sequenceEnd | .mappingEnd =>
      if depth ≤ 1 then .ok rest else passNode document (depth - 1) rest
    | _ => if depth = 0 then .ok rest else passNode document depth rest

/-- Read the value of a field into settings; `around` is the place of the mapping. -/
def readField (document : Document) (around : Mark) (path : String) (settings : Settings)
    (field : Field) : Reading Settings := fun parts => do
  let set {α : Type} (read : Reading α) (put : α → Settings) : Except Unreadable (Settings × Parts) := do
    let (value, rest) ← read parts
    return (put value, rest)
  let count := readCount document "usize" path
  let wide := readCount document "u64" path
  let text := readText document path
  match field with
  | .defaultFile => set text fun v => { settings with defaultFile := v }
  | .batchGlob => set text fun v => { settings with batchGlob := v }
  | .exclude => set (readTexts document path) fun v => { settings with exclude := v }
  | .scriptedInputs => set (readTexts document path) fun v => { settings with scriptedInputs := v }
  | .padExtra => set count fun v => { settings with padExtra := v }
  | .padValue =>
    set (readOptional document around text) fun v => { settings with padValue := v }
  | .echoPrompts => set (readBool document path) fun v => { settings with echoPrompts := v }
  | .python => set text fun v => { settings with python := v }
  | .timeoutSecs => set wide fun v => { settings with timeoutSecs := v }
  | .randomSeed =>
    set (readOptional document around wide) fun v => { settings with randomSeed := v }
  | .lineLimit => set count fun v => { settings with lineLimit := v }
  | .headerLines => set count fun v => { settings with headerLines := v }
  | .minQuestions => set count fun v => { settings with minQuestions := v }
  | .promptMarker => set text fun v => { settings with promptMarker := v }

/-- Read the entries of the mapping at a place up to its end, given the fields that have been read;
each entry has at least one part. -/
def readEntries (document : Document) (around : Mark) (read : List Field) (settings : Settings) :
    (fuel : Nat) → Reading Settings
  | 0, _ => .error .cutShort
  | fuel + 1, parts => do
    let ((part, _), rest) ← first document parts
    match part with
    | .mappingEnd => return (settings, rest)
    | _ =>
      let path := match part with
        | .scalar scalar => scalar.text
        | _ => "?"
      let (key, rest) ← readScalar document "field identifier" "" (fun s => some s.text) parts
      match Field.ofKey? key with
      | none =>
        let rest ← passNode document 0 rest
        readEntries document around read settings fuel rest
      | some field =>
        if read.contains field then .error (.mistake (.repeatedKey field) "" around)
        else
          let (settings, rest) ← readField document around path settings field rest
          readEntries document around (field :: read) settings fuel rest

/-- Read the settings that a document holds. -/
def ofDocument (document : Document) : Except Unreadable Settings := do
  let ((part, place), rest) ← first document document.parts
  let settings ← match part with
    | .mappingStart => do
      let (settings, _) ←
        readEntries document place [] standard (document.parts.length + 1) rest
      pure settings
    | .nothing => pure standard
    | .scalar scalar =>
      if scalar.plain && scalar.text.isEmpty then pure standard
      else .error (wrongPart part "struct GraderConfig" "" place)
    | _ => .error (wrongPart part "struct GraderConfig" "" place)
  match document.ending with
  | .complete => return settings
  | .followed => .error .severalDocuments
  | ending => .error (.ofEnding ending)

/-- Read settings from a text. -/
def ofText (text : String) : Except Unreadable Settings :=
  if Text.blankText text then .ok standard else ofDocument (.ofText text)

end Marksheet.Settings
