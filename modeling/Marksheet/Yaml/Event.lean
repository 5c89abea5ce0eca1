import Marksheet.Yaml.TokenStream

/-!
# The events of a YAML text

Events say how a document is nested: scalars and aliases, and where sequences
and mappings begin and end. What a text leaves out, such as the value of a key
without one, is an empty plain scalar. One step yields one event and takes only
the tokens that it needs.
-/

namespace Marksheet.Yaml

/-- A scalar as it is written. -/
structure Scalar where
  text : String
  /-- It is written without quotes and not as a block. -/
  plain : Bool
  /-- It is a block under a bar. -/
  literal : Bool
  /-- Its tag in full, if it has one. -/
  tag : Option String
  deriving DecidableEq, Repr, Inhabited

/-- A part of a document. -/
inductive Event where
  | alias (name : String)
  | scalar (scalar : Scalar) (anchor : Option String)
  | sequenceStart (anchor : Option String)
  | sequenceEnd
  | mappingStart (anchor : Option String)
  | mappingEnd
  | documentStart
  | documentEnd
  | streamStart
  | streamEnd
  deriving DecidableEq, Repr, Inhabited

/-- What comes next in a text. -/
inductive Stage where
  | streamStart
  | documentStart (implicit : Bool)
  | documentContent
  | documentEnd
  | blockNode
  | blockSequence (first : Bool)
  | indentlessSequence
  | blockKey (first : Bool)
  | blockValue
  | flowSequence (first : Bool)
  | pairKey
  | pairValue
  | pairEnd
  | flowKey (first : Bool)
  | flowValue (empty : Bool)
  | finished
  deriving DecidableEq, Repr, Inhabited

/-- A text whose events are being read. -/
structure EventStream where
  tokens : TokenStream
  stage : Stage
  /-- What comes behind the innermost open node, innermost first. -/
  pending : List Stage
  /-- Where the open collections began, innermost first. -/
  openings : List Mark
  /-- What the handles of the document's tags stand for. -/
  handles : List (String × String)
  deriving Inhabited

/-- An event with its mark, and the stream behind it. -/
structure Step where
  event : Event
  mark : Mark
  stream : EventStream
  deriving Inhabited

namespace EventStream

/-- The stream of a text. -/
def ofChars (text : List Char) : EventStream :=
  ⟨.ofChars text, .streamStart, [], [], []⟩

/-- The handles that every document knows. -/
def standardHandles : List (String × String) := [("!", "!"), ("!!", "tag:yaml.org,2002:")]

/-- The first token. -/
def peek (stream : EventStream) : Except Fault (Token × EventStream) := do
  let (token, tokens) ← stream.tokens.peek
  return (token, { stream with tokens := tokens })

/-- The stream behind its first token. -/
def skip (stream : EventStream) : EventStream :=
  { stream with tokens := stream.tokens.next }

/-- Go on with a stage. -/
def goTo (stream : EventStream) (stage : Stage) : EventStream := { stream with stage := stage }

/-- Read a node first and a stage behind it. -/
def later (stream : EventStream) (stage : Stage) : EventStream :=
  { stream with pending := stage :: stream.pending }

/-- Go on behind the innermost open node. -/
def resume (stream : EventStream) : EventStream :=
  { stream with stage := stream.pending.headD .finished, pending := stream.pending.tail }

/-- A collection begins. -/
def openAt (stream : EventStream) (mark : Mark) : EventStream :=
  { stream with openings := mark :: stream.openings }

/-- The innermost collection ends. -/
def close (stream : EventStream) : EventStream :=
  { stream.resume with openings := stream.openings.tail }

/-- The fault of a collection that goes on in a wrong way. -/
def collectionFault {α : Type} (stream : EventStream) (context problem : String) (token : Token) :
    Except Fault α :=
  .error (.within context (stream.openings.headD .zero) problem token.start)

/-- Yield an event. -/
def yield (stream : EventStream) (event : Event) (mark : Mark) : Except Fault Step :=
  .ok ⟨event, mark, stream⟩

/-- Yield the empty scalar that stands for what is left out. -/
def yieldEmpty (stream : EventStream) (mark : Mark) : Except Fault Step :=
  stream.yield (.scalar ⟨"", true, false, none⟩ none) mark

/-- The properties of a node. -/
structure Properties where
  anchor : Option String
  tag : Option (TagName × Mark)
  /-- Where the node begins. -/
  start : Mark
  deriving Inhabited

/-- Read the properties of a node, an anchor and a tag in either order. -/
def readProperties (stream : EventStream) : Except Fault (Properties × EventStream) := do
  let (token, stream) ← stream.peek
  let start := token.start
  match token.kind with
  | .anchor name =>
    let (second, stream) ← stream.skip.peek
    match second.kind with
    | .tag tag => return (⟨some name, some (tag, second.start), start⟩, stream.skip)
    | _ => return (⟨some name, none, start⟩, stream)
  | .tag tag =>
    let (second, stream) ← stream.skip.peek
    match second.kind with
    | .anchor name => return (⟨some name, some (tag, start), start⟩, stream.skip)
    | _ => return (⟨none, some (tag, start), start⟩, stream)
  | _ => return (⟨none, none, start⟩, stream)

/-- A tag in full. -/
def fullTag (stream : EventStream) (properties : Properties) : Except Fault (Option String) :=
  match properties.tag with
  | none => .ok none
  | some (name, mark) =>
    if name.handle.isEmpty then .ok (some name.suffix)
    else
      match stream.handles.lookup name.handle with
      | some meaning => .ok (some (meaning ++ name.suffix))
      | none =>
        .error (.within "while parsing a node" properties.start "found undefined tag handle" mark)

/-- Read a node. In a block it may be a block itself; behind a key it may be a sequence that is not
indented. -/
def readNode (stream : EventStream) (block indentless : Bool) : Except Fault Step := do
  let (first, stream) ← stream.peek
  match first.kind with
  | .alias name => stream.skip.resume.yield (.alias name) first.start
  | _ =>
    let (properties, stream) ← stream.readProperties
    let tag ← stream.fullTag properties
    let (token, stream) ← stream.peek
    let start := properties.start
    let anchor := properties.anchor
    match token.kind with
    | .dash =>
      if indentless then
        (stream.goTo .indentlessSequence).yield (.sequenceStart anchor) start
      else readEmpty stream properties tag token
    | .scalar text plain literal =>
      stream.skip.resume.yield (.scalar ⟨text, plain, literal, tag⟩ anchor) start
    | .opening .square => (stream.goTo (.flowSequence true)).yield (.sequenceStart anchor) start
    | .opening .curly => (stream.goTo (.flowKey true)).yield (.mappingStart anchor) start
    | .blockSequence =>
      if block then (stream.goTo (.blockSequence true)).yield (.sequenceStart anchor) start
      else readEmpty stream properties tag token
    | .blockMapping =>
      if block then (stream.goTo (.blockKey true)).yield (.mappingStart anchor) start
      else readEmpty stream properties tag token
    | _ => readEmpty stream properties tag token
where
  /-- A node that is nothing but its properties. -/
  readEmpty (stream : EventStream) (properties : Properties) (tag : Option String)
      (token : Token) : Except Fault Step :=
    if properties.anchor.isSome || tag.isSome then
      stream.resume.yield (.scalar ⟨"", true, false, tag⟩ properties.anchor) properties.start
    else
      .error (.within
        (if block then "while parsing a block node" else "while parsing a flow node")
        properties.start "did not find expected node content" token.start)

/-- Read the directives of a document, of which there are no more than tokens left. -/
def readDirectives (version : Bool) : Nat → EventStream → Except Fault EventStream
  | 0, stream => .ok stream
  | fuel + 1, stream => do
    let (token, stream) ← stream.peek
    match token.kind with
    | .directive (.version major minor) =>
      if version then .error (.plain "found duplicate %YAML directive" token.start)
      else if major ≠ 1 || (minor ≠ 1 && minor ≠ 2) then
        .error (.plain "found incompatible YAML document" token.start)
      else readDirectives true fuel stream.skip
    | .directive (.tag handle meaning) =>
      if (stream.handles.lookup handle).isSome then
        .error (.plain "found duplicate %TAG directive" token.start)
      else
        readDirectives version fuel
          { stream.skip with handles := stream.handles ++ [(handle, meaning)] }
    | _ => return stream

/-- Pass over marks at the end of documents. -/
def passDocumentEnds : Nat → EventStream → Except Fault EventStream
  | 0, stream => .ok stream
  | fuel + 1, stream => do
    let (token, stream) ← stream.peek
    match token.kind with
    | .documentEnd => passDocumentEnds fuel stream.skip
    | _ => return stream

/-- The number of tokens that a stream can still yield is below this. -/
def fuel (stream : EventStream) : Nat := stream.tokens.rest.length + stream.tokens.queue.length + 3

/-- Read the beginning of a document, or the end of the text. -/
def readDocumentStart (stream : EventStream) (implicit : Bool) : Except Fault Step := do
  let stream ← if implicit then pure stream else passDocumentEnds stream.fuel stream
  let (token, stream) ← stream.peek
  match token.kind with
  | .streamEnd => (stream.skip.goTo .finished).yield .streamEnd token.start
  | .directive _ | .documentStart => explicit stream token.start
  | _ =>
    if implicit then
      let stream := { stream with handles := standardHandles }
      ((stream.later .documentEnd).goTo .blockNode).yield .documentStart token.start
    else explicit stream token.start
where
  /-- A document that begins with its mark. -/
  explicit (stream : EventStream) (start : Mark) : Except Fault Step := do
    let stream ← readDirectives false stream.fuel { stream with handles := [] }
    let known := standardHandles.filter fun handle => (stream.handles.lookup handle.1).isNone
    let stream := { stream with handles := stream.handles ++ known }
    let (token, stream) ← stream.peek
    match token.kind with
    | .documentStart =>
      ((stream.skip.later .documentEnd).goTo .documentContent).yield .documentStart start
    | _ => .error (.plain "did not find expected <document start>" token.start)

/-- Read the content of a document that began with its mark. -/
def readDocumentContent (stream : EventStream) : Except Fault Step := do
  let (token, stream) ← stream.peek
  match token.kind with
  | .directive _ | .documentStart | .documentEnd | .streamEnd =>
    stream.resume.yieldEmpty token.start
  | _ => stream.readNode true false

/-- Read the end of a document. -/
def readDocumentEnd (stream : EventStream) : Except Fault Step := do
  let (token, stream) ← stream.peek
  let behind := match token.kind with
    | .documentEnd => stream.skip
    | _ => stream
  (behind.goTo (.documentStart false)).yield .documentEnd token.start

/-- Read an entry of a block sequence, or its end. -/
def readBlockSequence (stream : EventStream) (first : Bool) : Except Fault Step := do
  let stream ← if first then (fun (token, stream) => (openAt stream token.start).skip) <$> stream.peek
    else pure stream
  let (token, stream) ← stream.peek
  match token.kind with
  | .dash =>
    let (behind, stream) ← stream.skip.peek
    match behind.kind with
    | .dash | .blockEnd => (stream.goTo (.blockSequence false)).yieldEmpty token.stop
    | _ => (stream.later (.blockSequence false)).readNode true false
  | .blockEnd => stream.skip.close.yield .sequenceEnd token.start
  | _ =>
    stream.collectionFault "while parsing a block collection" "did not find expected '-' indicator"
      token

/-- Read an entry of a sequence that is not indented, or its end. -/
def readIndentless (stream : EventStream) : Except Fault Step := do
  let (token, stream) ← stream.peek
  match token.kind with
  | .dash =>
    let (behind, stream) ← stream.skip.peek
    match behind.kind with
    | .dash | .key | .value | .blockEnd => (stream.goTo .indentlessSequence).yieldEmpty token.stop
    | _ => (stream.later .indentlessSequence).readNode true false
  | _ => stream.resume.yield .sequenceEnd token.start

/-- Read a key of a block mapping, or its end. -/
def readBlockKey (stream : EventStream) (first : Bool) : Except Fault Step := do
  let stream ← if first then (fun (token, stream) => (openAt stream token.start).skip) <$> stream.peek
    else pure stream
  let (token, stream) ← stream.peek
  match token.kind with
  | .key =>
    let (behind, stream) ← stream.skip.peek
    match behind.kind with
    | .key | .value | .blockEnd => (stream.goTo .blockValue).yieldEmpty token.stop
    | _ => (stream.later .blockValue).readNode true true
  | .blockEnd => stream.skip.close.yield .mappingEnd token.start
  | _ => stream.collectionFault "while parsing a block mapping" "did not find expected key" token

/-- Read a value of a block mapping. -/
def readBlockValue (stream : EventStream) : Except Fault Step := do
  let (token, stream) ← stream.peek
  match token.kind with
  | .value =>
    let (behind, stream) ← stream.skip.peek
    match behind.kind with
    | .key | .value | .blockEnd => (stream.goTo (.blockKey false)).yieldEmpty token.stop
    | _ => (stream.later (.blockKey false)).readNode true true
  | _ => (stream.goTo (.blockKey false)).yieldEmpty token.start

/-- Read an entry between square brackets, or their end. An entry may be a pair by itself. -/
def readFlowSequence (stream : EventStream) (first : Bool) : Except Fault Step := do
  let stream ← if first then (fun (token, stream) => (openAt stream token.start).skip) <$> stream.peek
    else pure stream
  let (token, stream) ← stream.peek
  match token.kind, first with
  | .closing .square, _ => stream.skip.close.yield .sequenceEnd token.start
  | .comma, false =>
    let (token, stream) ← stream.skip.peek
    entry stream token
  | _, true => entry stream token
  | _, false =>
    stream.collectionFault "while parsing a flow sequence" "did not find expected ',' or ']'" token
where
  /-- An entry, or the end behind a comma. -/
  entry (stream : EventStream) (token : Token) : Except Fault Step :=
    match token.kind with
    | .closing .square => stream.skip.close.yield .sequenceEnd token.start
    | .key => (stream.skip.goTo .pairKey).yield (.mappingStart none) token.start
    | _ => (stream.later (.flowSequence false)).readNode false false

/-- Read the key of a pair between square brackets. -/
def readPairKey (stream : EventStream) : Except Fault Step := do
  let (token, stream) ← stream.peek
  match token.kind with
  | .value | .comma | .closing .square => (stream.skip.goTo .pairValue).yieldEmpty token.stop
  | _ => (stream.later .pairValue).readNode false false

/-- Read the value of a pair between square brackets. -/
def readPairValue (stream : EventStream) : Except Fault Step := do
  let (token, stream) ← stream.peek
  match token.kind with
  | .value =>
    let (behind, stream) ← stream.skip.peek
    match behind.kind with
    | .comma | .closing .square => (stream.goTo .pairEnd).yieldEmpty behind.start
    | _ => (stream.later .pairEnd).readNode false false
  | _ => (stream.goTo .pairEnd).yieldEmpty token.start

/-- Read the end of a pair between square brackets. -/
def readPairEnd (stream : EventStream) : Except Fault Step := do
  let (token, stream) ← stream.peek
  (stream.goTo (.flowSequence false)).yield .mappingEnd token.start

/-- Read a key between curly brackets, or their end. -/
def readFlowKey (stream : EventStream) (first : Bool) : Except Fault Step := do
  let stream ← if first then (fun (token, stream) => (openAt stream token.start).skip) <$> stream.peek
    else pure stream
  let (token, stream) ← stream.peek
  match token.kind, first with
  | .closing .curly, _ => stream.skip.close.yield .mappingEnd token.start
  | .comma, false =>
    let (token, stream) ← stream.skip.peek
    entry stream token
  | _, true => entry stream token
  | _, false =>
    stream.collectionFault "while parsing a flow mapping" "did not find expected ',' or '\x7d'"
      token
where
  /-- A key, or the end behind a comma. -/
  entry (stream : EventStream) (token : Token) : Except Fault Step :=
    match token.kind with
    | .closing .curly => stream.skip.close.yield .mappingEnd token.start
    | .key => do
      let (behind, stream) ← stream.skip.peek
      match behind.kind with
      | .value | .comma | .closing .curly =>
        (stream.goTo (.flowValue false)).yieldEmpty behind.start
      | _ => (stream.later (.flowValue false)).readNode false false
    | _ => (stream.later (.flowValue true)).readNode false false

/-- Read a value between curly brackets. -/
def readFlowValue (stream : EventStream) (empty : Bool) : Except Fault Step := do
  let (token, stream) ← stream.peek
  if empty then (stream.goTo (.flowKey false)).yieldEmpty token.start
  else
    match token.kind with
    | .value =>
      let (behind, stream) ← stream.skip.peek
      match behind.kind with
      | .comma | .closing .curly => (stream.goTo (.flowKey false)).yieldEmpty behind.start
      | _ => (stream.later (.flowKey false)).readNode false false
    | _ => (stream.goTo (.flowKey false)).yieldEmpty token.start

/-- Read the next event. -/
def step (stream : EventStream) : Except Fault Step :=
  match stream.stage with
  | .streamStart => do
    let (token, stream) ← stream.peek
    (stream.skip.goTo (.documentStart true)).yield .streamStart token.start
  | .documentStart implicit => stream.readDocumentStart implicit
  | .documentContent => stream.readDocumentContent
  | .documentEnd => stream.readDocumentEnd
  | .blockNode => stream.readNode true false
  | .blockSequence first => stream.readBlockSequence first
  | .indentlessSequence => stream.readIndentless
  | .blockKey first => stream.readBlockKey first
  | .blockValue => stream.readBlockValue
  | .flowSequence first => stream.readFlowSequence first
  | .pairKey => stream.readPairKey
  | .pairValue => stream.readPairValue
  | .pairEnd => stream.readPairEnd
  | .flowKey first => stream.readFlowKey first
  | .flowValue empty => stream.readFlowValue empty
  | .finished => stream.yield .streamEnd stream.tokens.mark

end EventStream

end Marksheet.Yaml
