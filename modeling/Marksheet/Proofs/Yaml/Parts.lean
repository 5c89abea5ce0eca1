import Mathlib
import Marksheet.Proofs.Yaml.Tokens

/-!
# The parts of a block mapping

From the tokens of a mapping come its events, one at each step, and from the
events the parts of the document: all keys and values, in the order of the text.
-/

namespace Marksheet.Yaml

theorem pairParts_cons (pair : Pair) (pairs : List Pair) :
    pairParts (pair :: pairs) = .scalar pair.1 :: (pair.2.parts ++ pairParts pairs) := by
  simp [pairParts]

theorem length_le_pairParts (pairs : List Pair) : pairs.length ≤ (pairParts pairs).length := by
  induction pairs with
  | nil => exact Nat.le_refl _
  | cons pair pairs ih => simp [pairParts_cons]; omega

/-- A scalar as a value has no tag. -/
def Node.Untagged : Node → Prop
  | .scalar value => value.tag = none
  | .texts _ => True

/-- Neither the key of a pair nor its value has a tag. -/
def Pair.Untagged (pair : Pair) : Prop := pair.1.tag = none ∧ Node.Untagged pair.2

theorem Scalar.Written.untagged {scalar : Scalar} {text rest : List Char}
    (h : scalar.Written text rest) : scalar.tag = none := by
  cases h <;> rfl

theorem Pair.Written.untagged {pair : Pair} {text rest : List Char} (h : pair.Written text rest) :
    pair.Untagged := by
  cases h with
  | full hkey _ _ hnode =>
    obtain ⟨_, scalar, -⟩ := hkey
    refine ⟨scalar.untagged, ?_⟩
    cases hnode with
    | scalar h => exact h.untagged
    | texts => trivial
  | bare hkey =>
    obtain ⟨_, scalar, -⟩ := hkey
    exact ⟨scalar.untagged, rfl⟩

theorem Body.untagged {margin : Nat} {pairs : List Pair} {text : List Char}
    (h : Body margin pairs text) : ∀ pair ∈ pairs, pair.Untagged := by
  induction h with
  | close => simp
  | last _ h => simpa using h.untagged
  | more _ h _ ih => exact List.forall_mem_cons.mpr ⟨h.untagged, ih⟩

namespace EventStream

open TokenStream (Gives ItemTokens NodeTokens PairTokens MappingTokens)

variable {kind : TokenKind} {P : TokenStream → Prop} {tokens : TokenStream} (stage : Stage)
  (pending : List Stage) (openings : List Mark) (handles : List (String × String))

/-- A token that is given is found by a look at any stage, and by any further look. -/
theorem peek_of_gives (h : Gives kind P tokens) : ∃ token tokens', token.kind = kind ∧
    P tokens'.next ∧ Gives kind P tokens' ∧
    (∀ stage pending openings handles,
      peek ⟨tokens, stage, pending, openings, handles⟩ =
        .ok (token, ⟨tokens', stage, pending, openings, handles⟩)) ∧
    ∀ stage pending openings handles,
      peek ⟨tokens', stage, pending, openings, handles⟩ =
        .ok (token, ⟨tokens', stage, pending, openings, handles⟩) := by
  obtain ⟨token, tokens', first, again, hkind, hP⟩ := h
  refine ⟨token, tokens', hkind, hP, ⟨token, tokens', again, again, hkind, hP⟩, ?_, ?_⟩
  · intro stage pending openings handles
    simp [peek, first, bind, Except.bind, pure, Except.pure]
  · intro stage pending openings handles
    simp [peek, again, bind, Except.bind, pure, Except.pure]

/-! ### Nodes -/

/-- A scalar is a node. -/
theorem readNode_scalar {scalar : Scalar} (untagged : scalar.tag = none)
    (h : Gives scalar.kind P tokens) (block indentless : Bool) : ∃ mark tokens', P tokens' ∧
      readNode ⟨tokens, stage, pending, openings, handles⟩ block indentless =
        .ok ⟨.scalar scalar none, mark, ⟨tokens', pending.headD .finished, pending.tail, openings,
          handles⟩⟩ := by
  obtain ⟨token, tokens', hkind, hP, -, first, again⟩ := peek_of_gives h
  refine ⟨token.start, tokens'.next, hP, ?_⟩
  obtain ⟨text, plain, literal, tag⟩ := scalar
  simp only [Scalar.kind] at hkind untagged
  subst untagged
  simp [readNode, first, hkind, readProperties, again, fullTag, skip, resume,
    EventStream.yield, bind, Except.bind, pure, Except.pure]

/-- An opening bracket begins a node, and is looked at again. -/
theorem readNode_open (h : Gives (.opening .square) P tokens) (block indentless : Bool) :
    ∃ mark tokens', Gives (.opening .square) P tokens' ∧
      readNode ⟨tokens, stage, pending, openings, handles⟩ block indentless =
        .ok ⟨.sequenceStart none, mark, ⟨tokens', .flowSequence true, pending, openings,
          handles⟩⟩ := by
  obtain ⟨token, tokens', hkind, -, still, first, again⟩ := peek_of_gives h
  refine ⟨token.start, tokens', still, ?_⟩
  simp [readNode, first, hkind, readProperties, again, fullTag, goTo,
    EventStream.yield, bind, Except.bind, pure, Except.pure]

/-- The beginning of a block is a node, and is looked at again. -/
theorem readNode_mapping (h : Gives .blockMapping P tokens) (indentless : Bool) :
    ∃ mark tokens', Gives .blockMapping P tokens' ∧
      readNode ⟨tokens, stage, pending, openings, handles⟩ true indentless =
        .ok ⟨.mappingStart none, mark, ⟨tokens', .blockKey true, pending, openings,
          handles⟩⟩ := by
  obtain ⟨token, tokens', hkind, -, still, first, again⟩ := peek_of_gives h
  refine ⟨token.start, tokens', still, ?_⟩
  simp [readNode, first, hkind, readProperties, again, fullTag, goTo,
    EventStream.yield, bind, Except.bind, pure, Except.pure]

/-! ### Blocks -/

/-- The key of a pair. -/
theorem readBlockKey_key {key : Scalar} (untagged : key.tag = none)
    (h : Gives .key (Gives key.kind P) tokens) : ∃ mark tokens', P tokens' ∧
      readBlockKey ⟨tokens, stage, pending, openings, handles⟩ false =
        .ok ⟨.scalar key none, mark, ⟨tokens', .blockValue, pending, openings, handles⟩⟩ := by
  obtain ⟨token, tokens₁, hkind, hscalar, -, first, -⟩ := peek_of_gives h
  obtain ⟨behind, tokens₂, hkind', -, still, first', -⟩ := peek_of_gives hscalar
  obtain ⟨mark, tokens', hP, node⟩ :=
    readNode_scalar stage (.blockValue :: pending) openings handles untagged still true true
  refine ⟨mark, tokens', hP, ?_⟩
  simp only [readBlockKey, Bool.false_eq_true, if_false, pure, Except.pure, bind, Except.bind,
    first, hkind, skip, first', hkind', Scalar.kind, later, node]
  rfl

/-- A block begins where its first key does. -/
theorem readBlockKey_first (h : Gives .blockMapping P tokens) : ∃ mark tokens', P tokens' ∧
    readBlockKey ⟨tokens, stage, pending, openings, handles⟩ true =
      readBlockKey ⟨tokens', stage, pending, mark :: openings, handles⟩ false := by
  obtain ⟨token, tokens₁, hkind, hP, -, first, -⟩ := peek_of_gives h
  refine ⟨token.start, tokens₁.next, hP, ?_⟩
  simp only [readBlockKey, if_true, Bool.false_eq_true, if_false, first, Functor.map,
    Except.map, openAt, skip, pure, Except.pure, bind, Except.bind]

/-- The end of a block. -/
theorem readBlockKey_end (h : Gives .blockEnd P tokens) : ∃ mark tokens', P tokens' ∧
    readBlockKey ⟨tokens, stage, pending, openings, handles⟩ false =
      .ok ⟨.mappingEnd, mark, ⟨tokens', pending.headD .finished, pending.tail, openings.tail,
        handles⟩⟩ := by
  obtain ⟨token, tokens₁, hkind, hP, -, first, -⟩ := peek_of_gives h
  refine ⟨token.start, tokens₁.next, hP, ?_⟩
  simp [readBlockKey, first, hkind, skip, close, resume, EventStream.yield, pure, Except.pure, bind,
    Except.bind]

theorem readBlockValue_scalar {scalar : Scalar} (untagged : scalar.tag = none)
    (h : Gives .value (Gives scalar.kind P) tokens) : ∃ mark tokens', P tokens' ∧
      readBlockValue ⟨tokens, stage, pending, openings, handles⟩ =
        .ok ⟨.scalar scalar none, mark,
          ⟨tokens', .blockKey false, pending, openings, handles⟩⟩ := by
  obtain ⟨token, tokens₁, hkind, hscalar, -, first, -⟩ := peek_of_gives h
  obtain ⟨behind, tokens₂, hkind', -, still, first', -⟩ := peek_of_gives hscalar
  obtain ⟨mark, tokens', hP, node⟩ :=
    readNode_scalar stage (.blockKey false :: pending) openings handles untagged still true true
  refine ⟨mark, tokens', hP, ?_⟩
  simp only [readBlockValue, bind, Except.bind, first, hkind, skip, first', hkind', Scalar.kind,
    later, node]
  rfl

theorem readBlockValue_open (h : Gives .value (Gives (.opening .square) P) tokens) :
    ∃ mark tokens', Gives (.opening .square) P tokens' ∧
      readBlockValue ⟨tokens, stage, pending, openings, handles⟩ =
        .ok ⟨.sequenceStart none, mark,
          ⟨tokens', .flowSequence true, .blockKey false :: pending, openings, handles⟩⟩ := by
  obtain ⟨token, tokens₁, hkind, hopen, -, first, -⟩ := peek_of_gives h
  obtain ⟨behind, tokens₂, hkind', -, still, first', -⟩ := peek_of_gives hopen
  obtain ⟨mark, tokens', hP, node⟩ :=
    readNode_open stage (.blockKey false :: pending) openings handles still true true
  refine ⟨mark, tokens', hP, ?_⟩
  simp only [readBlockValue, bind, Except.bind, first, hkind, skip, first', hkind', later, node]

/-- A value that is left out, before the next key or the end of the block. -/
theorem readBlockValue_bare {pairs : List Pair} (h : Gives .value (PairTokens pairs) tokens) :
    ∃ mark tokens', PairTokens pairs tokens' ∧
      readBlockValue ⟨tokens, stage, pending, openings, handles⟩ =
        .ok ⟨.scalar (.word "") none, mark,
          ⟨tokens', .blockKey false, pending, openings, handles⟩⟩ := by
  obtain ⟨token, tokens₁, hkind, hpairs, -, first, -⟩ := peek_of_gives h
  cases pairs with
  | nil =>
    obtain ⟨behind, tokens₂, hkind', -, still, first', -⟩ := peek_of_gives hpairs
    refine ⟨token.stop, tokens₂, still, ?_⟩
    simp [readBlockValue, first, hkind, skip, first', hkind', goTo, yieldEmpty, EventStream.yield,
      Scalar.word, bind, Except.bind]
  | cons pair pairs =>
    obtain ⟨behind, tokens₂, hkind', -, still, first', -⟩ := peek_of_gives hpairs
    refine ⟨token.stop, tokens₂, still, ?_⟩
    simp [readBlockValue, first, hkind, skip, first', hkind', goTo, yieldEmpty, EventStream.yield,
      Scalar.word, bind, Except.bind]

/-! ### Sequences -/

/-- The tokens before an entry of a sequence: its opening bracket, or a comma. -/
def entryMark (first : Bool) : TokenKind := if first then .opening .square else .comma

/-- A text between brackets. -/
theorem readFlowSequence_item {item : String} (first : Bool)
    (h : Gives (entryMark first) (Gives (Scalar.quoted item).kind P) tokens) :
    ∃ mark openings' tokens', P tokens' ∧
      readFlowSequence ⟨tokens, stage, pending, openings, handles⟩ first =
        .ok ⟨.scalar (.quoted item) none, mark,
          ⟨tokens', .flowSequence false, pending, openings', handles⟩⟩ := by
  obtain ⟨token, tokens₁, hkind, hscalar, -, look, -⟩ := peek_of_gives h
  obtain ⟨behind, tokens₂, hkind', -, still, look', -⟩ := peek_of_gives hscalar
  have untagged : (Scalar.quoted item).tag = none := rfl
  cases first with
  | true =>
    obtain ⟨mark, tokens', hP, node⟩ := readNode_scalar stage (.flowSequence false :: pending)
      (token.start :: openings) handles untagged still false false
    refine ⟨mark, token.start :: openings, tokens', hP, ?_⟩
    simp only [readFlowSequence, readFlowSequence.entry, look, hkind, skip, look', hkind', openAt,
      later, node, Functor.map, Except.map, Scalar.kind, Scalar.quoted, entryMark, pure,
      Except.pure, bind, Except.bind, if_true]
    rfl
  | false =>
    obtain ⟨mark, tokens', hP, node⟩ := readNode_scalar stage (.flowSequence false :: pending)
      openings handles untagged still false false
    refine ⟨mark, openings, tokens', hP, ?_⟩
    simp only [readFlowSequence, readFlowSequence.entry, look, hkind, skip, look', hkind', openAt,
      later, node, Functor.map, Except.map, Scalar.kind, Scalar.quoted, entryMark, pure,
      Except.pure, bind, Except.bind, if_false, Bool.false_eq_true]
    rfl

/-- The end of a sequence without an entry, or behind a last comma. -/
theorem readFlowSequence_close (first : Bool)
    (h : Gives (entryMark first) (Gives (.closing .square) P) tokens) :
    ∃ mark openings' tokens', P tokens' ∧
      readFlowSequence ⟨tokens, stage, pending, openings, handles⟩ first =
        .ok ⟨.sequenceEnd, mark,
          ⟨tokens', pending.headD .finished, pending.tail, openings', handles⟩⟩ := by
  obtain ⟨token, tokens₁, hkind, hclose, -, look, -⟩ := peek_of_gives h
  obtain ⟨behind, tokens₂, hkind', hP, -, look', -⟩ := peek_of_gives hclose
  cases first with
  | true =>
    refine ⟨behind.start, openings, tokens₂.next, hP, ?_⟩
    simp [readFlowSequence, look, skip, look', hkind', openAt, close, resume, EventStream.yield,
      Functor.map, Except.map, bind, Except.bind]
  | false =>
    refine ⟨behind.start, openings.tail, tokens₂.next, hP, ?_⟩
    simp [readFlowSequence, readFlowSequence.entry, look, hkind, skip, look', hkind', close, resume,
      EventStream.yield, entryMark, pure, Except.pure, bind, Except.bind]

/-- The end of a sequence behind its last entry. -/
theorem readFlowSequence_last (h : Gives (.closing .square) P tokens) :
    ∃ mark openings' tokens', P tokens' ∧
      readFlowSequence ⟨tokens, stage, pending, openings, handles⟩ false =
        .ok ⟨.sequenceEnd, mark,
          ⟨tokens', pending.headD .finished, pending.tail, openings', handles⟩⟩ := by
  obtain ⟨token, tokens₁, hkind, hP, -, look, -⟩ := peek_of_gives h
  refine ⟨token.start, openings.tail, tokens₁.next, hP, ?_⟩
  simp [readFlowSequence, look, hkind, skip, close, resume, EventStream.yield, pure, Except.pure,
    bind, Except.bind]

/-! ### The document around a mapping -/

/-- The end of the text ends the document, and nothing follows it. -/
theorem readDocumentEnd_last (h : Gives .streamEnd P tokens) : ∃ mark stream',
    readDocumentEnd ⟨tokens, stage, pending, openings, handles⟩ =
      .ok ⟨.documentEnd, mark, stream'⟩ ∧ Document.endingBehind stream' = .complete := by
  obtain ⟨token, tokens₁, hkind, -, -, look, again⟩ := peek_of_gives h
  refine ⟨token.start, ⟨tokens₁, .documentStart false, pending, openings, handles⟩, ?_, ?_⟩
  · simp [readDocumentEnd, look, hkind, goTo, EventStream.yield, bind, Except.bind]
  · simp [Document.endingBehind, step, readDocumentStart, fuel, passDocumentEnds, again, hkind,
      skip, goTo, EventStream.yield, pure, Except.pure, bind, Except.bind]

end EventStream

namespace Document

open TokenStream (Gives ItemTokens NodeTokens PairTokens MappingTokens)

/-- An event that is a part by itself, without an anchor. -/
inductive IsPart : Event → Part → Prop
  | scalar (scalar : Scalar) : IsPart (.scalar scalar none) (.scalar scalar)
  | sequenceStart : IsPart (.sequenceStart none) .sequenceStart
  | sequenceEnd : IsPart .sequenceEnd .sequenceEnd
  | mappingStart : IsPart (.mappingStart none) .mappingStart
  | mappingEnd : IsPart .mappingEnd .mappingEnd

/-- Just these parts follow, and then the document and the text are at their end. -/
def Completes (parts : List Part) (stream : EventStream) : Prop :=
  ∀ (progress : Progress) (fuel : Nat), parts.length < fuel → ∃ placed : List (Part × Mark),
    placed.map Prod.fst = parts ∧ read progress fuel stream =
      ⟨progress.parts.reverse ++ placed, progress.anchors, .complete⟩

variable {event : Event} {part : Part} {parts : List Part} {mark : Mark}
  {stream stream' : EventStream}

/-- One event that is a part, and the others behind it. -/
theorem Completes.step (hstep : stream.step = .ok ⟨event, mark, stream'⟩)
    (hpart : IsPart event part) (h : Completes parts stream') :
    Completes (part :: parts) stream := by
  intro progress fuel enough
  obtain ⟨fuel, rfl⟩ : ∃ n, fuel = n + 1 := ⟨fuel - 1, by simp at enough; omega⟩
  obtain ⟨placed, hplaced, hread⟩ :=
    h (progress.push part mark none) fuel (by simpa using enough)
  refine ⟨(part, mark) :: placed, by simp [hplaced], ?_⟩
  have next : read progress (fuel + 1) stream =
      read (progress.push part mark none) fuel stream' := by
    rw [read, hstep]
    cases hpart <;> rfl
  rw [next, hread]
  simp [Progress.push]

variable {P : TokenStream → Prop} {tokens : TokenStream} {pending : List Stage}
  {openings : List Mark} {handles : List (String × String)}

/-- The texts of a sequence, one after the other. -/
theorem completes_items {items : List String} {first : Bool}
    (h : Gives (EventStream.entryMark first) (ItemTokens P items) tokens)
    (next : ∀ openings tokens, P tokens →
      Completes parts ⟨tokens, pending.headD .finished, pending.tail, openings, handles⟩) :
    Completes ((items.map fun item => .scalar (.quoted item)) ++ .sequenceEnd :: parts)
      ⟨tokens, .flowSequence first, pending, openings, handles⟩ := by
  induction items generalizing tokens first openings with
  | nil =>
    obtain ⟨mark, openings', tokens', hP, hstep⟩ :=
      EventStream.readFlowSequence_close (.flowSequence first) pending openings handles first h
    exact .step hstep .sequenceEnd (next _ _ hP)
  | cons item items ih =>
    obtain ⟨mark, openings', tokens', behind, hstep⟩ :=
      EventStream.readFlowSequence_item (.flowSequence first) pending openings handles first h
    refine .step hstep (.scalar _) ?_
    rcases behind with ⟨rfl, closing⟩ | comma
    · obtain ⟨mark', openings₂, tokens₂, hP, hstep'⟩ :=
        EventStream.readFlowSequence_last (.flowSequence false) pending openings' handles closing
      exact .step hstep' .sequenceEnd (next _ _ hP)
    · exact ih comma

/-- The end of the text. -/
theorem completes_end (h : Gives .streamEnd P tokens) :
    Completes [] ⟨tokens, .documentEnd, pending, openings, handles⟩ := by
  obtain ⟨mark, stream', hstep, complete⟩ :=
    EventStream.readDocumentEnd_last .documentEnd pending openings handles h
  intro progress fuel enough
  obtain ⟨fuel, rfl⟩ : ∃ n, fuel = n + 1 := ⟨fuel - 1, by simp at enough; omega⟩
  refine ⟨[], rfl, ?_⟩
  simp [read, EventStream.step, hstep, complete, Progress.finish]

/-- A value, and what follows it; one that is left out has no token, but it is a part. -/
theorem completes_value {pairs : List Pair} {node : Node} (untagged : node.Untagged)
    (h : Gives .value (NodeTokens (PairTokens pairs) node) tokens)
    (next : ∀ openings tokens, PairTokens pairs tokens →
      Completes parts ⟨tokens, .blockKey false, pending, openings, handles⟩) :
    Completes (node.parts ++ parts) ⟨tokens, .blockValue, pending, openings, handles⟩ := by
  cases node with
  | scalar scalar =>
    obtain ⟨mark, tokens', behind, hstep⟩ : ∃ mark tokens', PairTokens pairs tokens' ∧
        EventStream.step ⟨tokens, .blockValue, pending, openings, handles⟩ =
          .ok ⟨.scalar scalar none, mark,
            ⟨tokens', .blockKey false, pending, openings, handles⟩⟩ := by
      rcases h.or with full | ⟨rfl, bare⟩
      · exact EventStream.readBlockValue_scalar .blockValue pending openings handles untagged full
      · exact EventStream.readBlockValue_bare .blockValue pending openings handles bare
    exact .step hstep (.scalar scalar) (next openings tokens' behind)
  | texts items =>
    obtain ⟨mark, tokens', sequence, hstep⟩ :=
      EventStream.readBlockValue_open .blockValue pending openings handles h
    have whole : Completes _ ⟨tokens', .flowSequence true, .blockKey false :: pending, openings,
        handles⟩ := completes_items sequence next
    exact .step hstep .sequenceStart (by simpa using whole)

/-- The pairs of a mapping, one after the other, up to the end of the text. -/
theorem completes_pairs {pairs : List Pair} (untagged : ∀ pair ∈ pairs, pair.Untagged)
    (h : PairTokens pairs tokens) :
    Completes (pairParts pairs ++ [.mappingEnd])
      ⟨tokens, .blockKey false, [.documentEnd], openings, handles⟩ := by
  induction pairs generalizing tokens openings with
  | nil =>
    obtain ⟨mark, tokens', last, hstep⟩ :=
      EventStream.readBlockKey_end (.blockKey false) [.documentEnd] openings handles h
    exact .step hstep .mappingEnd (completes_end last)
  | cons pair pairs ih =>
    obtain ⟨⟨hkey, hnode⟩, others⟩ := List.forall_mem_cons.mp untagged
    obtain ⟨mark, tokens', value, hstep⟩ :=
      EventStream.readBlockKey_key (.blockKey false) [.documentEnd] openings handles hkey h
    have rest : Completes _ ⟨tokens', .blockValue, [.documentEnd], openings, handles⟩ :=
      completes_value hnode value fun _ _ h => ih others h
    rw [pairParts_cons, List.cons_append, List.append_assoc]
    exact .step hstep (.scalar pair.1) rest

/-- A mapping from its first key on. -/
theorem completes_first {pair : Pair} {pairs : List Pair}
    (untagged : ∀ p ∈ pair :: pairs, p.Untagged)
    (h : Gives .blockMapping (PairTokens (pair :: pairs)) tokens) :
    Completes (pairParts (pair :: pairs) ++ [.mappingEnd])
      ⟨tokens, .blockKey true, [.documentEnd], openings, handles⟩ := by
  obtain ⟨⟨hkey, hnode⟩, others⟩ := List.forall_mem_cons.mp untagged
  obtain ⟨start, tokens', first, same⟩ :=
    EventStream.readBlockKey_first (.blockKey true) [.documentEnd] openings handles h
  obtain ⟨mark, tokens₂, value, hstep⟩ :=
    EventStream.readBlockKey_key (.blockKey true) [.documentEnd] (start :: openings) handles hkey
      first
  have rest : Completes _ ⟨tokens₂, .blockValue, [.documentEnd], start :: openings, handles⟩ :=
    completes_value hnode value fun _ _ h => completes_pairs others h
  rw [pairParts_cons, List.cons_append, List.append_assoc]
  exact .step (same.trans hstep) (.scalar pair.1) rest

/-- The document of a mapping: its pairs, or nothing if it has none. -/
theorem read_mapping {margin : Nat} {pairs : List Pair} {text : List Char}
    (h : Body margin pairs text) {fuel : Nat} (enough : text.length + 8 ≤ fuel) :
    ∃ placed : List (Part × Mark),
      read ⟨[], 0, [], []⟩ fuel (.ofChars text) = ⟨placed, [], .complete⟩ ∧
      placed.map Prod.fst =
        if pairs = [] then [.nothing]
        else .mappingStart :: (pairParts pairs ++ [.mappingEnd]) := by
  have count := h.length_parts
  have tokens := TokenStream.mapping_given h
  obtain ⟨fuel, rfl⟩ : ∃ n, fuel = n + 3 := ⟨fuel - 3, by omega⟩
  cases pairs with
  | nil =>
    obtain ⟨token, tokens', hkind, behind, -, look, -⟩ := EventStream.peek_of_gives tokens
    obtain ⟨token', tokens₂, hkind', -, -, look', -⟩ := EventStream.peek_of_gives behind
    refine ⟨[(.nothing, token'.start)], ?_, rfl⟩
    simp [read, EventStream.ofChars, EventStream.step, look, EventStream.skip, EventStream.goTo,
      EventStream.yield, EventStream.readDocumentStart, look', hkind', Progress.push,
      Progress.finish, pure, Except.pure, bind, Except.bind]
  | cons pair pairs =>
    obtain ⟨token, tokens', hkind, behind, -, look, -⟩ := EventStream.peek_of_gives tokens
    obtain ⟨token', tokens₂, hkind', -, still, look', -⟩ := EventStream.peek_of_gives behind
    obtain ⟨mark, tokens₃, first, node⟩ := EventStream.readNode_mapping .blockNode [.documentEnd]
      [] EventStream.standardHandles still false
    have whole : Completes _
        ⟨tokens₂, .blockNode, [.documentEnd], [], EventStream.standardHandles⟩ :=
      .step node .mappingStart (completes_first h.untagged first)
    obtain ⟨placed, hplaced, hread⟩ := whole ⟨[], 0, [], []⟩ (fuel + 1) (by simp; omega)
    refine ⟨placed, Eq.trans ?_ hread, by simpa using hplaced⟩
    simp [read, EventStream.ofChars, EventStream.step, look, EventStream.skip, EventStream.goTo,
      EventStream.yield, EventStream.readDocumentStart, look', hkind', EventStream.later, pure,
      Except.pure, bind, Except.bind]

/-- A mapping as it is written in a text, with either kind of line breaks. -/
theorem ofText_written {pairs : List Pair} {text : String} (h : Written pairs text) :
    ∃ placed : List (Part × Mark), ofText text = ⟨placed, [], .complete⟩ ∧
      placed.map Prod.fst =
        if pairs = [] then [.nothing]
        else .mappingStart :: (pairParts pairs ++ [.mappingEnd]) := by
  obtain ⟨margin, plain, body, breaks⟩ := h
  have allowed := isAllowed_of_withBreaks breaks body.plain
  have lines := unbroken_of_withBreaks breaks body.plain
  obtain ⟨placed, hread, hplaced⟩ :=
    read_mapping body (show plain.length + 8 ≤ 16 * plain.length + 64 by omega)
  refine ⟨placed, ?_, hplaced⟩
  have clear := blocked?_eq_none allowed 0
  unfold ofText
  cases htext : text.toList with
  | nil =>
    rw [htext] at lines clear
    simp only [clear, lines, hread]
  | cons c rest =>
    -- a mark of byte order is not allowed, so there is none
    have first : c ≠ Char.ofNat 0xFEFF := by
      rintro rfl
      exact absurd (allowed _ (htext ▸ List.mem_cons_self)) (by decide)
    rw [htext] at lines clear
    simp only [if_neg first, clear, lines, hread]

end Document

end Marksheet.Yaml
