import Mathlib
import Marksheet.Proofs.Yaml.Scalars

/-!
# The tokens of a block mapping

A stream gives a token if the token comes first however often it is looked for.
How far the text has been read by then does not show: behind a scalar that may
be a key, the next token may or may not have been read as well.
-/

namespace Marksheet.Yaml

/-- The token of a scalar. -/
def Scalar.kind (scalar : Scalar) : TokenKind := .scalar scalar.text scalar.plain scalar.literal

namespace TokenStream

/-- The first token is of a kind, and a second look finds it again; behind it, the stream is as
said. -/
def Gives (kind : TokenKind) (P : TokenStream → Prop) (stream : TokenStream) : Prop :=
  ∃ token stream', stream.peek = .ok (token, stream') ∧ stream'.peek = .ok (token, stream') ∧
    token.kind = kind ∧ P stream'.next

/-- No place is remembered where a key may have begun. -/
def Quiet (stream : TokenStream) : Prop := stream.keys = [none] ∨ stream.keys = [none, none]

section

variable {stream stream₁ stream₂ : TokenStream} {token token' : Token} {more more' : List Token}
  {kind : TokenKind} {P : TokenStream → Prop}

theorem Quiet.refreshKeys (h : stream.Quiet) : stream.refreshKeys = .ok stream := by
  obtain ⟨mark, rest, started, ended, queue, taken, indent, outer, allowed, keys⟩ := stream
  rcases h with rfl | rfl <;> rfl

theorem Quiet.unsettled (h : stream.Quiet) : stream.unsettled = false := by
  rcases h with h | h <;> simp [TokenStream.unsettled, h]

theorem settle_empty (empty : stream.queue = []) (read : stream.readMore = .ok stream₁)
    (fuel : Nat) : settle (fuel + 1) stream = settle fuel stream₁ := by
  rw [settle, if_pos (by simp [empty])]
  simp only [read, bind, Except.bind]

theorem settle_unsettled (hqueue : stream.queue = token :: more)
    (refresh : stream.refreshKeys = .ok stream) (unsettled : stream.unsettled = true)
    (ended : stream.ended = false) (read : stream.readMore = .ok stream₁) (fuel : Nat) :
    settle (fuel + 1) stream = settle fuel stream₁ := by
  rw [settle, if_neg (by simp [hqueue])]
  simp [refresh, unsettled, ended, read, bind, Except.bind]

theorem settle_settled (hqueue : stream.queue = token :: more)
    (refresh : stream.refreshKeys = .ok stream₁) (quiet : stream₁.Quiet) (fuel : Nat) :
    settle (fuel + 1) stream = .ok stream₁ := by
  rw [settle, if_neg (by simp [hqueue])]
  simp [refresh, quiet.unsettled, bind, Except.bind, pure, Except.pure]

theorem peek_quiet (hqueue : stream.queue = token :: more) (quiet : stream.Quiet) :
    stream.peek = .ok (token, stream) := by
  simp [peek, settle_settled hqueue quiet.refreshKeys quiet, hqueue, bind, Except.bind, pure,
    Except.pure]

/-- A token that comes first once the stream is settled. -/
theorem gives_of_settle (settled : settle (stream.rest.length + 3) stream = .ok stream₁)
    (hqueue : stream₁.queue = token :: more) (hkind : token.kind = kind) (quiet : stream₁.Quiet)
    (hP : P stream₁.next) : Gives kind P stream := by
  refine ⟨token, stream₁, ?_, peek_quiet hqueue quiet, hkind, hP⟩
  simp [peek, settled, hqueue, bind, Except.bind, pure, Except.pure]

/-- A token that has been read before. -/
theorem gives_of_queue (hqueue : stream.queue = token :: more) (hkind : token.kind = kind)
    (quiet : stream.Quiet) (hP : P stream.next) : Gives kind P stream :=
  gives_of_settle (settle_settled hqueue quiet.refreshKeys quiet _) hqueue hkind quiet hP

/-- A token that is read when it is looked for. -/
theorem gives_of_readMore (empty : stream.queue = []) (read : stream.readMore = .ok stream₁)
    (hqueue : stream₁.queue = token :: more) (hkind : token.kind = kind) (quiet : stream₁.Quiet)
    (hP : P stream₁.next) : Gives kind P stream :=
  gives_of_settle ((settle_empty empty read _).trans
    (settle_settled hqueue quiet.refreshKeys quiet _)) hqueue hkind quiet hP

/-- Two tokens are read since the first one may be a key. -/
theorem gives_of_lookahead (empty : stream.queue = []) (read : stream.readMore = .ok stream₁)
    (hqueue : stream₁.queue = token :: more) (refresh : stream₁.refreshKeys = .ok stream₁)
    (unsettled : stream₁.unsettled = true) (ended : stream₁.ended = false)
    (read' : stream₁.readMore = .ok stream₂) (hqueue' : stream₂.queue = token' :: more')
    (hkind : token'.kind = kind) (quiet : stream₂.Quiet) (hP : P stream₂.next) :
    Gives kind P stream :=
  gives_of_settle ((settle_empty empty read _).trans
    ((settle_unsettled hqueue refresh unsettled ended read' _).trans
      (settle_settled hqueue' quiet.refreshKeys quiet _))) hqueue' hkind quiet hP

/-- A token that cannot be a key any more by the time it has been read. -/
theorem gives_of_refresh (empty : stream.queue = []) (read : stream.readMore = .ok stream₁)
    (hqueue : stream₁.queue = token :: more) (refresh : stream₁.refreshKeys = .ok stream₂)
    (hqueue' : stream₂.queue = token' :: more') (hkind : token'.kind = kind)
    (quiet : stream₂.Quiet) (hP : P stream₂.next) : Gives kind P stream :=
  gives_of_settle ((settle_empty empty read _).trans (settle_settled hqueue refresh quiet _))
    hqueue' hkind quiet hP

theorem Gives.mono {Q : TokenStream → Prop} (h : Gives kind P stream)
    (hPQ : ∀ stream, P stream → Q stream) : Gives kind Q stream := by
  obtain ⟨token, stream', first, again, hkind, rest⟩ := h
  exact ⟨token, stream', first, again, hkind, hPQ _ rest⟩

theorem Gives.or {a : Prop} {Q : TokenStream → Prop}
    (h : Gives kind (fun stream => P stream ∨ a ∧ Q stream) stream) :
    Gives kind P stream ∨ a ∧ Gives kind Q stream := by
  obtain ⟨token, stream', first, again, hkind, rest | ⟨ha, rest⟩⟩ := h
  · exact .inl ⟨token, stream', first, again, hkind, rest⟩
  · exact .inr ⟨ha, token, stream', first, again, hkind, rest⟩

end

/-! ### Reading one token -/

theorem closeBlocks_eq_self (stream : TokenStream) {column : Nat}
    (h : stream.inBrackets = true ∨ stream.indent ≤ column) :
    stream.closeBlocks column = stream := by
  unfold closeBlocks
  split
  · rfl
  · rename_i outside
    have deep := h.resolve_left (by simpa using outside)
    cases houter : stream.outer with
    | nil => simp [closeColumns, ← houter]
    | cons next outer =>
      simp [closeColumns, Int.not_lt.mpr deep, ← houter]

section

variable {mark mark' : Mark} {text behind : List Char} {queue : List Token} {taken : Nat}
  {indent : Int} {outer : List Int} {allowed allowed' : Bool}
  {keys keys' : List (Option PossibleKey)} {c : Char}

/-- Behind the gap, the token at the next character is read. -/
theorem readMore_at {brackets : Bool} (within : decide (1 < keys.length) = brackets)
    (pass : passGap brackets allowed false mark text = (allowed', mark', c :: behind))
    (refresh : refreshKeys
        ⟨mark', c :: behind, true, false, queue, taken, indent, outer, allowed', keys⟩ =
      .ok ⟨mark', c :: behind, true, false, queue, taken, indent, outer, allowed', keys'⟩)
    (deep : 1 < keys'.length ∨ indent ≤ mark'.column) :
    readMore ⟨mark, text, true, false, queue, taken, indent, outer, allowed, keys⟩ =
      readAt ⟨mark', c :: behind, true, false, queue, taken, indent, outer, allowed', keys'⟩ c
        behind := by
  subst within
  have close := closeBlocks_eq_self
    ⟨mark', c :: behind, true, false, queue, taken, indent, outer, allowed', keys'⟩
    (by simpa [inBrackets] using deep)
  simp only [readMore, inBrackets, pass, moveTo, refresh, bind, Except.bind, close, Bool.not_true,
    if_false, Bool.false_eq_true]

theorem readAt_quote (stream : TokenStream) (behind : List Char) :
    stream.readAt '\"' behind = stream.readQuotedToken false := by
  simp [readAt]

theorem readAt_open (stream : TokenStream) (behind : List Char) :
    stream.readAt '[' behind = stream.readOpening .square := by
  simp [readAt]

theorem readAt_close (stream : TokenStream) (behind : List Char) :
    stream.readAt ']' behind = stream.readClosing .square := by
  simp [readAt]

theorem readAt_comma (stream : TokenStream) (behind : List Char) :
    stream.readAt ',' behind = stream.readComma := by
  simp [readAt]

theorem readAt_colon (stream : TokenStream) {behind : List Char} (h : gapFollows behind = true) :
    stream.readAt ':' behind = stream.readColon := by
  simp [readAt, h]

end

end TokenStream

/-- What the first letter of a word is not. -/
theorem WordChar.first {c : Char} (h : WordChar c) (dash : c ≠ '-') :
    c ∉ ['%', '-', '.', '[', '\x7b', ']', '\x7d', ',', '?', ':', '*', '&', '!', '|', '>', '\'',
      '\"'] ∧ isGap c = false ∧ TokenStream.isIndicator c = false :=
  ascii_forall
    (P := fun c => WordChar c → c ≠ '-' → c ∉ ['%', '-', '.', '[', '\x7b', ']', '\x7d', ',', '?',
      ':', '*', '&', '!', '|', '>', '\'', '\"'] ∧ isGap c = false ∧
        TokenStream.isIndicator c = false)
    (by decide +kernel) h.ascii h dash

namespace TokenStream

theorem readAt_word {c : Char} (h : WordChar c) (dash : c ≠ '-') (stream : TokenStream)
    (behind : List Char) : stream.readAt c behind = stream.readPlainToken := by
  obtain ⟨others, noGap, plain⟩ := h.first dash
  simp only [List.mem_cons, List.not_mem_nil, or_false, not_or] at others
  simp [readAt, others, noGap, plain]

/-! ### Between brackets -/

/-- The texts of a sequence behind its opening bracket or a comma, as tokens. -/
def ItemTokens (P : TokenStream → Prop) : List String → TokenStream → Prop
  | [] => Gives (.closing .square) P
  | item :: items => Gives (Scalar.quoted item).kind fun stream =>
    items = [] ∧ Gives (.closing .square) P stream ∨ Gives .comma (ItemTokens P items) stream

section

variable (mark : Mark) {text inner rest : List Char} (queue : List Token) (taken : Nat)
  (indent : Int) (outer : List Int) (allowed : Bool) {key : Option PossibleKey}

/-- A key that need not be one is given up or kept. -/
theorem refreshKeys_brackets (text : List Char) (harmless : ∀ k ∈ key, k.required = false) :
    ∃ key', (key' = key ∨ key' = none) ∧
      refreshKeys ⟨mark, text, true, false, queue, taken, indent, outer, allowed, [key, none]⟩ =
        .ok ⟨mark, text, true, false, queue, taken, indent, outer, allowed, [key', none]⟩ := by
  cases key with
  | none => exact ⟨none, .inl rfl, rfl⟩
  | some k =>
    have free : k.required = false := harmless k rfl
    by_cases stale : k.mark.line < mark.line ∨ k.mark.index + TokenStream.longestKey < mark.index
    · exact ⟨none, .inr rfl, by simp [refreshKeys, refreshKey, stale, free]; rfl⟩
    · exact ⟨some k, .inl rfl, by simp [refreshKeys, refreshKey, stale]; rfl⟩

/-- A gap between brackets is passed up to a sign or a quote. -/
theorem readMore_brackets {c : Char} (h : Slack text (c :: rest)) (noGap : isGap c = false)
    (noRemark : c ≠ '#') (harmless : ∀ k ∈ key, k.required = false) :
    ∃ start key', (∀ k ∈ key', k.required = false) ∧ (key = none → key' = none) ∧
      readMore ⟨mark, text, true, false, queue, taken, indent, outer, allowed, [key, none]⟩ =
        readAt ⟨start, c :: rest, true, false, queue, taken, indent, outer, allowed, [key', none]⟩ c
          rest := by
  obtain ⟨start, same⟩ := passGap_slack allowed h mark
  obtain ⟨key', given, refresh⟩ :=
    refreshKeys_brackets start queue taken indent outer allowed (c :: rest) harmless
  have pass := same.trans (passGap_stop noGap noRemark start)
  refine ⟨start, key', ?_, ?_, readMore_at rfl pass refresh (.inl (by simp))⟩
  · rcases given with rfl | rfl
    · exact harmless
    · simp
  · rintro rfl
    simpa using given

theorem readMore_close (slack : Slack text (']' :: rest))
    (harmless : ∀ k ∈ key, k.required = false) : ∃ start stop, readMore
        ⟨mark, text, true, false, queue, taken, indent, outer, allowed, [key, none]⟩ =
      .ok ⟨stop, rest, true, false, queue ++ [⟨.closing .square, start, stop⟩], taken, indent,
        outer, false, [none]⟩ := by
  obtain ⟨start, key', harmless', -, read⟩ :=
    readMore_brackets mark queue taken indent outer allowed slack (by decide) (by decide) harmless
  refine ⟨start, start.forward 1, ?_⟩
  rw [read, readAt_close]
  cases key' with
  | none => rfl
  | some k => simp [readClosing, forgetKey, harmless' k rfl, inBrackets, take, enqueue, moveTo,
      bind, Except.bind, pure, Except.pure]

theorem readMore_comma (slack : Slack text (',' :: rest))
    (harmless : ∀ k ∈ key, k.required = false) : ∃ start stop, readMore
        ⟨mark, text, true, false, queue, taken, indent, outer, allowed, [key, none]⟩ =
      .ok ⟨stop, rest, true, false, queue ++ [⟨.comma, start, stop⟩], taken, indent, outer, true,
        [none, none]⟩ := by
  obtain ⟨start, key', harmless', -, read⟩ :=
    readMore_brackets mark queue taken indent outer allowed slack (by decide) (by decide) harmless
  refine ⟨start, start.forward 1, ?_⟩
  rw [read, readAt_comma]
  cases key' with
  | none => rfl
  | some k => simp [readComma, forgetKey, harmless' k rfl, take, enqueue, moveTo, bind,
      Except.bind, pure, Except.pure]

/-- A text between brackets is read as a possible key, which none has to be. -/
theorem readMore_item {value : List Char} (slack : Slack text ('\"' :: inner))
    (item : Quoted value inner rest) : ∃ start stop, readMore
        ⟨mark, text, true, false, [], taken, indent, outer, true, [none, none]⟩ =
      .ok ⟨stop, rest, true, false,
        [⟨(Scalar.quoted (String.ofList value)).kind, start, stop⟩], taken, indent, outer, false,
        [some ⟨false, taken, start⟩, none]⟩ := by
  obtain ⟨start, key', -, hkey, read⟩ :=
    readMore_brackets mark [] taken indent outer true slack (by decide) (by decide)
      (fun k (hk : k ∈ (none : Option PossibleKey)) => nomatch hk)
  obtain ⟨stop, -, scalar⟩ :=
    readQuoted_written start item [] [] (show 0 < (start.forward 1).column by simp [Mark.forward])
  refine ⟨start, stop, ?_⟩
  rw [read, readAt_quote, hkey rfl]
  simp [readQuotedToken, readNodeToken, saveKey, forgetKey, inBrackets, Gap.none, scalar, enqueue,
    moveTo, Scalar.kind, Scalar.quoted, bind, Except.bind, pure, Except.pure]

/-- A text between brackets and the sign behind it, be that sign looked for early or late. -/
theorem gives_item {value : List Char} (slack : Slack text ('\"' :: inner))
    (item : Quoted value inner rest) {sign : TokenKind} {behind : List Char} {allowed' : Bool}
    {keys : List (Option PossibleKey)} (quiet : keys = [none] ∨ keys = [none, none])
    (hsign : ∀ mark queue taken key, (∀ k ∈ key, k.required = false) → ∃ start stop, readMore
        ⟨mark, rest, true, false, queue, taken, indent, outer, false, [key, none]⟩ =
      .ok ⟨stop, behind, true, false, queue ++ [⟨sign, start, stop⟩], taken, indent, outer,
        allowed', keys⟩)
    {P : TokenStream → Prop}
    (hP : ∀ mark taken,
      P ⟨mark, behind, true, false, [], taken, indent, outer, allowed', keys⟩) :
    Gives (Scalar.quoted (String.ofList value)).kind (Gives sign P)
      ⟨mark, text, true, false, [], taken, indent, outer, true, [none, none]⟩ := by
  obtain ⟨start, stop, read⟩ := readMore_item mark taken indent outer slack item
  let scalar : Token := ⟨(Scalar.quoted (String.ofList value)).kind, start, stop⟩
  have harmless : ∀ k ∈ some (⟨false, taken, start⟩ : PossibleKey), k.required = false := by simp
  obtain ⟨key', given, refresh⟩ :=
    refreshKeys_brackets stop [scalar] taken indent outer false rest harmless
  rcases given with rfl | rfl
  · -- it may still be a key, so the sign is read at once
    obtain ⟨start', stop', readSign⟩ := hsign stop [scalar] taken _ harmless
    exact gives_of_lookahead rfl read rfl refresh (by simp [unsettled]) rfl readSign rfl rfl quiet
      (gives_of_queue rfl rfl quiet (hP _ _))
  · obtain ⟨start', stop', readSign⟩ :=
      hsign stop [] (taken + 1) none (fun k (hk : k ∈ (none : Option PossibleKey)) => nomatch hk)
    exact gives_of_refresh rfl read rfl refresh rfl rfl (.inr rfl)
      (gives_of_readMore rfl readSign rfl rfl quiet (hP _ _))

/-- The texts of a sequence are given one after the other. -/
theorem items_given {items : List String} (h : Items items text rest) {P : TokenStream → Prop}
    (hP : ∀ mark taken, P ⟨mark, rest, true, false, [], taken, indent, outer, false, [none]⟩) :
    ItemTokens P items
      ⟨mark, text, true, false, [], taken, indent, outer, true, [none, none]⟩ := by
  induction h generalizing mark taken with
  | close slack =>
    obtain ⟨start, stop, read⟩ := readMore_close mark [] taken indent outer true slack
      (fun k (hk : k ∈ (none : Option PossibleKey)) => nomatch hk)
    exact gives_of_readMore rfl read rfl rfl (.inl rfl) (hP _ _)
  | last before item after =>
    refine (gives_item mark taken indent outer before item (.inl rfl) (fun mark queue taken _ =>
      readMore_close mark queue taken indent outer false after) hP).mono ?_
    exact fun _ closing => .inl ⟨rfl, closing⟩
  | more before item after _ ih =>
    refine (gives_item mark taken indent outer before item (.inr rfl) (fun mark queue taken _ =>
      readMore_comma mark queue taken indent outer false after)
      fun mark taken => ih mark taken hP).mono ?_
    exact fun _ comma => .inr comma

end

/-! ### Pairs -/

/-- A value as tokens; no token stands for a value that is left out. -/
def NodeTokens (P : TokenStream → Prop) : Node → TokenStream → Prop
  | .scalar scalar => fun stream => Gives scalar.kind P stream ∨ scalar = .word "" ∧ P stream
  | .texts items => Gives (.opening .square) (ItemTokens P items)

/-- Pairs as tokens, up to the end of the block and of the text. -/
def PairTokens : List Pair → TokenStream → Prop
  | [] => Gives .blockEnd (Gives .streamEnd fun _ => True)
  | (key, node) :: pairs =>
    Gives .key (Gives key.kind (Gives .value (NodeTokens (PairTokens pairs) node)))

/-- A mapping as tokens. -/
def MappingTokens : List Pair → TokenStream → Prop
  | [] => Gives .streamStart (Gives .streamEnd fun _ => True)
  | pairs => Gives .streamStart (Gives .blockMapping (PairTokens pairs))

section

variable (mark : Mark) {text value rest : List Char} (taken : Nat) {margin : Nat}
  {pairs : List Pair} {P : TokenStream → Prop}

/-- A scalar behind its key is read, and what is left of the gap behind it leads to the next
pair. -/
theorem readMore_scalar {scalar : Scalar} (h : scalar.Written value text)
    (tail : LineTail text rest) (behind : Behind margin pairs rest) {gap : List Char}
    (hgap : Stretch Blank gap value) (deep : margin ≤ mark.column) :
    ∃ start stop mark' allowed text', Leads margin pairs allowed mark' text' ∧
      readMore ⟨mark, gap, true, false, [], taken, margin, [-1], false, [none]⟩ =
        .ok ⟨mark', text', true, false, [⟨scalar.kind, start, stop⟩], taken, margin, [-1], allowed,
          [none]⟩ := by
  obtain ⟨c, more, rfl, noGap, noRemark⟩ := h.head
  obtain ⟨start, along, same⟩ := passGap_blanks false false hgap (.inr rfl) mark
  have deep' : (margin : Int) ≤ start.column := by
    have := along.column
    have := (hgap.covers fun c hc => .inr hc.printable).length
    omega
  have read : readMore ⟨mark, gap, true, false, [], taken, margin, [-1], false, [none]⟩ =
      readAt ⟨start, c :: more, true, false, [], taken, margin, [-1], false, [none]⟩ c more :=
    readMore_at rfl (same.trans (passGap_stop noGap noRemark start)) rfl (.inr deep')
  cases h with
  | @word _ letters _ letter dash =>
    obtain ⟨mark₁, -, word⟩ := readPlain_word (margin + 1) start letter dash text
    obtain ⟨found, gapRead, hfound, leads⟩ :=
      readPlain_gap start ⟨mark₁, (c :: letters).reverse, .none, mark₁, false⟩
        (tail.leads behind mark₁) (.inr (tail.gapFollows behind))
    refine ⟨start, found.behindText, found.mark, found.brokenOff, found.rest, leads, ?_⟩
    rw [read, readAt_word (letter c List.mem_cons_self) dash]
    have least : ((margin : Int) + 1).toNat = margin + 1 := by omega
    have scalar := word.trans gapRead
    rw [List.cons_append] at scalar
    simp [readPlainToken, saveKey, inBrackets, least, scalar, hfound, enqueue, moveTo, Scalar.kind,
      Scalar.word, bind, Except.bind, pure, Except.pure]
  | quoted quoted =>
    obtain ⟨mark', -, scalar⟩ := readQuoted_written start quoted [] []
      (show 0 < (start.forward 1).column by simp [Mark.forward])
    refine ⟨start, mark', mark', false, text, tail.leads behind mark', ?_⟩
    rw [read, readAt_quote]
    simp [readQuotedToken, readNodeToken, saveKey, Gap.none, scalar, enqueue, moveTo, Scalar.kind,
      Scalar.quoted, bind, Except.bind, pure, Except.pure]

/-- A value behind its key, with what the gap behind it leads to. -/
theorem node_given {node : Node} (h : node.Written value text) (tail : LineTail text rest)
    (behind : Behind margin pairs rest) {gap : List Char} (hgap : Stretch Blank gap value)
    (deep : margin ≤ mark.column)
    (hP : ∀ mark taken allowed text, Leads margin pairs allowed mark text →
      P ⟨mark, text, true, false, [], taken, margin, [-1], allowed, [none]⟩) :
    NodeTokens P node ⟨mark, gap, true, false, [], taken, margin, [-1], false, [none]⟩ := by
  cases h with
  | scalar scalar =>
    obtain ⟨start, stop, mark', allowed, text', leads, read⟩ :=
      readMore_scalar mark taken scalar tail behind hgap deep
    exact .inl (gives_of_readMore rfl read rfl rfl (.inl rfl) (hP _ _ _ _ leads))
  | @texts items inner _ items =>
    obtain ⟨start, along, same⟩ := passGap_blanks false false hgap (.inr rfl) mark
    have deep' : (margin : Int) ≤ start.column := by
      have := along.column
      have := (hgap.covers fun c hc => .inr hc.printable).length
      omega
    have read : readMore ⟨mark, gap, true, false, [], taken, margin, [-1], false, [none]⟩ =
        readAt ⟨start, '[' :: inner, true, false, [], taken, margin, [-1], false, [none]⟩ '['
          inner :=
      readMore_at rfl (same.trans (passGap_stop (by decide) (by decide) start)) rfl (.inr deep')
    rw [readAt_open] at read
    refine gives_of_readMore rfl read rfl rfl (.inr rfl) ?_
    exact items_given _ _ margin [-1] items fun mark taken => hP _ _ _ _ (tail.leads behind mark)

end

/-! ### Keys -/

section

variable {mark start : Mark} {before text behind : List Char} {taken : Nat} {indent : Int}
  {outer : List Int} {allowed : Bool}

/-- A key is read, up to the blanks before its colon. -/
theorem readMore_key {key : Scalar} (h : KeyWritten key text behind)
    (gap : gapFollows behind = true)
    (pass : passGap false allowed false mark before = (true, start, text))
    (deep : indent ≤ start.column) :
    ∃ stop mark' blanks, start.Along text mark' blanks ∧ Stretch Blank blanks (':' :: behind) ∧
      readMore ⟨mark, before, true, false, [], taken, indent, outer, allowed, [none]⟩ =
        .ok ⟨mark', blanks, true, false, [⟨key.kind, start, stop⟩], taken, indent, outer, false,
          [some ⟨indent = start.column, taken, start⟩]⟩ := by
  obtain ⟨blanks, scalar, hblanks, -⟩ := h
  cases scalar with
  | @word c letters _ letter dash =>
    have read : readMore ⟨mark, before, true, false, [], taken, indent, outer, allowed, [none]⟩ =
        readAt ⟨start, c :: (letters ++ blanks), true, false, [], taken, indent, outer, true,
          [none]⟩ c (letters ++ blanks) := readMore_at rfl pass rfl (.inr deep)
    obtain ⟨mark₁, along, word⟩ := readPlain_word (indent + 1).toNat start letter dash blanks
    have inside : (indent + 1).toNat ≤ mark₁.column := by
      have := along.column
      simp only [List.cons_append, List.length_cons, List.length_append] at this
      omega
    obtain ⟨mark', along', colon⟩ := readPlain_colon (indent + 1).toNat start hblanks gap mark₁
      (c :: letters).reverse [] mark₁ false inside
    refine ⟨mark₁, mark', ':' :: behind, along.trans along', .none _, ?_⟩
    have scalar := word.trans colon
    rw [List.cons_append] at scalar
    rw [read, readAt_word (letter c List.mem_cons_self) dash]
    simp [readPlainToken, saveKey, forgetKey, inBrackets, scalar, enqueue, moveTo, Scalar.kind,
      Scalar.word, bind, Except.bind, pure, Except.pure]
  | @quoted value inner _ quoted =>
    have read : readMore ⟨mark, before, true, false, [], taken, indent, outer, allowed, [none]⟩ =
        readAt ⟨start, '\"' :: inner, true, false, [], taken, indent, outer, true, [none]⟩
          '\"' inner := readMore_at rfl pass rfl (.inr deep)
    obtain ⟨mark', along, scalar⟩ := readQuoted_written start quoted [] []
      (show 0 < (start.forward 1).column by simp [Mark.forward])
    refine ⟨mark', mark', blanks, (start.along_forward '\"' inner).trans along, hblanks, ?_⟩
    rw [read, readAt_quote]
    simp [readQuotedToken, readNodeToken, saveKey, forgetKey, inBrackets, Gap.none, scalar, enqueue,
      moveTo, Scalar.kind, Scalar.quoted, bind, Except.bind, pure, Except.pure]

/-- A place further on its line is still a key's place, if the key is not too long by then. -/
theorem refreshKeys_along {rest : List Char} (along : start.Along text mark rest)
    (short : text.length ≤ rest.length + Yaml.longestKey) (queue : List Token) (required : Bool) :
    refreshKeys ⟨mark, rest, true, false, queue, taken, indent, outer, false,
        [some ⟨required, taken, start⟩]⟩ =
      .ok ⟨mark, rest, true, false, queue, taken, indent, outer, false,
        [some ⟨required, taken, start⟩]⟩ := by
  have index : ¬ (start.index + TokenStream.longestKey < mark.index) := by
    have := along.index
    simp only [TokenStream.longestKey, Yaml.longestKey] at *
    omega
  simp only [refreshKeys, List.mapM_cons, List.mapM_nil, refreshKey, along.line, index,
    lt_self_iff_false, decide_false, Bool.or_self, Bool.false_eq_true, if_false]
  rfl

/-- The colon behind a key is found on its line, before the key has become too long. -/
theorem readMore_colon {key : Scalar} (h : KeyWritten key text behind)
    (gap : gapFollows behind = true) {blanks : List Char} (along : start.Along text mark blanks)
    (hblanks : Stretch Blank blanks (':' :: behind)) (queue : List Token) (required : Bool)
    (deep : indent ≤ start.column) :
    ∃ colon, start.Along text colon (':' :: behind) ∧
      readMore ⟨mark, blanks, true, false, queue, taken, indent, outer, false,
          [some ⟨required, taken, start⟩]⟩ =
        readColon ⟨colon, ':' :: behind, true, false, queue, taken, indent, outer, false,
          [some ⟨required, taken, start⟩]⟩ := by
  have longer := h.covers.length
  obtain ⟨-, -, -, short⟩ := h
  obtain ⟨colon, along', same⟩ := passGap_blanks false false hblanks (.inr rfl) mark
  have whole := along.trans along'
  have deep' : indent ≤ colon.column := by
    have := whole.column
    simp only [List.length_cons] at this
    omega
  have read : readMore ⟨mark, blanks, true, false, queue, taken, indent, outer, false,
        [some ⟨required, taken, start⟩]⟩ =
      readAt ⟨colon, ':' :: behind, true, false, queue, taken, indent, outer, false,
        [some ⟨required, taken, start⟩]⟩ ':' behind :=
    readMore_at rfl (same.trans (passGap_stop (by decide) (by decide) colon))
      (refreshKeys_along whole short queue required) (.inr deep')
  exact ⟨colon, whole, read.trans (readAt_colon _ gap)⟩

/-- The colon behind a later key of a block. -/
theorem readColon_later (mark : Mark) (token : Token) (required : Bool) :
    readColon ⟨mark, ':' :: behind, true, false, [token], taken, start.column, outer, false,
        [some ⟨required, taken, start⟩]⟩ =
      .ok ⟨mark.forward 1, behind, true, false,
        [⟨.key, start, start⟩, token, ⟨.value, mark, mark.forward 1⟩], taken, start.column, outer,
        false, [none]⟩ := by
  simp [readColon, insertAt, openBlock, inBrackets, take, enqueue, moveTo, pure, Except.pure]

/-- The colon behind the first key of a block. -/
theorem readColon_first (mark : Mark) (token : Token) (required : Bool) :
    readColon ⟨mark, ':' :: behind, true, false, [token], taken, -1, outer, false,
        [some ⟨required, taken, start⟩]⟩ =
      .ok ⟨mark.forward 1, behind, true, false,
        [⟨.blockMapping, start, start⟩, ⟨.key, start, start⟩, token,
          ⟨.value, mark, mark.forward 1⟩], taken, start.column, -1 :: outer, false, [none]⟩ := by
  have deeper : ¬ ((start.column : Int) ≤ -1) := by omega
  simp [readColon, insertAt, openBlock, inBrackets, take, enqueue, moveTo, deeper, pure,
    Except.pure]

variable {margin : Nat} {P : TokenStream → Prop}

/-- A key is given together with its mark and its colon. The first one opens the block. -/
theorem key_given {key : Scalar} (h : KeyWritten key text behind)
    (gap : gapFollows behind = true)
    (pass : passGap false allowed false mark before = (true, start, text))
    (column : start.column = margin)
    (hP : ∀ mark taken, margin ≤ mark.column →
      P ⟨mark, behind, true, false, [], taken, margin, [-1], false, [none]⟩) :
    Gives .key (Gives key.kind (Gives .value P))
        ⟨mark, before, true, false, [], taken, margin, [-1], allowed, [none]⟩ ∧
      Gives .blockMapping (Gives .key (Gives key.kind (Gives .value P)))
        ⟨mark, before, true, false, [], taken, -1, [], allowed, [none]⟩ := by
  subst column
  have longer := h.covers.length
  -- in either case, two tokens are read, and the others are put before them
  have step (indent : Int) (outer : List Int) (deep : indent ≤ start.column) :
      ∃ stop mark' blanks colon, start.column ≤ colon.column ∧
        readMore ⟨mark, before, true, false, [], taken, indent, outer, allowed, [none]⟩ =
          .ok ⟨mark', blanks, true, false, [⟨key.kind, start, stop⟩], taken, indent, outer, false,
            [some ⟨indent = start.column, taken, start⟩]⟩ ∧
        refreshKeys ⟨mark', blanks, true, false, [⟨key.kind, start, stop⟩], taken, indent, outer,
            false, [some ⟨indent = start.column, taken, start⟩]⟩ =
          .ok ⟨mark', blanks, true, false, [⟨key.kind, start, stop⟩], taken, indent, outer, false,
            [some ⟨indent = start.column, taken, start⟩]⟩ ∧
        readMore ⟨mark', blanks, true, false, [⟨key.kind, start, stop⟩], taken, indent, outer,
            false, [some ⟨indent = start.column, taken, start⟩]⟩ =
          readColon ⟨colon, ':' :: behind, true, false, [⟨key.kind, start, stop⟩], taken, indent,
            outer, false, [some ⟨indent = start.column, taken, start⟩]⟩ := by
    obtain ⟨stop, mark', blanks, along, hblanks, read⟩ := readMore_key h gap pass deep
    obtain ⟨colon, whole, read'⟩ := readMore_colon h gap along hblanks [⟨key.kind, start, stop⟩]
      (indent = start.column) deep
    have column := whole.column
    refine ⟨stop, mark', blanks, colon, ?_, read, ?_, read'⟩
    · simp only [List.length_cons] at column
      omega
    · obtain ⟨-, -, -, short⟩ := h
      have := (hblanks.covers fun c hc => .inr hc.printable).length
      exact refreshKeys_along along (by omega) _ _
  constructor
  · obtain ⟨stop, mark', blanks, colon, further, read, refresh, read'⟩ :=
      step start.column [-1] (Int.le_refl _)
    rw [readColon_later] at read'
    refine gives_of_lookahead rfl read rfl refresh (by simp [unsettled]) rfl read' rfl rfl
      (.inl rfl) ?_
    refine gives_of_queue rfl rfl (.inl rfl) (gives_of_queue rfl rfl (.inl rfl) (hP _ _ ?_))
    exact Nat.le_succ_of_le further
  · obtain ⟨stop, mark', blanks, colon, further, read, refresh, read'⟩ := step (-1) [] (by omega)
    rw [readColon_first] at read'
    refine gives_of_lookahead rfl read rfl refresh (by simp [unsettled]) rfl read' rfl rfl
      (.inl rfl) ?_
    refine gives_of_queue rfl rfl (.inl rfl) (gives_of_queue rfl rfl (.inl rfl)
      (gives_of_queue rfl rfl (.inl rfl) (hP _ _ ?_)))
    exact Nat.le_succ_of_le further

end

/-! ### The whole mapping -/

section

variable {margin : Nat} {pairs : List Pair} {allowed : Bool} {mark start : Mark}
  {text text' : List Char} {P : TokenStream → Prop}

/-- The end of the text closes the block, if one is open. -/
theorem end_given (h : Leads margin [] allowed mark text) (taken : Nat) :
    Gives .blockEnd (Gives .streamEnd fun _ => True)
        ⟨mark, text, true, false, [], taken, margin, [-1], allowed, [none]⟩ ∧
      Gives .streamEnd (fun _ => True)
        ⟨mark, text, true, false, [], taken, -1, [], allowed, [none]⟩ := by
  obtain ⟨allowed', mark', rest, pass, ahead, -⟩ := h
  cases ahead
  let last : Mark := if mark'.column = 0 then mark' else ⟨mark'.index, mark'.line + 1, 0⟩
  have deep : (-1 : Int) < margin := by omega
  constructor
  · -- the block is closed before the text is found to be at its end, or then
    obtain ⟨stop, read⟩ : ∃ stop,
        readMore ⟨mark, text, true, false, [], taken, margin, [-1], allowed, [none]⟩ =
          .ok ⟨last, [], true, true, [⟨.blockEnd, stop, stop⟩, ⟨.streamEnd, last, last⟩], taken, -1,
            [], false, [none]⟩ := by
      by_cases shallow : (mark'.column : Int) < margin
      · refine ⟨mark', ?_⟩
        simp [readMore, inBrackets, pass, moveTo, refreshKeys, refreshKey, closeBlocks,
          closeColumns, shallow, readEnd, forgetKey, enqueue, bind, Except.bind, pure,
          Except.pure, last]
      · refine ⟨last, ?_⟩
        simp [readMore, inBrackets, pass, moveTo, refreshKeys, refreshKey, closeBlocks,
          closeColumns, shallow, deep, readEnd, forgetKey, enqueue, bind, Except.bind, pure,
          Except.pure, last]
    exact gives_of_readMore rfl read rfl rfl (.inl rfl)
      (gives_of_queue rfl rfl (.inl rfl) trivial)
  · have read : readMore ⟨mark, text, true, false, [], taken, -1, [], allowed, [none]⟩ =
        .ok ⟨last, [], true, true, [⟨.streamEnd, last, last⟩], taken, -1, [], false, [none]⟩ := by
      simp [readMore, inBrackets, pass, moveTo, refreshKeys, refreshKey, closeBlocks,
        closeColumns, readEnd, forgetKey, enqueue, bind, Except.bind, pure, Except.pure, last]
    exact gives_of_readMore rfl read rfl rfl (.inl rfl) trivial

/-- Behind its first key, the block gives its pairs one after the other. -/
theorem value_given {pair : Pair} {rest : List Char} (h : pair.Written text rest)
    (behind : Behind margin pairs rest)
    (pass : passGap false allowed false mark text' = (true, start, text))
    (column : start.column = margin)
    (hP : ∀ mark taken allowed text, Leads margin pairs allowed mark text →
      P ⟨mark, text, true, false, [], taken, margin, [-1], allowed, [none]⟩) (taken : Nat) :
    Gives .key (Gives pair.1.kind (Gives .value (NodeTokens P pair.2)))
        ⟨mark, text', true, false, [], taken, margin, [-1], allowed, [none]⟩ ∧
      Gives .blockMapping (Gives .key (Gives pair.1.kind (Gives .value (NodeTokens P pair.2))))
        ⟨mark, text', true, false, [], taken, -1, [], allowed, [none]⟩ := by
  cases h with
  | full hkey blank hgap hnode htail =>
    exact key_given hkey blank.isGap_eq_true pass column fun mark taken deep =>
      node_given mark taken hnode htail behind (.more blank hgap) deep hP
  | bare hkey htail =>
    exact key_given hkey (htail.gapFollows behind) pass column fun mark taken _ =>
      .inr ⟨rfl, hP _ _ _ _ (htail.leads behind mark)⟩

/-- The pairs of an open block are given one after the other. -/
theorem pairs_given (h : Leads margin pairs allowed mark text) (taken : Nat) :
    PairTokens pairs ⟨mark, text, true, false, [], taken, margin, [-1], allowed, [none]⟩ := by
  induction pairs generalizing mark text allowed taken with
  | nil => exact (end_given h taken).1
  | cons pair pairs ih =>
    obtain ⟨allowed', start, rest, pass, ahead, place⟩ := h
    obtain - | ⟨written, behind⟩ := ahead
    obtain ⟨c, more, rfl, -⟩ := written.head
    obtain ⟨rfl, column⟩ := place (List.cons_ne_nil _ _)
    exact (value_given written behind pass column (fun _ taken _ _ h => ih h taken) taken).1

/-- A mapping as it is written gives its tokens. -/
theorem mapping_given (h : Body margin pairs text) : MappingTokens pairs (ofChars text) := by
  have leads := h.leads .zero rfl
  have first {P : TokenStream → Prop}
      (hP : P ⟨.zero, text, true, false, [], 1, -1, [], true, [none]⟩) :
      Gives .streamStart P (ofChars text) :=
    gives_of_readMore rfl rfl rfl rfl (.inl rfl) hP
  cases pairs with
  | nil => exact first (end_given leads 1).2
  | cons pair pairs =>
    obtain ⟨allowed', start, rest, pass, ahead, place⟩ := leads
    obtain - | ⟨written, behind⟩ := ahead
    obtain ⟨c, more, rfl, -⟩ := written.head
    obtain ⟨rfl, column⟩ := place (List.cons_ne_nil _ _)
    exact first
      (value_given written behind pass column (fun _ taken _ _ h => pairs_given h taken) 1).2

end

end TokenStream

end Marksheet.Yaml
