import Mathlib
import Marksheet.Proofs.Yaml.Written

/-!
# Gaps and scalars are read as they are written

A stretch on one line moves the mark along with it. Passing over a gap of a
block leads to the next pair or to the end of the text, and the same is reached
if a word before the gap has taken a part of it for itself.
-/

namespace Marksheet.Yaml

/-- One mark lies further along the same line than another, by as much as the texts differ. -/
structure Mark.Along (mark : Mark) (text : List Char) (mark' : Mark) (rest : List Char) : Prop where
  line : mark'.line = mark.line
  index : mark'.index + rest.length = mark.index + text.length
  column : mark'.column + rest.length = mark.column + text.length

section

variable {mark mark' mark'' : Mark} {text middle rest : List Char} {c : Char}

theorem Mark.Along.refl (mark : Mark) (text : List Char) : mark.Along text mark text :=
  ⟨rfl, rfl, rfl⟩

theorem Mark.Along.trans (h : mark.Along text mark' middle) (h' : mark'.Along middle mark'' rest) :
    mark.Along text mark'' rest :=
  ⟨h'.line.trans h.line, by have := h.index; have := h'.index; omega,
    by have := h.column; have := h'.column; omega⟩

/-- A character that is no break moves the mark along. -/
theorem Mark.along_step (h : isBreak c = false) (mark : Mark) (text : List Char) :
    mark.Along (c :: text) (mark.step c) text := by
  rw [Mark.step, if_neg (by simp [h])]
  exact ⟨rfl, by simp [Mark.forward]; omega, by simp [Mark.forward]; omega⟩

theorem Mark.along_forward (mark : Mark) (c : Char) (text : List Char) :
    mark.Along (c :: text) (mark.forward 1) text :=
  ⟨rfl, by simp [Mark.forward]; omega, by simp [Mark.forward]; omega⟩

end

theorem isBreak_of_isGap {c : Char} (h : isGap c = false) : isBreak c = false := by
  simp only [isGap, Bool.or_eq_false_iff] at h
  exact h.2

theorem Blank.isGap_eq_true {c : Char} (h : Blank c) : isGap c = true := by
  rcases h with rfl | rfl <;> decide

/-! ### Gaps -/

namespace TokenStream

variable {brackets allowed : Bool} {text rest : List Char}

theorem passGap_nil (remark : Bool) (mark : Mark) :
    passGap brackets allowed remark mark [] = (allowed, mark, []) := rfl

theorem passGap_cons (remark : Bool) (mark : Mark) (c : Char) (rest : List Char) :
    passGap brackets allowed remark mark (c :: rest) =
      if isBreak c then passGap brackets (allowed || !brackets) false (mark.step c) rest
      else if remark || c = ' ' || (c = '\t' && (brackets || !allowed)) then
        passGap brackets allowed remark (mark.step c) rest
      else if c = '#' then passGap brackets allowed true (mark.step c) rest
      else (allowed, mark, c :: rest) := rfl

/-- A gap ends at what is neither a gap nor a remark. -/
theorem passGap_stop {c : Char} (h : isGap c = false) (hremark : c ≠ '#') (mark : Mark) :
    passGap brackets allowed false mark (c :: rest) = (allowed, mark, c :: rest) := by
  simp only [isGap, isSpace, Bool.or_eq_false_iff, decide_eq_false_iff_not] at h
  simp [passGap_cons, h, hremark]

theorem passGap_feed (remark : Bool) (mark : Mark) :
    passGap brackets allowed remark mark ('\n' :: rest) =
      passGap brackets (allowed || !brackets) false mark.nextLine rest := by
  rw [passGap_cons, if_pos (by decide)]
  rfl

/-- A stretch of characters that are passed over. -/
theorem passGap_stretch {kind : Char → Prop} (brackets allowed remark : Bool)
    (h : Stretch kind text rest)
    (pass : ∀ c, kind c → isBreak c = false ∧
      (remark || c = ' ' || (c = '\t' && (brackets || !allowed))) = true) (mark : Mark) :
    ∃ mark', mark.Along text mark' rest ∧
      passGap brackets allowed remark mark text = passGap brackets allowed remark mark' rest := by
  induction h generalizing mark with
  | none rest => exact ⟨mark, .refl mark rest, rfl⟩
  | @more c text rest hc _ ih =>
    obtain ⟨noBreak, passed⟩ := pass c hc
    obtain ⟨mark', along, same⟩ := ih (mark.step c)
    refine ⟨mark', (Mark.along_step noBreak mark text).trans along, ?_⟩
    rw [passGap_cons, if_neg (by simp [noBreak]), if_pos passed, same]

theorem passGap_blanks (brackets allowed : Bool) (h : Stretch Blank text rest)
    (hpass : brackets = true ∨ allowed = false) (mark : Mark) :
    ∃ mark', mark.Along text mark' rest ∧
      passGap brackets allowed false mark text = passGap brackets allowed false mark' rest := by
  refine passGap_stretch _ _ _ h (fun c hc => ⟨hc.printable.isBreak_eq_false, ?_⟩) mark
  rcases hc with rfl | rfl
  · simp
  · rcases hpass with rfl | rfl <;> simp

theorem passGap_spaces (h : Stretch (· = ' ') text rest) (mark : Mark) :
    ∃ mark', mark.Along text mark' rest ∧
      passGap brackets allowed false mark text = passGap brackets allowed false mark' rest :=
  passGap_stretch _ _ _ h (by rintro _ rfl; exact ⟨by decide, by simp⟩) mark

theorem passGap_remark (h : Stretch Printable text rest) (mark : Mark) :
    ∃ mark', passGap brackets allowed false mark ('#' :: text) =
      passGap brackets allowed true mark' rest := by
  obtain ⟨mark', -, same⟩ := passGap_stretch brackets allowed true h
    (fun c hc => ⟨hc.isBreak_eq_false, rfl⟩) (mark.step '#')
  refine ⟨mark', ?_⟩
  rw [passGap_cons, if_neg (by decide), if_neg (by simp), if_pos rfl, same]

theorem passGap_lineTail (h : LineTail text rest) (mark : Mark) :
    ∃ mark' remark, passGap false false false mark text =
      passGap false false remark mark' rest := by
  cases h with
  | blanks h =>
    obtain ⟨mark', -, same⟩ := passGap_blanks false false h (.inr rfl) mark
    exact ⟨mark', false, same⟩
  | remark h blank shown =>
    obtain ⟨mark₁, -, same⟩ := passGap_blanks false false h (.inr rfl) mark
    obtain ⟨mark₂, -, same'⟩ := passGap_blanks false false (.more blank (.none _)) (.inr rfl) mark₁
    obtain ⟨mark', same''⟩ := passGap_remark shown mark₂
    exact ⟨mark', true, (same.trans same').trans same''⟩

theorem passGap_emptyLine (h : EmptyLine text rest) (mark : Mark) :
    ∃ mark' remark, passGap false allowed false mark text =
      passGap false allowed remark mark' rest := by
  cases h with
  | spaces h =>
    obtain ⟨mark', -, same⟩ := passGap_spaces h mark
    exact ⟨mark', false, same⟩
  | remark h shown =>
    obtain ⟨mark₁, -, same⟩ := passGap_spaces h mark
    obtain ⟨mark', same'⟩ := passGap_remark shown mark₁
    exact ⟨mark', true, same.trans same'⟩

theorem passGap_emptyLines (h : EmptyLines text rest) (mark : Mark) (start : mark.column = 0) :
    ∃ mark', mark'.column = 0 ∧
      passGap false true false mark text = passGap false true false mark' rest := by
  induction h generalizing mark with
  | none rest => exact ⟨mark, start, rfl⟩
  | more h _ ih =>
    obtain ⟨mark₁, remark, same⟩ := passGap_emptyLine h mark
    obtain ⟨mark', start', same'⟩ := ih mark₁.nextLine rfl
    exact ⟨mark', start', by rw [same, passGap_feed, Bool.true_or, same']⟩

theorem passGap_slack (allowed : Bool) (h : Slack text rest) (mark : Mark) :
    ∃ mark', passGap true allowed false mark text = passGap true allowed false mark' rest := by
  have gap : ∀ {c : Char} {rest : List Char}, Blank c ∨ c = '\n' → ∀ mark : Mark, ∃ mark',
      passGap true allowed false mark (c :: rest) = passGap true allowed false mark' rest := by
    rintro c rest (h | rfl) mark
    · obtain ⟨mark', -, same⟩ := passGap_blanks true allowed (.more h (.none rest)) (.inl rfl) mark
      exact ⟨mark', same⟩
    · exact ⟨mark.nextLine, by rw [passGap_feed]; simp⟩
  induction h generalizing mark with
  | none rest => exact ⟨mark, rfl⟩
  | gap hc _ ih =>
    obtain ⟨mark₁, same⟩ := gap hc mark
    obtain ⟨mark', same'⟩ := ih mark₁
    exact ⟨mark', same.trans same'⟩
  | remark hc shown _ ih =>
    obtain ⟨mark₁, same⟩ := gap hc mark
    obtain ⟨mark₂, same'⟩ := passGap_remark shown mark₁
    obtain ⟨mark', same''⟩ := ih mark₂.nextLine
    exact ⟨mark', by rw [same, same', passGap_feed]; simpa using same''⟩

end TokenStream

/-! ### The gap between two pairs -/

/-- What follows the line of a pair: nothing, or its break and the other pairs. -/
inductive Behind (margin : Nat) : List Pair → List Char → Prop
  | none : Behind margin [] []
  | feed {pairs : List Pair} {text : List Char} (h : Body margin pairs text) :
      Behind margin pairs ('\n' :: text)

/-- The next pair begins here, or there is none and the text is at its end. -/
inductive Ahead (margin : Nat) : List Pair → List Char → Prop
  | none : Ahead margin [] []
  | pair {pair : Pair} {pairs : List Pair} {text rest : List Char} (h : pair.Written text rest)
      (behind : Behind margin pairs rest) : Ahead margin (pair :: pairs) text

/-- Passing over a gap of a block leads to the next pair, at its margin and where a key can stand,
or to the end of the text. -/
def Leads (margin : Nat) (pairs : List Pair) (allowed : Bool) (mark : Mark) (text : List Char) :
    Prop :=
  ∃ allowed' mark' rest, TokenStream.passGap false allowed false mark text =
    (allowed', mark', rest) ∧ Ahead margin pairs rest ∧
      (rest ≠ [] → allowed' = true ∧ mark'.column = margin)

section

variable {text rest : List Char} {margin : Nat} {pairs : List Pair}

/-- What a letter of a word is not. -/
theorem WordChar.in_word {c : Char} (h : WordChar c) :
    isGap c = false ∧ c ≠ ':' ∧ c ≠ '#' ∧ c ≠ '.' ∧ c ≠ '\"' :=
  ascii_forall
    (P := fun c => WordChar c → isGap c = false ∧ c ≠ ':' ∧ c ≠ '#' ∧ c ≠ '.' ∧ c ≠ '\"')
    (by decide +kernel) h.ascii h

/-- A scalar begins with what is neither a gap nor a remark. -/
theorem Scalar.Written.head {scalar : Scalar} (h : scalar.Written text rest) :
    ∃ c more, text = c :: more ∧ isGap c = false ∧ c ≠ '#' := by
  cases h with
  | @word c letters rest h dash =>
    obtain ⟨noGap, -, noRemark, -⟩ := (h c List.mem_cons_self).in_word
    exact ⟨c, letters ++ rest, rfl, noGap, noRemark⟩
  | quoted => exact ⟨_, _, rfl, by decide, by decide⟩

theorem Pair.Written.head {pair : Pair} (h : pair.Written text rest) :
    ∃ c more, text = c :: more ∧ isGap c = false ∧ c ≠ '#' := by
  cases h with
  | full hkey =>
    obtain ⟨_, scalar, -⟩ := hkey
    exact scalar.head
  | bare hkey =>
    obtain ⟨_, scalar, -⟩ := hkey
    exact scalar.head

/-- At a pair there is no gap to pass. -/
theorem passGap_pair {pair : Pair} {allowed : Bool} (h : pair.Written text rest) (mark : Mark) :
    TokenStream.passGap false allowed false mark text = (allowed, mark, text) := by
  obtain ⟨c, more, rfl, noGap, noRemark⟩ := h.head
  exact TokenStream.passGap_stop noGap noRemark mark

/-- At the beginning of a line. -/
theorem Body.leads (h : Body margin pairs text) (mark : Mark) (start : mark.column = 0) :
    Leads margin pairs true mark text := by
  -- behind the empty lines stands the margin of the next pair
  have indented {text inner rest : List Char} {pair : Pair}
      (before : EmptyLines text (List.replicate margin ' ' ++ inner))
      (h : pair.Written inner rest) :
      ∃ mark', TokenStream.passGap false true false mark text = (true, mark', inner) ∧
        mark'.column = margin := by
    obtain ⟨mark₁, start, same⟩ := TokenStream.passGap_emptyLines before mark start
    have spaces : ∀ n, Stretch (· = ' ') (List.replicate n ' ' ++ inner) inner := fun n => by
      induction n with
      | zero => exact .none inner
      | succ n ih => exact .more rfl ih
    obtain ⟨mark', along, same'⟩ := TokenStream.passGap_spaces (spaces margin) mark₁
    refine ⟨mark', by rw [same, same', passGap_pair h], ?_⟩
    have := along.column
    simp only [List.length_append, List.length_replicate] at this
    omega
  cases h with
  | close before h =>
    obtain ⟨mark₁, -, same⟩ := TokenStream.passGap_emptyLines before mark start
    obtain ⟨mark', remark, same'⟩ := TokenStream.passGap_emptyLine h mark₁
    exact ⟨true, mark', [], by rw [same, same', TokenStream.passGap_nil], .none, by simp⟩
  | last before h =>
    obtain ⟨mark', same, column⟩ := indented before h
    exact ⟨true, mark', _, same, .pair h .none, fun _ => ⟨rfl, column⟩⟩
  | more before h others =>
    obtain ⟨mark', same, column⟩ := indented before h
    exact ⟨true, mark', _, same, .pair h (.feed others), fun _ => ⟨rfl, column⟩⟩

/-- Behind a value. -/
theorem LineTail.leads (h : LineTail text rest) (behind : Behind margin pairs rest) (mark : Mark) :
    Leads margin pairs false mark text := by
  obtain ⟨mark₁, remark, same⟩ := TokenStream.passGap_lineTail h mark
  cases behind with
  | none => exact ⟨false, mark₁, [], by rw [same, TokenStream.passGap_nil], .none, by simp⟩
  | feed body =>
    obtain ⟨allowed', mark', rest', same', reached⟩ := body.leads mark₁.nextLine rfl
    refine ⟨allowed', mark', rest', ?_, reached⟩
    rw [same, TokenStream.passGap_feed]
    exact same'

/-- The tail of a line is a gap, or the end of the text. -/
theorem LineTail.gapFollows (h : LineTail text rest) (behind : Behind margin pairs rest) :
    gapFollows text = true := by
  have stretch {rest : List Char} (h : Stretch Blank text rest)
      (hrest : Yaml.gapFollows rest = true) : Yaml.gapFollows text = true := by
    cases h with
    | none => exact hrest
    | more hc => exact hc.isGap_eq_true
  cases h with
  | blanks h =>
    refine stretch h ?_
    cases behind <;> rfl
  | remark h blank => exact stretch h blank.isGap_eq_true

end

/-! ### Words -/

@[simp] theorem Gap.folded_none : Gap.none.folded = [] := rfl

theorem Gap.broken_push (gap : Gap) (c : Char) :
    (gap.push c).broken = (gap.broken || isBreak c) := by
  cases gap <;> cases h : isBreak c <;> simp [push, broken, h]

section

variable {margin : Nat} {pairs : List Pair} (least : Nat) (start : Mark)

/-- The gap behind a word belongs to the word as far as it goes, and what is left of it leads to
the same place as the whole. -/
theorem readPlain_gap {tail : List Char} (state : PlainState)
    (h : Leads margin pairs state.gap.broken state.mark tail)
    (hfresh : state.fresh = true ∨ gapFollows tail = true) :
    ∃ found, readPlain false (margin + 1) start state tail = .ok found ∧
      found.text = String.ofList state.text.reverse ∧
      Leads margin pairs found.brokenOff found.mark found.rest := by
  induction tail generalizing state with
  | nil => exact ⟨state.close [], rfl, rfl, h⟩
  | cons c rest ih =>
    obtain ⟨allowed', mark', reached, same, ahead, place⟩ := h
    by_cases gap : isGap c = true
    · -- the gap goes on
      by_cases tab : c = '\t' ∧ state.gap.broken = true
      · rw [tab.1, tab.2, TokenStream.passGap_cons, if_neg (by decide), if_neg (by decide),
          if_neg (by decide)] at same
        cases same
        obtain ⟨⟩ | ⟨pair, -⟩ := ahead
        obtain ⟨_, _, same, noGap, -⟩ := pair.head
        cases same
        exact absurd noGap (by decide)
      · have on : Leads margin pairs (state.gap.push c).broken (state.mark.step c) rest := by
          refine ⟨allowed', mark', reached, ?_, ahead, place⟩
          rw [Gap.broken_push, ← same, TokenStream.passGap_cons]
          by_cases newline : isBreak c = true
          · simp [newline]
          · have blank : c = ' ' ∨ c = '\t' := by simpa [isGap, isSpace, newline] using gap
            rcases blank with rfl | rfl
            · simp [newline]
            · simp [newline, show state.gap.broken = false by simpa using tab]
        obtain ⟨found, read, text, leads⟩ := ih
          { state with mark := state.mark.step c, gap := state.gap.push c, fresh := true }
          on (.inl rfl)
        refine ⟨found, ?_, text, leads⟩
        simp only [readPlain]
        rw [if_pos gap, if_neg, read]
        simp only [Bool.and_eq_true, decide_eq_true_eq]
        exact fun bad => tab bad.1
    · -- a remark or the next pair ends the word
      have fresh : state.fresh = true := hfresh.resolve_right (by simpa [gapFollows] using gap)
      refine ⟨state.close (c :: rest), ?_, rfl, allowed', mark', reached, same, ahead, place⟩
      simp only [readPlain]
      rw [if_neg gap]
      by_cases remark : c = '#'
      · subst remark
        simp [fresh, isDocumentIndicator]
      · rw [TokenStream.passGap_stop (by simpa using gap) remark] at same
        cases same
        obtain ⟨broken, column⟩ := place (by simp)
        have hadGap : state.gap ≠ .none := by
          intro none
          rw [none] at broken
          cases broken
        simp [fresh, hadGap, column]

/-- Letters of a word are taken as they are. -/
theorem readPlain_letters {letters : List Char} (h : ∀ d ∈ letters, WordChar d) (mark : Mark)
    (text rest : List Char) : ∃ mark', mark.Along (letters ++ rest) mark' rest ∧
      readPlain false least start ⟨mark, text, .none, mark, false⟩ (letters ++ rest) =
        readPlain false least start ⟨mark', letters.reverse ++ text, .none, mark', false⟩ rest := by
  induction letters generalizing mark text with
  | nil => exact ⟨mark, .refl mark rest, rfl⟩
  | cons c letters ih =>
    obtain ⟨word, others⟩ := List.forall_mem_cons.mp h
    obtain ⟨noGap, noColon⟩ := word.in_word
    obtain ⟨mark', along, same⟩ := ih others (mark.step c) (c :: text)
    refine ⟨mark', (Mark.along_step (isBreak_of_isGap noGap) mark _).trans along, ?_⟩
    rw [List.cons_append]
    simp only [readPlain]
    simpa [noGap, noColon] using same

/-- A word up to what follows it. -/
theorem readPlain_word {c : Char} {letters : List Char} (h : ∀ d ∈ c :: letters, WordChar d)
    (dash : c ≠ '-') (rest : List Char) : ∃ mark', start.Along (c :: letters ++ rest) mark' rest ∧
      readPlain false least start ⟨start, [], .none, start, true⟩ (c :: letters ++ rest) =
        readPlain false least start ⟨mark', (c :: letters).reverse, .none, mark', false⟩ rest := by
  obtain ⟨word, others⟩ := List.forall_mem_cons.mp h
  obtain ⟨noGap, noColon, noRemark, noDot, -⟩ := word.in_word
  obtain ⟨mark', along, same⟩ := readPlain_letters least start others (start.step c) [c] rest
  refine ⟨mark', (Mark.along_step (isBreak_of_isGap noGap) start _).trans along, ?_⟩
  have noIndicator : isDocumentIndicator (c :: (letters ++ rest)) = false := by
    unfold isDocumentIndicator
    split
    · rename_i heq
      exact absurd (List.cons.inj heq).1 dash
    · rename_i heq
      exact absurd (List.cons.inj heq).1 noDot
    · rfl
  rw [List.cons_append, List.reverse_cons, ← same]
  simp only [readPlain]
  simp [noGap, noColon, noRemark, noIndicator]

/-- A word that is a key ends before its colon. -/
theorem readPlain_colon {tail behind : List Char} (h : Stretch Blank tail (':' :: behind))
    (gap : gapFollows behind = true) (mark : Mark) (text read : List Char) (behindText : Mark)
    (fresh : Bool)
    (deep : least ≤ mark.column) : ∃ mark', mark.Along tail mark' (':' :: behind) ∧
      readPlain false least start ⟨mark, text, .spaces read, behindText, fresh⟩ tail =
        .ok ⟨String.ofList text.reverse, behindText, false, mark', ':' :: behind⟩ := by
  generalize target : ':' :: behind = rest at h
  induction h generalizing mark read fresh with
  | none =>
    subst target
    refine ⟨mark, .refl mark _, ?_⟩
    simp only [readPlain]
    simp [gap, isDocumentIndicator, PlainState.close, Gap.broken, Nat.not_lt.mpr deep,
      show isGap ':' = false by decide]
  | @more c middle rest hc _ ih =>
    have noBreak := hc.printable.isBreak_eq_false
    have step := Mark.along_step noBreak mark middle
    obtain ⟨mark', along, same⟩ := ih (mark.step c) (c :: read) true
      (by have := step.column; simp at this; omega) target
    refine ⟨mark', step.trans along, ?_⟩
    simp only [readPlain]
    simpa [hc.isGap_eq_true, Gap.broken, Gap.push, noBreak] using same

end

/-! ### Texts between quotes -/

section

variable (start : Mark) {mark : Mark} {text rest : List Char}

/-- The characters of an escape that have been dealt with are skipped. -/
theorem readQuoted_skip {front : List Char} (h : ∀ c ∈ front, isBreak c = false) (rest : List Char)
    (mark : Mark) (text : List Char) (gap : Gap) : ∃ mark', mark.Along (front ++ rest) mark' rest ∧
      readQuoted false start ⟨mark, text, gap, front.length⟩ (front ++ rest) =
        readQuoted false start ⟨mark', text, gap, 0⟩ rest := by
  induction front generalizing mark with
  | nil => exact ⟨mark, .refl mark rest, rfl⟩
  | cons c front ih =>
    obtain ⟨first, others⟩ := List.forall_mem_cons.mp h
    obtain ⟨mark', along, same⟩ := ih others (mark.step c)
    refine ⟨mark', (Mark.along_step first mark _).trans along, ?_⟩
    rw [← same]
    simp only [List.cons_append, List.length_cons, readQuoted]

theorem escapeOf?_of_named {letter c : Char} (h : (letter, c.toNat) ∈ namedEscapes) :
    escapeOf? letter = some c ∧ isBreak letter = false := by
  have all : ∀ pair ∈ namedEscapes,
      escapeOf? pair.1 = some (Char.ofNat pair.2) ∧ isBreak pair.1 = false := by decide
  simpa only [Char.ofNat_toNat] using all _ h

theorem digitsOf?_of_numbered {letter : Char} {count : Nat}
    (h : (letter, count) ∈ numberedEscapes) :
    escapeOf? letter = none ∧ digitsOf? letter = some count ∧ isBreak letter = false := by
  have all : ∀ pair ∈ numberedEscapes, escapeOf? pair.1 = none ∧
      digitsOf? pair.1 = some pair.2 ∧ isBreak pair.1 = false := by decide
  exact all _ h

theorem hexValue?_of_isHexDigit {d : Char} (h : Source.Alphabet.isHexDigit d = true) :
    hexValue? d = some (Decimal.digitValue d) :=
  ascii_forall
    (P := fun d => Source.Alphabet.isHexDigit d = true → hexValue? d = some (Decimal.digitValue d))
    (by decide +kernel) (ascii_of_isHexDigit h) h

/-- Hexadecimal digits are read as the number that they write. -/
theorem hexNumber?_append {digits : List Char}
    (h : ∀ d ∈ digits, Source.Alphabet.isHexDigit d = true) (value : Nat) (rest : List Char) :
    hexNumber? digits.length value (digits ++ rest) =
      some (digits.foldl (fun value d => value * 16 + Decimal.digitValue d) value) := by
  induction digits generalizing value with
  | nil => rfl
  | cons d digits ih =>
    obtain ⟨first, others⟩ := List.forall_mem_cons.mp h
    rw [List.cons_append, List.length_cons, hexNumber?, hexValue?_of_isHexDigit first]
    exact ih others _

theorem characterOf?_toNat (c : Char) : characterOf? c.toNat = some c := dif_pos c.valid

/-- An escape stands for its character; the characters behind the backslash are none too many. -/
theorem Spelling.escape {c : Char} {behind : List Char} (h : Spelling c ('\\' :: behind) rest)
    (mark : Mark) : ∃ front, behind = front ++ rest ∧ (∀ d ∈ front, isBreak d = false) ∧
      escape start mark behind = .ok (some c, front.length) := by
  cases h with
  | itself _ _ _ backslash => exact absurd rfl backslash
  | @named letter rest h =>
    obtain ⟨meant, noBreak⟩ := escapeOf?_of_named h
    exact ⟨[letter], rfl, by simpa using noBreak, by simp [Yaml.escape, noBreak, meant]⟩
  | @numbered letter digits rest h hex value =>
    obtain ⟨noName, count, noBreak⟩ := digitsOf?_of_numbered h
    refine ⟨letter :: digits, rfl, List.forall_mem_cons.mpr ⟨noBreak, fun d hd =>
      (printable_of_isHexDigit (hex d hd)).isBreak_eq_false⟩, ?_⟩
    have number : hexNumber? digits.length 0 (digits ++ rest) = some c.toNat :=
      (hexNumber?_append hex 0 rest).trans (congrArg some value)
    simp [Yaml.escape, noBreak, noName, count, number, characterOf?_toNat, Nat.add_comm]

/-- A character that stands for itself is taken up; a blank belongs to the text if more follows. -/
theorem readQuoted_itself (rest : List Char) {c : Char} (h : Printable c) (quote : c ≠ '\"')
    (backslash : c ≠ '\\') (front read : List Char) (inside : 0 < mark.column) :
    ∃ front' read', read' ++ front' = c :: (read ++ front) ∧
      readQuoted false start ⟨mark, front, .spaces read, 0⟩ (c :: rest) =
        readQuoted false start ⟨mark.step c, front', .spaces read', 0⟩ rest := by
  by_cases gap : isGap c = true
  · refine ⟨front, c :: read, rfl, ?_⟩
    simp only [readQuoted]
    simp [gap, Gap.push, h.isBreak_eq_false]
  · refine ⟨c :: (read ++ front), [], rfl, ?_⟩
    simp only [readQuoted]
    simp [gap, quote, backslash, Nat.ne_of_gt inside, Gap.folded, Gap.none]

theorem readQuoted_escape {c : Char} {count : Nat}
    (h : escape start mark rest = .ok (some c, count)) (front read : List Char)
    (inside : 0 < mark.column) :
    readQuoted false start ⟨mark, front, .spaces read, 0⟩ ('\\' :: rest) =
      readQuoted false start ⟨mark.step '\\', c :: (read ++ front), .spaces [], count⟩ rest := by
  simp only [readQuoted]
  simp [h, Nat.ne_of_gt inside, Gap.folded, Gap.none, show isGap '\\' = false by decide, bind,
    Except.bind]

/-- A quoted text is read as what it stands for. -/
theorem readQuoted_written {value : List Char} (h : Quoted value text rest) (front read : List Char)
    (inside : 0 < mark.column) : ∃ mark', mark.Along text mark' rest ∧
      readQuoted false start ⟨mark, front, .spaces read, 0⟩ text =
        .ok (String.ofList ((read ++ front).reverse ++ value), mark', rest) := by
  induction h generalizing mark front read with
  | close rest =>
    refine ⟨mark.step '\"', Mark.along_step (by decide) mark rest, ?_⟩
    simp [readQuoted, Nat.ne_of_gt inside, Gap.folded, show isGap '\"' = false by decide]
  | @char c value text middle rest h _ ih =>
    have shorter := h.covers.length
    -- the spelling of the character is passed, and it is the next one of the text
    obtain ⟨mark₁, front', read', along, next, same⟩ : ∃ mark₁ front' read',
        mark.Along text mark₁ middle ∧ read' ++ front' = c :: (read ++ front) ∧
        readQuoted false start ⟨mark, front, .spaces read, 0⟩ text =
          readQuoted false start ⟨mark₁, front', .spaces read', 0⟩ middle := by
      by_cases backslash : ∃ behind, text = '\\' :: behind
      · obtain ⟨behind, rfl⟩ := backslash
        obtain ⟨skipped, rfl, noBreak, meant⟩ := h.escape start mark
        obtain ⟨mark₁, along, same⟩ := readQuoted_skip start noBreak middle
          (mark.step '\\') (c :: (read ++ front)) (.spaces [])
        exact ⟨mark₁, c :: (read ++ front), [],
          (Mark.along_step (by decide) mark _).trans along, rfl,
          (readQuoted_escape start meant front read inside).trans same⟩
      · cases h with
        | itself _ printable quote other =>
          obtain ⟨front', read', next, same⟩ :=
            readQuoted_itself start middle printable quote other front read inside
          have along := Mark.along_step printable.isBreak_eq_false mark middle
          exact ⟨_, front', read', along, next, same⟩
        | named => exact absurd ⟨_, rfl⟩ backslash
        | numbered => exact absurd ⟨_, rfl⟩ backslash
    have inside' : 0 < mark₁.column := by
      have := along.column
      omega
    obtain ⟨mark', along', same'⟩ := ih front' read' inside'
    refine ⟨mark', along.trans along', ?_⟩
    rw [same, same', next]
    simp

end

end Marksheet.Yaml
