import Mathlib
import Marksheet.Proofs.Json.RoundTrip
import Marksheet.Proofs.Syntax.Literal
import Marksheet.Yaml.Document

/-!
# How a block mapping is written

A mapping has one pair of a key and a value after the other, each on lines of
its own behind the same margin, with empty lines and remarks around them. Keys
are words or texts between double quotes; values are such scalars, or sequences
of quoted texts between square brackets. Every relation here is between a text
and what is left of it behind the thing that it begins with, and none of them
mentions how a text is read. What is written is plain: it holds no character
that a text may not hold, and each break of a line is read as a line feed. Words
and texts of any characters can be written (`exists_written`).
-/

namespace Marksheet.Yaml

/-- A character that a line can show, or a tab. -/
def Printable (c : Char) : Prop :=
  c = '\t' ∨ (0x20 ≤ c.toNat ∧ c.toNat ≤ 0x7E) ∨
    (0xA0 ≤ c.toNat ∧ c.toNat ∉ [0x2028, 0x2029, 0xFEFF, 0xFFFE, 0xFFFF])

/-- A space or a tab. -/
def Blank (c : Char) : Prop := c = ' ' ∨ c = '\t'

/-- A character of a word. -/
def WordChar (c : Char) : Prop := c.isAlphanum = true ∨ c = '_' ∨ c = '-' ∨ c = '~'

instance (c : Char) : Decidable (Printable c) :=
  inferInstanceAs (Decidable (_ ∨ _ ∧ _ ∨ _ ∧ _))

instance (c : Char) : Decidable (Blank c) := inferInstanceAs (Decidable (_ ∨ _))

instance (c : Char) : Decidable (WordChar c) := inferInstanceAs (Decidable (_ ∨ _ ∨ _ ∨ _))

/-- Any number of characters of a kind. -/
inductive Stretch (kind : Char → Prop) : List Char → List Char → Prop
  | none (rest : List Char) : Stretch kind rest rest
  | more {c : Char} {text rest : List Char} (h : kind c) (hrest : Stretch kind text rest) :
      Stretch kind (c :: text) rest

/-! ### Scalars -/

/-- The escapes by a letter, each with what it stands for. -/
def namedEscapes : List (Char × Nat) :=
  [('0', 0), ('a', 7), ('b', 8), ('t', 9), ('n', 10), ('v', 11), ('f', 12), ('r', 13), ('e', 27),
    (' ', 0x20), ('\"', 0x22), ('/', 0x2F), ('\\', 0x5C), ('N', 0x85), ('_', 0xA0), ('L', 0x2028),
    ('P', 0x2029)]

/-- The escapes by a number, each with how many hexadecimal digits it has. -/
def numberedEscapes : List (Char × Nat) := [('x', 2), ('u', 4), ('U', 8)]

/-- A character between double quotes: itself, or one of its escapes. -/
inductive Spelling (c : Char) : List Char → List Char → Prop
  | itself (rest : List Char) (h : Printable c) (quote : c ≠ '\"') (backslash : c ≠ '\\') :
      Spelling c (c :: rest) rest
  | named {letter : Char} (rest : List Char) (h : (letter, c.toNat) ∈ namedEscapes) :
      Spelling c ('\\' :: letter :: rest) rest
  | numbered {letter : Char} {digits : List Char} (rest : List Char)
      (h : (letter, digits.length) ∈ numberedEscapes)
      (hex : ∀ d ∈ digits, Source.Alphabet.isHexDigit d = true)
      (value : Decimal.digitsValue 16 digits = c.toNat) :
      Spelling c ('\\' :: letter :: (digits ++ rest)) rest

/-- A text behind its opening quote, up to the closing one. -/
inductive Quoted : List Char → List Char → List Char → Prop
  | close (rest : List Char) : Quoted [] ('\"' :: rest) rest
  | char {c : Char} {value text middle rest : List Char} (h : Spelling c text middle)
      (hrest : Quoted value middle rest) : Quoted (c :: value) text rest

/-- The scalar of a word. -/
def Scalar.word (text : String) : Scalar := ⟨text, true, false, none⟩

/-- The scalar of a text between quotes. -/
def Scalar.quoted (text : String) : Scalar := ⟨text, false, false, none⟩

@[simp] theorem Scalar.text_word (text : String) : (Scalar.word text).text = text := rfl

@[simp] theorem Scalar.text_quoted (text : String) : (Scalar.quoted text).text = text := rfl

/-- A scalar: a word, or a text between double quotes. -/
inductive Scalar.Written : Scalar → List Char → List Char → Prop
  | word {c : Char} {letters rest : List Char} (h : ∀ d ∈ c :: letters, WordChar d)
      (dash : c ≠ '-') : Written (.word (String.ofList (c :: letters))) (c :: letters ++ rest) rest
  | quoted {value text rest : List Char} (h : Quoted value text rest) :
      Written (.quoted (String.ofList value)) ('\"' :: text) rest

/-! ### Values -/

/-- Blanks, line breaks and remarks between brackets. -/
inductive Slack : List Char → List Char → Prop
  | none (rest : List Char) : Slack rest rest
  | gap {c : Char} {text rest : List Char} (h : Blank c ∨ c = '\n') (hrest : Slack text rest) :
      Slack (c :: text) rest
  | remark {c : Char} {text behind rest : List Char} (h : Blank c ∨ c = '\n')
      (shown : Stretch Printable text ('\n' :: behind)) (hrest : Slack behind rest) :
      Slack (c :: '#' :: text) rest

/-- The texts of a sequence behind its opening bracket or a comma, up to the closing bracket. A
comma may stand behind the last one. -/
inductive Items : List String → List Char → List Char → Prop
  | close {text rest : List Char} (h : Slack text (']' :: rest)) : Items [] text rest
  | last {value text inner behind rest : List Char} (before : Slack text ('\"' :: inner))
      (item : Quoted value inner behind) (after : Slack behind (']' :: rest)) :
      Items [String.ofList value] text rest
  | more {value text inner behind further rest : List Char} {items : List String}
      (before : Slack text ('\"' :: inner)) (item : Quoted value inner behind)
      (after : Slack behind (',' :: further)) (others : Items items further rest) :
      Items (String.ofList value :: items) text rest

/-- A value: a scalar or a sequence of texts. -/
inductive Node where
  | scalar (scalar : Scalar)
  | texts (items : List String)
  deriving DecidableEq, Repr

/-- A value as it is written. -/
inductive Node.Written : Node → List Char → List Char → Prop
  | scalar {scalar : Scalar} {text rest : List Char} (h : scalar.Written text rest) :
      Written (.scalar scalar) text rest
  | texts {items : List String} {text rest : List Char} (h : Items items text rest) :
      Written (.texts items) ('[' :: text) rest

/-! ### Lines -/

/-- What may stand behind a value on its line: blanks, and behind one of them a remark. -/
inductive LineTail : List Char → List Char → Prop
  | blanks {text rest : List Char} (h : Stretch Blank text rest) : LineTail text rest
  | remark {c : Char} {text behind rest : List Char} (h : Stretch Blank text (c :: '#' :: behind))
      (blank : Blank c) (shown : Stretch Printable behind rest) : LineTail text rest

/-- A line without a pair: spaces, and perhaps a remark. -/
inductive EmptyLine : List Char → List Char → Prop
  | spaces {text rest : List Char} (h : Stretch (· = ' ') text rest) : EmptyLine text rest
  | remark {text behind rest : List Char} (h : Stretch (· = ' ') text ('#' :: behind))
      (shown : Stretch Printable behind rest) : EmptyLine text rest

/-- Any number of lines without a pair, with their breaks. -/
inductive EmptyLines : List Char → List Char → Prop
  | none (rest : List Char) : EmptyLines rest rest
  | more {text behind rest : List Char} (h : EmptyLine text ('\n' :: behind))
      (hrest : EmptyLines behind rest) : EmptyLines text rest

/-- A key with its value. -/
abbrev Pair := Scalar × Node

/-- A key takes at most so many characters, with the blanks between it and its colon. -/
def longestKey : Nat := 1024

/-- A key up to its colon, on one line. -/
def KeyWritten (key : Scalar) (text behind : List Char) : Prop :=
  ∃ blanks, key.Written text blanks ∧ Stretch Blank blanks (':' :: behind) ∧
    text.length ≤ (':' :: behind).length + longestKey

/-- A pair behind its margin, up to the end of its last line. The word without letters is the value
that is left out. -/
inductive Pair.Written : Pair → List Char → List Char → Prop
  | full {key : Scalar} {node : Node} {c : Char} {text gap value tail rest : List Char}
      (hkey : KeyWritten key text (c :: gap)) (blank : Blank c) (hgap : Stretch Blank gap value)
      (hnode : node.Written value tail) (htail : LineTail tail rest) : Written (key, node) text rest
  | bare {key : Scalar} {text tail rest : List Char} (hkey : KeyWritten key text tail)
      (htail : LineTail tail rest) : Written (key, .scalar (.word "")) text rest

/-- Pairs behind a margin, one after the other. The last line may lack its break. -/
inductive Body (margin : Nat) : List Pair → List Char → Prop
  | close {text last : List Char} (before : EmptyLines text last) (h : EmptyLine last []) :
      Body margin [] text
  | last {pair : Pair} {text inner : List Char}
      (before : EmptyLines text (List.replicate margin ' ' ++ inner))
      (h : pair.Written inner []) : Body margin [pair] text
  | more {pair : Pair} {pairs : List Pair} {text inner rest : List Char}
      (before : EmptyLines text (List.replicate margin ' ' ++ inner))
      (h : pair.Written inner ('\n' :: rest)) (others : Body margin pairs rest) :
      Body margin (pair :: pairs) text

/-- A text with each of its breaks as a line feed, a carriage return, both, or a next line. -/
inductive WithBreaks : List Char → List Char → Prop
  | nil : WithBreaks [] []
  | char {c : Char} {plain text : List Char} (h : c ≠ '\n') (hrest : WithBreaks plain text) :
      WithBreaks (c :: plain) (c :: text)
  | feed {plain text : List Char} (h : WithBreaks plain text) :
      WithBreaks ('\n' :: plain) ('\n' :: text)
  | carriage {plain text : List Char} (alone : text.head? ≠ some '\n')
      (h : WithBreaks plain text) : WithBreaks ('\n' :: plain) ('\r' :: text)
  | both {plain text : List Char} (h : WithBreaks plain text) :
      WithBreaks ('\n' :: plain) ('\r' :: '\n' :: text)
  | next {plain text : List Char} (h : WithBreaks plain text) :
      WithBreaks ('\n' :: plain) (Char.ofNat 0x85 :: text)

/-- A text is a block mapping of pairs. -/
def Written (pairs : List Pair) (text : String) : Prop :=
  ∃ (margin : Nat) (plain : List Char), Body margin pairs plain ∧ WithBreaks plain text.toList

/-- The parts of a value in a document. -/
def Node.parts : Node → List Part
  | .scalar value => [.scalar value]
  | .texts items =>
    .sequenceStart :: (items.map fun item => .scalar (.quoted item)) ++ [.sequenceEnd]

/-- The parts of pairs in a document, keys and values in turn. -/
def pairParts (pairs : List Pair) : List Part :=
  pairs.flatMap fun pair => .scalar pair.1 :: pair.2.parts

/-! ### Characters -/

section

variable {c : Char}

theorem Printable.isBreak_eq_false (h : Printable c) : isBreak c = false := by
  simp only [isBreak, Bool.or_eq_false_iff, decide_eq_false_iff_not]
  refine ⟨⟨?_, ?_⟩, ?_⟩ <;> (rintro rfl; revert h; decide)

theorem Printable.ne_of_not {d : Char} (h : Printable c) (hd : ¬ Printable d) : c ≠ d := by
  rintro rfl
  exact hd h

theorem Printable.isAllowed (h : Printable c) : isAllowed c = true := by
  have valid : c.toNat < 0xD800 ∨ 0xDFFF < c.toNat ∧ c.toNat < 0x110000 := c.valid
  unfold Printable at h
  unfold Yaml.isAllowed
  rcases h with rfl | h | h
  · decide
  · simp only [Bool.or_eq_true, Bool.and_eq_true, decide_eq_true_eq]
    omega
  · simp only [List.mem_cons, List.not_mem_nil, or_false, not_or] at h
    simp only [Bool.or_eq_true, Bool.and_eq_true, decide_eq_true_eq]
    omega

theorem Blank.printable (h : Blank c) : Printable c := by
  rcases h with rfl | rfl <;> decide

/-- What holds of the characters of ASCII, one by one. -/
theorem ascii_forall {P : Char → Prop} (h : ∀ n < 128, P (Char.ofNat n)) (hc : c.toNat < 128) :
    P c := by
  simpa only [Char.ofNat_toNat] using h c.toNat hc

theorem WordChar.ascii (h : WordChar c) : c.toNat < 128 := by
  rcases h with h | rfl | rfl | rfl
  · have code : c.toNat = c.val.toNat := rfl
    simp [Char.isAlphanum, Char.isAlpha, Char.isUpper, Char.isLower, Char.isDigit,
      UInt32.le_iff_toNat_le] at h
    omega
  all_goals decide

theorem ascii_of_isHexDigit (h : Source.Alphabet.isHexDigit c = true) : c.toNat < 128 := by
  have code : c.toNat = c.val.toNat := rfl
  simp [Source.Alphabet.isHexDigit, Source.Alphabet.isDigit, Char.le_def,
    UInt32.le_iff_toNat_le] at h
  omega

theorem WordChar.printable (h : WordChar c) : Printable c :=
  ascii_forall (P := fun c => WordChar c → Printable c) (by decide +kernel) h.ascii h

theorem printable_of_isHexDigit (h : Source.Alphabet.isHexDigit c = true) : Printable c :=
  ascii_forall (P := fun c => Source.Alphabet.isHexDigit c = true → Printable c)
    (by decide +kernel) (ascii_of_isHexDigit h) h

theorem printable_of_named {n : Nat} (h : (c, n) ∈ namedEscapes) : Printable c := by
  have all : ∀ pair ∈ namedEscapes, Printable pair.1 := by decide
  exact all _ h

theorem printable_of_numbered {n : Nat} (h : (c, n) ∈ numberedEscapes) : Printable c := by
  have all : ∀ pair ∈ numberedEscapes, Printable pair.1 := by decide
  exact all _ h

/-- A character of a written text: a line feed, or one that a line can show. -/
def Plain (c : Char) : Prop := c = '\n' ∨ Printable c

end

/-- The rest is the end of a text. What stands before it is plain, and has at least so many
characters. -/
structure Covers (text rest : List Char) (count : Nat) : Prop where
  suffix : rest <:+ text
  plain : (∀ c ∈ rest, Plain c) → ∀ c ∈ text, Plain c
  length : rest.length + count ≤ text.length

section

variable {text middle rest : List Char} {m n : Nat}

theorem Covers.refl (text : List Char) : Covers text text 0 :=
  ⟨List.suffix_refl text, id, Nat.le_refl _⟩

theorem Covers.trans (h : Covers text middle m) (h' : Covers middle rest n) :
    Covers text rest (m + n) :=
  ⟨h'.suffix.trans h.suffix, fun plain => h.plain (h'.plain plain), by
    have := h.length
    have := h'.length
    omega⟩

theorem Covers.weaken (h : Covers text rest m) (hn : n ≤ m) : Covers text rest n :=
  ⟨h.suffix, h.plain, by have := h.length; omega⟩

theorem Covers.cons {c : Char} (hc : Plain c) (h : Covers text rest n) :
    Covers (c :: text) rest (n + 1) :=
  ⟨h.suffix.trans (List.suffix_cons c text),
    fun plain => List.forall_mem_cons.mpr ⟨hc, h.plain plain⟩,
    by have := h.length; simp only [List.length_cons]; omega⟩

theorem Covers.append {front : List Char} (hfront : ∀ c ∈ front, Plain c) (rest : List Char) :
    Covers (front ++ rest) rest front.length :=
  ⟨List.suffix_append front rest, fun plain => List.forall_mem_append.mpr ⟨hfront, plain⟩,
    by simp; omega⟩

theorem Stretch.covers {kind : Char → Prop} (hkind : ∀ c, kind c → Plain c)
    (h : Stretch kind text rest) : Covers text rest 0 := by
  induction h with
  | none rest => exact .refl rest
  | more hc _ ih => exact (ih.cons (hkind _ hc)).weaken (Nat.zero_le _)

/-- A remark is plain. -/
theorem Stretch.remark_covers (h : Stretch Printable text rest) : Covers ('#' :: text) rest 0 :=
  ((h.covers fun _ => .inr).cons (.inr (by decide))).weaken (Nat.zero_le _)

theorem Spelling.covers {c : Char} (h : Spelling c text rest) : Covers text rest 1 := by
  cases h with
  | itself rest h => exact (Covers.refl rest).cons (.inr h)
  | named rest h =>
    exact (((Covers.refl rest).cons (.inr (printable_of_named h))).cons (.inr (by decide))).weaken
      (by omega)
  | numbered rest h hex =>
    have digits := Covers.append (fun d hd => .inr (printable_of_isHexDigit (hex d hd))) rest
    exact ((digits.cons (.inr (printable_of_numbered h))).cons (.inr (by decide))).weaken (by omega)

theorem Quoted.covers {value : List Char} (h : Quoted value text rest) : Covers text rest 1 := by
  induction h with
  | close rest => exact (Covers.refl rest).cons (.inr (by decide))
  | char h _ ih => exact (h.covers.trans ih).weaken (by omega)

theorem Scalar.Written.covers {scalar : Scalar} (h : scalar.Written text rest) :
    Covers text rest 1 := by
  cases h with
  | word h => exact (Covers.append (fun d hd => .inr (h d hd).printable) rest).weaken (by simp)
  | quoted h => exact (h.covers.cons (.inr (by decide))).weaken (by omega)

theorem Slack.covers (h : Slack text rest) : Covers text rest 0 := by
  have gap : ∀ {c : Char}, Blank c ∨ c = '\n' → Plain c := by
    rintro c (h | h)
    · exact .inr h.printable
    · exact .inl h
  induction h with
  | none rest => exact .refl rest
  | gap hc _ ih => exact (ih.cons (gap hc)).weaken (Nat.zero_le _)
  | remark hc shown _ ih =>
    have line := shown.remark_covers.trans (ih.cons (.inl rfl))
    exact (line.cons (gap hc)).weaken (Nat.zero_le _)

theorem Items.covers {items : List String} (h : Items items text rest) :
    Covers text rest (items.length + 1) := by
  induction h with
  | close h => exact (h.covers.trans ((Covers.refl _).cons (.inr (by decide)))).weaken (by simp)
  | last before item after =>
    have inner := item.covers.trans (after.covers.trans ((Covers.refl _).cons (.inr (by decide))))
    exact (before.covers.trans (inner.cons (.inr (by decide)))).weaken (by simp)
  | more before item after _ ih =>
    have inner := item.covers.trans (after.covers.trans (ih.cons (.inr (by decide))))
    exact (before.covers.trans (inner.cons (.inr (by decide)))).weaken (by simp; omega)

theorem LineTail.covers (h : LineTail text rest) : Covers text rest 0 := by
  have blank : ∀ c, Blank c → Plain c := fun c hc => .inr hc.printable
  cases h with
  | blanks h => exact h.covers blank
  | remark h hc shown =>
    have line := shown.remark_covers.cons (blank _ hc)
    exact ((h.covers blank).trans line).weaken (Nat.zero_le _)

theorem EmptyLine.covers (h : EmptyLine text rest) : Covers text rest 0 := by
  have space : ∀ c : Char, c = ' ' → Plain c := by
    rintro _ rfl
    exact .inr (by decide)
  cases h with
  | spaces h => exact h.covers space
  | remark h shown =>
    exact (h.covers space).trans shown.remark_covers

theorem EmptyLines.covers (h : EmptyLines text rest) : Covers text rest 0 := by
  induction h with
  | none rest => exact .refl rest
  | more h _ ih => exact (h.covers.trans (ih.cons (.inl rfl))).weaken (Nat.zero_le _)

theorem KeyWritten.covers {key : Scalar} (h : KeyWritten key text rest) : Covers text rest 2 := by
  obtain ⟨_, h, blanks, -⟩ := h
  have colon := (blanks.covers fun c hc => .inr hc.printable).trans
    ((Covers.refl rest).cons (.inr (by decide)))
  exact (h.covers.trans colon).weaken (by omega)

theorem Pair.Written.covers {pair : Pair} (h : pair.Written text rest) :
    Covers text rest (pair.2.parts.length + 1) := by
  cases h with
  | bare hkey htail => exact (hkey.covers.trans htail.covers).weaken (by simp [Node.parts])
  | full hkey hc hgap hnode htail =>
    have key := hkey.covers.trans ((hgap.covers fun c hc => .inr hc.printable).cons
      (.inr hc.printable))
    cases hnode with
    | scalar h => exact (key.trans (h.covers.trans htail.covers)).weaken (by simp [Node.parts])
    | texts h =>
      exact (key.trans ((h.covers.cons (.inr (by decide))).trans htail.covers)).weaken
        (by simp [Node.parts])

theorem Body.plain {margin : Nat} {pairs : List Pair} (h : Body margin pairs text) :
    ∀ c ∈ text, Plain c := by
  have indent : ∀ c ∈ List.replicate margin ' ', Plain c := fun c hc =>
    (List.eq_of_mem_replicate hc) ▸ .inr (by decide)
  induction h with
  | close before h => exact (before.covers.trans h.covers).plain (by simp)
  | last before h =>
    exact (before.covers.trans ((Covers.append indent _).trans h.covers)).plain (by simp)
  | more before h _ ih =>
    exact (before.covers.trans ((Covers.append indent _).trans
      (h.covers.trans ((Covers.refl _).cons (.inl rfl))))).plain ih

/-- The colon of a key stands in the text. -/
theorem KeyWritten.colon_mem {key : Scalar} (h : KeyWritten key text rest) : ':' ∈ text := by
  obtain ⟨_, h, blanks, -⟩ := h
  have colon := (blanks.covers fun c hc => .inr hc.printable).suffix.trans h.covers.suffix
  exact colon.subset List.mem_cons_self

theorem Pair.Written.colon_mem {pair : Pair} (h : pair.Written text rest) : ':' ∈ text := by
  cases h with
  | full hkey => exact hkey.colon_mem
  | bare hkey => exact hkey.colon_mem

theorem Body.colon_mem {margin : Nat} {pairs : List Pair} (h : Body margin pairs text)
    (some : pairs ≠ []) : ':' ∈ text := by
  cases h with
  | close => exact absurd rfl some
  | last before h =>
    exact before.covers.suffix.subset (List.mem_append_right _ h.colon_mem)
  | more before h =>
    exact before.covers.suffix.subset (List.mem_append_right _ h.colon_mem)

/-- A mapping has no more parts than its text has characters. -/
theorem Body.length_parts {margin : Nat} {pairs : List Pair} (h : Body margin pairs text) :
    (pairParts pairs).length ≤ text.length := by
  induction h with
  | close => simp [pairParts]
  | last before h =>
    have := before.covers.length
    have := h.covers.length
    simp [pairParts] at *
    omega
  | more before h _ ih =>
    have := before.covers.length
    have := h.covers.length
    simp [pairParts] at *
    omega

end

/-! ### Line breaks -/

theorem unbroken_cons {c : Char} (h : Printable c) (rest : List Char) :
    unbroken (c :: rest) = c :: unbroken rest := by
  have feed : c ≠ '\r' := h.ne_of_not (by decide)
  have next : c ≠ Char.ofNat 0x85 := h.ne_of_not (by decide)
  rw [unbroken]
  · simp [feed, next]
  · intro _ hc
    exact absurd hc feed

theorem withBreaks_self (text : List Char) : WithBreaks text text := by
  induction text with
  | nil => exact .nil
  | cons c text ih =>
    by_cases h : c = '\n'
    · exact h ▸ .feed ih
    · exact .char h ih

/-- All kinds of line breaks are read as line feeds. -/
theorem unbroken_of_withBreaks {plain text : List Char} (h : WithBreaks plain text)
    (hplain : ∀ c ∈ plain, Plain c) : unbroken text = plain := by
  induction h with
  | nil => rfl
  | char hc _ ih =>
    have first := hplain _ List.mem_cons_self
    rw [unbroken_cons (first.resolve_left hc), ih fun d hd => hplain d (List.mem_cons_of_mem _ hd)]
  | feed _ ih =>
    have rest := ih fun d hd => hplain d (List.mem_cons_of_mem _ hd)
    rw [unbroken]
    · simp [rest]
    · intro _ hc
      cases hc
  | carriage alone _ ih =>
    rw [unbroken, ih fun d hd => hplain d (List.mem_cons_of_mem _ hd)]
    · simp
    · rintro rest - rfl
      exact absurd rfl alone
  | both _ ih => rw [unbroken, ih fun d hd => hplain d (List.mem_cons_of_mem _ hd)]
  | next _ ih =>
    rw [unbroken, ih fun d hd => hplain d (List.mem_cons_of_mem _ hd)]
    · simp
    · intro _ hc
      exact absurd hc (by decide)

theorem isAllowed_of_withBreaks {plain text : List Char} (h : WithBreaks plain text)
    (hplain : ∀ c ∈ plain, Plain c) : ∀ c ∈ text, isAllowed c = true := by
  induction h with
  | nil => simp
  | char hc _ ih =>
    obtain ⟨first, rest⟩ := List.forall_mem_cons.mp hplain
    exact List.forall_mem_cons.mpr ⟨(first.resolve_left hc).isAllowed, ih rest⟩
  | feed _ ih | carriage _ _ ih | next _ ih =>
    exact List.forall_mem_cons.mpr ⟨by decide, ih (List.forall_mem_cons.mp hplain).2⟩
  | both _ ih =>
    exact List.forall_mem_cons.mpr ⟨by decide, List.forall_mem_cons.mpr ⟨by decide,
      ih (List.forall_mem_cons.mp hplain).2⟩⟩

/-- A character that is no break stands in the text. -/
theorem mem_of_withBreaks {plain text : List Char} (h : WithBreaks plain text) {c : Char}
    (shown : c ≠ '\n') (hc : c ∈ plain) : c ∈ text := by
  induction h with
  | nil => exact hc
  | char _ _ ih => exact List.mem_cons.mpr ((List.mem_cons.mp hc).imp_right ih)
  | feed _ ih | carriage _ _ ih | next _ ih =>
    exact List.mem_cons_of_mem _ (ih ((List.mem_cons.mp hc).resolve_left shown))
  | both _ ih =>
    exact List.mem_cons_of_mem _
      (List.mem_cons_of_mem _ (ih ((List.mem_cons.mp hc).resolve_left shown)))

theorem blocked?_eq_none {text : List Char} (h : ∀ c ∈ text, isAllowed c = true) (before : Nat) :
    blocked? before text = none := by
  induction text generalizing before with
  | nil => rfl
  | cons c rest ih =>
    obtain ⟨first, rest⟩ := List.forall_mem_cons.mp h
    rw [blocked?, if_pos first, ih rest]

/-! ### Anything can be written -/

theorem Stretch.of_append {kind : Char → Prop} (front : List Char) (h : ∀ c ∈ front, kind c)
    (rest : List Char) : Stretch kind (front ++ rest) rest := by
  induction front with
  | nil => exact .none rest
  | cons c front ih =>
    obtain ⟨first, others⟩ := List.forall_mem_cons.mp h
    exact .more first (ih others)

/-- A word that does not begin with a dash can be written as it is. -/
theorem Scalar.written_word (word : String) (letters : ∀ c ∈ word.toList, WordChar c)
    (shown : word.toList ≠ []) (dash : word.toList.head? ≠ some '-') (rest : List Char) :
    (Scalar.word word).Written (word.toList ++ rest) rest := by
  obtain ⟨c, others, chars⟩ := List.exists_cons_of_ne_nil shown
  rw [chars] at letters dash ⊢
  rw [← String.ofList_toList (s := word), chars]
  exact .word letters (by simpa using dash)

theorem keyWritten_word (word : String) (letters : ∀ c ∈ word.toList, WordChar c)
    (shown : word.toList ≠ []) (dash : word.toList.head? ≠ some '-')
    (short : word.toList.length ≤ longestKey) (rest : List Char) :
    KeyWritten (.word word) (word.toList ++ ':' :: rest) rest := by
  refine ⟨_, Scalar.written_word word letters shown dash (':' :: rest), .none _, ?_⟩
  simp only [List.length_append]
  omega

/-- A text without quotes and backslashes stands between quotes as it is. -/
theorem quoted_itself (value : List Char) (shown : ∀ c ∈ value, Printable c)
    (quote : '\"' ∉ value) (backslash : '\\' ∉ value) (rest : List Char) :
    Quoted value (value ++ '\"' :: rest) rest := by
  induction value with
  | nil => exact .close rest
  | cons c value ih =>
    obtain ⟨first, others⟩ := List.forall_mem_cons.mp shown
    obtain ⟨noQuote, quote⟩ := not_or.mp (mt List.mem_cons.mpr quote)
    obtain ⟨noBackslash, backslash⟩ := not_or.mp (mt List.mem_cons.mpr backslash)
    exact .char (.itself _ first (Ne.symm noQuote) (Ne.symm noBackslash))
      (ih others quote backslash)

/-- A number that is small enough has just so many hexadecimal digits. -/
theorem exists_hexDigits (count : Nat) {n : Nat} (h : n < 16 ^ count) :
    ∃ digits : List Char, digits.length = count ∧
      (∀ d ∈ digits, Source.Alphabet.isHexDigit d = true) ∧
      Decimal.digitsValue 16 digits = n := by
  induction count generalizing n with
  | zero =>
    obtain rfl : n = 0 := by simpa using h
    exact ⟨[], rfl, by simp, rfl⟩
  | succ count ih =>
    obtain ⟨digits, length, hex, value⟩ := ih (Nat.div_lt_of_lt_mul (by rwa [Nat.pow_succ'] at h))
    have small : n % 16 < 16 := Nat.mod_lt _ (by decide)
    refine ⟨digits ++ [Json.hexDigit (n % 16)], by simp [length], ?_, ?_⟩
    · refine List.forall_mem_append.mpr ⟨hex, ?_⟩
      simpa using Syntax.isHexDigit_hexDigit _ small
    · rw [Decimal.digitsValue, List.foldl_append, ← Decimal.digitsValue, value]
      simp only [List.foldl_cons, List.foldl_nil, Json.digitValue_hexDigit _ small]
      omega

/-- Any text can stand between quotes: each character has an escape by its number. -/
theorem exists_quoted (value rest : List Char) : ∃ text, Quoted value text rest := by
  induction value with
  | nil => exact ⟨_, .close rest⟩
  | cons c value ih =>
    obtain ⟨text, hrest⟩ := ih
    have valid : c.toNat < 0xD800 ∨ 0xDFFF < c.toNat ∧ c.toNat < 0x110000 := c.valid
    obtain ⟨digits, length, hex, hvalue⟩ := exists_hexDigits 8 (show c.toNat < 16 ^ 8 by omega)
    have escape : ('U', digits.length) ∈ numberedEscapes := by
      rw [length]
      decide
    exact ⟨_, .char (.numbered text escape hex hvalue) hrest⟩

theorem Scalar.exists_written_quoted (value : String) (rest : List Char) :
    ∃ text, (Scalar.quoted value).Written text rest := by
  obtain ⟨text, h⟩ := exists_quoted value.toList rest
  rw [← String.ofList_toList (s := value)]
  exact ⟨_, .quoted h⟩

theorem exists_items (items : List String) (rest : List Char) : ∃ text, Items items text rest := by
  induction items with
  | nil => exact ⟨_, .close (.none _)⟩
  | cons item items ih =>
    obtain ⟨further, others⟩ := ih
    obtain ⟨text, hitem⟩ := exists_quoted item.toList (',' :: further)
    rw [← String.ofList_toList (s := item)]
    exact ⟨_, .more (.none _) hitem (.none _) others⟩

/-- Pairs can be written one after the other. -/
theorem exists_written {pairs : List Pair}
    (h : ∀ pair ∈ pairs, ∀ rest, ∃ text, pair.Written text rest) :
    ∃ text, Written pairs text := by
  have body : ∃ text, Body 0 pairs text := by
    induction pairs with
    | nil => exact ⟨[], .close (.none _) (.spaces (.none _))⟩
    | cons pair pairs ih =>
      obtain ⟨first, others⟩ := List.forall_mem_cons.mp h
      obtain ⟨rest, hrest⟩ := ih others
      obtain ⟨text, hpair⟩ := first ('\n' :: rest)
      exact ⟨text, .more (.none _) hpair hrest⟩
  obtain ⟨text, body⟩ := body
  refine ⟨String.ofList text, 0, text, body, ?_⟩
  rw [String.toList_ofList]
  exact withBreaks_self text

end Marksheet.Yaml
