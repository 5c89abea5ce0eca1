import Mathlib
import Marksheet.Proofs.Decimal.Numeral
import Marksheet.Proofs.Syntax.Print
import Marksheet.Syntax.Abstraction

/-!
# Literals have their values

A character can be spelled as itself, behind a backslash by a letter or mark,
or by its code in two, four or eight hexadecimal digits, and between two
characters a line may go on behind a backslash. Resolving the escapes gives the
characters back, whatever follows the spelling (`unescape_exact`). A backslash
with which none of this begins is kept, and so is a code with too few digits or
without a character. What is printed for a text is one of its spellings.

An integer can be spelled in four radixes, with letters in either case, zeros
before its digits and underscores behind them. Below two to the 63 a spelling is
read as its number, and from there on as none (`integer_exact`).
-/

namespace Marksheet.Syntax

open Marksheet.Source.Alphabet (isDigit isHexDigit)
open Marksheet.Decimal (digitValue digitsValue)

/-! ### Spellings -/

/-- The escapes of a letter or mark, each with what it stands for. -/
def markedEscapes : List (Char × Char) :=
  [('n', '\n'), ('t', '\t'), ('r', '\r'), ('a', Char.ofNat 7), ('b', Char.ofNat 8),
    ('f', Char.ofNat 12), ('v', Char.ofNat 11), ('\\', '\\'), ('\'', '\''), ('\"', '\"')]

/-- The escapes of a code, each with how many digits it has. -/
def codedEscapes : List (Char × ℕ) := [('x', 2), ('u', 4), ('U', 8)]

/-- Digits write a number in hexadecimal, each letter in either case and with any number of zeros
before it. -/
inductive WritesHex : List Char → ℕ → Prop
  | nil : WritesHex [] 0
  | digit {digits : List Char} {number value : ℕ} {c : Char} (h : WritesHex digits number)
      (small : value < 16) (hc : c = value.digitChar ∨ c = value.digitChar.toUpper) :
      WritesHex (digits ++ [c]) (number * 16 + value)

/-- The spellings of one character. -/
inductive SpelledChar (c : Char) : List Char → Prop
  | itself (h : c ≠ '\\') : SpelledChar c [c]
  | marked {mark : Char} (h : (mark, c) ∈ markedEscapes) : SpelledChar c ['\\', mark]
  | coded {letter : Char} {digits : List Char} (h : (letter, digits.length) ∈ codedEscapes)
      (code : WritesHex digits c.toNat) : SpelledChar c ('\\' :: letter :: digits)

/-- The spellings of a text: those of its characters, with continued lines anywhere between. -/
inductive Spelled : List Char → List Char → Prop
  | nil : Spelled [] []
  | continued {text spelling : List Char} (h : Spelled text spelling) :
      Spelled text ('\\' :: '\n' :: spelling)
  | char {c : Char} {own text spelling : List Char} (hc : SpelledChar c own)
      (h : Spelled text spelling) : Spelled (c :: text) (own ++ spelling)

/-- The characters with which an escape goes on behind its backslash. Zero stands for the character
with that code. -/
def escapeStarts : List Char :=
  '\n' :: '0' :: markedEscapes.map Prod.fst ++ codedEscapes.map Prod.fst

/-- What begins with a backslash and is no escape, given what follows it. -/
inductive Kept : List Char → List Char → Prop
  /-- Nothing follows the backslash. -/
  | last : Kept ['\\'] []
  /-- No escape begins with the character. -/
  | stray {c : Char} (rest : List Char) (h : c ∉ escapeStarts) : Kept ['\\', c] rest
  /-- There are too few digits. -/
  | short {letter : Char} {width : ℕ} {digits rest : List Char}
      (h : (letter, width) ∈ codedEscapes) (few : digits.length < width)
      (hex : ∀ d ∈ digits, isHexDigit d = true) (hend : ∀ d ∈ rest.head?, isHexDigit d = false) :
      Kept ('\\' :: letter :: digits) rest
  /-- No character has the code. -/
  | uncoded {letter : Char} {digits : List Char} {number : ℕ} (rest : List Char)
      (h : (letter, digits.length) ∈ codedEscapes) (code : WritesHex digits number)
      (hnone : ¬ number.isValidChar) : Kept ('\\' :: letter :: digits) rest

/-! ### Hexadecimal digits -/

section

variable {digits read rest : List Char} {letter : Char} {missing number : ℕ}

theorem digitChar_facts : ∀ value < 16, ∀ c : Char,
    c = value.digitChar ∨ c = value.digitChar.toUpper →
      isHexDigit c = true ∧ digitValue c = value := by
  have hboth : ∀ value < 16,
      (isHexDigit value.digitChar = true ∧ digitValue value.digitChar = value) ∧
        isHexDigit value.digitChar.toUpper = true ∧ digitValue value.digitChar.toUpper = value := by
    decide
  rintro value hsmall c (rfl | rfl)
  · exact (hboth value hsmall).1
  · exact (hboth value hsmall).2

theorem WritesHex.isHexDigit (h : WritesHex digits number) : ∀ d ∈ digits, isHexDigit d = true := by
  induction h with
  | nil => exact nofun
  | digit _ small hc ih =>
    intro d hd
    rcases List.mem_append.1 hd with hd | hd
    · exact ih d hd
    · obtain rfl := List.mem_singleton.1 hd
      exact (digitChar_facts _ small d hc).1

theorem WritesHex.digitsValue (h : WritesHex digits number) : digitsValue 16 digits = number := by
  induction h with
  | nil => rfl
  | digit _ small hc ih =>
    rw [Decimal.digitsValue_concat, (digitChar_facts _ small _ hc).2, ih]

/-! ### One character at a time -/

theorem unescapeFrom_nil : unescapeFrom .plain [] = [] := rfl

theorem unescapeFrom_itself {c : Char} (h : c ≠ '\\') :
    unescapeFrom .plain (c :: rest) = c :: unescapeFrom .plain rest :=
  if_neg h

theorem unescapeFrom_open : unescapeFrom .plain ('\\' :: rest) = unescapeFrom .backslash rest := rfl

theorem unescapeFrom_backslash {c : Char} (h : c ≠ '\n') :
    unescapeFrom .backslash (c :: rest) =
      match namedEscape? c, escapeWidth? c with
      | some named, _ => named :: unescapeFrom .plain rest
      | none, some width => unescapeFrom (.digits c width []) rest
      | none, none => '\\' :: c :: unescapeFrom .plain rest :=
  if_neg h

theorem unescapeFrom_digit {c : Char} (h : isHexDigit c = true) :
    unescapeFrom (.digits letter missing read) (c :: rest) =
      if missing = 1 then finished letter (c :: read) ++ unescapeFrom .plain rest
      else unescapeFrom (.digits letter (missing - 1) (c :: read)) rest :=
  if_pos h

/-- A code that is cut short is kept. -/
theorem unescapeFrom_cut (hend : ∀ d ∈ rest.head?, isHexDigit d = false) :
    unescapeFrom (.digits letter missing read) rest =
      unfinished letter read ++ unescapeFrom .plain rest := by
  cases rest with
  | nil => exact (List.append_nil _).symm
  | cons c rest => exact if_neg (Bool.eq_false_iff.1 (hend c rfl))

/-! ### Codes -/

/-- Digits that leave others missing are read. -/
theorem unescapeFrom_digits (hex : ∀ d ∈ digits, isHexDigit d = true)
    (few : digits.length < missing) :
    unescapeFrom (.digits letter missing read) (digits ++ rest) =
      unescapeFrom (.digits letter (missing - digits.length) (digits.reverse ++ read)) rest := by
  induction digits generalizing missing read with
  | nil => rfl
  | cons d digits ih =>
    rw [List.length_cons] at few ⊢
    have hrest := @ih (d :: read) (missing - 1) (fun e he => hex e (List.mem_cons_of_mem d he))
      (by omega)
    rw [List.cons_append, unescapeFrom_digit (hex d List.mem_cons_self), if_neg (by omega), hrest,
      List.reverse_cons, List.append_assoc, Nat.sub_sub, Nat.add_comm 1]
    rfl

/-- A code ends with the last of its digits, whatever follows. -/
theorem unescapeFrom_code (hex : ∀ d ∈ digits, isHexDigit d = true) (hsome : digits ≠ []) :
    unescapeFrom (.digits letter digits.length []) (digits ++ rest) =
      finished letter digits.reverse ++ unescapeFrom .plain rest := by
  obtain ⟨front, last, rfl⟩ := (List.eq_nil_or_concat' digits).resolve_left hsome
  have hfront (d : Char) (hd : d ∈ front) : isHexDigit d = true :=
    hex d (List.mem_append_left _ hd)
  have hlast : isHexDigit last = true := hex last (by simp)
  rw [List.append_assoc, unescapeFrom_digits hfront (by simp), List.length_append,
    Nat.add_sub_cancel_left, List.singleton_append, unescapeFrom_digit hlast,
    if_pos List.length_singleton, List.reverse_append, List.append_nil]
  rfl

theorem scalar?_toNat (c : Char) : scalar? c.toNat = some c := by
  have hvalid : c.toNat.isValidChar := c.valid
  rw [scalar?, dif_pos hvalid]
  rfl

theorem finished_of_writesHex {c : Char} (h : WritesHex digits c.toNat) :
    finished letter digits.reverse = [c] := by
  rw [finished, List.reverse_reverse, h.digitsValue, scalar?_toNat]

theorem finished_eq_unfinished (h : WritesHex digits number) (hnone : ¬ number.isValidChar) :
    finished letter digits.reverse = '\\' :: letter :: digits := by
  rw [finished, List.reverse_reverse, h.digitsValue, scalar?, dif_neg hnone]
  simp [unfinished]

/-! ### Escapes -/

theorem ne_nil_of_coded (h : (letter, digits.length) ∈ codedEscapes) : digits ≠ [] := by
  rintro rfl
  have hall : ∀ entry ∈ codedEscapes, entry.2 ≠ 0 := by decide
  exact hall _ h rfl

theorem unescapeFrom_marked {mark c : Char} (h : (mark, c) ∈ markedEscapes) :
    unescapeFrom .plain ('\\' :: mark :: rest) = c :: unescapeFrom .plain rest := by
  have hall : ∀ entry ∈ markedEscapes,
      entry.1 ≠ '\n' ∧ namedEscape? entry.1 = some entry.2 := by decide
  obtain ⟨hline, hmark⟩ := hall _ h
  rw [unescapeFrom_open, unescapeFrom_backslash hline, hmark]

theorem unescapeFrom_coded {width : ℕ} (h : (letter, width) ∈ codedEscapes) :
    unescapeFrom .plain ('\\' :: letter :: rest) = unescapeFrom (.digits letter width []) rest := by
  have hall : ∀ entry ∈ codedEscapes, entry.1 ≠ '\n' ∧ namedEscape? entry.1 = none ∧
      escapeWidth? entry.1 = some entry.2 := by decide
  obtain ⟨hline, hmark, hwidth⟩ := hall _ h
  rw [unescapeFrom_open, unescapeFrom_backslash hline, hmark, hwidth]

theorem unescapeFrom_stray {c : Char} (h : c ∉ escapeStarts) :
    unescapeFrom .plain ('\\' :: c :: rest) = '\\' :: c :: unescapeFrom .plain rest := by
  simp only [escapeStarts, markedEscapes, codedEscapes, List.map_cons, List.map_nil,
    List.cons_append, List.nil_append, List.mem_cons, List.not_mem_nil, or_false, not_or] at h
  have hmark : namedEscape? c = none := by simp only [namedEscape?, h, if_false]
  have hwidth : escapeWidth? c = none := by simp only [escapeWidth?, h, if_false]
  rw [unescapeFrom_open, unescapeFrom_backslash h.1, hmark, hwidth]

/-- Whatever spells a character stands for it, and for no more. -/
theorem unescapeFrom_spelledChar {c : Char} {own : List Char} (h : SpelledChar c own)
    (rest : List Char) :
    unescapeFrom .plain (own ++ rest) = c :: unescapeFrom .plain rest := by
  cases h with
  | itself h => rw [List.singleton_append, unescapeFrom_itself h]
  | marked h => exact unescapeFrom_marked h
  | coded h code =>
    rw [List.cons_append, List.cons_append, unescapeFrom_coded h,
      unescapeFrom_code code.isHexDigit (ne_nil_of_coded h), finished_of_writesHex code,
      List.singleton_append]

theorem unescapeFrom_spelled {text spelling : List Char} (h : Spelled text spelling)
    (rest : List Char) :
    unescapeFrom .plain (spelling ++ rest) = text ++ unescapeFrom .plain rest := by
  induction h with
  | nil => rfl
  | continued _ ih => exact ih
  | char hc _ ih => rw [List.append_assoc, unescapeFrom_spelledChar hc, ih, List.cons_append]

theorem unescapeFrom_kept {kept : List Char} (h : Kept kept rest) :
    unescapeFrom .plain (kept ++ rest) = kept ++ unescapeFrom .plain rest := by
  cases h with
  | last => rfl
  | stray _ h => exact unescapeFrom_stray h
  | short h few hex hend =>
    rw [List.cons_append, List.cons_append, unescapeFrom_coded h, unescapeFrom_digits hex few,
      unescapeFrom_cut hend, unfinished, List.append_nil, List.reverse_reverse]
  | uncoded _ h code hnone =>
    rw [List.cons_append, List.cons_append, unescapeFrom_coded h,
      unescapeFrom_code code.isHexDigit (ne_nil_of_coded h), finished_eq_unfinished code hnone]

end

/-- A spelling stands for its text, whatever follows, and what begins with a backslash and is no
escape stands for itself. -/
theorem unescape_exact {text spelling : String} (h : Spelled text.toList spelling.toList) :
    unescape spelling = text ∧
      (∀ rest, unescape (spelling ++ rest) = text ++ unescape rest) ∧
      ∀ kept rest : String, Kept kept.toList rest.toList →
        unescape (spelling ++ kept ++ rest) = text ++ kept ++ unescape rest := by
  have happend (rest : String) : unescape (spelling ++ rest) = text ++ unescape rest := by
    rw [unescape, String.toList_append, unescapeFrom_spelled h, String.ofList_append,
      String.ofList_toList, unescape]
  refine ⟨?_, happend, fun kept rest hkept => ?_⟩
  · have hwhole := happend ""
    rwa [String.append_empty, show unescape "" = "" from rfl, String.append_empty] at hwhole
  · rw [String.append_assoc, happend, unescape, String.toList_append, unescapeFrom_kept hkept,
      String.ofList_append, String.ofList_toList, ← unescape, String.append_assoc]

/-- Two codes with a continued line between them and the letter of a digit behind them; then a code
that is too short. -/
theorem unescape_exact_codes :
    Spelled "AéB".toList "\\x41\\\n\\u00E9B".toList ∧ Kept "\\x4".toList "g".toList ∧
      unescape "\\x41\\\n\\u00E9B" = "AéB" ∧
      unescape ("\\x41\\\n\\u00E9B" ++ "\\x4" ++ "g") = "AéB" ++ "\\x4" ++ unescape "g" := by
  have zero : '0' = Nat.digitChar 0 ∨ '0' = (Nat.digitChar 0).toUpper := .inl rfl
  have first : WritesHex ['4', '1'] 'A'.toNat :=
    (WritesHex.nil.digit (by decide : 4 < 16) (.inl (rfl : '4' = _))).digit (by decide : 1 < 16)
      (.inl (rfl : '1' = _))
  have second : WritesHex ['0', '0', 'E', '9'] 'é'.toNat :=
    (((WritesHex.nil.digit (by decide) zero).digit (by decide) zero).digit (by decide : 14 < 16)
      (.inr (rfl : 'E' = _))).digit (by decide : 9 < 16) (.inl (rfl : '9' = _))
  have capital : SpelledChar 'A' ['\\', 'x', '4', '1'] := .coded (by decide : ('x', 2) ∈ _) first
  have accented : SpelledChar 'é' ['\\', 'u', '0', '0', 'E', '9'] :=
    .coded (by decide : ('u', 4) ∈ _) second
  have plain : SpelledChar 'B' ['B'] := .itself (by decide)
  have spelled : Spelled "AéB".toList "\\x41\\\n\\u00E9B".toList :=
    .char capital (.continued (.char accented (.char plain .nil)))
  have few : ['4'].length < 2 := by decide
  have hex : ∀ d ∈ ['4'], isHexDigit d = true := by
    intro d hd
    obtain rfl := List.mem_singleton.1 hd
    decide
  have hend : ∀ d ∈ ['g'].head?, isHexDigit d = false := by
    intro d hd
    obtain rfl : 'g' = d := Option.some.inj hd
    decide
  have kept : Kept "\\x4".toList "g".toList := .short (by decide : ('x', 2) ∈ _) few hex hend
  exact ⟨spelled, kept, (unescape_exact spelled).1, (unescape_exact spelled).2.2 _ _ kept⟩

/-! ### Printed texts -/

/-- The letters and marks behind a backslash in a printed text, other than that for a code. -/
def escapeMarks : List Char := ['\"', '\\', 'n', 'r', 't']

/-- A character is printed as a mark or a code behind a backslash, or as itself. -/
theorem printedChar_cases (c : Char) :
    (∃ mark ∈ escapeMarks, (mark, c) ∈ markedEscapes ∧ printedChar c = ['\\', mark]) ∨
      (c.toNat < 256 ∧ printedChar c =
        ['\\', 'x', Json.hexDigit (c.toNat / 16), Json.hexDigit (c.toNat % 16)]) ∨
      (c ≠ '\"' ∧ c ≠ '\\' ∧ 32 ≤ c.toNat ∧ printedChar c = [c]) := by
  unfold printedChar
  split_ifs with hquote hslash hline hreturn htab hcontrol
  · exact .inl ⟨'\"', by decide, by rw [hquote]; decide, rfl⟩
  · exact .inl ⟨'\\', by decide, by rw [hslash]; decide, rfl⟩
  · exact .inl ⟨'n', by decide, by rw [hline]; decide, rfl⟩
  · exact .inl ⟨'r', by decide, by rw [hreturn]; decide, rfl⟩
  · exact .inl ⟨'t', by decide, by rw [htab]; decide, rfl⟩
  · refine .inr (.inl ⟨?_, rfl⟩)
    simp only [Bool.or_eq_true, decide_eq_true_eq] at hcontrol
    omega
  · simp only [Bool.or_eq_true, decide_eq_true_eq] at hcontrol
    exact .inr (.inr ⟨hquote, hslash, by omega, rfl⟩)

theorem isHexDigit_hexDigit : ∀ value < 16, isHexDigit (Json.hexDigit value) = true := by
  decide

/-- What is printed for a character is one of its spellings. -/
theorem spelled_printedChar (c : Char) : SpelledChar c (printedChar c) := by
  rcases printedChar_cases c with ⟨mark, -, hmark, hc⟩ | ⟨hsmall, hc⟩ | ⟨-, hslash, -, hc⟩
  · rw [hc]
    exact .marked hmark
  · have hdigit : ∀ value < 16, Json.hexDigit value = value.digitChar := by decide
    have hcode :
        WritesHex [Json.hexDigit (c.toNat / 16), Json.hexDigit (c.toNat % 16)] c.toNat := by
      have hhigh := WritesHex.nil.digit (by omega) (.inl (hdigit (c.toNat / 16) (by omega)))
      have hboth := hhigh.digit (by omega) (.inl (hdigit (c.toNat % 16) (by omega)))
      rwa [Nat.zero_mul, Nat.zero_add, Nat.div_add_mod'] at hboth
    have htwo : ('x', 2) ∈ codedEscapes := by decide
    rw [hc]
    exact .coded htwo hcode
  · rw [hc]
    exact .itself hslash

/-- Resolving the escapes of a printed text gives the text. -/
theorem unescape_printedBody (text : String) :
    unescape (String.ofList (printedBody text)) = text := by
  have hspelled : ∀ chars : List Char, Spelled chars (chars.flatMap printedChar) := by
    intro chars
    induction chars with
    | nil => exact .nil
    | cons c chars ih => exact .char (spelled_printedChar c) ih
  have hall := unescapeFrom_spelled (hspelled text.toList) []
  rw [unescape, String.toList_ofList, printedBody,
    ← List.append_nil (text.toList.flatMap printedChar), hall, unescapeFrom_nil, List.append_nil, String.ofList_toList]

/-! ### Integers -/

/-- Digits of a radix write a number, each letter in either case, with any number of zeros before
them and of underscores behind any of them. -/
inductive WritesIn (radix : ℕ) : List Char → ℕ → Prop
  | first {value : ℕ} {c : Char} (small : value < radix)
      (hc : c = value.digitChar ∨ c = value.digitChar.toUpper) : WritesIn radix [c] value
  | digit {text : List Char} {number value : ℕ} {c : Char} (h : WritesIn radix text number)
      (small : value < radix) (hc : c = value.digitChar ∨ c = value.digitChar.toUpper) :
      WritesIn radix (text ++ [c]) (number * radix + value)
  | underscore {text : List Char} {number : ℕ} (h : WritesIn radix text number) :
      WritesIn radix (text ++ ['_']) number

/-- The marks that announce a radix behind a zero. -/
def radixMarks : List (Char × ℕ) :=
  [('x', 16), ('X', 16), ('o', 8), ('O', 8), ('b', 2), ('B', 2)]

/-- The spellings of a natural number as an integer literal: its decimal digits, or its digits in
the radix of a mark, with any number of underscores between the mark and the digits. -/
inductive SpelledInteger (number : ℕ) : List Char → Prop
  | decimal {text : List Char} (h : WritesIn 10 text number) : SpelledInteger number text
  | marked {mark : Char} {radix : ℕ} {text : List Char} (hmark : (mark, radix) ∈ radixMarks)
      (underscores : ℕ) (h : WritesIn radix text number) :
      SpelledInteger number ('0' :: mark :: List.replicate underscores '_' ++ text)

/-- What is left of a literal without its underscores is read as digits of this number. -/
structure ReadsAs (radix : ℕ) (text : List Char) (number : ℕ) : Prop where
  ne_nil : text ≠ []
  small : ∀ c ∈ text, digitValue c < radix
  value : digitsValue radix text = number

section

variable {radix number : ℕ} {text : List Char}

theorem ReadsAs.concat (h : ReadsAs radix text number) {c : Char} (hc : digitValue c < radix) :
    ReadsAs radix (text ++ [c]) (number * radix + digitValue c) where
  ne_nil := List.append_ne_nil_of_right_ne_nil _ (List.cons_ne_nil c [])
  small := by
    intro d hd
    rcases List.mem_append.1 hd with hd | hd
    · exact h.small d hd
    · obtain rfl := List.mem_singleton.1 hd
      exact hc
  value := by rw [Decimal.digitsValue_concat, h.value]

/-- A digit stays where underscores are left out. -/
theorem filter_digit {c : Char} (h : isHexDigit c = true) : [c].filter (· != '_') = [c] := by
  have hne : c ≠ '_' := by
    rintro rfl
    cases h
  simp [hne]

/-- Underscores aside, what writes a number is read as digits of it. -/
theorem WritesIn.readsAs (h : WritesIn radix text number) (hradix : radix ≤ 16) :
    ReadsAs radix (text.filter (· != '_')) number := by
  induction h with
  | @first value c small hc =>
    obtain ⟨hhex, hvalue⟩ := digitChar_facts value (by omega) c hc
    rw [filter_digit hhex]
    refine ⟨List.cons_ne_nil c [], fun d hd => ?_, ?_⟩
    · rwa [List.mem_singleton.1 hd, hvalue]
    · simp [digitsValue, hvalue]
  | @digit text number value c _ small hc ih =>
    obtain ⟨hhex, hvalue⟩ := digitChar_facts value (by omega) c hc
    rw [List.filter_append, filter_digit hhex, ← hvalue]
    exact ih.concat (hvalue ▸ small)
  | underscore _ ih =>
    rw [List.filter_append, List.filter_cons_of_neg (by decide), List.filter_nil, List.append_nil]
    exact ih

/-- No decimal digit announces a radix. -/
theorem radixOf_decimal (h : ∀ c ∈ text, digitValue c < 10) : radixOf text = (10, text) := by
  unfold radixOf
  split
  next mark rest =>
    have hdigit : isDigit mark = true := Decimal.isDigit_of_digitValue_lt (h mark (by simp))
    have hno (other : Char) (hother : isDigit other = false) : mark ≠ other := by
      rintro rfl
      cases hdigit.symm.trans hother
    simp [hno 'x' rfl, hno 'X' rfl, hno 'o' rfl, hno 'O' rfl, hno 'b' rfl, hno 'B' rfl]
  next => rfl

theorem radixOf_marked {mark : Char} (h : (mark, radix) ∈ radixMarks) (text : List Char) :
    radixOf ('0' :: mark :: text) = (radix, text) := by
  simp only [radixMarks, List.mem_cons, List.not_mem_nil, or_false, Prod.mk.injEq] at h
  rcases h with h | h | h | h | h | h <;> obtain ⟨rfl, rfl⟩ := h <;> rfl

/-- A spelling announces the radix of its digits. -/
theorem SpelledInteger.radixOf_eq (h : SpelledInteger number text) :
    ∃ radix digits, radixOf (text.filter (· != '_')) = (radix, digits) ∧
      ReadsAs radix digits number := by
  cases h with
  | decimal h =>
    have hreads := h.readsAs (by decide)
    exact ⟨10, _, radixOf_decimal hreads.small, hreads⟩
  | @marked mark radix digits hmark underscores h =>
    have hall : ∀ entry ∈ radixMarks, entry.1 ≠ '_' ∧ entry.2 ≤ 16 := by decide
    obtain ⟨hkept, hradix⟩ := hall _ hmark
    have hfilter : ('0' :: mark :: List.replicate underscores '_' ++ digits).filter (· != '_') =
        '0' :: mark :: digits.filter (· != '_') := by
      simp [show mark ≠ '_' from hkept]
    exact ⟨radix, _, hfilter ▸ radixOf_marked hmark _, h.readsAs hradix⟩

/-- A spelling stands for its number if that is below two to the 63, and else for nothing. -/
theorem integerValue?_of_spelled {text : String} (h : SpelledInteger number text.toList) :
    integerValue? text = if number ≤ 2 ^ 63 - 1 then some number else none := by
  obtain ⟨radix, digits, hradix, hreads⟩ := h.radixOf_eq
  have hsome : digits.isEmpty = false := List.isEmpty_eq_false_iff.2 hreads.ne_nil
  have hsmall : digits.all (fun c => decide (digitValue c < radix)) = true := by
    rw [List.all_eq_true]
    exact fun c hc => decide_eq_true (hreads.small c hc)
  have hbound : number < Nat.pow 2 63 ↔ number ≤ 2 ^ 63 - 1 :=
    Nat.lt_iff_le_pred (Nat.two_pow_pos 63)
  simp only [integerValue?, hradix, hsome, hsmall, hreads.value, hbound, Bool.not_true,
    Bool.or_false, Bool.false_eq_true, if_false]

end

/-- A spelling of an integer stands for it up to the largest number of 63 bits, and for no integer
beyond; it spells no other number. -/
theorem integer_exact {number : ℕ} {text : String} (h : SpelledInteger number text.toList) :
    (number ≤ 2 ^ 63 - 1 →
      integerValue? text = some number ∧ (Phrase.integer text).expr = .int number) ∧
    (2 ^ 63 - 1 < number →
      integerValue? text = none ∧ (Phrase.integer text).expr = .unsupported "integer") ∧
    ∀ other, SpelledInteger other text.toList → other = number := by
  have hvalue := integerValue?_of_spelled h
  refine ⟨fun hle => ?_, fun hlt => ?_, fun other hother => ?_⟩
  · rw [if_pos hle] at hvalue
    exact ⟨hvalue, by rw [Phrase.expr, hvalue]⟩
  · rw [if_neg (Nat.not_le.2 hlt)] at hvalue
    exact ⟨hvalue, by rw [Phrase.expr, hvalue]⟩
  · obtain ⟨radix, digits, hradix, hreads⟩ := h.radixOf_eq
    obtain ⟨radix', digits', hradix', hreads'⟩ := hother.radixOf_eq
    obtain ⟨rfl, rfl⟩ := Prod.mk.inj (hradix.symm.trans hradix')
    exact hreads'.value.symm.trans hreads.value

/-- Two to the 63 in hexadecimal, in groups of digits, is no integer; the number before it is. -/
theorem integer_exact_bounds :
    SpelledInteger (2 ^ 63 - 1) "0X_7_fFfFf_fFfFf_fFfFf".toList ∧
      (Phrase.integer "0X_7_fFfFf_fFfFf_fFfFf").expr = .int 9223372036854775807 ∧
      SpelledInteger (2 ^ 63) "0x8_00000_00000_00000".toList ∧
      (Phrase.integer "0x8_00000_00000_00000").expr = .unsupported "integer" := by
  have group (value : ℕ) (small : value < 16) {number : ℕ} {text : List Char}
      (h : WritesIn 16 text number) :
      WritesIn 16 (text ++ ['_', value.digitChar, value.digitChar.toUpper, value.digitChar,
        value.digitChar.toUpper, value.digitChar]) (number * 16 ^ 5 + value * 69905) := by
    have hall := ((((h.underscore.digit small (.inl rfl)).digit small (.inr rfl)).digit small
      (.inl rfl)).digit small (.inr rfl)).digit small (.inl rfl)
    have hnumber : number * 16 ^ 5 + value * 69905 =
        ((((number * 16 + value) * 16 + value) * 16 + value) * 16 + value) * 16 + value := by ring
    rw [hnumber]
    simpa using hall
  have seven : WritesIn 16 ['7'] 7 := .first (by decide) (.inl rfl)
  have eight : WritesIn 16 ['8'] 8 := .first (by decide) (.inl rfl)
  have largest : SpelledInteger (2 ^ 63 - 1) "0X_7_fFfFf_fFfFf_fFfFf".toList :=
    .marked (by decide : ('X', 16) ∈ radixMarks) 1
      (group 15 (by decide) (group 15 (by decide) (group 15 (by decide) seven)))
  have next : SpelledInteger (2 ^ 63) "0x8_00000_00000_00000".toList :=
    .marked (by decide : ('x', 16) ∈ radixMarks) 0
      (group 0 (by decide) (group 0 (by decide) (group 0 (by decide) eight)))
  exact ⟨largest, ((integer_exact largest).1 le_rfl).2, next,
    ((integer_exact next).2.1 (by decide)).2⟩

/-- The digits of a number write it. -/
theorem writesIn_toDigits {radix : ℕ} (hradix : 1 < radix) (number : ℕ) :
    WritesIn radix (Nat.toDigits radix number) number := by
  induction number using Nat.strong_induction_on with
  | h number ih =>
    rw [Nat.toDigits_eq_if hradix]
    split
    next hsmall => exact .first hsmall (.inl rfl)
    next hlarge =>
      have hfront := ih (number / radix) (Nat.div_lt_self (by omega) hradix)
      have hall := hfront.digit (Nat.mod_lt number (by omega)) (.inl rfl)
      rwa [Nat.div_add_mod'] at hall

theorem integerValue?_toString {value : Nat} (h : value < Nat.pow 2 63) :
    integerValue? (toString value) = some value := by
  have hspelled : SpelledInteger value (toString value).toList := by
    rw [Decimal.toList_toString]
    exact .decimal (writesIn_toDigits (by decide) value)
  rw [integerValue?_of_spelled hspelled, if_pos (show value ≤ 2 ^ 63 - 1 from Nat.le_pred_of_lt h)]

end Marksheet.Syntax
