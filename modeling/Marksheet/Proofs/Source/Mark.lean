import Marksheet.Proofs.Decimal.Numeral
import Marksheet.Source.Lexer

/-!
# Marks are cut from the text

A mark is cut from the head of a text if the character behind it ends it: a word and a
number end where no word goes on, and a sign where no longer sign begins.
-/

namespace Marksheet.Source

open Alphabet Syntax

/-! ### Characters that stand between tokens and before them -/

/-- The characters that a gap can begin with. -/
def gapMarks : List Char :=
  [' ', '\t', '\n', '\r', Char.ofNat 12, '#', '\\', Char.ofNat 0x0B, Char.ofNat 0xFEFF,
    Char.ofNat 0x2060, Char.ofNat 0x200B]

theorem not_mem_of_beginsWord {c : Char} (h : beginsWord c = true) : c ∉ gapMarks := by
  have hall : gapMarks.all (fun c => !beginsWord c) = true := by decide +kernel
  intro hc
  have hno := List.all_eq_true.mp hall c hc
  rw [h] at hno
  cases hno

theorem isQuote_of_continuesWord {c : Char} (h : continuesWord c = true) : isQuote c = false := by
  rw [← Bool.not_eq_true]
  intro hquote
  simp only [isQuote, Bool.or_eq_true, decide_eq_true_eq] at hquote
  rcases hquote with (rfl | rfl) | rfl <;> exact absurd h (by decide)

theorem isQuote_of_beginsWord {c : Char} (h : beginsWord c = true) : isQuote c = false := by
  rw [← Bool.not_eq_true]
  intro hquote
  simp only [isQuote, Bool.or_eq_true, decide_eq_true_eq] at hquote
  rcases hquote with (rfl | rfl) | rfl <;> exact absurd h (by decide)

/-- The decimal digits. -/
def decimalDigits : List Char := ['0', '1', '2', '3', '4', '5', '6', '7', '8', '9']

theorem mem_of_isDigit {c : Char} (h : isDigit c = true) : c ∈ decimalDigits := by
  rw [isDigit, Bool.and_eq_true, decide_eq_true_eq, decide_eq_true_eq] at h
  have hlow : 48 ≤ c.toNat := h.1
  have hhigh : c.toNat ≤ 57 := h.2
  obtain ⟨n, hn⟩ : ∃ n, c.toNat = n := ⟨_, rfl⟩
  have hc : c = Char.ofNat n := by rw [← hn, Char.ofNat_toNat]
  rw [hn] at hlow hhigh
  subst hc
  clear hn h
  interval_cases n <;> decide

/-- A word goes on with a digit, but does not begin with one. -/
theorem digit_facts {c : Char} (h : isDigit c = true) :
    continuesWord c = true ∧ beginsWord c = false ∧ isStringFlag c = false ∧ isQuote c = false ∧
      c ∉ gapMarks := by
  have hall : decimalDigits.all (fun c => continuesWord c && !beginsWord c && !isStringFlag c &&
      !isQuote c && !gapMarks.contains c) = true := by decide +kernel
  have hc := List.all_eq_true.mp hall c (mem_of_isDigit h)
  simp only [Bool.and_eq_true, Bool.not_eq_true', List.contains_eq_mem, decide_eq_false_iff_not] at hc
  exact ⟨hc.1.1.1.1, hc.1.1.1.2, hc.1.1.2, hc.1.2, hc.2⟩

/-- No gap begins with a character that begins a token. -/
theorem takeGap_of_not_mem {c : Char} (h : c ∉ gapMarks) (here : Position) (rest : List Char) :
    takeGap none here (c :: rest) = ([], here, c :: rest) := by
  have hne : ∀ d ∈ gapMarks, c ≠ d := fun d hd he => h (he ▸ hd)
  have hslash : c ≠ '\\' := hne _ (by decide)
  have hspace : c ≠ ' ' := hne _ (by decide)
  have htab : c ≠ '\t' := hne _ (by decide)
  have hline : c ≠ '\n' := hne _ (by decide)
  have hreturn : c ≠ '\r' := hne _ (by decide)
  have hfeed : c ≠ Char.ofNat 12 := hne _ (by decide)
  have hhash : c ≠ '#' := hne _ (by decide)
  have hinvisible : isInvisible c = false := by
    simp only [isInvisible, hne (Char.ofNat 0x0B) (by decide), hne (Char.ofNat 0xFEFF) (by decide),
      hne (Char.ofNat 0x2060) (by decide), hne (Char.ofNat 0x200B) (by decide), decide_false,
      Bool.or_false]
  rw [takeGap]
  · simp only [hspace, htab, hline, hreturn, hfeed, hinvisible, hhash, decide_false, Bool.or_false,
      Bool.false_eq_true, if_false]
  · exact fun _ he => absurd he hslash
  · exact fun _ he => absurd he hslash
  · exact fun he => absurd he hslash

/-- The character is a piece of a gap by itself. -/
inductive Fills : Char → Trivia → Prop where
  | space : Fills ' ' .space
  | tab : Fills '\t' .tab
  | newline : Fills '\n' .newline
  | home {c : Char} (h : (c = '\r' || c = Char.ofNat 12) = true) : Fills c (.home c)
  | invisible {c : Char} (h : isInvisible c = true) : Fills c (.invisible c)

/-- A piece of one character goes into the gap of what stands behind it. -/
theorem takeGap_fills {c : Char} {piece : Trivia} (h : Fills c piece) (here : Position)
    (text : List Char) :
    takeGap none here (c :: text) =
      (piece :: (takeGap none (here.step c) text).1, (takeGap none (here.step c) text).2) := by
  have hslash : c ≠ '\\' := by
    rintro rfl
    cases h with
    | home h => exact absurd h (by decide)
    | invisible h => exact absurd h (by decide)
  rw [takeGap]
  · cases h with
    | space | tab | newline => rfl
    | home h =>
      simp only [Bool.or_eq_true, decide_eq_true_eq] at h
      rcases h with rfl | rfl <;> rfl
    | invisible h =>
      simp only [isInvisible, Bool.or_eq_true, decide_eq_true_eq] at h
      rcases h with ((rfl | rfl) | rfl) | rfl <;> rfl
  · exact fun _ he => absurd he hslash
  · exact fun _ he => absurd he hslash
  · exact fun he => absurd he hslash

/-- A sign of a comment is taken into the comment. -/
theorem takeGap_hash (here : Position) (text : List Char) :
    takeGap none here ('#' :: text) = takeGap (some ['#']) (here.step '#') text := by
  have hslash : '#' ≠ '\\' := by decide
  rw [takeGap]
  · rfl
  · exact fun _ he => absurd he hslash
  · exact fun _ he => absurd he hslash
  · exact fun he => absurd he hslash

/-! ### Words -/

/-- A flag of a string goes on with a word. -/
theorem continuesWord_of_isStringFlag {c : Char} (h : isStringFlag c = true) :
    continuesWord c = true := by
  simp only [isStringFlag, Bool.or_eq_true, decide_eq_true_eq] at h
  rcases h with ((((((rfl | rfl) | rfl) | rfl) | rfl) | rfl) | rfl) | rfl <;> decide

/-- Where no quote stands behind the flags of a string, no string is cut. -/
theorem cutCode_eq_code {modes : List Mode} {recent : Recent} {text : List Char}
    (h : ∀ c ∈ (text.dropWhile isStringFlag).head?, isQuote c = false) :
    cutCode modes recent text = cutCode.code modes recent text (text.takeWhile isStringFlag) := by
  have hdrop : text.drop (text.takeWhile isStringFlag).length = text.dropWhile isStringFlag := by
    have hall := congrArg (List.drop (text.takeWhile isStringFlag).length)
      (show text.takeWhile isStringFlag ++ text.dropWhile isStringFlag = text from
        List.takeWhile_append_dropWhile)
    rw [List.drop_left] at hall
    exact hall.symm
  rw [cutCode]
  simp only [hdrop]
  cases hd : text.dropWhile isStringFlag with
  | nil => rfl
  | cons quote behind =>
    have hquote : isQuote quote = false := h quote (by rw [hd]; rfl)
    simp only [hquote, Bool.false_eq_true, if_false]

/-- No quote stands behind the flags at the head of a word. -/
theorem head_dropWhile_flags {word rest : List Char} (hw : ∀ c ∈ word, isQuote c = false)
    (hr : ∀ c ∈ rest.head?, isStringFlag c = false ∧ isQuote c = false) :
    ∀ c ∈ ((word ++ rest).dropWhile isStringFlag).head?, isQuote c = false := by
  induction word with
  | nil =>
    cases rest with
    | nil => nofun
    | cons d rest =>
      intro c hc
      rw [List.nil_append, List.dropWhile_cons_of_neg (by rw [(hr d rfl).1]; decide)] at hc
      exact (hr c hc).2
  | cons d word ih =>
    rw [List.cons_append]
    cases hd : isStringFlag d with
    | true =>
      rw [List.dropWhile_cons_of_pos hd]
      exact ih fun c hc => hw c (List.mem_cons_of_mem _ hc)
    | false =>
      intro c hc
      rw [List.dropWhile_cons_of_neg (by rw [hd]; decide)] at hc
      obtain rfl := Option.mem_some_iff.mp hc
      exact hw d List.mem_cons_self

theorem takeWhile_append_eq {p : Char → Bool} {word rest : List Char} (hw : ∀ c ∈ word, p c = true)
    (hr : ∀ c ∈ rest.head?, p c = false) : (word ++ rest).takeWhile p = word := by
  have hrest : rest.takeWhile p = [] := by
    cases rest with
    | nil => rfl
    | cons c rest => exact List.takeWhile_cons_of_neg (by rw [hr c rfl]; decide)
  rw [List.takeWhile_append_of_pos hw, hrest, List.append_nil]

/-- A word is cut up to the character that does not go on with it. -/
theorem cutCode_word {c : Char} {word rest : List Char} (hc : beginsWord c = true)
    (hw : ∀ d ∈ word, continuesWord d = true)
    (hr : ∀ d ∈ rest.head?, continuesWord d = false ∧ isQuote d = false) (recent : Recent) :
    cutCode [] recent (c :: word ++ rest) = ⟨.word, c :: word, []⟩ := by
  have hquotes : ∀ d ∈ c :: word, isQuote d = false := by
    intro d hd
    rcases List.mem_cons.mp hd with rfl | hd
    · exact isQuote_of_beginsWord hc
    · exact isQuote_of_continuesWord (hw d hd)
  have hflags : ∀ d ∈ rest.head?, isStringFlag d = false ∧ isQuote d = false := by
    intro d hd
    refine ⟨?_, (hr d hd).2⟩
    by_contra hflag
    rw [Bool.not_eq_false] at hflag
    have hgoes := continuesWord_of_isStringFlag hflag
    rw [(hr d hd).1] at hgoes
    cases hgoes
  rw [cutCode_eq_code (head_dropWhile_flags hquotes hflags)]
  simp only [List.cons_append, cutCode.code, hc, if_true,
    takeWhile_append_eq hw fun d hd => (hr d hd).1]

/-! ### Numbers -/

theorem isDigit_eq_false {c : Char} (h : continuesWord c = false) : isDigit c = false := by
  rw [← Bool.not_eq_true]
  intro hd
  rw [(digit_facts hd).1] at h
  cases h

theorem ne_of_continuesWord {c d : Char} (h : continuesWord c = false) (hd : continuesWord d = true) :
    c ≠ d := by
  rintro rfl
  rw [hd] at h
  cases h

/-- A text does not start with one of two letters if its first character goes on with no word. -/
theorem startsWith_eq_false {text : List Char} (h : ∀ c ∈ text.head?, continuesWord c = false)
    (lower upper : Char) (hl : continuesWord lower = true) (hu : continuesWord upper = true) :
    startsWith lower upper text = false := by
  have hne (d : Char) (hd : continuesWord d = true) : text.head? ≠ some d := fun he =>
    ne_of_continuesWord (h d he) hd rfl
  rw [startsWith, decide_eq_false (hne lower hl), decide_eq_false (hne upper hu)]
  rfl

theorem decimalLength_of_not_digit {text : List Char} (h : ∀ c ∈ text.head?, isDigit c = false) :
    decimalLength text = 0 := by
  match text with
  | [] => rfl
  | [c] => simp only [decimalLength, h c rfl, Bool.false_eq_true, if_false]
  | c :: d :: rest => simp only [decimalLength, h c rfl, Bool.false_eq_true, if_false]

/-- A group of digits ends where no word goes on. -/
theorem decimalLength_append {text rest : List Char} (ht : ∀ c ∈ text, isDigit c = true)
    (hr : ∀ c ∈ rest.head?, continuesWord c = false) :
    decimalLength (text ++ rest) = text.length := by
  induction text with
  | nil => exact decimalLength_of_not_digit fun c hc => isDigit_eq_false (hr c hc)
  | cons c text ih =>
    have hc : isDigit c = true := ht c List.mem_cons_self
    have htext : ∀ c ∈ text, isDigit c = true := fun d hd => ht d (List.mem_cons_of_mem _ hd)
    have htail := ih htext
    cases hmore : text ++ rest with
    | nil =>
      obtain ⟨rfl, rfl⟩ := List.append_eq_nil_iff.mp hmore
      simp only [List.append_nil, decimalLength, hc, if_true, List.length_singleton]
    | cons d more =>
      have hbar : d ≠ '_' := by
        cases text with
        | nil =>
          rw [List.nil_append] at hmore
          exact ne_of_continuesWord (hr d (by rw [hmore]; rfl)) (by decide)
        | cons e text =>
          obtain ⟨rfl, -⟩ := List.cons.inj hmore
          rintro rfl
          exact absurd (htext _ List.mem_cons_self) (by decide)
      rw [hmore] at htail
      simp only [List.cons_append, hmore, decimalLength, hc, if_true, hbar, if_false, htail,
        List.length_cons]

/-- No exponent begins where no word goes on. -/
theorem exponentLength_eq_zero {text : List Char} (h : ∀ c ∈ text.head?, continuesWord c = false) :
    exponentLength text = 0 := by
  cases text with
  | nil => rfl
  | cons c rest =>
    have hlower : c ≠ 'e' := ne_of_continuesWord (h c rfl) (by decide)
    have hupper : c ≠ 'E' := ne_of_continuesWord (h c rfl) (by decide)
    simp only [exponentLength, hlower, hupper, decide_false, Bool.or_false, Bool.false_eq_true,
      if_false]

/-- A number is cut up to the character that does not go on with it. -/
theorem takeNumber_digits (value : Nat) {rest : List Char}
    (hr : ∀ c ∈ rest.head?, continuesWord c = false ∧ c ≠ '.') :
    takeNumber (Decimal.digits value ++ rest) =
      some ((Decimal.digits value).length, .integer) := by
  have hgoes : ∀ c ∈ rest.head?, continuesWord c = false := fun c hc => (hr c hc).1
  have hdigits : ∀ c ∈ Decimal.digits value, isDigit c = true := fun c hc =>
    Decimal.isDigit_of_mem_digits hc
  have hlength := decimalLength_append hdigits hgoes
  have hne : (Decimal.digits value).length ≠ 0 :=
    (List.length_pos_iff.mpr (Decimal.digits_ne_nil value)).ne'
  have hdot : rest.head? ≠ some '.' := fun he => (hr '.' he).2 rfl
  have hlong := startsWith_eq_false hgoes 'l' 'L' (by decide) (by decide)
  have himaginary := startsWith_eq_false hgoes 'j' 'J' (by decide) (by decide)
  have hexponent := exponentLength_eq_zero hgoes
  -- The mark of another radix stands behind a zero, and a zero has no further digits in print.
  have hradix : radixNumber? (Decimal.digits value ++ rest) = none := by
    unfold radixNumber?
    split
    · rename_i mark behind he
      obtain ⟨c, tail, hdigits⟩ := List.exists_cons_of_ne_nil (Decimal.digits_ne_nil value)
      rw [hdigits, List.cons_append] at he
      obtain ⟨rfl, hbehind⟩ := List.cons.inj he
      obtain rfl := (Decimal.eq_zero_of_digits hdigits).2
      have hend : continuesWord mark = false := hgoes mark (congrArg List.head? hbehind)
      have hne (c : Char) (hc : continuesWord c = true) : mark ≠ c := ne_of_continuesWord hend hc
      simp only [markedDigits, hne 'x' (by decide), hne 'X' (by decide), hne 'o' (by decide),
        hne 'O' (by decide), hne 'b' (by decide), hne 'B' (by decide), decide_false, Bool.or_false,
        Bool.false_eq_true, if_false, if_true]
    · rfl
  simp only [takeNumber, hradix, decimalNumber?, withLetter, hlength, List.drop_left, hdot, if_false,
    hne, hexponent, if_true, hlong, himaginary, Bool.false_eq_true]

theorem cutCode_number {value : Nat} {rest : List Char}
    (hr : ∀ c ∈ rest.head?, continuesWord c = false ∧ c ≠ '.') (recent : Recent) :
    cutCode [] recent (Decimal.digits value ++ rest) = ⟨.integer, Decimal.digits value, []⟩ := by
  obtain ⟨c, tail, hdigits⟩ := List.exists_cons_of_ne_nil (Decimal.digits_ne_nil value)
  have hc : isDigit c = true := Decimal.isDigit_of_mem_digits (hdigits ▸ List.mem_cons_self)
  obtain ⟨-, hbegins, hflag, hquote, -⟩ := digit_facts hc
  have hhead : ∀ d ∈ ((Decimal.digits value ++ rest).dropWhile isStringFlag).head?,
      isQuote d = false := by
    intro d hd
    rw [hdigits, List.cons_append, List.dropWhile_cons_of_neg (by rw [hflag]; decide)] at hd
    obtain rfl := Option.mem_some_iff.mp hd
    exact hquote
  have hnumber := takeNumber_digits value hr
  rw [cutCode_eq_code hhead]
  rw [hdigits] at hnumber ⊢
  rw [List.cons_append] at hnumber ⊢
  simp only [cutCode.code, hbegins, Bool.false_eq_true, if_false, hnumber]
  rw [← List.cons_append, List.take_left]

/-! ### Signs -/

/-- Some sign goes on with the character. -/
def extendsSign (c : Char) : Bool := ['=', '>', '<', '*', '/'].contains c

/-- A sign ends before the character: no longer sign and no number begins with both. -/
def symbolStops (symbol : Symbol) (c : Char) : Bool :=
  !extendsSign c && (symbol != .dot || c != '.' && !isDigit c)

/-- A sign is taken up to the character that ends it. -/
theorem takeSymbol_text (symbol : Symbol) {rest : List Char}
    (hr : ∀ c ∈ rest.head?, symbolStops symbol c = true) :
    takeSymbol (symbol.text.toList ++ rest) = some symbol := by
  cases rest with
  | nil =>
    cases symbol with
    | op op => cases op <;> rfl
    | augmented op => cases op <;> rfl
    | _ => rfl
  | cons c rest =>
    have hc := hr c rfl
    simp only [symbolStops, extendsSign, Bool.and_eq_true, Bool.not_eq_true', Bool.or_eq_true,
      bne_iff_ne, List.contains_eq_mem, decide_eq_false_iff_not, List.mem_cons, not_or] at hc
    obtain ⟨⟨hequal, hgreater, hless, hstar, hslash, -⟩, hdot⟩ := hc
    cases symbol with
    | op op => cases op <;> first | rfl | simp [Symbol.text, BinOp.symbol, takeSymbol, *]
    | augmented op => cases op <;> rfl
    | dot =>
      have hdot : c ≠ '.' := (hdot.resolve_left fun h => h rfl).1
      simp [Symbol.text, takeSymbol, hdot]
    | _ => first | rfl | simp [Symbol.text, takeSymbol, *]

/-- No number begins with a character that is no digit, or with a dot before no digit. -/
theorem takeNumber_eq_none {c : Char} {rest : List Char} (hc : isDigit c = false)
    (hdot : c = '.' → ∀ d ∈ rest.head?, isDigit d = false) : takeNumber (c :: rest) = none := by
  have hwhole : decimalLength (c :: rest) = 0 :=
    decimalLength_of_not_digit fun d hd => Option.mem_some_iff.mp hd ▸ hc
  have hradix : radixNumber? (c :: rest) = none := by
    unfold radixNumber?
    split
    · rename_i he
      obtain ⟨rfl, -⟩ := List.cons.inj he
      exact absurd hc (by decide)
    · rfl
  simp only [takeNumber, hradix, decimalNumber?, hwhole, List.drop_zero, List.head?_cons,
    List.drop_one, List.tail_cons]
  by_cases he : c = '.'
  · simp only [he, decimalLength_of_not_digit (hdot he), if_true, decide_true, Bool.and_self]
  · simp only [Option.some.injEq, he, if_false, if_true]

/-- How a sign begins. -/
theorem symbol_facts (symbol : Symbol) :
    ∃ c tail, symbol.text.toList = c :: tail ∧ beginsWord c = false ∧ isStringFlag c = false ∧
      isQuote c = false ∧ isDigit c = false ∧ c ∉ gapMarks ∧
      (c = '.' → symbol = .dot ∨ tail.head? = some '.') := by
  cases symbol with
  | op op => cases op <;> exact ⟨_, _, rfl, by decide⟩
  | augmented op => cases op <;> exact ⟨_, _, rfl, by decide⟩
  | _ => exact ⟨_, _, rfl, by decide⟩

/-- A sign is cut if it is the longest one at the head of the text, and no number begins with it. -/
theorem cutCode_of_takeSymbol {symbol : Symbol} {rest : List Char}
    (htaken : takeSymbol (symbol.text.toList ++ rest) = some symbol)
    (hr : symbol = .dot → ∀ c ∈ rest.head?, isDigit c = false) (recent : Recent) :
    cutCode [] recent (symbol.text.toList ++ rest) = ⟨.symbol symbol, symbol.text.toList, []⟩ := by
  have hlength : (symbol.text.toList ++ rest).take symbol.text.length = symbol.text.toList := by
    rw [← String.length_toList, List.take_left]
  obtain ⟨c, tail, htext, hbegins, hflag, hquote, hdigit, -, hdot⟩ := symbol_facts symbol
  rw [htext, List.cons_append] at htaken hlength ⊢
  have hhead : ∀ d ∈ ((c :: (tail ++ rest)).dropWhile isStringFlag).head?, isQuote d = false := by
    intro d hd
    rw [List.dropWhile_cons_of_neg (by rw [hflag]; decide)] at hd
    exact Option.mem_some_iff.mp hd ▸ hquote
  have hnumber : takeNumber (c :: (tail ++ rest)) = none := by
    refine takeNumber_eq_none hdigit fun he d hd => ?_
    rcases hdot he with rfl | hsecond
    · have htail : tail = [] := (List.cons.inj (show ['.'] = c :: tail from htext)).2.symm
      rw [htail] at hd
      exact hr rfl d hd
    · cases tail with
      | nil => cases hsecond
      | cons e tail =>
        obtain rfl := Option.some.inj hsecond
        obtain rfl := Option.some.inj hd
        rfl
  rw [cutCode_eq_code hhead]
  simp only [cutCode.code, hbegins, Bool.false_eq_true, if_false, hnumber, cutCode.cutSymbol,
    htaken, hlength]

theorem cutCode_sign (symbol : Symbol) {rest : List Char}
    (hr : ∀ c ∈ rest.head?, symbolStops symbol c = true) (recent : Recent) :
    cutCode [] recent (symbol.text.toList ++ rest) = ⟨.symbol symbol, symbol.text.toList, []⟩ := by
  refine cutCode_of_takeSymbol (takeSymbol_text symbol hr) (fun hdot c hc => ?_) recent
  have hstop := hr c hc
  simp only [symbolStops, hdot, Bool.and_eq_true, Bool.or_eq_true, bne_iff_ne, ne_eq,
    not_true_eq_false, false_or, Bool.not_eq_true'] at hstop
  exact hstop.2.2

/-- The first of two dots is a sign by itself, if there is no third one. -/
theorem cutCode_dots {rest : List Char} (hr : ∀ c ∈ rest.head?, c ≠ '.') (recent : Recent) :
    cutCode [] recent ('.' :: '.' :: rest) = ⟨.symbol .dot, ['.'], []⟩ := by
  have htaken : takeSymbol (Symbol.dot.text.toList ++ '.' :: rest) = some .dot := by
    cases rest with
    | nil => rfl
    | cons c rest => simp [Symbol.text, takeSymbol, hr c rfl]
  exact cutCode_of_takeSymbol htaken (fun _ c hc => Option.mem_some_iff.mp hc ▸ rfl) recent

end Marksheet.Source
