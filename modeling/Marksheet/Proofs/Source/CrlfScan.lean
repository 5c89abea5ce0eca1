import Marksheet.Proofs.Source.Crlf

/-!
# Strings with line ends of two characters

A scan steps over a line end of two characters as it steps over one of a single
character: an escape, a backslash of a raw string and a run of content take it
whole. Only where a line end may begin a piece of content but not go on with
one, a string is no longer closed (`scanFrom_crlf`).
-/

namespace Marksheet.Source

open Alphabet

/-! ### Strings -/

theorem drop_crlf_front {front text : List Char} (h : front <+: text) :
    (crlf text).drop (crlf front).length = crlf (text.drop front.length) := by
  obtain ⟨rest, rfl⟩ := h
  rw [crlf_append, List.drop_left, List.drop_left]

namespace Quotation

theorem countLeading_crlf {test : Char → Bool} (hfeed : test '\n' = false)
    (hreturn : test '\r' = false) (limit : Nat) (text : List Char) :
    countLeading test limit (crlf text) = countLeading test limit text := by
  induction limit generalizing text with
  | zero => rw [countLeading, countLeading]
  | succ limit ih =>
    cases text with
    | nil => rfl
    | cons c rest =>
      by_cases hc : c = '\n'
      · simp [hc, countLeading, hfeed, hreturn]
      · rw [crlf_cons hc, countLeading, countLeading, ih]

theorem clear_countLeading {p : Char → Bool} (hfeed : p '\n' = false) (limit : Nat)
    (text : List Char) : Clear (countLeading p limit text) text := by
  fun_induction countLeading p limit text with
  | case3 limit c rest hc ih => exact clear_succ (ne_feed_of_test hfeed hc) ih
  | _ => exact clear_zero _

/-- What is taken from the head of a text is the same but for the line ends. -/
theorem take_crlf_of_clear {count count' : Nat} {text : List Char} (h : Clear count text)
    (hcount : count' = count) : (crlf text).take count' = crlf (text.take count) := by
  rw [hcount, h.take_crlf, crlf_eq_self h]

/-- A code with its mark has no line feeds. -/
theorem codeLength_crlf (digits : Nat) (behind : List Char) :
    codeLength digits (crlf behind) = codeLength digits behind := by
  unfold codeLength
  rw [countLeading_crlf rfl rfl]

theorem clear_codeLength {mark : Char} (hmark : mark ≠ '\n') (digits : Nat) (behind : List Char) :
    Clear (codeLength digits behind) (mark :: behind) := by
  unfold codeLength
  split
  · rename_i hcount
    have hdigits := clear_countLeading (p := isHexDigit) rfl digits behind
    rw [hcount] at hdigits
    exact clear_succ hmark hdigits
  · exact clear_zero _

/-- A part at the head of a text is all of it with either line ends, or with neither. -/
theorem length_crlf_eq_iff {front text : List Char} (h : front <+: text) :
    (crlf front).length = (crlf text).length ↔ front.length = text.length := by
  obtain ⟨more, rfl⟩ := h
  have hle := length_le_crlf more
  have hnil : more.length = 0 → (crlf more).length = 0 := fun hn => by
    rw [List.length_eq_zero_iff.1 hn]
    rfl
  rw [crlf_append, List.length_append, List.length_append]
  omega

/-- A name up to its closing brace, the brace included. -/
theorem exists_brace {rest : List Char}
    (h : (rest.takeWhile (· != '\x7d')).length ≠ rest.length) :
    ∃ more, rest = rest.takeWhile (· != '\x7d') ++ '\x7d' :: more := by
  have hsplit := List.takeWhile_append_dropWhile (p := (· != '\x7d')) (l := rest)
  have hstop := List.head?_dropWhile_not (· != '\x7d') rest
  cases hdrop : rest.dropWhile (· != '\x7d') with
  | nil =>
    rw [hdrop, List.append_nil] at hsplit
    exact absurd (congrArg List.length hsplit) h
  | cons d more =>
    rw [hdrop] at hsplit hstop
    obtain rfl : d = '\x7d' := by simpa using hstop
    exact ⟨more, hsplit.symm⟩

/-- A name in braces takes the same characters as before. -/
theorem take_namedLength_crlf (rest : List Char) :
    ('N' :: '\x7b' :: crlf rest).take (namedLength (crlf rest)) =
      crlf (('N' :: '\x7b' :: rest).take (namedLength rest)) := by
  have hname := takeWhile_crlf_of_pos (p := (· != '\x7d')) rfl rfl rest
  have hall := length_crlf_eq_iff (List.takeWhile_prefix (l := rest) (· != '\x7d'))
  have hempty (text : List Char) : (crlf text).isEmpty = text.isEmpty := by
    cases text with
    | nil => rfl
    | cons c text => exact List.isEmpty_eq_false_iff.2 (crlf_ne_nil (List.cons_ne_nil c text))
  simp only [namedLength, hname, hempty, hall]
  split
  · rfl
  · rename_i hends
    simp only [Bool.or_eq_true, decide_eq_true_eq, not_or] at hends
    obtain ⟨more, hmore⟩ := exists_brace hends.2
    have hlength (name : List Char) (text : List Char) :
        ('N' :: '\x7b' :: (name ++ '\x7d' :: text)).take (name.length + 3) =
          'N' :: '\x7b' :: (name ++ ['\x7d']) := by
      rw [List.take_succ_cons, List.take_succ_cons, List.take_length_add_append]
      rfl
    generalize rest.takeWhile (· != '\x7d') = name at hmore
    rw [hmore, crlf_append, crlf_cons (by decide), hlength, hlength, crlf_cons (by decide),
      crlf_cons (by decide), crlf_append]
    rfl

theorem shortLength_crlf (first : Char) (behind : List Char) :
    shortLength first (crlf behind) = shortLength first behind := by
  unfold shortLength
  rw [countLeading_crlf rfl rfl]

theorem clear_shortLength {first : Char} (h : first ≠ '\n') (behind : List Char) :
    Clear (shortLength first behind) (first :: behind) := by
  unfold shortLength
  split
  · exact clear_succ h (clear_countLeading rfl 2 behind)
  · split
    · exact clear_succ h (clear_zero _)
    · exact clear_zero _

/-- An escape takes the same characters as before. -/
theorem take_escapeLength_crlf {behind : List Char} (h : '\r' ∉ behind) :
    (crlf behind).take (escapeLength (crlf behind)) = crlf (behind.take (escapeLength behind)) := by
  have hcode {mark : Char} (hmark : mark ≠ '\n') (digits : Nat) (rest : List Char) :
      (mark :: crlf rest).take (codeLength digits (crlf rest)) =
        crlf ((mark :: rest).take (codeLength digits rest)) := by
    rw [← crlf_cons hmark]
    exact take_crlf_of_clear (clear_codeLength hmark digits rest) (codeLength_crlf digits rest)
  fun_cases escapeLength behind with
  | case1 => rfl
  | case2 rest => exact hcode (by decide) 4 rest
  | case3 rest => exact hcode (by decide) 8 rest
  | case4 rest => exact hcode (by decide) 2 rest
  | case5 rest => exact take_namedLength_crlf rest
  | case6 => exact absurd List.mem_cons_self h
  | case7 c rest hu hbig hx hname hreturn =>
    by_cases hc : c = '\n'
    · subst hc
      rfl
    · refine take_crlf_of_clear (clear_shortLength hc rest) ?_
      rw [crlf_cons hc, escapeLength, shortLength_crlf]
      · exact hu
      · exact hbig
      · exact hx
      · intro more he hmore
        obtain ⟨behind, hbehind, -⟩ := exists_of_crlf_eq_cons hmore (by decide)
        exact hname behind he hbehind
      · intro more he
        exact absurd (he ▸ List.mem_cons_self) h

/-- A line end is taken whole. -/
theorem take_lineEndLength_crlf {text : List Char} (h : '\r' ∉ text) :
    (crlf text).take (lineEndLength (crlf text)) = crlf (text.take (lineEndLength text)) := by
  cases text with
  | nil => rfl
  | cons c rest =>
    by_cases hc : c = '\n'
    · subst hc
      rfl
    · have hreturn : c ≠ '\r' := fun he => h (he ▸ List.mem_cons_self)
      have hnone (more : List Char) : lineEndLength (c :: more) = 0 := by
        simp [lineEndLength, hc, hreturn]
      rw [crlf_cons hc, hnone, hnone]
      rfl

/-- A backslash of a raw string steps over the same characters as before. -/
theorem take_rawLength_crlf {quote : Char} (hq : isQuote quote = true) {behind : List Char}
    (h : '\r' ∉ behind) :
    (crlf behind).take (rawLength quote (crlf behind)) =
      crlf (behind.take (rawLength quote behind)) := by
  cases behind with
  | nil => rfl
  | cons c rest =>
    have hend := take_lineEndLength_crlf h
    by_cases hc : c = '\n'
    · subst hc
      have hfeed : '\n' ≠ quote := (ne_feed_of_test rfl hq).symm
      have hreturn : '\r' ≠ quote := fun he => absurd (he ▸ hq) (by decide)
      simpa [rawLength, hfeed, hreturn] using hend
    · have hrest := take_lineEndLength_crlf (mt (List.mem_cons_of_mem c) h)
      rw [crlf_cons hc] at hend ⊢
      simp only [rawLength]
      split
      · rw [List.take_succ_cons, List.take_succ_cons, crlf_cons hc, hrest]
      · exact hend

/-! ### Scanning -/

/-- A text read backwards, with a carriage return before every line feed. -/
def crlfBack (text : List Char) : List Char := (crlf text.reverse).reverse

@[simp] theorem crlfBack_nil : crlfBack [] = [] := rfl

theorem crlfBack_append (text more : List Char) :
    crlfBack (text ++ more) = crlfBack text ++ crlfBack more := by
  simp only [crlfBack, List.reverse_append, crlf_append]

theorem crlfBack_cons {c : Char} (hc : c ≠ '\n') (text : List Char) :
    crlfBack (c :: text) = c :: crlfBack text := by
  rw [crlfBack, List.reverse_cons, crlf_append, crlf_cons hc, List.reverse_append]
  rfl

@[simp] theorem crlfBack_feed (text : List Char) :
    crlfBack ('\n' :: text) = '\n' :: '\r' :: crlfBack text := by
  rw [crlfBack, List.reverse_cons, crlf_append, List.reverse_append]
  rfl

@[simp] theorem crlfBack_reverse (text : List Char) : crlfBack text.reverse = (crlf text).reverse := by
  rw [crlfBack, List.reverse_reverse]

@[simp] theorem reverse_crlfBack (text : List Char) :
    (crlfBack text).reverse = crlf text.reverse := List.reverse_reverse _

theorem crlfBack_isEmpty (text : List Char) : (crlfBack text).isEmpty = text.isEmpty := by
  cases text with
  | nil => rfl
  | cons c rest =>
    by_cases hc : c = '\n'
    · rw [hc, crlfBack_feed]
      rfl
    · rw [crlfBack_cons hc]
      rfl

/-- A state of a scan of the text with other line ends. -/
def Progress.crlf (state : Progress) : Progress :=
  ⟨crlfBack state.finished, crlfBack state.piece, state.solid⟩

/-- All characters scanned so far. -/
def Progress.all (state : Progress) : List Char := (state.piece ++ state.finished).reverse

theorem Progress.crlf_all (state : Progress) : state.crlf.all = Source.crlf state.all := by
  rw [Progress.all, Progress.all, Progress.crlf, ← crlfBack_append, reverse_crlfBack]

theorem Progress.crlf_finish (state : Progress) (more : List Char) :
    (state.finish more).crlf = state.crlf.finish (Source.crlf more) := by
  simp only [Progress.finish, Progress.crlf, crlfBack_append, crlfBack_reverse, crlfBack_nil]

/-- A run of content of a text, and that of the text with other line ends. A string that does not end
the same way is not closed there. -/
inductive Rescan (whole : List Char) : Run → Run → Prop where
  | closed {content mark rest rest' : List Char} (hmark : mark ≠ []) (h : content ++ mark <+: whole) :
      Rescan whole ⟨content, .closed mark, rest⟩ ⟨crlf content, .closed (crlf mark), rest'⟩
  | field {content rest rest' : List Char} (h : content ++ ['\x7b'] <+: whole) :
      Rescan whole ⟨content, .field, rest⟩ ⟨crlf content, .field, rest'⟩
  | unclosed {content rest rest' : List Char} (h : content <+: whole) :
      Rescan whole ⟨content, .unclosed, rest⟩ ⟨crlf content, .unclosed, rest'⟩
  | broken {run : Run} {rest' : List Char} : Rescan whole run ⟨[], .unclosed, rest'⟩

theorem Progress.all_finish (state : Progress) (more : List Char) :
    (state.finish more).all = state.all ++ more := by
  simp [Progress.finish, Progress.all]

/-- The characters of a piece are scanned behind those before it. -/
theorem Progress.all_piece (state : Progress) (more : List Char) (solid : Bool) :
    (⟨state.finished, more.reverse ++ state.piece, solid⟩ : Progress).all = state.all ++ more := by
  simp [Progress.all]

section

variable {q : Quotation} (hq : isQuote q.quote = true) (fuel : Nat) (state : Progress)
  (rest : List Char)

include hq

theorem scanFrom_return :
    scanFrom q (fuel + 1) state ('\r' :: rest) =
      scanFrom q fuel { state with piece := '\r' :: state.piece, solid := true } rest := by
  have hreturn : '\r' ≠ q.quote := fun he => absurd (he ▸ hq) (by decide)
  simp [scanFrom, hreturn]

theorem scanFrom_feed :
    scanFrom q (fuel + 1) state ('\n' :: rest) =
      if state.solid && !q.triple then ⟨[], .unclosed, '\n' :: rest⟩
      else scanFrom q fuel { state with piece := '\n' :: state.piece, solid := true } rest := by
  have hfeed : '\n' ≠ q.quote := (ne_feed_of_test rfl hq).symm
  simp [scanFrom, hfeed]

end

theorem head_letter_crlf (text : List Char) :
    ((crlf text).head? = some 'N' || (crlf text).head? = some 'u' || (crlf text).head? = some 'U') =
      (text.head? = some 'N' || text.head? = some 'u' || text.head? = some 'U') := by
  cases text with
  | nil => rfl
  | cons c rest =>
    obtain ⟨d, more, hmore, hlike⟩ := exists_crlf_cons c rest
    have hd := hlike (fun c => decide (c = 'N') || decide (c = 'u') || decide (c = 'U')) rfl
    simpa [hmore] using hd

theorem take_two_crlf {quote : Char} (hq : isQuote quote = true) (text : List Char) :
    (crlf text).take 2 = [quote, quote] ↔ text.take 2 = [quote, quote] := by
  have hfeed : '\n' ≠ quote := (ne_feed_of_test rfl hq).symm
  have hreturn : '\r' ≠ quote := fun he => absurd (he ▸ hq) (by decide)
  match text with
  | [] => rfl
  | [a] =>
    by_cases ha : a = '\n'
    · simp [ha, hreturn]
    · rw [crlf_cons ha]
      rfl
  | a :: b :: rest =>
    by_cases ha : a = '\n'
    · simp [ha, hfeed, hreturn]
    · rw [crlf_cons ha]
      by_cases hb : b = '\n'
      · simp [hb, hfeed, hreturn]
      · rw [crlf_cons hb]
        rfl

/-- What stands behind a part of the text is scanned from the same state, but for the line ends in
it. -/
def Follows (q : Quotation) (fuel : Nat) (rest : List Char) : Prop :=
  ∀ (next : Progress) (front more : List Char), rest = front ++ more → ∀ fuel',
    (crlf more).length < fuel' →
      Rescan (next.all ++ more) (scanFrom q fuel next more) (scanFrom q fuel' next.crlf (crlf more))

section

variable {q : Quotation} {fuel fuel' : Nat} {state : Progress} {c : Char} {rest : List Char}
  (hq : isQuote q.quote = true) (h : Follows q fuel rest) (hf : (crlf rest).length < fuel')

include h hf

/-- A scan goes on behind the characters that it has taken. -/
theorem Follows.step {next next' : Progress} (hnext : next' = next.crlf) {front : List Char}
    (hfront : front <+: rest) (hall : next.all = state.all ++ c :: front) :
    Rescan (state.all ++ c :: rest) (scanFrom q fuel next (rest.drop front.length))
      (scanFrom q fuel' next' ((crlf rest).drop (crlf front).length)) := by
  rw [drop_crlf_front hfront, hnext]
  obtain ⟨more, rfl⟩ := hfront
  rw [crlf_append, List.length_append] at hf
  have hmore := h next front more rfl fuel' (by omega)
  rw [hall, List.append_assoc, List.cons_append] at hmore
  rwa [List.drop_left]

theorem scanFrom_brace_crlf (hformat : q.format = true) (hc : c = '\x7b' ∨ c = '\x7d') :
    Rescan (state.all ++ c :: rest) (scanFrom q (fuel + 1) state (c :: rest))
      (scanFrom q (fuel' + 1) state.crlf (c :: crlf rest)) := by
  have hfeed : c ≠ '\n' := by rcases hc with rfl | rfl <;> decide
  have hstep : (q.format && (c = '\x7b' || c = '\x7d')) = true := by simpa [hformat] using hc
  -- a single brace opens a field, or ends the string
  have hsingle : Rescan (state.all ++ c :: rest)
      (if c = '\x7b' then ⟨state.all, .field, c :: rest⟩ else ⟨state.all, .unclosed, c :: rest⟩)
      (if c = '\x7b' then ⟨state.crlf.all, .field, c :: crlf rest⟩
        else ⟨state.crlf.all, .unclosed, c :: crlf rest⟩) := by
    rw [Progress.crlf_all]
    split
    · rename_i he
      exact .field ⟨rest, by rw [he, List.append_assoc]; rfl⟩
    · exact .unclosed (List.prefix_append _ _)
  unfold scanFrom
  simp only [hstep, if_true]
  cases rest with
  | nil => exact hsingle
  | cons d more =>
    by_cases hd : d = c
    · subst hd
      rw [crlf_cons hfeed]
      simp only [if_true]
      have hgo := h.step hf (Progress.crlf_finish state [d, d]).symm (⟨more, rfl⟩ : [d, d].tail <+: _)
        (Progress.all_finish state [d, d])
      simpa [crlf_cons hfeed] using hgo
    · obtain ⟨e, others, hothers, hlike⟩ := exists_crlf_cons d more
      have he : e ≠ c := by
        have hreturn : c ≠ '\r' := by rcases hc with rfl | rfl <;> decide
        simpa [hd] using hlike (fun x => decide (x = c)) (by simp [hfeed.symm, hreturn.symm])
      rw [hothers] at hsingle ⊢
      simp only [hd, he, if_false]
      exact hsingle

include hq

/-- The pieces that a backslash belongs to hold the same characters but for the line ends. -/
theorem scanFrom_backslash_crlf (hformat : (q.format && (c = '\x7b' || c = '\x7d')) = false) (hc : c = '\\')
    (hreturn : '\r' ∉ rest) :
    Rescan (state.all ++ c :: rest) (scanFrom q (fuel + 1) state (c :: rest))
      (scanFrom q (fuel' + 1) state.crlf (c :: crlf rest)) := by
  subst hc
  have hpiece (taken : List Char) (solid : Bool) :
      (⟨state.crlf.finished, (crlf taken).reverse ++ '\\' :: state.crlf.piece, solid⟩ :
        Progress) =
        (⟨state.finished, taken.reverse ++ '\\' :: state.piece, solid⟩ : Progress).crlf := by
    simp only [Progress.crlf, crlfBack_append, crlfBack_reverse, crlfBack_cons (c := '\\') (by decide)]
  have hall (taken : List Char) (solid : Bool) :
      (⟨state.finished, taken.reverse ++ '\\' :: state.piece, solid⟩ : Progress).all =
        state.all ++ '\\' :: taken := by
    rw [Progress.all, Progress.all]
    simp
  unfold scanFrom
  simp only [hformat, Bool.false_eq_true, if_false, if_true]
  split
  · rw [take_rawLength_crlf hq hreturn]
    exact h.step hf (hpiece _ _) (List.take_prefix _ _) (hall _ _)
  · simp only [head_letter_crlf]
    split
    · rename_i hbytes
      simp only [Bool.and_eq_true] at hbytes
      obtain ⟨letter, more, rfl⟩ : ∃ letter more, rest = letter :: more := by
        cases rest with
        | nil => simp at hbytes
        | cons letter more => exact ⟨letter, more, rfl⟩
      have hletter : letter ≠ '\n' := by
        rintro rfl
        simp at hbytes
      rw [crlf_cons hletter] at hf ⊢
      match more with
      | [] =>
        have hgo := h.step (by simpa [crlf_cons hletter] using hf) (hpiece [letter] true)
          (List.prefix_refl _) (hall [letter] true)
        simpa [crlf_cons hletter] using hgo
      | d :: others =>
        by_cases hd : d = '\n'
        · -- only the first character of the line end is taken with the letter
          subst hd
          obtain ⟨fuel', rfl⟩ := Nat.exists_eq_succ_of_ne_zero (Nat.ne_zero_of_lt hf)
          simp only [crlf_feed, List.length_cons] at hf
          have hgo := h ⟨state.finished, '\n' :: letter :: '\\' :: state.piece, true⟩
            [letter, '\n'] others rfl fuel' (by omega)
          simp only [crlf_feed, List.take_succ_cons, List.take_zero, List.length_cons,
            List.length_nil, List.drop_succ_cons, List.drop_zero, scanFrom_feed hq]
          split
          · exact .broken
          · simpa [Progress.all, Progress.crlf, crlfBack_cons hletter,
              crlfBack_cons (c := '\\') (by decide)] using hgo
        · have hgo := h.step (by simpa [crlf_cons hletter] using hf) (hpiece [letter, d] true)
            (⟨others, rfl⟩ : [letter, d] <+: letter :: d :: others) (hall [letter, d] true)
          simpa [crlf_cons hletter, crlf_cons hd] using hgo
    · rw [take_escapeLength_crlf hreturn]
      have hfinish (taken : List Char) :
          state.crlf.finish ('\\' :: crlf taken) = (state.finish ('\\' :: taken)).crlf := by
        rw [Progress.crlf_finish, crlf_cons (by decide)]
      exact h.step hf (hfinish _) (List.take_prefix _ _) (Progress.all_finish _ _)

/-- A quotation mark closes the string, or it is one of the characters of it. -/
theorem scanFrom_quote_crlf
    (hformat : (q.format && (q.quote = '\x7b' || q.quote = '\x7d')) = false)
    (hslash : q.quote ≠ '\\') :
    Rescan (state.all ++ q.quote :: rest) (scanFrom q (fuel + 1) state (q.quote :: rest))
      (scanFrom q (fuel' + 1) state.crlf (q.quote :: crlf rest)) := by
  have hfeed : q.quote ≠ '\n' := ne_feed_of_test rfl hq
  have hreturn : q.quote ≠ '\r' := fun he => absurd (he ▸ hq) (by decide)
  have hone : Rescan (state.all ++ q.quote :: rest) (scanFrom q fuel (state.finish [q.quote]) rest)
      (scanFrom q fuel' (state.crlf.finish [q.quote]) (crlf rest)) := by
    have hgo := h.step hf (Progress.crlf_finish state [q.quote]).symm List.nil_prefix
      (Progress.all_finish state [q.quote])
    simpa [crlf_cons hfeed] using hgo
  unfold scanFrom
  simp only [hformat, hslash, take_two_crlf hq, Bool.false_eq_true, if_false, if_true]
  split
  · cases rest with
    | nil => exact hone
    | cons d more =>
      by_cases hd : d = q.quote
      · subst hd
        rw [crlf_cons hfeed]
        simp only [if_true]
        have hgo := h.step hf (Progress.crlf_finish state [q.quote, q.quote]).symm
          (⟨more, rfl⟩ : [q.quote, q.quote].tail <+: _) (Progress.all_finish state [q.quote, q.quote])
        simpa [crlf_cons hfeed] using hgo
      · obtain ⟨e, others, hothers, hlike⟩ := exists_crlf_cons d more
        have he : e ≠ q.quote := by
          simpa [hd] using hlike (fun x => decide (x = q.quote)) (by simp [hfeed.symm, hreturn.symm])
        rw [hothers] at hone ⊢
        simp only [hd, he, if_false]
        exact hone
  · rename_i hclosing
    obtain ⟨marks, hmarks, hplain, hne, hfront⟩ : ∃ marks,
        (if q.triple = true then [q.quote, q.quote, q.quote] else [q.quote]) = marks ∧
          crlf marks = marks ∧ marks ≠ [] ∧ marks <+: q.quote :: rest := by
      refine ⟨_, rfl, crlf_eq_self ?_, ?_, ?_⟩
      · split <;> simp [hfeed.symm]
      · split <;> exact List.cons_ne_nil _ _
      · split
        · rename_i htriple
          have htwo : rest.take 2 = [q.quote, q.quote] := by simpa [htriple] using hclosing
          exact ⟨rest.drop 2, congrArg (q.quote :: ·) (by rw [← htwo]; exact List.take_append_drop 2 rest)⟩
        · exact ⟨rest, rfl⟩
    rw [hmarks]
    simp only [Progress.crlf, crlfBack_isEmpty]
    split
    · have hclosed := @Rescan.closed (state.all ++ q.quote :: rest) state.all marks
        (rest.drop (marks.length - 1)) ((crlf rest).drop (marks.length - 1)) hne
        ((List.prefix_append_right_inj _).2 hfront)
      rwa [hplain, ← Progress.crlf_all] at hclosed
    · have hclosed := @Rescan.closed (state.all ++ q.quote :: rest) state.finished.reverse
        (state.piece.reverse ++ marks) (rest.drop (marks.length - 1))
        ((crlf rest).drop (marks.length - 1)) (by simp [hne])
        (by simpa [Progress.all] using hfront)
      rwa [crlf_append, hplain, ← reverse_crlfBack, ← reverse_crlfBack] at hclosed

end

/-- The scan of a text from a state, and that of the text with other line ends. -/
theorem scanFrom_crlf {q : Quotation} (hq : isQuote q.quote = true) (fuel : Nat) :
    ∀ (state : Progress) (text : List Char), text.length < fuel → '\r' ∉ text → ∀ fuel',
      (crlf text).length < fuel' →
        Rescan (state.all ++ text) (scanFrom q fuel state text)
          (scanFrom q fuel' state.crlf (crlf text)) := by
  induction fuel with
  | zero => exact fun state text h => absurd h (Nat.not_lt_zero _)
  | succ fuel ih =>
    intro state text hf hreturn fuel' hf'
    obtain ⟨fuel', rfl⟩ := Nat.exists_eq_succ_of_ne_zero (Nat.ne_zero_of_lt hf')
    cases text with
    | nil =>
      rw [scanFrom, crlf_nil, scanFrom]
      · rw [← Progress.all, ← Progress.all, Progress.crlf_all]
        exact .unclosed (List.prefix_append _ _)
      · nofun
      · nofun
    | cons c rest =>
      have hrest : '\r' ∉ rest := mt (List.mem_cons_of_mem c) hreturn
      have hfollows : Follows q fuel rest := by
        rintro next front more rfl fuel' hfuel'
        refine ih next more ?_ (fun hm => hrest (by simp [hm])) fuel' hfuel'
        simp at hf
        omega
      by_cases hc : c = '\n'
      · -- a line end is one step of the scan, or two; the first character of two can end no string
        subst hc
        simp only [crlf_feed, List.length_cons] at hf'
        obtain ⟨fuel', rfl⟩ := Nat.exists_eq_succ_of_ne_zero (show fuel' ≠ 0 by omega)
        rw [crlf_feed, scanFrom_return hq, scanFrom_feed hq, scanFrom_feed hq]
        by_cases htriple : q.triple = true
        · have hgo := hfollows ⟨state.finished, '\n' :: state.piece, true⟩ [] rest rfl fuel'
            (by omega)
          simpa [htriple, Progress.all, Progress.crlf] using hgo
        · simp only [htriple]
          exact .broken
      · rw [crlf_cons hc] at hf' ⊢
        have hbehind : (crlf rest).length < fuel' := Nat.lt_of_succ_lt_succ hf'
        by_cases hbrace : (q.format && (c = '\x7b' || c = '\x7d')) = true
        · simp only [Bool.and_eq_true, Bool.or_eq_true, decide_eq_true_eq] at hbrace
          exact scanFrom_brace_crlf hfollows hbehind hbrace.1 hbrace.2
        · rw [Bool.not_eq_true] at hbrace
          by_cases hslash : c = '\\'
          · exact scanFrom_backslash_crlf hq hfollows hbehind hbrace hslash hrest
          · by_cases hquote : c = q.quote
            · subst hquote
              exact scanFrom_quote_crlf hq hfollows hbehind hbrace hslash
            · unfold scanFrom
              simp only [hbrace, hslash, hquote, hc, decide_false, Bool.false_and,
                Bool.false_eq_true, if_false]
              split
              · rw [← Progress.all, ← Progress.all, Progress.crlf_all]
                exact .unclosed (List.prefix_append _ _)
              · have hgo := hfollows ⟨state.finished, c :: state.piece, true⟩ [] rest rfl fuel' hbehind
                simpa [Progress.all, Progress.crlf, crlfBack_cons hc] using hgo

/-- A run of content is the same but for the line ends, or a line end leaves the string open. -/
theorem scan_crlf {q : Quotation} (hq : isQuote q.quote = true) {text : List Char}
    (hreturn : '\r' ∉ text) : Rescan text (q.scan text) (q.scan (crlf text)) :=
  scanFrom_crlf hq (text.length + 1) ⟨[], [], false⟩ text (Nat.lt_succ_self _) hreturn
    ((crlf text).length + 1) (Nat.lt_succ_self _)

end Quotation

end Marksheet.Source
