import Mathlib
import Marksheet.Proofs.Source.Mark

/-!
# Line ends of two characters

`crlf` writes a carriage return before every line feed of a text. No lexical
rule tells the two kinds of line ends apart: a gap has one piece more for each
line end, a number, a word and a sign are cut as before (`takeGap_crlf`,
`takeNumber_crlf`, `takeSymbol_crlf`), and no place changes.
-/

namespace Marksheet.Source

open Alphabet

/-! ### The text -/

/-- A character, or a line feed with a carriage return before it. -/
def crlfChar (c : Char) : List Char := if c = '\n' then ['\r', '\n'] else [c]

/-- A text with a carriage return before every line feed. -/
def crlf (text : List Char) : List Char := text.flatMap crlfChar

/-- A string with a carriage return before every line feed. -/
def crlfText (text : String) : String := String.ofList (crlf text.toList)

@[simp] theorem crlf_nil : crlf [] = [] := rfl

@[simp] theorem crlf_feed (text : List Char) :
    crlf ('\n' :: text) = '\r' :: '\n' :: crlf text := rfl

theorem crlf_cons {c : Char} (h : c ≠ '\n') (text : List Char) :
    crlf (c :: text) = c :: crlf text := by
  simp [crlf, crlfChar, h]

theorem crlf_append (text more : List Char) :
    crlf (text ++ more) = crlf text ++ crlf more := List.flatMap_append

/-- Without line feeds nothing changes. -/
theorem crlf_eq_self {text : List Char} (h : '\n' ∉ text) : crlf text = text := by
  induction text with
  | nil => rfl
  | cons c rest ih =>
    obtain ⟨hc, hrest⟩ := not_or.1 (mt List.mem_cons.2 h)
    rw [crlf_cons (Ne.symm hc), ih hrest]

@[simp] theorem crlfText_empty : crlfText "" = "" := rfl

theorem crlfText_append (text more : String) :
    crlfText (text ++ more) = crlfText text ++ crlfText more := by
  simp only [crlfText, String.toList_append, crlf_append, String.ofList_append]

theorem crlfText_eq_self {text : String} (h : '\n' ∉ text.toList) : crlfText text = text := by
  rw [crlfText, crlf_eq_self h, String.ofList_toList]

/-- A text of one line is the same text with other line ends only if it is it already. -/
theorem crlfText_eq_iff {text line : String} (h : '\n' ∉ line.toList) :
    crlfText text = line ↔ text = line := by
  by_cases ht : '\n' ∈ text.toList
  · have hcrlf : '\n' ∈ (crlfText text).toList := by
      rw [crlfText, String.toList_ofList]
      exact List.mem_flatMap.2 ⟨'\n', ht, by simp [crlfChar]⟩
    constructor <;> rintro rfl
    · exact absurd hcrlf h
    · exact absurd ht h
  · rw [crlfText_eq_self ht]

/-- The first character is the one it was, or a carriage return in the place of a line feed. -/
theorem head_crlf (text : List Char) :
    (crlf text).head? = text.head?.map fun c => if c = '\n' then '\r' else c := by
  cases text with
  | nil => rfl
  | cons c rest =>
    by_cases hc : c = '\n'
    · simp [hc]
    · simp [crlf_cons hc, hc]

/-- No line feed is the first character. -/
theorem feed_not_head_crlf (text : List Char) : (crlf text).head? ≠ some '\n' := by
  rw [head_crlf]
  cases text.head? with
  | none => nofun
  | some c =>
    intro h
    have hc : (if c = '\n' then '\r' else c) = '\n' := Option.some.inj h
    split at hc
    · exact absurd hc (by decide)
    · contradiction

/-- A carriage return at the head is that of a line end. -/
theorem exists_feed_of_head {text : List Char} (h : '\r' ∉ text)
    (hhead : (crlf text).head? = some '\r') : ∃ rest, text = '\n' :: rest := by
  cases text with
  | nil => cases hhead
  | cons c rest =>
    by_cases hc : c = '\n'
    · exact ⟨rest, by rw [hc]⟩
    · rw [crlf_cons hc] at hhead
      exact absurd (Option.some.inj hhead ▸ List.mem_cons_self) h

/-- No other character at the head is new. -/
theorem exists_of_crlf_eq_cons {text more : List Char} {c : Char} (h : crlf text = c :: more)
    (hc : c ≠ '\r') : ∃ rest, text = c :: rest ∧ crlf rest = more := by
  cases text with
  | nil => cases h
  | cons d rest =>
    by_cases hd : d = '\n'
    · rw [hd, crlf_feed] at h
      exact absurd (List.cons.inj h).1.symm hc
    · rw [crlf_cons hd] at h
      obtain ⟨rfl, hmore⟩ := List.cons.inj h
      exact ⟨rest, rfl, hmore⟩

theorem crlf_ne_nil {text : List Char} (h : text ≠ []) : crlf text ≠ [] := by
  obtain ⟨c, rest, rfl⟩ := List.exists_cons_of_ne_nil h
  by_cases hc : c = '\n'
  · simp [hc]
  · simp [crlf_cons hc]

theorem length_le_crlf (text : List Char) : text.length ≤ (crlf text).length := by
  induction text with
  | nil => exact Nat.le_refl _
  | cons c rest ih =>
    by_cases hc : c = '\n'
    · simp only [hc, crlf_feed, List.length_cons]
      omega
    · simp only [crlf_cons hc, List.length_cons]
      omega

/-- A test that neither character of a line end passes takes as much as before. -/
theorem takeWhile_crlf {test : Char → Bool} (hfeed : test '\n' = false)
    (hreturn : test '\r' = false) (text : List Char) :
    (crlf text).takeWhile test = text.takeWhile test := by
  induction text with
  | nil => rfl
  | cons c rest ih =>
    by_cases hc : c = '\n'
    · simp [hc, hfeed, hreturn]
    · rw [crlf_cons hc, List.takeWhile_cons, List.takeWhile_cons, ih]

/-- A test that both characters of a line end pass takes line ends whole. -/
theorem takeWhile_crlf_of_pos {p : Char → Bool} (hfeed : p '\n' = true)
    (hreturn : p '\r' = true) (text : List Char) :
    (crlf text).takeWhile p = crlf (text.takeWhile p) := by
  induction text with
  | nil => rfl
  | cons c rest ih =>
    by_cases hc : c = '\n'
    · simp [hc, hfeed, hreturn, ih]
    · rw [crlf_cons hc, List.takeWhile_cons, List.takeWhile_cons]
      split
      · rw [crlf_cons hc, ih]
      · rfl

/-- There is no line feed among the first characters. -/
def Clear (count : Nat) (text : List Char) : Prop := '\n' ∉ text.take count

theorem clear_zero (text : List Char) : Clear 0 text := by simp [Clear]

theorem clear_succ {c : Char} (hc : c ≠ '\n') {count : Nat} {text : List Char}
    (h : Clear count text) : Clear (count + 1) (c :: text) := by
  rw [Clear, List.take_succ_cons, List.mem_cons, not_or]
  exact ⟨Ne.symm hc, h⟩

theorem Clear.add {first second : Nat} {text : List Char} (hf : Clear first text)
    (hs : Clear second (text.drop first)) : Clear (first + second) text := by
  rw [Clear, List.take_add, List.mem_append, not_or]
  exact ⟨hf, hs⟩

theorem Clear.mono {count more : Nat} {text : List Char} (h : Clear more text)
    (hle : count ≤ more) : Clear count text := fun hm =>
  h ((List.take_prefix_take_left hle).subset hm)

/-- What stands behind characters without line feeds. -/
theorem Clear.drop_crlf {count : Nat} {text : List Char} (h : Clear count text) :
    (crlf text).drop count = crlf (text.drop count) := by
  induction count generalizing text with
  | zero => rfl
  | succ count ih =>
    cases text with
    | nil => rfl
    | cons c rest =>
      obtain ⟨hc, hrest⟩ := not_or.1 (mt List.mem_cons.2 h)
      rw [crlf_cons (Ne.symm hc), List.drop_succ_cons, List.drop_succ_cons, ih hrest]

theorem Clear.take_crlf {count : Nat} {text : List Char} (h : Clear count text) :
    (crlf text).take count = text.take count := by
  induction count generalizing text with
  | zero => rfl
  | succ count ih =>
    cases text with
    | nil => rfl
    | cons c rest =>
      obtain ⟨hc, hrest⟩ := not_or.1 (mt List.mem_cons.2 h)
      rw [crlf_cons (Ne.symm hc), List.take_succ_cons, List.take_succ_cons, ih hrest]

/-- No place changes behind line ends of two characters. -/
theorem advance_crlf (here : Position) (text : List Char) :
    here.advance (crlf text) = here.advance text := by
  induction text generalizing here with
  | nil => rfl
  | cons c rest ih =>
    by_cases hc : c = '\n'
    · subst hc
      rw [crlf_feed, Position.advance_cons, Position.advance_cons, Position.advance_cons, ih]
      rfl
    · rw [crlf_cons hc, Position.advance_cons, Position.advance_cons, ih]

/-! ### Gaps -/

/-- A piece of a gap with a carriage return before every line feed. -/
def Trivia.crlf : Trivia → List Trivia
  | .newline => [.home '\r', .newline]
  | .home c => (crlfChar c).map .home
  | .invisible c => (crlfChar c).map .invisible
  | .continuation text start => [.continuation (crlfText text) start]
  | .comment text => [.comment (crlfText text)]
  | .space => [.space]
  | .tab => [.tab]

/-- A gap with a carriage return before every line feed. -/
def crlfGap (gap : List Trivia) : List Trivia := gap.flatMap Trivia.crlf

@[simp] theorem crlfGap_nil : crlfGap [] = [] := rfl

@[simp] theorem crlfGap_cons (piece : Trivia) (gap : List Trivia) :
    crlfGap (piece :: gap) = piece.crlf ++ crlfGap gap := rfl

/-- One piece of a gap, and the gap behind it. -/
theorem takeGap_crlf_fills {c : Char} {piece : Trivia} (h : Fills c piece) (hc : c ≠ '\r')
    {here : Position} {text : List Char}
    (ih : takeGap none (here.step c) (crlf text) =
      (crlfGap (takeGap none (here.step c) text).1, (takeGap none (here.step c) text).2.1,
        crlf (takeGap none (here.step c) text).2.2)) :
    takeGap none here (crlf (c :: text)) =
      (crlfGap (piece :: (takeGap none (here.step c) text).1),
        (takeGap none (here.step c) text).2.1, crlf (takeGap none (here.step c) text).2.2) := by
  by_cases hfeed : c = '\n'
  · subst hfeed
    have hreturn : (here.step '\r').step '\n' = here.step '\n' := rfl
    obtain rfl : piece = .newline := by
      cases h with
      | newline => rfl
      | home h => exact absurd h (by decide)
      | invisible h => exact absurd h (by decide)
    rw [crlf_feed, takeGap_fills (.home (by decide)), takeGap_fills .newline, hreturn, ih]
    rfl
  · rw [crlf_cons hfeed, takeGap_fills h, ih]
    cases h with
    | newline => exact absurd rfl hfeed
    | home h => simp [Trivia.crlf, crlfChar, hfeed]
    | invisible h => simp [Trivia.crlf, crlfChar, hfeed]
    | _ => rfl

/-- The gap of a text with other line ends, in a comment or not. -/
theorem takeGap_crlf (comment : Option (List Char)) (here : Position) (text : List Char)
    (hcomment : ∀ found ∈ comment, '\n' ∉ found) (htext : '\r' ∉ text) :
    takeGap comment here (crlf text) =
      (crlfGap (takeGap comment here text).1, (takeGap comment here text).2.1,
        crlf (takeGap comment here text).2.2) := by
  have hsame {found : List Char} (h : '\n' ∉ found) :
      crlfText (String.ofList found.reverse) = String.ofList found.reverse := by
    rw [crlfText, String.toList_ofList, crlf_eq_self (by simpa using h)]
  have hnone : ∀ found ∈ (none : Option (List Char)), '\n' ∉ found := by simp
  fun_induction takeGap comment here text with
  | case1 found here =>
    simp [takeGap, Trivia.crlf, hsame (hcomment found rfl)]
  | case2 found here rest gap stop more htaken ih =>
    have hreturn : (here.step '\r').step '\n' = here.step '\n' := rfl
    have hrest := ih hnone (mt (List.mem_cons_of_mem _) htext)
    rw [htaken] at hrest
    rw [crlf_feed, takeGap]
    simp [takeGap_fills .newline, hreturn, hrest, Trivia.crlf, hsame (hcomment found rfl)]
  | case3 found here c rest hfeed hreturn =>
    simp only [Bool.and_eq_true, decide_eq_true_eq] at hreturn
    exact absurd (hreturn.1 ▸ List.mem_cons_self) htext
  | case4 found here c rest hfeed hreturn ih =>
    have hc : c ≠ '\r' := fun he => htext (he ▸ List.mem_cons_self)
    rw [crlf_cons hfeed, takeGap]
    simp only [hfeed, hc, decide_false, Bool.false_and, Bool.false_eq_true, if_false]
    refine ih ?_ (mt (List.mem_cons_of_mem _) htext)
    rintro _ ⟨⟩ hm
    rcases List.mem_cons.1 hm with he | hm
    · exact hfeed he.symm
    · exact hcomment found rfl hm
  | case5 here => rfl
  | case6 here rest gap stop more htaken ih =>
    have hreturn : ((here.step '\\').step '\r').step '\n' = (here.step '\\').step '\n' := rfl
    have hrest := ih hnone (mt (fun hm => List.mem_cons_of_mem _ (List.mem_cons_of_mem _ hm)) htext)
    rw [htaken] at hrest
    rw [crlf_cons (by decide), crlf_feed, takeGap, hreturn, hrest]
    rfl
  | case7 here rest =>
    exact absurd (List.mem_cons_of_mem _ List.mem_cons_self) htext
  | case8 here => rfl
  | case9 here rest _ _ _ _ ih =>
    exact takeGap_crlf_fills .space (by decide) (ih hnone (mt (List.mem_cons_of_mem _) htext))
  | case10 here rest _ _ _ _ _ ih =>
    exact takeGap_crlf_fills .tab (by decide) (ih hnone (mt (List.mem_cons_of_mem _) htext))
  | case11 here rest _ _ _ _ _ _ ih =>
    exact takeGap_crlf_fills .newline (by decide) (ih hnone (mt (List.mem_cons_of_mem _) htext))
  | case12 here c rest _ _ _ _ _ _ _ hhome ih =>
    have hc : c ≠ '\r' := fun he => htext (he ▸ List.mem_cons_self)
    exact takeGap_crlf_fills (.home hhome) hc (ih hnone (mt (List.mem_cons_of_mem _) htext))
  | case13 here c rest _ _ _ _ _ _ _ _ hinvisible ih =>
    have hc : c ≠ '\r' := fun he => htext (he ▸ List.mem_cons_self)
    exact takeGap_crlf_fills (.invisible hinvisible) hc
      (ih hnone (mt (List.mem_cons_of_mem _) htext))
  | case14 here rest _ _ _ _ _ _ _ _ _ ih =>
    rw [crlf_cons (by decide), takeGap_hash]
    exact ih (by simp) (mt (List.mem_cons_of_mem _) htext)
  | case15 here c rest hline hreturn hend hspace htab hfeed hhome hinvisible hhash =>
    -- a backslash stops the gap, unless a line end or the end of the text is behind it
    rw [crlf_cons hfeed, takeGap]
    · simp [hspace, htab, hfeed, hhome, hinvisible, hhash]
    · intro more _ hmore
      exact feed_not_head_crlf rest (by rw [hmore]; rfl)
    · intro more hc hmore
      obtain ⟨behind, rfl⟩ := exists_feed_of_head (mt (List.mem_cons_of_mem _) htext)
        (congrArg List.head? hmore)
      exact hline behind hc rfl
    · intro hc hnil
      exact crlf_ne_nil (hend hc) hnil

/-! ### Numbers -/

/-- The first character passes the same tests as before, if they do not tell the two characters of
a line end apart. -/
theorem exists_crlf_cons (c : Char) (text : List Char) :
    ∃ d more, crlf (c :: text) = d :: more ∧
      ∀ test : Char → Bool, test '\r' = test '\n' → test d = test c := by
  by_cases hc : c = '\n'
  · subst hc
    exact ⟨'\r', '\n' :: crlf text, rfl, fun test h => h⟩
  · exact ⟨c, crlf text, crlf_cons hc text, fun test _ => rfl⟩

/-- The two characters of a line end pass a test, or neither does. -/
theorem test_head_crlf {test : Char → Bool} (h : test '\r' = test '\n') (text : List Char) :
    (crlf text).head?.map test = text.head?.map test := by
  cases text with
  | nil => rfl
  | cons c rest =>
    obtain ⟨d, more, hmore, hlike⟩ := exists_crlf_cons c rest
    rw [hmore, List.head?_cons, List.head?_cons, Option.map_some, Option.map_some, hlike test h]

theorem ne_feed_of_test {p : Char → Bool} (h : p '\n' = false) {c : Char} (hc : p c = true) :
    c ≠ '\n' := by
  rintro rfl
  rw [h] at hc
  cases hc

theorem decimalLength_crlf (text : List Char) : decimalLength (crlf text) = decimalLength text := by
  have hnone {c : Char} {rest : List Char} (hc : ¬ isDigit c = true) :
      decimalLength (crlf (c :: rest)) = 0 := by
    obtain ⟨d, more, hmore, hlike⟩ := exists_crlf_cons c rest
    refine decimalLength_of_not_digit fun e he => ?_
    rw [hmore] at he
    rw [← Option.some.inj he, hlike isDigit rfl]
    simpa using hc
  fun_induction decimalLength text with
  | case1 => rfl
  | case2 c hc =>
    simp [crlf_cons (ne_feed_of_test (p := isDigit) rfl hc), decimalLength, hc]
  | case3 c hc => exact hnone hc
  | case4 c rest hc ih =>
    simp [crlf_cons (ne_feed_of_test (p := isDigit) rfl hc), crlf_cons, decimalLength, hc, ih]
  | case5 c d rest hc hd ih =>
    obtain ⟨e, more, hmore, hlike⟩ := exists_crlf_cons d rest
    have he : e ≠ '_' := by simpa [hd] using hlike (fun c => decide (c = '_')) rfl
    rw [crlf_cons (ne_feed_of_test (p := isDigit) rfl hc), ← ih, hmore]
    simp [decimalLength, hc, he]
  | case6 c d rest hc => exact hnone hc

theorem radixLength_crlf {digit : Char → Bool} (hfeed : digit '\n' = false)
    (hreturn : digit '\r' = false) (text : List Char) :
    radixLength digit (crlf text) = radixLength digit text := by
  have hsame : digit '\r' = digit '\n' := hreturn.trans hfeed.symm
  fun_induction radixLength digit text with
  | case1 => rfl
  | case2 c hc => simp [crlf_cons (ne_feed_of_test hfeed hc), radixLength, hc]
  | case3 c hc =>
    by_cases hline : c = '\n'
    · simp [hline, radixLength, hfeed, hreturn]
    · simp [crlf_cons hline, radixLength, hc]
  | case4 c d rest hc ih =>
    obtain ⟨e, more, hmore, -⟩ := exists_crlf_cons d rest
    rw [crlf_cons (ne_feed_of_test hfeed hc), ← ih, hmore]
    simp [radixLength, hc]
  | case5 c d rest hc hbar ih =>
    simp only [Bool.and_eq_true, decide_eq_true_eq] at hbar
    obtain ⟨rfl, hd⟩ := hbar
    simp [crlf_cons, crlf_cons (ne_feed_of_test hfeed hd), radixLength, hc, hd, ih]
  | case6 c d rest hc hbar =>
    by_cases hline : c = '\n'
    · simp [hline, radixLength, hfeed, hreturn]
    · obtain ⟨e, more, hmore, hlike⟩ := exists_crlf_cons d rest
      rw [crlf_cons hline, hmore]
      simp only [radixLength, hc, hlike digit hsame]
      simp [hbar]

theorem startsWith_crlf (lower upper : Char) (hlower : lower ≠ '\n' ∧ lower ≠ '\r')
    (hupper : upper ≠ '\n' ∧ upper ≠ '\r') (text : List Char) :
    startsWith lower upper (crlf text) = startsWith lower upper text := by
  cases text with
  | nil => rfl
  | cons c rest =>
    obtain ⟨d, more, hmore, hlike⟩ := exists_crlf_cons c rest
    have hd := hlike (fun c => decide (c = lower) || decide (c = upper)) (by
      simp [hlower.1.symm, hlower.2.symm, hupper.1.symm, hupper.2.symm])
    simpa [startsWith, hmore] using hd

theorem exponentLength_crlf (text : List Char) :
    exponentLength (crlf text) = exponentLength text := by
  cases text with
  | nil => rfl
  | cons mark rest =>
    obtain ⟨d, more, hmore, hlike⟩ := exists_crlf_cons mark rest
    by_cases hmark : (mark = 'e' || mark = 'E') = true
    · rw [crlf_cons (ne_feed_of_test (p := fun c => c = 'e' || c = 'E') rfl hmark)]
      cases rest with
      | nil => rfl
      | cons sign behind =>
        obtain ⟨e, others, hothers, hsign⟩ := exists_crlf_cons sign behind
        have he := hsign (fun c => c = '+' || c = '-') rfl
        by_cases hs : (sign = '+' || sign = '-') = true
        · rw [crlf_cons (ne_feed_of_test (p := fun c => c = '+' || c = '-') rfl hs)]
          simp only [exponentLength, hmark, hs, if_true, decimalLength_crlf]
        · have hdigits := decimalLength_crlf (sign :: behind)
          rw [hothers] at hdigits ⊢
          simp only [exponentLength, hmark, if_true, he, hs, hdigits, Bool.false_eq_true, if_false]
    · have hd := hlike (fun c => c = 'e' || c = 'E') rfl
      rw [hmore]
      simp only [exponentLength, hd, hmark, Bool.false_eq_true, if_false]

theorem clear_decimalLength (text : List Char) : Clear (decimalLength text) text := by
  fun_induction decimalLength text with
  | case2 c hc => exact clear_succ (ne_feed_of_test (p := isDigit) rfl hc) (clear_zero _)
  | case4 c rest hc ih =>
    exact clear_succ (ne_feed_of_test (p := isDigit) rfl hc) (clear_succ (by decide) ih)
  | case5 c d rest hc hd ih => exact clear_succ (ne_feed_of_test (p := isDigit) rfl hc) ih
  | _ => exact clear_zero _

theorem clear_radixLength {digit : Char → Bool} (hfeed : digit '\n' = false) (text : List Char) :
    Clear (radixLength digit text) text := by
  fun_induction radixLength digit text with
  | case2 c hc => exact clear_succ (ne_feed_of_test hfeed hc) (clear_zero _)
  | case4 c d rest hc ih => exact clear_succ (ne_feed_of_test hfeed hc) ih
  | case5 c d rest hc hbar ih =>
    simp only [Bool.and_eq_true, decide_eq_true_eq] at hbar
    exact clear_succ (by rw [hbar.1]; decide) (clear_succ (ne_feed_of_test hfeed hbar.2) ih)
  | _ => exact clear_zero _

theorem clear_exponentLength (text : List Char) : Clear (exponentLength text) text := by
  fun_cases exponentLength text with
  | case2 mark hmark sign more hs digits hdigits =>
    have hmark := ne_feed_of_test (p := fun c => c = 'e' || c = 'E') rfl hmark
    have hs := ne_feed_of_test (p := fun c => c = '+' || c = '-') rfl hs
    exact clear_succ hmark (clear_succ hs (clear_decimalLength more))
  | case3 mark hmark sign more hs digits hdigits =>
    rw [if_pos hdigits]
    exact clear_zero _
  | case4 mark hmark sign more hs digits hdigits =>
    have hmark := ne_feed_of_test (p := fun c => c = 'e' || c = 'E') rfl hmark
    rw [if_neg hdigits]
    exact clear_succ hmark (clear_decimalLength _)
  | _ => exact clear_zero _

theorem withLetter_crlf {lower upper : Char} (hlower : lower ≠ '\n' ∧ lower ≠ '\r')
    (hupper : upper ≠ '\n' ∧ upper ≠ '\r') {text : List Char} {length : Nat}
    (h : Clear length text) :
    withLetter lower upper (crlf text) length = withLetter lower upper text length := by
  rw [withLetter, withLetter, h.drop_crlf, startsWith_crlf lower upper hlower hupper]

theorem clear_of_startsWith {lower upper : Char} (hlower : lower ≠ '\n') (hupper : upper ≠ '\n')
    {text : List Char} (h : startsWith lower upper text = true) : Clear 1 text := by
  cases text with
  | nil => simp [Clear]
  | cons c rest =>
    refine clear_succ ?_ (clear_zero _)
    rintro rfl
    simp [startsWith, hlower.symm, hupper.symm] at h

theorem Clear.withLetter {lower upper : Char} (hlower : lower ≠ '\n') (hupper : upper ≠ '\n')
    {text : List Char} {length : Nat} (h : Clear length text) :
    Clear (withLetter lower upper text length) text := by
  unfold Source.withLetter
  split
  · rename_i hstarts
    exact h.add (clear_of_startsWith hlower hupper hstarts)
  · exact h

theorem markedDigits_crlf (mark : Char) (text : List Char) :
    markedDigits mark (crlf text) = markedDigits mark text := by
  unfold markedDigits
  rw [radixLength_crlf rfl rfl, radixLength_crlf rfl rfl, radixLength_crlf rfl rfl]

theorem clear_markedDigits (mark : Char) (text : List Char) :
    Clear (markedDigits mark text) text := by
  unfold markedDigits
  split
  · exact clear_radixLength rfl text
  · split
    · exact clear_radixLength rfl text
    · split
      · exact clear_radixLength rfl text
      · exact clear_zero text

theorem radixNumber?_crlf (text : List Char) : radixNumber? (crlf text) = radixNumber? text := by
  match text with
  | [] => rfl
  | c :: rest =>
    by_cases hc : c = '0'
    · subst hc
      rw [crlf_cons (by decide)]
      cases rest with
      | nil => rfl
      | cons mark rest =>
        by_cases hmark : mark = '\n'
        · subst hmark
          rfl
        · rw [crlf_cons hmark, radixNumber?, radixNumber?, markedDigits_crlf]
    · obtain ⟨d, more, hmore, hlike⟩ := exists_crlf_cons c rest
      have hd : d ≠ '0' := by simpa [hc] using hlike (fun c => decide (c = '0')) rfl
      rw [hmore]
      simp [radixNumber?, hc, hd]

theorem clear_radixNumber? {text : List Char} {length : Nat} (h : radixNumber? text = some length) :
    Clear length text := by
  unfold radixNumber? at h
  split at h
  · rename_i mark rest
    split at h
    · cases h
    · rename_i hdigits
      obtain rfl := Option.some.inj h
      refine clear_succ (by decide) (clear_succ ?_ (clear_markedDigits mark rest))
      rintro rfl
      exact hdigits rfl
  · cases h

/-- There is no line feed in the digits before a point, the point and the digits behind it. -/
theorem clear_fraction {text : List Char}
    (h : (text.drop (decimalLength text)).head? = some '.') :
    Clear (decimalLength text + 1) text ∧
      Clear (decimalLength text + 1 + decimalLength (text.drop (decimalLength text + 1))) text := by
  have hpoint : Clear (decimalLength text + 1) text :=
    (clear_decimalLength text).add (by rw [Clear, List.take_one, h]; decide)
  exact ⟨hpoint, hpoint.add (clear_decimalLength _)⟩

theorem decimalNumber?_crlf (text : List Char) :
    decimalNumber? (crlf text) = decimalNumber? text := by
  have hj : 'j' ≠ '\n' ∧ 'j' ≠ '\r' := by decide
  have hupper : 'J' ≠ '\n' ∧ 'J' ≠ '\r' := by decide
  have hwhole := clear_decimalLength text
  have hpoint : (crlf (text.drop (decimalLength text))).head? = some '.' ↔
      (text.drop (decimalLength text)).head? = some '.' := by
    simpa [startsWith] using startsWith_crlf '.' '.' (by decide) (by decide)
      (text.drop (decimalLength text))
  simp only [decimalNumber?, decimalLength_crlf, hwhole.drop_crlf, hpoint, exponentLength_crlf,
    startsWith_crlf 'l' 'L' (by decide) (by decide)]
  split
  · rename_i h
    obtain ⟨hdot, hfraction⟩ := clear_fraction h
    have hbehind : (crlf (text.drop (decimalLength text))).drop 1 =
        crlf (text.drop (decimalLength text + 1)) := by
      rw [← hwhole.drop_crlf, List.drop_drop, hdot.drop_crlf]
    rw [hbehind, decimalLength_crlf, List.drop_drop, hfraction.drop_crlf, exponentLength_crlf,
      withLetter_crlf hj hupper (hfraction.add (clear_exponentLength _))]
  · rw [withLetter_crlf hj hupper hwhole,
      withLetter_crlf hj hupper (hwhole.add (clear_exponentLength _))]

theorem clear_decimalNumber? {text : List Char} {found : Nat × Lexeme}
    (h : decimalNumber? text = some found) : Clear found.1 text := by
  have hwhole := clear_decimalLength text
  simp only [decimalNumber?] at h
  split at h
  · rename_i hpoint
    obtain ⟨-, hfraction⟩ := clear_fraction hpoint
    rw [List.drop_drop] at h
    split at h
    · cases h
    · obtain rfl := Option.some.inj h
      exact (hfraction.add (clear_exponentLength _)).withLetter (by decide) (by decide)
  · split at h
    · cases h
    · split at h
      · obtain rfl := Option.some.inj h
        dsimp only
        split
        · rename_i hletter
          exact hwhole.add (clear_of_startsWith (by decide) (by decide) hletter)
        · exact hwhole.withLetter (by decide) (by decide)
      · obtain rfl := Option.some.inj h
        exact (hwhole.add (clear_exponentLength _)).withLetter (by decide) (by decide)

/-- Numbers are cut as before. -/
theorem takeNumber_crlf (text : List Char) : takeNumber (crlf text) = takeNumber text := by
  rw [takeNumber, takeNumber, radixNumber?_crlf, decimalNumber?_crlf]
  cases hradix : radixNumber? text with
  | none => rfl
  | some length =>
    dsimp only
    rw [withLetter_crlf (by decide) (by decide) (clear_radixNumber? hradix)]

theorem clear_takeNumber {text : List Char} {found : Nat × Lexeme}
    (h : takeNumber text = some found) : Clear found.1 text := by
  unfold takeNumber at h
  split at h
  · rename_i hradix
    obtain rfl := Option.some.inj h
    exact (clear_radixNumber? hradix).withLetter (by decide) (by decide)
  · exact clear_decimalNumber? h

/-! ### Signs -/

/-- A head of one character is not new. -/
theorem crlf_ne_cons {text : List Char} {c : Char} (hc : c ≠ '\r')
    (h : ∀ rest, text = c :: rest → False) : ∀ more, crlf text = c :: more → False := by
  intro more hm
  obtain ⟨rest, he, -⟩ := exists_of_crlf_eq_cons hm hc
  exact h rest he

/-- A head of two characters is not new. -/
theorem crlf_ne_cons_cons {text : List Char} {c d : Char} (hc : c ≠ '\r') (hd : d ≠ '\r')
    (h : ∀ rest, text = c :: d :: rest → False) : ∀ more, crlf text = c :: d :: more → False := by
  intro more hm
  obtain ⟨rest, rfl, hrest⟩ := exists_of_crlf_eq_cons hm hc
  exact crlf_ne_cons hd (fun rest he => h rest (congrArg (c :: ·) he)) more hrest

/-- A head of three characters is not new. -/
theorem crlf_ne_cons_cons_cons {text : List Char} {c d e : Char} (hc : c ≠ '\r') (hd : d ≠ '\r')
    (he : e ≠ '\r') (h : ∀ rest, text = c :: d :: e :: rest → False) :
    ∀ more, crlf text = c :: d :: e :: more → False := by
  intro more hm
  obtain ⟨rest, rfl, hrest⟩ := exists_of_crlf_eq_cons hm hc
  exact crlf_ne_cons_cons hd he (fun rest he => h rest (congrArg (c :: ·) he)) more hrest

/-- Signs are cut as before. -/
theorem takeSymbol_crlf (text : List Char) : takeSymbol (crlf text) = takeSymbol text := by
  fun_cases takeSymbol text
  all_goals
    first
    | rfl
    | try simp only [crlf_cons, ne_eq, Char.reduceEq, not_false_eq_true]
      rw [takeSymbol]
      -- No longer sign begins with these characters: none did in the text.
      all_goals
        first
        | exact crlf_ne_cons (by decide) (by assumption)
        | exact crlf_ne_cons_cons (by decide) (by decide) (by assumption)
        | exact crlf_ne_cons_cons_cons (by decide) (by decide) (by decide) (by assumption)

theorem feed_not_mem_symbol (symbol : Symbol) : '\n' ∉ symbol.text.toList := by
  cases symbol with
  | op op => cases op <;> decide
  | augmented op => cases op <;> decide
  | _ => decide

/-- A sign that is taken stands at the head of the text. -/
theorem exists_of_takeSymbol {text : List Char} {symbol : Symbol}
    (h : takeSymbol text = some symbol) : ∃ rest, text = symbol.text.toList ++ rest := by
  unfold takeSymbol at h
  split at h
  all_goals
    cases h
    try exact ⟨_, rfl⟩

end Marksheet.Source
