import Marksheet.Proofs.Syntax.Literal
import Marksheet.Source.Lexer

/-!
# Printed texts are scanned to their closing quotes

The scanner steps over what is printed for one character, an escape or the character
itself, and no printed character closes the string.
-/

namespace Marksheet.Source

open Alphabet Syntax

/-- An open string in double quotes, without flags. -/
def plainQuotation : Quotation := ⟨'\"', false, false, false, false⟩

open Quotation in
/-- An escape is finished with the characters that belong to it. -/
theorem scanFrom_escape (taken : List Char) {rest : List Char}
    (h : escapeLength (taken ++ rest) = taken.length) (fuel : Nat) (state : Progress) :
    scanFrom plainQuotation (fuel + 1) state ('\\' :: (taken ++ rest)) =
      scanFrom plainQuotation fuel (state.finish ('\\' :: taken)) rest := by
  simp only [scanFrom, plainQuotation, Bool.false_and, Bool.false_eq_true, if_false, if_true, h,
    List.take_left, List.drop_left]

open Quotation in
theorem escapeLength_mark {mark : Char} (h : mark ∈ escapeMarks) (rest : List Char) :
    escapeLength (mark :: rest) = 1 := by
  simp only [escapeMarks, List.mem_cons, List.not_mem_nil, or_false] at h
  rcases h with rfl | rfl | rfl | rfl | rfl <;> rfl

open Quotation in
theorem escapeLength_code {high low : Char} (hh : isHexDigit high = true) (hl : isHexDigit low = true)
    (rest : List Char) : escapeLength ('x' :: high :: low :: rest) = 3 := by
  simp only [escapeLength, codeLength, countLeading, hh, hl, if_true]

open Quotation in
/-- The scanner steps over what is printed for a character, and what it has seen stays closed: it is
finished, or its last piece has a character of its own. -/
theorem scanFrom_printedChar (c : Char) (rest : List Char) (fuel : Nat) (state : Progress) :
    ∃ state' : Progress, (state'.solid = true ∨ state'.piece = []) ∧
      (state'.piece ++ state'.finished).reverse =
        (state.piece ++ state.finished).reverse ++ printedChar c ∧
      scanFrom plainQuotation (fuel + 1) state (printedChar c ++ rest) =
        scanFrom plainQuotation fuel state' rest := by
  have hfinish (taken : List Char) :
      ((state.finish taken).piece ++ (state.finish taken).finished).reverse =
        (state.piece ++ state.finished).reverse ++ taken := by
    simp only [Progress.finish, List.nil_append, List.reverse_append, List.reverse_reverse]
  rcases printedChar_cases c with ⟨mark, hm, -, hc⟩ | ⟨hsmall, hc⟩ | ⟨hquote, hslash, hprints, hc⟩
  · refine ⟨state.finish ['\\', mark], .inr rfl, ?_, ?_⟩
    · rw [hfinish, hc]
    · rw [hc]
      exact scanFrom_escape [mark] (escapeLength_mark hm rest) fuel state
  · have hhigh := isHexDigit_hexDigit (c.toNat / 16) (by omega)
    have hlow := isHexDigit_hexDigit (c.toNat % 16) (by omega)
    refine ⟨state.finish ['\\', 'x', Json.hexDigit (c.toNat / 16), Json.hexDigit (c.toNat % 16)],
      .inr rfl, ?_, ?_⟩
    · rw [hfinish, hc]
    · rw [hc]
      exact scanFrom_escape ['x', Json.hexDigit (c.toNat / 16), Json.hexDigit (c.toNat % 16)]
        (escapeLength_code hhigh hlow rest) fuel state
  · have hline : c ≠ '\n' := by
      rintro rfl
      exact absurd hprints (by decide)
    have hnull : c ≠ Char.ofNat 0 := by
      rintro rfl
      exact absurd hprints (by decide)
    refine ⟨{ state with piece := c :: state.piece, solid := true }, .inl rfl, ?_, ?_⟩
    · rw [hc, List.cons_append, List.reverse_cons]
    · rw [hc, List.singleton_append]
      simp only [scanFrom, plainQuotation, Bool.false_and, Bool.false_eq_true, if_false, hslash,
        hquote, hline, hnull, decide_false]

open Quotation in
/-- A printed text is scanned up to its closing quote. -/
theorem scanFrom_printedChars (chars rest : List Char) (fuel : Nat) (hf : chars.length < fuel)
    (state : Progress) (hs : state.solid = true ∨ state.piece = []) :
    scanFrom plainQuotation fuel state (chars.flatMap printedChar ++ '\"' :: rest) =
      ⟨(state.piece ++ state.finished).reverse ++ chars.flatMap printedChar, .closed ['\"'],
        rest⟩ := by
  induction chars generalizing fuel state with
  | nil =>
    obtain ⟨fuel, rfl⟩ := Nat.exists_eq_succ_of_ne_zero (Nat.pos_iff_ne_zero.mp hf)
    have hclosed : (state.solid || state.piece.isEmpty) = true := by
      rcases hs with hs | hs
      · rw [hs, Bool.true_or]
      · rw [hs, List.isEmpty_nil, Bool.or_true]
    rw [List.flatMap_nil, List.nil_append, List.append_nil]
    simp only [scanFrom, plainQuotation, Bool.false_and, Bool.false_eq_true, if_false, if_true,
      hclosed, Char.reduceEq]
    rfl
  | cons c chars ih =>
    obtain ⟨fuel, rfl⟩ := Nat.exists_eq_succ_of_ne_zero (Nat.ne_zero_of_lt hf)
    obtain ⟨state', hs', hall, hstep⟩ :=
      scanFrom_printedChar c (chars.flatMap printedChar ++ '\"' :: rest) fuel state
    rw [List.flatMap_cons, List.append_assoc, hstep,
      ih fuel (Nat.lt_of_succ_lt_succ hf) state' hs', hall, List.append_assoc]

/-- A printed text is the run of content at its place. -/
theorem scan_printedBody (value : String) (rest : List Char) :
    plainQuotation.scan (printedBody value ++ '\"' :: rest) =
      ⟨printedBody value, .closed ['\"'], rest⟩ := by
  have hlength (chars : List Char) : chars.length ≤ (chars.flatMap printedChar).length := by
    induction chars with
    | nil => exact Nat.le_refl 0
    | cons c chars ih =>
      have hc : 0 < (printedChar c).length := by
        rcases printedChar_cases c with ⟨mark, -, -, hc⟩ | ⟨-, hc⟩ | ⟨-, -, -, hc⟩
        all_goals rw [hc]; exact Nat.succ_pos _
      rw [List.flatMap_cons, List.length_append, List.length_cons]
      omega
  have hvalue := hlength value.toList
  refine scanFrom_printedChars value.toList rest _ ?_ ⟨[], [], false⟩ (.inr rfl)
  rw [List.length_append, printedBody]
  omega

end Marksheet.Source
