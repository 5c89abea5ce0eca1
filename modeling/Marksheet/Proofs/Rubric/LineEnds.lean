import Marksheet.Proofs.Source.Crlf
import Marksheet.Proofs.Text.Lines
import Marksheet.Rubric.Static

/-!
# The checks on the text do not look at line ends

A text and the same text with line ends of two characters have the same lines
(`lines_crlf`), and a documentation block stands in both or in neither: blanks
and the content of a block may be line ends of either kind, and no quote is a
line end. So the checks on the header, the length of lines and the comments
give the same for both.
-/

namespace Marksheet.Rubric

open Source Text

/-! ### Lines -/

/-- A text has the same lines with other line ends. -/
theorem lined_crlf {text : List Char} {others : List (List Char)} (h : Lined text others)
    (hreturn : '\r' ∉ text) : Lined (crlf text) others := by
  induction h with
  | empty => exact .empty
  | last hne hfeed =>
    rw [crlf_eq_self hfeed]
    exact .last hne hfeed
  | @feed line rest others hfeed _ _ ih =>
    have hrest : '\r' ∉ rest := fun hm =>
      hreturn (List.mem_append_right _ (List.mem_cons_of_mem _ hm))
    rw [crlf_append, crlf_feed, crlf_eq_self hfeed]
    exact .returnFeed hfeed (ih hrest)
  | @returnFeed line rest others hfeed _ _ =>
    exact absurd (List.mem_append_right line List.mem_cons_self) hreturn

/-- The lines are the same whatever the line ends are. -/
theorem lines_crlf {text : List Char} (h : '\r' ∉ text) : lines (crlf text) = lines text :=
  (lined_crlf (lined_iff.2 rfl) h).lines_eq

/-! ### Documentation blocks -/

theorem dropBlank_crlf (text : List Char) : dropBlank (crlf text) = crlf (dropBlank text) := by
  induction text with
  | nil => rfl
  | cons c rest ih =>
    unfold dropBlank at ih ⊢
    by_cases hc : c = '\n'
    · have hfeed : isBlank '\n' = true := by decide
      have hreturn : isBlank '\r' = true := by decide
      rw [hc, crlf_feed, List.dropWhile_cons_of_pos hreturn, List.dropWhile_cons_of_pos hfeed,
        List.dropWhile_cons_of_pos hfeed, ih]
    · rw [crlf_cons hc, List.dropWhile_cons, List.dropWhile_cons]
      split
      · exact ih
      · rw [crlf_cons hc]

section

variable {needle : List Char} (hfeed : '\n' ∉ needle) (hreturn : '\r' ∉ needle)

include hfeed hreturn

theorem isPrefixOf_crlf (text : List Char) :
    needle.isPrefixOf (crlf text) = needle.isPrefixOf text := by
  induction needle generalizing text with
  | nil => simp
  | cons q needle ih =>
    obtain ⟨hqf, hf⟩ := not_or.1 (mt List.mem_cons.2 hfeed)
    obtain ⟨hqr, hr⟩ := not_or.1 (mt List.mem_cons.2 hreturn)
    cases text with
    | nil => rfl
    | cons c rest =>
      by_cases hc : c = '\n'
      · have hqf' : (q == '\n') = false := beq_eq_false_iff_ne.2 (Ne.symm hqf)
        have hqr' : (q == '\r') = false := beq_eq_false_iff_ne.2 (Ne.symm hqr)
        simp [hc, List.isPrefixOf, hqf', hqr']
      · rw [crlf_cons hc, List.isPrefixOf, List.isPrefixOf, ih hf hr]

/-- A text without line ends occurs in both texts or in neither. -/
theorem occursIn_crlf (text : List Char) : occursIn needle (crlf text) = occursIn needle text := by
  induction text with
  | nil => rfl
  | cons c rest ih =>
    by_cases hc : c = '\n'
    · have hhead := isPrefixOf_crlf hfeed hreturn ('\n' :: rest)
      cases needle with
      | nil => simp [hc, occursIn]
      | cons q needle =>
        have hqf : (q == '\n') = false :=
          beq_eq_false_iff_ne.2 fun h => hfeed (h ▸ List.mem_cons_self)
        rw [hc, crlf_feed, occursIn, occursIn, occursIn, ih]
        rw [crlf_feed] at hhead
        rw [hhead]
        simp [List.isPrefixOf, hqf]
    · have hhead := isPrefixOf_crlf hfeed hreturn (c :: rest)
      rw [crlf_cons hc] at hhead
      rw [crlf_cons hc, occursIn, occursIn, ih, hhead]

/-- One character of a line end more in front does not matter. -/
theorem occursIn_drop_crlf (hne : needle ≠ []) (text : List Char) :
    occursIn needle ((crlf text).drop 1) = occursIn needle (text.drop 1) := by
  cases text with
  | nil => rfl
  | cons c rest =>
    by_cases hc : c = '\n'
    · obtain ⟨q, needle, rfl⟩ := List.exists_cons_of_ne_nil hne
      have hqf : (q == '\n') = false :=
        beq_eq_false_iff_ne.2 fun h => hfeed (h ▸ List.mem_cons_self)
      have hrest := occursIn_crlf hfeed hreturn rest
      simp only [hc, crlf_feed, List.drop_succ_cons, List.drop_zero, occursIn, hrest]
      simp [List.isPrefixOf, hqf]
    · rw [crlf_cons hc, List.drop_succ_cons, List.drop_succ_cons, List.drop_zero, List.drop_zero,
        occursIn_crlf hfeed hreturn]

end

theorem opensBlock_crlf {quote : Char} (hfeed : quote ≠ '\n') (hreturn : quote ≠ '\r')
    (text : List Char) : opensBlock quote (crlf text) = opensBlock quote text := by
  have hf : '\n' ∉ [quote, quote, quote] := by simp [Ne.symm hfeed]
  have hr : '\r' ∉ [quote, quote, quote] := by simp [Ne.symm hreturn]
  simp only [opensBlock, dropBlank_crlf, isPrefixOf_crlf hf hr]
  cases hp : [quote, quote, quote].isPrefixOf (dropBlank text) with
  | false => rfl
  | true =>
    obtain ⟨more, hmore⟩ := List.isPrefixOf_iff_prefix.1 hp
    have hfence : crlf [quote, quote, quote] = [quote, quote, quote] := crlf_eq_self hf
    rw [← hmore, crlf_append, hfence]
    exact congrArg (true && ·) (occursIn_drop_crlf hf hr (List.cons_ne_nil _ _) more)

theorem opensAnyBlock_crlf (text : List Char) :
    opensAnyBlock (crlf text) = opensAnyBlock text := by
  rw [opensAnyBlock, opensAnyBlock, opensBlock_crlf (by decide) (by decide),
    opensBlock_crlf (by decide) (by decide)]

theorem hasBlockBehindFeed_crlf (text : List Char) :
    hasBlockBehindFeed (crlf text) = hasBlockBehindFeed text := by
  induction text with
  | nil => rfl
  | cons c rest ih =>
    by_cases hc : c = '\n'
    · simp [hc, hasBlockBehindFeed, opensAnyBlock_crlf, ih]
    · simp [crlf_cons hc, hasBlockBehindFeed, hc, ih]

theorem hasBlock_crlf (text : List Char) : hasBlock (crlf text) = hasBlock text := by
  rw [hasBlock, hasBlock, opensAnyBlock_crlf, hasBlockBehindFeed_crlf]

/-! ### Checks -/

section

variable (settings : Settings) (fileName : String) {source : String} (h : '\r' ∉ source.toList)

include h

theorem toList_crlfText_lines : lines (crlfText source).toList = lines source.toList := by
  rw [crlfText, String.toList_ofList, lines_crlf h]

/-- The check on the header gives the same for both kinds of line ends. -/
theorem headerChecks_crlf :
    headerChecks settings fileName (some (crlfText source)) =
      headerChecks settings fileName (some source) := by
  simp only [headerChecks, headOf, toList_crlfText_lines h]

/-- The check on the length of lines gives the same for both kinds of line ends. -/
theorem lineLengthChecks_crlf :
    lineLengthChecks settings fileName (some (crlfText source)) =
      lineLengthChecks settings fileName (some source) := by
  simp only [lineLengthChecks, longLines, toList_crlfText_lines h]

/-- The check on comments gives the same for both kinds of line ends. -/
theorem commentChecks_crlf :
    commentChecks fileName (some (crlfText source)) = commentChecks fileName (some source) := by
  have hblock : hasBlock (crlfText source).toList = hasBlock source.toList := by
    rw [crlfText, String.toList_ofList, hasBlock_crlf]
  simp only [commentChecks, hasComment, toList_crlfText_lines h, hblock]

end

end Marksheet.Rubric
