import Mathlib
import Marksheet.Proofs.Decimal.Numeral
import Marksheet.Report.Pretty

/-!
# Colors leave the text alone

A style sequence is an escape character, a bracket, digits and the letter `m`;
`unstyle` takes all of them out of a text in one pass from left to right. With
and without colors a report and the line of totals are the same text after that
pass, whatever the names in them hold. A sequence that a name leaves unfinished
stays so in either case: what follows a painted text is an escape character, a
space or the end of a line, and none of these goes on with a sequence.
-/

namespace Marksheet.Report

open Rubric (Check)

/-- The character that a style sequence begins with. -/
def escape : Char := Char.ofNat 0x1B

/-- What follows the style sequence whose escape character stands before a text. `bare` admits a
sequence without digits. -/
def behindSequence? (bare : Bool) : List Char → Option (List Char)
  | '[' :: rest =>
    match rest.dropWhile Char.isDigit with
    | 'm' :: behind =>
      if bare || !(rest.takeWhile Char.isDigit).isEmpty then some behind else none
    | _ => none
  | _ => none

/-- A style sequence without its escape character. -/
def Sequence (bare : Bool) (sequence : List Char) : Prop :=
  ∃ digits, sequence = '[' :: digits ++ ['m'] ∧ (∀ c ∈ digits, c.isDigit = true) ∧
    (bare = true ∨ digits ≠ [])

theorem behindSequence?_eq_some_iff {bare : Bool} {text behind : List Char} :
    behindSequence? bare text = some behind ↔
      ∃ sequence, Sequence bare sequence ∧ text = sequence ++ behind := by
  constructor
  · intro h
    unfold behindSequence? at h
    split at h
    next rest =>
      split at h
      next more hdrop =>
        split at h
        next hbare =>
          cases h
          refine ⟨_, ⟨rest.takeWhile Char.isDigit, rfl, ?_, ?_⟩, ?_⟩
          · exact fun c hc => List.mem_takeWhile_imp hc
          · simpa using hbare
          · have hparts := @List.takeWhile_append_dropWhile _ Char.isDigit rest
            rw [hdrop] at hparts
            simpa using hparts.symm
        next => cases h
      next => cases h
    next => cases h
  · rintro ⟨_, ⟨digits, rfl, hdigits, hbare⟩, rfl⟩
    have htext : '[' :: digits ++ ['m'] ++ behind = '[' :: (digits ++ 'm' :: behind) := by simp
    have htake : (digits ++ 'm' :: behind).takeWhile Char.isDigit = digits := by
      rw [List.takeWhile_append_of_pos hdigits, List.takeWhile_cons_of_neg (by decide),
        List.append_nil]
    have hdrop : (digits ++ 'm' :: behind).dropWhile Char.isDigit = 'm' :: behind := by
      rw [List.dropWhile_append_of_pos hdigits, List.dropWhile_cons_of_neg (by decide)]
    rw [htext]
    simp only [behindSequence?, htake, hdrop]
    rw [if_pos (by simpa using hbare)]

theorem length_behindSequence? {bare : Bool} {text behind : List Char}
    (h : behindSequence? bare text = some behind) : behind.length ≤ text.length := by
  obtain ⟨sequence, -, rfl⟩ := behindSequence?_eq_some_iff.1 h
  simp

/-- A text without its style sequences, in one pass. -/
def unstyled (bare : Bool) (text : List Char) : List Char :=
  match text with
  | [] => []
  | c :: rest =>
    if c = escape then
      match h : behindSequence? bare rest with
      | some behind =>
        have := length_behindSequence? h
        unstyled bare behind
      | none => c :: unstyled bare rest
    else c :: unstyled bare rest
termination_by text.length

/-- A text without its style sequences. -/
def unstyle (bare : Bool) (text : String) : String :=
  String.ofList (unstyled bare text.toList)

section

variable {bare : Bool} {c : Char} {text front back behind rest : List Char}

/-! ### One pass -/

theorem unstyled_nil : unstyled bare [] = [] := by
  rw [unstyled]

theorem unstyled_cons (h : c ≠ escape) : unstyled bare (c :: rest) = c :: unstyled bare rest := by
  rw [unstyled, if_neg h]

theorem unstyled_sequence (h : behindSequence? bare rest = some behind) :
    unstyled bare (escape :: rest) = unstyled bare behind := by
  rw [unstyled, if_pos rfl]
  split
  next h' => rw [h] at h'; cases h'; rfl
  next h' => rw [h] at h'; cases h'

theorem unstyled_stray (h : behindSequence? bare rest = none) :
    unstyled bare (escape :: rest) = escape :: unstyled bare rest := by
  rw [unstyled, if_pos rfl]
  split
  next h' => rw [h] at h'; cases h'
  next => rfl

theorem unstyled_append_of_not_mem (h : escape ∉ front) :
    unstyled bare (front ++ back) = front ++ unstyled bare back := by
  induction front with
  | nil => rfl
  | cons c front ih =>
    have hc : c ≠ escape := fun hc => h (hc ▸ List.mem_cons_self)
    rw [List.cons_append, unstyled_cons hc, ih fun hm => h (List.mem_cons_of_mem c hm),
      List.cons_append]

theorem unstyled_eq_self (h : escape ∉ text) : unstyled bare text = text := by
  rw [← List.append_nil text, unstyled_append_of_not_mem h, unstyled_nil]

/-! ### Texts behind one another -/

/-- No style sequence goes on with this text. -/
def Stops (back : List Char) : Prop :=
  ∀ c ∈ back.head?, c ≠ '[' ∧ c ≠ 'm' ∧ c.isDigit = false

theorem Sequence.not_mem_escape {sequence : List Char} (h : Sequence bare sequence) :
    escape ∉ sequence := by
  obtain ⟨digits, rfl, hdigits, -⟩ := h
  have hescape : escape ∉ digits := fun hm => absurd (hdigits _ hm) (by decide)
  simp only [List.cons_append, List.mem_cons, List.mem_append, List.not_mem_nil, or_false, not_or]
  exact ⟨by decide, hescape, by decide⟩

/-- A part of a sequence is not the front of a text that stops it. -/
theorem Sequence.eq_nil_of_stops {more : List Char} (h : Sequence bare (front ++ more))
    (hstops : Stops (more ++ back)) : more = [] := by
  cases more with
  | nil => rfl
  | cons c more =>
    obtain ⟨digits, hsequence, hdigits, -⟩ := h
    have hm : c ∈ '[' :: digits ++ ['m'] := hsequence ▸ by simp
    obtain ⟨hbracket, hletter, hdigit⟩ := hstops c rfl
    simp only [List.cons_append, List.mem_cons, List.mem_append, List.not_mem_nil, or_false] at hm
    rcases hm with rfl | hm | rfl
    · exact absurd rfl hbracket
    · rw [hdigits c hm] at hdigit
      cases hdigit
    · exact absurd rfl hletter

theorem behindSequence?_append (back : List Char) (h : behindSequence? bare text = some behind) :
    behindSequence? bare (text ++ back) = some (behind ++ back) := by
  obtain ⟨sequence, hsequence, rfl⟩ := behindSequence?_eq_some_iff.1 h
  exact behindSequence?_eq_some_iff.2 ⟨sequence, hsequence, List.append_assoc _ _ _⟩

/-- A sequence that is not finished in a text is not finished by one that stops it. -/
theorem behindSequence?_append_eq_none (h : behindSequence? bare text = none)
    (hstops : Stops back) : behindSequence? bare (text ++ back) = none := by
  rw [Option.eq_none_iff_forall_not_mem] at h ⊢
  intro behind hbehind
  obtain ⟨sequence, hsequence, htext⟩ := behindSequence?_eq_some_iff.1 hbehind
  rcases List.append_eq_append_iff.1 htext with ⟨more, rfl, rfl⟩ | ⟨more, rfl, -⟩
  · obtain rfl := hsequence.eq_nil_of_stops hstops
    exact h [] (behindSequence?_eq_some_iff.2 ⟨text, by simpa using hsequence, by simp⟩)
  · exact h more (behindSequence?_eq_some_iff.2 ⟨sequence, hsequence, rfl⟩)

theorem unstyled_append (hstops : Stops back) :
    unstyled bare (text ++ back) = unstyled bare text ++ unstyled bare back := by
  induction text using unstyled.induct bare with
  | case1 => rw [unstyled_nil, List.nil_append, List.nil_append]
  | case2 rest behind h _ ih =>
    rw [List.cons_append, unstyled_sequence (behindSequence?_append back h),
      unstyled_sequence h, ih]
  | case3 rest h ih =>
    rw [List.cons_append, unstyled_stray (behindSequence?_append_eq_none h hstops),
      unstyled_stray h, ih, List.cons_append]
  | case4 c rest h ih =>
    rw [List.cons_append, unstyled_cons h, unstyled_cons h, ih, List.cons_append]

/-! ### Painted texts -/

/-- A style is selected by a sequence. -/
theorem exists_select (bare : Bool) (code : ℕ) :
    ∃ sequence, Sequence bare sequence ∧ Style.select code = escape :: sequence := by
  refine ⟨'[' :: (toString code).toList ++ ['m'], ⟨_, rfl, fun c hc => ?_, .inr ?_⟩, rfl⟩
  · rw [Decimal.toList_toString] at hc
    exact Decimal.isDigit_of_mem_digits hc
  · rw [Decimal.toList_toString]
    exact Decimal.digits_ne_nil code

theorem behindSequence?_select (code : ℕ) (h : Style.select code ++ behind = escape :: rest) :
    behindSequence? bare rest = some behind := by
  obtain ⟨sequence, hsequence, hselect⟩ := exists_select bare code
  rw [hselect] at h
  exact behindSequence?_eq_some_iff.2 ⟨sequence, hsequence, (List.cons.inj h).2.symm⟩

theorem unstyled_select (code : ℕ) :
    unstyled bare (Style.select code ++ back) = unstyled bare back := by
  obtain ⟨sequence, -, hselect⟩ := exists_select bare code
  have hfront : Style.select code ++ back = escape :: (sequence ++ back) := by
    rw [hselect, List.cons_append]
  rw [hfront, unstyled_sequence (behindSequence?_select code hfront)]

section

variable {extra : List Char}

theorem behindResets_reset : Style.behindResets extra 0 (Style.reset ++ back) =
    Style.reset ++ (extra ++ Style.behindResets extra 0 back) := by
  rfl

theorem behindResets_cons (h : ¬ Style.reset <+: c :: rest) :
    Style.behindResets extra 0 (c :: rest) = c :: Style.behindResets extra 0 rest := by
  rw [Style.behindResets, if_neg (by rwa [List.isPrefixOf_iff_prefix])]

theorem behindResets_append (h : escape ∉ front) :
    Style.behindResets extra 0 (front ++ back) = front ++ Style.behindResets extra 0 back := by
  induction front with
  | nil => rfl
  | cons c front ih =>
    have hreset : ¬ Style.reset <+: c :: (front ++ back) := by
      rintro ⟨more, hmore⟩
      exact h ((List.cons.inj hmore).1 ▸ List.mem_cons_self)
    rw [List.cons_append, behindResets_cons hreset, ih fun hm => h (List.mem_cons_of_mem c hm),
      List.cons_append]

theorem stops_behindResets : Stops (Style.behindResets extra 0 (escape :: rest)) := by
  intro c hc
  rw [Style.behindResets] at hc
  split at hc <;> (obtain rfl := Option.some.inj hc; decide)

/-- What is put behind resets begins no earlier than the first of them, so it finishes no
sequence. -/
theorem behindSequence?_behindResets (h : behindSequence? bare rest = none) :
    behindSequence? bare (Style.behindResets extra 0 rest) = none := by
  let inside (c : Char) : Bool := c != escape
  have hrest : rest.takeWhile inside ++ rest.dropWhile inside = rest :=
    List.takeWhile_append_dropWhile
  have hfront : escape ∉ rest.takeWhile inside := fun hm =>
    absurd (List.mem_takeWhile_imp hm) (by simp [inside])
  have hstops : Stops (Style.behindResets extra 0 (rest.dropWhile inside)) := by
    cases hdrop : rest.dropWhile inside with
    | nil => exact nofun
    | cons c behind =>
      have hhead := List.head?_dropWhile_not inside rest
      obtain rfl : c = escape := by simpa [hdrop, inside] using hhead
      exact stops_behindResets
  rw [← hrest, behindResets_append hfront]
  refine behindSequence?_append_eq_none ?_ hstops
  by_contra hsome
  obtain ⟨behind, hbehind⟩ := Option.ne_none_iff_exists'.1 hsome
  have hwhole := behindSequence?_append (rest.dropWhile inside) hbehind
  rw [hrest, h] at hwhole
  cases hwhole

end

/-- A style written again behind each reset is as good as not written. -/
theorem unstyled_behindResets (code : ℕ) (text : List Char) :
    unstyled bare (Style.behindResets (Style.select code) 0 text) = unstyled bare text := by
  induction text using unstyled.induct bare with
  | case1 => rfl
  | case2 rest behind h _ ih =>
    by_cases hreset : Style.reset <+: escape :: rest
    · obtain ⟨more, hmore⟩ := hreset
      obtain rfl : behind = more :=
        Option.some.inj (h.symm.trans (behindSequence?_select 0 hmore))
      rw [← hmore, behindResets_reset, Style.reset, unstyled_select, unstyled_select,
        unstyled_select, ih]
    · obtain ⟨sequence, hsequence, rfl⟩ := behindSequence?_eq_some_iff.1 h
      rw [behindResets_cons hreset, behindResets_append hsequence.not_mem_escape,
        unstyled_sequence (behindSequence?_eq_some_iff.2 ⟨sequence, hsequence, rfl⟩),
        unstyled_sequence h, ih]
  | case3 rest h ih =>
    have hreset : ¬ Style.reset <+: escape :: rest := by
      rintro ⟨more, hmore⟩
      cases h.symm.trans (behindSequence?_select 0 hmore)
    rw [behindResets_cons hreset, unstyled_stray (behindSequence?_behindResets h),
      unstyled_stray h, ih]
  | case4 c rest h ih =>
    have hreset : ¬ Style.reset <+: c :: rest := fun ⟨_, hmore⟩ => h (List.cons.inj hmore).1.symm
    rw [behindResets_cons hreset, unstyled_cons h, unstyled_cons h, ih]

theorem stops_of_head (h : c ≠ '[' ∧ c ≠ 'm' ∧ c.isDigit = false) : Stops (c :: back) := by
  intro d hd
  obtain rfl : c = d := Option.some.inj hd
  exact h

/-- With and without colors, a painted text is itself without its sequences, if what follows it
stops a sequence. -/
theorem unstyled_paint (style : Style) (styled : Bool) (text : String) (hstops : Stops back) :
    unstyled bare ((style.paint styled text).toList ++ back) =
      unstyled bare text.toList ++ unstyled bare back := by
  cases styled with
  | false => exact unstyled_append hstops
  | true =>
    have hreset : Stops (Style.reset ++ back) := stops_of_head (by decide)
    simp only [Style.paint, if_true, String.toList_ofList, List.append_assoc]
    rw [unstyled_select, unstyled_append hreset, unstyled_behindResets, Style.reset,
      unstyled_select]

end

/-! ### Reports -/

section

variable {bare : Bool} {report : Report}

/-- The text ends a line. -/
def EndsLine (text : String) : Prop := ∃ front, text = front ++ "\n"

theorem EndsLine.append {text : String} (h : EndsLine text) (front : String) :
    EndsLine (front ++ text) := by
  obtain ⟨inner, rfl⟩ := h
  exact ⟨front ++ inner, String.append_assoc.symm⟩

/-- No sequence goes beyond the end of a line. -/
theorem unstyle_append {first : String} (h : EndsLine first) (second : String) :
    unstyle bare (first ++ second) = unstyle bare first ++ unstyle bare second := by
  obtain ⟨front, rfl⟩ := h
  have hline (back : List Char) : unstyled bare (front.toList ++ '\n' :: back) =
      unstyled bare front.toList ++ '\n' :: unstyled bare back := by
    rw [unstyled_append (stops_of_head (by decide)), unstyled_cons (by decide)]
  have hfirst : (front ++ "\n").toList = front.toList ++ '\n' :: [] := String.toList_append
  have hwhole : (front ++ "\n" ++ second).toList = front.toList ++ '\n' :: second.toList := by
    rw [String.toList_append, hfirst, List.append_assoc]
    rfl
  rw [unstyle, unstyle, unstyle, hfirst, hwhole, hline, hline, unstyled_nil, ← String.ofList_append,
    List.append_assoc]
  rfl

theorem unstyle_front {front : String} (h : escape ∉ front.toList) (back : String) :
    unstyle bare (front ++ back) = front ++ unstyle bare back := by
  rw [unstyle, String.toList_append, unstyled_append_of_not_mem h, String.ofList_append,
    String.ofList_toList, unstyle]

theorem unstyle_eq_self {text : String} (h : escape ∉ text.toList) : unstyle bare text = text := by
  rw [unstyle, unstyled_eq_self h, String.ofList_toList]

theorem unstyle_paint (style : Style) (styled : Bool) (text : String) {tail : String}
    (hstops : Stops tail.toList) :
    unstyle bare (style.paint styled text ++ tail) = unstyle bare text ++ unstyle bare tail := by
  rw [unstyle, String.toList_append, unstyled_paint style styled text hstops, String.ofList_append,
    unstyle, unstyle]

theorem unstyle_checkLine (styled : Bool) (check : Check) :
    unstyle bare (checkLine styled check) = unstyle bare (checkLine false check) := by
  have hspace (back : String) : Stops (" " ++ back).toList := by
    rw [String.toList_append]
    exact stops_of_head (by decide)
  unfold checkLine
  split
  · simp only [String.append_assoc]
    rw [unstyle_paint _ styled _ (hspace _), unstyle_paint _ false _ (hspace _)]
  · simp only [String.append_assoc]
    rw [unstyle_paint _ styled _ (hspace _), unstyle_paint _ false _ (hspace _)]

theorem endsLine_checkLine (styled : Bool) (check : Check) : EndsLine (checkLine styled check) := by
  unfold checkLine
  split
  · exact ⟨_, rfl⟩
  · exact ⟨_, rfl⟩

theorem unstyle_checkLines (styled : Bool) (checks : List Check) (back : String) :
    unstyle bare (String.join (checks.map (checkLine styled)) ++ back) =
      unstyle bare (String.join (checks.map (checkLine false))) ++ unstyle bare back := by
  induction checks with
  | nil => simp [unstyle_eq_self]
  | cons check checks ih =>
    rw [List.map_cons, List.map_cons, String.join_cons, String.join_cons, String.append_assoc,
      unstyle_append (endsLine_checkLine styled check), ih, unstyle_checkLine,
      unstyle_append (endsLine_checkLine false check), String.append_assoc]

theorem unstyle_scoreLine (styled : Bool) :
    unstyle bare (scoreLine styled report) = unstyle bare (scoreLine false report) := by
  have hend : Stops "\n".toList := stops_of_head (by decide)
  rw [scoreLine, scoreLine, unstyle_paint _ styled _ hend, unstyle_paint _ false _ hend]

theorem not_mem_rule {c : Char} (h : escape ≠ c) : escape ∉ (rule c).toList := by
  rw [rule, String.toList_append, String.toList_ofList, List.mem_append, List.mem_replicate]
  rintro (hm | hm)
  · exact h hm.2
  · exact absurd hm (by decide)

theorem unstyle_page (styled : Bool) :
    unstyle bare (page styled report) = unstyle bare (page false report) := by
  have hend (back : String) : Stops ("\n" ++ back).toList := by
    rw [String.toList_append]
    exact stops_of_head (by decide)
  have hscore (styled : Bool) : EndsLine (scoreLine styled report) := ⟨_, rfl⟩
  have hfeed : escape ∉ "\n".toList := by decide
  have hgrading : escape ∉ " Grading ".toList := by decide
  delta page
  simp only [String.append_assoc, unstyle_front hfeed, unstyle_front hgrading,
    unstyle_front (not_mem_rule (by decide : escape ≠ '=')),
    unstyle_front (not_mem_rule (by decide : escape ≠ '-')), unstyle_paint _ _ _ (hend _),
    unstyle_checkLines, unstyle_append (hscore _), unstyle_scoreLine styled]

/-! ### Texts without escape characters -/

/-- The texts that a report is about. -/
def texts (report : Report) : List String :=
  report.file :: report.checks.flatMap fun check => [check.name, check.message]

theorem not_mem_toString (n : ℕ) : escape ∉ (toString n).toList := by
  rw [Decimal.toList_toString]
  exact fun hm => absurd (Decimal.isDigit_of_mem_digits hm) (by decide)

theorem not_mem_summary (totals : Totals) : escape ∉ totals.summary.toList := by
  have hplural : escape ∉ (if totals.files = 1 then "" else "s").toList := by
    split <;> decide
  delta Totals.summary
  simp only [String.toList_append, List.mem_append, not_or]
  simp only [not_mem_toString, hplural, not_false_eq_true, and_true]
  decide

theorem not_mem_checkLine {check : Check} (hname : escape ∉ check.name.toList)
    (hmessage : escape ∉ check.message.toList) :
    escape ∉ (checkLine false check).toList := by
  unfold checkLine
  split
  · simp only [Style.paint, Bool.false_eq_true, if_false, String.toList_append, List.mem_append,
      not_or, hname, not_false_eq_true, and_true]
    decide
  · simp only [Style.paint, Bool.false_eq_true, if_false, String.toList_append, List.mem_append,
      not_or, hname, hmessage, not_false_eq_true, and_true]
    decide

theorem not_mem_join {lines : List String} (h : ∀ line ∈ lines, escape ∉ line.toList) :
    escape ∉ (String.join lines).toList := by
  rw [String.toList_join, List.mem_flatMap]
  rintro ⟨line, hline, hm⟩
  exact h line hline hm

theorem not_mem_hintBlock {hints : List Check}
    (h : ∀ check ∈ hints, escape ∉ check.message.toList) : escape ∉ (hintBlock hints).toList := by
  have hlines : escape ∉
      (String.join (hints.map fun check => " • " ++ check.message ++ "\n")).toList := by
    refine not_mem_join fun line hline => ?_
    obtain ⟨check, hcheck, rfl⟩ := List.mem_map.1 hline
    simp only [String.toList_append, List.mem_append, not_or, h check hcheck, not_false_eq_true,
      and_true]
    decide
  cases hints with
  | nil => decide
  | cons check hints =>
    simp only [hintBlock, String.toList_append, List.mem_append, not_or, hlines, not_false_eq_true,
      and_true]
    decide

theorem not_mem_scoreLine : escape ∉ (scoreLine false report).toList := by
  simp only [scoreLine, summary, Style.paint, Bool.false_eq_true, if_false, String.toList_append,
    List.mem_append, not_or, not_mem_toString, not_false_eq_true, and_true]
  decide

theorem not_mem_pretty (h : ∀ text ∈ report.texts, escape ∉ text.toList) :
    escape ∉ (pretty false report).toList := by
  have hfile : escape ∉ report.file.toList := h _ List.mem_cons_self
  have hname (check : Check) (hm : check ∈ report.checks) : escape ∉ check.name.toList :=
    h _ (List.mem_cons_of_mem _ (List.mem_flatMap.2 ⟨check, hm, by simp⟩))
  have hmessage (check : Check) (hm : check ∈ report.checks) : escape ∉ check.message.toList :=
    h _ (List.mem_cons_of_mem _ (List.mem_flatMap.2 ⟨check, hm, by simp⟩))
  have hchecks : escape ∉ (String.join (report.checks.map (checkLine false))).toList := by
    refine not_mem_join fun line hline => ?_
    obtain ⟨check, hcheck, rfl⟩ := List.mem_map.1 hline
    exact not_mem_checkLine (hname check hcheck) (hmessage check hcheck)
  have hhints : escape ∉ (hintBlock report.hints).toList :=
    not_mem_hintBlock fun check hm => hmessage check (List.mem_of_mem_filter hm)
  delta pretty page
  simp only [Style.paint, Bool.false_eq_true, if_false, String.toList_append,
    List.mem_append, not_or, hfile, hchecks, hhints, not_mem_scoreLine,
    not_mem_rule (by decide : escape ≠ '='), not_mem_rule (by decide : escape ≠ '-'),
    not_false_eq_true, and_true]
  decide

theorem unstyle_prettyTotals (styled : Bool) (totals : Totals) :
    unstyle bare (prettyTotals styled totals) = prettyTotals false totals := by
  have hend : Stops "\n".toList := stops_of_head (by decide)
  rw [prettyTotals, unstyle_paint _ styled _ hend, unstyle_eq_self (not_mem_summary totals),
    unstyle_eq_self (by decide)]
  rfl

theorem escape_mem_paint (style : Style) (text : String) :
    escape ∈ (style.paint true text).toList := by
  rw [Style.paint, if_pos rfl, String.toList_ofList, List.append_assoc, Style.select]
  exact List.mem_cons_self

/-- Without style sequences, a colored report and a colored line of totals are what they are without
colors and without the sequences that their own texts bring along; if these bring none, they are
what they are without colors. The colors are there: both hold escape characters. -/
theorem unstyle_exact (bare : Bool) (report : Report) (totals : Totals) :
    unstyle bare (pretty true report) = unstyle bare (pretty false report) ∧
      unstyle bare (prettyTotals true totals) = unstyle bare (prettyTotals false totals) ∧
      ((∀ text ∈ report.texts, escape ∉ text.toList) →
        unstyle bare (pretty true report) = pretty false report) ∧
      unstyle bare (prettyTotals true totals) = prettyTotals false totals ∧
      escape ∈ (pretty true report).toList ∧ escape ∈ (prettyTotals true totals).toList := by
  have hend (styled : Bool) : EndsLine (page styled report) := ⟨_, rfl⟩
  have hreport : unstyle bare (pretty true report) = unstyle bare (pretty false report) := by
    rw [pretty, pretty, unstyle_append (hend true), unstyle_append (hend false), unstyle_page]
  refine ⟨hreport, ?_, fun hplain => ?_, unstyle_prettyTotals true totals, ?_, ?_⟩
  · rw [unstyle_prettyTotals, unstyle_prettyTotals]
  · rw [hreport, unstyle_eq_self (not_mem_pretty hplain)]
  · delta pretty page
    simp only [String.toList_append, List.mem_append, escape_mem_paint, true_or, or_true]
  · rw [prettyTotals, String.toList_append]
    exact List.mem_append_left _ (escape_mem_paint _ _)

/-- A report without escape characters, and one under a name that ends a style of its own and does
not finish another one. -/
theorem unstyle_exact_twoNames :
    (∀ text ∈ texts ⟨"chatbot.py", [⟨"exists", true, ""⟩]⟩, escape ∉ text.toList) ∧
      unstyle false (pretty true ⟨"chatbot.py", [⟨"exists", true, ""⟩]⟩) =
        pretty false ⟨"chatbot.py", [⟨"exists", true, ""⟩]⟩ ∧
      unstyle false (pretty true ⟨"a\x1b[0mb\x1b[3", []⟩) =
        unstyle false (pretty false ⟨"a\x1b[0mb\x1b[3", []⟩) :=
  have hplain : ∀ text ∈ texts ⟨"chatbot.py", [⟨"exists", true, ""⟩]⟩, escape ∉ text.toList := by
    decide
  ⟨hplain, (unstyle_exact false _ .zero).2.2.1 hplain, (unstyle_exact false _ .zero).1⟩

end

end Marksheet.Report
