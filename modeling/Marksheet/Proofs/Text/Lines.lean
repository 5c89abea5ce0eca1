import Mathlib
import Marksheet.Text.Blank

/-!
# Lines and what is left of them without blanks

Any text is a row of lines in one way only (`lined_iff`): each line but the last
is ended by a line feed with or without a carriage return before it, and the
last may be. With their line feeds the lines are the pieces of the text
(`rows_pieces`). A text without the blanks around it is what begins and ends with
characters that are none (`trims_iff`).
-/

namespace Marksheet.Text

/-! ### Lines -/

/-- A text and its lines without their ends. A carriage return before a line feed belongs to the end
of the line; anywhere else it is a character like any other. -/
inductive Lined : List Char → List (List Char) → Prop
  | empty : Lined [] []
  | last {line : List Char} (hne : line ≠ []) (hfeed : '\n' ∉ line) : Lined line [line]
  | feed {line rest : List Char} {others : List (List Char)} (hfeed : '\n' ∉ line)
      (hreturn : line.getLast? ≠ some '\r') (hrest : Lined rest others) :
      Lined (line ++ '\n' :: rest) (line :: others)
  | returnFeed {line rest : List Char} {others : List (List Char)} (hfeed : '\n' ∉ line)
      (hrest : Lined rest others) : Lined (line ++ '\r' :: '\n' :: rest) (line :: others)

theorem pieces_feed (rest : List Char) : pieces ('\n' :: rest) = ['\n'] :: pieces rest := rfl

/-- The first piece ends at the first line feed. -/
theorem pieces_line {line : List Char} (hfeed : '\n' ∉ line) (rest : List Char) :
    pieces (line ++ '\n' :: rest) = (line ++ ['\n']) :: pieces rest := by
  induction line with
  | nil => exact pieces_feed rest
  | cons c line ih =>
    obtain ⟨hc, hline⟩ := not_or.1 (mt List.mem_cons.2 hfeed)
    rw [List.cons_append, pieces, if_neg (Ne.symm hc), ih hline]
    rfl

/-- A text without line feeds is one piece. -/
theorem pieces_last {line : List Char} (hne : line ≠ []) (hfeed : '\n' ∉ line) :
    pieces line = [line] := by
  induction line with
  | nil => exact absurd rfl hne
  | cons c line ih =>
    obtain ⟨hc, hline⟩ := not_or.1 (mt List.mem_cons.2 hfeed)
    rw [pieces, if_neg (Ne.symm hc)]
    cases line with
    | nil => rfl
    | cons d rest => rw [ih (List.cons_ne_nil d rest) hline]

/-- A line that does not end in a carriage return loses its line feed and nothing else. -/
theorem bareLine_feed {line : List Char} (h : line.getLast? ≠ some '\r') :
    bareLine (line ++ ['\n']) = line := by
  unfold bareLine
  rw [List.reverse_append, List.reverse_singleton, List.singleton_append]
  split
  next rest he =>
    have hlast : line.getLast? = some '\r' := by
      rw [List.getLast?_eq_head?_reverse, (List.cons.inj he).2]
      rfl
    exact absurd hlast h
  next rest hne he => rw [← (List.cons.inj he).2, List.reverse_reverse]
  next _ hne => exact absurd rfl (hne line.reverse)

theorem bareLine_return_feed (line : List Char) : bareLine (line ++ ['\r', '\n']) = line := by
  unfold bareLine
  simp

/-- A line without a line feed is bare. -/
theorem bareLine_eq_self {line : List Char} (h : '\n' ∉ line) : bareLine line = line := by
  unfold bareLine
  split
  next rest he => exact absurd (List.mem_reverse.1 (he ▸ List.mem_cons_self)) h
  next rest _ he => exact absurd (List.mem_reverse.1 (he ▸ List.mem_cons_self)) h
  next => rfl

theorem Lined.lines_eq {text : List Char} {others : List (List Char)} (h : Lined text others) :
    lines text = others := by
  induction h with
  | empty => rfl
  | last hne hfeed => rw [lines, pieces_last hne hfeed, List.map_singleton, bareLine_eq_self hfeed]
  | feed hfeed hreturn _ ih =>
    rw [lines, pieces_line hfeed, List.map_cons, bareLine_feed hreturn]
    exact congrArg _ ih
  | @returnFeed line rest others hfeed _ ih =>
    have hfeed' : '\n' ∉ line ++ ['\r'] := by simpa using hfeed
    have hsplit : line ++ '\r' :: '\n' :: rest = (line ++ ['\r']) ++ '\n' :: rest := by simp
    rw [hsplit, lines, pieces_line hfeed', List.map_cons, List.append_assoc]
    exact congrArg₂ _ (bareLine_return_feed line) ih

/-- Any text is empty, a line without a line feed, or a line before another text. -/
theorem line_induction {motive : List Char → Prop} (empty : motive [])
    (last : ∀ line, line ≠ [] → '\n' ∉ line → motive line)
    (feed : ∀ line rest, '\n' ∉ line → motive rest → motive (line ++ '\n' :: rest))
    (text : List Char) : motive text := by
  -- On the length of the text, since a whole line is cut off in each step.
  induction hlength : text.length using Nat.strong_induction_on generalizing text with
  | h length ih =>
    by_cases hfeed : '\n' ∈ text
    · obtain ⟨line, rest, rfl, hline⟩ := List.eq_append_cons_of_mem hfeed
      refine feed line rest hline (ih rest.length ?_ rest rfl)
      rw [← hlength, List.length_append, List.length_cons]
      omega
    · by_cases hne : text = []
      · exact hne ▸ empty
      · exact last text hne hfeed

/-- Any text has lines. -/
theorem exists_lined (text : List Char) : ∃ others, Lined text others := by
  induction text using line_induction with
  | empty => exact ⟨[], .empty⟩
  | last line hne hfeed => exact ⟨[line], .last hne hfeed⟩
  | feed line rest hfeed ih =>
    obtain ⟨others, hrest⟩ := ih
    by_cases hreturn : line.getLast? = some '\r'
    · obtain ⟨front, rfl⟩ := List.getLast?_eq_some_iff.1 hreturn
      have hfront : '\n' ∉ front := fun hm => hfeed (List.mem_append_left _ hm)
      rw [List.append_assoc]
      exact ⟨front :: others, .returnFeed hfront hrest⟩
    · exact ⟨line :: others, .feed hfeed hreturn hrest⟩

/-- The lines of a text are the only row of lines that it is. -/
theorem lined_iff {text : List Char} {others : List (List Char)} :
    Lined text others ↔ others = lines text := by
  constructor
  · exact fun h => h.lines_eq.symm
  · rintro rfl
    obtain ⟨others, h⟩ := exists_lined text
    exact h.lines_eq ▸ h

/-! ### Lines with their ends -/

/-- A text and its lines with their line feeds, which only the last one may lack. -/
inductive Rows : List Char → List (List Char) → Prop
  | empty : Rows [] []
  | last {line : List Char} (hne : line ≠ []) (hfeed : '\n' ∉ line) : Rows line [line]
  | feed {line rest : List Char} {others : List (List Char)} (hfeed : '\n' ∉ line)
      (hrest : Rows rest others) : Rows (line ++ '\n' :: rest) ((line ++ ['\n']) :: others)

/-- The pieces of a text are its lines. -/
theorem rows_pieces (text : List Char) : Rows text (pieces text) := by
  induction text using line_induction with
  | empty => exact .empty
  | last line hne hfeed => exact pieces_last hne hfeed ▸ .last hne hfeed
  | feed line rest hfeed ih => exact pieces_line hfeed rest ▸ .feed hfeed ih

/-- The lines of a text join to it. -/
theorem Rows.flatten_eq {text : List Char} {rows : List (List Char)} (h : Rows text rows) :
    rows.flatten = text := by
  induction h with
  | empty => rfl
  | last => simp
  | feed _ _ ih => simp [ih]

/-- A line has characters, its line feed at least. -/
theorem Rows.ne_nil {text line : List Char} {rows : List (List Char)} (h : Rows text rows)
    (hline : line ∈ rows) : line ≠ [] := by
  induction h with
  | empty => cases hline
  | last hne => exact List.mem_singleton.1 hline ▸ hne
  | feed _ _ ih =>
    rcases List.mem_cons.1 hline with rfl | hline
    · exact List.append_ne_nil_of_right_ne_nil _ (List.cons_ne_nil _ [])
    · exact ih hline

/-! ### Blanks around a text -/

/-- What is left of a line without the blanks at both ends: it neither begins nor ends with one. -/
structure Trims (line left : List Char) : Prop where
  parts : ∃ before after, line = before ++ left ++ after ∧
    (∀ c ∈ before, isBlank c = true) ∧ ∀ c ∈ after, isBlank c = true
  head : ∀ c, left.head? = some c → isBlank c = false
  last : ∀ c, left.getLast? = some c → isBlank c = false

/-- Blanks are dropped up to the first character that is none. -/
theorem dropBlank_append {blanks rest : List Char} (hblanks : ∀ c ∈ blanks, isBlank c = true)
    (hrest : ∀ c, rest.head? = some c → isBlank c = false) : dropBlank (blanks ++ rest) = rest := by
  rw [dropBlank, List.dropWhile_append_of_pos hblanks]
  cases rest with
  | nil => rfl
  | cons c rest => rw [List.dropWhile_cons_of_neg (by simp [hrest c rfl])]

theorem exists_dropBlank (text : List Char) :
    ∃ blanks, text = blanks ++ dropBlank text ∧ (∀ c ∈ blanks, isBlank c = true) ∧
      ∀ c, (dropBlank text).head? = some c → isBlank c = false := by
  refine ⟨text.takeWhile isBlank, List.takeWhile_append_dropWhile.symm,
    fun c hc => List.mem_takeWhile_imp hc, fun c hc => ?_⟩
  have hhead := List.head?_dropWhile_not isBlank text
  rw [show (text.dropWhile isBlank).head? = some c from hc] at hhead
  simpa using hhead

theorem dropBlank_eq_nil {blanks : List Char} (h : ∀ c ∈ blanks, isBlank c = true) :
    dropBlank blanks = [] := by
  have hdrop : dropBlank (blanks ++ []) = [] := dropBlank_append h nofun
  rwa [List.append_nil] at hdrop

/-- The blanks at both ends can be dropped in one way only. -/
theorem trims_iff {line left : List Char} : Trims line left ↔ left = trim line := by
  constructor
  · rintro ⟨⟨before, after, rfl, hbefore, hafter⟩, hhead, hlast⟩
    by_cases hleft : left = []
    · have hblank : ∀ c ∈ before ++ after, isBlank c = true := fun c hc =>
        (List.mem_append.1 hc).elim (hbefore c) (hafter c)
      rw [hleft, List.append_nil, trim, dropBlank_eq_nil hblank]
      rfl
    · obtain ⟨first, rest, rfl⟩ := List.exists_cons_of_ne_nil hleft
      have hfront : dropBlank (before ++ (first :: rest ++ after)) = first :: rest ++ after :=
        dropBlank_append hbefore hhead
      have hafter' : ∀ c ∈ after.reverse, isBlank c = true := fun c hc =>
        hafter c (List.mem_reverse.1 hc)
      have hlast' : ∀ c, (first :: rest).reverse.head? = some c → isBlank c = false := by
        intro c hc
        rw [List.head?_reverse] at hc
        exact hlast c hc
      rw [trim, List.append_assoc, hfront, dropBlankEnd, List.reverse_append,
        dropBlank_append hafter' hlast', List.reverse_reverse]
  · rintro rfl
    obtain ⟨before, hline, hbefore, hhead⟩ := exists_dropBlank line
    obtain ⟨after, hrest, hafter, hlast⟩ := exists_dropBlank (dropBlank line).reverse
    have hparts : dropBlank line = trim line ++ after.reverse := by
      have hreverse := congrArg List.reverse hrest
      rw [List.reverse_reverse, List.reverse_append] at hreverse
      exact hreverse
    have hafter' : ∀ c ∈ after.reverse, isBlank c = true := fun c hc =>
      hafter c (List.mem_reverse.1 hc)
    refine ⟨⟨before, after.reverse, ?_, hbefore, hafter'⟩, ?_, ?_⟩
    · rw [List.append_assoc, ← hparts]
      exact hline
    · intro c hc
      refine hhead c ?_
      rw [hparts, List.head?_append, hc]
      rfl
    · intro c hc
      refine hlast c ?_
      rwa [trim, dropBlankEnd, List.getLast?_reverse] at hc

end Marksheet.Text
