import Mathlib
import Marksheet.Proofs.Text.Lines
import Marksheet.Proofs.Text.LowerCase
import Marksheet.Rubric.Static

/-!
# What the checks on the text find

The header is found by its markers anywhere in the first lines
(`header_exact`), documentation by a comment line or by two fences of one kind
with something in between (`comments_exact`), and long lines by their numbers
(`lineLength_exact`). Each is said by what stands where in the text, without
the order in which it is looked at.
-/

namespace Marksheet.Rubric

open Text

/-! ### Markers -/

/-- A marker with this word: the word in either case, blanks of any kind and number, and a colon. No
character beyond ASCII is a letter of such a word in another case. -/
def Marked (word text : List Char) : Prop :=
  ∃ before spelled blanks after, text = before ++ spelled ++ blanks ++ ':' :: after ∧
    spelled.map Char.toLower = word ∧ ∀ c ∈ blanks, isBlank c = true

theorem Marked.mono {word text : List Char} (h : Marked word text) (more : List Char) :
    Marked word (text ++ more) := by
  obtain ⟨before, spelled, blanks, after, rfl, hword, hblanks⟩ := h
  exact ⟨before, spelled, blanks, after ++ more, by simp, hword, hblanks⟩

theorem foldCase_eq (c : Char) : foldCase c = c.toLower := shifted_eq_toLower c

theorem afterWord?_eq_some_iff {word text rest : List Char} :
    afterWord? word text = some rest ↔
      ∃ spelled, text = spelled ++ rest ∧ spelled.map Char.toLower = word := by
  induction word generalizing text with
  | nil => simp [afterWord?, eq_comm]
  | cons w word ih =>
    cases text with
    | nil => simp [afterWord?]
    | cons c text =>
      rw [afterWord?]
      by_cases hc : foldCase c = w
      · rw [if_pos hc, ih]
        constructor
        · rintro ⟨spelled, rfl, rfl⟩
          exact ⟨c :: spelled, rfl, by rw [List.map_cons, ← foldCase_eq, hc]⟩
        · rintro ⟨spelled, htext, hword⟩
          cases spelled with
          | nil => cases hword
          | cons d spelled =>
            obtain ⟨rfl, rfl⟩ := List.cons.inj htext
            exact ⟨spelled, rfl, (List.cons.inj hword).2⟩
      · rw [if_neg hc]
        constructor
        · exact nofun
        · rintro ⟨spelled, htext, hword⟩
          cases spelled with
          | nil => cases hword
          | cons d spelled =>
            obtain ⟨rfl, -⟩ := List.cons.inj htext
            exact absurd ((foldCase_eq c).trans (List.cons.inj hword).1) hc

theorem beginsMarker_iff {word text : List Char} :
    beginsMarker word text = true ↔
      ∃ spelled blanks after, text = spelled ++ blanks ++ ':' :: after ∧
        spelled.map Char.toLower = word ∧ ∀ c ∈ blanks, isBlank c = true := by
  have hcolon : isBlank ':' = false := by decide
  constructor
  · intro h
    rw [beginsMarker] at h
    cases hword : afterWord? word text with
    | none =>
      rw [hword] at h
      cases h
    | some rest =>
      rw [hword] at h
      obtain ⟨spelled, rfl, hspelled⟩ := afterWord?_eq_some_iff.1 hword
      obtain ⟨blanks, hrest, hblanks, -⟩ := exists_dropBlank rest
      have hhead : (dropBlank rest).head? = some ':' := of_decide_eq_true h
      obtain ⟨after, hafter⟩ := List.head?_eq_some_iff.1 hhead
      refine ⟨spelled, blanks, after, ?_, hspelled, hblanks⟩
      rw [List.append_assoc, ← hafter, ← hrest]
  · rintro ⟨spelled, blanks, after, rfl, hspelled, hblanks⟩
    have hword : afterWord? word (spelled ++ blanks ++ ':' :: after) =
        some (blanks ++ ':' :: after) :=
      afterWord?_eq_some_iff.2 ⟨spelled, by rw [List.append_assoc], hspelled⟩
    have hdrop : dropBlank (blanks ++ ':' :: after) = ':' :: after := by
      refine dropBlank_append hblanks fun c hc => ?_
      obtain rfl : ':' = c := Option.some.inj hc
      exact hcolon
    rw [beginsMarker, hword]
    exact decide_eq_true (by rw [hdrop]; rfl)

theorem hasMarker_iff {word text : List Char} : hasMarker word text = true ↔ Marked word text := by
  induction text with
  | nil =>
    rw [hasMarker, beginsMarker_iff]
    constructor
    · rintro ⟨spelled, blanks, after, h, -⟩
      simp at h
    · rintro ⟨before, spelled, blanks, after, h, -⟩
      simp at h
  | cons c rest ih =>
    rw [hasMarker, Bool.or_eq_true, beginsMarker_iff, ih]
    constructor
    · rintro (⟨spelled, blanks, after, htext, h⟩ | ⟨before, spelled, blanks, after, rfl, h⟩)
      · exact ⟨[], spelled, blanks, after, htext, h⟩
      · exact ⟨c :: before, spelled, blanks, after, rfl, h⟩
    · rintro ⟨before, spelled, blanks, after, htext, h⟩
      cases before with
      | nil => exact .inl ⟨spelled, blanks, after, htext, h⟩
      | cons d before =>
        obtain ⟨-, hrest⟩ := List.cons.inj htext
        exact .inr ⟨before, spelled, blanks, after, hrest, h⟩

/-! ### The header -/

/-- The markers of a header. -/
def Headed (head : List Char) : Prop :=
  Marked "name".toList head ∧ Marked "date".toList head ∧
    (Marked "program".toList head ∨ Marked "title".toList head ∨ '#' ∈ head)

theorem isHeader_iff {head : List Char} : isHeader head = true ↔ Headed head := by
  simp only [isHeader, Headed, Bool.and_eq_true, Bool.or_eq_true, hasMarker_iff,
    List.contains_iff_mem]
  constructor
  · rintro ⟨⟨(hprogram | htitle) | hcomment, hname⟩, hdate⟩
    · exact ⟨hname, hdate, .inl hprogram⟩
    · exact ⟨hname, hdate, .inr (.inl htitle)⟩
    · exact ⟨hname, hdate, .inr (.inr hcomment)⟩
  · rintro ⟨hname, hdate, hprogram | htitle | hcomment⟩
    · exact ⟨⟨.inl (.inl hprogram), hname⟩, hdate⟩
    · exact ⟨⟨.inl (.inr htitle), hname⟩, hdate⟩
    · exact ⟨⟨.inr hcomment, hname⟩, hdate⟩

/-- What a text has for a header, it has with more text behind it. -/
theorem Headed.mono {head : List Char} (h : Headed head) (more : List Char) :
    Headed (head ++ more) := by
  obtain ⟨hname, hdate, htitle⟩ := h
  refine ⟨hname.mono more, hdate.mono more, ?_⟩
  rcases htitle with hprogram | htitle | hcomment
  · exact .inl (hprogram.mono more)
  · exact .inr (.inl (htitle.mono more))
  · exact .inr (.inr (List.mem_append_left _ hcomment))

/-- Fewer parts, joined, begin more parts. -/
theorem intercalate_prefix (separator : List Char) {fewer parts : List (List Char)}
    (h : fewer <+: parts) : separator.intercalate fewer <+: separator.intercalate parts := by
  induction fewer generalizing parts with
  | nil => exact List.nil_prefix
  | cons part rest ih =>
    obtain ⟨more, rfl⟩ := h
    cases rest with
    | nil =>
      cases more with
      | nil => exact List.prefix_rfl
      | cons next more =>
        rw [List.intercalate_singleton, List.singleton_append, List.intercalate_cons_cons,
          List.append_assoc]
        exact List.prefix_append part _
    | cons next rest =>
      have hrest := ih (List.prefix_append (next :: rest) more)
      rw [List.cons_append, List.cons_append, List.intercalate_cons_cons,
        List.intercalate_cons_cons]
      exact (List.prefix_append_right_inj _).2 hrest

/-- The first lines begin with fewer first lines. -/
theorem headOf_prefix {count more : ℕ} (h : count ≤ more) (source : List Char) :
    headOf count source <+: headOf more source :=
  intercalate_prefix _ (List.take_prefix_take_left h)

/-- The header is found exactly if the first lines, joined by line feeds, hold a name marker, a date
marker, and a title marker or the sign of a comment, in any order. So texts with the same first
lines are alike to the check, and what passes with some lines passes with more. -/
theorem header_exact (settings : Settings) (fileName source : String) :
    ∃ check, headerChecks settings fileName (some source) = [check] ∧
      check.name = "Header includes title, name, date" ∧
      (check.passed = true ↔
        Headed (['\n'].intercalate ((lines source.toList).take settings.headerLines))) ∧
      (∀ other : String, (lines other.toList).take settings.headerLines =
          (lines source.toList).take settings.headerLines →
        headerChecks settings fileName (some other) = [check]) ∧
      (check.passed = true → ∀ more, settings.headerLines ≤ more →
        ∃ later, headerChecks { settings with headerLines := more } fileName (some source) =
            [later] ∧ later.passed = true) := by
  refine ⟨_, rfl, rfl, isHeader_iff, fun other hlines => ?_, fun hpassed more hmore => ?_⟩
  · rw [headerChecks, headOf, headOf, hlines]
  · obtain ⟨behind, hbehind⟩ := headOf_prefix hmore source.toList
    refine ⟨_, rfl, ?_⟩
    have hheaded := (isHeader_iff.1 hpassed).mono behind
    rw [hbehind] at hheaded
    exact isHeader_iff.2 hheaded

/-- Markers in any order and over line ends are found, and the first lines are enough for it. -/
theorem header_exact_scattered :
    ∃ check, headerChecks { Settings.standard with headerLines := 3 } "chatbot.py"
        (some "late # dAtE\r\n \n:name:\nmore\n") = [check] ∧ check.passed = true ∧
      headerChecks { Settings.standard with headerLines := 3 } "chatbot.py"
        (some "late # dAtE\n \n:name:\n") = [check] ∧
      ∃ later, headerChecks { Settings.standard with headerLines := 9 } "chatbot.py"
        (some "late # dAtE\r\n \n:name:\nmore\n") = [later] ∧ later.passed = true := by
  obtain ⟨check, hall, -, hpassed, halike, hmore⟩ := header_exact
    { Settings.standard with headerLines := 3 } "chatbot.py" "late # dAtE\r\n \n:name:\nmore\n"
  have hhead : ['\n'].intercalate ((lines "late # dAtE\r\n \n:name:\nmore\n".toList).take 3) =
      "late # dAtE\n \n:name:".toList := by decide
  have hdate : Marked "date".toList "late # dAtE\n \n:name:".toList :=
    ⟨"late # ".toList, "dAtE".toList, "\n \n".toList, "name:".toList, by decide, by decide,
      by simp [isBlank]⟩
  have hname : Marked "name".toList "late # dAtE\n \n:name:".toList :=
    ⟨"late # dAtE\n \n:".toList, "name".toList, [], [], by decide, by decide, nofun⟩
  have hheaded : Headed
      (['\n'].intercalate ((lines "late # dAtE\r\n \n:name:\nmore\n".toList).take 3)) := by
    rw [hhead]
    exact ⟨hname, hdate, .inr (.inr (by decide))⟩
  have hpasses : check.passed = true := hpassed.2 hheaded
  exact ⟨check, hall, hpasses, halike "late # dAtE\n \n:name:\n" (by decide),
    hmore hpasses 9 (by decide)⟩

/-! ### Documentation -/

/-- A place at the beginning of a text or right behind a line feed. -/
def LineStart (text : List Char) (place : ℕ) : Prop :=
  place = 0 ∨ ∃ feed, place = feed + 1 ∧ text[feed]? = some '\n'

/-- Three quotes of one kind. -/
def fence (quote : Char) : List Char := [quote, quote, quote]

/-- A documentation block: a fence with nothing but blanks, of any number of lines, between it and
the start of some line, and another fence of the same kind behind it, with at least one character
between the two. -/
structure Block (text : List Char) (quote : Char) (start opening closing : ℕ) : Prop where
  line : LineStart text start
  behind : start ≤ opening
  blanks : ∀ place, start ≤ place → place < opening →
    ∃ c, text[place]? = some c ∧ isBlank c = true
  opens : fence quote <+: text.drop opening
  apart : opening + 4 ≤ closing
  closes : fence quote <+: text.drop closing

/-- The characters of a text before a place are blank. -/
def BlankBefore (text : List Char) (place : ℕ) : Prop :=
  ∀ before < place, ∃ c, text[before]? = some c ∧ isBlank c = true

/-- The first character that is not blank is where the blanks end. -/
theorem dropBlank_eq_drop {text : List Char} {place : ℕ} (hblanks : BlankBefore text place)
    (hstop : ∀ c, (text.drop place).head? = some c → isBlank c = false) :
    dropBlank text = text.drop place := by
  have htake : ∀ c ∈ text.take place, isBlank c = true := by
    intro c hc
    obtain ⟨before, hbefore⟩ := List.mem_iff_getElem?.1 hc
    rw [List.getElem?_take] at hbefore
    split at hbefore
    next hlt =>
      obtain ⟨d, hd, hblank⟩ := hblanks before hlt
      rwa [Option.some.inj (hbefore.symm.trans hd)]
    next => cases hbefore
  have hsplit := dropBlank_append htake hstop
  rwa [List.take_append_drop] at hsplit

theorem exists_dropBlank_eq_drop (text : List Char) :
    ∃ place, BlankBefore text place ∧ dropBlank text = text.drop place := by
  obtain ⟨blanks, htext, hblanks, -⟩ := exists_dropBlank text
  refine ⟨blanks.length, fun before hlt => ?_, ?_⟩
  · have hchar : text[before]? = some blanks[before] := by
      rw [htext, List.getElem?_append_left hlt, List.getElem?_eq_getElem hlt]
    exact ⟨_, hchar, hblanks _ (List.getElem_mem hlt)⟩
  · have hdrop : (blanks ++ dropBlank text).drop blanks.length = dropBlank text := List.drop_left
    rw [← htext] at hdrop
    exact hdrop.symm

/-- A text stands somewhere behind the first elements of another exactly if it stands at a later
place. -/
theorem occursIn_drop_iff {needle text : List Char} {skip : ℕ} :
    occursIn needle (text.drop skip) = true ↔
      ∃ place, skip ≤ place ∧ needle <+: text.drop place := by
  rw [occursIn_iff]
  constructor
  · rintro ⟨before, after, h⟩
    refine ⟨skip + before.length, Nat.le_add_right _ _, after, ?_⟩
    rw [← List.drop_drop, h, List.append_assoc, List.drop_left]
  · rintro ⟨place, hle, after, h⟩
    refine ⟨(text.drop skip).take (place - skip), after, ?_⟩
    have hplace : skip + (place - skip) = place := by omega
    have hrest : (text.drop skip).drop (place - skip) = needle ++ after := by
      rw [List.drop_drop, hplace, h]
    rw [List.append_assoc, ← hrest, List.take_append_drop]

/-- A block opens where the blanks end, and closes at a fence that is further on. -/
theorem opensBlock_iff {quote : Char} (hquote : isBlank quote = false) {text : List Char} :
    opensBlock quote text = true ↔
      ∃ opening closing, BlankBefore text opening ∧ fence quote <+: text.drop opening ∧
        opening + 4 ≤ closing ∧ fence quote <+: text.drop closing := by
  have hopens : ∀ place, dropBlank text = text.drop place → (opensBlock quote text = true ↔
      fence quote <+: text.drop place ∧
        ∃ closing, place + 4 ≤ closing ∧ fence quote <+: text.drop closing) := by
    intro place hplace
    rw [← occursIn_drop_iff, ← List.drop_drop, ← hplace, ← List.isPrefixOf_iff_prefix,
      ← Bool.and_eq_true]
    rfl
  constructor
  · intro h
    obtain ⟨opening, hblanks, hdrop⟩ := exists_dropBlank_eq_drop text
    obtain ⟨hopening, closing, hle, hclosing⟩ := (hopens opening hdrop).1 h
    exact ⟨opening, closing, hblanks, hopening, hle, hclosing⟩
  · rintro ⟨opening, closing, hblanks, hopening, hle, hclosing⟩
    have hdrop : dropBlank text = text.drop opening := by
      refine dropBlank_eq_drop hblanks fun c hc => ?_
      obtain ⟨after, hafter⟩ := hopening
      rw [← hafter] at hc
      obtain rfl : quote = c := Option.some.inj hc
      exact hquote
    exact (hopens opening hdrop).2 ⟨hopening, closing, hle, hclosing⟩

theorem hasBlockBehindFeed_iff {text : List Char} : hasBlockBehindFeed text = true ↔
    ∃ feed, text[feed]? = some '\n' ∧ opensAnyBlock (text.drop (feed + 1)) = true := by
  induction text with
  | nil => simp [hasBlockBehindFeed]
  | cons c rest ih =>
    rw [hasBlockBehindFeed, Bool.or_eq_true, Bool.and_eq_true, decide_eq_true_eq, ih]
    constructor
    · rintro (⟨rfl, hopens⟩ | ⟨feed, hfeed, hopens⟩)
      · exact ⟨0, rfl, hopens⟩
      · exact ⟨feed + 1, hfeed, hopens⟩
    · rintro ⟨feed, hfeed, hopens⟩
      cases feed with
      | zero => exact .inl ⟨Option.some.inj hfeed, hopens⟩
      | succ feed => exact .inr ⟨feed, hfeed, hopens⟩

theorem hasBlock_iff_start {text : List Char} : hasBlock text = true ↔
    ∃ start, LineStart text start ∧ opensAnyBlock (text.drop start) = true := by
  rw [hasBlock, Bool.or_eq_true, hasBlockBehindFeed_iff]
  constructor
  · rintro (hopens | ⟨feed, hfeed, hopens⟩)
    · exact ⟨0, .inl rfl, hopens⟩
    · exact ⟨feed + 1, .inr ⟨feed, rfl, hfeed⟩, hopens⟩
  · rintro ⟨start, rfl | ⟨feed, rfl, hfeed⟩, hopens⟩
    · exact .inl hopens
    · exact .inr ⟨feed, hfeed, hopens⟩

/-- A block of one kind that opens behind a start of a line, by its places in the whole text. -/
theorem opensBlock_drop_iff {quote : Char} (hquote : isBlank quote = false) {text : List Char}
    {start : ℕ} (hstart : LineStart text start) :
    opensBlock quote (text.drop start) = true ↔
      ∃ opening closing, Block text quote start opening closing := by
  rw [opensBlock_iff hquote]
  constructor
  · rintro ⟨opening, closing, hblanks, hopening, hle, hclosing⟩
    rw [List.drop_drop] at hopening hclosing
    refine ⟨start + opening, start + closing, hstart, Nat.le_add_right _ _,
      fun place hfrom hto => ?_, hopening, by omega, hclosing⟩
    obtain ⟨c, hc, hblank⟩ := hblanks (place - start) (by omega)
    have hplace : start + (place - start) = place := by omega
    rw [List.getElem?_drop, hplace] at hc
    exact ⟨c, hc, hblank⟩
  · rintro ⟨opening, closing, h⟩
    have hbehind := h.behind
    have hapart := h.apart
    have hopening : start + (opening - start) = opening := by omega
    have hclosing : start + (closing - start) = closing := by omega
    refine ⟨opening - start, closing - start, fun place hlt => ?_, ?_, by omega, ?_⟩
    · rw [List.getElem?_drop]
      exact h.blanks (start + place) (Nat.le_add_right _ _) (by omega)
    · rw [List.drop_drop, hopening]
      exact h.opens
    · rw [List.drop_drop, hclosing]
      exact h.closes

theorem hasBlock_iff {text : List Char} : hasBlock text = true ↔
    ∃ quote, (quote = '\"' ∨ quote = '\'') ∧
      ∃ start opening closing, Block text quote start opening closing := by
  have hdouble : isBlank '\"' = false := by decide
  have hsingle : isBlank '\'' = false := by decide
  rw [hasBlock_iff_start]
  constructor
  · rintro ⟨start, hstart, hopens⟩
    rw [opensAnyBlock, Bool.or_eq_true] at hopens
    rcases hopens with hopens | hopens
    · exact ⟨_, .inl rfl, start, (opensBlock_drop_iff hdouble hstart).1 hopens⟩
    · exact ⟨_, .inr rfl, start, (opensBlock_drop_iff hsingle hstart).1 hopens⟩
  · rintro ⟨quote, hquote, start, opening, closing, h⟩
    refine ⟨start, h.line, ?_⟩
    rw [opensAnyBlock, Bool.or_eq_true]
    rcases hquote with rfl | rfl
    · exact .inl ((opensBlock_drop_iff hdouble h.line).2 ⟨opening, closing, h⟩)
    · exact .inr ((opensBlock_drop_iff hsingle h.line).2 ⟨opening, closing, h⟩)

theorem isCommentLine_iff {line : List Char} :
    isCommentLine line = true ↔ ∃ c rest, Trims line ('#' :: c :: rest) := by
  simp only [trims_iff]
  unfold isCommentLine
  split
  next c rest h => exact ⟨fun _ => ⟨c, rest, h.symm⟩, fun _ => rfl⟩
  next h => exact ⟨nofun, fun ⟨c, rest, heq⟩ => absurd heq.symm (h c rest)⟩

/-- Comments are found exactly if some line without the blanks around it is the sign of a comment
with something behind it, or the text has a documentation block. -/
theorem comments_exact (fileName source : String) :
    ∃ check, commentChecks fileName (some source) = [check] ∧
      check.name = "Comments / pseudocode present (Week 1–2)" ∧
      (check.passed = true ↔
        (∃ line ∈ lines source.toList, ∃ c rest, Trims line ('#' :: c :: rest)) ∨
          ∃ quote, (quote = '\"' ∨ quote = '\'') ∧
            ∃ start opening closing, Block source.toList quote start opening closing) := by
  refine ⟨_, rfl, rfl, ?_⟩
  change hasComment source.toList = true ↔ _
  rw [hasComment, Bool.or_eq_true, List.any_eq_true, hasBlock_iff]
  simp only [isCommentLine_iff]

/-- A fence of six quotes holds nothing, one of seven holds a quote, and the other kind closes
neither. -/
example : hasComment "\"\"\"\"\"\"".toList = false ∧ hasComment "\"\"\"\"\"\"\"".toList = true ∧
    hasComment "\"\"\"a'''".toList = false := by decide

/-! ### Long lines -/

/-- The numbers of lines, counted from one, that are longer than allowed, in their order. -/
structure Numbers (limit : ℕ) (others : List (List Char)) (numbers : List ℕ) : Prop where
  rising : numbers.Pairwise (· < ·)
  mem_iff : ∀ number, number ∈ numbers ↔
    1 ≤ number ∧ ∃ line, others[number - 1]? = some line ∧ limit < line.length

/-- The numbers are those of all lines, less those that are short enough. -/
theorem longLines_sublist (limit : ℕ) (source : List Char) :
    (longLines limit source).Sublist (List.range' 1 (lines source).length) := by
  have hfilter : longLines limit source =
      (((lines source).zipIdx 1).filter fun entry => limit < entry.1.length).map Prod.snd := by
    rw [longLines, ← List.filterMap_eq_filter, List.map_filterMap]
    refine List.filterMap_congr fun entry _ => ?_
    by_cases hlong : limit < entry.1.length <;> simp [hlong]
  have hall : ((lines source).zipIdx 1).map Prod.snd = List.range' 1 (lines source).length :=
    List.zipIdx_map_snd 1 _
  rw [hfilter, ← hall]
  exact List.filter_sublist.map Prod.snd

theorem numbers_longLines (limit : ℕ) (source : List Char) :
    Numbers limit (lines source) (longLines limit source) := by
  constructor
  · have hrange : (List.range' 1 (lines source).length).Pairwise (· < ·) :=
      List.pairwise_lt_range'
    exact hrange.sublist (longLines_sublist limit source)
  · intro number
    rw [longLines, List.mem_filterMap]
    constructor
    · rintro ⟨⟨line, own⟩, hm, hlong⟩
      obtain ⟨hone, hline⟩ := List.mk_mem_zipIdx_iff_le_and_getElem?_sub.1 hm
      split at hlong
      next h =>
        obtain rfl : own = number := Option.some.inj hlong
        exact ⟨hone, line, hline, h⟩
      next => cases hlong
    · rintro ⟨hone, line, hline, hlong⟩
      have hm : (line, number) ∈ (lines source).zipIdx 1 :=
        List.mk_mem_zipIdx_iff_le_and_getElem?_sub.2 ⟨hone, hline⟩
      exact ⟨(line, number), hm, if_pos hlong⟩

/-- No line has a number exactly if none is too long. -/
theorem Numbers.eq_nil_iff {limit : ℕ} {others : List (List Char)} {numbers : List ℕ}
    (h : Numbers limit others numbers) :
    numbers = [] ↔ ∀ line ∈ others, line.length ≤ limit := by
  rw [List.eq_nil_iff_forall_not_mem]
  constructor
  · intro hnone line hm
    by_contra hlong
    obtain ⟨place, hplace⟩ := List.mem_iff_getElem?.1 hm
    exact hnone (place + 1) ((h.mem_iff _).2 ⟨Nat.le_add_left _ _, line, hplace, by omega⟩)
  · intro hshort number hm
    obtain ⟨-, line, hline, hlong⟩ := (h.mem_iff number).1 hm
    have hle := hshort line (List.mem_of_getElem? hline)
    omega

/-- Behind a closing bracket, dots are seen exactly if they are put there. -/
theorem dots_suffix_iff (opening : String) (many : Prop) [Decidable many] :
    "...".toList <:+ (opening ++ "]" ++ if many then "..." else "").toList ↔ many := by
  rw [String.toList_append, String.toList_append]
  by_cases hmany : many
  · rw [if_pos hmany]
    exact ⟨fun _ => hmany, fun _ => List.suffix_append _ _⟩
  · rw [if_neg hmany]
    refine ⟨fun h => ?_, fun h => absurd h hmany⟩
    obtain ⟨front, hfront⟩ := h
    have hlast := congrArg List.getLast? hfront
    simp at hlast

section

variable {settings : Settings} {fileName source : String} {check : Check}

theorem exists_lineLengthCheck (settings : Settings) (fileName source : String) :
    ∃ check, lineLengthChecks settings fileName (some source) = [check] := by
  unfold lineLengthChecks
  dsimp only
  cases longLines settings.lineLimit source.toList <;> exact ⟨_, rfl⟩

/-- The one check on the length of lines passes without a word, or fails with the numbers. -/
theorem lineLength_cases (h : lineLengthChecks settings fileName (some source) = [check]) :
    check.name = "Line length ≤ " ++ toString settings.lineLimit ++ " chars" ∧
      (longLines settings.lineLimit source.toList = [] ∧ check.passed = true ∨
        longLines settings.lineLimit source.toList ≠ [] ∧ check.passed = false ∧
          check.message =
            longLinesMessage settings.lineLimit (longLines settings.lineLimit source.toList)) := by
  unfold lineLengthChecks at h
  dsimp only at h
  cases hlong : longLines settings.lineLimit source.toList with
  | nil =>
    rw [hlong] at h
    obtain rfl := (List.cons.inj h).1
    exact ⟨rfl, .inl ⟨rfl, rfl⟩⟩
  | cons number rest =>
    rw [hlong] at h
    obtain rfl := (List.cons.inj h).1
    exact ⟨rfl, .inr ⟨List.cons_ne_nil number rest, rfl, rfl⟩⟩

/-- The check passes exactly if no line is too long. -/
theorem lineLength_passed_iff (h : lineLengthChecks settings fileName (some source) = [check]) :
    check.passed = true ↔ ∀ line ∈ lines source.toList, line.length ≤ settings.lineLimit := by
  rw [← (numbers_longLines settings.lineLimit source.toList).eq_nil_iff]
  obtain ⟨-, ⟨hnone, hpassed⟩ | ⟨hsome, hfailed, -⟩⟩ := lineLength_cases h
  · exact ⟨fun _ => hnone, fun _ => hpassed⟩
  · have hnot : ¬ check.passed = true := Bool.eq_false_iff.1 hfailed
    exact ⟨fun hpassed => absurd hpassed hnot, fun hnone => absurd hnone hsome⟩

theorem lineLength_message (h : lineLengthChecks settings fileName (some source) = [check])
    (hfailed : check.passed = false) : check.message =
      longLinesMessage settings.lineLimit (longLines settings.lineLimit source.toList) := by
  obtain ⟨-, ⟨-, hpassed⟩ | ⟨-, -, hmessage⟩⟩ := lineLength_cases h
  · rw [hfailed] at hpassed
    cases hpassed
  · exact hmessage

end

/-- Lines pass exactly if none has more characters than allowed; a text has only one row of lines.
Otherwise the message gives the numbers of the first five of the lines that are too long, or of all
where there are fewer, and ends in dots exactly if there are more than five. What passes with some
limit passes with a larger one. -/
theorem lineLength_exact (settings : Settings) (fileName source : String) :
    (∀ others, Lined source.toList others ↔ others = lines source.toList) ∧
    ∃ check numbers, lineLengthChecks settings fileName (some source) = [check] ∧
      check.name = "Line length ≤ " ++ toString settings.lineLimit ++ " chars" ∧
      Numbers settings.lineLimit (lines source.toList) numbers ∧
      (check.passed = true ↔ ∀ line ∈ lines source.toList, line.length ≤ settings.lineLimit) ∧
      (check.passed = false →
        check.message = "Lines over " ++ toString settings.lineLimit ++ " chars: [" ++
            ", ".intercalate ((numbers.take (min 5 numbers.length)).map toString) ++ "]" ++
            (if 5 < numbers.length then "..." else "") ∧
          ("...".toList <:+ check.message.toList ↔ 5 < numbers.length)) ∧
      (check.passed = true → ∀ limit, settings.lineLimit ≤ limit →
        ∃ looser, lineLengthChecks { settings with lineLimit := limit } fileName (some source) =
            [looser] ∧ looser.passed = true) := by
  obtain ⟨check, hcheck⟩ := exists_lineLengthCheck settings fileName source
  refine ⟨fun others => lined_iff, check, longLines settings.lineLimit source.toList, hcheck,
    (lineLength_cases hcheck).1, numbers_longLines _ _, lineLength_passed_iff hcheck,
    fun hfailed => ?_, fun hpassed limit hle => ?_⟩
  · rw [lineLength_message hcheck hfailed, ← List.take_eq_take_min]
    exact ⟨rfl, dots_suffix_iff _ _⟩
  · obtain ⟨looser, hlooser⟩ :=
      exists_lineLengthCheck { settings with lineLimit := limit } fileName source
    refine ⟨looser, hlooser, (lineLength_passed_iff hlooser).2 fun line hm => ?_⟩
    exact ((lineLength_passed_iff hcheck).1 hpassed line hm).trans hle

/-- Six long lines are too many to be listed, and none is long for a larger limit. -/
theorem lineLength_exact_six :
    (∃ check, lineLengthChecks { Settings.standard with lineLimit := 1 } "chatbot.py"
        (some "ab\r\nab\nab\né\nab\nab\nab") = [check] ∧ check.passed = false ∧
      "...".toList <:+ check.message.toList) ∧
    ∃ looser, lineLengthChecks { Settings.standard with lineLimit := 80 } "chatbot.py"
        (some "ab\r\nab\nab\né\nab\nab\nab") = [looser] ∧ looser.passed = true := by
  have hlines : lines "ab\r\nab\nab\né\nab\nab\nab".toList =
      [['a', 'b'], ['a', 'b'], ['a', 'b'], ['é'], ['a', 'b'], ['a', 'b'], ['a', 'b']] := by decide
  constructor
  · obtain ⟨-, check, numbers, hall, -, hnumbers, hpassed, hfailed, -⟩ := lineLength_exact
      { Settings.standard with lineLimit := 1 } "chatbot.py" "ab\r\nab\nab\né\nab\nab\nab"
    have hfails : check.passed = false := by
      refine Bool.eq_false_iff.2 fun hpasses => ?_
      have hshort := hpassed.1 hpasses ['a', 'b'] (by rw [hlines]; decide)
      exact absurd hshort (by decide)
    have hlisted : [1, 2, 3, 5, 6, 7] ⊆ numbers := by
      intro number hm
      rw [hnumbers.mem_iff, hlines]
      have hfound : ∀ number ∈ [1, 2, 3, 5, 6, 7], 1 ≤ number ∧
          ([['a', 'b'], ['a', 'b'], ['a', 'b'], ['é'], ['a', 'b'], ['a', 'b'], ['a', 'b']] :
            List (List Char))[number - 1]? = some ['a', 'b'] := by decide
      exact ⟨(hfound number hm).1, ['a', 'b'], (hfound number hm).2, by decide⟩
    have hmany : 5 < numbers.length := by
      have hdistinct : [1, 2, 3, 5, 6, 7].Nodup := by decide
      exact (hdistinct.subperm hlisted).length_le
    exact ⟨check, hall, hfails, (hfailed hfails).2.2 hmany⟩
  · obtain ⟨-, check, -, -, -, -, hpassed, -, hlooser⟩ := lineLength_exact
      { Settings.standard with lineLimit := 2 } "chatbot.py" "ab\r\nab\nab\né\nab\nab\nab"
    exact hlooser (hpassed.2 (by rw [hlines]; decide)) 80 (by decide)

end Marksheet.Rubric
