import Mathlib
import Marksheet.Grammar.Program

/-!
# Adjacent string literals

Plain literals that stand behind one another make one plain string of their
texts. With a literal among them that has fields, they make a string that shows
the same characters and interpolations in the same order. It is the string of a
single literal unless text that a literal with fields begins with stands behind
other text: that one is not joined to the text before it, where the text of a
plain literal is.
-/

namespace Marksheet.Syntax

/-- Elements of one kind end where one of another kind begins. -/
theorem map_append_inj {α β : Type} {f : α → β} (hf : f.Injective) {front front' : List α}
    {behind behind' : List β} (hbehind : ∀ a, behind.head? ≠ some (f a))
    (hbehind' : ∀ a, behind'.head? ≠ some (f a))
    (h : front.map f ++ behind = front'.map f ++ behind') : front = front' ∧ behind = behind' := by
  induction front generalizing front' with
  | nil =>
    cases front' with
    | nil => exact ⟨rfl, h⟩
    | cons a front' => exact absurd (congrArg List.head? h) (hbehind a)
  | cons a front ih =>
    cases front' with
    | nil => exact absurd (congrArg List.head? h).symm (hbehind' a)
    | cons b front' =>
      obtain ⟨hab, hrest⟩ := List.cons.inj h
      obtain ⟨rfl, hbehind⟩ := ih hrest
      exact ⟨by rw [hf hab], hbehind⟩

/-! ### The parts of a string -/

/-- The part is text. -/
def FStringPart.IsText : FStringPart → Prop
  | .literal _ => True
  | .interpolation .. => False

/-- The text of a part; an interpolation has none. -/
def FStringPart.text : FStringPart → String
  | .literal text => text
  | .interpolation .. => ""

/-- What a part shows: its characters, or an interpolation. -/
def FStringPart.shown : FStringPart → List (Char ⊕ FStringPart)
  | .literal text => text.toList.map .inl
  | .interpolation value conversion spec => [.inr (.interpolation value conversion spec)]

/-- What parts show, without regard to how their text is split. -/
def shown (parts : List FStringPart) : List (Char ⊕ FStringPart) :=
  parts.flatMap FStringPart.shown

/-- No text stands directly behind other text. -/
def Apart (parts : List FStringPart) : Prop :=
  parts.IsChain fun first second => ¬ (first.IsText ∧ second.IsText)

/-- The first part is text. -/
def BeginsInText (parts : List FStringPart) : Prop := ∃ part ∈ parts.head?, part.IsText

/-- The last part is text. -/
def EndsInText (parts : List FStringPart) : Prop := ∃ part ∈ parts.getLast?, part.IsText

section

variable {parts others : List FStringPart} {text : String}

@[simp] theorem isText_literal : (FStringPart.literal text).IsText := trivial

@[simp] theorem not_isText_interpolation {value : Expr} {conversion : Option Char}
    {spec : Option String} : ¬ (FStringPart.interpolation value conversion spec).IsText := id

theorem shown_append : shown (parts ++ others) = shown parts ++ shown others :=
  List.flatMap_append

theorem shown_cons {part : FStringPart} : shown (part :: parts) = part.shown ++ shown parts :=
  List.flatMap_cons

theorem apart_append : Apart (parts ++ others) ↔
    Apart parts ∧ Apart others ∧ ¬ (EndsInText parts ∧ BeginsInText others) := by
  rw [Apart, List.isChain_append]
  refine and_congr_right fun _ => and_congr_right fun _ => ⟨?_, ?_⟩
  · rintro hpairs ⟨⟨last, hlast, htext⟩, first, hfirst, htext'⟩
    exact hpairs last hlast first hfirst ⟨htext, htext'⟩
  · exact fun hno last hlast first hfirst ⟨htext, htext'⟩ =>
      hno ⟨⟨last, hlast, htext⟩, first, hfirst, htext'⟩

theorem apart_cons {part : FStringPart} :
    Apart (part :: parts) ↔ Apart parts ∧ ¬ (part.IsText ∧ BeginsInText parts) := by
  rw [← List.singleton_append, apart_append]
  simp [Apart, EndsInText]

@[simp] theorem beginsInText_cons {part : FStringPart} :
    BeginsInText (part :: parts) ↔ part.IsText := by
  simp [BeginsInText]

theorem endsInText_cons {part : FStringPart} :
    EndsInText (part :: parts) ↔ (parts = [] ∧ part.IsText) ∨ EndsInText parts := by
  cases parts with
  | nil => simp [EndsInText]
  | cons next more => simp [EndsInText]

theorem endsInText_append (h : others ≠ []) : EndsInText (parts ++ others) ↔ EndsInText others := by
  rw [EndsInText, EndsInText, List.getLast?_append_of_ne_nil _ h]

theorem head_shown (h : ¬ BeginsInText parts) (c : Char) : (shown parts).head? ≠ some (.inl c) := by
  rcases parts with _ | ⟨first | ⟨value, conversion, spec⟩, more⟩
  · exact nofun
  · exact absurd ⟨_, rfl, trivial⟩ h
  · simp [shown, FStringPart.shown]

theorem shown_literal (h : FStringPart.literal "" ∉ .literal text :: parts) :
    ∃ c, (shown (.literal text :: parts)).head? = some (.inl c) := by
  have hsome : text.toList ≠ [] := by
    intro hempty
    obtain rfl := String.toList_eq_nil_iff.1 hempty
    exact h List.mem_cons_self
  obtain ⟨c, more, hmore⟩ := List.exists_cons_of_ne_nil hsome
  exact ⟨c, by simp [shown, FStringPart.shown, hmore]⟩

/-- Parts that show the same are the same if no text is empty and none stands behind other text. -/
theorem eq_of_shown_eq (hparts : Apart parts) (hothers : Apart others)
    (hsome : FStringPart.literal "" ∉ parts) (hsome' : FStringPart.literal "" ∉ others)
    (h : shown parts = shown others) : parts = others := by
  induction parts generalizing others with
  | nil =>
    rcases others with _ | ⟨first | ⟨value, conversion, spec⟩, more⟩
    · rfl
    · obtain ⟨c, hc⟩ := shown_literal hsome'
      rw [← h] at hc
      cases hc
    · cases h
  | cons part parts ih =>
    obtain ⟨hapart, hpart⟩ := apart_cons.1 hparts
    have hrest : FStringPart.literal "" ∉ parts := fun hm => hsome (List.mem_cons_of_mem _ hm)
    rcases others with _ | ⟨other, others⟩
    · rcases part with text | ⟨value, conversion, spec⟩
      · obtain ⟨c, hc⟩ := shown_literal hsome
        rw [h] at hc
        cases hc
      · cases h
    obtain ⟨hapart', hother⟩ := apart_cons.1 hothers
    have hrest' : FStringPart.literal "" ∉ others := fun hm => hsome' (List.mem_cons_of_mem _ hm)
    rcases part with text | ⟨value, conversion, spec⟩ <;>
      rcases other with text' | ⟨value', conversion', spec'⟩
    · have hbehind (parts : List FStringPart) (hapart : ¬ (True ∧ BeginsInText parts)) (c : Char) :
          (shown parts).head? ≠ some (.inl c) := head_shown (by simpa using hapart) c
      obtain ⟨htext, hmore⟩ := map_append_inj Sum.inl_injective (hbehind parts hpart)
        (hbehind others hother) h
      rw [String.toList_injective htext, ih hapart hapart' hrest hrest' hmore]
    · obtain ⟨c, hc⟩ := shown_literal hsome
      rw [h] at hc
      cases hc
    · obtain ⟨c, hc⟩ := shown_literal hsome'
      rw [← h] at hc
      cases hc
    · obtain ⟨hfield, hmore⟩ := List.cons.inj h
      rw [Sum.inr.inj hfield, ih hapart hapart' hrest hrest' hmore]

/-! ### Text before and behind parts -/

/-- Literal text before the parts of a string. -/
def addLiteral (text : String) : List FStringPart → List FStringPart
  | .literal next :: more => .literal (text ++ next) :: more
  | parts => .literal text :: parts

/-- Text is put before text, or is a part of its own. -/
theorem addLiteral_cases (text : String) (parts : List FStringPart) :
    (∃ next more, parts = .literal next :: more ∧
      addLiteral text parts = .literal (text ++ next) :: more) ∨
    (¬ BeginsInText parts ∧ addLiteral text parts = .literal text :: parts) := by
  rcases parts with _ | ⟨first | ⟨value, conversion, spec⟩, more⟩
  · exact .inr ⟨by simp [BeginsInText], rfl⟩
  · exact .inl ⟨first, more, rfl, rfl⟩
  · exact .inr ⟨by simp [BeginsInText], rfl⟩

/-- Text is put behind text, or is a part of its own. -/
theorem pushLiteral_cases (parts : List FStringPart) (text : String) :
    (∃ init last, parts = init ++ [.literal last] ∧
      pushLiteral parts text = init ++ [.literal (last ++ text)]) ∨
    (¬ EndsInText parts ∧ pushLiteral parts text = parts ++ [.literal text]) := by
  rcases List.eq_nil_or_concat' parts with rfl | ⟨init, last | ⟨value, conversion, spec⟩, rfl⟩
  · exact .inr ⟨by simp [EndsInText], rfl⟩
  · exact .inl ⟨init, last, rfl, by simp [pushLiteral]⟩
  · exact .inr ⟨by simp [EndsInText], by simp [pushLiteral]⟩

end

/-! ### One literal -/

/-- A string literal as it is written: whether it has fields, whether its backslashes stand for
themselves, and what stands between its quotes. -/
structure StringLiteral where
  format : Bool
  raw : Bool
  inside : List TextPart

namespace StringLiteral

/-- The phrase of a literal. -/
def phrase (literal : StringLiteral) : Phrase :=
  .string literal.format literal.raw literal.inside

/-- What one part between the quotes stands for. -/
def part (literal : StringLiteral) : TextPart → FStringPart
  | .content text => .literal (contentText literal.format literal.raw text)
  | .field value conversion spec =>
    .interpolation value.expr conversion (spec.map dropLineEnds)

/-- The text of a plain literal. -/
def text (literal : StringLiteral) : String :=
  String.join (literal.inside.map fun inner => (literal.part inner).text)

/-- What a literal adds to those before it: one text if it is plain, or else its parts. -/
def own (literal : StringLiteral) : List FStringPart :=
  if literal.format then literal.inside.map literal.part else [.literal literal.text]

end StringLiteral

section

variable {literal : StringLiteral}

theorem own_of_plain (h : literal.format = false) : literal.own = [.literal literal.text] := by
  rw [StringLiteral.own, h]
  rfl

theorem own_of_format (h : literal.format = true) :
    literal.own = literal.inside.map literal.part := by
  rw [StringLiteral.own, h]
  rfl

/-- The parts of a literal with fields: what stands between its quotes, with text joined to text. -/
structure Merges (own parts : List FStringPart) : Prop where
  apart : Apart parts
  shown_eq : shown parts = shown own
  begins_iff : BeginsInText parts ↔ BeginsInText own
  ends_iff : EndsInText parts ↔ EndsInText own
  nil_iff : parts = [] ↔ own = []
  /-- An empty text comes from an empty text. -/
  empty_mem : .literal "" ∈ parts → .literal "" ∈ own

theorem Merges.text {own parts : List FStringPart} (h : Merges own parts) (text : String) :
    Merges (.literal text :: own) (addLiteral text parts) := by
  rcases addLiteral_cases text parts with ⟨next, more, rfl, hadd⟩ | ⟨hbegins, hadd⟩
  · rw [hadd]
    have hown : own ≠ [] := fun hnil => absurd (h.nil_iff.2 hnil) (List.cons_ne_nil _ _)
    refine ⟨?_, ?_, by simp, ?_, by simp, ?_⟩
    · simpa [apart_cons] using h.apart
    · have hshown : shown own = next.toList.map .inl ++ shown more := by
        rw [← h.shown_eq, shown_cons]
        rfl
      rw [shown_cons, shown_cons, hshown]
      simp [FStringPart.shown]
    · rw [endsInText_cons, endsInText_cons, ← h.ends_iff, endsInText_cons]
      simp [hown]
    · intro hm
      rcases List.mem_cons.1 hm with hempty | hm
      · obtain ⟨rfl, -⟩ := String.append_eq_empty_iff.1 (FStringPart.literal.inj hempty).symm
        exact List.mem_cons_self
      · exact List.mem_cons_of_mem _ (h.empty_mem (List.mem_cons_of_mem _ hm))
  · rw [hadd]
    refine ⟨?_, ?_, by simp, ?_, by simp, ?_⟩
    · exact apart_cons.2 ⟨h.apart, fun hboth => hbegins hboth.2⟩
    · rw [shown_cons, shown_cons, h.shown_eq]
    · rw [endsInText_cons, endsInText_cons, h.ends_iff, h.nil_iff]
    · intro hm
      rcases List.mem_cons.1 hm with hempty | hm
      · exact hempty ▸ List.mem_cons_self
      · exact List.mem_cons_of_mem _ (h.empty_mem hm)

theorem Merges.field {own parts : List FStringPart} {field : FStringPart} (h : Merges own parts)
    (hfield : ¬ field.IsText) : Merges (field :: own) (field :: parts) where
  apart := apart_cons.2 ⟨h.apart, fun hboth => hfield hboth.1⟩
  shown_eq := by rw [shown_cons, shown_cons, h.shown_eq]
  begins_iff := by simp
  ends_iff := by rw [endsInText_cons, endsInText_cons, h.ends_iff, h.nil_iff]
  nil_iff := by simp
  empty_mem := by
    intro hm
    rcases List.mem_cons.1 hm with hempty | hm
    · exact hempty ▸ List.mem_cons_self
    · exact List.mem_cons_of_mem _ (h.empty_mem hm)

theorem textParts_content (format raw : Bool) (text : String) (rest : List TextPart) :
    textParts format raw (.content text :: rest) =
      addLiteral (contentText format raw text) (textParts format raw rest) := by
  rw [textParts]
  cases textParts format raw rest with
  | nil => rfl
  | cons part parts => cases part <;> rfl

/-- The parts of a literal are what stands between its quotes, with text joined to text. -/
theorem merges_textParts (literal : StringLiteral) (inside : List TextPart) :
    Merges (inside.map literal.part) (textParts literal.format literal.raw inside) := by
  induction inside with
  | nil => exact ⟨List.isChain_nil, rfl, Iff.rfl, Iff.rfl, Iff.rfl, id⟩
  | cons inner inside ih =>
    cases inner with
    | content text =>
      rw [textParts_content]
      exact ih.text _
    | field value conversion spec =>
      rw [textParts]
      exact ih.field id

theorem expr_of_format (h : literal.format = true) : literal.phrase.expr =
    .fstring (textParts literal.format literal.raw literal.inside) := by
  rw [StringLiteral.phrase, Phrase.expr, h]
  rfl

theorem literalText_eq (parts : List FStringPart) :
    literalText parts = String.join (parts.map FStringPart.text) := by
  have hstep : (fun (text : String) (part : FStringPart) => match part with
      | .literal value => text ++ value
      | .interpolation .. => text) = fun text part => text ++ part.text := by
    funext text part
    cases part with
    | literal value => rfl
    | interpolation value conversion spec => exact String.append_empty.symm
  rw [String.join, List.foldl_map]
  exact congrArg (fun step => parts.foldl step "") hstep

theorem literalText_addLiteral (text : String) (parts : List FStringPart) :
    literalText (addLiteral text parts) = text ++ literalText parts := by
  rw [literalText_eq, literalText_eq]
  rcases addLiteral_cases text parts with ⟨next, more, rfl, hadd⟩ | ⟨-, hadd⟩
  · rw [hadd, List.map_cons, List.map_cons, String.join_cons, String.join_cons]
    exact String.append_assoc
  · rw [hadd, List.map_cons, String.join_cons]
    rfl

/-- A plain literal stands for its text. -/
theorem expr_of_plain (h : literal.format = false) : literal.phrase.expr = .str literal.text := by
  have htext (inside : List TextPart) :
      literalText (textParts literal.format literal.raw inside) =
        String.join (inside.map fun inner => (literal.part inner).text) := by
    induction inside with
    | nil => rfl
    | cons inner inside ih =>
      rw [List.map_cons, String.join_cons, ← ih]
      cases inner with
      | content text =>
        rw [textParts_content, literalText_addLiteral]
        rfl
      | field value conversion spec =>
        rw [textParts, literalText_eq, List.map_cons, String.join_cons, ← literalText_eq]
        rfl
  rw [StringLiteral.phrase, Phrase.expr, h, StringLiteral.text, ← htext, h]
  rfl

end

/-! ### Literals one behind the other -/

/-- The literals that show something. -/
def filled (literals : List StringLiteral) : List StringLiteral :=
  literals.filter fun literal => !literal.own.isEmpty

/-- The last literal that shows something ends in text. -/
def LeavesText (literals : List StringLiteral) : Prop :=
  ∃ last ∈ (filled literals).getLast?, EndsInText last.own

/-- No literal with fields begins with text directly behind text. -/
def Separate (literals : List StringLiteral) : Prop :=
  (filled literals).IsChain fun first second =>
    ¬ (EndsInText first.own ∧ second.format = true ∧ BeginsInText second.own)

section

variable {literals : List StringLiteral} {literal : StringLiteral} {parts : List FStringPart}

theorem filled_concat_of_nil (literals : List StringLiteral) (h : literal.own = []) :
    filled (literals ++ [literal]) = filled literals := by
  simp [filled, h]

theorem filled_concat (h : literal.own ≠ []) :
    filled (literals ++ [literal]) = filled literals ++ [literal] := by
  simp [filled, h]

theorem leavesText_concat (h : literal.own ≠ []) :
    LeavesText (literals ++ [literal]) ↔ EndsInText literal.own := by
  simp [LeavesText, filled_concat h]

theorem separate_concat (h : literal.own ≠ []) : Separate (literals ++ [literal]) ↔
    Separate literals ∧
      ¬ (LeavesText literals ∧ literal.format = true ∧ BeginsInText literal.own) := by
  rw [Separate, filled_concat h, List.isChain_append, Separate, LeavesText]
  simp

/-- What literals add to each other: everything is shown in its order, and text is split exactly
where a literal with fields begins with text behind text. -/
structure Joins (literals : List StringLiteral) (parts : List FStringPart) : Prop where
  shown_eq : shown parts = shown (literals.flatMap StringLiteral.own)
  apart_iff : Apart parts ↔ Separate literals
  ends_iff : EndsInText parts ↔ LeavesText literals

theorem Joins.plain (h : Joins literals parts) (hplain : literal.format = false) :
    Joins (literals ++ [literal]) (pushLiteral parts literal.text) := by
  have hown := own_of_plain hplain
  have hsome : literal.own ≠ [] := by simp [hown]
  have hshown : shown ((literals ++ [literal]).flatMap StringLiteral.own) =
      shown parts ++ literal.text.toList.map .inl := by
    rw [List.flatMap_append, shown_append, ← h.shown_eq]
    simp [hown, shown, FStringPart.shown]
  have hapart : Separate (literals ++ [literal]) ↔ Apart parts := by
    rw [separate_concat hsome, hplain, h.apart_iff]
    simp
  have hends : LeavesText (literals ++ [literal]) := by
    rw [leavesText_concat hsome, hown]
    exact ⟨_, rfl, trivial⟩
  rcases pushLiteral_cases parts literal.text with ⟨init, last, rfl, hpush⟩ | ⟨hno, hpush⟩
  · rw [hpush]
    refine ⟨?_, ?_, iff_of_true ?_ hends⟩
    · rw [hshown, shown_append, shown_append, List.append_assoc]
      simp [shown, FStringPart.shown]
    · rw [hapart, apart_append, apart_append]
      simp [Apart]
    · exact (endsInText_append (List.cons_ne_nil _ _)).2 ⟨_, rfl, trivial⟩
  · rw [hpush]
    refine ⟨?_, ?_, iff_of_true ?_ hends⟩
    · rw [hshown, shown_append]
      simp [shown, FStringPart.shown]
    · rw [hapart, apart_append]
      simp [Apart, hno]
    · exact (endsInText_append (List.cons_ne_nil _ _)).2 ⟨_, rfl, trivial⟩

theorem Joins.format (h : Joins literals parts) (hformat : literal.format = true) :
    Joins (literals ++ [literal])
      (parts ++ textParts literal.format literal.raw literal.inside) := by
  have hmerges := merges_textParts literal literal.inside
  rw [← own_of_format hformat] at hmerges
  have hshown : shown (parts ++ textParts literal.format literal.raw literal.inside) =
      shown ((literals ++ [literal]).flatMap StringLiteral.own) := by
    rw [List.flatMap_append, shown_append, shown_append, h.shown_eq, hmerges.shown_eq,
      List.flatMap_singleton]
  by_cases hown : literal.own = []
  · have hfilled := filled_concat_of_nil literals hown
    have hnil := hmerges.nil_iff.2 hown
    refine ⟨hshown, ?_, ?_⟩
    · rw [hnil, List.append_nil, Separate, hfilled, h.apart_iff, Separate]
    · rw [hnil, List.append_nil, LeavesText, hfilled, h.ends_iff, LeavesText]
  · have hsome := mt hmerges.nil_iff.1 hown
    refine ⟨hshown, ?_, ?_⟩
    · rw [apart_append, separate_concat hown, h.apart_iff, h.ends_iff, hmerges.begins_iff,
        iff_true_intro hmerges.apart]
      simp only [hformat, true_and]
    · rw [endsInText_append hsome, hmerges.ends_iff, leavesText_concat hown]

/-- The parts that literals make when each is put behind those before it. -/
def joinedParts (literals : List StringLiteral) : List FStringPart :=
  (literals.map fun literal => literal.phrase.expr).foldl appendPiece []

theorem joins_joinedParts (literals : List StringLiteral) :
    Joins literals (joinedParts literals) := by
  induction literals using List.reverseRecOn with
  | nil =>
    refine ⟨rfl, iff_of_true List.isChain_nil List.isChain_nil, ?_⟩
    simp [joinedParts, EndsInText, LeavesText, filled]
  | append_singleton literals literal ih =>
    have hstep : joinedParts (literals ++ [literal]) =
        appendPiece (joinedParts literals) literal.phrase.expr := by
      simp [joinedParts]
    rw [hstep]
    cases hformat : literal.format with
    | false =>
      rw [expr_of_plain hformat]
      exact ih.plain hformat
    | true =>
      rw [expr_of_format hformat]
      exact ih.format hformat

theorem isStr_expr (literal : StringLiteral) : literal.phrase.expr.isStr = !literal.format := by
  cases hformat : literal.format with
  | false => rw [expr_of_plain hformat]; rfl
  | true => rw [expr_of_format hformat]; rfl

theorem expr_strings (literals : List StringLiteral) :
    (Phrase.strings (literals.map StringLiteral.phrase)).expr =
      joinStrings (literals.map fun literal => literal.phrase.expr) := by
  rw [Phrase.expr]
  congr 1
  induction literals with
  | nil => rfl
  | cons literal literals ih => rw [List.map_cons, List.map_cons, exprs, ih]

theorem joinStrings_of_plain (h : ∀ literal ∈ literals, literal.format = false) :
    joinStrings (literals.map fun literal => literal.phrase.expr) =
      .str (String.join (literals.map StringLiteral.text)) := by
  have hplain : (literals.map fun literal => literal.phrase.expr).all Expr.isStr = true := by
    rw [List.all_map, List.all_eq_true]
    intro literal hm
    rw [Function.comp_apply, isStr_expr, h literal hm]
    rfl
  have htexts : (literals.map fun literal => literal.phrase.expr).map Expr.strValue =
      literals.map StringLiteral.text := by
    rw [List.map_map]
    refine List.map_congr_left fun literal hm => ?_
    rw [Function.comp_apply, expr_of_plain (h literal hm)]
    rfl
  rw [joinStrings, if_pos hplain, htexts]

theorem joinStrings_of_format (h : ∃ literal ∈ literals, literal.format = true) :
    joinStrings (literals.map fun literal => literal.phrase.expr) =
      .fstring (joinedParts literals) := by
  obtain ⟨literal, hm, hformat⟩ := h
  have hfields : ¬ (literals.map fun literal => literal.phrase.expr).all Expr.isStr = true := by
    rw [List.all_map, List.all_eq_true]
    intro hall
    have hstr := hall literal hm
    rw [Function.comp_apply, isStr_expr, hformat] at hstr
    cases hstr
  rw [joinStrings, if_neg hfields, joinedParts]

end

/-- A literal with fields has no text behind text. Plain literals one behind the other are the
string of their texts. With one among them that has fields, they are a string that shows what they
show, in their order; it has no text behind text exactly if no literal with fields begins in text
behind text, and it is the string of a single literal that shows the same in texts that are not
empty exactly if, besides, it has no empty text. -/
theorem strings_exact (literals : List StringLiteral) :
    (∀ literal : StringLiteral, literal.format = true →
      ∃ parts, literal.phrase.expr = .fstring parts ∧ Apart parts) ∧
    ((∀ literal ∈ literals, literal.format = false) →
      (Phrase.strings (literals.map StringLiteral.phrase)).expr =
        .str (String.join (literals.map StringLiteral.text))) ∧
    ((∃ literal ∈ literals, literal.format = true) →
      ∃ parts, (Phrase.strings (literals.map StringLiteral.phrase)).expr = .fstring parts ∧
        shown parts = shown (literals.flatMap StringLiteral.own) ∧
        (Apart parts ↔ Separate literals) ∧
        ∀ single : StringLiteral, single.format = true → shown single.own = shown parts →
          .literal "" ∉ single.own →
          (single.phrase.expr = .fstring parts ↔ Apart parts ∧ .literal "" ∉ parts)) := by
  refine ⟨fun literal hformat => ⟨_, expr_of_format hformat, (merges_textParts _ _).apart⟩,
    fun hplain => (expr_strings literals).trans (joinStrings_of_plain hplain), fun hformat => ?_⟩
  have hjoins := joins_joinedParts literals
  refine ⟨joinedParts literals, (expr_strings literals).trans (joinStrings_of_format hformat),
    hjoins.shown_eq, hjoins.apart_iff, fun single hsingle hshown hsome => ?_⟩
  have hmerges := merges_textParts single single.inside
  rw [← own_of_format hsingle] at hmerges
  have hempty : .literal "" ∉ textParts single.format single.raw single.inside :=
    fun hm => hsome (hmerges.empty_mem hm)
  rw [expr_of_format hsingle, Expr.fstring.injEq]
  constructor
  · intro heq
    rw [← heq]
    exact ⟨hmerges.apart, hempty⟩
  · rintro ⟨hapart, hempty'⟩
    exact eq_of_shown_eq hmerges.apart hapart hempty hempty' (hmerges.shown_eq.trans hshown)

/-- A literal with fields, a plain one and another one with fields: no text is split. -/
theorem strings_exact_unsplit :
    (∃ literal ∈ [⟨true, false, [.content "a"]⟩, ⟨false, false, [.content "b"]⟩,
        (⟨true, false, [.field (.name "x") none none]⟩ : StringLiteral)], literal.format = true) ∧
      (Phrase.strings [.string true false [.content "a"], .string false false [.content "b"],
        .string true false [.field (.name "x") none none]]).expr =
      (Phrase.string true false [.content "ab", .field (.name "x") none none]).expr := by
  have hsome : ∃ literal ∈ [⟨true, false, [.content "a"]⟩, ⟨false, false, [.content "b"]⟩,
      (⟨true, false, [.field (.name "x") none none]⟩ : StringLiteral)], literal.format = true :=
    ⟨_, List.mem_cons_self, rfl⟩
  obtain ⟨parts, hparts, -, -, hsingle⟩ := (strings_exact _).2.2 hsome
  have hvalue : (Phrase.strings [.string true false [.content "a"],
      .string false false [.content "b"], .string true false [.field (.name "x") none none]]).expr =
      .fstring [.literal "ab", .interpolation (.name "x") none none] := by cbv
  obtain rfl : parts = [.literal "ab", .interpolation (.name "x") none none] :=
    Expr.fstring.inj (hparts.symm.trans hvalue)
  have hown : StringLiteral.own ⟨true, false, [.content "ab", .field (.name "x") none none]⟩ =
      [.literal "ab", .interpolation (.name "x") none none] := by cbv
  refine ⟨hsome, hvalue.trans ((hsingle ⟨true, false, _⟩ rfl (by rw [hown]) ?_).2 ⟨?_, ?_⟩).symm⟩
  · simp [hown]
  · simp [Apart]
  · simp

/-- Text that a literal with fields begins with is not joined to text before it, so the two literals
are not the string of any single one. -/
theorem parse_splits_text :
    Grammar.parse "f'a' f'b'\n" =
        .ok ⟨[.mk (.expr (.fstring [.literal "a", .literal "b"])) 1]⟩ ∧
      Grammar.parse "f'ab'\n" = .ok ⟨[.mk (.expr (.fstring [.literal "ab"])) 1]⟩ ∧
      ∀ literal : StringLiteral,
        literal.phrase.expr ≠ .fstring [.literal "a", .literal "b"] := by
  refine ⟨by cbv, by cbv, fun literal heq => ?_⟩
  cases hformat : literal.format with
  | false =>
    rw [expr_of_plain hformat] at heq
    cases heq
  | true =>
    rw [expr_of_format hformat] at heq
    have hapart := (merges_textParts literal literal.inside).apart
    rw [Expr.fstring.inj heq] at hapart
    simp [Apart] at hapart

end Marksheet.Syntax
