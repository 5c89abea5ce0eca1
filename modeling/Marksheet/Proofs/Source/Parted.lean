import Marksheet.Proofs.Source.Pieces

/-!
# Printed expressions are parted

An expression in print begins with a character that no sign before it goes on with,
and ends with a mark that ends before a blank, a comma, a bracket, and, if the
expression is strong enough, a dot. So the pieces of a printed expression are parted
from each other, and the text is cut into tokens of their shapes.
-/

namespace Marksheet.Source

open Alphabet Syntax

/-! ### Where marks end -/

/-- The characters that may stand behind every expression in print. -/
def closingMarks : List Char := [' ', '\n', ',', ':', ')', ']', '(', '[']

/-- The character may stand behind an expression of a strength: a dot only behind a strong one. -/
def closes (strength : Nat) (c : Char) : Bool :=
  closingMarks.contains c || (c == '.' && 23 ≤ strength)

theorem closes_mono {weak strong : Nat} (h : weak ≤ strong) {c : Char} (hc : closes weak c = true) :
    closes strong c = true := by
  simp only [closes, Bool.or_eq_true, Bool.and_eq_true, decide_eq_true_eq] at hc ⊢
  exact hc.imp_right fun hdot => ⟨hdot.1, hdot.2.trans h⟩

/-- What may stand behind an expression goes on with no word, no string and no sign. -/
theorem closes_facts {strength : Nat} {c : Char} (h : closes strength c = true) :
    continuesWord c = false ∧ isQuote c = false ∧ extendsSign c = false ∧
      (strength < 23 → c ≠ '.') := by
  have hall : ('.' :: closingMarks).all (fun c => !continuesWord c && !isQuote c && !extendsSign c) =
      true := by decide +kernel
  have hdot : '.' ∉ closingMarks := by decide
  simp only [closes, List.contains_eq_mem, Bool.or_eq_true, Bool.and_eq_true, beq_iff_eq,
    decide_eq_true_eq] at h
  have hmem : c ∈ '.' :: closingMarks :=
    h.elim (List.mem_cons_of_mem _) fun hc => hc.1 ▸ List.mem_cons_self
  have hc := List.all_eq_true.mp hall c hmem
  simp only [Bool.and_eq_true, Bool.not_eq_true'] at hc
  refine ⟨hc.1.1, hc.1.2, hc.2, ?_⟩
  rintro hlt rfl
  exact h.elim hdot fun hdot => absurd hdot.2 (Nat.not_le.mpr hlt)

/-- What may stand behind an expression ends every mark but a dot, and a number if it is no dot. -/
theorem stops_of_closes {strength : Nat} {mark : Mark} {c : Char} (hdot : mark ≠ .sign .dot)
    (hnumber : ∀ value, mark = .number value → strength < 23) (hc : closes strength c = true) :
    stops mark c = true := by
  obtain ⟨hword, hquote, hsign, hpoint⟩ := closes_facts hc
  cases mark with
  | word text => rw [stops, hword, hquote]; rfl
  | number value => rw [stops, hword, bne_iff_ne.mpr (hpoint (hnumber value rfl))]; rfl
  | sign symbol =>
    rw [stops, symbolStops, hsign, bne_iff_ne.mpr fun he => hdot (congrArg Mark.sign he)]
    rfl
  | quoted text =>
    rw [stops, bne_iff_ne]
    rintro rfl
    cases hquote

/-- What begins a word goes on with no sign, and with no dot and number. -/
theorem beginsWord_facts {c : Char} (h : beginsWord c = true) :
    extendsSign c = false ∧ c ≠ '.' ∧ isDigit c = false := by
  refine ⟨?_, ?_, ?_⟩
  · rw [← Bool.not_eq_true]
    intro hsign
    simp only [extendsSign, List.contains_eq_mem, decide_eq_true_eq, List.mem_cons, List.not_mem_nil,
      or_false] at hsign
    rcases hsign with rfl | rfl | rfl | rfl | rfl <;> exact absurd h (by decide)
  · rintro rfl
    exact absurd h (by decide)
  · rw [← Bool.not_eq_true]
    intro hdigit
    rw [(digit_facts hdigit).2.1] at h
    cases h

/-- No sign goes on with the character, and no gap begins with it. -/
def BeginsMark (c : Char) : Prop := extendsSign c = false ∧ c ∉ gapMarks

/-- How a word, a number or a text begins. -/
theorem head_chars (mark : Mark) (hwritten : IsWritten mark) (hsign : ∀ symbol, mark ≠ .sign symbol) :
    ∃ c text, mark.chars = c :: text ∧ BeginsMark c := by
  cases mark with
  | word text =>
    obtain ⟨c, word, htext, hc, -⟩ := exists_cons_of_isIdentifier hwritten
    exact ⟨c, word, htext, (beginsWord_facts hc).1, not_mem_of_beginsWord hc⟩
  | number value =>
    obtain ⟨c, rest, hdigits⟩ := List.exists_cons_of_ne_nil (Decimal.digits_ne_nil value)
    have hall : decimalDigits.all (fun c => !extendsSign c) = true := by decide +kernel
    have hdigit := Decimal.isDigit_of_mem_digits (hdigits ▸ List.mem_cons_self)
    have hc := List.all_eq_true.mp hall c (mem_of_isDigit hdigit)
    exact ⟨c, rest, (Decimal.toList_toString value).trans hdigits,
      by simpa only [Bool.not_eq_true'] using hc, (digit_facts hdigit).2.2.2.2⟩
  | sign symbol => exact absurd rfl (hsign symbol)
  | quoted text => exact ⟨'\"', _, rfl, rfl, by decide⟩

/-- A sign ends before a character that no sign goes on with. -/
theorem stops_sign {symbol : Symbol} (hdot : symbol ≠ .dot) {c : Char}
    (hc : extendsSign c = false) : stops (.sign symbol) c = true := by
  rw [stops, symbolStops, hc, bne_iff_ne.mpr hdot]
  rfl

/-! ### Text of pieces, put together -/

theorem textOf_append (pieces more : List Piece) :
    textOf (pieces ++ more) = textOf pieces ++ textOf more := List.flatMap_append

theorem textOf_cons (piece : Piece) (more : List Piece) :
    textOf (piece :: more) = piece.chars ++ textOf more := List.flatMap_cons

theorem parted_append {pieces more : List Piece} {ending : List Char} :
    Parted (pieces ++ more) ending ↔ Parted pieces (textOf more ++ ending) ∧ Parted more ending := by
  induction pieces with
  | nil => exact ⟨fun h => ⟨trivial, h⟩, And.right⟩
  | cons piece pieces ih =>
    rw [List.cons_append, Parted, Parted, ih, textOf_append, List.append_assoc, and_assoc, and_assoc]

/-- The blank before pieces parts nothing in them. -/
theorem parted_spaced {pieces : List Piece} {ending : List Char} :
    Parted (spaced pieces) ending ↔ Parted pieces ending := by
  cases pieces <;> exact Iff.rfl

theorem head_textOf_spaced {pieces : List Piece} (h : pieces ≠ []) (ending : List Char) :
    (textOf (spaced pieces) ++ ending).head? = some ' ' := by
  cases pieces with
  | nil => exact absurd rfl h
  | cons piece more => rfl

/-! ### Expressions in print -/

/-- Text that can stand behind an expression of a strength. -/
def Closes (strength : Nat) (text : List Char) : Prop := ∀ c ∈ text.head?, closes strength c = true

theorem Closes.mono {weak strong : Nat} {text : List Char} (h : Closes weak text)
    (hs : weak ≤ strong) : Closes strong text := fun c hc => closes_mono hs (h c hc)

/-- The pieces of an expression of a strength: they begin with a character that no sign goes on with
and no gap begins with, and are parted from what may stand behind the expression. -/
structure Sound (strength : Nat) (pieces : List Piece) : Prop where
  head : ∃ c text, textOf pieces = c :: text ∧ BeginsMark c
  parted : ∀ ending, Closes strength ending → Parted pieces ending

/-- The pieces can go on an expression of one strength and make it one of another. -/
structure Trails (strength strength' : Nat) (pieces : List Piece) : Prop where
  head : ∀ ending, Closes strength' ending → Closes strength (textOf pieces ++ ending)
  parted : ∀ ending, Closes strength' ending → Parted pieces ending

/-- The pieces can stand between brackets. -/
structure Inside (pieces : List Piece) : Prop where
  head : ∀ ending, Closes 0 ending →
    ∀ c ∈ (textOf pieces ++ ending).head?, extendsSign c = false
  parted : ∀ ending, Closes 0 ending → Parted pieces ending

section

variable {strength strength' : Nat} {pieces more : List Piece} {mark : Mark}

namespace Sound

theorem ne_nil (h : Sound strength pieces) : pieces ≠ [] := by
  rintro rfl
  obtain ⟨c, text, htext, -⟩ := h.head
  cases htext

theorem mono (h : Sound strength pieces) {weaker : Nat} (hw : weaker ≤ strength) :
    Sound weaker pieces :=
  ⟨h.head, fun ending hending => h.parted ending (hending.mono hw)⟩

/-- No dot stands behind a weak expression, however weak it is. -/
theorem loosen (h : Sound strength pieces) {weak : Nat} (hw : weak < 23) : Sound weak pieces := by
  refine ⟨h.head, fun ending hending => h.parted ending fun c hc => ?_⟩
  have hcloses := hending c hc
  rw [closes, decide_eq_false (Nat.not_le.mpr hw), Bool.and_false, Bool.or_false] at hcloses
  rw [closes, hcloses, Bool.true_or]

theorem inside (h : Sound strength pieces) : Inside pieces := by
  obtain ⟨c, text, htext, hc⟩ := h.head
  refine ⟨fun ending _ d hd => ?_,
    fun ending hending => h.parted ending (hending.mono (Nat.zero_le _))⟩
  rw [htext] at hd
  exact Option.mem_some_iff.mp hd ▸ hc.1

theorem append (h : Sound strength pieces) (hm : Trails strength strength' more) :
    Sound strength' (pieces ++ more) := by
  obtain ⟨c, text, htext, hc⟩ := h.head
  refine ⟨⟨c, text ++ textOf more, by rw [textOf_append, htext, List.cons_append], hc⟩,
    fun ending hending => parted_append.mpr ⟨?_, hm.parted ending hending⟩⟩
  exact h.parted _ (hm.head ending hending)

/-- A mark before other pieces. -/
theorem cons (mark : Mark) (hwritten : IsWritten mark)
    (hhead : ∃ c text, mark.chars = c :: text ∧ BeginsMark c)
    (hmore : ∀ ending, Closes strength ending →
      (∀ c ∈ (textOf more ++ ending).head?, stops mark c = true) ∧ Parted more ending) :
    Sound strength (close mark :: more) := by
  obtain ⟨c, text, hchars, hc⟩ := hhead
  refine ⟨⟨c, text ++ textOf more, ?_, hc⟩, fun ending hending => ⟨hwritten, hmore ending hending⟩⟩
  rw [textOf_cons, ← List.cons_append, ← hchars]
  rfl

/-- A word, a number or a text alone. -/
theorem single (mark : Mark) (hwritten : IsWritten mark) (hsign : ∀ symbol, mark ≠ .sign symbol)
    (hnumber : ∀ value, mark = .number value → strength < 23) : Sound strength [close mark] :=
  .cons mark hwritten (head_chars mark hwritten hsign) fun _ hending =>
    ⟨fun c hc => stops_of_closes (hsign _) hnumber (hending c hc), trivial⟩

/-- An expression behind a blank. -/
theorem spaced (h : Sound strength' pieces) : Trails strength strength' (spaced pieces) := by
  refine ⟨fun ending _ c hc => ?_, fun ending hending => parted_spaced.mpr (h.parted ending hending)⟩
  rw [head_textOf_spaced h.ne_nil] at hc
  exact Option.mem_some_iff.mp hc ▸ rfl

end Sound

namespace Trails

theorem nil : Trails strength strength [] := ⟨fun _ h => h, fun _ _ => trivial⟩

theorem append {middle : Nat} (h : Trails strength middle pieces)
    (hm : Trails middle strength' more) : Trails strength strength' (pieces ++ more) := by
  refine ⟨fun ending hending => ?_,
    fun ending hending => parted_append.mpr ⟨?_, hm.parted ending hending⟩⟩
  · rw [textOf_append, List.append_assoc]
    exact h.head _ (hm.head ending hending)
  · exact h.parted _ (hm.head ending hending)

/-- What closes every expression ends a mark before it. -/
theorem parted_cons (h : Trails 0 strength more) (blank : Bool) (mark : Mark)
    (hwritten : IsWritten mark) (hdot : mark ≠ .sign .dot) {ending : List Char} (hending : Closes strength ending) :
    Parted (⟨blank, mark⟩ :: more) ending :=
  ⟨hwritten,
    fun c hc => stops_of_closes hdot (fun _ _ => Nat.succ_pos _) (h.head ending hending c hc),
    h.parted ending hending⟩

/-- A mark behind a blank, before what closes every expression. -/
theorem apart (h : Trails 0 strength' more) (mark : Mark) (hwritten : IsWritten mark)
    (hdot : mark ≠ .sign .dot) : Trails strength strength' (apart mark :: more) :=
  ⟨fun _ _ _ hc => Option.mem_some_iff.mp hc ▸ rfl,
    fun _ hending => h.parted_cons true mark hwritten hdot hending⟩

/-- A comma before what closes every expression. -/
theorem comma (h : Trails 0 strength' more) :
    Trails strength strength' (close (.sign .comma) :: more) :=
  ⟨fun _ _ _ hc => Option.mem_some_iff.mp hc ▸ rfl,
    fun _ hending => h.parted_cons false (.sign .comma) trivial (by decide) hending⟩

end Trails

/-! ### Brackets -/

/-- Pieces in brackets. -/
theorem Inside.parted_brackets (h : Inside pieces) {opening closing : Symbol} (ho : opening ≠ .dot)
    (hc : closing = .rparen ∨ closing = .rbracket) {ending : List Char} (hending : Closes 23 ending) :
    Parted (close (.sign opening) :: pieces ++ [close (.sign closing)]) ending := by
  have hbehind : Closes 0 (textOf [close (.sign closing)] ++ ending) := by
    intro c hm
    rcases hc with rfl | rfl <;> exact Option.mem_some_iff.mp hm ▸ rfl
  refine (@parted_append (_ :: _) _ _).mpr ⟨⟨trivial, ?_, h.parted _ hbehind⟩, trivial, ?_, trivial⟩
  · exact fun c hm => stops_sign ho (h.head _ hbehind c hm)
  · refine fun c hm => stops_of_closes ?_ nofun (hending c hm)
    rcases hc with rfl | rfl <;> decide

/-- Pieces in brackets are an expression. -/
theorem Inside.sound (h : Inside pieces) {opening closing : Symbol}
    (ho : opening = .lparen ∨ opening = .lbracket) (hc : closing = .rparen ∨ closing = .rbracket) :
    Sound 23 (close (.sign opening) :: pieces ++ [close (.sign closing)]) := by
  refine ⟨?_, fun ending hending => h.parted_brackets ?_ hc hending⟩
  all_goals rcases ho with rfl | rfl
  · exact ⟨'(', _, rfl, rfl, by decide⟩
  · exact ⟨'[', _, rfl, rfl, by decide⟩
  all_goals decide

/-- Pieces in brackets trail an expression. -/
theorem Inside.trails (h : Inside pieces) {opening closing : Symbol}
    (ho : opening = .lparen ∨ opening = .lbracket) (hc : closing = .rparen ∨ closing = .rbracket) :
    Trails strength 23 (close (.sign opening) :: pieces ++ [close (.sign closing)]) := by
  refine ⟨fun ending _ c hm => ?_, fun ending hending => h.parted_brackets ?_ hc hending⟩
  all_goals rcases ho with rfl | rfl
  · exact Option.mem_some_iff.mp hm ▸ rfl
  · exact Option.mem_some_iff.mp hm ▸ rfl
  all_goals decide

/-- Parentheses make every expression strong. -/
theorem Sound.enclosed (h : Sound strength pieces) (count : Nat) :
    Sound 23 (enclosed (count + 1) pieces) := by
  induction count with
  | zero => exact h.inside.sound (.inl rfl) (.inl rfl)
  | succ count ih => exact ih.inside.sound (.inl rfl) (.inl rfl)

/-- An expression is strong enough for its place. -/
theorem Sound.within {e : Expr} (h : Sound e.strength pieces) (needed : Nat) (hneeded : needed ≤ 23)
    (extra : Redundance) : Sound needed (within needed extra e pieces) := by
  unfold Syntax.within
  cases hc : extra [] + if e.strength < needed then 1 else 0 with
  | zero =>
    refine h.mono ?_
    by_contra hlt
    rw [if_pos (Nat.not_le.mp hlt)] at hc
    omega
  | succ count => exact (h.enclosed count).mono hneeded

/-- Expressions with commas between them. -/
theorem separated_sound {item : List Piece} {items : List (List Piece)} (hfirst : Sound 0 item)
    (hmore : ∀ item ∈ items, Sound 0 item) : Sound 0 (separated (item :: items)) := by
  induction items generalizing item with
  | nil => exact hfirst
  | cons next items ih =>
    have hrest := ih (hmore next List.mem_cons_self) fun item hm =>
      hmore item (List.mem_cons_of_mem _ hm)
    exact hfirst.append hrest.spaced.comma

/-- Nothing between brackets. -/
theorem Inside.nil : Inside [] :=
  ⟨fun _ hending c hc => (closes_facts (hending c hc)).2.2.1, fun _ _ => trivial⟩

theorem Inside.append (h : Inside pieces) (hm : Trails 0 0 more) : Inside (pieces ++ more) := by
  refine ⟨fun ending hending => ?_,
    fun ending hending => parted_append.mpr ⟨?_, hm.parted ending hending⟩⟩
  · rw [textOf_append, List.append_assoc]
    exact h.head _ (hm.head ending hending)
  · exact h.parted _ (hm.head ending hending)

theorem separated_inside {items : List (List Piece)} (h : ∀ item ∈ items, Sound 0 item) :
    Inside (separated items) := by
  cases items with
  | nil => exact .nil
  | cons item items =>
    exact (separated_sound (h item List.mem_cons_self)
      fun other hm => h other (List.mem_cons_of_mem _ hm)).inside

end

/-! ### Every printed expression is sound -/

/-- An attribute behind its dot. -/
theorem attribute_trails {attr : String} (h : isIdentifier attr = true) :
    Trails 23 23 [close (.sign .dot), close (.word attr)] := by
  obtain ⟨c, word, htext, hc, -⟩ := exists_cons_of_isIdentifier h
  obtain ⟨hsign, hdot, hdigit⟩ := beginsWord_facts hc
  refine ⟨fun _ _ _ hm => Option.mem_some_iff.mp hm ▸ rfl,
    fun ending hending => ⟨trivial, ?_, h, ?_, trivial⟩⟩
  · have hfirst : (textOf [close (.word attr)] ++ ending).head? = some c := by
      rw [textOf_cons, Piece.chars, close, if_neg Bool.false_ne_true, Mark.chars, htext]
      rfl
    rw [hfirst]
    rintro d hd
    obtain rfl := Option.mem_some_iff.mp hd
    change symbolStops .dot c = true
    rw [symbolStops, hsign, hdigit, bne_iff_ne.mpr hdot]
    rfl
  · exact fun c hm => stops_of_closes (by simp [close]) (by simp [close]) (hending c hm)

/-- An argument by name. -/
theorem keyword_sound {name : String} {pieces : List Piece} (hn : isIdentifier name = true)
    (hv : Sound 0 pieces) : Sound 0 (close (.word name) :: close (.sign .assign) :: pieces) := by
  refine .cons (.word name) hn (head_chars (.word name) hn nofun) fun ending hending =>
    ⟨fun c hc => ?_, trivial, fun c hc => ?_, hv.parted ending hending⟩
  · obtain rfl := Option.mem_some_iff.mp hc
    exact (by decide : (!continuesWord '=' && !isQuote '=') = true)
  · exact stops_sign (by decide) (hv.inside.head ending hending c hc)

/-- Items of a tuple, one of them with a comma behind it. -/
theorem tuple_inside {items : List (List Piece)} (h : ∀ item ∈ items, Sound 0 item) (count : Nat) :
    Inside (separated items ++ if count = 1 then [close (.sign .comma)] else []) := by
  refine (separated_inside h).append ?_
  split
  · exact Trails.nil.comma
  · exact .nil

/-- A sign before an expression. -/
theorem unary_sound (op : UnaryOp) {strength : Nat} {pieces : List Piece}
    (h : Sound strength pieces) : Sound strength (close (.sign op.mark) :: pieces) := by
  have hop : op.mark ≠ .dot ∧ ∃ c text, op.mark.text.toList = c :: text ∧ BeginsMark c := by
    cases op <;> exact ⟨by decide, _, _, rfl, rfl, by decide⟩
  refine .cons (.sign op.mark) trivial hop.2 fun ending hending =>
    ⟨fun c hc => ?_, h.parted ending hending⟩
  obtain ⟨d, text, htext, hd⟩ := h.head
  rw [htext] at hc
  exact stops_sign hop.1 (Option.mem_some_iff.mp hc ▸ hd.1)

/-- A comparison operator before what stands behind a blank. -/
theorem marks_trail (op : CmpOp) {strength strength' : Nat} {more : List Piece}
    (h : Trails 0 strength' more) : Trails strength strength' (op.marks.map apart ++ more) := by
  cases op with
  | notIn => exact (h.apart (.word "in") rfl nofun).apart (.word "not") rfl nofun
  | isNot => exact (h.apart (.word "not") rfl nofun).apart (.word "is") rfl nofun
  | isIn | is => exact h.apart (.word _) rfl nofun
  | _ => exact h.apart (.sign _) trivial nofun

mutual

theorem bare_sound (extra : Redundance) :
    (e : Expr) → e.isWritable = true → Sound e.strength (bare extra e)
  | .name id, h => by
    rw [Expr.isWritable, isName, Bool.and_eq_true] at h
    exact .single (.word id) h.1 nofun nofun
  | .str value, _ => .single (.quoted value) trivial nofun nofun
  | .int value, _ => .single (.number value) trivial nofun fun _ _ => Nat.lt_succ_self 22
  | .bool true, _ => .single (.word "True") rfl nofun nofun
  | .bool false, _ => .single (.word "False") rfl nofun nofun
  | .none, _ => .single (.word "None") rfl nofun nofun
  | .list items, h => by
    rw [Expr.isWritable] at h
    exact (separated_inside (items_sound extra 0 items h)).sound (.inr rfl) (.inr rfl)
  | .tuple items, h => by
    rw [Expr.isWritable] at h
    rw [bare, List.cons_append]
    refine Inside.sound ?_ (.inl rfl) (.inl rfl)
    exact tuple_inside (items_sound extra 0 items h) _
  | .boolOp op left right, h => by
    rw [Expr.isWritable, Bool.and_eq_true] at h
    have hop : op.strength + 1 ≤ 23 ∧ isIdentifier op.symbol = true := by cases op <;> decide
    have hl := (bare_sound (extra.part 0) left h.1).within op.strength (Nat.le_of_succ_le hop.1)
      (extra.part 0)
    have hr := (bare_sound (extra.part 1) right h.2).within (op.strength + 1) hop.1 (extra.part 1)
    exact hl.append ((hr.mono (Nat.le_succ _)).spaced.apart (.word op.symbol) hop.2 nofun)
  | .not operand, h => by
    rw [Expr.isWritable] at h
    have ho := (bare_sound (extra.part 0) operand h).within 12 (by decide) (extra.part 0)
    exact .cons (.word "not") rfl (head_chars (.word "not") rfl nofun)
      fun ending hending => (ho.spaced.parted_cons false (.word "not") rfl nofun hending).2
  | .unary op operand, h => by
    rw [Expr.isWritable] at h
    have ho := (bare_sound (extra.part 0) operand h).within 20 (by decide) (extra.part 0)
    exact unary_sound op ho
  | .compare left links, h => by
    simp only [Expr.isWritable, Bool.and_eq_true] at h
    have hl := (bare_sound (extra.part 0) left h.1.1).within 14 (by decide) (extra.part 0)
    exact (hl.append (links_trail extra 1 links h.2)).mono (show 13 ≤ 14 by decide)
  | .binOp op left right, h => by
    rw [Expr.isWritable, Bool.and_eq_true] at h
    have hop : op.leftStrength ≤ 23 ∧ op.rightStrength ≤ 23 ∧ op.precedence < 23 := by
      cases op <;> decide
    have hl := (bare_sound (extra.part 0) left h.1).within op.leftStrength hop.1 (extra.part 0)
    have hr := (bare_sound (extra.part 1) right h.2).within op.rightStrength hop.2.1 (extra.part 1)
    -- The right operand of a power may be a sign, which is weaker than the power itself.
    exact hl.append ((hr.loosen hop.2.2).spaced.apart (.sign (.op op)) trivial nofun)
  | .call func args kwargs, h => by
    simp only [Expr.isWritable, Bool.and_eq_true] at h
    have hf := (bare_sound (extra.part 0) func h.1.1).within 22 (by decide) (extra.part 0)
    have hitems : Inside (separated (printedItems extra 1 args ++
        printedKeywords extra (1 + args.length) kwargs)) := by
      refine separated_inside fun pieces hm => ?_
      rcases List.mem_append.mp hm with hm | hm
      · exact items_sound extra 1 args h.1.2 pieces hm
      · exact keywords_sound extra (1 + args.length) kwargs h.2 pieces hm
    rw [bare, List.append_assoc]
    exact hf.append (hitems.trails (.inl rfl) (.inl rfl))
  | .attribute value attr, h => by
    simp only [Expr.isWritable, isName, Bool.and_eq_true] at h
    exact ((bare_sound (extra.part 0) value h.1).within 23 (Nat.le_refl 23) _).append
      (attribute_trails h.2.1)
  | .subscript value index, h => by
    rw [Expr.isWritable, Bool.and_eq_true] at h
    have hv := (bare_sound (extra.part 0) value h.1).within 22 (by decide) (extra.part 0)
    have hi := (bare_sound (extra.part 1) index h.2).within 0 (by decide) (extra.part 1)
    rw [bare, List.append_assoc]
    exact hv.append (hi.inside.trails (.inr rfl) (.inr rfl))
  | .ifExp test body orelse, h => by
    simp only [Expr.isWritable, Bool.and_eq_true] at h
    have hb := (bare_sound (extra.part 0) body h.1.2).within 2 (by decide) (extra.part 0)
    have ht := (bare_sound (extra.part 1) test h.1.1).within 0 (by decide) (extra.part 1)
    have ho := (bare_sound (extra.part 2) orelse h.2).within 1 (by decide) (extra.part 2)
    exact (hb.append (ht.spaced.apart (.word "if") rfl nofun)).append
      (ho.spaced.apart (.word "else") rfl nofun)

theorem items_sound (extra : Redundance) (number : Nat) :
    (items : List Expr) → allWritable items = true →
      ∀ pieces ∈ printedItems extra number items, Sound 0 pieces
  | [], _ => nofun
  | item :: rest, h => by
    rw [allWritable, Bool.and_eq_true] at h
    intro pieces hm
    rcases List.mem_cons.mp hm with rfl | hm
    · exact (bare_sound (extra.part number) item h.1).within 0 (Nat.zero_le _) _
    · exact items_sound extra (number + 1) rest h.2 pieces hm

theorem links_trail (extra : Redundance) (number : Nat) :
    (links : List (CmpOp × Expr)) → linksWritable links = true →
      Trails 14 14 (printedLinks extra number links)
  | [], _ => .nil
  | (op, operand) :: rest, h => by
    rw [linksWritable, Bool.and_eq_true] at h
    have ho := (bare_sound (extra.part number) operand h.1).within 14 (by decide) (extra.part number)
    exact (marks_trail op ho.spaced).append (links_trail extra (number + 1) rest h.2)

theorem keywords_sound (extra : Redundance) (number : Nat) :
    (kwargs : List (String × Expr)) → keywordsWritable kwargs = true →
      ∀ pieces ∈ printedKeywords extra number kwargs, Sound 0 pieces
  | [], _ => nofun
  | (name, value) :: rest, h => by
    simp only [keywordsWritable, isName, Bool.and_eq_true, Bool.not_eq_true'] at h
    obtain ⟨⟨⟨hname, -⟩, hvalue⟩, hrest⟩ := h
    intro pieces hm
    rcases List.mem_cons.mp hm with rfl | hm
    · have hv := bare_sound (extra.part number) value hvalue
      exact keyword_sound hname (hv.within 0 (Nat.zero_le _) (extra.part number))
    · exact keywords_sound extra (number + 1) rest hrest pieces hm

end

end Marksheet.Source
