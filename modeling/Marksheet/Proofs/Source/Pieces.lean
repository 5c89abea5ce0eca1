import Marksheet.Proofs.Grammar.Spelling
import Marksheet.Proofs.Source.Mark
import Marksheet.Proofs.Source.Quoted

/-!
# Pieces are cut from the text one by one

If every piece is marked off from the next one, by a blank or by a character that ends
its mark, the text of pieces is cut into tokens of their shapes, and cutting goes on
behind them.
-/

namespace Marksheet.Source

open Alphabet Syntax
open Marksheet.Grammar (Snug Spells shapeOf pass pass_of_snug)

/-! ### Marks -/

/-- The mark ends before the character. -/
def stops : Mark → Char → Bool
  | .word _, c => !continuesWord c && !isQuote c
  | .number _, c => !continuesWord c && c != '.'
  | .sign symbol, c => symbolStops symbol c
  | .quoted _, c => c != '\"'

/-- The mark can be printed: a word has the characters of one. -/
def IsWritten : Mark → Prop
  | .word text => isIdentifier text = true
  | _ => True

/-- A word by its first character and the others. -/
theorem exists_cons_of_isIdentifier {text : String} (h : isIdentifier text = true) :
    ∃ c word, text.toList = c :: word ∧ beginsWord c = true ∧ ∀ d ∈ word, continuesWord d = true := by
  unfold isIdentifier at h
  split at h
  · cases h
  · rename_i c word htext
    rw [Bool.and_eq_true, List.all_eq_true] at h
    exact ⟨c, word, htext, h.1, h.2⟩

/-- No mark begins like a gap. -/
theorem exists_cons_chars {mark : Mark} (h : IsWritten mark) :
    ∃ c rest, mark.chars = c :: rest ∧ c ∉ gapMarks := by
  cases mark with
  | word text =>
    obtain ⟨c, word, htext, hc, -⟩ := exists_cons_of_isIdentifier h
    exact ⟨c, word, htext, not_mem_of_beginsWord hc⟩
  | number value =>
    obtain ⟨c, rest, hdigits⟩ := List.exists_cons_of_ne_nil (Decimal.digits_ne_nil value)
    refine ⟨c, rest, (Decimal.toList_toString value).trans hdigits, ?_⟩
    exact (digit_facts (Decimal.isDigit_of_mem_digits (hdigits ▸ List.mem_cons_self))).2.2.2.2
  | sign symbol =>
    obtain ⟨c, rest, htext, -, -, -, -, hc, -⟩ := symbol_facts symbol
    exact ⟨c, rest, htext, hc⟩
  | quoted text => exact ⟨'\"', _, rfl, by decide⟩

/-- The tokens of a piece: only the first one has a gap, and only if there is a blank before the
piece. -/
structure WritesPiece (tokens : List Token) (piece : Piece) : Prop where
  spells : Spells tokens piece.mark.shapes
  head : piece.blank = false → ∀ token ∈ tokens.head?, token.gap = []
  glued : ∀ token ∈ tokens.tail, token.gap = []

theorem WritesPiece.ne_nil {tokens : List Token} {piece : Piece} (h : WritesPiece tokens piece) :
    tokens ≠ [] := by
  have hshape := h.spells.shape
  rintro rfl
  cases hm : piece.mark <;> rw [hm] at hshape <;> cases hshape

/-! ### One cut -/

/-- Blanks before a mark make its gap. -/
theorem takeGap_piece {piece : Piece} (h : IsWritten piece.mark) (here : Position)
    (rest : List Char) :
    ∃ gap start, takeGap none here (piece.chars ++ rest) = (gap, start, piece.mark.chars ++ rest) ∧
      (∀ trivia ∈ gap, trivia = .space) ∧ (piece.blank = false → gap = []) ∧
        start.line = here.line := by
  obtain ⟨c, more, hchars, hc⟩ := exists_cons_chars h
  have hsolid (here : Position) := takeGap_of_not_mem hc here (more ++ rest)
  rw [← List.cons_append, ← hchars] at hsolid
  obtain ⟨blank, mark⟩ := piece
  cases blank with
  | false => exact ⟨[], here, hsolid here, by simp, fun _ => rfl, rfl⟩
  | true =>
    refine ⟨[.space], here.step ' ', ?_, by simp, by simp, rfl⟩
    have hblank : takeGap none here (' ' :: (mark.chars ++ rest)) =
        (.space :: (takeGap none (here.step ' ') (mark.chars ++ rest)).1,
          (takeGap none (here.step ' ') (mark.chars ++ rest)).2) := takeGap_fills .space here _
    exact hblank.trans (by rw [hsolid])

/-- The token of a cut stands before the tokens of the text behind it. -/
theorem tokensFrom_code {recent : Recent} {here start : Position} {text behind : List Char}
    {gap : List Trivia} (hgap : takeGap none here text = (gap, start, behind)) (hne : behind ≠ [])
    {cut : Cut} (hcut : cutCode [] recent behind = cut) (fuel : Nat) :
    tokensFrom (fuel + 1) [] recent here text =
      ⟨gap, cut.lexeme, String.ofList cut.taken, start, here⟩ ::
        tokensFrom fuel cut.modes ⟨(cut.lexeme, String.ofList cut.taken), recent.last⟩
          (start.advance cut.taken) (behind.drop cut.taken.length) := by
  obtain ⟨c, rest, rfl⟩ := List.exists_cons_of_ne_nil hne
  simp only [tokensFrom, gapBefore, nextCut, hgap, hcut]

theorem tokensFrom_quoted {q : Quotation} {outer : List Mode} (recent : Recent) (here : Position)
    {text : List Char} (hne : text ≠ []) {cut : Cut} (hcut : cutQuoted q outer text = cut)
    (fuel : Nat) :
    tokensFrom (fuel + 1) (.quoted q :: outer) recent here text =
      ⟨[], cut.lexeme, String.ofList cut.taken, here, here⟩ ::
        tokensFrom fuel cut.modes ⟨(cut.lexeme, String.ofList cut.taken), recent.last⟩
          (here.advance cut.taken) (text.drop cut.taken.length) := by
  obtain ⟨c, rest, rfl⟩ := List.exists_cons_of_ne_nil hne
  simp only [tokensFrom, gapBefore, nextCut, hcut]

/-- The tokens are cut from the head of the text, and cutting goes on with the rest of it. -/
def CutsOff (fuel : Nat) (recent : Recent) (here : Position) (text : List Char)
    (tokens : List Token) (rest : List Char) : Prop :=
  ∃ fuel' recent' here', rest.length < fuel' ∧
    tokensFrom fuel [] recent here text = tokens ++ tokensFrom fuel' [] recent' here' rest

/-- A mark that is cut as one token. -/
theorem cutsOff_single {piece : Piece} {rest : List Char} {lexeme : Lexeme}
    (hw : IsWritten piece.mark) (hl : lexeme ≠ .finish)
    (hcut : ∀ recent, cutCode [] recent (piece.mark.chars ++ rest) = ⟨lexeme, piece.mark.chars, []⟩)
    (hshape : piece.mark.shapes = [(lexeme, String.ofList piece.mark.chars)]) (fuel : Nat)
    (recent : Recent) (here : Position) (hf : (piece.chars ++ rest).length < fuel) :
    ∃ tokens, WritesPiece tokens piece ∧
      CutsOff fuel recent here (piece.chars ++ rest) tokens rest ∧
      ∀ first ∈ tokens.head?, first.start.line = here.line := by
  obtain ⟨gap, start, hgap, hblank, hglued, hline⟩ := takeGap_piece hw here rest
  obtain ⟨c, more, hchars, -⟩ := exists_cons_chars hw
  have hne : piece.mark.chars ++ rest ≠ [] := by
    rw [hchars]
    exact List.cons_ne_nil _ _
  obtain ⟨fuel, rfl⟩ := Nat.exists_eq_succ_of_ne_zero (Nat.ne_zero_of_lt hf)
  have hstep := tokensFrom_code hgap hne (hcut recent) fuel
  rw [List.drop_left] at hstep
  refine ⟨[_], ⟨⟨?_, ?_⟩, fun hb token ht => ?_, nofun⟩, ⟨fuel, _, _, ?_, hstep⟩, ?_⟩
  · intro token ht
    obtain rfl := List.mem_singleton.mp ht
    exact ⟨hblank, hl⟩
  · rw [hshape]
    rfl
  · obtain rfl := Option.mem_some_iff.mp ht
    exact hglued hb
  · have hlength : 0 < piece.chars.length := by
      unfold Piece.chars
      rw [hchars]
      split <;> exact Nat.succ_pos _
    rw [List.length_append] at hf
    omega
  · intro first hfirst
    obtain rfl := Option.mem_some_iff.mp hfirst
    exact hline

/-- No printed text begins with a quote. -/
theorem head_printedBody (value : String) : ∀ c ∈ (printedBody value).head?, c ≠ '\"' := by
  rw [printedBody]
  cases value.toList with
  | nil => simp
  | cons c chars =>
    intro d hd
    rw [List.flatMap_cons] at hd
    rcases printedChar_cases c with ⟨mark, -, -, hc⟩ | ⟨-, hc⟩ | ⟨hquote, -, -, hc⟩
    all_goals rw [hc] at hd; obtain rfl := Option.mem_some_iff.mp hd
    · decide
    · decide
    · exact hquote

/-- The opening quote of a printed text is cut by itself, since no quote follows at once but the
closing one. -/
theorem cutCode_quote {value : String} {rest : List Char} (hr : ∀ c ∈ rest.head?, c ≠ '\"')
    (recent : Recent) :
    cutCode [] recent ('\"' :: (printedBody value ++ '\"' :: rest)) =
      ⟨.quoteOpen, ['\"'], [.quoted plainQuotation]⟩ := by
  have hopening : Quotation.ofOpening [] '\"' (printedBody value ++ '\"' :: rest) =
      (plainQuotation, ['\"'], printedBody value ++ '\"' :: rest) := by
    have hhead := head_printedBody value
    cases hbody : printedBody value with
    | nil =>
      cases rest with
      | nil => rfl
      | cons c rest =>
        have hc : c ≠ '\"' := hr c rfl
        simp only [List.nil_append, Quotation.ofOpening, hc, decide_false, Bool.and_false,
          Bool.false_and, Bool.false_eq_true, if_false]
        rfl
    | cons c body =>
      rw [hbody] at hhead
      have hc : c ≠ '\"' := hhead c rfl
      obtain ⟨d, more, hmore⟩ := List.exists_cons_of_ne_nil
        (List.append_ne_nil_of_right_ne_nil body (List.cons_ne_nil '\"' rest))
      simp only [List.cons_append, hmore, Quotation.ofOpening, hc, decide_false, Bool.false_and,
        Bool.false_eq_true, if_false]
      rfl
  have hflags : ('\"' :: (printedBody value ++ '\"' :: rest)).takeWhile isStringFlag = [] := rfl
  simp only [cutCode, hflags, List.length_nil, List.drop_zero, hopening]
  rfl

/-- What stands between the quotes of a printed text and the closing quote are cut in the string. -/
theorem tokensFrom_printedBody (value : String) (rest : List Char) (fuel : Nat) (recent : Recent)
    (here : Position) (hf : (printedBody value ++ '\"' :: rest).length < fuel) :
    ∃ tokens, Spells tokens ((if printedBody value = [] then []
        else [(.quoteText, String.ofList (printedBody value))]) ++ [(.quoteClose, "\"")]) ∧
      (∀ token ∈ tokens, token.gap = []) ∧ ∃ fuel' recent' here', rest.length < fuel' ∧
        tokensFrom fuel [.quoted plainQuotation] recent here (printedBody value ++ '\"' :: rest) =
          tokens ++ tokensFrom fuel' [] recent' here' rest := by
  have hclose (fuel : Nat) (recent : Recent) (here : Position) :
      tokensFrom (fuel + 1) [.quoted plainQuotation] recent here ('\"' :: rest) =
        ⟨[], .quoteClose, "\"", here, here⟩ :: tokensFrom fuel []
          ⟨(.quoteClose, "\""), recent.last⟩ (here.advance ['\"']) rest := by
    have hscan : plainQuotation.scan ('\"' :: rest) = ⟨[], .closed ['\"'], rest⟩ :=
      scan_printedBody "" rest
    have hcut : cutQuoted plainQuotation [] ('\"' :: rest) = ⟨.quoteClose, ['\"'], []⟩ := by
      simp only [cutQuoted, hscan, List.isEmpty_nil, Bool.not_true, Bool.false_eq_true, if_false]
    exact tokensFrom_quoted recent here (List.cons_ne_nil _ _) hcut fuel
  have hquote (here : Position) :
      Spells [⟨[], .quoteClose, "\"", here, here⟩] [(.quoteClose, "\"")] := by
    refine ⟨fun token ht => ?_, rfl⟩
    obtain rfl := List.mem_singleton.mp ht
    exact ⟨nofun, nofun⟩
  rw [List.length_append, List.length_cons] at hf
  obtain ⟨fuel, rfl⟩ := Nat.exists_eq_succ_of_ne_zero (Nat.ne_zero_of_lt hf)
  by_cases hbody : printedBody value = []
  · rw [if_pos hbody, hbody]
    rw [hbody, List.length_nil] at hf
    exact ⟨[_], hquote here, List.forall_mem_singleton.mpr rfl, fuel, _, _, by omega,
      hclose fuel recent here⟩
  · have hcut : cutQuoted plainQuotation [] (printedBody value ++ '\"' :: rest) =
        ⟨.quoteText, printedBody value, [.quoted plainQuotation]⟩ := by
      have hsome : (printedBody value).isEmpty = false := by
        rw [← Bool.not_eq_true, List.isEmpty_iff]
        exact hbody
      simp only [cutQuoted, scan_printedBody, hsome, Bool.not_false, if_true]
    have htext := tokensFrom_quoted recent here
      (List.append_ne_nil_of_right_ne_nil _ (List.cons_ne_nil _ _)) hcut fuel
    rw [List.drop_left] at htext
    have hlength := List.length_pos_iff.mpr hbody
    obtain ⟨fuel, rfl⟩ := Nat.exists_eq_succ_of_ne_zero (show fuel ≠ 0 by omega)
    rw [if_neg hbody]
    refine ⟨[_, _], ⟨fun token ht => ?_, ?_⟩, ?_, fuel, _, _, by omega,
      htext.trans (congrArg _ (hclose fuel _ _))⟩
    · rcases List.mem_cons.mp ht with rfl | ht
      · exact ⟨nofun, nofun⟩
      · exact (hquote _).snug token ht
    · rfl
    · exact List.forall_mem_cons.mpr ⟨rfl, List.forall_mem_singleton.mpr rfl⟩

/-- A text in quotes is cut as its quotes and, if it is not empty, what is between them. -/
theorem cutsOff_quoted {piece : Piece} {value : String} (hm : piece.mark = .quoted value)
    {rest : List Char} (hr : ∀ c ∈ rest.head?, c ≠ '\"') (fuel : Nat) (recent : Recent)
    (here : Position) (hf : (piece.chars ++ rest).length < fuel) :
    ∃ tokens, WritesPiece tokens piece ∧
      CutsOff fuel recent here (piece.chars ++ rest) tokens rest ∧
      ∀ first ∈ tokens.head?, first.start.line = here.line := by
  have hw : IsWritten piece.mark := by
    rw [hm]
    trivial
  obtain ⟨gap, start, hgap, hblank, hglued, hline⟩ := takeGap_piece hw here rest
  have htext : piece.mark.chars ++ rest = '\"' :: (printedBody value ++ '\"' :: rest) := by
    rw [hm, Mark.chars, List.append_assoc]
    rfl
  rw [htext] at hgap
  obtain ⟨fuel, rfl⟩ := Nat.exists_eq_succ_of_ne_zero (Nat.ne_zero_of_lt hf)
  have hstep := tokensFrom_code hgap (List.cons_ne_nil _ _) (cutCode_quote hr recent) fuel
  have hfuel : (printedBody value ++ '\"' :: rest).length < fuel := by
    have hchars : (piece.chars ++ rest).length ≥ (piece.mark.chars ++ rest).length := by
      unfold Piece.chars
      split
      · exact Nat.le_succ _
      · exact Nat.le_refl _
    rw [htext, List.length_cons] at hchars
    omega
  obtain ⟨tokens, hspells, hinner, fuel', recent', here', hlt, hmore⟩ :=
    tokensFrom_printedBody value rest fuel ⟨(.quoteOpen, "\""), recent.last⟩
      (start.advance ['\"']) hfuel
  refine ⟨⟨gap, .quoteOpen, "\"", start, here⟩ :: tokens, ⟨⟨?_, ?_⟩, fun hb token ht => ?_, hinner⟩,
    ⟨fuel', recent', here', hlt, hstep.trans (congrArg _ hmore)⟩, ?_⟩
  · intro token ht
    rcases List.mem_cons.mp ht with rfl | ht
    · exact ⟨hblank, nofun⟩
    · exact hspells.snug token ht
  · rw [hm, List.map_cons, hspells.shape]
    rfl
  · obtain rfl := Option.mem_some_iff.mp ht
    exact hglued hb
  · intro first hfirst
    obtain rfl := Option.mem_some_iff.mp hfirst
    exact hline

/-- A piece is cut from the text if the character behind it ends its mark. -/
theorem cutsOff_piece {piece : Piece} {rest : List Char} (hw : IsWritten piece.mark)
    (hr : ∀ c ∈ rest.head?, stops piece.mark c = true) (fuel : Nat) (recent : Recent)
    (here : Position) (hf : (piece.chars ++ rest).length < fuel) :
    ∃ tokens, WritesPiece tokens piece ∧
      CutsOff fuel recent here (piece.chars ++ rest) tokens rest ∧
      ∀ first ∈ tokens.head?, first.start.line = here.line := by
  cases hm : piece.mark with
  | word text =>
    rw [hm] at hw hr
    obtain ⟨c, word, htext, hc, hword⟩ := exists_cons_of_isIdentifier hw
    have hrest : ∀ d ∈ rest.head?, continuesWord d = false ∧ isQuote d = false := by
      intro d hd
      simpa only [stops, Bool.and_eq_true, Bool.not_eq_true'] using hr d hd
    rw [← hm] at hw
    refine cutsOff_single hw (show Lexeme.word ≠ .finish by decide) (fun recent => ?_) ?_ fuel recent
      here hf
    · rw [hm, Mark.chars, htext]
      exact cutCode_word hc hword hrest recent
    · rw [hm, Mark.chars, String.ofList_toList]
      rfl
  | number value =>
    rw [hm] at hw hr
    have hrest : ∀ d ∈ rest.head?, continuesWord d = false ∧ d ≠ '.' := by
      intro d hd
      simpa only [stops, Bool.and_eq_true, Bool.not_eq_true', bne_iff_ne] using hr d hd
    rw [← hm] at hw
    refine cutsOff_single hw (show Lexeme.integer ≠ .finish by decide) (fun recent => ?_) ?_ fuel
      recent here hf
    · rw [hm, Mark.chars, Decimal.toList_toString]
      exact cutCode_number hrest recent
    · rw [hm, Mark.chars, String.ofList_toList]
      rfl
  | sign symbol =>
    rw [hm] at hw hr
    rw [← hm] at hw
    refine cutsOff_single hw (show Lexeme.symbol symbol ≠ .finish from nofun) (fun recent => ?_) ?_
      fuel recent here hf
    · rw [hm, Mark.chars]
      exact cutCode_sign symbol hr recent
    · rw [hm, Mark.chars, String.ofList_toList]
      rfl
  | quoted value =>
    rw [hm] at hr
    exact cutsOff_quoted hm (fun c hc => bne_iff_ne.mp (hr c hc)) fuel recent here hf

/-! ### Text of pieces -/

/-- Every piece can be printed, and the character behind it ends its mark. -/
def Parted : List Piece → List Char → Prop
  | [], _ => True
  | piece :: more, ending =>
    IsWritten piece.mark ∧ (∀ c ∈ (textOf more ++ ending).head?, stops piece.mark c = true) ∧
      Parted more ending

/-- The tokens of pieces, one piece after the other. -/
inductive Writes : List Token → List Piece → Prop where
  | nil : Writes [] []
  | cons {tokens more : List Token} {piece : Piece} {pieces : List Piece}
      (hp : WritesPiece tokens piece) (hm : Writes more pieces) :
      Writes (tokens ++ more) (piece :: pieces)

namespace Writes

variable {tokens : List Token} {pieces more : List Piece}

theorem spells (h : Writes tokens pieces) : Spells tokens (shapesOf pieces) := by
  induction h with
  | nil => exact ⟨nofun, rfl⟩
  | cons hp _ ih => exact hp.spells.append ih

theorem append {others : List Token} (h : Writes tokens pieces) (hm : Writes others more) :
    Writes (tokens ++ others) (pieces ++ more) := by
  induction h with
  | nil => exact hm
  | cons hp _ ih =>
    rw [List.append_assoc]
    exact .cons hp ih

theorem append_inv (h : Writes tokens (pieces ++ more)) :
    ∃ before behind, tokens = before ++ behind ∧ Writes before pieces ∧ Writes behind more := by
  induction pieces generalizing tokens with
  | nil => exact ⟨[], tokens, rfl, .nil, h⟩
  | cons piece pieces ih =>
    cases h with
    | @cons first _ _ _ hp hm =>
      obtain ⟨before, behind, rfl, hbefore, hbehind⟩ := ih hm
      exact ⟨first ++ before, behind, (List.append_assoc _ _ _).symm, .cons hp hbefore, hbehind⟩

/-- A piece that makes one token, and the others. -/
theorem cons_inv {blank : Bool} {mark : Mark} {shape : Shape} (hmark : mark.shapes = [shape])
    (h : Writes tokens (⟨blank, mark⟩ :: pieces)) :
    ∃ first rest, tokens = first :: rest ∧ Snug first ∧ shapeOf first = shape ∧
      (blank = false → first.gap = []) ∧ Writes rest pieces := by
  cases h with
  | @cons _ rest _ _ hp hm =>
    obtain ⟨hspells, hhead, -⟩ := hp
    rw [hmark] at hspells
    obtain ⟨first, rfl, hsnug, hshape⟩ := hspells.single_inv
    exact ⟨first, rest, rfl, hsnug, hshape, fun hb => hhead hb first rfl, hm⟩

/-- The tokens of pieces without blanks have no gaps. -/
theorem gap_eq_nil (h : Writes tokens pieces) (hb : ∀ piece ∈ pieces, piece.blank = false) :
    ∀ token ∈ tokens, token.gap = [] := by
  induction h with
  | nil => nofun
  | @cons first _ piece _ hp _ ih =>
    intro token hm
    rcases List.mem_append.mp hm with hm | hm
    · cases first with
      | nil => cases hm
      | cons first others =>
        rcases List.mem_cons.mp hm with rfl | hm
        · exact hp.head (hb piece List.mem_cons_self) token rfl
        · exact hp.glued token hm
    · exact ih (fun other ho => hb other (List.mem_cons_of_mem _ ho)) token hm

/-- No gap is before the first token, if no blank is before the first piece. -/
theorem head_gap {token : Token} {tail : List Token} {piece : Piece}
    (h : Writes (token :: tail) (piece :: more)) (hb : piece.blank = false) : token.gap = [] := by
  generalize he : token :: tail = tokens at h
  cases h with
  | @cons first _ _ _ hp hm =>
    have hne : first ≠ [] := hp.ne_nil
    obtain ⟨other, others, rfl⟩ := List.exists_cons_of_ne_nil hne
    obtain ⟨rfl, -⟩ := List.cons.inj he
    exact hp.head hb token rfl

/-- The gap before the first token may be another one, if the blank before the first piece says so. -/
theorem regap {token : Token} {tail : List Token} {piece : Piece}
    (h : Writes (token :: tail) (piece :: more)) (blank : Bool) {gap : List Trivia}
    (hs : ∀ trivia ∈ gap, trivia = .space) (hb : blank = false → gap = []) (behind : Position) :
    Writes ({ token with gap, behind } :: tail) (⟨blank, piece.mark⟩ :: more) := by
  generalize he : token :: tail = tokens at h
  cases h with
  | @cons first _ _ _ hp hm =>
    have hne : first ≠ [] := hp.ne_nil
    obtain ⟨hspells, -, hglued⟩ := hp
    obtain ⟨other, others, rfl⟩ := List.exists_cons_of_ne_nil hne
    obtain ⟨rfl, rfl⟩ := List.cons.inj he
    have hinside := (hspells.snug token List.mem_cons_self).inside
    have hpiece : WritesPiece ({ token with gap, behind } :: others) ⟨blank, piece.mark⟩ := by
      refine ⟨⟨List.forall_mem_cons.mpr ⟨⟨hs, hinside⟩, fun other hm => ?_⟩, hspells.shape⟩,
        fun hb' other hm => ?_, hglued⟩
      · exact hspells.snug other (List.mem_cons_of_mem _ hm)
      · obtain rfl := Option.mem_some_iff.mp hm
        exact hb hb'
    exact .cons hpiece hm

/-- Without the gap before its first token, a piece may have a blank before it or none. -/
theorem close {token : Token} {tail : List Token} {piece : Piece}
    (h : Writes (token :: tail) (piece :: more)) (blank : Bool) :
    Writes (token.close :: tail) (⟨blank, piece.mark⟩ :: more) :=
  h.regap blank (fun _ hm => absurd hm List.not_mem_nil) (fun _ => rfl) token.behind

/-- Passing the gap before pieces takes the blank before them. -/
theorem exists_pass (h : Writes tokens (spaced pieces)) (hne : pieces ≠ []) :
    ∃ closed, Writes closed pieces ∧
      ∀ indent viable rest, pass indent viable (tokens ++ rest) = .ok ([], closed ++ rest) := by
  obtain ⟨piece, more, rfl⟩ := List.exists_cons_of_ne_nil hne
  cases tokens with
  | nil =>
    have hshape := h.spells.shape
    cases hk : piece.mark <;> rw [spaced, hk] at hshape <;> cases hshape
  | cons token tail =>
    refine ⟨token.close :: tail, h.close piece.blank, fun indent viable rest => ?_⟩
    exact pass_of_snug (h.spells.snug token List.mem_cons_self) indent viable (tail ++ rest)

end Writes

/-- Pieces that are parted from each other and from what follows are cut into tokens of their
shapes. -/
theorem cutsOff_pieces {pieces : List Piece} {ending : List Char} (h : Parted pieces ending)
    (fuel : Nat) (recent : Recent) (here : Position)
    (hf : (textOf pieces ++ ending).length < fuel) :
    ∃ tokens, Writes tokens pieces ∧
      CutsOff fuel recent here (textOf pieces ++ ending) tokens ending ∧
      ∀ first ∈ tokens.head?, first.start.line = here.line := by
  induction pieces generalizing fuel recent here with
  | nil => exact ⟨[], .nil, ⟨fuel, recent, here, hf, rfl⟩, nofun⟩
  | cons piece more ih =>
    obtain ⟨hwritten, hstops, hmore⟩ := h
    rw [textOf, List.flatMap_cons, ← textOf, List.append_assoc] at hf ⊢
    obtain ⟨tokens, hpiece, ⟨fuel', recent', here', hf', hcut⟩, hfirst⟩ :=
      cutsOff_piece hwritten hstops fuel recent here hf
    obtain ⟨tokens', hpieces, ⟨fuel'', recent'', here'', hf'', hcut'⟩, -⟩ :=
      ih hmore fuel' recent' here' hf'
    -- A piece has at least one token, so the first token of all is one of the first piece.
    have hsome : tokens ≠ [] := hpiece.ne_nil
    refine ⟨tokens ++ tokens', .cons hpiece hpieces, ⟨fuel'', recent'', here'', hf'', ?_⟩, ?_⟩
    · rw [hcut, hcut', List.append_assoc]
    · rwa [List.head?_append_of_ne_nil _ hsome]

end Marksheet.Source
