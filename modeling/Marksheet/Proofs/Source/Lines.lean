import Marksheet.Proofs.Source.Parted
import Marksheet.Proofs.Syntax.Program

/-!
# Lines are cut from the text

A blank or a line end before a token goes into its gap. So a line is cut like its pieces
alone, and the gap before its first token tells the margin of the line.
-/

namespace Marksheet.Syntax

/-- A blank in a gap. -/
def Blank.trivia : Blank → Source.Trivia
  | .space => .space
  | .tab => .tab

end Marksheet.Syntax

namespace Marksheet.Source

open Alphabet Syntax
open Marksheet.Grammar (Snug Spells)

/-! ### Layout before code -/

/-- The character is the piece of a gap. -/
inductive Lays : Char → Trivia → Prop where
  | space : Lays ' ' .space
  | tab : Lays '\t' .tab
  | newline : Lays '\n' .newline

theorem lays_blank (blank : Blank) : Lays blank.char blank.trivia := by
  cases blank
  · exact .space
  · exact .tab

theorem lays_margin (margin : Margin) :
    List.Forall₂ Lays (margin.map Blank.char) (margin.map Blank.trivia) := by
  rw [List.forall₂_map_left_iff, List.forall₂_map_right_iff]
  exact List.forall₂_same.mpr fun blank _ => lays_blank blank

theorem takeGap_cons {c : Char} {piece : Trivia} (h : Lays c piece) (here : Position)
    (text : List Char) :
    takeGap none here (c :: text) =
      (piece :: (takeGap none (here.step c) text).1, (takeGap none (here.step c) text).2) := by
  have hfills : Fills c piece := by
    cases h with
    | space => exact .space
    | tab => exact .tab
    | newline => exact .newline
  exact takeGap_fills hfills here text

/-- A character of layout goes into the gap of the token behind it. -/
theorem tokensFrom_cons {c : Char} {piece : Trivia} (h : Lays c piece) (fuel : Nat)
    (recent : Recent) (here : Position) {text : List Char} {first : Token} {rest : List Token}
    (ht : tokensFrom (fuel + 1) [] recent (here.step c) text = first :: rest) :
    tokensFrom (fuel + 1) [] recent here (c :: text) =
      { first with gap := piece :: first.gap, behind := here } :: rest := by
  simp only [tokensFrom, gapBefore, nextCut, takeGap_cons h] at ht ⊢
  generalize takeGap none (here.step c) text = taken at ht ⊢
  obtain ⟨gap, start, behind⟩ := taken
  cases behind <;>
  · cases ht
    rfl

/-- All layout before a token goes into its gap. -/
theorem tokensFrom_layout {layout : List Char} {gap : List Trivia}
    (h : List.Forall₂ Lays layout gap) (fuel : Nat) (recent : Recent) (here : Position)
    {text : List Char} {first : Token} {rest : List Token}
    (ht : tokensFrom (fuel + 1) [] recent (here.advance layout) text = first :: rest) :
    ∃ behind, tokensFrom (fuel + 1) [] recent here (layout ++ text) =
      { first with gap := gap ++ first.gap, behind } :: rest := by
  induction h generalizing here with
  | nil => exact ⟨first.behind, ht⟩
  | cons hc _ ih =>
    obtain ⟨behind, hmore⟩ := ih _ ht
    exact ⟨here, tokensFrom_cons hc fuel recent here hmore⟩

/-! ### Pieces that are cut -/

/-- Every piece has a token. -/
theorem shapesOf_ne_nil {pieces : List Piece} (h : pieces ≠ []) : shapesOf pieces ≠ [] := by
  obtain ⟨piece, more, rfl⟩ := List.exists_cons_of_ne_nil h
  rw [shapesOf, List.flatMap_cons]
  cases piece.mark <;> exact List.cons_ne_nil _ _

theorem length_le_shapesOf (pieces : List Piece) : pieces.length ≤ (shapesOf pieces).length := by
  induction pieces with
  | nil => exact Nat.le_refl 0
  | cons piece pieces ih =>
    have hone : 0 < piece.mark.shapes.length := by cases piece.mark <;> exact Nat.succ_pos _
    rw [shapesOf, List.flatMap_cons, List.length_append, List.length_cons]
    exact (Nat.succ_le_succ ih).trans (by rw [shapesOf]; omega)

/-- The pieces are cut into tokens of their shapes where the text goes on with the ending. -/
def Cuts (pieces : List Piece) (ending : List Char) : Prop :=
  ∀ fuel recent here, (textOf pieces ++ ending).length < fuel →
    ∃ tokens, Writes tokens pieces ∧
      CutsOff fuel recent here (textOf pieces ++ ending) tokens ending

namespace Cuts

variable {pieces more : List Piece} {ending : List Char}

theorem of_parted (h : Parted pieces ending) : Cuts pieces ending := fun fuel recent here hf => by
  obtain ⟨tokens, hwrites, hcut, -⟩ := cutsOff_pieces h fuel recent here hf
  exact ⟨tokens, hwrites, hcut⟩

theorem append (h : Cuts pieces (textOf more ++ ending)) (hm : Cuts more ending) :
    Cuts (pieces ++ more) ending := by
  intro fuel recent here hf
  rw [textOf_append, List.append_assoc] at hf ⊢
  obtain ⟨tokens, hwrites, fuel', recent', here', hf', hcut⟩ := h fuel recent here hf
  obtain ⟨tokens', hwrites', fuel'', recent'', here'', hf'', hcut'⟩ := hm fuel' recent' here' hf'
  refine ⟨tokens ++ tokens', hwrites.append hwrites', fuel'', recent'', here'', hf'', ?_⟩
  rw [hcut, hcut', List.append_assoc]

/-- A blank before pieces does not change how they are cut. -/
theorem blank {piece : Piece} (hp : piece.blank = false) (h : Cuts (piece :: more) ending) :
    Cuts (apart piece.mark :: more) ending := by
  intro fuel recent here hf
  have htext : textOf (apart piece.mark :: more) ++ ending =
      [' '] ++ (textOf (piece :: more) ++ ending) := by
    rw [textOf_cons, textOf_cons, Piece.chars, Piece.chars, hp]
    rfl
  rw [htext] at hf ⊢
  obtain ⟨fuel, rfl⟩ := Nat.exists_eq_succ_of_ne_zero (Nat.ne_zero_of_lt hf)
  obtain ⟨tokens, hwrites, fuel', recent', here', hf', hcut⟩ :=
    h (fuel + 1) recent (here.advance [' ']) (Nat.lt_of_succ_lt hf)
  have hne : tokens ≠ [] := hwrites.spells.ne_nil (shapesOf_ne_nil (List.cons_ne_nil _ _))
  obtain ⟨first, rest, rfl⟩ := List.exists_cons_of_ne_nil hne
  obtain ⟨behind, hlaid⟩ := tokensFrom_layout (.cons .space .nil) fuel recent here hcut
  have hgap : first.gap = [] := hwrites.head_gap hp
  rw [hgap, List.append_nil] at hlaid
  have hblank : Writes ({ first with gap := [.space], behind } :: rest) (apart piece.mark :: more) :=
    hwrites.regap true (List.forall_mem_singleton.mpr rfl) (by simp) behind
  exact ⟨_, hblank, fuel', recent', here', hf', hlaid⟩

/-- A dot with another one behind it, but no third one. -/
theorem dot_dot (h : Cuts (close (.sign .dot) :: more) ending)
    (hd : ∀ c ∈ (textOf more ++ ending).head?, c ≠ '.') :
    Cuts (close (.sign .dot) :: close (.sign .dot) :: more) ending := by
  have hfirst : Cuts [close (.sign .dot)] (textOf (close (.sign .dot) :: more) ++ ending) := by
    intro fuel recent here hf
    obtain ⟨tokens, hpiece, hcut, -⟩ := @cutsOff_single (close (.sign .dot)) _ (.symbol .dot) trivial
      nofun (fun recent => cutCode_dots hd recent) rfl fuel recent here hf
    exact ⟨tokens, List.append_nil tokens ▸ .cons hpiece .nil, hcut⟩
  exact hfirst.append h

/-- Signs of three dots, before whatever else. -/
theorem ellipses (h : Cuts more ending) (hd : ∀ c ∈ (textOf more ++ ending).head?, extendsSign c = false)
    (count : Nat) : Cuts (List.replicate count (close (.sign .ellipsis)) ++ more) ending := by
  induction count with
  | zero => exact h
  | succ count ih =>
    have hhead : ∀ c ∈ (textOf (List.replicate count (close (.sign .ellipsis)) ++ more) ++ ending).head?,
        extendsSign c = false := by
      cases count with
      | zero => exact hd
      | succ count => exact fun c hc => Option.mem_some_iff.mp hc ▸ rfl
    have hone : Parted [close (.sign .ellipsis)]
        (textOf (List.replicate count (close (.sign .ellipsis)) ++ more) ++ ending) :=
      ⟨trivial, fun c hc => stops_sign (by decide) (hhead c hc), trivial⟩
    exact (of_parted hone).append ih

/-- Dots that are written together, before what begins with no dot. -/
theorem dots (h : Cuts more ending)
    (hd : ∀ c ∈ (textOf more ++ ending).head?, extendsSign c = false ∧ c ≠ '.' ∧ isDigit c = false)
    (count : Nat) : Cuts (Syntax.dots count ++ more) ending := by
  have hparted : Parted [close (.sign .dot)] (textOf more ++ ending) := by
    refine ⟨trivial, fun c hc => ?_, trivial⟩
    obtain ⟨hsign, hdot, hdigit⟩ := hd c hc
    change symbolStops .dot c = true
    rw [symbolStops, hsign, hdigit, bne_iff_ne.mpr hdot]
    rfl
  have hone : Cuts (close (.sign .dot) :: more) ending := (of_parted hparted).append h
  rw [Syntax.dots, List.append_assoc]
  have hlt : count % 3 < 3 := Nat.mod_lt _ (by decide)
  generalize count % 3 = left at hlt
  obtain rfl | rfl | rfl : left = 0 ∨ left = 1 ∨ left = 2 := by omega
  · exact ellipses h (fun c hc => (hd c hc).1) _
  · exact ellipses hone (fun c hc => Option.mem_some_iff.mp hc ▸ rfl) _
  · exact ellipses (dot_dot hone fun c hc => (hd c hc).2.1)
      (fun c hc => Option.mem_some_iff.mp hc ▸ rfl) _

end Cuts

/-! ### Lines -/

/-- The pieces make a line: no gap begins like them, and they are cut where the line ends. -/
structure CutsLine (pieces : List Piece) : Prop where
  head : ∃ c text, textOf pieces = c :: text ∧ c ∉ gapMarks
  cuts : ∀ rest, Cuts pieces ('\n' :: rest)

theorem CutsLine.ne_nil {pieces : List Piece} (h : CutsLine pieces) : pieces ≠ [] := by
  obtain ⟨c, text, htext, -⟩ := h.head
  rintro rfl
  cases htext

theorem Sound.cutsLine {strength : Nat} {pieces : List Piece} (h : Sound strength pieces) :
    CutsLine pieces := by
  obtain ⟨c, text, htext, hc⟩ := h.head
  refine ⟨⟨c, text, htext, hc.2⟩, fun rest => .of_parted (h.parted _ fun d hd => ?_)⟩
  obtain rfl := Option.mem_some_iff.mp hd
  rfl

/-- The pieces of a line are cut into tokens of which the first one has no gap. -/
theorem CutsLine.exists_tokens {pieces : List Piece} (h : CutsLine pieces) (fuel : Nat)
    (recent : Recent) (here : Position) (rest : List Char)
    (hf : (textOf pieces ++ '\n' :: rest).length < fuel) :
    ∃ first tail, first.gap = [] ∧ Writes (first :: tail) pieces ∧
      CutsOff fuel recent here (textOf pieces ++ '\n' :: rest) (first :: tail) ('\n' :: rest) := by
  obtain ⟨c, text, htext, hc⟩ := h.head
  obtain ⟨tokens, hwrites, hcut⟩ := h.cuts rest fuel recent here hf
  obtain ⟨fuel', recent', here', hf', hcut'⟩ := hcut
  have hne : tokens ≠ [] := hwrites.spells.ne_nil (shapesOf_ne_nil h.ne_nil)
  obtain ⟨first, tail, rfl⟩ := List.exists_cons_of_ne_nil hne
  refine ⟨first, tail, ?_, hwrites, fuel', recent', here', hf', hcut'⟩
  obtain ⟨fuel, rfl⟩ := Nat.exists_eq_succ_of_ne_zero (Nat.ne_zero_of_lt hf)
  rw [htext, List.cons_append,
    tokensFrom_code (takeGap_of_not_mem hc here _) (List.cons_ne_nil _ _) rfl] at hcut'
  exact (congrArg Token.gap (List.cons.inj hcut').1).symm

/-- Tokens of lines: the first one of each line stands behind a line end and the margin, the others
are snug. -/
inductive SpellsLines : List Token → List Line → Prop where
  | nil : SpellsLines [] []
  | cons {first : Token} {tail more : List Token} {line : Line} {lines : List Line}
      (hgap : first.gap = .newline :: line.margin.map Blank.trivia)
      (hs : Writes (first.close :: tail) line.pieces) (hm : SpellsLines more lines) :
      SpellsLines (first :: (tail ++ more)) (line :: lines)

/-- Behind a line end, lines are cut into their tokens and the end of the text. -/
theorem tokensFrom_textOfLines {lines : List Line} (h : ∀ line ∈ lines, CutsLine line.pieces)
    (fuel : Nat) (recent : Recent) (here : Position)
    (hf : ('\n' :: textOfLines lines).length < fuel) :
    ∃ tokens last, SpellsLines tokens lines ∧ last.lexeme = .finish ∧ last.gap = [.newline] ∧
      tokensFrom fuel [] recent here ('\n' :: textOfLines lines) = tokens ++ [last] := by
  induction lines generalizing fuel recent here with
  | nil =>
    obtain ⟨fuel, rfl⟩ := Nat.exists_eq_succ_of_ne_zero (Nat.ne_zero_of_lt hf)
    have hend : tokensFrom (fuel + 1) [] recent (here.step '\n') [] =
        [⟨[], .finish, "", here.step '\n', here.step '\n'⟩] := rfl
    exact ⟨[], _, .nil, rfl, rfl, tokensFrom_cons .newline fuel recent here hend⟩
  | cons line lines ih =>
    obtain ⟨fuel, rfl⟩ := Nat.exists_eq_succ_of_ne_zero (Nat.ne_zero_of_lt hf)
    have hlaid : List.Forall₂ Lays ('\n' :: line.margin.map Blank.char)
        (.newline :: line.margin.map Blank.trivia) := .cons .newline (lays_margin line.margin)
    have htext : '\n' :: textOfLines (line :: lines) = ('\n' :: line.margin.map Blank.char) ++
        (textOf line.pieces ++ '\n' :: textOfLines lines) := by
      simp only [textOfLines, List.flatMap_cons, Line.chars, List.append_assoc, List.cons_append,
        List.nil_append]
    rw [htext] at hf ⊢
    rw [List.length_append] at hf
    obtain ⟨first, tail, hfirst, hwrites, fuel', recent', here', hf', hcut⟩ :=
      (h line List.mem_cons_self).exists_tokens (fuel + 1) recent
        (here.advance ('\n' :: line.margin.map Blank.char)) (textOfLines lines) (by omega)
    obtain ⟨behind, hcut⟩ := tokensFrom_layout hlaid fuel recent here hcut
    obtain ⟨tokens, last, hmore, hlast, hgap, hend⟩ :=
      ih (fun line hm => h line (List.mem_cons_of_mem _ hm)) fuel' recent' here' hf'
    rw [hfirst, List.append_nil] at hcut
    have hline : Writes
        (({ first with gap := .newline :: line.margin.map Blank.trivia, behind } : Token).close :: tail)
        line.pieces := by
      obtain ⟨piece, more, hpieces⟩ := List.exists_cons_of_ne_nil (h line List.mem_cons_self).ne_nil
      rw [hpieces] at hwrites ⊢
      exact hwrites.regap piece.blank (fun _ hm => absurd hm List.not_mem_nil) (fun _ => rfl) behind
    refine ⟨_, last, .cons rfl hline hmore, hlast, hgap, hcut.trans ?_⟩
    rw [hend, List.cons_append, List.append_assoc]
    rfl

/-- The text of lines, the first one without a margin, is cut into their tokens and the end of the
text; no line end stands before the first token. -/
theorem tokenize_textOfLines {line : Line} {lines : List Line} (hmargin : line.margin = [])
    (h : ∀ other ∈ line :: lines, CutsLine other.pieces) :
    ∃ first rest last, SpellsLines (first :: rest) (line :: lines) ∧ last.lexeme = .finish ∧
      last.gap = [.newline] ∧
        tokenize (String.ofList (textOfLines (line :: lines))) = first.close :: (rest ++ [last]) := by
  have htext : textOfLines (line :: lines) =
      textOf line.pieces ++ '\n' :: textOfLines lines := by
    simp only [textOfLines, List.flatMap_cons, Line.chars, hmargin, List.map_nil, List.nil_append,
      List.append_assoc, List.cons_append]
  rw [tokenize, String.length_ofList, String.toList_ofList, htext]
  obtain ⟨first, tail, hfirst, hwrites, fuel, recent, here, hf, hcut⟩ :=
    (h line List.mem_cons_self).exists_tokens _ {} .first (textOfLines lines) (Nat.lt_succ_self _)
  obtain ⟨tokens, last, hmore, hlast, hgap, hend⟩ := tokensFrom_textOfLines
    (fun line hm => h line (List.mem_cons_of_mem _ hm)) fuel recent here hf
  have hclose : first.close = first := by
    rw [Token.close, ← hfirst]
  refine ⟨{ first with gap := [.newline] }, tail ++ tokens, last, .cons ?_ ?_ hmore, hlast, hgap, ?_⟩
  · rw [hmargin, List.map_nil]
  · exact hclose ▸ hwrites
  · rw [hcut, hend, List.append_assoc]
    exact congrArg (· :: (tail ++ (tokens ++ [last]))) hclose.symm

end Marksheet.Source
