import Marksheet.Proofs.Source.Places
import Marksheet.Text.Blank

/-!
# Places behind a part of the text

What a cut takes stands at the head of the text (`nextCut_front`), and so does
the gap before it (`gapBefore_front`). So the place of every token is the one
behind a part of the source text (`exists_front`): its line is one more than the
line feeds before it, and unless it is the end of the text, that line is one of
the text (`line_le_of_before`).
-/

namespace Marksheet.Source

open Alphabet

/-! ### Strings -/

namespace Quotation

/-- A run of content, and what closes it, stands at the head of a text. -/
structure Run.Heads (run : Run) (text : List Char) : Prop where
  content : run.content <+: text
  closed : ∀ mark, run.ending = .closed mark → run.content ++ mark <+: text

theorem Run.Heads.of_unclosed {content rest text : List Char} {ending : Ending}
    (h : content <+: text) (hending : ∀ mark, ending ≠ .closed mark) :
    Run.Heads ⟨content, ending, rest⟩ text :=
  ⟨h, fun mark he => absurd he (hending mark)⟩

theorem Run.Heads.of_closed {content mark rest text : List Char} (h : content ++ mark <+: text) :
    Run.Heads ⟨content, .closed mark, rest⟩ text :=
  ⟨(List.prefix_append _ _).trans h, fun _ he => Ending.closed.inj he ▸ h⟩

/-- The marks that close a string stand where its closing quote does. -/
theorem closing_front {q : Quotation} {rest : List Char}
    (h : ¬ (q.triple && !decide (rest.take 2 = [q.quote, q.quote])) = true) :
    (if q.triple then [q.quote, q.quote, q.quote] else [q.quote]) <+: q.quote :: rest := by
  split
  · next htriple =>
    have htwo : rest.take 2 = [q.quote, q.quote] := by simpa [htriple] using h
    exact (List.prefix_cons_inj q.quote).mpr (htwo ▸ List.take_prefix 2 rest)
  · exact (List.prefix_cons_inj q.quote).mpr List.nil_prefix

/-- All that a scan takes is taken from the head of the text, behind what was taken before. -/
theorem scanFrom_heads (q : Quotation) (fuel : Nat) :
    ∀ (state : Progress) (text : List Char),
      (scanFrom q fuel state text).Heads (state.all ++ text) := by
  induction fuel with
  | zero => exact fun state text => .of_unclosed (List.prefix_append _ _) (by simp)
  | succ fuel ih =>
    intro state text
    cases text with
    | nil => exact .of_unclosed (List.prefix_append _ _) (by simp)
    | cons c rest =>
      have hall : state.all <+: state.all ++ c :: rest := List.prefix_append _ _
      -- the scan goes on behind the characters that it has taken
      have hgo (next : Progress) (front more : List Char) (hrest : front ++ more = rest)
          (hnext : next.all = state.all ++ c :: front) :
          (scanFrom q fuel next more).Heads (state.all ++ c :: rest) := by
        have hmore := ih next more
        rwa [hnext, List.append_assoc, List.cons_append, hrest] at hmore
      have hdrop (count : Nat) :
          rest.take count ++ rest.drop (rest.take count).length = rest :=
        List.prefix_iff_eq_append.mp (List.take_prefix count rest)
      have hpiece (taken : List Char) (solid : Bool) :
          (⟨state.finished, taken.reverse ++ c :: state.piece, solid⟩ : Progress).all =
            state.all ++ c :: taken := by
        simp [Progress.all]
      unfold scanFrom
      dsimp only
      split
      · -- a brace, which may be doubled
        have hbrace : Run.Heads (if c = '\x7b' then ⟨state.all, .field, c :: rest⟩
            else ⟨state.all, .unclosed, c :: rest⟩) (state.all ++ c :: rest) := by
          split <;> exact .of_unclosed hall (by simp)
        split
        · next d more =>
          split
          · next hd => exact hgo _ [c] more (by rw [hd]; rfl) (Progress.all_finish _ _)
          · exact hbrace
        · exact hbrace
      · split
        · -- a backslash with what belongs to it
          split
          · exact hgo _ _ _ (hdrop _) (hpiece _ _)
          · split
            · exact hgo _ _ _ (hdrop _) (hpiece _ _)
            · exact hgo _ _ _ (hdrop _) (Progress.all_finish _ _)
        · split
          · next hquote =>
            subst hquote
            split
            · split
              · split
                · next hd => exact hgo _ [_] _ rfl (Progress.all_finish _ _)
                · exact hgo _ [] _ rfl (Progress.all_finish _ _)
              · exact hgo _ [] _ rfl (Progress.all_finish _ _)
            · next htriple =>
              have hmarks := (List.prefix_append_right_inj state.all).mpr (closing_front htriple)
              split
              · exact .of_closed hmarks
              · -- the last piece is counted to what closes the string
                have hpieces : state.all = state.finished.reverse ++ state.piece.reverse := by
                  simp [Progress.all]
                refine .of_closed ?_
                rwa [hpieces, List.append_assoc, ← hpieces] at hmarks
          · split
            · exact .of_unclosed List.nil_prefix (by simp)
            · split
              · exact .of_unclosed hall (by simp)
              · exact hgo _ [] _ rfl (hpiece [] true)

end Quotation

/-! ### Cuts -/

theorem single_front (c : Char) (rest : List Char) : [c] <+: c :: rest :=
  (List.prefix_cons_inj c).mpr List.nil_prefix

theorem cutSymbol_front (modes : List Mode) (text : List Char) :
    (cutCode.cutSymbol modes text).taken <+: text := by
  unfold cutCode.cutSymbol
  split <;> exact List.take_prefix _ _

theorem cutField_front (modes outer : List Mode) (recent : Recent) (colons : Nat) (c : Char)
    (rest : List Char) :
    (cutCode.cutField modes recent (c :: rest) colons outer c rest).taken <+: c :: rest := by
  have hone := single_front c rest
  unfold cutCode.cutField
  split
  · exact hone
  · split
    · split
      · split
        · exact (List.prefix_cons_inj c).mpr (single_front _ _)
        · exact hone
      · exact hone
    · split
      · split
        · exact hone
        · split
          · exact List.take_prefix _ _
          · exact hone
      · exact cutSymbol_front modes _

theorem code_front (modes : List Mode) (recent : Recent) (text flags : List Char) :
    (cutCode.code modes recent text flags).taken <+: text := by
  cases text with
  | nil => exact List.nil_prefix
  | cons c rest =>
    unfold cutCode.code
    dsimp only
    split
    · exact (List.prefix_cons_inj c).mpr (List.takeWhile_prefix _)
    · split
      · exact List.take_prefix _ _
      · split
        · exact cutField_front _ _ recent _ c rest
        · exact cutSymbol_front modes _

theorem cutCode_front (modes : List Mode) (recent : Recent) (text : List Char) :
    (cutCode modes recent text).taken <+: text := by
  have hsplit :
      text.takeWhile isStringFlag ++ text.drop (text.takeWhile isStringFlag).length = text :=
    List.prefix_iff_eq_append.mp (List.takeWhile_prefix isStringFlag)
  unfold cutCode
  dsimp only
  split
  · next quote behind hrest =>
    split
    · have hmarks := (List.prefix_append_right_inj (text.takeWhile isStringFlag)).mpr
        (ofOpening_front (text.takeWhile isStringFlag) quote behind).1
      rwa [← hrest, hsplit] at hmarks
    · exact code_front modes recent text _
  · exact code_front modes recent text _

theorem cutQuoted_front (q : Quotation) (outer : List Mode) (text : List Char) :
    (cutQuoted q outer text).taken <+: text := by
  have hscan : (q.scan text).Heads text := q.scanFrom_heads _ ⟨[], [], false⟩ text
  unfold cutQuoted
  dsimp only
  split
  · exact hscan.content
  · next hcontent =>
    split
    · next mark hmark =>
      have hnil : (q.scan text).content = [] := by simpa using hcontent
      have hclosed := hscan.closed mark hmark
      rwa [hnil] at hclosed
    · exact List.take_prefix _ _
    · exact List.take_prefix _ _

theorem cutSpec_front (outer : List Mode) (text : List Char) :
    (cutSpec outer text).taken <+: text := by
  unfold cutSpec
  split
  · exact List.nil_prefix
  · split
    · exact single_front _ _
    · split
      · exact single_front _ _
      · exact List.takeWhile_prefix _

/-- A cut takes what stands at the head of the text. -/
theorem nextCut_front (modes : List Mode) (recent : Recent) (text : List Char) :
    (nextCut modes recent text).taken <+: text := by
  rcases modes with _ | ⟨_ | _ | _, outer⟩
  · exact cutCode_front _ recent text
  · exact cutQuoted_front _ outer text
  · exact cutCode_front _ recent text
  · exact cutSpec_front outer text

/-! ### Places -/

/-- A place is the one behind a part of the text that begins at another place. -/
def Fronts (here : Position) (text : List Char) (place : Position) : Prop :=
  ∃ front, front <+: text ∧ here.advance front = place

namespace Fronts

variable {here place : Position} {text : List Char}

theorem refl (here : Position) (text : List Char) : Fronts here text here :=
  ⟨[], List.nil_prefix, rfl⟩

theorem behind {front more : List Char} (h : Fronts (here.advance front) more place)
    (htext : front ++ more = text) : Fronts here text place := by
  obtain ⟨part, hpart, rfl⟩ := h
  exact ⟨front ++ part, htext ▸ (List.prefix_append_right_inj front).mpr hpart,
    here.advance_append front part⟩

end Fronts

/-- A gap with the place and the text behind it: it stands at the head of the text, and so do the
continued lines in it. -/
structure GapFronts (here : Position) (text : List Char)
    (found : List Trivia × Position × List Char) : Prop where
  split : ∃ front, front ++ found.2.2 = text ∧ here.advance front = found.2.1
  places : ∀ place ∈ gapPlaces found.1, Fronts here text place

theorem GapFronts.empty (here : Position) (text : List Char) :
    GapFronts here text ([], here, text) :=
  ⟨⟨[], rfl, rfl⟩, nofun⟩

/-- A gap behind more characters, with a continued line for them or without one. -/
theorem GapFronts.behind {here : Position} {text rest : List Char} {wide : List Trivia}
    {found : List Trivia × Position × List Char} (front : List Char)
    (h : GapFronts (here.advance front) rest found) (htext : front ++ rest = text)
    (hwide : ∀ place ∈ gapPlaces wide, place = here ∨ place ∈ gapPlaces found.1) :
    GapFronts here text (wide, found.2.1, found.2.2) := by
  obtain ⟨⟨part, hpart, hstop⟩, hplaces⟩ := h
  refine ⟨⟨front ++ part, ?_, ?_⟩, fun place hm => ?_⟩
  · rw [List.append_assoc, hpart, htext]
  · rw [here.advance_append, hstop]
  · rcases hwide place hm with rfl | hm
    · exact .refl place text
    · exact (hplaces place hm).behind htext

/-- A gap behind one more character, which begins no continued line. -/
theorem GapFronts.step {here : Position} {c : Char} {rest : List Char} {wide : List Trivia}
    {found : List Trivia × Position × List Char} (h : GapFronts (here.step c) rest found)
    (hwide : ∀ place ∈ gapPlaces wide, place ∈ gapPlaces found.1) :
    GapFronts here (c :: rest) (wide, found.2.1, found.2.2) :=
  h.behind [c] rfl fun place hm => .inr (hwide place hm)

theorem takeGap_fronts (comment : Option (List Char)) (here : Position) (text : List Char) :
    GapFronts here text (takeGap comment here text) := by
  fun_induction takeGap comment here text with
  | case1 => exact ⟨⟨[], rfl, rfl⟩, fun _ hm => absurd hm List.not_mem_nil⟩
  | case5 | case15 => exact .empty _ _
  | case2 _ _ _ _ _ _ htaken ih =>
    rw [htaken] at ih
    exact ih.step fun _ => id
  | case3 _ _ _ _ _ _ _ _ _ htaken ih =>
    rw [htaken] at ih
    exact ih.step fun _ => id
  | case6 _ _ _ _ _ htaken ih =>
    rw [htaken] at ih
    exact ih.behind ['\\', '\n'] rfl fun _ => List.mem_cons.mp
  | case7 _ _ _ _ _ htaken ih =>
    rw [htaken] at ih
    exact ih.behind ['\\', '\r', '\n'] rfl fun _ => List.mem_cons.mp
  | case8 here =>
    exact (GapFronts.empty (here.step '\\') []).behind ['\\'] rfl fun _ => List.mem_cons.mp
  | _ =>
    rename_i ih
    exact ih.step fun _ => id

/-- A gap stands at the head of the text, with the continued lines in it. -/
theorem gapBefore_fronts (modes : List Mode) (here : Position) (text : List Char) :
    GapFronts here text (gapBefore modes here text) := by
  have hcode := takeGap_fronts none here text
  rcases modes with _ | ⟨_ | _ | _, outer⟩
  · exact hcode
  · exact .empty here text
  · exact hcode
  · exact .empty here text

/-- The places of a token that is cut are those of its gap, its own, and perhaps that of a second
star in it. -/
theorem Cut.Proper.fronts {cut : Cut} (h : cut.Proper) {gap : List Trivia}
    {start behind place : Position} {text : List Char} (hfront : cut.taken <+: text)
    (hm : place ∈ start :: Token.second ⟨gap, cut.lexeme, String.ofList cut.taken, start, behind⟩) :
    Fronts start text place := by
  rcases List.mem_cons.mp hm with rfl | hm
  · exact .refl place text
  · unfold Token.second at hm
    split at hm
    · next hpow =>
      have htaken := h.pow (by simpa [Token.isSymbol] using hpow)
      rw [htaken] at hfront
      rw [List.mem_singleton.mp hm, ← start.step_star]
      exact ⟨['*'], (single_front '*' ['*']).trans hfront, rfl⟩
    · cases hm

theorem tokensFrom_fronts (fuel : Nat) :
    ∀ (modes : List Mode) (recent : Recent) (here : Position) (text : List Char),
      ∀ place ∈ places (tokensFrom fuel modes recent here text), Fronts here text place := by
  induction fuel with
  | zero =>
    intro modes recent here text place hm
    obtain rfl : place = here := List.mem_singleton.mp hm
    exact .refl place text
  | succ fuel ih =>
    intro modes recent here text place hm
    obtain ⟨⟨front, htext, hstop⟩, hplaces⟩ := gapBefore_fronts modes here text
    unfold tokensFrom at hm
    generalize gapBefore modes here text = found at *
    obtain ⟨gap, start, behind⟩ := found
    dsimp only at htext hstop hplaces hm
    subst hstop
    cases behind with
    | nil =>
      have hlast : place ∈ gapPlaces gap ++ [here.advance front] := by
        cases modes <;> simpa [places, Token.places, Token.second, Token.isSymbol] using hm
      rcases List.mem_append.mp hlast with hm | hm
      · exact hplaces place hm
      · rw [List.mem_singleton.mp hm]
        exact (Fronts.refl _ []).behind htext
    | cons c rest =>
      dsimp only at hm
      have hne := List.cons_ne_nil c rest
      have hfront := nextCut_front modes recent (c :: rest)
      rw [places_cons, Token.places, List.append_assoc] at hm
      rcases List.mem_append.mp hm with hm | hm
      · exact hplaces place hm
      · rcases List.mem_append.mp hm with hm | hm
        · exact ((nextCut_proper modes recent hne).fronts hfront hm).behind htext
        · have hmore := (ih _ _ _ _ place hm).behind (List.prefix_iff_eq_append.mp hfront)
          exact hmore.behind htext

/-- The place of a token is the one behind a part of the source text. -/
theorem exists_front {source : String} {place : Position} (h : place ∈ places (tokenize source)) :
    Fronts .first source.toList place :=
  tokensFrom_fronts _ _ _ _ _ place h

/-! ### Lines -/

/-- A line ends at each line feed and nowhere else. -/
theorem line_advance (here : Position) (text : List Char) :
    (here.advance text).line = here.line + text.count '\n' := by
  induction text generalizing here with
  | nil => rfl
  | cons c text ih =>
    rw [Position.advance_cons, ih, Position.step]
    by_cases hc : c = '\n'
    · simp [hc]
      omega
    · simp [hc]

/-- A line feed ends a line; any other character is on the line of what follows it, if any does. -/
theorem length_pieces_cons (c : Char) (rest : List Char) :
    (Text.pieces (c :: rest)).length =
      if c = '\n' then (Text.pieces rest).length + 1 else max 1 (Text.pieces rest).length := by
  rw [Text.pieces]
  split
  · rfl
  · cases Text.pieces rest with
    | nil => rfl
    | cons line others => simp

/-- A text has more lines than there are line feeds before any character of it. -/
theorem count_lt_length_pieces (front : List Char) {behind : List Char} (h : behind ≠ []) :
    front.count '\n' < (Text.pieces (front ++ behind)).length := by
  induction front with
  | nil =>
    obtain ⟨c, rest, rfl⟩ := List.exists_cons_of_ne_nil h
    rw [List.nil_append, length_pieces_cons, List.count_nil]
    split <;> omega
  | cons c front ih =>
    rw [List.cons_append, length_pieces_cons]
    by_cases hc : c = '\n'
    · rw [hc, List.count_cons_self, if_pos rfl]
      exact Nat.succ_lt_succ ih
    · rw [List.count_cons_of_ne hc, if_neg hc]
      exact lt_max_of_lt_right ih

/-- A place in a text that comes before another one is on a line of the text. -/
theorem line_le_of_before {text : List Char} {place later : Position}
    (hplace : Fronts .first text place) (hlater : Fronts .first text later)
    (h : place.Before later) : 1 ≤ place.line ∧ place.line ≤ (Text.lines text).length := by
  obtain ⟨front, ⟨behind, htext⟩, rfl⟩ := hplace
  obtain ⟨more, ⟨rest, hrest⟩, rfl⟩ := hlater
  have hline := line_advance .first front
  have hne : behind ≠ [] := by
    -- no part of a text goes beyond its end
    rintro rfl
    have hend : Position.first.advance front = (Position.first.advance more).advance rest := by
      rw [← Position.advance_append, hrest, ← htext, List.append_nil]
    exact (Climbs.advance (Position.first.advance more) rest).upward (hend ▸ h)
  have hcount := count_lt_length_pieces front hne
  rw [htext] at hcount
  rw [Text.lines, List.length_map, hline, show Position.first.line = 1 from rfl]
  omega

end Marksheet.Source
