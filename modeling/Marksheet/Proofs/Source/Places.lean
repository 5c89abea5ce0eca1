import Marksheet.Proofs.Source.CrlfTokens

/-!
# The places of tokens

`Token.places` lists where the continued lines of a token's gap begin and where
the token itself does; a double star has a second place, since it may be read
as two stars. A token takes at least one character, so over a whole text the
places strictly ascend (`places_ascend`), and whatever is read from tokens in
their order keeps that order.
-/

namespace Marksheet.Source

/-! ### The order of places -/

namespace Position

/-- A place comes before another one. -/
def Before (first second : Position) : Prop :=
  first.line < second.line ∨ first.line = second.line ∧ first.column < second.column

instance (first second : Position) : Decidable (first.Before second) :=
  inferInstanceAs (Decidable (_ ∨ _))

theorem Before.trans {first second third : Position} (h : first.Before second)
    (h' : second.Before third) : first.Before third := by
  unfold Before at *
  omega

theorem Before.line_le {first second : Position} (h : first.Before second) :
    first.line ≤ second.line :=
  h.elim Nat.le_of_lt fun hsame => hsame.1.le

theorem Before.asymm {first second : Position} (h : first.Before second) :
    ¬ second.Before first := by
  unfold Before at *
  omega

theorem before_step (here : Position) (c : Char) : here.Before (here.step c) := by
  have hsize := c.utf8Size_pos
  unfold Before step
  split
  · exact .inl (Nat.lt_succ_self _)
  · exact .inr ⟨rfl, Nat.lt_add_of_pos_right hsize⟩

/-- The second star of a double star stands one column behind the first. -/
theorem step_star (here : Position) : here.step '*' = ⟨here.line, here.column + 1⟩ := by
  have hsize : '*'.utf8Size = 1 := by decide
  simp [step, hsize]

end Position

/-- Places that come one after the other, from a place on and before another one. -/
structure Climbs (low : Position) (found : List Position) (high : Position) : Prop where
  ordered : found.Pairwise Position.Before
  above : ∀ place ∈ found, ¬ place.Before low
  below : ∀ place ∈ found, place.Before high
  upward : ¬ high.Before low

namespace Climbs

variable {low middle high : Position} {found more : List Position}

theorem refl (low : Position) : Climbs low [] low :=
  ⟨.nil, nofun, nofun, fun h => h.asymm h⟩

theorem append (first : Climbs low found middle) (second : Climbs middle more high) :
    Climbs low (found ++ more) high where
  ordered := List.pairwise_append.mpr ⟨first.ordered, second.ordered, fun a ha b hb => by
    have hbelow := first.below a ha
    have habove := second.above b hb
    unfold Position.Before at *
    omega⟩
  above place hm := by
    rcases List.mem_append.mp hm with hm | hm
    · exact first.above place hm
    · have habove := second.above place hm
      have hupward := first.upward
      unfold Position.Before at *
      omega
  below place hm := by
    rcases List.mem_append.mp hm with hm | hm
    · have hbelow := first.below place hm
      have hupward := second.upward
      unfold Position.Before at *
      omega
    · exact second.below place hm
  upward := by
    have hfirst := first.upward
    have hsecond := second.upward
    unfold Position.Before at *
    omega

theorem single (h : low.Before high) : Climbs low [low] high where
  ordered := List.pairwise_singleton _ _
  above place hm := by
    rw [List.mem_singleton.mp hm]
    exact fun h' => h'.asymm h'
  below place hm := by
    rwa [List.mem_singleton.mp hm]
  upward := h.asymm

theorem skip (h : low.Before high) : Climbs low [] high := ⟨.nil, nofun, nofun, h.asymm⟩

/-- What climbs behind a character climbs from the character on. -/
theorem step {c : Char} (h : Climbs (low.step c) found high) : Climbs low found high :=
  (skip (low.before_step c)).append h

theorem advance (low : Position) (text : List Char) : Climbs low [] (low.advance text) := by
  induction text generalizing low with
  | nil => exact refl low
  | cons c text ih => exact (ih (low.step c)).step

/-- A place comes before the end of a text that begins there and is not empty. -/
theorem head {text : List Char} (hne : text ≠ []) : Climbs low [low] (low.advance text) := by
  cases text with
  | nil => exact absurd rfl hne
  | cons c text => exact (single (low.before_step c)).append (advance _ text)

end Climbs

/-! ### Gaps -/

/-- Where a continued line begins. -/
def Trivia.place? : Trivia → Option Position
  | .continuation _ start => some start
  | _ => none

/-- Where the continued lines of a gap begin. -/
def gapPlaces (gap : List Trivia) : List Position := gap.filterMap Trivia.place?

theorem takeGap_climbs (comment : Option (List Char)) (here : Position) (text : List Char) :
    Climbs here (gapPlaces (takeGap comment here text).1) (takeGap comment here text).2.1 := by
  fun_induction takeGap comment here text with
  | case1 | case5 | case15 => exact .refl _
  | case2 _ _ _ _ _ _ htaken ih =>
    rw [htaken] at ih
    exact ih.step
  | case3 _ _ _ _ _ _ _ _ _ htaken ih =>
    rw [htaken] at ih
    exact ih.step
  | case6 here _ _ _ _ htaken ih =>
    rw [htaken] at ih
    have hhead : Climbs here [here] ((here.step '\\').step '\n') :=
      .head (List.cons_ne_nil '\\' ['\n'])
    exact hhead.append ih
  | case7 here _ _ _ _ htaken ih =>
    rw [htaken] at ih
    have hhead : Climbs here [here] (((here.step '\\').step '\r').step '\n') :=
      .head (List.cons_ne_nil '\\' ['\r', '\n'])
    exact hhead.append ih
  | case8 here => exact .single (here.before_step '\\')
  | _ =>
    rename_i ih
    exact ih.step

/-- The places of a gap come before the token behind it. -/
theorem gapBefore_climbs (modes : List Mode) (here : Position) (text : List Char) :
    Climbs here (gapPlaces (gapBefore modes here text).1) (gapBefore modes here text).2.1 := by
  have hcode := takeGap_climbs none here text
  rcases modes with _ | ⟨_ | _ | _, outer⟩
  · exact hcode
  · exact .refl here
  · exact hcode
  · exact .refl here

/-! ### Cuts -/

/-- A cut takes at least one character, and for a double star both of them. -/
structure Cut.Proper (cut : Cut) : Prop where
  taken : cut.taken ≠ []
  pow : cut.lexeme = .symbol (.op .pow) → cut.taken = ['*', '*']

theorem Cut.proper_of_ne {cut : Cut} (taken : cut.taken ≠ [])
    (pow : cut.lexeme ≠ .symbol (.op .pow)) : cut.Proper :=
  ⟨taken, fun h => absurd h pow⟩

theorem cutSymbol_proper (modes : List Mode) {text : List Char} (hne : text ≠ []) :
    (cutCode.cutSymbol modes text).Proper := by
  unfold cutCode.cutSymbol
  cases hs : takeSymbol text with
  | none => exact Cut.proper_of_ne (by simpa [List.take_eq_nil_iff] using hne) nofun
  | some symbol =>
    obtain ⟨rest, rfl⟩ := exists_of_takeSymbol hs
    have htaken : (symbol.text.toList ++ rest).take symbol.text.length = symbol.text.toList := by
      rw [← String.length_toList, List.take_left]
    have hlength := text_length_ne_zero symbol
    constructor
    · intro hnil
      have hempty : symbol.text.toList = [] := htaken.symm.trans hnil
      rw [← String.length_toList, hempty] at hlength
      exact hlength rfl
    · intro hpow
      obtain rfl : symbol = .op .pow := Lexeme.symbol.inj hpow
      exact htaken

theorem cutField_proper {modes outer : List Mode} (recent : Recent) (colons : Nat) (c : Char)
    (rest : List Char) :
    (cutCode.cutField modes recent (c :: rest) colons outer c rest).Proper := by
  have hsymbol := cutSymbol_proper modes (List.cons_ne_nil c rest)
  have hone : [c] ≠ [] := List.cons_ne_nil c []
  unfold cutCode.cutField
  split
  · exact Cut.proper_of_ne hone nofun
  · split
    · split
      · split
        · exact Cut.proper_of_ne (List.cons_ne_nil _ _) nofun
        · exact Cut.proper_of_ne hone nofun
      · exact Cut.proper_of_ne hone nofun
    · split
      · split
        · exact Cut.proper_of_ne hone nofun
        · split
          · exact Cut.proper_of_ne (List.cons_ne_nil _ _) nofun
          · exact Cut.proper_of_ne hone nofun
      · exact hsymbol

/-- A number is an integer or a float. -/
theorem takeNumber_ne_symbol {text : List Char} {found : Nat × Lexeme}
    (h : takeNumber text = some found) (symbol : Symbol) : found.2 ≠ .symbol symbol := by
  unfold takeNumber at h
  split at h
  · cases h
    simp
  · simp only [decimalNumber?] at h
    split at h
    · split at h
      · cases h
      · cases h
        simp
    · split at h
      · cases h
      · split at h
        · cases h
          simp
        · cases h
          simp

theorem code_proper (modes : List Mode) (recent : Recent) (flags : List Char) {text : List Char}
    (hne : text ≠ []) : (cutCode.code modes recent text flags).Proper := by
  cases text with
  | nil => exact absurd rfl hne
  | cons c rest =>
    have hsymbol := cutSymbol_proper modes hne
    unfold cutCode.code
    dsimp only
    split
    · exact Cut.proper_of_ne (List.cons_ne_nil _ _) nofun
    · split
      · next length lexeme hnumber =>
        have hlength : length ≠ 0 := takeNumber_ne_zero hnumber
        exact Cut.proper_of_ne (by simpa [List.take_eq_nil_iff] using hlength)
          (takeNumber_ne_symbol hnumber _)
      · split
        · exact cutField_proper recent _ c rest
        · exact hsymbol

theorem cutCode_proper (modes : List Mode) (recent : Recent) {text : List Char} (hne : text ≠ []) :
    (cutCode modes recent text).Proper := by
  unfold cutCode
  dsimp only
  split
  · next quote behind _ =>
    split
    · have hmarks := (ofOpening_front (text.takeWhile Alphabet.isStringFlag) quote behind).2.1
      refine Cut.proper_of_ne (fun hnil => ?_) nofun
      exact hmarks (List.append_eq_nil_iff.mp hnil).2
    · exact code_proper modes recent _ hne
  · exact code_proper modes recent _ hne

/-- What closes a string is not empty. -/
theorem mark_ne_nil {q : Quotation} {fuel : Nat} {state : Quotation.Progress}
    {text mark : List Char} (h : (q.scanFrom fuel state text).ending = .closed mark) :
    mark ≠ [] := by
  have hmarks : (if q.triple then [q.quote, q.quote, q.quote] else [q.quote]) ≠ [] := by
    split <;> exact List.cons_ne_nil _ _
  induction fuel generalizing state text with
  | zero =>
    rw [Quotation.scanFrom] at h
    cases h
  | succ fuel ih =>
    cases text with
    | nil =>
      unfold Quotation.scanFrom at h
      cases h
    | cons c rest =>
      unfold Quotation.scanFrom at h
      dsimp only at h
      split at h
      · -- a brace of a format string
        split at h
        · split at h
          · exact ih h
          · split at h <;> cases h
        · split at h <;> cases h
      · split at h
        · -- a backslash
          split at h
          · exact ih h
          · split at h
            · exact ih h
            · exact ih h
        · split at h
          · -- the quote, which closes the string unless it is one of a triple
            split at h
            · split at h
              · split at h
                · exact ih h
                · exact ih h
              · exact ih h
            · split at h
              · exact Quotation.Ending.closed.inj h ▸ hmarks
              · have hmark := Quotation.Ending.closed.inj h
                exact hmark ▸ List.append_ne_nil_of_right_ne_nil _ hmarks
          · split at h
            · cases h
            · split at h
              · cases h
              · exact ih h

theorem cutQuoted_proper (q : Quotation) (outer : List Mode) {text : List Char} (hne : text ≠ []) :
    (cutQuoted q outer text).Proper := by
  have hone : text.take 1 ≠ [] := by simpa [List.take_eq_nil_iff] using hne
  unfold cutQuoted
  dsimp only
  split
  · next hcontent => exact Cut.proper_of_ne (by simpa using hcontent) nofun
  · split
    · next mark hmark => exact Cut.proper_of_ne (mark_ne_nil hmark) nofun
    · exact Cut.proper_of_ne hone nofun
    · exact Cut.proper_of_ne hone nofun

theorem cutSpec_proper (outer : List Mode) {text : List Char} (hne : text ≠ []) :
    (cutSpec outer text).Proper := by
  cases text with
  | nil => exact absurd rfl hne
  | cons c rest =>
    have hone : [c] ≠ [] := List.cons_ne_nil c []
    unfold cutSpec
    dsimp only
    split
    · exact Cut.proper_of_ne hone nofun
    · split
      · exact Cut.proper_of_ne hone nofun
      · next hopen hclose => exact Cut.proper_of_ne (by simp [hopen, hclose]) nofun

theorem nextCut_proper (modes : List Mode) (recent : Recent) {text : List Char} (hne : text ≠ []) :
    (nextCut modes recent text).Proper := by
  rcases modes with _ | ⟨_ | _ | _, outer⟩
  · exact cutCode_proper _ recent hne
  · exact cutQuoted_proper _ outer hne
  · exact cutCode_proper _ recent hne
  · exact cutSpec_proper outer hne

/-! ### Tokens -/

namespace Token

/-- The place of the second star of a double star. -/
def second (token : Token) : List Position :=
  if token.isSymbol (.op .pow) then [⟨token.start.line, token.start.column + 1⟩] else []

/-- The places that a token brings: those of its gap, its own, and that of a second star. -/
def places (token : Token) : List Position := gapPlaces token.gap ++ token.start :: token.second

end Token

/-- The places of tokens in their order. -/
def places (tokens : List Token) : List Position := tokens.flatMap Token.places

@[simp] theorem places_nil : places [] = [] := rfl

theorem places_cons (token : Token) (rest : List Token) :
    places (token :: rest) = token.places ++ places rest := rfl

/-- A token's own places come before the end of its text. -/
theorem Cut.Proper.climbs {cut : Cut} (h : cut.Proper) (gap : List Trivia)
    (start behind : Position) :
    Climbs start (start :: Token.second ⟨gap, cut.lexeme, String.ofList cut.taken, start, behind⟩)
      (start.advance cut.taken) := by
  by_cases hpow : cut.lexeme = .symbol (.op .pow)
  · have hsecond : Token.second ⟨gap, cut.lexeme, String.ofList cut.taken, start, behind⟩ =
        [start.step '*'] := by
      simp [Token.second, Token.isSymbol, hpow, start.step_star]
    rw [hsecond, h.pow hpow]
    have hfirst := Climbs.single (start.before_step '*')
    exact hfirst.append (.single ((start.step '*').before_step '*'))
  · have hsecond : Token.second ⟨gap, cut.lexeme, String.ofList cut.taken, start, behind⟩ = [] := by
      simp [Token.second, Token.isSymbol, hpow]
    rw [hsecond]
    exact .head h.taken

theorem tokensFrom_climb (fuel : Nat) :
    ∀ (modes : List Mode) (recent : Recent) (here : Position) (text : List Char),
      ∃ high, Climbs here (places (tokensFrom fuel modes recent here text)) high := by
  induction fuel with
  | zero =>
    intro modes recent here text
    exact ⟨_, .single (here.before_step ' ')⟩
  | succ fuel ih =>
    intro modes recent here text
    have hgap := gapBefore_climbs modes here text
    unfold tokensFrom
    generalize gapBefore modes here text = found at hgap ⊢
    obtain ⟨gap, start, behind⟩ := found
    dsimp only at hgap ⊢
    have hlast := hgap.append (.single (start.before_step ' '))
    cases behind with
    | nil =>
      cases modes with
      | nil => exact ⟨_, by simpa [places, Token.places, Token.second, Token.isSymbol] using hlast⟩
      | cons mode outer =>
        exact ⟨_, by simpa [places, Token.places, Token.second, Token.isSymbol] using hlast⟩
    | cons c rest =>
      have hcut := nextCut_proper modes recent (List.cons_ne_nil c rest)
      obtain ⟨high, hrest⟩ := ih (nextCut modes recent (c :: rest)).modes
        ⟨((nextCut modes recent (c :: rest)).lexeme,
          String.ofList (nextCut modes recent (c :: rest)).taken), recent.last⟩
        (start.advance (nextCut modes recent (c :: rest)).taken)
        ((c :: rest).drop (nextCut modes recent (c :: rest)).taken.length)
      exact ⟨high, (hgap.append (hcut.climbs gap start here)).append hrest⟩

/-- The places of the tokens of a text ascend. -/
theorem places_ascend (source : String) : (places (tokenize source)).Pairwise Position.Before := by
  obtain ⟨high, h⟩ := tokensFrom_climb (source.length + 1) [] {} .first source.toList
  exact h.ordered

end Marksheet.Source
