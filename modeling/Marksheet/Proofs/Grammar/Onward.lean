import Marksheet.Grammar.Layout
import Marksheet.Proofs.Grammar.Gives
import Marksheet.Proofs.Source.Places

/-!
# Reading goes onward

A reader gives back the tokens that it has not taken, and no token comes back
once it has been taken. `Lays laid room` says so of a reading by places: what
`laid` lists of the value, with the places of the tokens left behind it, is
part of the room and in its order. The room is the places of the tokens that
were read from, or those behind the first of them (`behind`) where a reader
always takes it. A double star that is read as two leaves its second place.

There is one lemma for each way to put readings together and for each reader
that the readings of phrases are made of.
-/

namespace Marksheet.Grammar

open Marksheet.Source Marksheet.Syntax

/-- The places behind the one where the first token begins. -/
def behind : List Token → List Position
  | [] => []
  | token :: rest => token.second ++ places rest

theorem behind_sublist (tokens : List Token) : (behind tokens).Sublist (places tokens) := by
  cases tokens with
  | nil => exact .refl _
  | cons token rest =>
    have htoken : token.second.Sublist token.places :=
      .trans (List.sublist_cons_self _ _) (List.sublist_append_right _ _)
    exact htoken.append (.refl _)

theorem rest_sublist (token : Token) (rest : List Token) :
    (places rest).Sublist (behind (token :: rest)) :=
  List.sublist_append_right _ _

theorem tail_sublist (token : Token) (rest : List Token) :
    (places rest).Sublist (places (token :: rest)) :=
  (rest_sublist token rest).trans (behind_sublist _)

/-- The place of a token comes before those behind it. -/
theorem start_behind_sublist (token : Token) (rest : List Token) :
    (token.start :: behind (token :: rest)).Sublist (places (token :: rest)) := by
  have hplaces : places (token :: rest) =
      gapPlaces token.gap ++ (token.start :: behind (token :: rest)) := by
    simp [places_cons, Token.places, behind]
  rw [hplaces]
  exact List.sublist_append_right _ _

theorem drop_sublist (count : Nat) (tokens : List Token) :
    (places (tokens.drop count)).Sublist (places tokens) :=
  (List.drop_sublist count tokens).flatMap _

/-- Two stars have the places of a double star. -/
theorem behind_splitStar (tokens : List Token) : behind (splitStar tokens) = behind tokens := by
  cases tokens with
  | nil => rfl
  | cons token rest =>
    cases hpow : token.isSymbol (.op .pow) with
    | true =>
      have hsecond : token.second = [⟨token.start.line, token.start.column + 1⟩] := if_pos hpow
      have hsplit : behind (splitStar (token :: rest)) =
          ⟨token.start.line, token.start.column + 1⟩ :: places rest := by
        rw [splitStar, if_pos hpow]
        rfl
      rw [hsplit, behind, hsecond, List.singleton_append]
    | false => simp [splitStar, hpow]

/-! ### Putting readings together -/

/-- What is laid of a value and the places of the tokens left are part of the room. -/
def Lays {α : Type} (laid : α → List Position) (room : List Position)
    (reading : Except Stuck (α × List Token)) : Prop :=
  Gives (fun found => (laid found.1 ++ places found.2).Sublist room) reading

/-- The places of the tokens left are part of the room. -/
abbrev Leaves {α : Type} (room : List Position) (reading : Except Stuck (α × List Token)) : Prop :=
  Lays (fun _ => []) room reading

section

variable {α β : Type} {laid : α → List Position} {more : β → List Position}
  {room wide before : List Position} {tokens rest : List Token}

theorem lays_ok {value : α} (h : (laid value ++ places tokens).Sublist room) :
    Lays laid room (.ok (value, tokens)) :=
  gives_ok h

theorem lays_stuck (tokens : List Token) : Lays laid room (stuck tokens) :=
  gives_stuck tokens

theorem lays_error (reason : Stuck) : Lays laid room (.error reason) :=
  gives_error reason

theorem lays_mono {reading : Except Stuck (α × List Token)} (hroom : room.Sublist wide)
    (h : Lays laid room reading) : Lays laid wide reading :=
  fun found he => (h found he).trans hroom

/-- A reading behind the first token. -/
theorem lays_tail {reading : Except Stuck (α × List Token)} {token : Token}
    (h : Lays laid (places rest) reading) : Lays laid (places (token :: rest)) reading :=
  lays_mono (tail_sublist token rest) h

/-- A reading behind the first token, which has been taken. -/
theorem lays_taken {reading : Except Stuck (α × List Token)} {token : Token}
    (h : Lays laid (places rest) reading) : Lays laid (behind (token :: rest)) reading :=
  lays_mono (rest_sublist token rest) h

/-- A reading that takes the first token. -/
theorem lays_weaken {reading : Except Stuck (α × List Token)}
    (h : Lays laid (behind tokens) reading) : Lays laid (places tokens) reading :=
  lays_mono (behind_sublist tokens) h

/-- What one reading lays is kept for the value of the whole. -/
theorem lays_first {reading : Except Stuck (β × List Token)}
    {next : β × List Token → Except Stuck (α × List Token)} (hr : Lays more room reading)
    (hn : ∀ value rest, Lays laid (more value ++ places rest) (next (value, rest))) :
    Lays laid room (reading >>= next) :=
  gives_bind hr fun found hf => lays_mono hf (hn found.1 found.2)

/-- One reading after another. -/
theorem lays_after {reading : Except Stuck (β × List Token)}
    {next : β × List Token → Except Stuck (α × List Token)} (hr : Leaves room reading)
    (hn : ∀ value rest, Lays laid (places rest) (next (value, rest))) :
    Lays laid room (reading >>= next) :=
  lays_first hr hn

/-- A reading that takes the first token, and one after it. -/
theorem lays_past {reading : Except Stuck (β × List Token)}
    {next : β × List Token → Except Stuck (α × List Token)} (hr : Leaves (behind tokens) reading)
    (hn : ∀ value rest, Lays laid (places rest) (next (value, rest))) :
    Lays laid (places tokens) (reading >>= next) :=
  lays_after (lays_weaken hr) hn

/-- A reading whose tokens left need not be those that the next one begins with. -/
theorem lays_look {reading : Except Stuck (β × List Token)}
    {next : β × List Token → Except Stuck (α × List Token)} (hr : Leaves wide reading)
    (hn : ∀ value rest, (places rest).Sublist wide → Lays laid room (next (value, rest))) :
    Lays laid room (reading >>= next) :=
  gives_bind hr fun found hf => hn found.1 found.2 hf

/-- What one reading lays is kept behind what has been laid before. -/
theorem lays_bind {reading : Except Stuck (β × List Token)}
    {next : β × List Token → Except Stuck (α × List Token)} (hr : Lays more room reading)
    (hn : ∀ value rest, Lays laid (before ++ more value ++ places rest) (next (value, rest))) :
    Lays laid (before ++ room) (reading >>= next) := by
  refine gives_bind hr fun found hf => lays_mono ?_ (hn found.1 found.2)
  rw [List.append_assoc]
  exact (List.Sublist.refl before).append hf

/-- A reading behind what has been laid before, and another one after it. -/
theorem lays_behind {reading : Except Stuck (β × List Token)}
    {next : β × List Token → Except Stuck (α × List Token)} (hr : Leaves room reading)
    (hn : ∀ value rest, Lays laid (before ++ places rest) (next (value, rest))) :
    Lays laid (before ++ room) (reading >>= next) :=
  gives_bind hr fun found hf => lays_mono ((List.Sublist.refl before).append hf) (hn found.1 found.2)

theorem lays_either {first second : Except Stuck (α × List Token)} (hf : Lays laid room first)
    (hs : Lays laid room second) : Lays laid room (either first second) :=
  gives_either hf hs

/-- Nothing more is read. -/
theorem leaves_all (value : α) (tokens : List Token) : Leaves (places tokens) (.ok (value, tokens)) :=
  lays_ok (.refl _)

end

/-! ### Gaps -/

/-- Only blanks are dropped. -/
theorem gapPlaces_dropBlanks (gap : List Trivia) : gapPlaces (dropBlanks gap) = gapPlaces gap := by
  induction gap with
  | nil => rfl
  | cons piece gap ih => cases piece <;> first | rfl | exact ih

theorem close_places_sublist (token : Token) : token.close.places.Sublist token.places :=
  List.sublist_append_right (gapPlaces token.gap) _

/-- The places of continued lines. -/
def continuedPlaces (continued : List Continued) : List Position := continued.map Prod.snd

/-- The continued lines that a look passes and the token it comes to keep their order. -/
theorem settleFrom_places (indent : Nat) (viable : Viable) (fuel : Nat) :
    ∀ (continued : List Continued) (token : Token),
      (continuedPlaces (settleFrom indent viable fuel continued token).continued ++
        (settleFrom indent viable fuel continued token).token.places).Sublist
          (continuedPlaces continued.reverse ++ token.places) := by
  induction fuel with
  | zero => exact fun continued token => (List.Sublist.refl _).append (close_places_sublist token)
  | succ fuel ih =>
    intro continued token
    have hclose := (List.Sublist.refl (continuedPlaces continued.reverse)).append
      (close_places_sublist token)
    unfold settleFrom
    split
    · exact hclose
    · split
      · next text start gap hgap =>
        have hplaces : token.places =
            start :: Token.places { token with gap } := by
          rw [Token.places, ← gapPlaces_dropBlanks, hgap]
          rfl
        have hrest := ih ((text, start) :: continued) { token with gap }
        simpa [hplaces, continuedPlaces] using hrest
      · next text gap hgap =>
        have hplaces : token.places = Token.places { token with gap } := by
          rw [Token.places, ← gapPlaces_dropBlanks, hgap]
          rfl
        rw [hplaces]
        exact ih continued { token with gap }
      · exact hclose
    · exact .refl _

theorem settle_places (indent : Nat) (viable : Viable) (token : Token) (rest : List Token) :
    (continuedPlaces (settle indent viable token).continued ++
      places ((settle indent viable token).token :: rest)).Sublist (places (token :: rest)) := by
  have h := settleFrom_places indent viable (token.gap.length + 1) [] token
  rw [places_cons, ← List.append_assoc]
  exact h.append (.refl _)

/-- The token behind a gap has its place among those of the tokens. -/
theorem settled_sublist (indent : Nat) (viable : Viable) (token : Token) (rest : List Token) :
    (places ((settle indent viable token).token :: rest)).Sublist (places (token :: rest)) :=
  (List.sublist_append_right _ _).trans (settle_places indent viable token rest)

section

variable {α : Type} {laid : α → List Position} {indent : Nat} {viable : Viable}
  {tokens rest : List Token} {parts : List Phrase} {token : Token}

theorem ahead_sublist (h : ahead indent viable tokens = some (parts, token, rest)) :
    (places (token :: rest)).Sublist (places tokens) := by
  cases tokens with
  | nil => cases h
  | cons first others =>
    have hsettled := settled_sublist indent viable first others
    unfold ahead at h
    dsimp only at h
    split at h
    · cases h
      exact hsettled
    · cases h

/-- A reading from the token behind a gap. -/
theorem lays_ahead {reading : Except Stuck (α × List Token)}
    (h : ahead indent viable tokens = some (parts, token, rest))
    (hr : Lays laid (places (token :: rest)) reading) : Lays laid (places tokens) reading :=
  lays_mono (ahead_sublist h) hr

/-- A reading behind the token behind a gap. -/
theorem lays_beyond {reading : Except Stuck (α × List Token)}
    (h : ahead indent viable tokens = some (parts, token, rest))
    (hr : Lays laid (places rest) reading) : Lays laid (places tokens) reading :=
  lays_ahead h (lays_tail hr)

end

/-! ### Single tokens -/

variable (indent : Nat) (viable : Viable) (symbol : Symbol) (word : String) (tokens : List Token)

theorem pass_leaves : Leaves (places tokens) (pass indent viable tokens) := by
  unfold pass
  split
  · next parts token rest h => exact lays_ahead h (leaves_all _ _)
  · exact lays_stuck _

theorem takeSymbol_leaves : Leaves (behind tokens) (takeSymbol symbol tokens) := by
  unfold takeSymbol
  split
  · split
    · exact lays_taken (leaves_all _ _)
    · exact lays_stuck _
  · exact lays_stuck _

theorem takeCloser_leaves : Leaves (behind tokens) (takeCloser symbol tokens) := by
  unfold takeCloser
  split
  · split
    · exact lays_taken (leaves_all _ _)
    · split
      · exact lays_error _
      · exact lays_stuck _
  · exact lays_stuck _

theorem takeWord_leaves : Leaves (behind tokens) (takeWord word tokens) := by
  unfold takeWord
  split
  · split
    · exact lays_taken (leaves_all _ _)
    · exact lays_stuck _
  · exact lays_stuck _

theorem takeName_leaves : Leaves (behind tokens) (takeName tokens) := by
  unfold takeName
  split
  · split
    · exact lays_taken (leaves_all _ _)
    · exact lays_stuck _
  · exact lays_stuck _

theorem passSymbol_leaves : Leaves (places tokens) (passSymbol indent viable symbol tokens) := by
  refine lays_after (pass_leaves indent viable tokens) fun parts rest => ?_
  exact lays_past (takeSymbol_leaves symbol rest) fun _ rest => leaves_all parts rest

theorem passCloser_leaves : Leaves (places tokens) (passCloser indent viable symbol tokens) := by
  refine lays_after (pass_leaves indent viable tokens) fun parts rest => ?_
  exact lays_past (takeCloser_leaves symbol rest) fun _ rest => leaves_all parts rest

theorem passWord_leaves : Leaves (places tokens) (passWord indent viable word tokens) := by
  refine lays_after (pass_leaves indent viable tokens) fun parts rest => ?_
  exact lays_past (takeWord_leaves word rest) fun _ rest => leaves_all parts rest

theorem passName_leaves : Leaves (places tokens) (passName indent viable tokens) := by
  refine lays_after (pass_leaves indent viable tokens) fun parts rest => ?_
  exact lays_weaken (takeName_leaves rest)

end Marksheet.Grammar
