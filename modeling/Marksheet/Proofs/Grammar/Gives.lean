import Marksheet.Grammar.Reader
import Marksheet.Syntax.Sentence

/-!
# What a successful reading gives

`Gives P reading` says that whatever a reading gives has the property `P`; it
says nothing of a reading that gets stuck. A reading is made of others by
binding, by trying one after the other and by changing the refusal, and each
of these has one lemma. `Offers` says the same of a reader that is offered for
a word, if there is one.
-/

namespace Marksheet.Grammar

open Marksheet.Source Marksheet.Syntax

/-- Whatever a reading gives has a property. -/
def Gives {α : Type} (P : α → Prop) (reading : Except Stuck α) : Prop :=
  ∀ value, reading = .ok value → P value

section

variable {α β : Type} {P : α → Prop} {Q : β → Prop}

theorem gives_ok {value : α} (h : P value) : Gives P (.ok value) := by
  intro found he
  cases he
  exact h

theorem gives_error (reason : Stuck) : Gives P (.error reason) := by
  intro found he
  cases he

/-- Nothing is known of what a reading gives. -/
theorem gives_any (reading : Except Stuck α) : Gives (fun _ => True) reading := fun _ _ => trivial

theorem gives_bind {reading : Except Stuck β} {next : β → Except Stuck α} (hr : Gives Q reading)
    (hn : ∀ value, Q value → Gives P (next value)) : Gives P (reading >>= next) := by
  intro found he
  cases hv : reading with
  | error reason =>
    rw [hv] at he
    cases he
  | ok value =>
    rw [hv] at he
    exact hn value (hr value hv) found he

/-- What a first reading gives plays no part in what the whole gives. -/
theorem gives_after {reading : Except Stuck β} {next : β → Except Stuck α}
    (hn : ∀ value, Gives P (next value)) : Gives P (reading >>= next) :=
  gives_bind (gives_any reading) fun value _ => hn value

theorem gives_stuck {P : α × List Token → Prop} (tokens : List Token) : Gives P (stuck tokens) :=
  gives_error _

theorem gives_either {first second : Except Stuck α} (hf : Gives P first) (hs : Gives P second) :
    Gives P (either first second) := by
  cases first with
  | ok value => exact hf
  | error reason =>
    cases second with
    | ok value => exact hs
    | error reason' => exact gives_error _

/-- Another refusal does not change what is given. -/
theorem gives_mapError {reading : Except Stuck α} (h : Gives P reading)
    (change : Stuck → Stuck) : Gives P (reading.mapError change) := by
  cases reading with
  | ok value => exact h
  | error reason => exact gives_error _

end

/-- If a reader is offered, all its readings have a property. -/
def Offers (P : Except Stuck (Form × List Token) → Prop) (offered : Option (Reader Form)) : Prop :=
  ∀ reader ∈ offered, ∀ tokens, P (reader tokens)

theorem offers_none {P : Except Stuck (Form × List Token) → Prop} : Offers P none := by
  intro reader hm
  cases hm

theorem offers_if {P : Except Stuck (Form × List Token) → Prop} {condition : Prop}
    [Decidable condition] {reader : Reader Form} {others : Option (Reader Form)}
    (hr : ∀ tokens, P (reader tokens)) (ho : Offers P others) :
    Offers P (if condition then some reader else others) := by
  split
  · intro found hm
    cases hm
    exact hr
  · exact ho

end Marksheet.Grammar
