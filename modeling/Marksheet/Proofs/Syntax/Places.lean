import Marksheet.Proofs.Syntax.Suite

/-!
# Places in the concrete form

`blockPlaces` lists where the statements of a block begin, and the clauses that
have a place of their own, with all that stands in them, in the order in which
they are written.
-/

namespace Marksheet.Syntax

open Marksheet.Source (Position)

mutual

/-- Where a statement begins, and the places in it. -/
def Sentence.places : Sentence → List Position
  | .mk form start => start :: form.places

/-- The places of a block. -/
def blockPlaces : List Sentence → List Position
  | [] => []
  | sentence :: rest => sentence.places ++ blockPlaces rest

/-- The places in a statement. -/
def Form.places : Form → List Position
  | .if _ body further => blockPlaces body ++ branchesPlaces further
  | .while _ body orelse => blockPlaces body ++ blockPlaces orelse
  | .for _ _ body orelse => blockPlaces body ++ blockPlaces orelse
  | .try body clauses => blockPlaces body ++ rescuesPlaces clauses
  | .with _ body => blockPlaces body
  | .define _ _ body => blockPlaces body
  | .class _ _ body => blockPlaces body
  | .decorated _ definition => definition.places
  | .match _ clauses => casesPlaces clauses
  | _ => []

/-- The places of a branch; an `elif` has one of its own. -/
def Branch.places : Branch → List Position
  | .elif start _ body => start :: blockPlaces body
  | .else body => blockPlaces body

/-- The places of branches. -/
def branchesPlaces : List Branch → List Position
  | [] => []
  | branch :: rest => branch.places ++ branchesPlaces rest

/-- The places of a clause of a `try` statement; an `except` clause has one of its own. -/
def Rescue.places : Rescue → List Position
  | .except start _ body => start :: blockPlaces body
  | .exceptGroup body => blockPlaces body
  | .else body => blockPlaces body
  | .finally body => blockPlaces body

/-- The places of the clauses of a `try` statement. -/
def rescuesPlaces : List Rescue → List Position
  | [] => []
  | clause :: rest => clause.places ++ rescuesPlaces rest

/-- The places of a clause of a `match` statement. -/
def Case.places : Case → List Position
  | .mk _ body => blockPlaces body

/-- The places of the clauses of a `match` statement. -/
def casesPlaces : List Case → List Position
  | [] => []
  | clause :: rest => clause.places ++ casesPlaces rest

end

theorem blockPlaces_append (first second : Block) :
    blockPlaces (first ++ second) = blockPlaces first ++ blockPlaces second := by
  induction first with
  | nil => rfl
  | cons sentence rest ih =>
    rw [List.cons_append, blockPlaces, blockPlaces, ih, List.append_assoc]

theorem branchesPlaces_append (first second : List Branch) :
    branchesPlaces (first ++ second) = branchesPlaces first ++ branchesPlaces second := by
  induction first with
  | nil => rfl
  | cons branch rest ih =>
    rw [List.cons_append, branchesPlaces, branchesPlaces, ih, List.append_assoc]

theorem rescuesPlaces_append (first second : List Rescue) :
    rescuesPlaces (first ++ second) = rescuesPlaces first ++ rescuesPlaces second := by
  induction first with
  | nil => rfl
  | cons clause rest ih =>
    rw [List.cons_append, rescuesPlaces, rescuesPlaces, ih, List.append_assoc]

theorem casesPlaces_append (first second : List Case) :
    casesPlaces (first ++ second) = casesPlaces first ++ casesPlaces second := by
  induction first with
  | nil => rfl
  | cons clause rest ih =>
    rw [List.cons_append, casesPlaces, casesPlaces, ih, List.append_assoc]

/-- A statement without suites has no places in it. -/
theorem places_of_suites : ∀ form : Form, form.suites = [] → form.places = []
  | .decorated _ definition, h => places_of_suites definition h
  | .match _ [], _ => rfl
  | .match _ (_ :: _), h => by cases h
  | .if .., h | .while .., h | .for .., h | .try .., h | .with .., h | .define .., h
  | .class .., h => by cases h
  | .continuation, _ | .expression _, _ | .legacyPrint, _ | .legacyExec, _ | .assert _, _
  | .return _, _ | .delete _, _ | .raise _, _ | .imports _, _ | .importFrom .., _
  | .importFuture, _ | .global _, _ | .nonlocal _, _ | .pass, _ | .break, _ | .continue, _
  | .typeAlias, _ => rfl

/-! ### Suites without their slots -/

/-- The suites of a statement without their slots. -/
def Form.bodies (form : Form) : List Block := form.suites.map Prod.snd

section

variable {α : Type} (clauses : List α) (slot : Nat → α → Slot) (suite : α → Block)

/-- The numbers of clauses do not count. -/
theorem numbered_bodies :
    (clauses.zipIdx.map fun (clause, index) => (slot index clause, suite clause)).map Prod.snd =
      clauses.map suite := by
  have hsuite : (Prod.snd ∘ fun (clause, index) => (slot index clause, suite clause)) =
      suite ∘ (Prod.fst : α × Nat → α) := rfl
  rw [List.map_map, hsuite, ← List.map_map, List.zipIdx_map_fst]

end

theorem bodies_if (test : Phrase) (body : Block) (further : List Branch) :
    Form.bodies (.if test body further) = body :: further.map Branch.suite :=
  congrArg (body :: ·) (numbered_bodies further Branch.slot Branch.suite)

theorem bodies_try (body : Block) (clauses : List Rescue) :
    Form.bodies (.try body clauses) = body :: clauses.map Rescue.suite :=
  congrArg (body :: ·) (numbered_bodies clauses Rescue.slot Rescue.suite)

theorem bodies_match (subjects : List Phrase) (clauses : List Case) :
    Form.bodies (.match subjects clauses) = clauses.map Case.suite :=
  numbered_bodies clauses (fun index _ => .case index) Case.suite

/-! ### Places of the suites -/

theorem blockPlaces_eq (block : Block) : blockPlaces block = block.flatMap Sentence.places := by
  induction block with
  | nil => rfl
  | cons sentence rest ih => rw [blockPlaces, ih, List.flatMap_cons]

theorem branches_places (branches : List Branch) :
    ((branches.map Branch.suite).flatMap blockPlaces).Sublist (branchesPlaces branches) := by
  induction branches with
  | nil => exact .refl _
  | cons branch rest ih =>
    have hsuite : (blockPlaces branch.suite).Sublist branch.places := by
      cases branch with
      | elif start test body => exact List.sublist_cons_self _ _
      | «else» body => exact .refl _
    exact hsuite.append ih

theorem rescues_places (clauses : List Rescue) :
    ((clauses.map Rescue.suite).flatMap blockPlaces).Sublist (rescuesPlaces clauses) := by
  induction clauses with
  | nil => exact .refl _
  | cons clause rest ih =>
    have hsuite : (blockPlaces clause.suite).Sublist clause.places := by
      cases clause with
      | except start parts body => exact List.sublist_cons_self _ _
      | exceptGroup body | «else» body | «finally» body => exact .refl _
    exact hsuite.append ih

theorem cases_places (clauses : List Case) :
    ((clauses.map Case.suite).flatMap blockPlaces).Sublist (casesPlaces clauses) := by
  induction clauses with
  | nil => exact .refl _
  | cons clause rest ih =>
    have hsuite : (blockPlaces clause.suite).Sublist clause.places := by
      cases clause
      exact .refl _
    exact hsuite.append ih

/-- The places of the suites of a statement are places in it, in the same order. -/
theorem bodies_places : ∀ form : Form, (form.bodies.flatMap blockPlaces).Sublist form.places
  | .if test body further => by
    rw [bodies_if]
    exact (List.Sublist.refl (blockPlaces body)).append (branches_places further)
  | .try body clauses => by
    rw [bodies_try]
    exact (List.Sublist.refl (blockPlaces body)).append (rescues_places clauses)
  | .match subjects clauses => by
    rw [bodies_match]
    exact cases_places clauses
  | .while _ body orelse | .for _ _ body orelse => by
    have horelse : ([orelse].flatMap blockPlaces).Sublist (blockPlaces orelse) := by simp
    exact (List.Sublist.refl (blockPlaces body)).append horelse
  | .with _ body | .define _ _ body | .class _ _ body => by
    have hbody : ([body].flatMap blockPlaces).Sublist (blockPlaces body) := by simp
    exact hbody
  | .decorated _ definition => bodies_places definition
  | .continuation | .expression _ | .legacyPrint | .legacyExec | .assert _ | .return _ | .delete _
  | .raise _ | .imports _ | .importFrom .. | .importFuture | .global _ | .nonlocal _ | .pass
  | .break | .continue | .typeAlias => .refl _

theorem mem_blockPlaces {block : Block} {sentence : Sentence} (hm : sentence ∈ block) {place : Position}
    (hp : place ∈ sentence.places) : place ∈ blockPlaces block := by
  rw [blockPlaces_eq]
  exact List.mem_flatMap.mpr ⟨sentence, hm, hp⟩

/-- The places of a suite are places behind the one where its statement begins. -/
theorem suite_places {sentence : Sentence} {suite : Block} (hm : suite ∈ sentence.form.bodies)
    {place : Position} (hp : place ∈ blockPlaces suite) : place ∈ sentence.form.places :=
  (bodies_places sentence.form).subset (List.mem_flatMap.mpr ⟨suite, hm, hp⟩)

theorem sentence_places (sentence : Sentence) :
    sentence.places = sentence.start :: sentence.form.places := by
  cases sentence
  rfl

theorem start_mem_places {block : Block} {way : Way} {index : Nat} {sentence : Sentence}
    (h : StandsAt block way index sentence) : sentence.start ∈ blockPlaces block := by
  induction h with
  | here member =>
    refine mem_blockPlaces (List.mem_of_getElem? member) ?_
    rw [sentence_places]
    exact List.mem_cons_self
  | inside member entered inner ih =>
    refine mem_blockPlaces (List.mem_of_getElem? member) ?_
    rw [sentence_places]
    exact List.mem_cons_of_mem _ (suite_places (List.mem_map_of_mem entered) ih)

end Marksheet.Syntax
