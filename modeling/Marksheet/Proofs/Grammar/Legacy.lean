import Marksheet.Proofs.Grammar.OnwardBlocks

/-!
# The refusal of the older language

A text that the grammar takes is refused if and only if a statement of the older
language stands anywhere in it, and the refusal names the one that begins first.
`parse` searches sentence by sentence and suite by suite. Since the places of a
block ascend in that order (`read_ascends`), a search that stops at the first
part that holds such a statement comes to the least place; `findSome?_first` says
so of one list of parts, and is used for the sentences of a block and for the
suites of a sentence.
-/

namespace Marksheet.Grammar

open Marksheet.Source Marksheet.Syntax

/-- The statement of the older language that a form is, behind its decorators. -/
def legacyOf? : Form → Option Legacy
  | .legacyPrint => some .print
  | .legacyExec => some .exec
  | .decorated _ definition => legacyOf? definition
  | _ => none

/-- A statement of the older language stands at an address of a block and begins at a place. -/
def LegacyAt (block : Block) (way : Way) (index : Nat) (legacy : Legacy) (place : Position) :
    Prop :=
  ∃ sentence, StandsAt block way index sentence ∧ legacyOf? sentence.form = some legacy ∧
    sentence.start = place

/-! ### The search goes through the suites -/

theorem legacyInBlock?_eq (block : Block) : legacyInBlock? block = block.findSome? legacyIn? := by
  induction block with
  | nil => rfl
  | cons sentence rest ih =>
    rw [legacyInBlock?, ih, List.findSome?_cons]
    cases legacyIn? sentence <;> rfl

/-- The search through clauses is the search through their suites. -/
theorem or_findSome? (body : Block) (others : List Block) :
    (legacyInBlock? body).or (others.findSome? legacyInBlock?) =
      (body :: others).findSome? legacyInBlock? := by
  rw [List.findSome?_cons]
  cases legacyInBlock? body <;> rfl

theorem legacyInBranches?_eq (branches : List Branch) :
    legacyInBranches? branches = (branches.map Branch.suite).findSome? legacyInBlock? := by
  induction branches with
  | nil => rfl
  | cons branch rest ih =>
    rw [List.map_cons, ← or_findSome?, ← ih]
    cases branch <;> rfl

theorem legacyInRescues?_eq (clauses : List Rescue) :
    legacyInRescues? clauses = (clauses.map Rescue.suite).findSome? legacyInBlock? := by
  induction clauses with
  | nil => rfl
  | cons clause rest ih =>
    rw [List.map_cons, ← or_findSome?, ← ih]
    cases clause <;> rfl

theorem legacyInCases?_eq (clauses : List Case) :
    legacyInCases? clauses = (clauses.map Case.suite).findSome? legacyInBlock? := by
  induction clauses with
  | nil => rfl
  | cons clause rest ih =>
    rw [List.map_cons, ← or_findSome?, ← ih]
    cases clause
    rfl

/-- What is found in a statement: itself, or else what is found in its suites, one after the
other. -/
theorem legacyInForm?_eq (start : Position) : ∀ form : Form,
    legacyInForm? start form =
      ((legacyOf? form).map (·, start)).or (form.bodies.findSome? legacyInBlock?)
  | .if test body further => by
    rw [bodies_if, ← or_findSome?, ← legacyInBranches?_eq]
    rfl
  | .try body clauses => by
    rw [bodies_try, ← or_findSome?, ← legacyInRescues?_eq]
    rfl
  | .match subjects clauses => by
    rw [bodies_match, ← legacyInCases?_eq]
    rfl
  | .while _ body orelse | .for _ _ body orelse => by
    have hfound := or_findSome? body [orelse]
    rw [← or_findSome?, List.findSome?_nil, Option.or_none] at hfound
    exact hfound
  | .with _ body | .define _ _ body | .class _ _ body => by
    have hfound := or_findSome? body []
    rw [List.findSome?_nil, Option.or_none] at hfound
    exact hfound
  | .decorated _ definition => legacyInForm?_eq start definition
  | .continuation | .expression _ | .legacyPrint | .legacyExec | .assert _ | .return _ | .delete _
  | .raise _ | .imports _ | .importFrom .. | .importFuture | .global _ | .nonlocal _ | .pass
  | .break | .continue | .typeAlias => rfl

theorem legacyIn?_eq (sentence : Sentence) :
    legacyIn? sentence = ((legacyOf? sentence.form).map (·, sentence.start)).or
      (sentence.form.bodies.findSome? legacyInBlock?) := by
  cases sentence
  exact legacyInForm?_eq _ _

/-! ### What is found stands in the block -/

/-- What is found in a sentence is the sentence itself or is found in one of its suites. -/
theorem legacyIn?_cases {sentence : Sentence} {legacy : Legacy} {place : Position}
    (h : legacyIn? sentence = some (legacy, place)) :
    legacyOf? sentence.form = some legacy ∧ sentence.start = place ∨
      ∃ suite ∈ sentence.form.bodies, legacyInBlock? suite = some (legacy, place) := by
  rw [legacyIn?_eq] at h
  rcases Option.or_eq_some_iff.mp h with hself | ⟨-, hsuites⟩
  · obtain ⟨found, hfound, he⟩ := Option.map_eq_some_iff.mp hself
    cases he
    exact .inl ⟨hfound, rfl⟩
  · exact .inr (List.exists_of_findSome?_eq_some hsuites)

theorem legacyAt_of_found {block : Block} (horder : Orderly block) {legacy : Legacy}
    {place : Position} (h : legacyInBlock? block = some (legacy, place)) :
    ∃ way index, LegacyAt block way index legacy place := by
  induction horder with
  | @intro block here inside ih =>
    rw [legacyInBlock?_eq] at h
    obtain ⟨outer, hm, hfound⟩ := List.exists_of_findSome?_eq_some h
    obtain ⟨number, hnumber⟩ := List.mem_iff_getElem?.mp hm
    rcases legacyIn?_cases hfound with ⟨hself, hstart⟩ | ⟨suite, hsuite, hinner⟩
    · exact ⟨[], number, outer, .here hnumber, hself, hstart⟩
    · obtain ⟨⟨slot, body⟩, hentry, rfl⟩ := List.mem_map.mp hsuite
      obtain ⟨way, index, sentence, hstands, hrest⟩ := ih outer hm _ hentry hinner
      exact ⟨(number, slot) :: way, index, sentence, .inside hnumber hentry hstands, hrest⟩

theorem place_of_found {block : Block} (horder : Orderly block) {found : Legacy × Position}
    (h : legacyInBlock? block = some found) : found.2 ∈ blockPlaces block := by
  obtain ⟨way, index, sentence, hstands, -, hstart⟩ := legacyAt_of_found horder h
  rw [← hstart]
  exact start_mem_places hstands

/-! ### What is found comes first -/

/-- A report is the same or is about an earlier place. -/
def Precedes (first found : Legacy × Position) : Prop :=
  first = found ∨ first.2.Before found.2

theorem Precedes.trans {first second third : Legacy × Position} (h : Precedes first second)
    (h' : Precedes second third) : Precedes first third := by
  rcases h with rfl | h
  · exact h'
  · rcases h' with rfl | h'
    · exact .inr h
    · exact .inr (h.trans h')

/-- In parts whose places ascend, the first that holds something precedes all that do. -/
theorem findSome?_first {α : Type} {search : α → Option (Legacy × Position)}
    {room : α → List Position} : ∀ {parts : List α},
    (∀ part ∈ parts, ∀ found, search part = some found → found.2 ∈ room part) →
      (parts.flatMap room).Pairwise Position.Before → ∀ part ∈ parts, ∀ found,
        search part = some found → ∃ first, parts.findSome? search = some first ∧ Precedes first found
  | [], _, _, part, hm, _, _ => by cases hm
  | head :: rest, hroom, hascend, part, hm, found, hf => by
    rw [List.flatMap_cons, List.pairwise_append] at hascend
    obtain ⟨-, hrest, hacross⟩ := hascend
    rw [List.findSome?_cons]
    cases hh : search head with
    | some first =>
      refine ⟨first, rfl, ?_⟩
      rcases List.mem_cons.mp hm with rfl | hm
      · exact .inl (Option.some.inj (hh.symm.trans hf))
      · have hplace : found.2 ∈ rest.flatMap room :=
          List.mem_flatMap.mpr ⟨part, hm, hroom part (List.mem_cons_of_mem _ hm) found hf⟩
        exact .inr (hacross _ (hroom head List.mem_cons_self first hh) _ hplace)
    | none =>
      have hbehind : part ∈ rest := by
        rcases List.mem_cons.mp hm with rfl | hm
        · rw [hh] at hf
          cases hf
        · exact hm
      exact findSome?_first (fun part hm => hroom part (List.mem_cons_of_mem _ hm)) hrest part
        hbehind found hf

/-- What is found in a sentence has a place in it. -/
theorem place_of_foundIn {sentence : Sentence} (horder : sentence.form.Orderly)
    {found : Legacy × Position} (h : legacyIn? sentence = some found) :
    found.2 ∈ sentence.places := by
  rw [sentence_places]
  rcases legacyIn?_cases h with ⟨-, hstart⟩ | ⟨suite, hm, hinner⟩
  · rw [← hstart]
    exact List.mem_cons_self
  · obtain ⟨entry, hentry, rfl⟩ := List.mem_map.mp hm
    exact List.mem_cons_of_mem _ (suite_places hm (place_of_found (horder.2 entry hentry) hinner))

/-- The places of each sentence of a block whose places ascend do so. -/
theorem ascends_part {block : Block} (h : (blockPlaces block).Pairwise Position.Before)
    {sentence : Sentence} (hm : sentence ∈ block) : sentence.places.Pairwise Position.Before := by
  rw [blockPlaces_eq] at h
  exact (List.pairwise_flatMap.mp h).1 sentence hm

/-- The search of a sentence comes to what it is, or else to the first in its suites. -/
theorem legacyIn?_first {sentence : Sentence} (horder : sentence.form.Orderly)
    (hascend : sentence.places.Pairwise Position.Before) {suite : Block}
    (hm : suite ∈ sentence.form.bodies) {found : Legacy × Position}
    (hf : legacyInBlock? suite = some found) :
    ∃ first, legacyIn? sentence = some first ∧ Precedes first found := by
  rw [sentence_places, List.pairwise_cons] at hascend
  obtain ⟨hstart, hsuites⟩ := hascend
  have hroom : ∀ suite ∈ sentence.form.bodies, ∀ found, legacyInBlock? suite = some found →
      found.2 ∈ blockPlaces suite := by
    intro suite hm found hf
    obtain ⟨entry, hentry, rfl⟩ := List.mem_map.mp hm
    exact place_of_found (horder.2 entry hentry) hf
  obtain ⟨first, hfirst, hprecedes⟩ :=
    findSome?_first hroom (hsuites.sublist (bodies_places _)) suite hm found hf
  rw [legacyIn?_eq, hfirst]
  cases legacyOf? sentence.form with
  | none => exact ⟨first, rfl, hprecedes⟩
  | some legacy => exact ⟨_, rfl, .inr (hstart _ (suite_places hm (hroom suite hm found hf)))⟩

/-- The search of a block comes to the statement of the older language at an address, or to one
that begins before it. -/
theorem legacyInBlock?_first {block : Block} {way : Way} {index : Nat} {sentence : Sentence}
    (h : StandsAt block way index sentence) {legacy : Legacy}
    (hlegacy : legacyOf? sentence.form = some legacy) :
    Orderly block → (blockPlaces block).Pairwise Position.Before →
      ∃ first, legacyInBlock? block = some first ∧ Precedes first (legacy, sentence.start) := by
  have hsearch {block : Block} (horder : Orderly block)
      (hascend : (blockPlaces block).Pairwise Position.Before) {sentence : Sentence}
      (hm : sentence ∈ block) {found : Legacy × Position} (hf : legacyIn? sentence = some found) :
      ∃ first, legacyInBlock? block = some first ∧ Precedes first found := by
    rw [legacyInBlock?_eq]
    rw [blockPlaces_eq] at hascend
    exact findSome?_first (fun part hp _ => place_of_foundIn (orderly_iff.mp horder part hp))
      hascend sentence hm found hf
  induction h with
  | @here block index sentence member =>
    intro horder hascend
    have hself : legacyIn? sentence = some (legacy, sentence.start) := by
      rw [legacyIn?_eq, hlegacy]
      rfl
    exact hsearch horder hascend (List.mem_of_getElem? member) hself
  | @inside block suite number index outer sentence slot way member entered inner ih =>
    intro horder hascend
    have hm := List.mem_of_getElem? member
    have hsuite : suite ∈ outer.form.bodies := List.mem_map_of_mem entered
    have hform := orderly_iff.mp horder outer hm
    have houter : outer.places.Pairwise Position.Before := ascends_part hascend hm
    have hascends : (blockPlaces suite).Pairwise Position.Before := by
      rw [sentence_places, List.pairwise_cons] at houter
      exact (List.pairwise_flatMap.mp (houter.2.sublist (bodies_places _))).1 suite hsuite
    obtain ⟨found, hfound, hprecedes⟩ := ih hlegacy (hform.2 _ entered) hascends
    obtain ⟨second, hsecond, hprecedes'⟩ := legacyIn?_first hform houter hsuite hfound
    obtain ⟨first, hfirst, hprecedes''⟩ := hsearch horder hascend hm hsecond
    exact ⟨first, hfirst, (hprecedes''.trans hprecedes').trans hprecedes⟩

/-- A text that the grammar takes is refused if and only if a statement of the older language
stands in it, at any depth. The refusal names the kind and the place of one that begins before all
others. -/
theorem parse_firstLegacy {source : String} {block : Block} (h : read source = .ok block) :
    ((∃ failure, parse source = .error failure) ↔
      ∃ way index legacy place, LegacyAt block way index legacy place) ∧
    ∀ failure, parse source = .error failure →
      ∃ way index legacy place, LegacyAt block way index legacy place ∧
        failure = ⟨legacy.detail, place.line, place.column⟩ ∧
        ∀ way' index' legacy' place', LegacyAt block way' index' legacy' place' →
          (legacy', place') = (legacy, place) ∨ place.Before place' := by
  have horder := read_orderly h
  have hfirst {way : Way} {index : Nat} {legacy : Legacy} {place : Position}
      (hat : LegacyAt block way index legacy place) :
      ∃ first, legacyInBlock? block = some first ∧ Precedes first (legacy, place) := by
    obtain ⟨sentence, hstands, hlegacy, rfl⟩ := hat
    exact legacyInBlock?_first hstands hlegacy horder (read_ascends h)
  cases hfound : legacyInBlock? block with
  | none =>
    have hparse : parse source = .ok (.ofBlock block) := by simp only [parse, h, hfound]
    have hnowhere : ¬ ∃ way index legacy place, LegacyAt block way index legacy place := by
      rintro ⟨way, index, legacy, place, hat⟩
      obtain ⟨first, hsome, -⟩ := hfirst hat
      rw [hfound] at hsome
      cases hsome
    have hgiven (failure : Failure) : parse source ≠ .error failure := by
      intro he
      rw [hparse] at he
      cases he
    exact ⟨iff_of_false (fun ⟨failure, he⟩ => hgiven failure he) hnowhere,
      fun failure he => absurd he (hgiven failure)⟩
  | some found =>
    obtain ⟨legacy, place⟩ := found
    have hparse : parse source = .error (.atPlace legacy.detail place) := by
      simp only [parse, h, hfound]
    obtain ⟨way, index, hat⟩ := legacyAt_of_found horder hfound
    refine ⟨iff_of_true ⟨_, hparse⟩ ⟨way, index, legacy, place, hat⟩, ?_⟩
    intro failure he
    have hfailure : failure = .atPlace legacy.detail place := by
      rw [hparse] at he
      exact (Except.error.inj he).symm
    refine ⟨way, index, legacy, place, hat, hfailure, ?_⟩
    intro way' index' legacy' place' hat'
    obtain ⟨first, hsome, hprecedes⟩ := hfirst hat'
    obtain rfl : (legacy, place) = first := Option.some.inj (hfound.symm.trans hsome)
    exact hprecedes.imp_left Eq.symm

/-- The statement in the class comes before the one behind it, which is of the other kind. -/
theorem parse_firstLegacy_nested :
    ∃ block, read "class A:\n  exec x\nprint 1\n" = .ok block ∧
      ((∃ failure, parse "class A:\n  exec x\nprint 1\n" = .error failure) ↔
        ∃ way index legacy place, LegacyAt block way index legacy place) ∧
      ∀ failure, parse "class A:\n  exec x\nprint 1\n" = .error failure →
        ∃ way index legacy place, LegacyAt block way index legacy place ∧
          failure = ⟨legacy.detail, place.line, place.column⟩ ∧
          ∀ way' index' legacy' place', LegacyAt block way' index' legacy' place' →
            (legacy', place') = (legacy, place) ∨ place.Before place' := by
  have hread : read "class A:\n  exec x\nprint 1\n" =
      .ok [.mk (.class "A" [] [.mk .legacyExec ⟨2, 3⟩]) ⟨1, 1⟩, .mk .legacyPrint ⟨3, 1⟩] := by cbv
  exact ⟨_, hread, parse_firstLegacy hread⟩

end Marksheet.Grammar
