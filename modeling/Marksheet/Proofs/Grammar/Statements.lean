import Marksheet.Proofs.Features.Flags
import Marksheet.Proofs.Features.Input
import Marksheet.Proofs.Grammar.Orderly

/-!
# Every statement of a submission has its place in the tree

The sentences of a text that is taken are compared with the tree: a sentence at
an address of nested suites has a statement at the same address of nested
blocks, of the same kind and on the same line, and the record takes notice of
it. The one exception is exact: the suite of an `except*` clause has no block,
and the tree is the one that the text makes without such clauses.
-/

namespace Marksheet.Grammar

open Marksheet.Features Marksheet.Syntax

/-! ### Statements at addresses occur -/

/-- All statements of a block occur in a tree. -/
def AllOccur (tree : Module) (block : List Stmt) : Prop :=
  ∀ stmt ∈ block, Occurs tree (.stmt stmt.kind)

variable {tree : Module}

/-- The statements of a block whose parts belong to what occurs. -/
theorem allOccur_of_parts {whole : Construct} {block : List Stmt} (hw : Occurs tree whole)
    (hsub : ∀ part ∈ blockParts block, part ∈ whole.parts) : AllOccur tree block := by
  intro stmt hm
  have hpart : (Role.part, Construct.stmt stmt.kind) ∈ blockParts block :=
    List.mem_map.mpr ⟨stmt, hm, rfl⟩
  exact .part hw (hsub _ hpart)

/-- What stands behind a number of `elif` occurs where the else-branch before them does. -/
theorem allOccur_elseBehind? {links : Nat} {orelse found : List Stmt} (ho : AllOccur tree orelse)
    (h : elseBehind? links orelse = some found) : AllOccur tree found := by
  induction links generalizing orelse with
  | zero =>
    obtain rfl := Option.some.inj h
    exact ho
  | succ links ih =>
    cases orelse with
    | nil => cases h
    | cons first rest =>
      obtain ⟨kind, line⟩ := first
      cases rest with
      | cons second rest => cases kind <;> cases h
      | nil =>
        cases kind with
        | «if» test body orelse =>
          have hfirst : Occurs tree (.stmt (.if test body orelse)) := ho (.mk _ line) (by simp)
          exact ih (allOccur_of_parts hfirst fun part hp => by simp [Construct.parts, hp]) h
        | _ => cases h

theorem allOccur_onlyIf? {orelse found : List Stmt} (ho : AllOccur tree orelse)
    (h : onlyIf? orelse = some found) : AllOccur tree found := by
  unfold onlyIf? at h
  split at h
  · next test body further line =>
    obtain rfl := Option.some.inj h
    have hfirst : Occurs tree (.stmt (.if test body further)) := ho (.mk _ line) (by simp)
    exact allOccur_of_parts hfirst fun part hp => by simp [Construct.parts, hp]
  · cases h

/-- The parts of one handler are parts of all handlers. -/
theorem handler_body_parts {handlers : List Handler} {handler : Handler} (hm : handler ∈ handlers) :
    ∀ part ∈ blockParts handler.body, part ∈ handlerParts handlers := by
  intro part hp
  refine List.mem_flatMap.mpr ⟨handler, hm, ?_⟩
  cases handler
  exact List.mem_append_right _ hp

theorem case_body_parts {cases : List MatchCase} {clause : MatchCase} (hm : clause ∈ cases) :
    ∀ part ∈ blockParts clause.body, part ∈ caseParts cases := by
  intro part hp
  refine List.mem_flatMap.mpr ⟨clause, hm, ?_⟩
  cases clause
  exact List.mem_append_right _ hp

/-- The block of any slot occurs where its statement does. -/
theorem allOccur_suite? {slot : Slot} {kind : StmtKind} {block : List Stmt}
    (hk : Occurs tree (.stmt kind)) (h : kind.suite? slot = some block) : AllOccur tree block := by
  cases slot with
  | body =>
    cases kind with
    | «if» | «while» | «for» | functionDef | classDef | «with» | «try» =>
      obtain rfl := Option.some.inj h
      exact allOccur_of_parts hk fun part hp => by simp [Construct.parts, hp]
    | _ => cases h
  | elif index =>
    cases kind with
    | «if» test body orelse =>
      obtain ⟨middle, hmiddle, honly⟩ := Option.bind_eq_some_iff.mp h
      have horelse : AllOccur tree orelse := allOccur_of_parts hk fun part hp => by simp [Construct.parts, hp]
      exact allOccur_onlyIf? (allOccur_elseBehind? horelse hmiddle) honly
    | _ => cases h
  | orelse links =>
    cases kind with
    | «if» test body orelse =>
      have horelse : AllOccur tree orelse := allOccur_of_parts hk fun part hp => by simp [Construct.parts, hp]
      exact allOccur_elseBehind? horelse h
    | «while» | «for» | «try» =>
      cases links with
      | zero =>
        obtain rfl := Option.some.inj h
        exact allOccur_of_parts hk fun part hp => by simp [Construct.parts, hp]
      | succ links => cases h
    | _ => cases links <;> cases h
  | handler index =>
    cases kind with
    | «try» body handlers orelse finalbody =>
      obtain ⟨handler, hi, rfl⟩ := Option.map_eq_some_iff.mp h
      have hsub := handler_body_parts (List.mem_of_getElem? hi)
      refine allOccur_of_parts hk fun part hp => ?_
      simp [Construct.parts, hsub part hp]
    | _ => cases h
  | group index => cases kind <;> cases h
  | «finally» =>
    cases kind with
    | «try» =>
      obtain rfl := Option.some.inj h
      exact allOccur_of_parts hk fun part hp => by simp [Construct.parts, hp]
    | _ => cases h
  | case index =>
    cases kind with
    | «match» subjects cases =>
      obtain ⟨clause, hi, rfl⟩ := Option.map_eq_some_iff.mp h
      have hsub := case_body_parts (List.mem_of_getElem? hi)
      exact allOccur_of_parts hk fun part hp => List.mem_append_right _ (hsub part hp)
    | _ => cases h

/-- A statement at an address occurs in the tree. -/
theorem occurs_of_stmtAt? {way : Way} {index : Nat} {stmt : Stmt}
    (h : stmtAt? tree.body way index = some stmt) : Occurs tree (.stmt stmt.kind) := by
  have below : ∀ {block : List Stmt}, AllOccur tree block → stmtAt? block way index = some stmt →
      Occurs tree (.stmt stmt.kind) := by
    clear h
    induction way with
    | nil => exact fun hb hs => hb stmt (List.mem_of_getElem? hs)
    | cons step way ih =>
      intro block hb hs
      obtain ⟨number, slot⟩ := step
      obtain ⟨inner, hinner, hrest⟩ := Option.bind_eq_some_iff.mp hs
      obtain ⟨outer, houter, hsuite⟩ := Option.bind_eq_some_iff.mp hinner
      exact ih (allOccur_suite? (hb outer (List.mem_of_getElem? houter)) hsuite) hrest
  exact below (allOccur_of_parts .module fun _ hp => hp) h

/-! ### What a record notices -/

/-- A phrase assigns a value that asks for input, perhaps to several targets in a chain. -/
inductive AssignsInput : Phrase → Prop where
  | last {target value : Phrase} {kind : Option Phrase} (asks : Asks value.expr) :
      AssignsInput (.assignment target kind (some value))
  | chained {target value : Phrase} (later : AssignsInput value) :
      AssignsInput (.assignment target none (some value))

/-- No assignment asks as an expression, since it is none. -/
theorem chain_of_asks {phrase : Phrase} (h : Asks phrase.expr) : phrase.chain = ([], some phrase.expr) := by
  cases phrase with
  | assignment target kind value =>
    rw [Phrase.expr] at h
    exact absurd h (not_asks_unsupported _)
  | _ => rfl

theorem chain_of_assignsInput {phrase : Phrase} (h : AssignsInput phrase) :
    ∃ targets value, phrase.chain = (targets, some value) ∧ Asks value := by
  induction h with
  | @last target value kind asks =>
    exact ⟨[target.target], value.expr, by rw [Phrase.chain, chain_of_asks asks], asks⟩
  | @chained target value later ih =>
    obtain ⟨targets, last, he, hasks⟩ := ih
    exact ⟨target.target :: targets, last, by rw [Phrase.chain, he], hasks⟩

/-- The record takes notice of a conditional statement, a `for` loop or an assignment of input. -/
def Noticed (record : Record) (form : Form) : Prop :=
  (∀ test body further, form = .if test body further → record.hasIf = true) ∧
  (∀ target iter body orelse, form = .for target iter body orelse → record.hasForLoop = true) ∧
  (∀ phrase, form = .expression [phrase] → AssignsInput phrase → record.hasInputSaved = true)

/-- An assignment of input holds a value that asks. -/
theorem value_of_assignsInput {phrase : Phrase} (h : AssignsInput phrase) :
    ∃ value, Asks value ∧
      (Role.value, Construct.expr value) ∈ (Construct.stmt phrase.statement).parts := by
  obtain ⟨targets, value, hc, hasks⟩ := chain_of_assignsInput h
  have hplain (found : StmtKind) (he : found = .assign targets value) :
      (Role.value, Construct.expr value) ∈ (Construct.stmt found).parts := by
    simp [he, Construct.parts, valueParts]
  cases h with
  | @last target found kind asks =>
    cases kind with
    | none => exact ⟨value, hasks, hplain _ (by rw [Phrase.statement, hc])⟩
    | some kind =>
      exact ⟨found.expr, asks, by simp [Phrase.statement, Construct.parts, valueParts]⟩
  | chained later => exact ⟨value, hasks, hplain _ (by rw [Phrase.statement, hc])⟩

/-- What occurs is noticed. -/
theorem noticed_of_occurs {form : Form} (h : Occurs tree (.stmt (form.kind []))) :
    Noticed (Record.ofModule tree) form := by
  refine ⟨?_, ?_, ?_⟩
  · rintro test body further rfl
    exact hasIf_iff.mpr ⟨_, _, _, h⟩
  · rintro target iter body orelse rfl
    exact hasForLoop_iff.mpr ⟨_, _, _, _, h⟩
  · rintro phrase rfl hp
    obtain ⟨value, hasks, hv⟩ := value_of_assignsInput hp
    exact hasInputSaved_of_value h hv hasks

/-! ### What parsing keeps -/

/-- A sentence has a statement of its kind and on its line at its own address. -/
def Represented (tree : Module) (way : Way) (index : Nat) (sentence : Sentence) : Prop :=
  ∃ stmt, stmtAt? tree.body way index = some stmt ∧ stmt.line = sentence.start.line ∧
    sentence.form.Becomes stmt.kind ∧ Occurs tree (.stmt stmt.kind)

theorem parse_eq_ok {source : String} (h : parse source = .ok tree) :
    ∃ block, read source = .ok block ∧ tree = .ofBlock block := by
  unfold parse at h
  split at h
  · cases h
  · next block hread =>
    split at h
    · cases h
    · exact ⟨block, hread, (Except.ok.inj h).symm⟩

/-- A sentence is represented exactly if no suite of an `except*` clause holds it; then the record
takes notice of it. The suites of such clauses leave no trace in the tree. -/
theorem parse_keeps_statements {source : String} (h : parse source = .ok tree) :
    ∃ block, read source = .ok block ∧
      (∀ way index sentence, StandsAt block way index sentence →
        (Represented tree way index sentence ↔ Ungrouped way) ∧
        (Ungrouped way → Noticed (Record.ofModule tree) sentence.form)) ∧
      tree = .ofBlock (ungroupedBlock block) := by
  obtain ⟨block, hread, rfl⟩ := parse_eq_ok h
  refine ⟨block, hread, ?_, ?_⟩
  · intro way index sentence hs
    have hstmt (hway : Ungrouped way) :
        stmtAt? (Module.ofBlock block).body way index = some sentence.stmt :=
      stmtAt?_of_standsAt (read_orderly hread) hs hway
    have hbecomes : sentence.form.Becomes sentence.stmt.kind := by
      rw [sentence.stmt_kind]
      exact Form.becomes_kind [] sentence.form
    refine ⟨⟨?_, ?_⟩, ?_⟩
    · rintro ⟨stmt, hfound, -⟩
      by_contra hway
      rw [stmtAt?_eq_none hway] at hfound
      cases hfound
    · intro hway
      exact ⟨sentence.stmt, hstmt hway, sentence.stmt_line, hbecomes, occurs_of_stmtAt? (hstmt hway)⟩
    · intro hway
      have ho := occurs_of_stmtAt? (hstmt hway)
      rw [sentence.stmt_kind] at ho
      exact noticed_of_occurs ho
  · rw [Module.ofBlock, Module.ofBlock, stmts_ungrouped]

/-- The sentences of an else-branch are represented, and the input saved there is noticed. -/
theorem parse_keeps_else :
    ∃ tree block, parse "if a:\n    pass\nelse:\n    x = input()\n" = .ok tree ∧
      read "if a:\n    pass\nelse:\n    x = input()\n" = .ok block ∧
      (∀ way index sentence, StandsAt block way index sentence →
        (Represented tree way index sentence ↔ Ungrouped way) ∧
        (Ungrouped way → Noticed (Record.ofModule tree) sentence.form)) ∧
      tree = .ofBlock (ungroupedBlock block) := by
  let ask : Expr := .call (.name "input") [] []
  let tree : Module := ⟨[.mk (.if (.name "a") [.mk .pass 2] [.mk (.assign [.name "x"] ask) 4]) 1]⟩
  have hparse : parse "if a:\n    pass\nelse:\n    x = input()\n" = .ok tree := by cbv
  obtain ⟨block, hread, hkept⟩ := parse_keeps_statements hparse
  exact ⟨tree, block, hparse, hread, hkept⟩

/-- A conditional statement in the suite of an `except*` clause is not represented, and the record
takes no notice of it. -/
theorem parse_drops_group :
    ∃ tree block, parse "try:\n    pass\nexcept* E:\n    if x:\n        pass\n" = .ok tree ∧
      read "try:\n    pass\nexcept* E:\n    if x:\n        pass\n" = .ok block ∧
      (∃ way index sentence, StandsAt block way index sentence ∧
        (∃ test body further, sentence.form = .if test body further) ∧
        ¬ Represented tree way index sentence) ∧
      (Record.ofModule tree).hasIf = false := by
  let inner : Sentence := .mk (.if (.name "x") [.mk .pass ⟨5, 9⟩] []) ⟨4, 5⟩
  let outer : Sentence := .mk (.try [.mk .pass ⟨2, 5⟩] [.exceptGroup [inner]]) ⟨1, 1⟩
  have hread : read "try:\n    pass\nexcept* E:\n    if x:\n        pass\n" = .ok [outer] := by cbv
  have hparse : parse "try:\n    pass\nexcept* E:\n    if x:\n        pass\n" =
      .ok (.ofBlock [outer]) := by
    rw [parse, hread]
    rfl
  have hgroup : (Slot.group 0, [inner]) ∈ outer.form.suites :=
    List.mem_cons_of_mem _ (List.mem_singleton.mpr rfl)
  have hinner : StandsAt [inner] [] 0 inner := .here rfl
  have hstands : StandsAt [outer] [(0, .group 0)] 0 inner := .inside rfl hgroup hinner
  refine ⟨_, _, hparse, hread, ⟨_, _, _, hstands, ⟨_, _, _, rfl⟩, ?_⟩, rfl⟩
  rintro ⟨stmt, hfound, -⟩
  rw [stmtAt?_eq_none (by simp [Ungrouped, Slot.isGroup])] at hfound
  cases hfound

end Marksheet.Grammar
