import Marksheet.Syntax.Abstraction

/-!
# Suites and the statements that stand in them

`Form.suites` lists the suites of a statement as it was read, each with the
slot that it fills; `StandsAt` says which sentence stands at which address
of nested suites. On the other side `StmtKind.suite?` finds the block of a
statement of a given slot, and `stmtAt?` follows an address through such
blocks. Addresses name the statements of a block by their number, so equal
addresses mean the corresponding block and the same order.

The main statement, `stmtAt?_of_standsAt`, says that the statement of each
sentence stands at the address of the sentence, if the clauses of all
statements are in the order in which they are written (`Orderly`) and no group
clause for exceptions is on the way. The abstract tree has no slot for the
suite of such a clause: `stmts_ungrouped` says that a block stands for the
same statements when all its group clauses are taken out.
-/

namespace Marksheet.Syntax

/-- The slot that a suite fills in its statement. -/
inductive Slot where
  | body
  /-- The branch of an `elif`, by the number of those before it. -/
  | elif (index : Nat)
  /-- The else-branch, by the number of `elif` before it. -/
  | orelse (links : Nat)
  /-- An `except` clause, by the number of clauses before it. -/
  | handler (index : Nat)
  /-- An `except*` clause, by the number of clauses before it. -/
  | group (index : Nat)
  | finally
  /-- A `case` clause, by the number of those before it. -/
  | case (index : Nat)
  deriving DecidableEq, Repr, Inhabited

/-- The suite of an `except*` clause. -/
def Slot.isGroup : Slot → Bool
  | .group _ => true
  | _ => false

/-! ### Suites as they are read -/

/-- The suite of a branch. -/
def Branch.suite : Branch → Block
  | .elif _ _ body | .else body => body

/-- The slot of a branch's suite. -/
def Branch.slot (index : Nat) : Branch → Slot
  | .elif .. => .elif index
  | .else _ => .orelse index

/-- The suite of a clause of a `try` statement. -/
def Rescue.suite : Rescue → Block
  | .except _ _ body | .exceptGroup body | .else body | .finally body => body

/-- The slot of the suite of a clause of a `try` statement. -/
def Rescue.slot (index : Nat) : Rescue → Slot
  | .except .. => .handler index
  | .exceptGroup _ => .group index
  | .else _ => .orelse 0
  | .finally _ => .finally

/-- The suite of a clause of a `match` statement. -/
def Case.suite : Case → Block
  | .mk _ body => body

/-- The suites of a statement with their slots, in the order in which they are written. -/
def Form.suites : Form → List (Slot × Block)
  | .if _ body further =>
    (.body, body) :: further.zipIdx.map fun (branch, index) => (branch.slot index, branch.suite)
  | .while _ body orelse | .for _ _ body orelse => [(.body, body), (.orelse 0, orelse)]
  | .try body clauses =>
    (.body, body) :: clauses.zipIdx.map fun (clause, index) => (clause.slot index, clause.suite)
  | .with _ body | .define _ _ body | .class _ _ body => [(.body, body)]
  | .decorated _ definition => definition.suites
  | .match _ cases => cases.zipIdx.map fun (clause, index) => (.case index, clause.suite)
  | .continuation | .expression _ | .legacyPrint | .legacyExec | .assert _ | .return _ | .delete _
  | .raise _ | .imports _ | .importFrom .. | .importFuture | .global _ | .nonlocal _ | .pass
  | .break | .continue | .typeAlias => []

/-- A way through nested suites: the number of each statement passed and the suite entered. -/
abbrev Way := List (Nat × Slot)

/-- A sentence stands at an address of a block: behind a way, by its number in the last suite. -/
inductive StandsAt : Block → Way → Nat → Sentence → Prop where
  | here {block : Block} {index : Nat} {sentence : Sentence} (member : block[index]? = some sentence) :
      StandsAt block [] index sentence
  | inside {block suite : Block} {number index : Nat} {outer sentence : Sentence} {slot : Slot}
      {way : Way} (member : block[number]? = some outer) (entered : (slot, suite) ∈ outer.form.suites)
      (inner : StandsAt suite way index sentence) :
      StandsAt block ((number, slot) :: way) index sentence

/-- A way enters no suite of an `except*` clause. -/
def Ungrouped (way : Way) : Prop := ∀ step ∈ way, step.2.isGroup = false

/-! ### Blocks of the abstract tree -/

/-- The statements of an exception handler. -/
def Handler.body : Handler → List Stmt
  | .mk _ _ body _ => body

/-- The statements of a `case` clause. -/
def MatchCase.body : MatchCase → List Stmt
  | .mk _ body => body

/-- The else-branch behind a number of `elif`, each of which is an `if` by itself in the
else-branch before it. -/
def elseBehind? : Nat → List Stmt → Option (List Stmt)
  | 0, orelse => some orelse
  | links + 1, [.mk (.if _ _ orelse) _] => elseBehind? links orelse
  | _ + 1, _ => none

/-- The body of the `if` that an else-branch consists of. -/
def onlyIf? : List Stmt → Option (List Stmt)
  | [.mk (.if _ body _) _] => some body
  | _ => none

/-- The block of a statement of a slot. No block has the slot of an `except*` clause. -/
def StmtKind.suite? : Slot → StmtKind → Option (List Stmt)
  | .body, .if _ body _ | .body, .while _ body _ | .body, .for _ _ body _
  | .body, .functionDef _ _ _ body | .body, .classDef _ _ _ body | .body, .with _ body
  | .body, .try body _ _ _ => some body
  | .elif index, .if _ _ orelse => (elseBehind? index orelse).bind onlyIf?
  | .orelse links, .if _ _ orelse => elseBehind? links orelse
  | .orelse 0, .while _ _ orelse | .orelse 0, .for _ _ _ orelse | .orelse 0, .try _ _ orelse _ =>
    some orelse
  | .handler index, .try _ handlers _ _ => handlers[index]?.map Handler.body
  | .finally, .try _ _ _ finalbody => some finalbody
  | .case index, .match _ cases => cases[index]?.map MatchCase.body
  | _, _ => none

/-- The statement at an address of a block. -/
def stmtAt? : List Stmt → Way → Nat → Option Stmt
  | block, [], index => block[index]?
  | block, (number, slot) :: way, index =>
    (block[number]?.bind fun outer => outer.kind.suite? slot).bind fun inner =>
      stmtAt? inner way index

/-! ### Clauses in order -/

/-- The branch is an `elif`. -/
def Branch.isElif : Branch → Bool
  | .elif .. => true
  | .else _ => false

/-- The clause is an `except` clause. -/
def Rescue.isExcept : Rescue → Bool
  | .except .. => true
  | _ => false

/-- The clause is an `except*` clause. -/
def Rescue.isGroup : Rescue → Bool
  | .exceptGroup _ => true
  | _ => false

/-- Any number of `elif`, then at most one else-branch. -/
def BranchesInOrder (branches : List Branch) : Prop :=
  ∃ (elifs : List Branch) (last : Option Block),
    branches = elifs ++ (last.map Branch.else).toList ∧ ∀ branch ∈ elifs, branch.isElif = true

/-- Clauses for exceptions of one kind, then at most one else clause and one finally clause. -/
def ClausesInOrder (clauses : List Rescue) : Prop :=
  ∃ (heads : List Rescue) (orelse last : Option Block),
    clauses = heads ++ ((orelse.map Rescue.else).toList ++ (last.map Rescue.finally).toList) ∧
      ((∀ head ∈ heads, head.isExcept = true) ∨ ∀ head ∈ heads, head.isGroup = true)

/-- The clauses of the statement itself are in order. -/
def Form.InOrder : Form → Prop
  | .if _ _ further => BranchesInOrder further
  | .try _ clauses => ClausesInOrder clauses
  | .decorated _ definition => definition.InOrder
  | _ => True

/-- The clauses of every statement in a block are in order, at any depth. -/
inductive Orderly : Block → Prop where
  | intro {block : Block} (here : ∀ sentence ∈ block, sentence.form.InOrder)
      (inside : ∀ sentence ∈ block, ∀ entry ∈ sentence.form.suites, Orderly entry.2) : Orderly block

/-- The clauses of a statement and of all statements in it are in order. -/
def Form.Orderly (form : Form) : Prop :=
  form.InOrder ∧ ∀ entry ∈ form.suites, Syntax.Orderly entry.2

theorem orderly_iff {block : Block} : Orderly block ↔ ∀ sentence ∈ block, sentence.form.Orderly := by
  constructor
  · rintro ⟨here, inside⟩ sentence hm
    exact ⟨here sentence hm, inside sentence hm⟩
  · intro h
    exact ⟨fun sentence hm => (h sentence hm).1, fun sentence hm => (h sentence hm).2⟩

theorem orderly_nil : Orderly [] := orderly_iff.mpr (by simp)

theorem orderly_append {first second : Block} (hf : Orderly first) (hs : Orderly second) :
    Orderly (first ++ second) := by
  rw [orderly_iff] at *
  intro sentence hm
  rcases List.mem_append.mp hm with hm | hm
  · exact hf sentence hm
  · exact hs sentence hm

theorem orderly_singleton {form : Form} {start : Source.Position} (h : form.Orderly) :
    Orderly [.mk form start] := by
  rw [orderly_iff]
  intro sentence hm
  rw [List.mem_singleton.mp hm]
  exact h

/-! ### Each suite has its block -/

theorem stmts_eq_map (block : Block) : stmts block = block.map Sentence.stmt := by
  induction block with
  | nil => rfl
  | cons sentence rest ih => rw [stmts, ih, List.map_cons]

/-- The suites of the further branches stand in nested else-branches. -/
theorem suite?_branch {branches : List Branch} {branch : Branch} {index : Nat}
    (horder : BranchesInOrder branches) (hb : branches[index]? = some branch) (test : Expr)
    (body : List Stmt) :
    (StmtKind.if test body (branchStmts branches)).suite? (branch.slot index) =
      some (stmts branch.suite) := by
  obtain ⟨elifs, last, rfl, helifs⟩ := horder
  induction elifs generalizing index test body with
  | nil =>
    cases last with
    | none => simp at hb
    | some block =>
      obtain ⟨rfl, rfl⟩ : 0 = index ∧ Branch.else block = branch := by
        cases index <;> simp_all
      rfl
  | cons head elifs ih =>
    cases head with
    | «else» block => simp [Branch.isElif] at helifs
    | elif start headTest block =>
      cases index with
      | zero =>
        obtain rfl : Branch.elif start headTest block = branch := by simpa using hb
        rfl
      | succ index =>
        have htail : ∀ branch ∈ elifs, branch.isElif = true :=
          fun branch hm => helifs branch (List.mem_cons_of_mem _ hm)
        have hrest := ih headTest.expr (stmts block) htail (by simpa using hb)
        cases branch <;> exact hrest

/-- The suites of `except` clauses stand in the handlers, in order. -/
theorem handlers_getElem? {heads rest : List Rescue} {index : Nat} {start : Source.Position}
    {parts : List (Phrase × String)} {body : Block}
    (hheads : ∀ head ∈ heads, head.isExcept = true) (hrest : ∀ clause ∈ rest, clause.isExcept = false)
    (h : (heads ++ rest)[index]? = some (.except start parts body)) :
    (handlers (heads ++ rest))[index]?.map Handler.body = some (stmts body) := by
  induction heads generalizing index with
  | nil => exact absurd (hrest _ (List.mem_of_getElem? h)) (by simp [Rescue.isExcept])
  | cons head heads ih =>
    cases head with
    | except start' parts' block =>
      cases index with
      | zero =>
        obtain ⟨rfl, rfl, rfl⟩ : start' = start ∧ parts' = parts ∧ block = body := by simpa using h
        rfl
      | succ index =>
        have hnext := ih (fun head hm => hheads head (List.mem_cons_of_mem _ hm)) (by simpa using h)
        exact hnext
    | _ => simp [Rescue.isExcept] at hheads

/-- The clauses for exceptions make neither an else-branch nor a last block. -/
theorem laterStmts_append {heads rest : List Rescue}
    (hheads : ∀ head ∈ heads, head.isExcept = true ∨ head.isGroup = true) :
    elseStmts (heads ++ rest) = elseStmts rest ∧ finallyStmts (heads ++ rest) = finallyStmts rest := by
  induction heads with
  | nil => exact ⟨rfl, rfl⟩
  | cons head heads ih =>
    have htail := ih fun head hm => hheads head (List.mem_cons_of_mem _ hm)
    cases head with
    | except | exceptGroup => exact htail
    | «else» | «finally» => simp [Rescue.isExcept, Rescue.isGroup] at hheads

/-- The suites of the clauses of a `try` statement have their blocks, those of group clauses
excepted. -/
theorem suite?_rescue {clauses : List Rescue} {clause : Rescue} {index : Nat}
    (horder : ClausesInOrder clauses) (hc : clauses[index]? = some clause)
    (hgroup : (clause.slot index).isGroup = false) (body : List Stmt) :
    (StmtKind.try body (handlers clauses) (elseStmts clauses) (finallyStmts clauses)).suite?
      (clause.slot index) = some (stmts clause.suite) := by
  obtain ⟨heads, orelse, last, rfl, hheads⟩ := horder
  have hplain : ∀ head ∈ heads, head.isExcept = true ∨ head.isGroup = true := by
    intro head hm
    rcases hheads with hexcept | hgroups
    · exact .inl (hexcept head hm)
    · exact .inr (hgroups head hm)
  have hmember := List.mem_of_getElem? hc
  cases clause with
  | except start parts block =>
    have hexcept : ∀ head ∈ heads, head.isExcept = true := by
      rcases hheads with hexcept | hgroups
      · exact hexcept
      · rcases List.mem_append.mp hmember with hm | hm
        · exact absurd (hgroups _ hm) (by simp [Rescue.isGroup])
        · cases orelse <;> cases last <;> simp at hm
    have hrest : ∀ clause ∈ (orelse.map Rescue.else).toList ++ (last.map Rescue.finally).toList,
        clause.isExcept = false := by
      cases orelse <;> cases last <;> simp [Rescue.isExcept]
    exact handlers_getElem? hexcept hrest hc
  | exceptGroup block => cases hgroup
  | «else» block =>
    have horelse : orelse = some block := by
      rcases List.mem_append.mp hmember with hm | hm
      · exact absurd (hplain _ hm) (by simp [Rescue.isExcept, Rescue.isGroup])
      · cases orelse <;> cases last <;> simp_all
    have hstmts : elseStmts (heads ++ ((orelse.map Rescue.else).toList ++
        (last.map Rescue.finally).toList)) = stmts block := by
      rw [(laterStmts_append hplain).1, horelse]
      cases last <;> rfl
    exact congrArg some hstmts
  | «finally» block =>
    have hlast : last = some block := by
      rcases List.mem_append.mp hmember with hm | hm
      · exact absurd (hplain _ hm) (by simp [Rescue.isExcept, Rescue.isGroup])
      · cases orelse <;> cases last <;> simp_all
    have hstmts : finallyStmts (heads ++ ((orelse.map Rescue.else).toList ++
        (last.map Rescue.finally).toList)) = stmts block := by
      rw [(laterStmts_append hplain).2, hlast]
      cases orelse <;> rfl
    exact congrArg some hstmts

theorem suite?_case {cases : List Case} {clause : Case} {index : Nat}
    (hc : cases[index]? = some clause) (subjects : List Expr) :
    (StmtKind.match subjects (matchCases cases)).suite? (.case index) = some (stmts clause.suite) := by
  induction cases generalizing index with
  | nil => simp at hc
  | cons head rest ih =>
    obtain ⟨guard, body⟩ := head
    cases index with
    | zero =>
      obtain rfl : Case.mk guard body = clause := by simpa using hc
      rfl
    | succ index => exact ih (by simpa using hc)

/-- An entry of the numbered suites belongs to the clause of its number. -/
theorem mem_map_zipIdx {α β : Type} {items : List α} {f : α × Nat → β} {entry : β}
    (h : entry ∈ items.zipIdx.map f) : ∃ item index, items[index]? = some item ∧ f (item, index) = entry := by
  obtain ⟨⟨item, index⟩, hm, rfl⟩ := List.mem_map.mp h
  exact ⟨item, index, List.mk_mem_zipIdx_iff_getElem?.mp hm, rfl⟩

/-- Each suite of a statement whose clauses are in order has its block in the abstract statement,
unless it belongs to a group clause. -/
theorem suite?_of_mem_suites {slot : Slot} {suite : Block} (hslot : slot.isGroup = false) :
    ∀ (decorators : List Expr) (form : Form), form.InOrder → (slot, suite) ∈ form.suites →
      (form.kind decorators).suite? slot = some (stmts suite)
  | _, .if test body further, horder, hm => by
    rcases List.mem_cons.mp hm with he | hm
    · cases he
      rfl
    · obtain ⟨branch, index, hb, he⟩ := mem_map_zipIdx hm
      cases he
      exact suite?_branch horder hb test.expr (stmts body)
  | _, .while test body orelse, _, hm => by
    rcases List.mem_cons.mp hm with he | hm
    · cases he
      rfl
    · cases List.mem_singleton.mp hm
      rfl
  | _, .for target iter body orelse, _, hm => by
    rcases List.mem_cons.mp hm with he | hm
    · cases he
      rfl
    · cases List.mem_singleton.mp hm
      rfl
  | _, .try body clauses, horder, hm => by
    rcases List.mem_cons.mp hm with he | hm
    · cases he
      rfl
    · obtain ⟨clause, index, hc, he⟩ := mem_map_zipIdx hm
      cases he
      exact suite?_rescue horder hc hslot (stmts body)
  | _, .with items body, _, hm => by
    cases List.mem_singleton.mp hm
    rfl
  | _, .define name params body, _, hm => by
    cases List.mem_singleton.mp hm
    rfl
  | _, .class name args body, _, hm => by
    cases List.mem_singleton.mp hm
    rfl
  | _, .decorated before definition, horder, hm => suite?_of_mem_suites hslot _ definition horder hm
  | _, .match subjects clauses, _, hm => by
    obtain ⟨clause, index, hc, he⟩ := mem_map_zipIdx hm
    cases he
    exact suite?_case hc (exprs subjects)

theorem Sentence.stmt_kind (sentence : Sentence) : sentence.stmt.kind = sentence.form.kind [] := by
  cases sentence
  rfl

theorem Sentence.stmt_line (sentence : Sentence) : sentence.stmt.line = sentence.start.line := by
  cases sentence
  rfl

/-- The statement of each sentence stands at the address of the sentence, unless its way leads
through a group clause. -/
theorem stmtAt?_of_standsAt {block : Block} {way : Way} {index : Nat} {sentence : Sentence}
    (horder : Orderly block) (h : StandsAt block way index sentence) (hway : Ungrouped way) :
    stmtAt? (stmts block) way index = some sentence.stmt := by
  induction h with
  | here member => simp [stmtAt?, stmts_eq_map, member]
  | @inside block suite number index outer sentence slot way member entered inner ih =>
    obtain ⟨hshape, hinside⟩ := orderly_iff.mp horder outer (List.mem_of_getElem? member)
    have hslot : slot.isGroup = false := hway (number, slot) (by simp)
    have hblock : outer.stmt.kind.suite? slot = some (stmts suite) := by
      rw [outer.stmt_kind]
      exact suite?_of_mem_suites hslot [] outer.form hshape entered
    have houter : (stmts block)[number]? = some outer.stmt := by
      simp [stmts_eq_map, member]
    have hrest := ih (hinside _ entered) fun step hm => hway step (List.mem_cons_of_mem _ hm)
    rw [stmtAt?, houter, Option.bind_some, hblock, Option.bind_some, hrest]

/-- No block is entered through a group clause. -/
theorem stmtAt?_eq_none {way : Way} (hway : ¬ Ungrouped way) (block : List Stmt) (index : Nat) :
    stmtAt? block way index = none := by
  induction way generalizing block with
  | nil => exact absurd (by simp [Ungrouped]) hway
  | cons step way ih =>
    obtain ⟨number, slot⟩ := step
    rw [stmtAt?]
    cases hs : slot.isGroup with
    | true =>
      obtain ⟨place, rfl⟩ : ∃ place, slot = .group place := by
        cases slot <;> simp_all [Slot.isGroup]
      have hnone : (block[number]?.bind fun outer => outer.kind.suite? (.group place)) = none := by
        cases block[number]? with
        | none => rfl
        | some outer => cases outer.kind <;> rfl
      rw [hnone, Option.bind_none]
    | false =>
      have hrest : ¬ Ungrouped way := by
        intro hu
        exact hway (List.forall_mem_cons.mpr ⟨hs, hu⟩)
      cases block[number]?.bind fun outer => outer.kind.suite? slot with
      | none => rfl
      | some inner => exact ih hrest inner

/-! ### The kind of statement that a form becomes -/

/-- A statement is of the kind that was read. -/
def Form.Becomes : Form → StmtKind → Prop
  | .if .., .if .. | .while .., .while .. | .for .., .for .. | .try .., .try .. | .with .., .with ..
  | .match .., .match .. | .return _, .return _ | .raise _, .raise _ | .delete _, .delete _
  | .pass, .pass | .importFuture, .pass | .break, .break | .continue, .continue => True
  | .define name _ _, .functionDef found _ _ _ => found = name
  | .class name _ _, .classDef found _ _ _ => found = name
  | .decorated _ definition, kind => definition.Becomes kind
  | .imports names, .imports found => found = names
  | .importFrom module names wildcard, .importFrom from' found all =>
    from' = module ∧ found = names ∧ all = wildcard
  | .global names, .global found | .nonlocal names, .nonlocal found => found = names
  | .assert parts, .assert _ _ => parts ≠ []
  | .assert parts, .unsupported _ => parts = []
  | .expression _, .expr _ | .expression _, .assign _ _ | .expression _, .annAssign _ _ _
  | .expression _, .augAssign _ _ _ => True
  | .expression parts, .unsupported _ => ∃ target value, parts = [.assignment target none value]
  | .continuation, .unsupported _ | .legacyPrint, .unsupported _ | .legacyExec, .unsupported _
  | .typeAlias, .unsupported _ => True
  | _, _ => False

theorem expression_becomes (parts : List Phrase) :
    (Form.expression parts).Becomes (expressionStmt parts) := by
  match parts with
  | [] | _ :: _ :: _ => trivial
  | [single] =>
    cases single with
    | assignment target kind value =>
      cases kind with
      | some kind => trivial
      | none =>
        rw [expressionStmt, Phrase.statement]
        split
        · trivial
        · exact ⟨target, value, rfl⟩
    | _ => trivial

/-- Every sentence becomes a statement of its own kind. -/
theorem Form.becomes_kind : ∀ (decorators : List Expr) (form : Form),
    form.Becomes (form.kind decorators)
  | _, .decorated before definition => becomes_kind _ definition
  | _, .expression parts => expression_becomes parts
  | _, .assert [] => rfl
  | _, .assert (test :: rest) => by simp [Form.kind, exprs, Form.Becomes]
  | _, .importFrom .. => ⟨rfl, rfl, rfl⟩
  | _, .define .. | _, .class .. | _, .imports _ | _, .global _ | _, .nonlocal _ => rfl
  | _, .continuation | _, .legacyPrint | _, .legacyExec | _, .return _ | _, .delete _ | _, .raise _
  | _, .importFuture | _, .pass | _, .break | _, .continue | _, .typeAlias | _, .if .. | _, .while ..
  | _, .for .. | _, .try .. | _, .with .. | _, .match .. => trivial

/-! ### Group clauses leave no trace -/

mutual

/-- A sentence without its group clauses. -/
def Sentence.ungrouped : Sentence → Sentence
  | .mk form start => .mk form.ungrouped start

/-- A block without the group clauses in it. -/
def ungroupedBlock : List Sentence → List Sentence
  | [] => []
  | sentence :: rest => sentence.ungrouped :: ungroupedBlock rest

/-- A form without the group clauses in it. -/
def Form.ungrouped : Form → Form
  | .if test body further => .if test (ungroupedBlock body) (ungroupedBranches further)
  | .while test body orelse => .while test (ungroupedBlock body) (ungroupedBlock orelse)
  | .for target iter body orelse => .for target iter (ungroupedBlock body) (ungroupedBlock orelse)
  | .try body clauses => .try (ungroupedBlock body) (ungroupedRescues clauses)
  | .with items body => .with items (ungroupedBlock body)
  | .define name params body => .define name params (ungroupedBlock body)
  | .class name args body => .class name args (ungroupedBlock body)
  | .decorated before definition => .decorated before definition.ungrouped
  | .match subjects clauses => .match subjects (ungroupedCases clauses)
  | form => form

/-- Branches without the group clauses in them. -/
def ungroupedBranches : List Branch → List Branch
  | [] => []
  | .elif start test body :: rest =>
    .elif start test (ungroupedBlock body) :: ungroupedBranches rest
  | .else body :: rest => .else (ungroupedBlock body) :: ungroupedBranches rest

/-- The clauses of a `try` statement that are no group clauses. -/
def ungroupedRescues : List Rescue → List Rescue
  | [] => []
  | .except start parts body :: rest =>
    .except start parts (ungroupedBlock body) :: ungroupedRescues rest
  | .exceptGroup _ :: rest => ungroupedRescues rest
  | .else body :: rest => .else (ungroupedBlock body) :: ungroupedRescues rest
  | .finally body :: rest => .finally (ungroupedBlock body) :: ungroupedRescues rest

/-- The clauses of a `match` statement without the group clauses in them. -/
def ungroupedCases : List Case → List Case
  | [] => []
  | .mk guard body :: rest => .mk guard (ungroupedBlock body) :: ungroupedCases rest

end

mutual

theorem stmt_ungrouped : ∀ sentence : Sentence, sentence.ungrouped.stmt = sentence.stmt
  | .mk form start => by
    rw [Sentence.ungrouped, Sentence.stmt, Sentence.stmt, kind_ungrouped [] form]

/-- A block stands for the same statements without its group clauses. -/
theorem stmts_ungrouped : ∀ block : List Sentence, stmts (ungroupedBlock block) = stmts block
  | [] => rfl
  | sentence :: rest => by
    rw [ungroupedBlock, stmts, stmts, stmt_ungrouped sentence, stmts_ungrouped rest]

theorem kind_ungrouped : ∀ (decorators : List Expr) (form : Form),
    form.ungrouped.kind decorators = form.kind decorators
  | _, .if test body further => by
    rw [Form.ungrouped, Form.kind, Form.kind, stmts_ungrouped body, branchStmts_ungrouped further]
  | _, .while test body orelse => by
    rw [Form.ungrouped, Form.kind, Form.kind, stmts_ungrouped body, stmts_ungrouped orelse]
  | _, .for target iter body orelse => by
    rw [Form.ungrouped, Form.kind, Form.kind, stmts_ungrouped body, stmts_ungrouped orelse]
  | _, .try body clauses => by
    rw [Form.ungrouped, Form.kind, Form.kind, stmts_ungrouped body, handlers_ungrouped clauses,
      elseStmts_ungrouped clauses, finallyStmts_ungrouped clauses]
  | _, .with items body => by
    rw [Form.ungrouped, Form.kind, Form.kind, stmts_ungrouped body]
  | _, .define name params body => by
    rw [Form.ungrouped, Form.kind, Form.kind, stmts_ungrouped body]
  | _, .class name args body => by
    rw [Form.ungrouped, Form.kind, Form.kind, stmts_ungrouped body]
  | _, .decorated before definition => by
    rw [Form.ungrouped, Form.kind, Form.kind, kind_ungrouped _ definition]
  | _, .match subjects clauses => by
    rw [Form.ungrouped, Form.kind, Form.kind, matchCases_ungrouped clauses]
  | _, .continuation | _, .expression _ | _, .legacyPrint | _, .legacyExec | _, .assert _
  | _, .return _ | _, .delete _ | _, .raise _ | _, .imports _ | _, .importFrom .. | _, .importFuture
  | _, .global _ | _, .nonlocal _ | _, .pass | _, .break | _, .continue | _, .typeAlias => rfl

theorem branchStmts_ungrouped : ∀ branches : List Branch,
    branchStmts (ungroupedBranches branches) = branchStmts branches
  | [] => rfl
  | .elif start test body :: rest => by
    rw [ungroupedBranches, branchStmts, branchStmts, stmts_ungrouped body, branchStmts_ungrouped rest]
  | .else body :: rest => by
    rw [ungroupedBranches, branchStmts, branchStmts, stmts_ungrouped body]

theorem handlers_ungrouped : ∀ clauses : List Rescue,
    handlers (ungroupedRescues clauses) = handlers clauses
  | [] => rfl
  | .except start parts body :: rest => by
    rw [ungroupedRescues, handlers, handlers, stmts_ungrouped body, handlers_ungrouped rest]
  | .exceptGroup _ :: rest => handlers_ungrouped rest
  | .else _ :: rest => handlers_ungrouped rest
  | .finally _ :: rest => handlers_ungrouped rest

theorem elseStmts_ungrouped : ∀ clauses : List Rescue,
    elseStmts (ungroupedRescues clauses) = elseStmts clauses
  | [] => rfl
  | .except _ _ _ :: rest => elseStmts_ungrouped rest
  | .exceptGroup _ :: rest => elseStmts_ungrouped rest
  | .else body :: rest => by
    rw [ungroupedRescues, elseStmts, elseStmts, stmts_ungrouped body, elseStmts_ungrouped rest]
  | .finally _ :: rest => elseStmts_ungrouped rest

theorem finallyStmts_ungrouped : ∀ clauses : List Rescue,
    finallyStmts (ungroupedRescues clauses) = finallyStmts clauses
  | [] => rfl
  | .except _ _ _ :: rest => finallyStmts_ungrouped rest
  | .exceptGroup _ :: rest => finallyStmts_ungrouped rest
  | .else _ :: rest => finallyStmts_ungrouped rest
  | .finally body :: rest => by
    rw [ungroupedRescues, finallyStmts, finallyStmts, stmts_ungrouped body,
      finallyStmts_ungrouped rest]

theorem matchCases_ungrouped : ∀ clauses : List Case,
    matchCases (ungroupedCases clauses) = matchCases clauses
  | [] => rfl
  | .mk guard body :: rest => by
    rw [ungroupedCases, matchCases, matchCases, stmts_ungrouped body, matchCases_ungrouped rest]

end

end Marksheet.Syntax
