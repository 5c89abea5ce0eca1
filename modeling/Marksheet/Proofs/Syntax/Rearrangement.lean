import Mathlib.Logic.Relation
import Marksheet.Proofs.Syntax.Context
import Marksheet.Proofs.Syntax.Suite

/-!
# Statements in another order

A rearrangement has an order for every block of a tree, the block given by the
way to it, and all blocks are put in their orders at once. The same tree is
reached by putting one block after the other in its order (`chain_tree`), so
what the order of one block does not change, no rearrangement changes.
-/

namespace Marksheet.Syntax

/-- An order for the statements of every block, each block given by the way to it. -/
structure Rearrangement where
  order : Way → List Stmt → List Stmt
  perm : ∀ way block, (order way block).Perm block

namespace Rearrangement

variable (orders : Rearrangement)

mutual

/-- A statement with all blocks below it in their orders, given the way to each of its slots. -/
def kind (way : Slot → Way) : StmtKind → StmtKind
  | .if test body orelse =>
    .if test (orders.order (way .body) (stmts (way .body) 0 body))
      (orders.order (way (.orelse 0)) (stmts (way (.orelse 0)) 0 orelse))
  | .while test body orelse =>
    .while test (orders.order (way .body) (stmts (way .body) 0 body))
      (orders.order (way (.orelse 0)) (stmts (way (.orelse 0)) 0 orelse))
  | .for target iter body orelse =>
    .for target iter (orders.order (way .body) (stmts (way .body) 0 body))
      (orders.order (way (.orelse 0)) (stmts (way (.orelse 0)) 0 orelse))
  | .functionDef name params decorators body =>
    .functionDef name params decorators (orders.order (way .body) (stmts (way .body) 0 body))
  | .classDef name bases decorators body =>
    .classDef name bases decorators (orders.order (way .body) (stmts (way .body) 0 body))
  | .with items body => .with items (orders.order (way .body) (stmts (way .body) 0 body))
  | .try body clauses orelse finalbody =>
    .try (orders.order (way .body) (stmts (way .body) 0 body)) (handlers way 0 clauses)
      (orders.order (way (.orelse 0)) (stmts (way (.orelse 0)) 0 orelse))
      (orders.order (way .finally) (stmts (way .finally) 0 finalbody))
  | .match subjects clauses => .match subjects (cases way 0 clauses)
  | .expr value => .expr value
  | .assign targets value => .assign targets value
  | .annAssign target kind value => .annAssign target kind value
  | .augAssign target op value => .augAssign target op value
  | .return value => .return value
  | .imports names => .imports names
  | .importFrom module names wildcard => .importFrom module names wildcard
  | .global names => .global names
  | .nonlocal names => .nonlocal names
  | .raise value => .raise value
  | .assert test msg => .assert test msg
  | .delete items => .delete items
  | .pass => .pass
  | .break => .break
  | .continue => .continue
  | .unsupported kind => .unsupported kind

/-- The statements of the block at a way, from a number on, with all blocks below them in their
orders. -/
def stmts (way : Way) (index : Nat) : List Stmt → List Stmt
  | [] => []
  | .mk form line :: rest =>
    .mk (kind (fun slot => way ++ [(index, slot)]) form) line :: stmts way (index + 1) rest

/-- The handlers of a statement from a number on. -/
def handlers (way : Slot → Way) (index : Nat) : List Handler → List Handler
  | [] => []
  | .mk kind name body line :: rest =>
    .mk kind name
        (orders.order (way (.handler index)) (stmts (way (.handler index)) 0 body)) line ::
      handlers way (index + 1) rest

/-- The `case` clauses of a statement from a number on. -/
def cases (way : Slot → Way) (index : Nat) : List MatchCase → List MatchCase
  | [] => []
  | .mk guard body :: rest =>
    .mk guard (orders.order (way (.case index)) (stmts (way (.case index)) 0 body)) ::
      cases way (index + 1) rest

end

/-- A tree with all blocks in their orders. -/
def tree (tree : Module) : Module := ⟨orders.order [] (orders.stmts [] 0 tree.body)⟩

end Rearrangement

/-! ### One block after the other -/

/-- One block, somewhere, is put in another order. -/
def Reorders (first second : List Stmt) : Prop :=
  ∃ context block other,
    block.Perm other ∧ first = plug context block ∧ second = plug context other

/-- One block after the other is put in another order. -/
abbrev Chain : List Stmt → List Stmt → Prop := Relation.ReflTransGen Reorders

/-- Wherever a statement stands, putting blocks of it in another order gives another one. -/
def KindChain (form other : StmtKind) : Prop :=
  ∀ before line after,
    Chain (before ++ .mk form line :: after) (before ++ .mk other line :: after)

theorem KindChain.refl (form : StmtKind) : KindChain form form := fun _ _ _ => .refl

theorem KindChain.trans {first second third : StmtKind} (h : KindChain first second)
    (g : KindChain second third) : KindChain first third :=
  fun before line after => (h before line after).trans (g before line after)

theorem KindChain.fill (frame : Frame) {block other : List Stmt} (h : Chain block other) :
    KindChain (frame.fill block) (frame.fill other) := by
  intro before line after
  refine h.lift (fun inner => before ++ .mk (frame.fill inner) line :: after) ?_
  rintro _ _ ⟨context, inner, turned, hp, rfl, rfl⟩
  exact ⟨⟨before, frame, line, after⟩ :: context, inner, turned, hp, rfl, rfl⟩

namespace Rearrangement

variable (orders : Rearrangement)

/-- With the statements of a block settled below, the block is put in its own order last. -/
theorem chain_order {way : Way} {body : List Stmt}
    (h : ∀ done, Chain (done ++ body) (done ++ orders.stmts way 0 body)) :
    Chain body (orders.order way (orders.stmts way 0 body)) :=
  (h []).tail ⟨[], _, _, (orders.perm way _).symm, rfl, rfl⟩

mutual

theorem chain_kind (way : Slot → Way) : ∀ form, KindChain form (orders.kind way form)
  | .if test body orelse =>
    have first := chain_order orders (chain_stmts (way .body) 0 body)
    have second := chain_order orders (chain_stmts (way (.orelse 0)) 0 orelse)
    (KindChain.fill (.ifBody test orelse) first).trans (.fill (.ifElse test _) second)
  | .while test body orelse =>
    have first := chain_order orders (chain_stmts (way .body) 0 body)
    have second := chain_order orders (chain_stmts (way (.orelse 0)) 0 orelse)
    (KindChain.fill (.whileBody test orelse) first).trans (.fill (.whileElse test _) second)
  | .for target iter body orelse =>
    have first := chain_order orders (chain_stmts (way .body) 0 body)
    have second := chain_order orders (chain_stmts (way (.orelse 0)) 0 orelse)
    (KindChain.fill (.forBody target iter orelse) first).trans
      (.fill (.forElse target iter _) second)
  | .functionDef name params decorators body =>
    .fill (.functionDef name params decorators)
      (chain_order orders (chain_stmts (way .body) 0 body))
  | .classDef name bases decorators body =>
    .fill (.classDef name bases decorators) (chain_order orders (chain_stmts (way .body) 0 body))
  | .with items body => .fill (.with items) (chain_order orders (chain_stmts (way .body) 0 body))
  | .try body clauses orelse finalbody =>
    have first := chain_order orders (chain_stmts (way .body) 0 body)
    have second := chain_order orders (chain_stmts (way (.orelse 0)) 0 orelse)
    have third := chain_order orders (chain_stmts (way .finally) 0 finalbody)
    (((KindChain.fill (.tryBody clauses orelse finalbody) first).trans
      (chain_handlers way 0 clauses _ [] orelse finalbody)).trans
      (.fill (.tryElse _ _ finalbody) second)).trans (.fill (.finalBody _ _ _) third)
  | .match subjects clauses => chain_cases way 0 clauses subjects []
  | .expr _ | .assign _ _ | .annAssign _ _ _ | .augAssign _ _ _ | .return _ | .imports _
  | .importFrom _ _ _ | .global _ | .nonlocal _ | .raise _ | .assert _ _ | .delete _ | .pass
  | .break | .continue | .unsupported _ => .refl _
termination_by structural form => form

/-- The statements of a block are settled from left to right; those before are done. -/
theorem chain_stmts (way : Way) (index : Nat) :
    ∀ body done, Chain (done ++ body) (done ++ orders.stmts way index body)
  | [], _ => .refl
  | .mk form line :: rest, done => by
    have head := chain_kind (fun slot => way ++ [(index, slot)]) form done line rest
    have tail := chain_stmts way (index + 1) rest
      (done ++ [.mk (orders.kind (fun slot => way ++ [(index, slot)]) form) line])
    simp only [List.append_assoc, List.singleton_append] at tail
    exact head.trans tail
termination_by structural body => body

theorem chain_handlers (way : Slot → Way) (index : Nat) : ∀ clauses body done orelse finalbody,
    KindChain (.try body (done ++ clauses) orelse finalbody)
      (.try body (done ++ orders.handlers way index clauses) orelse finalbody)
  | [], _, _, _, _ => .refl _
  | .mk kind name inner line :: rest, body, done, orelse, finalbody => by
    have settled := chain_order orders (chain_stmts (way (.handler index)) 0 inner)
    have head := KindChain.fill (.handler body done kind name line rest orelse finalbody) settled
    have tail := chain_handlers way (index + 1) rest body (done ++ [.mk kind name
      (orders.order (way (.handler index)) (orders.stmts (way (.handler index)) 0 inner)) line])
      orelse finalbody
    simp only [List.append_assoc, List.singleton_append] at tail
    exact head.trans tail
termination_by structural clauses => clauses

theorem chain_cases (way : Slot → Way) (index : Nat) : ∀ clauses subjects done,
    KindChain (.match subjects (done ++ clauses))
      (.match subjects (done ++ orders.cases way index clauses))
  | [], _, _ => .refl _
  | .mk guard inner :: rest, subjects, done => by
    have settled := chain_order orders (chain_stmts (way (.case index)) 0 inner)
    have head := KindChain.fill (.case subjects done guard rest) settled
    have tail := chain_cases way (index + 1) rest subjects (done ++ [.mk guard
      (orders.order (way (.case index)) (orders.stmts (way (.case index)) 0 inner))])
    simp only [List.append_assoc, List.singleton_append] at tail
    exact head.trans tail
termination_by structural clauses => clauses

end

/-- The rearranged tree is reached by putting one block after the other in its order. -/
theorem chain_tree (tree : Module) : Chain tree.body (orders.tree tree).body :=
  chain_order orders (chain_stmts orders [] 0 tree.body)

end Rearrangement

end Marksheet.Syntax
