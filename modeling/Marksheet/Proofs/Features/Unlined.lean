import Mathlib.Data.List.Forall2
import Marksheet.Features.Record
import Marksheet.Proofs.Syntax.Unlined

/-!
# The record does not look at lines

Wiping out the lines of a tree wipes them out in each of its nodes. No test of a record
looks at a line, so trees that are the same up to lines have the same record.
-/

namespace Marksheet.Features

open Syntax

/-- A node as it was, or with all lines in it wiped out. -/
inductive Node.Unlined : Node → Node → Prop where
  | same (node : Node) : Unlined node node
  | stmt (form : StmtKind) : Unlined (.stmt form) (.stmt form.unlined)

/-- Nodes one by one as they were, or with all lines in them wiped out. -/
abbrev NodesUnlined : List Node → List Node → Prop := List.Forall₂ Node.Unlined

theorem NodesUnlined.refl (nodes : List Node) : NodesUnlined nodes nodes :=
  List.forall₂_same.mpr fun node _ => .same node

theorem NodesUnlined.append {nodes others more others' : List Node} (h : NodesUnlined nodes others)
    (hm : NodesUnlined more others') : NodesUnlined (nodes ++ more) (others ++ others') :=
  List.rel_append h hm

mutual

theorem belowStmt_unlined : ∀ form : StmtKind,
    NodesUnlined (belowStmt form) (belowStmt form.unlined)
  | .if _ body orelse | .while _ body orelse =>
    ((NodesUnlined.refl _).append (stmtNodes_unlined body)).append (stmtNodes_unlined orelse)
  | .for _ _ body orelse =>
    ((NodesUnlined.refl _).append (stmtNodes_unlined body)).append (stmtNodes_unlined orelse)
  | .functionDef _ _ _ body | .classDef _ _ _ body | .with _ body =>
    (NodesUnlined.refl _).append (stmtNodes_unlined body)
  | .try body handlers orelse finalbody =>
    (((stmtNodes_unlined body).append (handlerNodes_unlined handlers)).append
      (stmtNodes_unlined orelse)).append (stmtNodes_unlined finalbody)
  | .match _ cases => (NodesUnlined.refl _).append (caseNodes_unlined cases)
  | .expr _ | .assign _ _ | .annAssign _ _ _ | .augAssign _ _ _ | .return _ | .imports _
  | .importFrom _ _ _ | .global _ | .nonlocal _ | .raise _ | .assert _ _ | .delete _ | .pass
  | .break | .continue | .unsupported _ => .refl _

theorem stmtNodes_unlined : ∀ body : List Stmt,
    NodesUnlined (stmtNodes body) (stmtNodes (unlinedStmts body))
  | [] => .nil
  | .mk form _ :: rest =>
    List.Forall₂.cons (.stmt form) ((belowStmt_unlined form).append (stmtNodes_unlined rest))

theorem handlerNodes_unlined : ∀ handlers : List Handler,
    NodesUnlined (handlerNodes handlers) (handlerNodes (unlinedHandlers handlers))
  | [] => .nil
  | .mk _ _ body _ :: rest =>
    ((NodesUnlined.refl _).append (stmtNodes_unlined body)).append (handlerNodes_unlined rest)

theorem caseNodes_unlined : ∀ cases : List MatchCase,
    NodesUnlined (caseNodes cases) (caseNodes (unlinedCases cases))
  | [] => .nil
  | .mk _ body :: rest =>
    ((NodesUnlined.refl _).append (stmtNodes_unlined body)).append (caseNodes_unlined rest)

end

/-! ### Tests that look at no line -/

/-- Wiping out lines does not change what is found of a node. -/
def Lineless {α : Type} (f : Node → α) : Prop :=
  ∀ form : StmtKind, f (.stmt form.unlined) = f (.stmt form)

theorem isEmpty_unlinedStmts (body : List Stmt) : (unlinedStmts body).isEmpty = body.isEmpty := by
  match body with
  | [] => rfl
  | .mk _ _ :: _ => rfl

theorem any_isIf_unlinedStmts (body : List Stmt) :
    (unlinedStmts body).any isIf = body.any isIf := by
  induction body with
  | nil => rfl
  | cons stmt body ih =>
    obtain ⟨form, line⟩ := stmt
    rw [unlinedStmts, List.any_cons, List.any_cons, ih]
    cases form <;> rfl

theorem elifLinks?_unlinedStmts : ∀ body : List Stmt,
    elifLinks? (unlinedStmts body) = elifLinks? body
  | [] => rfl
  | .mk _ _ :: .mk _ _ :: _ => by simp only [unlinedStmts, elifLinks?]
  | [.mk (.if test body orelse) line] => by
    simp only [unlinedStmts, StmtKind.unlined, elifLinks?, elifLinks?_unlinedStmts orelse]
  | [.mk (.while ..) _] | [.mk (.for ..) _] | [.mk (.functionDef ..) _] | [.mk (.classDef ..) _]
  | [.mk (.with ..) _] | [.mk (.try ..) _] | [.mk (.match ..) _] | [.mk (.expr ..) _]
  | [.mk (.assign ..) _] | [.mk (.annAssign ..) _] | [.mk (.augAssign ..) _]
  | [.mk (.return ..) _] | [.mk (.imports ..) _] | [.mk (.importFrom ..) _]
  | [.mk (.global ..) _] | [.mk (.nonlocal ..) _] | [.mk (.raise ..) _] | [.mk (.assert ..) _]
  | [.mk (.delete ..) _] | [.mk .pass _] | [.mk .break _] | [.mk .continue _]
  | [.mk (.unsupported ..) _] => by
    simp only [unlinedStmts, StmtKind.unlined, elifLinks?]

theorem lineless_isIf : Lineless Node.isIf := fun form => by cases form <;> rfl

theorem lineless_isFor : Lineless Node.isFor := fun form => by cases form <;> rfl

theorem lineless_importsRandom : Lineless Node.importsRandom := fun form => by cases form <;> rfl

theorem lineless_importsChoice : Lineless Node.importsChoice := fun form => by cases form <;> rfl

theorem lineless_stringNames : Lineless Node.stringNames := fun form => by cases form <;> rfl

theorem lineless_isIfElse : Lineless Node.isIfElse := fun form => by
  cases form with
  | «if» test body orelse =>
    rw [StmtKind.unlined, Node.isIfElse, Node.isIfElse, isEmpty_unlinedStmts]
  | _ => rfl

theorem lineless_isNestedIf : Lineless Node.isNestedIf := fun form => by
  cases form with
  | «if» test body orelse =>
    rw [StmtKind.unlined, Node.isNestedIf, Node.isNestedIf, any_isIf_unlinedStmts]
  | _ => rfl

theorem lineless_isElifChain : Lineless Node.isElifChain := fun form => by
  cases form with
  | «if» test body orelse =>
    rw [StmtKind.unlined, Node.isElifChain, Node.isElifChain, elifLinks?_unlinedStmts]
  | _ => rfl

section

variable {nodes others : List Node} (h : NodesUnlined nodes others)

include h

/-- What is found of nodes one by one stays the same. -/
theorem map_unlined {α : Type} {f : Node → α} (hf : Lineless f) : others.map f = nodes.map f := by
  induction h with
  | nil => rfl
  | cons head _ ih =>
    rw [List.map_cons, List.map_cons, ih]
    cases head with
    | same => rfl
    | stmt form => rw [hf form]

theorem any_unlined {test : Node → Bool} (hf : Lineless test) : others.any test = nodes.any test := by
  have same := congrArg (List.any · id) (map_unlined h hf)
  simpa only [List.any_map, Function.id_comp] using same

theorem countP_unlined {test : Node → Bool} (hf : Lineless test) :
    others.countP test = nodes.countP test := by
  have same := congrArg (List.countP id) (map_unlined h hf)
  simpa only [List.countP_map, Function.id_comp] using same

theorem flatMap_unlined {α : Type} {f : Node → List α} (hf : Lineless f) :
    others.flatMap f = nodes.flatMap f := by
  rw [List.flatMap_def, List.flatMap_def, map_unlined h hf]

/-- All tests of a record stay the same. -/
theorem ofNodes_unlined : Record.ofNodes others = Record.ofNodes nodes := by
  simp only [Record.ofNodes, any_unlined h lineless_isIf, any_unlined h lineless_isIfElse,
    any_unlined h lineless_isElifChain, any_unlined h lineless_importsRandom,
    any_unlined h lineless_importsChoice, any_unlined h lineless_isFor,
    any_unlined h lineless_isNestedIf, flatMap_unlined h lineless_stringNames,
    any_unlined h (show Lineless (Node.isBoolOp .or) from fun _ => rfl),
    any_unlined h (show Lineless (Node.isBoolOp .and) from fun _ => rfl),
    any_unlined h (show Lineless Node.isComparison from fun _ => rfl),
    any_unlined h (show Lineless Node.isMembershipTest from fun _ => rfl),
    any_unlined h (show Lineless Node.isStringMethodCall from fun _ => rfl),
    any_unlined h (show Lineless Node.isRandomChoice from fun _ => rfl),
    any_unlined h (show Lineless Node.isStringList from fun _ => rfl),
    countP_unlined h (show Lineless Node.isInputCall from fun _ => rfl),
    countP_unlined h (show Lineless Node.isSavedInputCall from fun _ => rfl),
    any_unlined h (show Lineless Node.printsBoolean from fun _ => rfl)]
  congr 1
  · exact any_unlined h fun _ => rfl
  · exact any_unlined h fun _ => rfl

end

/-- Wiping out the lines of a tree leaves its record as it is. -/
theorem ofModule_unlined (tree : Module) : Record.ofModule tree.unlined = Record.ofModule tree :=
  ofNodes_unlined (stmtNodes_unlined tree.body)

/-- Trees that are the same up to lines have the same record. -/
theorem ofModule_eq_of_unlined {tree other : Module} (h : tree.unlined = other.unlined) :
    Record.ofModule tree = Record.ofModule other := by
  rw [← ofModule_unlined tree, h, ofModule_unlined]

end Marksheet.Features
