import Marksheet.Proofs.Features.Growth
import Marksheet.Rubric.Standard

/-!
# The credit for structure

A check on structure asks for features that a record either has or has not, so
a record that keeps the credit of another one passes the checks that the other
one passes. With what insertions do to a record, adding a statement to a
submission fails no check on structure that was passed, but for the check on
conditionals where the statement goes into an else-branch.
-/

namespace Marksheet.Rubric

open Features Syntax

/-- Check by check, what was passed is passed. -/
def ChecksKeep (old new : List Check) : Prop :=
  List.Forall₂ (fun was is => was.name = is.name ∧ (was.passed = true → is.passed = true)) old new

section

variable {old new : Record}

theorem expectations_keep {expected : List Expectation}
    (h : ∀ e ∈ expected, e.holds old = true → e.holds new = true) (fileName : String) :
    ChecksKeep (expectations expected fileName (some (.ok old)))
      (expectations expected fileName (some (.ok new))) := by
  rw [ChecksKeep, expectations, expectations, List.forall₂_map_left_iff,
    List.forall₂_map_right_iff, List.forall₂_same]
  exact fun e he => ⟨rfl, h e he⟩

theorem missingConditionals_eq_nil (record : Record) :
    missingConditionals record = [] ↔ record.hasIf = true ∧ record.hasIfElse = true ∧
      record.hasElifChain = true ∧ record.usesOr = true := by
  simp only [missingConditionals, List.filterMap_eq_nil_iff, List.forall_mem_cons]
  simp

theorem conditionalChecks_keep (keeps : old.Keeps new)
    (chain : old.hasElifChain = true → new.hasElifChain = true) (fileName : String) :
    ChecksKeep (conditionalChecks fileName (some (.ok old)))
      (conditionalChecks fileName (some (.ok new))) := by
  have none : missingConditionals old = [] → missingConditionals new = [] := by
    rw [missingConditionals_eq_nil, missingConditionals_eq_nil]
    exact fun ⟨hi, he, hc, ho⟩ => ⟨keeps.hasIf hi, keeps.hasIfElse he, chain hc, keeps.usesOr ho⟩
  simp only [conditionalChecks]
  split
  · next h =>
    rw [none h]
    exact .cons ⟨rfl, id⟩ .nil
  · split
    · exact .cons ⟨rfl, fun _ => rfl⟩ .nil
    · exact .cons ⟨rfl, id⟩ .nil

/-- The checks of an item on structure pass for a record that keeps the credit of another one as
they pass for that one; the check on conditionals asks for a chain of `elif` besides. -/
theorem checks_keep (keeps : old.Keeps new) {item : Item} (structural : item.category = .structural)
    (chain : item = .conditionals → old.hasElifChain = true → new.hasElifChain = true)
    (settings : Settings) (fileName source text : String) (outcome other : Run.Outcome) :
    ChecksKeep (item.checks settings fileName (.present source (.ok old) outcome))
      (item.checks settings fileName (.present text (.ok new) other)) := by
  cases item with
  | conditionals => exact conditionalChecks_keep keeps (chain rfl) fileName
  | inputs =>
    refine expectations_keep ?_ fileName
    simp only [inputExpectations, List.forall_mem_cons]
    exact ⟨keeps.hasInputSaved, keeps.hasInputUnsaved, List.forall_mem_nil _⟩
  | strings =>
    refine expectations_keep ?_ fileName
    simp only [stringExpectations, List.forall_mem_cons]
    exact ⟨keeps.assignsString, keeps.printsStringVar, keeps.concatenatesStrings, List.forall_mem_nil _⟩
  | random =>
    refine expectations_keep ?_ fileName
    simp only [randomExpectations, List.forall_mem_cons]
    exact ⟨keeps.hasListOfStrings, keeps.randomChoiceOk, List.forall_mem_nil _⟩
  | membership =>
    refine expectations_keep ?_ fileName
    simp only [membershipExpectations, List.forall_mem_cons]
    exact ⟨keeps.usesInOperator, List.forall_mem_nil _⟩
  | methods =>
    refine expectations_keep ?_ fileName
    simp only [methodExpectations, List.forall_mem_cons]
    exact ⟨keeps.usesStringMethod, List.forall_mem_nil _⟩
  | loops =>
    refine expectations_keep ?_ fileName
    simp only [loopExpectations, List.forall_mem_cons]
    exact ⟨keeps.hasForLoop, List.forall_mem_nil _⟩
  | nesting =>
    refine expectations_keep ?_ fileName
    simp only [nestingExpectations, List.forall_mem_cons]
    exact ⟨keeps.hasNestedIf, List.forall_mem_nil _⟩
  | booleans =>
    refine expectations_keep ?_ fileName
    simp only [booleanExpectations, List.forall_mem_cons]
    exact ⟨keeps.usesBooleanLogic, keeps.hasComparison, keeps.printsBoolean, List.forall_mem_nil _⟩
  | «exists» | header | lineLength | runtime | comments => cases structural

end

/-- A statement more, wherever it is put, takes no credit away: the record keeps all flags, counts
and string variables, chains of `elif` apart in an else-branch of an `if`, and what the items on
structure passed is passed. -/
theorem insertion_keeps_credit (context : Context) (before after : List Stmt) (stmt : Stmt) :
    let old := Record.ofModule ⟨plug context (before ++ after)⟩
    let new := Record.ofModule ⟨plug context (before ++ stmt :: after)⟩
    old.Keeps new ∧
    (inElse context = false → old.hasElifChain = true → new.hasElifChain = true) ∧
    ∀ (item : Item) (settings : Settings) (fileName source text : String)
      (outcome other : Run.Outcome), item.category = .structural →
      (item = .conditionals → inElse context = false) →
      ChecksKeep (item.checks settings fileName (.present source (.ok old) outcome))
        (item.checks settings fileName (.present text (.ok new) other)) := by
  intro old new
  have keeps : old.Keeps new := keeps_insert context before after stmt
  have chain : inElse context = false → old.hasElifChain = true → new.hasElifChain = true :=
    hasElifChain_insert context before after stmt
  exact ⟨keeps, chain, fun item settings fileName source text outcome other structural outside =>
    checks_keep keeps structural (fun h => chain (outside h)) settings fileName source text
      outcome other⟩

end Marksheet.Rubric
