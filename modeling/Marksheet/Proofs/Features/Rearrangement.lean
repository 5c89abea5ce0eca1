import Mathlib.Data.List.Sort
import Marksheet.Proofs.Features.Growth
import Marksheet.Proofs.Syntax.Rearrangement

/-!
# The order of statements

Two records of which each keeps the credit of the other one are equal
(`Record.Keeps.antisymm`), and a block that is put in another order has grown
into that order, which in turn has grown into the block. So one block in
another order leaves the record as it is, and by `chain_tree` so does any
rearrangement of all blocks at once.
-/

namespace Marksheet.Features

open Syntax

/-- Sets of names with the same members are equal. -/
theorem NameSet.ext {first second : NameSet} (h : ∀ name, name ∈ first ↔ name ∈ second) :
    first = second := by
  obtain ⟨names, sorted⟩ := first
  obtain ⟨others, ordered⟩ := second
  have irrefl : Std.Irrefl (fun a b : String => a < b) := ⟨String.lt_irrefl⟩
  congr
  exact sorted.eq_of_mem_iff ordered h

/-- Records that keep each other's credit, chains of `elif` included, are equal. -/
theorem Record.Keeps.antisymm {first second : Record} (h : first.Keeps second)
    (g : second.Keeps first) (chain : first.hasElifChain = second.hasElifChain) :
    first = second := by
  have flag {a b : Bool} (hab : a = true → b = true) (hba : b = true → a = true) : a = b :=
    Bool.eq_iff_iff.mpr ⟨hab, hba⟩
  cases first
  cases second
  congr
  · exact flag h.hasIf g.hasIf
  · exact flag h.hasIfElse g.hasIfElse
  · exact flag h.usesOr g.usesOr
  · exact flag h.usesAnd g.usesAnd
  · exact flag h.hasComparison g.hasComparison
  · exact flag h.usesInOperator g.usesInOperator
  · exact flag h.usesStringMethod g.usesStringMethod
  · exact flag h.usesRandomChoice g.usesRandomChoice
  · exact flag h.importsRandom g.importsRandom
  · exact flag h.importsRandomChoice g.importsRandomChoice
  · exact flag h.hasListOfStrings g.hasListOfStrings
  · exact flag h.hasForLoop g.hasForLoop
  · exact flag h.hasNestedIf g.hasNestedIf
  · exact h.inputCalls.antisymm g.inputCalls
  · exact h.savedInputCalls.antisymm g.savedInputCalls
  · exact NameSet.ext fun name => ⟨h.stringVars name, g.stringVars name⟩
  · exact flag h.printsStringVar g.printsStringVar
  · exact flag h.concatenatesStrings g.concatenatesStrings
  · exact flag h.printsBoolean g.printsBoolean

section

variable {block other : List Stmt} (h : block.Perm other)
include h

theorem elifLinks?_perm : elifLinks? other = elifLinks? block := by
  by_cases single : block.length = 1
  · obtain ⟨stmt, rfl⟩ := List.length_eq_one_iff.mp single
    rw [List.perm_singleton.mp h.symm]
  · rw [elifLinks?_none single, elifLinks?_none (h.length_eq ▸ single)]

theorem swells_perm : Swells block other where
  nonempty := fun filled => h.isEmpty_eq.symm.trans filled
  hasIf := fun hi => by
    obtain ⟨stmt, hs, ht⟩ := List.any_eq_true.mp hi
    exact List.any_eq_true.mpr ⟨stmt, h.subset hs, ht⟩

theorem stmtNodes_perm : (stmtNodes block).Perm (stmtNodes other) := by
  rw [stmtNodes_eq_flatMap, stmtNodes_eq_flatMap]
  exact h.flatMap_right _

theorem nodes_perm (context : Context) :
    NodesGrow True (nodes ⟨plug context block⟩) (nodes ⟨plug context other⟩) :=
  nodes_plug context (swells_perm h) (fun _ _ => elifLinks?_perm h)
    (.of_subperm (stmtNodes_perm h).subperm)

end

/-- The record of a tree does not depend on the order of one block. -/
theorem ofModule_reorders {first second : List Stmt} (h : Reorders first second) :
    Record.ofModule ⟨first⟩ = Record.ofModule ⟨second⟩ := by
  obtain ⟨context, block, other, hp, rfl, rfl⟩ := h
  have there := nodes_perm hp context
  have back := nodes_perm hp.symm context
  have steady := steady_isElifChain trivial
  have chain : (Record.ofModule ⟨plug context block⟩).hasElifChain =
      (Record.ofModule ⟨plug context other⟩).hasElifChain :=
    Bool.eq_iff_iff.mpr ⟨any_grown steady there, any_grown steady back⟩
  exact (keeps_of_grown there).antisymm (keeps_of_grown back) chain

/-- The statements of all blocks of a tree may be put in any orders, all at once: the record stays
the same. -/
theorem ofModule_rearranged (orders : Rearrangement) (tree : Module) :
    Record.ofModule (orders.tree tree) = Record.ofModule tree := by
  have along : ∀ {first second : List Stmt}, Chain first second →
      Record.ofModule ⟨first⟩ = Record.ofModule ⟨second⟩ := fun h => by
    induction h with
    | refl => rfl
    | tail _ last ih => exact ih.trans (ofModule_reorders last)
  exact (along (orders.chain_tree tree)).symm

end Marksheet.Features
