import Marksheet.Proofs.Grammar.Printed
import Marksheet.Proofs.Syntax.Program

/-!
# Targets are read

A target is printed like the expression that looks like it, without redundant
parentheses. It is read as an operand, and the operand is a pattern for the target.
-/

namespace Marksheet.Grammar

open Marksheet.Source Marksheet.Syntax

/-- The pieces are read as a pattern for the target. -/
def ReadsTarget (target : Target) (pieces : List Piece) : Prop :=
  ∃ phrase : Phrase, Readable 22 (shapesOf pieces) phrase ∧ phrase.pattern? = some phrase ∧
    phrase.target = target

/-- Items in print are read as patterns for the targets. -/
def ReadsTargets (items : List Target) (pieces : List (List Piece)) : Prop :=
  ∃ phrases, List.Forall₂ (Readable 1) (pieces.map shapesOf) phrases ∧
    patterns? phrases = some phrases ∧ targetsOf phrases = items

/-- A pattern before patterns is one of them. -/
theorem patterns?_cons {phrase : Phrase} {phrases : List Phrase}
    (h : phrase.pattern? = some phrase) (hs : patterns? phrases = some phrases) :
    patterns? (phrase :: phrases) = some (phrase :: phrases) := by
  cases phrase with
  | continuation text => cases h
  | _ => simp only [patterns?, h, hs]

/-- Without redundant parentheses, an item is printed as it is. -/
theorem printedItems_plain (number : Nat) (item : Target) (items : List Target) :
    printedItems (fun _ => 0) number (targetExprs (item :: items)) =
      item.pieces :: printedItems (fun _ => 0) (number + 1) (targetExprs items) := by
  rw [targetExprs, printedItems]
  rfl

theorem length_targetsOf (phrases : List Phrase) : (targetsOf phrases).length = phrases.length := by
  induction phrases with
  | nil => rfl
  | cons phrase phrases ih => rw [targetsOf, List.length_cons, List.length_cons, ih]

theorem length_targetExprs (items : List Target) : (targetExprs items).length = items.length := by
  induction items with
  | nil => rfl
  | cons item items ih => rw [targetExprs, List.length_cons, List.length_cons, ih]

mutual

theorem target_reads : (target : Target) → target.isWritable = true →
    ReadsTarget target target.pieces
  | .name id, h => by
    rw [Target.isWritable, isName, Bool.and_eq_true, Bool.not_eq_true'] at h
    exact ⟨.name id, .name h.2, rfl, rfl⟩
  | .tuple items, h => by
    rw [Target.isWritable] at h
    obtain ⟨phrases, hread, hpatterns, rfl⟩ := targets_read 0 items h
    refine ⟨.tuple phrases, ?_, by simp only [Phrase.pattern?, hpatterns, Option.map_some], rfl⟩
    rw [Target.pieces, Target.expr, bare, length_targetExprs, length_targetsOf]
    exact tuple_readable hread
  | .subscript value index, h => by
    rw [Target.isWritable, Bool.and_eq_true] at h
    obtain ⟨phrase, rfl, hread⟩ := within_reads (bare_reads (fun _ => 0) value h.1) 22 22 rfl
      (fun _ => 0)
    obtain ⟨phrase', rfl, hindex⟩ := within_reads (bare_reads (fun _ => 0) index h.2) 0 1 rfl
      (fun _ => 0)
    refine ⟨.subscript phrase [phrase'], ?_, rfl, by simp only [Phrase.target, exprs]⟩
    rw [Target.pieces, Target.expr, bare, List.append_assoc, List.cons_append, shapesOf_append,
      shapesOf_cons, shapesOf_append]
    exact hread.indexed hindex
  | .attribute value attr, h => by
    rw [Target.isWritable, Bool.and_eq_true] at h
    obtain ⟨phrase, rfl, hread⟩ := within_reads (bare_reads (fun _ => 0) value h.1) 23 22 rfl
      (fun _ => 0)
    refine ⟨.attribute phrase attr, ?_, rfl, rfl⟩
    rw [Target.pieces, Target.expr, bare, shapesOf_append]
    exact hread.member attr
  | .starred _, h | .unsupported _, h => by
    rw [Target.isWritable] at h
    · cases h
    all_goals nofun

theorem targets_read (number : Nat) : (items : List Target) → targetsWritable items = true →
    ReadsTargets items (printedItems (fun _ => 0) number (targetExprs items))
  | [], _ => ⟨[], .nil, rfl, rfl⟩
  | item :: rest, h => by
    rw [targetsWritable, Bool.and_eq_true] at h
    obtain ⟨phrase, hread, hpattern, rfl⟩ := target_reads item h.1
    obtain ⟨phrases, hmore, hpatterns, rfl⟩ := targets_read (number + 1) rest h.2
    refine ⟨phrase :: phrases, ?_, patterns?_cons hpattern hpatterns, rfl⟩
    rw [printedItems_plain, List.map_cons]
    exact .cons (hread.mono Nat.one_pos (by decide)) hmore

end

/-- A target of a loop is read up to the word behind it. -/
theorem targets_eq_ok {phrase : Phrase} {shapes : List Shape} (h : Readable 22 shapes phrase)
    (hp : phrase.pattern? = some phrase) {tokens : List Token} (ht : Spells tokens shapes)
    {levels : Nat} (hl : shapes.length ≤ levels) (place : Place) {next : Token} (hs : Snug next)
    (hn : shapeOf next = .word "in") (rest : List Token) :
    targets (nested levels) place (tokens ++ next :: rest) = .ok (phrase, next :: rest) := by
  have hfollows : Follows place 13 (next :: rest) := .snug hs (by rw [hn]; decide)
  have hread := h.operand_eq_ok (by decide) ht hl (show 22 ≤ reach 22 from Nat.le_refl 22) hfollows
    (by decide) (.inl (Nat.le_refl 13))
  have hcomma : next.isSymbol .comma = false := isSymbol_of_word hn _
  simp only [targets, hread, bind, Except.bind, hp, List.length_cons, moreTargets,
    ahead_of_snug hs, close_isSymbol, hcomma, Bool.false_eq_true, if_false]
  rfl

end Marksheet.Grammar
