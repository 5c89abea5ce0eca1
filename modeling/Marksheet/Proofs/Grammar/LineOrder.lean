import Marksheet.Proofs.Grammar.OnwardBlocks
import Marksheet.Proofs.Grammar.Statements
import Marksheet.Proofs.Source.Fronts
import Marksheet.Proofs.Syntax.LineOrder

/-!
# Lines of what is read

A block is read up to a token that is left behind it (`blockFrom_ne_nil`), so all
its places come before another one and are on lines of the text
(`read_lines`). These places ascend, and the lines of the tree are theirs: they
lie in the text and never decrease (`parse_ordered`).
-/

namespace Marksheet.Grammar

open Marksheet.Source Marksheet.Syntax

/-- A block ends at a token, which is not taken. -/
theorem blockFrom_ne_nil (n : Nested) (b : Blocks) (indent fuel : Nat) :
    ∀ (found : Block) (tokens : List Token),
      Gives (fun left => left.2 ≠ []) (blockFrom n b indent fuel found tokens) := by
  induction fuel with
  | zero => exact fun _ tokens => gives_stuck tokens
  | succ fuel ih =>
    intro found tokens
    unfold blockFrom
    split
    · exact gives_stuck _
    · dsimp only
      split
      · exact gives_ok (List.cons_ne_nil _ _)
      · split
        · exact gives_ok (List.cons_ne_nil _ _)
        · exact gives_after fun next => ih _ next.2

/-- The places of a whole text come before that of the token at its end. -/
theorem sentences_before_last (tokens : List Token) :
    Gives (fun block => ∃ last, (blockPlaces block ++ [last]).Sublist (places tokens))
      (sentences tokens) := by
  have hlays := blocks_lay (nested_onward (tokens.length + 1)) (tokens.length + 1) 0 tokens
  have hleft := blockFrom_ne_nil (nested (tokens.length + 1))
    (blocks (nested (tokens.length + 1)) tokens.length) 0 tokens.length [] tokens
  refine gives_bind (fun found he => And.intro (hlays found he) (hleft found he)) ?_
  rintro ⟨block, left⟩ ⟨hplaces, hne⟩
  dsimp only at hplaces hne ⊢
  obtain ⟨token, rest, rfl⟩ := List.exists_cons_of_ne_nil hne
  have hstart : [token.start].Sublist (places (token :: rest)) :=
    .trans (.cons_cons _ (List.nil_sublist _)) (start_behind_sublist token rest)
  have hlast : (blockPlaces block ++ [token.start]).Sublist (places tokens) :=
    .trans ((List.Sublist.refl _).append hstart) hplaces
  split
  · split
    · exact gives_ok ⟨token.start, hlast⟩
    · exact gives_error _
  · exact gives_error _
  · exact gives_ok ⟨token.start, hlast⟩

/-- What is read of a source text lies in its lines. -/
theorem read_lines {source : String} {block : Block} (h : read source = .ok block) :
    ∀ place ∈ blockPlaces block,
      1 ≤ place.line ∧ place.line ≤ (Text.lines source.toList).length := by
  unfold read at h
  split at h
  · next found he =>
    cases h
    intro place hplace
    obtain ⟨last, hlast⟩ := sentences_before_last _ _ he
    have hfront (later : Position) (hm : later ∈ blockPlaces block ++ [last]) :
        Fronts .first source.toList later :=
      exists_front (hlast.subset hm)
    have hbefore : place.Before last :=
      (List.pairwise_append.mp ((places_ascend source).sublist hlast)).2.2 place hplace last
        List.mem_cons_self
    exact line_le_of_before (hfront place (List.mem_append_left _ hplace))
      (hfront last (List.mem_append_right _ List.mem_cons_self)) hbefore
  · cases h

/-- The lines of the tree of a source text are those of the places where its statements, `elif`
branches and `except` clauses begin, in their order; a statement begins at its decorators. -/
theorem parse_startLines {source : String} {tree : Module} (h : parse source = .ok tree) :
    ∃ block, read source = .ok block ∧ tree = .ofBlock block ∧
      (blockStartLines tree.body).Sublist ((blockPlaces block).map Position.line) := by
  obtain ⟨block, hread, rfl⟩ := parse_eq_ok h
  exact ⟨block, hread, rfl, block_laid (read_orderly hread)⟩

/-- The lines of a tree lie in the source text, and none is smaller than one before it: from one
statement of a list to the next, from a statement to what is nested in it, from a handler to its
body, and from a body to the branches behind it. They are lines of places in the text, and these
follow one another as the places of the concrete form do, where a definition begins at its first
decorator, and an `elif` and an `except` clause at their own words. -/
theorem parse_ordered {source : String} {tree : Module} (h : parse source = .ok tree) :
    (tree.body.Pairwise fun first second => first.line ≤ second.line) ∧
      (∀ stmt, Within tree.body stmt → stmt.Ordered (Text.lines source.toList).length) ∧
      ∃ block, read source = .ok block ∧ tree = .ofBlock block ∧
        (blockPlaces block).Sublist (places (tokenize source)) ∧
        (blockStartLines tree.body).Sublist ((blockPlaces block).map Position.line) := by
  obtain ⟨block, hread, htree, hlines⟩ := parse_startLines h
  have hplaces : ((blockPlaces block).map Position.line).Pairwise (· ≤ ·) :=
    List.pairwise_map.mpr ((read_ascends hread).imp Position.Before.line_le)
  have hsorted := hplaces.sublist hlines
  have hrange : ∀ line ∈ blockStartLines tree.body,
      1 ≤ line ∧ line ≤ (Text.lines source.toList).length := by
    intro line hm
    obtain ⟨place, hplace, rfl⟩ := List.mem_map.mp (hlines.subset hm)
    exact read_lines hread place hplace
  exact ⟨pairwise_line hsorted, fun stmt hw => ordered_of_within hsorted hrange hw,
    block, hread, htree, read_sublist hread, hlines⟩

/-- A function begins at its decorator, an `elif` on its own line, and the statements of a suite on
the line of the header share that line. -/
theorem parse_ordered_decorated :
    ∃ tree,
      parse "@a\ndef f():\n if x: y; z\n elif y:\n  try:\n   pass\n  except E: z\n" = .ok tree ∧
      blockStartLines tree.body = [1, 3, 3, 3, 4, 5, 6, 7, 7] ∧
      (tree.body.Pairwise fun first second => first.line ≤ second.line) ∧
      ∀ stmt, Within tree.body stmt → stmt.Ordered 7 := by
  let rescue : Handler := .mk (some (.name "E")) none [.mk (.expr (.name "z")) 7] 7
  let attempt : Stmt := .mk (.try [.mk .pass 6] [rescue] [] []) 5
  let otherwise : Stmt := .mk (.if (.name "y") [attempt] []) 4
  let short : List Stmt := [.mk (.expr (.name "y")) 3, .mk (.expr (.name "z")) 3]
  let choice : Stmt := .mk (.if (.name "x") short [otherwise]) 3
  let tree : Module := ⟨[.mk (.functionDef "f" [] [.name "a"] [choice]) 1]⟩
  have hparse :
      parse "@a\ndef f():\n if x: y; z\n elif y:\n  try:\n   pass\n  except E: z\n" = .ok tree := by
    cbv
  obtain ⟨hbody, hwithin, -⟩ := parse_ordered hparse
  exact ⟨tree, hparse, rfl, hbody, hwithin⟩

end Marksheet.Grammar
