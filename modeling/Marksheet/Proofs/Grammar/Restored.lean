import Marksheet.Proofs.Features.Unlined
import Marksheet.Proofs.Grammar.Inverse
import Marksheet.Proofs.Grammar.Programs
import Marksheet.Proofs.Source.Programs

/-!
# Parsing restores printed programs

The lines of a printed program are cut into their tokens, and these are read as the
statements of the program up to the end of the text. So the tree of a printed program
is the tree that was printed, up to the lines on which its statements stand, and in
whatever style: with any indentation of each block, with `elif` or with a conditional
below `else`, and with any redundant parentheses.
-/

namespace Marksheet.Grammar

open Marksheet.Source Marksheet.Syntax
open Marksheet.Features (Record ofModule_eq_of_unlined)

/-- The line end before the first token of a block at the margin is of no account. -/
theorem blockFrom_close {first : Token} (h : StartsLine 0 first) (hs : Snug first.close)
    (n : Nested) (b : Blocks) (fuel : Nat) (found : Block) (rest : List Token) :
    blockFrom n b 0 fuel found (first.close :: rest) =
      blockFrom n b 0 fuel found (first :: rest) := by
  have hgoes : settle 0 { quote := true } first = ⟨[], .goesOn, first.close⟩ :=
    settle_goesOn h rfl
  have hclosed : first.close.close = first.close := rfl
  cases fuel with
  | zero => rfl
  | succ fuel =>
    simp only [blockFrom, Nat.lt_irrefl, decide_false, hgoes, settle_of_snug hs, hclosed]

/-- The sentences of a text are those of its lines, where the text ends behind them. -/
theorem sentences_of_lines {line : Line} {lines : List Line} {body : List Stmt}
    (h : ReadsBlock (line :: lines) 0 body) (hw : line.margin.width = 0) {first last : Token}
    {rest : List Token} (ht : SpellsLines (first :: rest) (line :: lines)) (hl : Finishes last) :
    ∃ block, sentences (first.close :: (rest ++ [last])) = .ok block ∧ Stands block body := by
  obtain ⟨other, tail, more, he, hs, hwrites, -⟩ := exists_line ht
  obtain ⟨rfl, -⟩ := List.cons.inj he
  rw [hw] at hs
  have hsnug : Snug first.close := hwrites.spells.snug _ List.mem_cons_self
  have hfinish : last.close.lexeme = .finish := hl.lexeme
  have hlength : (first.close :: (rest ++ [last])).length = rest.length + 1 + 1 := by
    rw [List.length_cons, List.length_append, List.length_singleton]
  obtain ⟨block, hread, hstands⟩ := h (first :: rest) ht (rest.length + 1 + 1 + 1)
    (rest.length + 1 + 1) (by rw [List.length_cons]; omega) (by rw [List.length_cons]; omega)
    [last] [last.close] hl.stops (rest.length + 1 + 1) (by rw [List.length_cons]; omega) []
  rw [List.cons_append, ← blockFrom_close hs hsnug, List.nil_append] at hread
  refine ⟨block, ?_, hstands⟩
  simp only [sentences, hlength, block_succ, hread, bind, Except.bind, hfinish, if_true]
  rfl

theorem eq_nil_of_width {margin : Margin} (h : margin.width = 0) : margin = [] := by
  cases margin with
  | nil => rfl
  | cons blank margin =>
    rw [Margin.width, List.map_cons, List.sum_cons] at h
    cases blank <;> exact absurd h (by rw [Blank.width]; omega)

/-- A printed program is read, and its sentences stand for its statements. -/
theorem read_programText (style : Style) (tree : Module) (h : tree.isWritable = true) :
    ∃ block, read (programText style tree) = .ok block ∧ Stands block tree.body := by
  have hcuts := block_cuts style [] 0 tree.body h
  have hbody := block_reads style [] 0 tree.body h
  cases hlines : blockLines style [] 0 tree.body with
  | nil =>
    have hempty : tree.body = [] := by
      by_contra hne
      exact hbody.nonempty hne hlines
    refine ⟨[], ?_, hempty ▸ .nil⟩
    rw [programText, programLines, hlines]
    rfl
  | cons line lines =>
    have hwidth : line.margin.width = 0 := by
      obtain ⟨hw, -⟩ := hbody.begins line (by rw [hlines]; rfl)
      exact hw
    have hblock : ReadsBlock (line :: lines) 0 tree.body := hlines ▸ hbody.block
    obtain ⟨first, rest, last, hspells, hlexeme, hgap, htokens⟩ :=
      tokenize_textOfLines (eq_nil_of_width hwidth) (hlines ▸ hcuts)
    have hfinishes : Finishes last := ⟨hlexeme, fun piece hm => by
      rw [hgap] at hm
      exact List.mem_singleton.mp hm⟩
    obtain ⟨block, hread, hstands⟩ := sentences_of_lines hblock hwidth hspells hfinishes
    refine ⟨block, ?_, hstands⟩
    simp only [read, programText, programLines, hlines, htokens, hread]

/-- Parsing restores a printed program: its tree is the one that was printed, up to lines, and so is
its record, whatever the style. -/
theorem parse_programText (style : Style) (tree : Module) (h : tree.isWritable = true) :
    ∃ found, parse (programText style tree) = .ok found ∧ found.unlined = tree.unlined ∧
      Record.ofModule found = Record.ofModule tree := by
  obtain ⟨block, hread, hsame, hmodern⟩ := read_programText style tree h
  have hunlined : (Module.ofBlock block).unlined = tree.unlined := by
    rw [Module.unlined, Module.unlined, Module.ofBlock, hsame]
  refine ⟨.ofBlock block, ?_, hunlined, ofModule_eq_of_unlined hunlined⟩
  simp only [parse, hread, hmodern]

/-- A chain of branches in a function, and a statement with a handler. -/
def greeting : Module :=
  ⟨[.mk (.functionDef "greet" [.mk "name" (some (.str "you"))] []
      [.mk (.if (.compare (.name "name") [(.eq, .str "a")]) [.mk (.return (some (.name "name"))) 0]
        [.mk (.if (.name "name") [.mk .pass 0]
          [.mk (.if (.name "x") [.mk .break 0] [.mk .continue 0]) 0]) 0]) 0]) 0,
    .mk (.try [.mk (.augAssign (.name "print") .add (.int 1)) 0]
      [.mk (some (.name "E")) (some "e")
        [.mk (.importFrom "..m" [⟨"os.path", some "p"⟩] false) 0] 0] [] [.mk .pass 0]) 0]⟩

/-- Tabs and blanks are mixed, the second branch goes on with `elif` and the third one stands below
`else`, and a condition has parentheses. -/
def mixedStyle : Style where
  step way := if way.length < 3 then (.tab, []) else (.space, [.space])
  joined way := way.length < 5
  extra way inner := if way = [0, 0, 0, 0] && inner = [] then 1 else 0

theorem parse_programText_greeting :
    greeting.isWritable = true ∧
      ∃ found, parse "def greet(name=\"you\"):\n\tif (name == \"a\"):\n\t  return name\n\telif name:\n\t  pass\n\telse:\n\t  if x:\n\t    break\n\t  else:\n\t    continue\ntry:\n\tprint += 1\nexcept E as e:\n  from ..m import os.path as p\nfinally:\n\tpass\n" =
          .ok found ∧
        found.unlined = greeting.unlined ∧ Record.ofModule found = Record.ofModule greeting := by
  have htext : programText mixedStyle greeting = "def greet(name=\"you\"):\n\tif (name == \"a\"):\n\t  return name\n\telif name:\n\t  pass\n\telse:\n\t  if x:\n\t    break\n\t  else:\n\t    continue\ntry:\n\tprint += 1\nexcept E as e:\n  from ..m import os.path as p\nfinally:\n\tpass\n" := by
    decide +kernel
  have hwritable : greeting.isWritable = true := by decide +kernel
  have hread := parse_programText mixedStyle greeting hwritable
  rw [htext] at hread
  exact ⟨hwritable, hread⟩

end Marksheet.Grammar
