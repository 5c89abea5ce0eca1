import Marksheet.Grammar.Program
import Marksheet.Proofs.Grammar.CrlfBlocks
import Marksheet.Proofs.Syntax.CrlfTree

/-!
# Programs with line ends of two characters

Where every character of a text with line ends of two characters belongs to a
token, the text is taken or refused as the text with line feeds is
(`parse_crlf`), and a text that is taken has no other characters
(`not_broken_of_read`).
-/

namespace Marksheet.Grammar

open Source Syntax

mutual

theorem legacyIn?_crlf : ∀ sentence : Sentence, legacyIn? sentence.crlf = legacyIn? sentence
  | .mk form start => by rw [Sentence.crlf, legacyIn?, legacyIn?, legacyInForm?_crlf start form]

theorem legacyInBlock?_crlf : ∀ block : List Sentence,
    legacyInBlock? (block.map Sentence.crlf) = legacyInBlock? block
  | [] => rfl
  | sentence :: rest => by
    rw [List.map_cons, legacyInBlock?, legacyInBlock?, legacyIn?_crlf sentence,
      legacyInBlock?_crlf rest]

theorem legacyInForm?_crlf (start : Position) : ∀ form : Form,
    legacyInForm? start form.crlf = legacyInForm? start form
  | .continuation | .expression _ | .legacyPrint | .legacyExec | .assert _ | .return _ | .delete _
  | .raise _ | .imports _ | .importFrom _ _ _ | .importFuture | .global _ | .nonlocal _ | .pass
  | .break | .continue | .typeAlias => rfl
  | .if _ body further => by
    rw [Form.crlf, crlfBlock_eq, crlfBranches_eq, legacyInForm?, legacyInForm?,
      legacyInBlock?_crlf body, legacyInBranches?_crlf further]
  | .while _ body orelse | .for _ _ body orelse => by
    rw [Form.crlf, crlfBlock_eq, crlfBlock_eq, legacyInForm?, legacyInForm?,
      legacyInBlock?_crlf body, legacyInBlock?_crlf orelse]
  | .try body clauses => by
    rw [Form.crlf, crlfBlock_eq, crlfRescues_eq, legacyInForm?, legacyInForm?,
      legacyInBlock?_crlf body, legacyInRescues?_crlf clauses]
  | .with _ body | .define _ _ body | .class _ _ body => by
    rw [Form.crlf, crlfBlock_eq, legacyInForm?, legacyInForm?, legacyInBlock?_crlf body]
  | .decorated _ definition => by
    rw [Form.crlf, legacyInForm?, legacyInForm?, legacyInForm?_crlf start definition]
  | .match _ cases => by
    rw [Form.crlf, crlfCases_eq, legacyInForm?, legacyInForm?, legacyInCases?_crlf cases]

theorem legacyInBranches?_crlf : ∀ further : List Branch,
    legacyInBranches? (further.map Branch.crlf) = legacyInBranches? further
  | [] => rfl
  | .elif _ _ body :: rest | .else body :: rest => by
    rw [List.map_cons, Branch.crlf, crlfBlock_eq, legacyInBranches?, legacyInBranches?,
      legacyInBlock?_crlf body, legacyInBranches?_crlf rest]

theorem legacyInRescues?_crlf : ∀ clauses : List Rescue,
    legacyInRescues? (clauses.map Rescue.crlf) = legacyInRescues? clauses
  | [] => rfl
  | .except _ _ body :: rest | .exceptGroup body :: rest | .else body :: rest
  | .finally body :: rest => by
    rw [List.map_cons, Rescue.crlf, crlfBlock_eq, legacyInRescues?, legacyInRescues?,
      legacyInBlock?_crlf body, legacyInRescues?_crlf rest]

theorem legacyInCases?_crlf : ∀ cases : List Case,
    legacyInCases? (cases.map Case.crlf) = legacyInCases? cases
  | [] => rfl
  | .mk _ body :: rest => by
    rw [List.map_cons, Case.crlf, crlfBlock_eq, legacyInCases?, legacyInCases?,
      legacyInBlock?_crlf body, legacyInCases?_crlf rest]

end

/-- A text is taken only if all of it can be cut into tokens. -/
theorem not_broken_of_read {source : String} {block : Block} (h : read source = .ok block) :
    ∀ token ∈ tokenize source, token.lexeme ≠ .broken := by
  unfold read at h
  cases hs : sentences (tokenize source) with
  | error reason =>
    rw [hs] at h
    cases h
  | ok found => exact not_broken_of_sentences hs

section

variable {source : String} (hreturn : '\r' ∉ source.toList)
  (hbroken : ∀ token ∈ tokenize (crlfText source), token.lexeme ≠ .broken)

include hreturn hbroken

/-- The sentences of a text with other line ends are those of the text with other line ends, or
both texts are refused with the same words. -/
theorem read_crlf : read (crlfText source) = (read source).map (List.map Sentence.crlf) := by
  obtain ⟨htokens, hplain⟩ := tokenize_crlf hreturn hbroken
  rw [read, read, htokens, sentences_crlf hplain]
  cases sentences (tokenize source) <;> rfl

/-- The tree of a text with other line ends is the tree of the text up to texts that no check
looks at, or both texts are refused with the same words. -/
theorem parse_crlf :
    (parse (crlfText source)).map Module.wiped = (parse source).map Module.wiped := by
  unfold parse
  rw [read_crlf hreturn hbroken]
  cases read source with
  | error failure => rfl
  | ok block =>
    simp only [Except.map, legacyInBlock?_crlf]
    cases legacyInBlock? block with
    | some found => rfl
    | none => exact congrArg Except.ok (Module.ofBlock_crlf block)

end

end Marksheet.Grammar
