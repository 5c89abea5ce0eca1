import Mathlib
import Marksheet.Grammar.Program

/-!
# Comments and the tree

The comments of a source are what its tokens have in their gaps, so quotes and
replacement fields hide what looks like one. Without its comments a source
keeps everything else, the ends of the lines included. A name of several tokens
is kept as it is written, gaps included, so a comment between the star of a
parameter and its name becomes a part of the name.
-/

namespace Marksheet.Source

/-- A comment, up to the end of its line. -/
def Trivia.isComment : Trivia → Bool
  | .comment _ => true
  | _ => false

/-- The token without the comments before it. -/
def Token.withoutComments (token : Token) : Token :=
  { token with gap := token.gap.filter fun piece => !piece.isComment }

/-- A source without the text of its comments. -/
def withoutComments (source : String) : String :=
  verbatim ((tokenize source).map Token.withoutComments)

/-- Only what stands outside of strings is a comment. -/
example : withoutComments "x = '#' # y\n  # z\n" = "x = '#' \n  \n" := by cbv

end Marksheet.Source

namespace Marksheet.Grammar

open Source Syntax

/-- A comment behind the star of a parameter is a part of its name: without comments the same source
has another tree. -/
theorem parse_keeps_comment :
    ∃ first second, parse "def f(*  # c\n      args):\n    pass\n" = .ok first ∧
      parse (withoutComments "def f(*  # c\n      args):\n    pass\n") = .ok second ∧
      first ≠ second := by
  let tree (name : String) : Module :=
    ⟨[.mk (.functionDef "f" [.mk name none] [] [.mk .pass 3]) 1]⟩
  refine ⟨tree "  # c\n      args", tree "  \n      args", by cbv, by cbv, ?_⟩
  simp [tree]

end Marksheet.Grammar
