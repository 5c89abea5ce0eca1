import Marksheet.Source.Token

/-!
# Layout: lines, blocks and continued lines

The gap before a token decides whether a line ends, a block opens or a block
closes there, but only together with what the grammar could take at that
point (`Viable`). `look` reads the gap of the first token once and says which
of these happens (`Verdict`); `settle` consumes comments and continued lines
one after another, looking again behind each, until one of them happens or the
token itself is reached. The line ends, openings and closings have no text, so
the rest of the gap stays for the next look.

A line that is indented less than its block closes the block. Where the grammar
takes neither a line end nor a closing bracket nor, for a line that begins with
a quote, a string, such a line is an error.
-/

namespace Marksheet.Grammar

open Marksheet.Source

/-- What the grammar could take at a point, as far as layout depends on it. -/
structure Viable where
  /-- The end of the line. -/
  lineEnd : Bool := false
  /-- A closing bracket. -/
  closer : Bool := false
  /-- A string. -/
  quote : Bool := false
  /-- The opening of a block. -/
  opening : Bool := false
  /-- The closing of a block. -/
  closing : Bool := false
  /-- A clause for exceptions that has to come. -/
  rescue : Bool := false
  deriving DecidableEq, Repr, Inhabited

/-- What happens at a point. -/
inductive Verdict where
  /-- A block opens, with its indentation. -/
  | opens (indent : Nat)
  /-- The current block closes. -/
  | closes
  /-- The line ends. -/
  | lineEnds
  /-- Nothing: the next token, comment or continued line follows. -/
  | goesOn
  deriving DecidableEq, Repr, Inhabited

/-- What a look at a gap finds. -/
structure Outlook where
  /-- A line has ended in the gap. -/
  ended : Bool := false
  /-- The indentation counted since. -/
  indent : Nat := 0
  /-- The indentation of the first comment on a line of its own. -/
  comment : Option Nat := none
  /-- The token itself was reached. -/
  reached : Bool := false
  /-- A comment follows on the same line. -/
  trailing : Bool := false
  deriving DecidableEq, Repr, Inhabited

/-- Look through a gap. Comments on lines of their own are passed over only where
`skip` holds. -/
def outlook (skip : Bool) : Outlook → List Trivia → Outlook
  | found, [] => { found with reached := true }
  | found, piece :: gap =>
    match piece with
    | .space => outlook skip { found with indent := found.indent + 1 } gap
    | .tab => outlook skip { found with indent := found.indent + 8 } gap
    | .home _ => outlook skip { found with indent := 0 } gap
    | .newline => outlook skip { found with ended := true, indent := 0 } gap
    | .continuation .. => outlook skip found gap
    | .comment _ =>
      if skip then
        if found.ended then
          outlook skip
            { found with comment := found.comment.or (some found.indent), indent := 0 } gap
        else { found with trailing := true }
      else found
    | .invisible _ => found

/-- The token opens a string without any flag before its quote. -/
def beginsWithQuote (token : Token) : Bool :=
  token.lexeme = .quoteOpen &&
    match token.text.toList with
    | c :: _ => c = '\'' || c = '\"' || c = Char.ofNat 96
    | [] => false

/-- What happens before a token, for the current indentation. The flag says that the
gap directly before a string is passed over together with its continued lines. -/
def look (indent : Nat) (viable : Viable) (token : Token) : Verdict × Bool :=
  let skip := viable.opening || viable.closing || viable.lineEnd || viable.rescue
  let found := outlook skip {} token.gap
  if found.trailing then (.goesOn, false)
  else
    let atFinish := found.reached && token.lexeme = .finish
    let ended := found.ended || atFinish
    let width := if atFinish then 0 else found.indent
    let quote := viable.quote && found.reached && beginsWithQuote token
    let mayClose := viable.closing || (!viable.lineEnd && !quote && !viable.closer)
    let commentBelow :=
      match found.comment with
      | some column => decide (column < indent)
      | none => true
    if ended && viable.opening && indent < width then (.opens width, false)
    else if ended && mayClose && width < indent && commentBelow then (.closes, false)
    else if ended && viable.lineEnd then (.lineEnds, false)
    else
      (.goesOn, viable.quote && found.reached && found.comment.isNone && token.lexeme = .quoteOpen)

/-- Drop blanks up to the first comment or continued line. -/
def dropBlanks : List Trivia → List Trivia
  | .comment text :: gap => .comment text :: gap
  | .continuation text start :: gap => .continuation text start :: gap
  | _ :: gap => dropBlanks gap
  | [] => []

theorem length_dropBlanks_le (gap : List Trivia) : (dropBlanks gap).length ≤ gap.length := by
  induction gap with
  | nil => simp [dropBlanks]
  | cons piece gap ih =>
    cases piece <;> simp only [dropBlanks, List.length_cons, Nat.le_refl] <;> omega

/-- A continued line with its text and place. -/
abbrev Continued := String × Position

/-- What happens at a point, after the comments and continued lines before it. -/
structure Settled where
  /-- The continued lines passed. -/
  continued : List Continued
  /-- What happens then. -/
  verdict : Verdict
  /-- The token with what is left of its gap. -/
  token : Token
  deriving Inhabited

/-- Pass comments and continued lines, as many as the fuel allows, until a line ends,
a block opens or closes, or the token is reached. -/
def settleFrom (indent : Nat) (viable : Viable) : Nat → List Continued → Token → Settled
  | 0, continued, token => ⟨continued.reverse, .goesOn, token.close⟩
  | fuel + 1, continued, token =>
    match look indent viable token with
    | (.goesOn, true) => ⟨continued.reverse, .goesOn, token.close⟩
    | (.goesOn, false) =>
      match dropBlanks token.gap with
      | .continuation text start :: gap =>
        settleFrom indent viable fuel ((text, start) :: continued) { token with gap }
      | .comment _ :: gap => settleFrom indent viable fuel continued { token with gap }
      | _ => ⟨continued.reverse, .goesOn, token.close⟩
    | (verdict, _) => ⟨continued.reverse, verdict, token⟩

/-- What happens before a token, for the current indentation. -/
def settle (indent : Nat) (viable : Viable) (token : Token) : Settled :=
  settleFrom indent viable (token.gap.length + 1) [] token

end Marksheet.Grammar
