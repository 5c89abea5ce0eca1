import Marksheet.Source.Position
import Marksheet.Syntax.Operator

/-!
# Tokens of a source text

A token is a lexeme together with its exact text, its place and the gap of
blanks, line ends, comments and continued lines before it. Nothing of the text
is lost: gaps and texts joined in order give the source back. Layout is not
decided here; the gap keeps what a decision needs.
-/

namespace Marksheet.Source

open Marksheet.Syntax (BinOp)

/-- One piece of the gap between two tokens. -/
inductive Trivia where
  /-- A space. -/
  | space
  /-- A tab, which counts eight spaces of indentation. -/
  | tab
  /-- A carriage return or form feed, which sets the indentation back to zero. -/
  | home (c : Char)
  /-- The end of a line. -/
  | newline
  /-- A backslash at the end of a line, with its text and place. -/
  | continuation (text : String) (at_ : Position)
  /-- A comment up to the end of its line. -/
  | comment (text : String)
  /-- A character without any effect. -/
  | invisible (c : Char)
  deriving DecidableEq, Repr, Inhabited

/-- The exact text of a piece. -/
def Trivia.text : Trivia → String
  | .space => " "
  | .tab => "\t"
  | .home c | .invisible c => String.singleton c
  | .newline => "\n"
  | .continuation text _ | .comment text => text

/-- Delimiters and operators. -/
inductive Symbol where
  | lparen | rparen | lbracket | rbracket | lbrace | rbrace
  | comma | colon | semicolon | dot | ellipsis | arrow | walrus | assign | tilde
  | less | lessEq | greater | greaterEq | eqEq | notEq | lessGreater
  /-- An arithmetic or bitwise operator. -/
  | op (op : BinOp)
  /-- An operator directly followed by an equals sign. -/
  | augmented (op : BinOp)
  deriving DecidableEq, Repr, Inhabited

/-- The written form of a symbol. -/
def Symbol.text : Symbol → String
  | .lparen => "("
  | .rparen => ")"
  | .lbracket => "["
  | .rbracket => "]"
  | .lbrace => "\x7b"
  | .rbrace => "\x7d"
  | .comma => ","
  | .colon => ":"
  | .semicolon => ";"
  | .dot => "."
  | .ellipsis => "..."
  | .arrow => "->"
  | .walrus => ":="
  | .assign => "="
  | .tilde => "~"
  | .less => "<"
  | .lessEq => "<="
  | .greater => ">"
  | .greaterEq => ">="
  | .eqEq => "=="
  | .notEq => "!="
  | .lessGreater => "<>"
  | .op sign => sign.symbol
  | .augmented sign => sign.symbol ++ "="

/-- What a token is. Words are not yet divided into names and keywords: that
depends on where they stand. -/
inductive Lexeme where
  | word
  | integer
  | float
  | symbol (symbol : Symbol)
  /-- The flags and opening quote of a string. -/
  | quoteOpen
  /-- A run of string content without fields. -/
  | quoteText
  | quoteClose
  /-- The brace that opens a replacement field. -/
  | fieldOpen
  | fieldClose
  /-- A conversion such as `!r`. -/
  | conversion
  /-- The colon before a format specification. -/
  | specOpen
  | specText
  /-- A character that no rule takes, or a string that does not end. -/
  | broken
  /-- The end of the text. -/
  | finish
  deriving DecidableEq, Repr, Inhabited

/-- A lexeme with its surroundings. -/
structure Token where
  /-- What stands between the previous token and this one. -/
  gap : List Trivia
  /-- What the token is. -/
  lexeme : Lexeme
  /-- The exact text. -/
  text : String
  /-- Where the token begins. -/
  start : Position
  /-- Where the gap begins, which is where the token before it stops. -/
  behind : Position
  deriving DecidableEq, Repr, Inhabited

namespace Token

/-- The token is this symbol. -/
def isSymbol (token : Token) (symbol : Symbol) : Bool := token.lexeme = .symbol symbol

/-- The token is this word. -/
def isWord (token : Token) (word : String) : Bool := token.lexeme = .word && token.text = word

/-- The token without its gap. -/
def close (token : Token) : Token := { token with gap := [] }

/-- The exact text of the gap and of the token. -/
def verbatim (token : Token) : String := token.gap.foldr (·.text ++ ·) token.text

/-- The place behind the token. -/
def stop (token : Token) : Position := token.start.advance token.text.toList

end Token

/-- The text that a list of tokens was read from. -/
def verbatim (tokens : List Token) : String := tokens.foldr (·.verbatim ++ ·) ""

end Marksheet.Source
