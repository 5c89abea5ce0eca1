import Marksheet.Yaml.Directive

/-!
# Tokens of a YAML text

A token is a mark of structure, a node's property or a scalar, with the marks at
its beginning and end. Blocks have tokens of their own, which come from the
indentation of lines.
-/

namespace Marksheet.Yaml

/-- The kinds of collections that tokens open and close. -/
inductive Bracket where
  | square | curly
  deriving DecidableEq, Repr, Inhabited

/-- What a token is. -/
inductive TokenKind where
  | streamStart
  | streamEnd
  | directive (directive : Directive)
  | documentStart
  | documentEnd
  | blockSequence
  | blockMapping
  | blockEnd
  | opening (bracket : Bracket)
  | closing (bracket : Bracket)
  | comma
  | dash
  | key
  | value
  | alias (name : String)
  | anchor (name : String)
  | tag (name : TagName)
  /-- A scalar; whether it is a plain one and whether it is a literal block. -/
  | scalar (text : String) (plain literal : Bool)
  deriving DecidableEq, Repr, Inhabited

/-- A token with its place. -/
structure Token where
  kind : TokenKind
  start : Mark
  stop : Mark
  deriving DecidableEq, Repr, Inhabited

end Marksheet.Yaml
