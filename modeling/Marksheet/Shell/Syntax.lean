/-!
# Shell scripts

A script is a command. Words are made of texts and parameters, each in quotes or
not; what is in quotes is neither cut into fields nor taken for a keyword.
-/

namespace Marksheet.Shell

/-- A part of a word. -/
inductive Part where
  | text (chars : String) (quoted : Bool)
  /-- A parameter by its name, and what stands for it if it is unset or empty. -/
  | parameter (name : String) (quoted : Bool) (default : Option String)
  deriving DecidableEq, Repr, Inhabited

/-- A word is a list of parts. -/
abbrev Word := List Part

/-- Where one stream of a command goes or comes from. -/
inductive Redirect where
  | read (descriptor : Nat) (path : Word)
  | write (descriptor : Nat) (append : Bool) (path : Word)
  | copy (descriptor : Nat) (source : Word)
  | here (descriptor : Nat) (content : Word)
  deriving DecidableEq, Repr, Inhabited

/-- A command. -/
inductive Command where
  | done
  | simple (assignments : List (String × Word)) (words : List Word) (redirects : List Redirect)
  | pipe (left right : Command)
  | negate (command : Command)
  /-- Both, the second if the first succeeds. -/
  | both (left right : Command)
  /-- The second if the first fails. -/
  | either (left right : Command)
  | sequence (left right : Command)
  /-- In the background. -/
  | aside (command : Command)
  | each (name : String) (words : List Word) (body : Command)
  /-- As long as the condition succeeds, or as long as it fails. -/
  | loop (succeeds : Bool) (condition body : Command)
  | choose (condition yes no : Command)
  /-- A group with streams of its own; a group apart keeps its changes to itself. -/
  | group (apart : Bool) (body : Command) (redirects : List Redirect)
  deriving Inhabited

end Marksheet.Shell
