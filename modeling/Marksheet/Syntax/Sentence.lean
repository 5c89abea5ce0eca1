import Marksheet.Syntax.Phrase

/-!
# The concrete form of statements

A `Sentence` is a statement as the grammar read it, with the place where it
begins. A `Block` is the list of sentences of one suite, continued lines
between them included. The two statements of the older language that are read
only to be refused have forms of their own.
-/

namespace Marksheet.Syntax

open Marksheet.Source (Position)

mutual

/-- A statement with the place where it begins. -/
inductive Sentence where
  | mk (form : Form) (start : Position)

/-- The forms of a statement. -/
inductive Form where
  /-- A line continued between two statements. -/
  | continuation
  /-- The parts of an expression statement. -/
  | expression (parts : List Phrase)
  | legacyPrint
  | legacyExec
  | assert (parts : List Phrase)
  | return (parts : List Phrase)
  | delete (parts : List Phrase)
  /-- The parts of a `raise` without its cause. -/
  | raise (parts : List Phrase)
  | imports (names : List ImportName)
  | importFrom (module : String) (names : List ImportName) (wildcard : Bool)
  | importFuture
  | global (names : List String)
  | nonlocal (names : List String)
  | pass
  | break
  | continue
  | typeAlias
  /-- The first condition and block, then the further branches. -/
  | «if» (test : Phrase) (body : List Sentence) (branches : List Branch)
  | while (test : Phrase) (body : List Sentence) (orelse : List Sentence)
  | for (target iter : Phrase) (body : List Sentence) (orelse : List Sentence)
  | try (body : List Sentence) (clauses : List Rescue)
  | with (items : List Phrase) (body : List Sentence)
  | define (name : String) (params : List Parameter) (body : List Sentence)
  | class (name : String) (args : List Phrase) (body : List Sentence)
  /-- The parts of each decorator, and what they decorate. -/
  | decorated (decorators : List (List Phrase)) (definition : Form)
  | match (subjects : List Phrase) (cases : List Case)

/-- A further branch of a conditional statement. -/
inductive Branch where
  | elif (start : Position) (test : Phrase) (body : List Sentence)
  | else (body : List Sentence)

/-- A clause of a `try` statement. -/
inductive Rescue where
  /-- The parts before the block, each with its exact text. -/
  | except (start : Position) (parts : List (Phrase × String)) (body : List Sentence)
  | exceptGroup (body : List Sentence)
  | else (body : List Sentence)
  | finally (body : List Sentence)

/-- A clause of a `match` statement with the parts of its guard. -/
inductive Case where
  | mk (guard : Option (List Phrase)) (body : List Sentence)

end

instance : Inhabited Form := ⟨.pass⟩
instance : Inhabited Sentence := ⟨⟨.pass, .first⟩⟩

/-- The sentences of one suite. -/
abbrev Block := List Sentence

/-- The form of a sentence. -/
def Sentence.form : Sentence → Form
  | .mk form _ => form

/-- The place where a sentence begins. -/
def Sentence.start : Sentence → Position
  | .mk _ start => start

end Marksheet.Syntax
