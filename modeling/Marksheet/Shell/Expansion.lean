import Marksheet.Shell.State

/-!
# Words and their fields

The value of a parameter that is not in quotes is cut at blanks, so a word may
give several fields or none.
-/

namespace Marksheet.Shell

/-- The number of the shell's process. -/
def processNumber : String := "100"

/-- The value of a parameter. -/
def State.value (state : State) (name : String) : String :=
  if name = "#" then toString state.arguments.length
  else if name = "?" then toString state.status
  else if name = "$" then processNumber
  else if name = "@" || name = "*" then " ".intercalate state.arguments
  else if name = "0" then state.name
  else
    match name.toNat? with
    | some number => state.arguments.getD (number - 1) ""
    | none => (state.bindings.lookup name).getD ""

/-- A blank between fields. -/
def isFieldGap (c : Char) : Bool := c = ' ' || c = '\t' || c = '\n'

/-- The pieces of a text between blanks; blanks at an end leave an empty piece there. -/
def cutFields (cs : List Char) : List String :=
  (pieces cs).map String.ofList
where
  /-- The pieces as characters; a run of blanks cuts once. -/
  pieces : List Char → List (List Char)
    | [] => [[]]
    | c :: rest =>
      match pieces rest with
      | [] => [[c]]
      | piece :: others =>
        if isFieldGap c then
          if piece.isEmpty && !others.isEmpty then piece :: others else [] :: piece :: others
        else (c :: piece) :: others

/-- Fields of which the last one may go on. -/
structure Fields where
  /-- The finished fields, the last first. -/
  finished : List String
  /-- The field that may go on, if there is one. -/
  current : Option String
  deriving Inhabited

/-- Go on with the current field. -/
def Fields.extend (fields : Fields) (text : String) : Fields :=
  { fields with current := some (fields.current.getD "" ++ text) }

/-- Finish the current field. -/
def Fields.cut (fields : Fields) : Fields :=
  match fields.current with
  | some field => ⟨field :: fields.finished, none⟩
  | none => fields

/-- Add pieces between which fields end; an empty piece at an end only ends a field. -/
def Fields.addPieces : List String → Fields → Fields
  | [], fields => fields
  | [piece], fields => if piece.isEmpty then fields else fields.extend piece
  | piece :: rest, fields =>
    addPieces rest (if piece.isEmpty then fields else fields.extend piece).cut

/-- Add whole fields to the current one. -/
def Fields.addAll : List String → Fields → Fields
  | [], fields => fields
  | [field], fields => fields.extend field
  | field :: rest, fields => addAll rest (fields.extend field).cut

/-- Add a part of a word. -/
def Fields.addPart (state : State) (fields : Fields) : Part → Fields
  | .text chars quoted => if chars.isEmpty && !quoted then fields else fields.extend chars
  | .parameter name quoted default =>
    if name = "@" && quoted then addAll state.arguments fields
    else
      let value := state.value name
      let value := if value.isEmpty then default.getD "" else value
      if quoted then fields.extend value else addPieces (cutFields value.toList) fields

/-- The fields of a word. A word that is nothing but all arguments gives as many fields. -/
def fieldsOf (state : State) (word : Word) : List String :=
  let word : Word := match word with
    | .text "" true :: .parameter "@" true default :: rest => .parameter "@" true default :: rest
    | word => word
  (word.foldl (Fields.addPart state) ⟨[], none⟩).cut.finished.reverse

/-- The text of a word that is not cut. -/
def textOf (state : State) (word : Word) : String :=
  String.join (word.map fun part => match part with
    | .text chars _ => chars
    | .parameter name _ default =>
      let value := state.value name
      if value.isEmpty then default.getD "" else value)

end Marksheet.Shell
