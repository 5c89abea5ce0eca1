import Marksheet.Json.Reader
import Marksheet.Report.Basic

/-!
# Reading a document of reports

A record is read from an object by the names of its fields, or from an array by
their order. Members of other names are passed over; a field that comes twice,
an item too many and a value of another kind are refused. Every field has to be
there, except the message of a check, which is empty if it is absent.
-/

namespace Marksheet.Report

open Rubric (Check)

/-! ### Values of one kind -/

/-- The text that a value is. -/
def text? : Json.Value → Option String
  | .string text => some text
  | _ => none

/-- The truth value that a value is. -/
def flag? : Json.Value → Option Bool
  | .bool flag => some flag
  | _ => none

/-- The natural number that a value is. -/
def count? : Json.Value → Option Nat
  | .nat count => some count
  | _ => none

/-- The items of an array, all of which can be read. -/
def items? {α : Type} (read : Json.Value → Option α) : Json.Value → Option (List α)
  | .array items => items.mapM read
  | _ => none

/-! ### Records -/

/-- The value of each field of a record, as far as it is there. -/
def fields? (names : List String) : Json.Value → Option (List (Option Json.Value))
  | .object members =>
    let repeated := names.any fun name => 1 < members.countP (·.1 = name)
    if repeated then none else some (names.map fun name => members.lookup name)
  | .array items =>
    if names.length < items.length then none
    else some ((List.range names.length).map (items[·]?))
  | _ => none

/-- One report of a document. -/
structure Entry where
  file : String
  passed : Nat
  total : Nat
  checks : List Check
  deriving DecidableEq, Repr, Inhabited

/-- What a document holds. -/
structure Contents where
  version : String
  entries : List Entry
  totals : Totals
  deriving DecidableEq, Repr, Inhabited

/-- The check that a value stands for. -/
def check? (value : Json.Value) : Option Check := do
  match ← fields? ["name", "passed", "message"] value with
  | [some name, some passed, message] =>
    return ⟨← text? name, ← flag? passed, ← message.elim (some "") text?⟩
  | _ => none

/-- The report that a value stands for. -/
def entryOf? (value : Json.Value) : Option Entry := do
  match ← fields? ["file", "passed", "total", "results"] value with
  | [some file, some passed, some total, some results] =>
    return ⟨← text? file, ← count? passed, ← count? total, ← items? check? results⟩
  | _ => none

/-- The totals that a value stands for. -/
def totals? (value : Json.Value) : Option Totals := do
  match ← fields? ["files", "perfect", "passed_items", "total_items"] value with
  | [some files, some perfect, some passed, some total] =>
    return ⟨← count? files, ← count? perfect, ← count? passed, ← count? total⟩
  | _ => none

/-- What the document in a text holds. -/
def contents? (text : String) : Option Contents := do
  let value ← Json.value? text
  match ← fields? ["version", "files", "totals"] value with
  | [some version, some files, some totals] =>
    return ⟨← text? version, ← items? entryOf? files, ← totals? totals⟩
  | _ => none

end Marksheet.Report
