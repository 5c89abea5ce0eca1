import Marksheet.Json.Reader

/-!
# The note of a run

A run that comes to its end leaves a note: how the submission failed, if it did,
and how many questions it asked. The note is an object with these two members,
of which the first may be missing, or an array of the two. Members of other
names are passed over, and nothing else may deviate.
-/

namespace Marksheet.Run

/-- What a run says of itself. -/
structure Note where
  fault : Option String
  inputRequests : Nat
  deriving DecidableEq, Repr, Inhabited

namespace Note

open Json (Found Member)

/-- A fault: a text, or nothing. -/
def fault? (found : Found) : Option (Option String) :=
  match found.value with
  | .null => some none
  | .string text => if found.whole then some (some text) else none
  | _ => none

/-- A count of at most sixty-four bits. -/
def count? (found : Found) : Option Nat :=
  match found.value with
  | .nat count => if count < Nat.pow 2 64 then some count else none
  | _ => none

/-- What has been read of the members of a note. -/
structure Draft where
  fault : Option (Option String)
  inputRequests : Option Nat
  deriving Inhabited

/-- Add one member; a name may not stand twice. -/
def Draft.add (draft : Draft) (member : Member) : Option Draft :=
  if !member.keyWhole then none
  else if member.key = "fault" then
    if draft.fault.isSome then none
    else (fault? member.found).map fun fault => { draft with fault := some fault }
  else if member.key = "input_requests" then
    if draft.inputRequests.isSome then none
    else (count? member.found).map fun count => { draft with inputRequests := some count }
  else some draft

/-- The note in a text. -/
def ofText? (text : String) : Option Note := do
  match ← Json.content? text with
  | .array [fault, count] => return ⟨← fault? fault, ← count? count⟩
  | .object members =>
    let draft ← members.foldlM Draft.add ⟨none, none⟩
    return ⟨draft.fault.getD none, ← draft.inputRequests⟩
  | _ => none

end Note

end Marksheet.Run
