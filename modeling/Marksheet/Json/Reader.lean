import Marksheet.Json.Token

/-!
# Reading a JSON text

A text holds one value. Objects keep all their members, in order and with
repeated keys. What a reader does not care about need not be whole: `Found` says
of a value whether all its texts are.
-/

namespace Marksheet.Json

/-- A value, and whether all texts in it are whole. -/
structure Found where
  value : Value
  whole : Bool
  deriving Inhabited

/-- A member of an object. -/
structure Member where
  key : String
  keyWhole : Bool
  found : Found
  deriving Inhabited

/-- The array of items. -/
def Found.ofItems (items : List Found) : Found :=
  ⟨.array (items.map (·.value)), items.all (·.whole)⟩

/-- The object of members. -/
def Found.ofMembers (members : List Member) : Found :=
  ⟨.object (members.map fun member => (member.key, member.found.value)),
    members.all fun member => member.keyWhole && member.found.whole⟩

mutual

/-- The value at the head of tokens. -/
def readValue : (fuel : Nat) → List Token → Option (Found × List Token)
  | 0, _ => none
  | _ + 1, .scalar value :: rest => some (⟨value, true⟩, rest)
  | _ + 1, .quoted text whole :: rest => some (⟨.string text, whole⟩, rest)
  | _ + 1, .openArray :: .closeArray :: rest => some (.ofItems [], rest)
  | fuel + 1, .openArray :: rest =>
    (readItems fuel rest).map fun (items, rest) => (.ofItems items, rest)
  | _ + 1, .openObject :: .closeObject :: rest => some (.ofMembers [], rest)
  | fuel + 1, .openObject :: rest =>
    (readMembers fuel rest).map fun (members, rest) => (.ofMembers members, rest)
  | _ + 1, _ => none

/-- One item or more, up to the closing bracket. -/
def readItems : (fuel : Nat) → List Token → Option (List Found × List Token)
  | 0, _ => none
  | fuel + 1, tokens =>
    match readValue fuel tokens with
    | some (item, .closeArray :: rest) => some ([item], rest)
    | some (item, .comma :: rest) =>
      (readItems fuel rest).map fun (items, rest) => (item :: items, rest)
    | _ => none

/-- One member or more, up to the closing brace. -/
def readMembers : (fuel : Nat) → List Token → Option (List Member × List Token)
  | 0, _ => none
  | fuel + 1, .quoted key whole :: .colon :: tokens =>
    match readValue fuel tokens with
    | some (found, .closeObject :: rest) => some ([⟨key, whole, found⟩], rest)
    | some (found, .comma :: rest) =>
      (readMembers fuel rest).map fun (members, rest) => (⟨key, whole, found⟩ :: members, rest)
    | _ => none
  | _ + 1, _ => none

end

/-- What a text holds, whether or not its texts are whole. -/
inductive Content where
  | array (items : List Found)
  | object (members : List Member)
  | scalar (found : Found)
  deriving Inhabited

/-- All tokens have been read. -/
def finished {α : Type} : Option (α × List Token) → Option α
  | some (content, []) => some content
  | _ => none

/-- What a text holds, with its items or members apart. -/
def content? (text : String) : Option Content := do
  let tokens ← tokens? text
  let fuel := tokens.length + 1
  match tokens with
  | .openArray :: .closeArray :: rest => finished (some (.array [], rest))
  | .openArray :: rest => (finished (readItems fuel rest)).map .array
  | .openObject :: .closeObject :: rest => finished (some (.object [], rest))
  | .openObject :: rest => (finished (readMembers fuel rest)).map .object
  | tokens => (finished (readValue fuel tokens)).map .scalar

/-- The value that a text holds. -/
def value? (text : String) : Option Value := do
  let tokens ← tokens? text
  let found ← finished (readValue (tokens.length + 1) tokens)
  if found.whole then some found.value else none

end Marksheet.Json
