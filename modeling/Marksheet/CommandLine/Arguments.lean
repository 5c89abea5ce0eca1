/-!
# Arguments

Arguments are read from left to right. An option takes its value behind an
equals sign, in the same cluster of letters, or from the next argument that is
no option; its value is only looked at when something else follows. `Options.ofArguments`
gives what is asked for or the first reason to refuse it; that a file and a
whole batch are asked for at once is found last.
-/

namespace Marksheet.CommandLine

/-- How reports are written. -/
inductive Format where
  | pretty | json
  deriving DecidableEq, Repr, Inhabited

/-- What a session is asked to do. -/
structure Options where
  /-- The submission to grade. -/
  file : Option String
  /-- Grade a whole batch. -/
  all : Bool
  /-- The folder of the batch. -/
  folder : String
  /-- The file of the settings. -/
  config : Option String
  format : Format
  /-- No colors. -/
  plain : Bool
  /-- Tell about each step. -/
  verbose : Bool
  deriving DecidableEq, Repr, Inhabited

/-- Why there are no options: a mistake, or a question about the program itself. -/
inductive Refusal where
  | unknownArgument
  | argumentConflict
  | invalidValue
  | tooManyValues
  | help
  | version
  deriving DecidableEq, Repr, Inhabited

/-- What an argument can set. -/
inductive Key where
  | file | all | folder | config | format | plain | verbose | help | version
  deriving DecidableEq, Repr, Inhabited

/-- The key of a long option. -/
def Key.ofName? (name : String) : Option Key :=
  [("all", all), ("dir", folder), ("config", config), ("format", format), ("no-color", plain),
    ("verbose", verbose), ("help", help), ("version", version)].lookup name

/-- The key of an option of one letter. -/
def Key.ofLetter? (letter : Char) : Option Key :=
  [('c', config), ('f', format), ('v', verbose), ('h', help), ('V', version)].lookup letter

/-- The key takes a value. -/
def Key.takesValue : Key → Bool
  | file | folder | config | format => true
  | _ => false

/-- The format of a name. -/
def Format.ofName? (name : String) : Option Format :=
  [("pretty", pretty), ("json", json)].lookup name

/-- A key that waits to be set. -/
structure Pending where
  key : Key
  /-- Its value, once it is known. -/
  value : Option String
  deriving DecidableEq, Repr, Inhabited

/-- What has been read of the arguments. -/
structure Draft where
  /-- The values that are set. -/
  values : List (Key × String)
  /-- The key that waits to be set. -/
  pending : Option Pending
  /-- A file has been named. -/
  named : Bool
  /-- No more options follow. -/
  trailing : Bool
  deriving DecidableEq, Repr, Inhabited

namespace Draft

/-- Before the first argument. -/
def empty : Draft := ⟨[], none, false, false⟩

/-- A key is set. -/
def has (draft : Draft) (key : Key) : Bool := draft.values.any fun known => known.1 = key

/-- A text can be the value of a key. -/
def accepts (key : Key) (value : String) : Bool :=
  if key = .format then (Format.ofName? value).isSome else !value.isEmpty

/-- Set a key that is not set yet. -/
def put (draft : Draft) (key : Key) (value : String) : Except Refusal Draft :=
  if draft.has key then .error .argumentConflict
  else if key.takesValue && !accepts key value then .error .invalidValue
  else .ok { draft with values := (key, value) :: draft.values }

/-- Set the key that waits; it needs a value. -/
def settle (draft : Draft) : Except Refusal Draft :=
  match draft.pending with
  | none => .ok draft
  | some ⟨_, none⟩ => .error .invalidValue
  | some ⟨key, some value⟩ => { draft with pending := none }.put key value

/-- Set a key without a value, or answer the question that it is. -/
def raise (draft : Draft) (key : Key) : Except Refusal Draft := do
  let draft ← draft.settle
  if key = .help then .error .help
  else if key = .version then .error .version
  else draft.put key ""

/-- Set a key to a value that is attached to it, or wait for its value. -/
def offer (draft : Draft) (key : Key) (attached : Option String) : Except Refusal Draft := do
  let draft ← draft.settle
  match attached with
  | some value => draft.put key value
  | none => return { draft with pending := some ⟨key, none⟩ }

/-- Take an argument that is no option: the value that is waited for, or a file. -/
def takePlain (draft : Draft) (argument : String) : Except Refusal Draft :=
  match draft.pending, draft.trailing with
  | some ⟨key, none⟩, false => .ok { draft with pending := some ⟨key, some argument⟩ }
  | _, _ =>
    if draft.named then .error .unknownArgument
    else do
      let draft ← draft.settle
      return { draft with pending := some ⟨.file, some argument⟩, named := true }

/-- Take a long option without its hyphens. -/
def takeLong (draft : Draft) (text : List Char) : Except Refusal Draft :=
  let name := text.takeWhile (· ≠ '=')
  let attached := match text.drop name.length with
    | _ :: value => some (String.ofList value)
    | [] => none
  match Key.ofName? (String.ofList name) with
  | none => .error .unknownArgument
  | some key =>
    if key.takesValue then draft.offer key attached
    else if attached.isSome then .error .tooManyValues
    else draft.raise key

/-- The value in a cluster of letters behind the letter of its key. -/
def clusterValue : List Char → Option String
  | [] => none
  | '=' :: value => some (String.ofList value)
  | value => some (String.ofList value)

/-- Take a cluster of letters without its hyphen. -/
def takeLetters (draft : Draft) : List Char → Except Refusal Draft
  | [] => .ok draft
  | letter :: rest =>
    match Key.ofLetter? letter with
    | none => .error .unknownArgument
    | some key =>
      if key.takesValue then draft.offer key (clusterValue rest)
      else do takeLetters (← draft.raise key) rest

/-- Take one argument. -/
def take (draft : Draft) (argument : String) : Except Refusal Draft :=
  if draft.trailing then draft.takePlain argument
  else
    match argument.toList with
    | ['-', '-'] => .ok { draft with trailing := true }
    | '-' :: '-' :: text => draft.takeLong text
    | '-' :: letter :: letters => draft.takeLetters (letter :: letters)
    | _ => draft.takePlain argument

/-- The value of a key. -/
def value? (draft : Draft) (key : Key) : Option String := draft.values.lookup key

/-- The options that have been read; a file and a batch exclude each other. -/
def options (draft : Draft) : Except Refusal Options :=
  if draft.has .file && draft.has .all then .error .argumentConflict
  else
    .ok {
      file := draft.value? .file
      all := draft.has .all
      folder := (draft.value? .folder).getD "."
      config := draft.value? .config
      format := ((draft.value? .format).bind Format.ofName?).getD .pretty
      plain := draft.has .plain
      verbose := draft.has .verbose }

end Draft

/-- The options that arguments ask for. -/
def Options.ofArguments (arguments : List String) : Except Refusal Options := do
  (← (← arguments.foldlM Draft.take .empty).settle).options

end Marksheet.CommandLine
