/-!
# A tree of files

A path is a text. Its steps are what stands between separators; empty steps and
single dots go nowhere. The last step names the file, unless it goes up.

Folders hold files, links and folders under names. A path is followed step by
step from the working folder or from the root; a link is replaced by its target
as often as needed, up to a limit. Every failure has the number and the words
of the operating system. A file is written where its path leads, or made anew in
the folder that the rest of the path leads to; nothing else in the tree changes.
-/

namespace Marksheet.Files

/-! ### Paths -/

/-- The parts of a text between separators. -/
def splitSteps : List Char → List (List Char)
  | [] => [[]]
  | c :: rest =>
    if c = '/' then [] :: splitSteps rest
    else
      match splitSteps rest with
      | [] => [[c]]
      | step :: others => (c :: step) :: others

/-- The steps of a path that go somewhere. -/
def steps (path : String) : List String :=
  ((splitSteps path.toList).filter fun step => !step.isEmpty && step ≠ ['.']).map String.ofList

/-- The path begins at the root. -/
def isAbsolute (path : String) : Bool := path.toList.head? = some '/'

/-- The name of the file that a path leads to. -/
def fileName? (path : String) : Option String :=
  match (steps path).getLast? with
  | some step => if step = ".." then none else some step
  | none => none

/-- A path to a name in a folder. -/
def join (folder name : String) : String :=
  if isAbsolute name || folder.isEmpty then name
  else if folder.toList.getLast? = some '/' then folder ++ name
  else folder ++ "/" ++ name

/-- The path ends in a separator, or in a single dot behind one, so it leads to a folder. -/
def asksForFolder (path : String) : Bool :=
  match path.toList.reverse with
  | '/' :: _ => true
  | '.' :: '/' :: _ => true
  | _ => false

/-! ### Following a path -/

/-- What a name stands for. -/
inductive Entry where
  | file (content : ByteArray) (executable : Bool)
  /-- A file whose content cannot be read. -/
  | locked
  | link (target : String)
  | folder
  /-- A folder whose names cannot be listed; a path may still lead through it. -/
  | sealed
  deriving Inhabited

/-- The entry is a file, whether or not it can be read. -/
def Entry.isFile : Entry → Bool
  | .file .. | .locked => true
  | _ => false

/-- The entry is a folder, whether or not it can be listed. -/
def Entry.isFolder : Entry → Bool
  | .folder | .sealed => true
  | _ => false

/-- Why a path cannot be used. -/
inductive Failure where
  | notFound
  | notFolder
  | isFolder
  | tooManyLinks
  | nameTooLong
  | denied
  | notProgram
  | nulByte
  | notText
  deriving DecidableEq, Repr, Inhabited

/-- The words of a failure. -/
def Failure.words : Failure → String
  | notFound => "No such file or directory"
  | notFolder => "Not a directory"
  | isFolder => "Is a directory"
  | tooManyLinks => "Too many levels of symbolic links"
  | nameTooLong => "File name too long"
  | denied => "Permission denied"
  | notProgram => "Exec format error"
  | nulByte => "file name contained an unexpected NUL byte"
  | notText => "stream did not contain valid UTF-8"

/-- The number that the operating system gives to a failure. -/
def Failure.number? : Failure → Option Nat
  | notFound => some 2
  | notProgram => some 8
  | denied => some 13
  | notFolder => some 20
  | isFolder => some 21
  | nameTooLong => some 36
  | tooManyLinks => some 40
  | nulByte | notText => none

/-- A failure in words, with its number if it has one. -/
def Failure.message (failure : Failure) : String :=
  failure.words ++ match failure.number? with
    | some number => " (os error " ++ toString number ++ ")"
    | none => ""

/-- Files by their full paths, and the folder in which relative paths begin. -/
structure Tree where
  /-- The entries by the steps that lead to them from the root; the root itself has none. -/
  entries : List (List String × Entry)
  /-- The steps to the working folder. -/
  working : List String
  deriving Inhabited

namespace Tree

/-- The entry at the end of steps from the root, without following links. -/
def entry? (tree : Tree) (steps : List String) : Option Entry :=
  if steps.isEmpty then some .folder else tree.entries.lookup steps

/-- How many links are followed on one path. -/
def linkLimit : Nat := 40

/-- The longest name in a folder, in bytes. -/
def longestName : Nat := 255

/-- Follow steps from a folder. A final link is followed only if asked for; the fuel bounds links
and steps together. -/
def follow (tree : Tree) (final : Bool) (links : Nat) (here : List String) :
    (fuel : Nat) → List String → Except Failure (List String × Entry)
  | 0, _ => .error .tooManyLinks
  | _ + 1, [] =>
    match tree.entry? here with
    | some entry => .ok (here, entry)
    | none => .error .notFound
  | fuel + 1, step :: rest =>
    if step = ".." then follow tree final links here.dropLast fuel rest
    else if longestName < step.utf8ByteSize then .error .nameTooLong
    else
      let there := here ++ [step]
      match tree.entry? there with
      | none => .error .notFound
      | some (.link target) =>
        if rest.isEmpty && !final then .ok (there, .link target)
        else if linkLimit ≤ links then .error .tooManyLinks
        else
          let start := if isAbsolute target then [] else here
          follow tree final (links + 1) start fuel (steps target ++ rest)
      | some (.file content executable) =>
        if rest.isEmpty then .ok (there, .file content executable) else .error .notFolder
      | some .locked => if rest.isEmpty then .ok (there, .locked) else .error .notFolder
      | some .folder | some .sealed => follow tree final links there fuel rest

/-- What a path leads to. -/
def resolve (tree : Tree) (path : String) : Except Failure (List String × Entry) := do
  if path.isEmpty then .error .notFound
  else if path.toList.contains (Char.ofNat 0) then .error .nulByte
  else if 4096 ≤ path.utf8ByteSize then .error .nameTooLong
  else
    let start := if isAbsolute path then [] else tree.working
    let most := path.length + 64 * (tree.entries.length + 1) * linkLimit
    let found ← tree.follow true 0 start most (steps path)
    if found.2.isFile && asksForFolder path then .error .notFolder else return found

/-- The content of a file. -/
def readBytes (tree : Tree) (path : String) : Except Failure ByteArray := do
  match ← tree.resolve path with
  | (_, .file content _) => return content
  | (_, .locked) => .error .denied
  | _ => .error .isFolder

/-- The text of a file. -/
def readText (tree : Tree) (path : String) : Except Failure String := do
  match String.fromUTF8? (← tree.readBytes path) with
  | some text => return text
  | none => .error .notText

/-- A path leads to a file. -/
def isFile (tree : Tree) (path : String) : Bool :=
  match tree.resolve path with
  | .ok found => found.2.isFile
  | .error _ => false

/-- A path leads to a folder. -/
def isFolder (tree : Tree) (path : String) : Bool :=
  match tree.resolve path with
  | .ok found => found.2.isFolder
  | .error _ => false

/-- The names in a folder with what they stand for. -/
def namesIn (tree : Tree) (folder : List String) : List (String × Entry) :=
  tree.entries.filterMap fun (steps, entry) =>
    match steps.getLast? with
    | some name => if steps.dropLast = folder then some (name, entry) else none
    | none => none

end Tree

/-! ### Changes -/

namespace Tree

/-- Put an entry at the end of steps, in place of what is there. -/
def set (tree : Tree) (steps : List String) (entry : Entry) : Tree :=
  { tree with entries := (tree.entries.filter fun known => known.1 ≠ steps) ++ [(steps, entry)] }

/-- Leave out what lies at the end of steps and beneath. -/
def erase (tree : Tree) (steps : List String) : Tree :=
  { tree with entries := tree.entries.filter fun known => !steps.isPrefixOf known.1 }

/-- The steps to a name that a path would give to something new. -/
def place (tree : Tree) (path : String) : Except Failure (List String) := do
  match (steps path).getLast? with
  | none => .error .isFolder
  | some name =>
    let start := if isAbsolute path then [] else tree.working
    let parents := (steps path).dropLast
    let most := path.length + 64 * (tree.entries.length + 1) * linkLimit
    match ← tree.follow true 0 start most parents with
    | (parent, .folder) | (parent, .sealed) => return parent ++ [name]
    | _ => .error .notFolder

/-- Write a file. -/
def write (tree : Tree) (path : String) (content : ByteArray) : Except Failure Tree :=
  match tree.resolve path with
  | .ok (steps, .file _ executable) => .ok (tree.set steps (.file content executable))
  | .ok (_, .locked) => .error .denied
  | .ok _ => .error .isFolder
  | .error .notFound => do return tree.set (← tree.place path) (.file content false)
  | .error failure => .error failure

end Tree

end Marksheet.Files
