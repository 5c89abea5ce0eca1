import Marksheet.Shell.Utility.Printing

/-!
# Utilities that look at files and change them
-/

namespace Marksheet.Shell

open Files (Entry Failure Tree)

/-- The last step of a path, without an ending. -/
def baseName : Utility := fun call =>
  match call.flags.2 with
  | path :: endings =>
    let name := (Files.steps path).getLast?.getD (if Files.isAbsolute path then "/" else path)
    let ending := endings.headD ""
    let name := if ending ≠ "" && name ≠ ending && name.endsWith ending then
        String.ofList (name.toList.take (name.length - ending.length)) else name
    call.succeed (name ++ "\n").toUTF8
  | [] => call.complain "missing operand" 1

/-- The names that a listing shows. -/
def shownNames (flags : List Char) (names : List String) : List String :=
  let names := names.mergeSort fun a b => a ≤ b
  if flags.contains 'a' then "." :: ".." :: names
  else if flags.contains 'A' then names
  else names.filter fun name => name.toList.head? ≠ some '.'

/-- List the names in folders. -/
def list : Utility := fun call =>
  let (flags, paths) := call.flags
  let paths := if paths.isEmpty then ["."] else paths
  paths.foldl (fun reply path =>
    let text (names : List String) : ByteArray := (String.join (names.map (· ++ "\n"))).toUTF8
    match call.files.resolve path with
    | .ok (steps, .folder) =>
      let names := (call.files.namesIn steps).map (·.1)
      let title := if 1 < paths.length then (path ++ ":\n").toUTF8 else .empty
      { reply with output := reply.output ++ title ++ text (shownNames flags names) }
    | .ok (_, .sealed) =>
      { reply with
        errors := reply.errors ++
          ("ls: cannot open directory '" ++ path ++ "': " ++ Failure.denied.words ++ "\n").toUTF8
        status := 2 }
    | .ok _ => { reply with output := reply.output ++ text [path] }
    | .error failure =>
      { reply with
        errors := reply.errors ++
          ("ls: cannot access '" ++ path ++ "': " ++ failure.words ++ "\n").toUTF8
        status := 2 })
    (call.succeed .empty)

/-- Change the files by each of some paths; a path that fails is complained of. -/
def eachPath (call : Call) (paths : List String) (step : Tree → String → Except String Tree) :
    Reply :=
  paths.foldl (fun reply path =>
    match step reply.files path with
    | .ok files => { reply with files := files }
    | .error message =>
      { reply with
        errors := reply.errors ++ (call.name ++ ": " ++ message ++ "\n").toUTF8
        status := 1 })
    (call.succeed .empty)

/-- A path that is free for a new entry. -/
def freePlace (tree : Tree) (path : String) : Except String (List String) :=
  match tree.place path with
  | .error failure => .error failure.words
  | .ok steps =>
    if (tree.entry? steps).isSome then .error "File exists" else .ok steps

/-- Make folders. -/
def makeFolders : Utility := fun call =>
  let (flags, paths) := call.flags
  eachPath call paths fun tree path =>
    if flags.contains 'p' && tree.isFolder path then .ok tree
    else
      match freePlace tree path with
      | .ok steps => .ok (tree.set steps .folder)
      | .error words => .error ("cannot create directory '" ++ path ++ "': " ++ words)

/-- Remove files, and folders if asked to. -/
def remove : Utility := fun call =>
  let (flags, paths) := call.flags
  let whole := flags.contains 'r' || flags.contains 'R'
  eachPath call paths fun tree path =>
    let complaint (words : String) : Except String Tree :=
      .error ("cannot remove '" ++ path ++ "': " ++ words)
    match tree.place path with
    | .error failure => complaint failure.words
    | .ok steps =>
      match tree.entry? steps with
      | none => if flags.contains 'f' then .ok tree else complaint "No such file or directory"
      | some .folder | some .sealed =>
        if whole then .ok (tree.erase steps) else complaint "Is a directory"
      | some _ => .ok (tree.erase steps)

/-- Make files that are not there. -/
def touch : Utility := fun call =>
  eachPath call call.flags.2 fun tree path =>
    match tree.resolve path with
    | .ok _ => .ok tree
    | .error _ =>
      match tree.write path .empty with
      | .ok tree => .ok tree
      | .error failure => .error ("cannot touch '" ++ path ++ "': " ++ failure.words)

/-- The path under which something arrives: in a folder it keeps its name. -/
def arrival (tree : Tree) (source target : String) : String :=
  if tree.isFolder target then Files.join target ((Files.fileName? source).getD source) else target

/-- Copy a file. -/
def copy : Utility := fun call =>
  match call.flags.2 with
  | [source, target] =>
    match call.files.readBytes source with
    | .error failure => call.complain ("cannot stat '" ++ source ++ "': " ++ failure.words) 1
    | .ok content =>
      let target := arrival call.files source target
      match call.files.write target content with
      | .ok files => call.change files
      | .error failure =>
        call.complain ("cannot create regular file '" ++ target ++ "': " ++ failure.words) 1
  | _ => call.complain "missing file operand" 1

/-- Move a file. -/
def move : Utility := fun call =>
  match call.flags.2 with
  | [source, target] =>
    let found := do
      let steps ← call.files.place source
      let goal ← call.files.place (arrival call.files source target)
      match call.files.entry? steps with
      | some entry => return (call.files.erase steps).set goal entry
      | none => .error Failure.notFound
    match found with
    | .ok files => call.change files
    | .error failure => call.complain ("cannot stat '" ++ source ++ "': " ++ failure.words) 1
  | _ => call.complain "missing file operand" 1

/-- Link a name to a path, or to the file itself. -/
def link : Utility := fun call =>
  let (flags, paths) := call.flags
  match paths with
  | [source, target] =>
    let target := arrival call.files source target
    let tree := match flags.contains 'f', call.files.place target with
      | true, .ok steps => call.files.erase steps
      | _, _ => call.files
    let complaint (words : String) : Reply :=
      call.complain ("failed to create symbolic link '" ++ target ++ "': " ++ words) 1
    match freePlace tree target with
    | .error words => complaint words
    | .ok steps =>
      if flags.contains 's' then call.change (tree.set steps (.link source))
      else
        match tree.readBytes source with
        | .ok content => call.change (tree.set steps (.file content false))
        | .error failure => complaint failure.words
  | _ => call.complain "missing file operand" 1

/-- Files become programs, or no longer are. -/
def changeMode : Utility := fun call =>
  match call.arguments with
  | mode :: paths =>
    let runs := mode.toList.contains 'x' && !mode.toList.contains '-' || mode.toList.any fun c =>
      ['1', '3', '5', '7'].contains c
    eachPath call paths fun tree path =>
      match tree.resolve path with
      | .ok (steps, .file content _) => .ok (tree.set steps (.file content runs))
      | .ok _ => .ok tree
      | .error failure => .error ("cannot access '" ++ path ++ "': " ++ failure.words)
  | [] => call.complain "missing operand" 1

/-! ### Conditions -/

/-- A condition on one operand. -/
def unaryTest (tree : Tree) (operator operand : String) : Bool :=
  if operator = "-n" then operand ≠ ""
  else if operator = "-z" then operand = ""
  else if operator = "-f" then tree.isFile operand
  else if operator = "-d" then tree.isFolder operand
  else if operator = "-e" then (tree.resolve operand).isOk
  else if operator = "-r" || operator = "-w" then
    match tree.resolve operand with
    | .ok (_, .locked) => false
    | .ok (_, .sealed) => operator = "-w"
    | found => found.isOk
  else if operator = "-s" then
    match tree.resolve operand with
    | .ok (_, .file content _) => content.size ≠ 0
    | .ok _ => true
    | .error _ => false
  else if operator = "-x" then
    match tree.resolve operand with
    | .ok (_, .file _ executable) => executable
    | .ok (_, .locked) => false
    | .ok _ => true
    | .error _ => false
  else false

/-- A condition on two operands. -/
def binaryTest (left operator right : String) : Bool :=
  if operator = "=" || operator = "==" then left = right
  else if operator = "!=" then left ≠ right
  else
    let first := numeral left
    let second := numeral right
    if operator = "-eq" then first = second
    else if operator = "-ne" then first ≠ second
    else if operator = "-lt" then first < second
    else if operator = "-le" then first ≤ second
    else if operator = "-gt" then second < first
    else if operator = "-ge" then second ≤ first
    else false

/-- A condition. -/
def holds (tree : Tree) : List String → Bool
  | [] => false
  | ["!"] => true
  | "!" :: rest => !holds tree rest
  | [text] => text ≠ ""
  | [operator, operand] => unaryTest tree operator operand
  | [left, operator, right] => binaryTest left operator right
  | _ => false

/-- Succeed if a condition holds. -/
def test : Utility := fun call =>
  let arguments := if call.name = "[" then call.arguments.dropLast else call.arguments
  call.quiet (if holds call.files arguments then 0 else 1)

end Marksheet.Shell
