import Marksheet.CommandLine.Session
import Marksheet.Shell.Behaviour

/-!
# The program

The files beneath the working folder, and those that the arguments name from the
root, are read once; the session is a function of them and of the arguments. What
is there but cannot be read is noted as such.
-/

namespace Marksheet

open Files (Entry)

/-- How many levels of folders beneath the working folder are read. -/
def folderLevels : Nat := 3

/-- A file that begins like a script can be run. -/
def fileEntry (content : ByteArray) : Entry :=
  .file content (content.extract 0 2 == "#!".toUTF8)

/-- The entries at a listed name and beneath it. -/
def gather : (levels : Nat) → List String → IO.FS.DirEntry → IO (List (List String × Entry))
  | levels, folder, listed => do
    let steps := folder ++ [listed.fileName]
    if ← listed.path.isDir then
      match levels with
      | 0 => return [(steps, .folder)]
      | levels + 1 =>
        try
          let inside ← (← listed.path.readDir).toList.mapM (gather levels steps)
          return (steps, .folder) :: inside.flatten
        catch _ => return [(steps, .sealed)]
    else
      try return [(steps, fileEntry (← IO.FS.readBinFile listed.path))]
      catch _ => return if ← listed.path.pathExists then [(steps, .locked)] else []

/-- The entry of a path from the root, if an argument is one that can be read. -/
def gatherNamed (argument : String) : IO (List (List String × Entry)) :=
  if Files.isAbsolute argument then do
    try return [(Files.steps argument, fileEntry (← IO.FS.readBinFile argument))]
    catch _ => return []
  else return []

/-- The folders on the way to the end of steps. -/
def waysTo (steps : List String) : List (List String × Entry) :=
  (inits steps).map fun way => (way, .folder)
where
  /-- The beginnings of steps that hold at least one. -/
  inits : List String → List (List String)
    | [] => []
    | step :: rest => [step] :: (inits rest).map (step :: ·)

/-- The files of a session. -/
def readFiles (arguments : List String) : IO Files.Tree := do
  let here ← IO.currentDir
  let working := Files.steps here.toString
  let inside ← (← here.readDir).toList.mapM (gather folderLevels working)
  let named ← arguments.mapM gatherNamed
  let ways := (named.flatten.map fun found => waysTo found.1.dropLast).flatten
  return ⟨named.flatten ++ inside.flatten ++ waysTo working ++ ways, working⟩

end Marksheet

open Marksheet

/-- Run a session on the arguments; colors show if the environment forces them. -/
def main (arguments : List String) : IO UInt32 := do
  let files ← readFiles arguments
  let forced ← IO.getEnv "CLICOLOR_FORCE"
  let world := ⟨files, Shell.behaviour, forced.any (· != "0")⟩
  let done := CommandLine.session world arguments
  IO.print done.output
  IO.eprint done.errors
  return done.status.toUInt32
