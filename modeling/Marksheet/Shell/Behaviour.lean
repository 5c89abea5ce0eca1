import Marksheet.Run.Process
import Marksheet.Shell.Evaluation
import Marksheet.Shell.Reader
import Marksheet.Text.Decoding

/-!
# Programs that are shell scripts

A program is a file that begins with the line that names a shell. Its behaviour
is that of the script; any other file cannot be started.
-/

namespace Marksheet.Shell

open Run (Start Finish)

/-- The variables that the environment of a run sets. -/
def environment : List (String × String) :=
  [("PYTHONIOENCODING", "utf-8"), ("PYTHONHASHSEED", "0"), ("PYTHONDONTWRITEBYTECODE", "1"),
    ("PYTHONUNBUFFERED", "1")]

/-- The names of shells. -/
def shellNames : List String := ["sh", "dash", "bash"]

/-- The name of the program that the first line of a script asks for. -/
def scriptShell? (script : String) : Option String :=
  match script.toList with
  | '#' :: '!' :: rest =>
    let line := rest.takeWhile (· ≠ '\n')
    let path := (line.dropWhile fun c => c = ' ' || c = '\t').takeWhile fun c =>
      c ≠ ' ' && c ≠ '\t'
    (Files.steps (String.ofList path)).getLast?
  | _ => none

/-- How many steps a script may take. -/
def stepLimit : Nat := 1000000

/-- Run a script that has been read. -/
def runScript (command : Command) (start : Start) : Finish :=
  let (flow, state) := run stepLimit Ports.whole command (State.ofStart start environment)
  state.finish flow

/-- What a script leaves behind that cannot be read. -/
def unreadScript (start : Start) : Finish :=
  ((State.ofStart start environment).complain Ports.whole "Syntax error" 2).finish .next

/-- What programs do. -/
def behaviour : Run.Behaviour := fun start => do
  let script := Text.ofBytes (← (start.files.readBytes start.program).mapError .unstarted)
  match scriptShell? script with
  | none => .error (.unstarted .notProgram)
  | some name =>
    if !shellNames.contains name then .error (.unstarted .notFound)
    else
      match parse? script with
      | some command => return runScript command start
      | none => return unreadScript start

end Marksheet.Shell
