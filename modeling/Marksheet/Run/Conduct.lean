import Marksheet.Decimal.Fixed
import Marksheet.Run.Note
import Marksheet.Run.Outcome
import Marksheet.Run.Process
import Marksheet.Run.Request
import Marksheet.Run.Supervisor
import Marksheet.Text.Blank
import Marksheet.Text.Decoding

/-!
# Conducting a run

A submission is put alone into a new folder, and the interpreter is started
there on the supervisor. The outcome is judged by what is left behind: a run
that was killed at its deadline has failed whatever it says; else the note
decides; without a note, all that was written to the error stream counts, and
then how the process ended. What keeps a run from taking place is a fault too.
-/

namespace Marksheet.Run

/-- The name of the note in the folder of a run. -/
def noteName : String := ".gradebot-run.json"

/-- The name of a submission in the folder of its run. -/
def scriptName (fileName : String) : String :=
  match Files.fileName? fileName with
  | some name => if name = noteName then "submission.py" else name
  | none => "submission.py"

/-! ### The interpreter -/

/-- The folders in which programs are sought by name. -/
def programFolders : List String :=
  ["/usr/local/sbin", "/usr/local/bin", "/usr/sbin", "/usr/bin", "/sbin", "/bin"]

/-- A path leads to a file that can be run. -/
def isProgram (tree : Files.Tree) (path : String) : Bool :=
  match tree.resolve path with
  | .ok (_, .file _ executable) => executable
  | _ => false

/-- How many parts a path has: its steps, and the root or the dot in which it begins. -/
def partCount (path : String) : Nat :=
  let dotted := (Files.splitSteps path.toList).head? = some ['.']
  (Files.steps path).length + if Files.isAbsolute path || dotted then 1 else 0

/-- The path of a folder from the root. -/
def rootPath (steps : List String) : String := "/" ++ "/".intercalate steps

/-- The program that a name or a path stands for. -/
def locate (tree : Files.Tree) (python : String) : Option String :=
  let candidates :=
    if 1 < partCount python then [Files.join (rootPath tree.working) python]
    else programFolders.map fun folder => Files.join folder python
  candidates.find? (isProgram tree)

/-! ### Obstacles -/

/-- What keeps a run from taking place. -/
inductive Obstacle where
  | noInterpreter (python : String)
  | unwritten (script : String) (failure : Files.Failure)
  /-- The program could not be started, or nothing could be collected of it. -/
  | notStarted (program : String) (loss : Loss)
  deriving DecidableEq, Repr, Inhabited

/-- An obstacle in words. -/
def Obstacle.message : Obstacle → String
  | noInterpreter python =>
    "cannot find Python interpreter '" ++ python ++ "': cannot find binary path"
  | unwritten script failure => "failed to write " ++ script ++ ": " ++ failure.message
  | notStarted program loss => loss.message program

/-- The outcome of a run that did not take place. -/
def Outcome.ofObstacle (obstacle : Obstacle) : Outcome :=
  ⟨"", some ("InternalError: the grader could not run this file (" ++ obstacle.message ++ ")"), 0⟩

/-! ### The outcome -/

/-- What is said of a run that was killed at its deadline. -/
def deadlineFault (milliseconds : Nat) : String :=
  "TimeoutError: execution exceeded " ++ Decimal.inTenths (Decimal.secondsOf milliseconds) ++
    " seconds (possible infinite loop)"

/-- The note in a folder, if there is one that can be read. -/
def noteIn? (files : Files.Tree) (path : String) : Option Note :=
  match files.readText path with
  | .ok text => Note.ofText? text
  | .error _ => none

/-- The fault of a run without a note. -/
def unnotedFault (errors : String) (ending : Ending) : Option String :=
  if !(Text.trimEnd errors).isEmpty then some (Text.trimEnd errors)
  else if ending = .exited 0 then none
  else some ("process exited with " ++ ending.words)

/-- The outcome of a process that has been started, given the path of its note. -/
def Outcome.ofFinish (plan : Plan) (notePath : String) (finish : Finish) : Outcome :=
  let output := Text.ofBytes (finish.output.captured finish.ended)
  match finish.ending with
  | none => ⟨output, some (deadlineFault plan.milliseconds), 0⟩
  | some ending =>
    match noteIn? finish.files notePath with
    | some note => ⟨output, note.fault, note.inputRequests⟩
    | none =>
      ⟨output, unnotedFault (Text.ofBytes (finish.errors.captured finish.ended)) ending, 0⟩

/-- The folder of a run. -/
def runFolder : List String := ["tmp", "run"]

/-- The files at the start of a run: a new folder with the submission alone. -/
def furnish (tree : Files.Tree) (script source : String) : Except Files.Failure Files.Tree :=
  let fresh := (tree.erase runFolder).set runFolder .folder
  { fresh with working := runFolder }.write script source.toUTF8

/-- Start the process of a run. -/
def start (behaviour : Behaviour) (tree : Files.Tree) (plan : Plan) (source fileName : String)
    (script : Script) : Except Obstacle Finish := do
  match locate tree plan.python with
  | none => .error (.noInterpreter plan.python)
  | some program =>
    let name := scriptName fileName
    match furnish tree name source with
    | .error failure => .error (.unwritten name failure)
    | .ok files =>
      let arguments := ["-c", supervisor, name, Files.join (rootPath runFolder) noteName]
      match behaviour ⟨program, arguments, (request plan script).toUTF8, files,
          plan.milliseconds⟩ with
      | .error loss => .error (.notStarted program loss)
      | .ok finish => .ok finish

/-- The outcome of running a submission. -/
def conduct (behaviour : Behaviour) (tree : Files.Tree) (plan : Plan) (source fileName : String)
    (script : Script) : Outcome :=
  match start behaviour tree plan source fileName script with
  | .error obstacle => .ofObstacle obstacle
  | .ok finish => .ofFinish plan (Files.join (rootPath runFolder) noteName) finish

end Marksheet.Run
