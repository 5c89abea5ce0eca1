import Marksheet.CommandLine.Arguments
import Marksheet.Files.Batch
import Marksheet.Grading.Grader
import Marksheet.Report.Document
import Marksheet.Report.Pretty
import Marksheet.Settings.Discovery

/-!
# A session

A session reads its arguments and settings, selects files, grades each of them
and writes the reports. It fails only before the first file is graded, and then
it writes no report; what the submissions hold never makes it fail.
-/

namespace Marksheet.CommandLine

open Grading (Grader)

/-- Where a session takes place. -/
structure World where
  files : Files.Tree
  /-- What programs do. -/
  behaviour : Run.Behaviour
  /-- The output shows colors unless they are refused. -/
  colors : Bool

/-- What a session writes, and its status. -/
structure Transcript where
  status : Nat
  output : String
  errors : String
  deriving DecidableEq, Repr, Inhabited

/-- What keeps a session from grading. -/
inductive Mishap where
  | settings (failure : Settings.LoadFailure)
  | notFolder (path : String)
  | batch (failure : Files.BatchFailure)
  deriving DecidableEq, Repr

/-- A mishap in words. -/
def Mishap.message : Mishap → String
  | settings failure => failure.message
  | notFolder path => "not a directory: " ++ path
  | batch failure => failure.message

/-- The settings of a session: those that are named, or those found in the working folder. -/
def settingsOf (world : World) (options : Options) : Except Mishap Settings :=
  (match options.config with
    | some path => Settings.load world.files path
    | none => Settings.discover world.files ".").mapError .settings

/-- The files that a session grades. -/
def selection (world : World) (options : Options) (settings : Settings) :
    Except Mishap (List String) :=
  if options.all then
    if world.files.isFolder options.folder then
      (Files.collectBatch world.files options.folder settings).mapError .batch
    else .error (.notFolder options.folder)
  else .ok [options.file.getD settings.defaultFile]

/-- The reports on files in the way that is asked for; several files to read end with the totals. -/
def written (format : Format) (styled : Bool) (reports : List Report) : String :=
  match format with
  | .json => Report.document reports
  | .pretty =>
    String.join (reports.map (Report.pretty styled)) ++
      if 1 < reports.length then Report.prettyTotals styled (.ofReports reports) else ""

/-- The grader of a session. -/
def World.grader (world : World) (settings : Settings) : Grader :=
  ⟨settings, Rubric.standard, world.behaviour, world.files⟩

/-- The output of a session shows colors. -/
def World.styled (world : World) (options : Options) : Bool := world.colors && !options.plain

/-- What a session writes about selected files. -/
def graded (world : World) (options : Options) (settings : Settings) (paths : List String) :
    String :=
  written options.format (world.styled options) (paths.map (world.grader settings).gradeFile)

/-- What is written about a batch without any file. -/
def noFiles (settings : Settings) : String := "No " ++ settings.batchGlob ++ " files found.\n"

/-- A session with options. -/
def sessionWith (world : World) (options : Options) : Except Mishap String := do
  let settings ← settingsOf world options
  let paths ← selection world options settings
  if options.all && paths.isEmpty then return noFiles settings
  else return graded world options settings paths

/-- The name and the version of the program. -/
def versionLine : String := "gradebot " ++ Report.version ++ "\n"

/-- How to use the program. -/
def usage : String :=
  "Usage: gradebot [OPTIONS] [FILE]\n\nOptions:\n" ++
  "      --all              Grade every file in the directory matching the batch glob\n" ++
  "      --dir <DIR>        Directory searched by --all [default: .]\n" ++
  "  -c, --config <CONFIG>  Path to config YAML file (default: auto-discover)\n" ++
  "  -f, --format <FORMAT>  Output format [default: pretty] [possible values: pretty, json]\n" ++
  "      --no-color         Disable colored output\n" ++
  "  -v, --verbose          Log pipeline steps to stderr\n" ++
  "  -h, --help             Print help\n" ++
  "  -V, --version          Print version\n"

/-- What is written when there are no options. -/
def refused : Refusal → Transcript
  | .help => ⟨0, usage, ""⟩
  | .version => ⟨0, versionLine, ""⟩
  | _ => ⟨2, "", "error: the arguments cannot be used\n\n" ++ usage⟩

/-- A session. -/
def session (world : World) (arguments : List String) : Transcript :=
  match Options.ofArguments arguments with
  | .error refusal => refused refusal
  | .ok options =>
    match sessionWith world options with
    | .ok output => ⟨0, output, ""⟩
    | .error mishap => ⟨2, "", "Error: " ++ mishap.message ++ "\n"⟩

end Marksheet.CommandLine
