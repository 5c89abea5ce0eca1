import Marksheet.Features.Record
import Marksheet.Grammar.Program
import Marksheet.Report.Basic
import Marksheet.Rubric.Standard
import Marksheet.Run.Conduct

/-!
# Grading a submission

A grader has settings, the items of a rubric, and a world of files and programs.
A submission is read and, if some item asks for it, run; the checks of all items
make its report. Nothing of one submission is kept for the next one.
-/

namespace Marksheet.Grading

/-- What a grader works with. -/
structure Grader where
  settings : Settings
  items : List Rubric.Item
  /-- What programs do. -/
  behaviour : Run.Behaviour
  /-- The files, among them the interpreter. -/
  files : Files.Tree

/-- What reading a text tells of its structure. -/
def reading (source : String) : Rubric.Reading :=
  (Grammar.parse source).map Features.Record.ofModule

namespace Grader

/-- The outcome of a submission's run; if no item asks for it, it is not run. -/
def outcome (grader : Grader) (fileName source : String) : Run.Outcome :=
  if Rubric.needsRun grader.items then
    Run.conduct grader.behaviour grader.files (.ofSettings grader.settings) source fileName
      grader.settings.script
  else .idle

/-- A submission as the checks see it; without a text it is missing. -/
def submission (grader : Grader) (fileName : String) (source : Option String) :
    Rubric.Submission :=
  match source with
  | none => .missing
  | some source => .present source (reading source) (grader.outcome fileName source)

/-- The report on a text, or on a missing one. -/
def gradeSource (grader : Grader) (fileName : String) (source : Option String) : Report :=
  ⟨fileName, Rubric.evaluate grader.items grader.settings fileName
    (grader.submission fileName source)⟩

/-- The name under which a path is graded: its file name, or else the whole path. -/
def shownName (path : String) : String := (Files.fileName? path).getD path

/-- The text of a file; none if there is no such file or it holds no text. -/
def sourceOf (grader : Grader) (path : String) : Option String :=
  match grader.files.readText path with
  | .ok source => some source
  | .error _ => none

/-- The report on a file. -/
def gradeFile (grader : Grader) (path : String) : Report :=
  grader.gradeSource (shownName path) (grader.sourceOf path)

end Grader

end Marksheet.Grading
