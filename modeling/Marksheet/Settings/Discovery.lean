import Marksheet.Files.Tree
import Marksheet.Settings.Reading

/-!
# Finding settings

Settings come from a file that is named, or from the first of two files in a
folder that exists. Settings that are wrong are never passed over, and only
valid ones are given out.
-/

namespace Marksheet.Settings

/-- Why there are no settings. -/
inductive LoadFailure where
  | unread (path : String) (failure : Files.Failure)
  | unreadable (path : String) (reason : Unreadable)
  | invalid (reason : Invalid)
  deriving DecidableEq, Repr

/-- A failure in words. -/
def LoadFailure.message : LoadFailure → String
  | unread path failure => "failed to read " ++ path ++ ": " ++ failure.message
  | unreadable path reason => "invalid YAML in " ++ path ++ ": " ++ reason.message
  | invalid reason => "invalid configuration: " ++ reason.message

/-- Settings that have been checked. -/
def check (settings : Settings) : Except LoadFailure Settings :=
  match settings.invalid? with
  | none => .ok settings
  | some reason => .error (.invalid reason)

/-- The settings in a file. -/
def load (tree : Files.Tree) (path : String) : Except LoadFailure Settings :=
  match tree.readText path with
  | .error failure => .error (.unread path failure)
  | .ok text =>
    match ofText text with
    | .error reason => .error (.unreadable path reason)
    | .ok settings => check settings

/-- The names under which settings are sought. -/
def fileNames : List String := ["gradebot.yaml", ".gradebot.yaml"]

/-- The settings of a folder; the standard ones if none of the files exists. -/
def discover (tree : Files.Tree) (folder : String) : Except LoadFailure Settings :=
  match (fileNames.map (Files.join folder)).find? tree.isFile with
  | some path => load tree path
  | none => .ok standard

end Marksheet.Settings
