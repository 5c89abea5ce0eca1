import Marksheet.Settings.Basic
import Marksheet.Text.Blank
import Marksheet.Text.Shown
import Marksheet.Wildcard.Basic

/-!
# Settings that a session can use

`Settings.invalid?` is the first thing that is wrong with settings, in a fixed
order; settings without any are valid. Their wildcard can then be read.
-/

namespace Marksheet

/-- What is wrong with settings. -/
inductive Settings.Invalid where
  | noDefaultFile
  | noLineLimit
  | noPromptMarker
  | noPython
  | noTimeout
  | badGlob (pattern : String) (fault : Wildcard.Fault)
  deriving DecidableEq, Repr

namespace Settings

/-- The message about invalid settings. -/
def Invalid.message : Invalid → String
  | noDefaultFile => "default_file must not be empty"
  | noLineLimit => "line_limit must be positive"
  | noPromptMarker => "prompt_marker must not be empty"
  | noPython => "python must not be empty"
  | noTimeout => "timeout_secs must be positive"
  | badGlob pattern fault =>
    "invalid batch_glob " ++ Text.shown pattern ++ ": " ++ fault.message pattern

/-- The first thing that is wrong. -/
def invalid? (settings : Settings) : Option Invalid :=
  if Text.blankText settings.defaultFile then some .noDefaultFile
  else if settings.lineLimit = 0 then some .noLineLimit
  else if settings.promptMarker.isEmpty then some .noPromptMarker
  else if Text.blankText settings.python then some .noPython
  else if settings.timeoutSecs = 0 then some .noTimeout
  else
    match Wildcard.parse settings.batchGlob with
    | .ok _ => none
    | .error fault => some (.badGlob settings.batchGlob fault)

/-- Nothing is wrong with the settings. -/
def Valid (settings : Settings) : Prop := settings.invalid? = none

instance (settings : Settings) : Decidable settings.Valid :=
  inferInstanceAs (Decidable (settings.invalid? = none))

end Settings

end Marksheet
