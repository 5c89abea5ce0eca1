import Marksheet.Files.Tree
import Marksheet.Run.Capture

/-!
# Processes

A process is started on arguments, an input and a tree of files. `Behaviour`
says what programs do: which streams a process leaves behind, how it ends, and
what has become of the files. A process that does not end before its deadline is
killed then. A program may also fail to start, and what a process leaves behind
may be lost.
-/

namespace Marksheet.Run

/-- What a process is started with. -/
structure Start where
  /-- The path of the program. -/
  program : String
  arguments : List String
  input : ByteArray
  /-- The files; relative paths begin in the folder of the run. -/
  files : Files.Tree
  /-- How many milliseconds it may run. -/
  deadline : Nat
  deriving Inhabited

/-- How a process ended. -/
inductive Ending where
  | exited (code : Nat)
  | killed (signal : Nat)
  deriving DecidableEq, Repr, Inhabited

/-- What a process leaves behind. -/
structure Finish where
  output : Stream
  errors : Stream
  /-- How it ended; none if it was killed at its deadline. -/
  ending : Option Ending
  /-- When it ended, in milliseconds from the start. -/
  ended : Nat
  files : Files.Tree
  deriving Inhabited

/-- Why there is nothing left of a process. -/
inductive Loss where
  /-- There was nothing that could have waited for it. -/
  | unready (failure : Files.Failure)
  /-- It could not be started. -/
  | unstarted (failure : Files.Failure)
  /-- Its end could not be awaited. -/
  | unawaited (failure : Files.Failure)
  /-- It could not be killed at its deadline. -/
  | unkilled (failure : Files.Failure)
  /-- What it wrote could not be read. -/
  | unread (failure : Files.Failure)
  deriving DecidableEq, Repr, Inhabited

/-- A loss in words, given the path of the program. -/
def Loss.message (program : String) : Loss → String
  | unready failure => "failed to start async runtime: " ++ failure.message
  | unstarted failure => "failed to spawn " ++ program ++ ": " ++ failure.message
  | unawaited failure => "failed to wait on process: " ++ failure.message
  | unkilled failure => "failed to kill timed-out process: " ++ failure.message
  | unread failure => "failed to read child output: " ++ failure.message

/-- What programs do. -/
abbrev Behaviour := Start → Except Loss Finish

/-- The names of signals, from number one on. -/
def signalNames : List String :=
  ["HUP", "INT", "QUIT", "ILL", "TRAP", "ABRT", "BUS", "FPE", "KILL", "USR1", "SEGV", "USR2",
    "PIPE", "ALRM", "TERM", "STKFLT", "CHLD", "CONT", "STOP", "TSTP", "TTIN", "TTOU", "URG",
    "XCPU", "XFSZ", "VTALRM", "PROF", "WINCH", "POLL", "PWR", "SYS"]

/-- The name of a signal in parentheses, if it has one. -/
def signalWords (signal : Nat) : String :=
  if signal = 29 then " (SIGIO)"
  else
    match signalNames[signal - 1]? with
    | some name => if signal = 0 then "" else " (SIG" ++ name ++ ")"
    | none => ""

/-- An ending in words. -/
def Ending.words : Ending → String
  | exited code => "exit status: " ++ toString code
  | killed signal => "signal: " ++ toString signal ++ signalWords signal

end Marksheet.Run
