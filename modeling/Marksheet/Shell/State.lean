import Marksheet.Files.Tree
import Marksheet.Run.Process
import Marksheet.Shell.Syntax

/-!
# The state of a shell

Streams are buffers: number zero is the output of the whole script, number one
its error stream, number two its input, and each pipe and each text on the spot
gets a further one. What is written carries the time at which it was written.
-/

namespace Marksheet.Shell

open Run (Start Finish Ending Stream)

/-- Where something that is written goes. -/
inductive Sink where
  | buffer (number : Nat)
  | file (steps : List String)
  | nowhere
  deriving DecidableEq, Repr, Inhabited

/-- The streams of a command. -/
structure Ports where
  /-- The buffer that is read. -/
  input : Nat
  output : Sink
  errors : Sink
  /-- The command has taken the place of the shell. -/
  direct : Bool
  deriving DecidableEq, Repr, Inhabited

/-- The streams of the whole script. -/
def Ports.whole : Ports := ⟨2, .buffer 0, .buffer 1, false⟩

/-- Bytes and the time at which they were written. -/
structure Chunk where
  time : Nat
  bytes : ByteArray
  deriving Inhabited

/-- The state of a shell. -/
structure State where
  files : Files.Tree
  /-- The variables and their values, the last set first. -/
  bindings : List (String × String)
  /-- The name of the script. -/
  name : String
  arguments : List String
  /-- The status of the last command. -/
  status : Nat
  /-- The buffers by their numbers, each with its last chunk first. -/
  buffers : Array (List Chunk)
  /-- The time, in milliseconds from the start. -/
  clock : Nat
  deadline : Nat
  /-- Until when other processes hold the output. -/
  outputHeld : Nat
  /-- Until when other processes hold the error stream. -/
  errorsHeld : Nat
  deriving Inhabited

/-- How to go on behind a command. -/
inductive Flow where
  | next
  | exit
  | killed (signal : Nat)
  /-- The deadline has passed. -/
  | expired
  deriving DecidableEq, Repr, Inhabited

namespace State

/-- The state at the start of a script. -/
def ofStart (start : Start) (bindings : List (String × String)) : State :=
  ⟨start.files, bindings, start.program, start.arguments, 0, #[[], [], [⟨0, start.input⟩]], 0,
    start.deadline, 0, 0⟩

/-- Set the status. -/
def withStatus (state : State) (status : Nat) : State := { state with status := status }

/-- Write bytes. -/
def emit (state : State) (sink : Sink) (bytes : ByteArray) : State :=
  if bytes.isEmpty then state
  else
    match sink with
    | .buffer number =>
      { state with
        buffers := state.buffers.modify number fun chunks => ⟨state.clock, bytes⟩ :: chunks }
    | .file steps =>
      match state.files.entry? steps with
      | some (.file content executable) =>
        { state with files := state.files.set steps (.file (content ++ bytes) executable) }
      | _ => state
    | .nowhere => state

/-- All that is in a buffer. -/
def content (state : State) (number : Nat) : ByteArray :=
  (state.buffers.getD number []).reverse.foldl (fun bytes chunk => bytes ++ chunk.bytes) .empty

/-- Leave nothing in a buffer. -/
def drain (state : State) (number : Nat) : State :=
  { state with buffers := state.buffers.modify number fun _ => [] }

/-- A new buffer. -/
def newBuffer (state : State) (bytes : ByteArray) : Nat × State :=
  (state.buffers.size, { state with buffers := state.buffers.push [⟨state.clock, bytes⟩] })

/-- Let a process hold its streams until a time. -/
def hold (state : State) (ports : Ports) (time : Nat) : State :=
  let holds (number : Nat) : Bool := ports.output = .buffer number || ports.errors = .buffer number
  { state with
    outputHeld := if holds 0 then max state.outputHeld time else state.outputHeld
    errorsHeld := if holds 1 then max state.errorsHeld time else state.errorsHeld }

/-- Let time pass. The process that waits holds its streams to the end of the time, unless it has
taken the place of the shell and is killed with it. -/
def sleep (state : State) (ports : Ports) (milliseconds : Nat) : Flow × State :=
  let wakes := state.clock + milliseconds
  if state.deadline ≤ wakes then
    let held := if ports.direct then state else state.hold ports wakes
    (.expired, { held with clock := state.deadline })
  else (.next, { state with clock := wakes, status := 0 })

/-- A stream of the script by the number of its buffer. -/
def stream (state : State) (number held : Nat) : Stream :=
  let chunks := (state.buffers.getD number []).reverse.mergeSort fun a b => a.time ≤ b.time
  ⟨chunks.map (·.bytes), some (max state.clock held)⟩

/-- What the script leaves behind, by how it came to its end. -/
def finish (state : State) (flow : Flow) : Finish where
  output := state.stream 0 state.outputHeld
  errors := state.stream 1 state.errorsHeld
  ending := match flow with
    | .expired => none
    | .killed signal => some (.killed signal)
    | _ => some (.exited (state.status % 256))
  ended := state.clock
  files := state.files

end State

end Marksheet.Shell
