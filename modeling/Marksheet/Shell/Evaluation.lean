import Marksheet.Shell.Expansion
import Marksheet.Shell.Utility.Filing
import Marksheet.Shell.Utility.Filter

/-!
# Running a shell script

A command changes the state and says how to go on. Utilities take no time; only
waiting does. A script that has not come to its end when the fuel is used up
counts as one that runs until its deadline.
-/

namespace Marksheet.Shell

/-- The utilities by their names. -/
def utility? (name : String) : Option Utility :=
  [("cat", cat), ("echo", echo), ("printf", printf), ("head", head), ("tail", tail),
    ("tr", translate), ("wc", count), ("ls", list), ("basename", baseName),
    ("mkdir", makeFolders), ("rm", remove), ("touch", touch), ("cp", copy), ("mv", move),
    ("ln", link), ("chmod", changeMode), ("test", test), ("[", test),
    ("true", fun call => call.quiet 0), (":", fun call => call.quiet 0),
    ("false", fun call => call.quiet 1)].lookup name

/-! ### Redirections -/

/-- Open a path for writing. -/
def openFile (state : State) (ports : Ports) (append : Bool) (path : String) :
    Except Files.Failure (Sink × State) := do
  if path = "/dev/null" then return (.nowhere, state)
  else if path = "/dev/stdout" then return (ports.output, state)
  else if path = "/dev/stderr" then return (ports.errors, state)
  else
    let old := match append, state.files.readBytes path with
      | true, .ok content => content
      | _, _ => .empty
    let files ← state.files.write path old
    let (steps, _) ← files.resolve path
    return (.file steps, { state with files := files })

/-- Set the sink of a descriptor. -/
def Ports.withSink (ports : Ports) (descriptor : Nat) (sink : Sink) : Ports :=
  if descriptor = 1 then { ports with output := sink }
  else if descriptor = 2 then { ports with errors := sink }
  else ports

/-- Redirect one stream; a path that cannot be used is a complaint. -/
def applyRedirect (state : State) (ports : Ports) : Redirect → Except String (Ports × State)
  | .read _ target =>
    let path := textOf state target
    match readFile state.files path deviceSupply with
    | .ok content =>
      let (number, state) := state.newBuffer content
      .ok ({ ports with input := number }, state)
    | .error failure => .error ("cannot open " ++ path ++ ": " ++ failure.words)
  | .write descriptor append target =>
    let path := textOf state target
    match openFile state ports append path with
    | .ok (sink, state) => .ok (ports.withSink descriptor sink, state)
    | .error failure => .error ("cannot create " ++ path ++ ": " ++ failure.words)
  | .copy descriptor source =>
    match textOf state source with
    | "1" => .ok (ports.withSink descriptor ports.output, state)
    | "2" => .ok (ports.withSink descriptor ports.errors, state)
    | "-" => .ok (ports.withSink descriptor .nowhere, state)
    | _ => .ok (ports, state)
  | .here _ content =>
    let (number, state) := state.newBuffer (textOf state content).toUTF8
    .ok ({ ports with input := number }, state)

/-- Redirect streams, one after the other. -/
def applyRedirects (state : State) (ports : Ports) :
    List Redirect → Except String (Ports × State)
  | [] => .ok (ports, state)
  | redirect :: rest => do
    let (ports, state) ← applyRedirect state ports redirect
    applyRedirects state ports rest

/-- Complain on the error stream. -/
def State.complain (state : State) (ports : Ports) (message : String) (status : Nat) : State :=
  (state.emit ports.errors (state.name ++ ": " ++ message ++ "\n").toUTF8).withStatus status

/-! ### Commands of the shell itself -/

/-- The signal that a name or a number stands for. -/
def signal? (text : String) : Option Nat :=
  match text.toNat? with
  | some number => some number
  | none =>
    let name := if text.startsWith "SIG" then String.ofList (text.toList.drop 3) else text
    (Run.signalNames.idxOf? name).map (· + 1)

/-- Signals that a process does not heed. -/
def passedOver : List Nat := [0, 17, 18, 23, 28]

/-- Signals that stop a process without ending it. -/
def stopping : List Nat := [19, 20, 21, 22]

/-- Send a signal to the shell itself. -/
def kill (state : State) (ports : Ports) (arguments : List String) : Flow × State :=
  let (name, targets) := match arguments with
    | "-s" :: name :: targets => (name, targets)
    | first :: targets =>
      if first.toList.head? = some '-' then (String.ofList (first.toList.drop 1), targets)
      else ("TERM", first :: targets)
    | [] => ("TERM", [])
  match signal? name with
  | none => (.next, state.complain ports ("invalid signal number or name: " ++ name) 2)
  | some signal =>
    if !targets.contains processNumber then (.next, state.complain ports "No such process" 1)
    else if passedOver.contains signal then (.next, state.withStatus 0)
    else if stopping.contains signal then (.expired, { state with clock := state.deadline })
    else (.killed signal, state)

/-- The milliseconds that an amount of seconds or another unit stands for. -/
def milliseconds? (text : String) : Option Nat :=
  let whole := text.toList.takeWhile Char.isDigit
  let rest := text.toList.drop whole.length
  let (fraction, rest) := match rest with
    | '.' :: behind =>
      let digits := behind.takeWhile Char.isDigit
      ((digits ++ ['0', '0', '0']).take 3, behind.drop digits.length)
    | rest => (['0', '0', '0'], rest)
  let amount := Decimal.digitsValue 10 (whole ++ fraction)
  match rest with
  | [] | ['s'] => some amount
  | ['m'] => some (60 * amount)
  | ['h'] => some (3600 * amount)
  | _ => none

/-- Assign values to variables. -/
def State.assign (state : State) (assignments : List (String × Word)) : State :=
  assignments.foldl (fun (state : State) (name, word) =>
    { state with bindings := (name, textOf state word) :: state.bindings }) state

/-- Run a utility. -/
def runUtility (state : State) (ports : Ports) (utility : Utility) (name : String)
    (arguments : List String) : State :=
  let reply := utility ⟨name, arguments, state.content ports.input, state.files⟩
  let state := if reply.consumed then state.drain ports.input else state
  ((({ state with files := reply.files }).emit ports.output reply.output).emit ports.errors
    reply.errors).withStatus reply.status

/-- Run one command by its fields. -/
def runFields (state : State) (ports : Ports) : (fuel : Nat) → List String → Flow × State
  | _, [] => (.next, state.withStatus 0)
  | 0, _ => (.next, state)
  | fuel + 1, name :: arguments =>
    match name, arguments with
    | "exit", [] => (.exit, state)
    | "exit", status :: _ => (.exit, state.withStatus (numeral status).toNat)
    | "kill", arguments => kill state ports arguments
    | "exec", [] => (.next, state.withStatus 0)
    | "exec", arguments =>
      match runFields state { ports with direct := true } fuel arguments with
      | (.next, state) => (.exit, state)
      | stopped => stopped
    | "shift", _ => (.next, { state with arguments := state.arguments.tail, status := 0 })
    | "wait", _ | "set", _ | "trap", _ | "umask", _ | "ulimit", _ => (.next, state.withStatus 0)
    | "export", arguments =>
      (.next, (state.assign (arguments.filterMap fun argument =>
        assignmentOf? argument)).withStatus 0)
    | "sleep", arguments =>
      match arguments.mapM milliseconds? with
      | some amounts => state.sleep ports amounts.sum
      | none => (.next, state.complain ports "sleep: invalid time interval" 1)
    | name, arguments =>
      match utility? name with
      | some utility => (.next, runUtility state ports utility name arguments)
      | none => (.next, state.complain ports (name ++ ": not found") 127)
where
  /-- The name and the value in a text. -/
  assignmentOf? (text : String) : Option (String × Word) :=
    let name := text.toList.takeWhile (· ≠ '=')
    match text.toList.drop name.length with
    | _ :: value => some (String.ofList name, [.text (String.ofList value) true])
    | [] => none

/-- Run a simple command: redirections and assignments hold for it alone, unless it is nothing but
assignments. -/
def runSimple (state : State) (ports : Ports) (assignments : List (String × Word))
    (words : List Word) (redirects : List Redirect) : Flow × State :=
  let fields := words.flatMap (fieldsOf state)
  match applyRedirects state ports redirects with
  | .error message => (.next, state.complain ports message 2)
  | .ok (inner, state) =>
    if fields.isEmpty then (.next, (state.assign assignments).withStatus 0)
    else
      let (flow, after) := runFields (state.assign assignments) inner (fields.length + 1) fields
      if assignments.isEmpty then (flow, after)
      else (flow, { after with bindings := state.bindings })

/-- How to go on behind a part with changes of its own: its end is not the end of the script. -/
def Flow.outside : Flow → Flow
  | exit => next
  | flow => flow

/-- Forget what a part with changes of its own has done to variables and arguments. -/
def State.restore (after before : State) : State :=
  { after with bindings := before.bindings, arguments := before.arguments }

/-- Run a command. -/
def run : (fuel : Nat) → Ports → Command → State → Flow × State
  | 0, _, _, state => (.expired, { state with clock := state.deadline })
  | fuel + 1, ports, command, state =>
    match command with
    | .done => (.next, state)
    | .simple assignments words redirects => runSimple state ports assignments words redirects
    | .sequence left right =>
      match run fuel ports left state with
      | (.next, state) => run fuel ports right state
      | stopped => stopped
    | .both left right =>
      match run fuel ports left state with
      | (.next, state) => if state.status = 0 then run fuel ports right state else (.next, state)
      | stopped => stopped
    | .either left right =>
      match run fuel ports left state with
      | (.next, state) => if state.status = 0 then (.next, state) else run fuel ports right state
      | stopped => stopped
    | .negate body =>
      match run fuel ports body state with
      | (.next, state) => (.next, state.withStatus (if state.status = 0 then 1 else 0))
      | stopped => stopped
    | .pipe left right =>
      let (pipe, piped) := state.newBuffer .empty
      let (flow, middle) := run fuel { ports with output := .buffer pipe, direct := false } left piped
      match flow.outside with
      | .next =>
        let inner := { ports with input := pipe, direct := false }
        let (flow, after) := run fuel inner right (middle.restore state)
        (flow.outside, after.restore state)
      | stopped =>
        -- the right side waits for the left one and holds the output as long
        (stopped, middle.hold ports (max middle.outputHeld middle.errorsHeld))
    | .aside body =>
      let (input, opened) := state.newBuffer .empty
      let (flow, after) := run fuel { ports with input := input, direct := false } body
        { opened with deadline := state.deadline + 86400000 }
      match flow with
      | .killed signal => (.killed signal, after.restore state)
      | _ =>
        let held := (after.restore state).hold ports after.clock
        (.next, { held with clock := state.clock, deadline := state.deadline, status := 0 })
    | .each name words body =>
      each fuel ports name body (words.flatMap (fieldsOf state)) (state.withStatus 0)
    | .loop succeeds condition body =>
      match run fuel ports condition state with
      | (.next, state) =>
        if (state.status == 0) == succeeds then
          match run fuel ports body state with
          | (.next, state) => run fuel ports (.loop succeeds condition body) state
          | stopped => stopped
        else (.next, state.withStatus 0)
      | stopped => stopped
    | .choose condition yes no =>
      match run fuel ports condition state with
      | (.next, state) =>
        if state.status = 0 then run fuel ports yes state
        else run fuel ports no (state.withStatus 0)
      | stopped => stopped
    | .group apart body redirects =>
      match applyRedirects state ports redirects with
      | .error message => (.next, state.complain ports message 2)
      | .ok (inner, opened) =>
        let (flow, after) := run fuel inner body opened
        if apart then (flow.outside, after.restore state) else (flow, after)
where
  /-- Run a body for each of some values. -/
  each (fuel : Nat) (ports : Ports) (name : String) (body : Command) :
      List String → State → Flow × State
    | [], state => (.next, state)
    | value :: rest, state =>
      match run fuel ports body { state with bindings := (name, value) :: state.bindings } with
      | (.next, state) => each fuel ports name body rest state
      | stopped => stopped

end Marksheet.Shell
