import Marksheet.Files.Tree

/-!
# What utilities are given and what they answer

A utility gets its arguments, all that is left of its input, and the files; it
answers with what it writes, a status, and the files afterwards.
-/

namespace Marksheet.Shell

/-- What a utility is called with. -/
structure Call where
  name : String
  arguments : List String
  input : ByteArray
  files : Files.Tree
  deriving Inhabited

/-- What a utility answers. -/
structure Reply where
  output : ByteArray
  errors : ByteArray
  status : Nat
  files : Files.Tree
  /-- The input has been read to its end. -/
  consumed : Bool
  deriving Inhabited

/-- A utility. -/
abbrev Utility := Call → Reply

namespace Call

/-- Success with some output. -/
def succeed (call : Call) (output : ByteArray) : Reply := ⟨output, .empty, 0, call.files, false⟩

/-- A status and nothing else. -/
def quiet (call : Call) (status : Nat) : Reply := ⟨.empty, .empty, status, call.files, false⟩

/-- Success that changes the files. -/
def change (_ : Call) (files : Files.Tree) : Reply := ⟨.empty, .empty, 0, files, false⟩

/-- A complaint, under the name of the utility. -/
def complain (call : Call) (message : String) (status : Nat) : Reply :=
  ⟨.empty, (call.name ++ ": " ++ message ++ "\n").toUTF8, status, call.files, false⟩

/-- Options in single letters at the head of the arguments, and the arguments behind them. -/
def flags (call : Call) : List Char × List String :=
  let isFlag (argument : String) : Bool :=
    argument.toList.head? = some '-' && 1 < argument.length && argument ≠ "--"
  let options := call.arguments.takeWhile isFlag
  let rest := call.arguments.drop options.length
  (options.flatMap fun option => option.toList.drop 1, if rest.head? = some "--" then rest.tail else rest)

end Call

/-- How much a device without an end is made to give if nobody says how much is wanted. -/
def deviceSupply : Nat := 4194304

/-- Zero bytes. -/
def zeroBytes (count : Nat) : ByteArray := ⟨Array.replicate count 0⟩

/-- At most so many bytes of a file; the device of zeros has no end. -/
def readFile (files : Files.Tree) (path : String) (most : Nat) : Except Files.Failure ByteArray :=
  if path = "/dev/zero" then .ok (zeroBytes most) else files.readBytes path

/-- What a utility reads: its input, or the files that it is told, one after the other. -/
def Call.sources (call : Call) (paths : List String) (most : Nat) : Reply :=
  if paths.isEmpty then { call.succeed call.input with consumed := true }
  else
    paths.foldl (fun reply path =>
      if path = "-" || path = "/dev/stdin" then
        { reply with output := reply.output ++ call.input, consumed := true }
      else
        match readFile call.files path most with
        | .ok content => { reply with output := reply.output ++ content }
        | .error failure =>
          { reply with
            errors := reply.errors ++
              (call.name ++ ": " ++ path ++ ": " ++ failure.words ++ "\n").toUTF8
            status := 1 })
      (call.succeed .empty)

/-- Work on all that has been read. -/
def Reply.map (work : ByteArray → ByteArray) (reply : Reply) : Reply :=
  { reply with output := work reply.output }

end Marksheet.Shell
