import Marksheet.Shell.Utility.Printing

/-!
# Utilities that pass on what they read

`cat` passes on everything, `head` and `tail` one end of it, `tr` works on single
bytes, and `wc` counts.
-/

namespace Marksheet.Shell

open Decimal (digitsValue)

/-- Pass on what is read. -/
def cat : Utility := fun call => call.sources call.flags.2 deviceSupply

/-! ### Ends -/

/-- How much of an input is wanted. -/
inductive Amount where
  | lines (count : Nat)
  | bytes (count : Nat)
  deriving DecidableEq, Repr, Inhabited

/-- A count with an optional unit. -/
def sizeValue (text : List Char) : Nat :=
  let digits := text.takeWhile Char.isDigit
  let unit := match text.drop digits.length with
    | ['K'] | ['k'] => 1024
    | ['M'] => 1048576
    | ['k', 'B'] => 1000
    | ['M', 'B'] => 1000000
    | ['b'] => 512
    | _ => 1
  digitsValue 10 digits * unit

/-- How much is wanted, and of which files. -/
def amount : List String → Amount × List String
  | [] => (.lines 10, [])
  | argument :: rest =>
    match argument.toList, rest with
    | ['-', 'n'], count :: rest => (.lines (sizeValue count.toList), rest)
    | ['-', 'c'], count :: rest => (.bytes (sizeValue count.toList), rest)
    | '-' :: 'n' :: count, rest => (.lines (sizeValue count), rest)
    | '-' :: 'c' :: count, rest => (.bytes (sizeValue count), rest)
    | ['-', '-'], rest => (.lines 10, rest)
    | '-' :: c :: count, rest =>
      if c.isDigit then (.lines (sizeValue (c :: count)), rest) else (.lines 10, argument :: rest)
    | _, rest => (.lines 10, argument :: rest)

/-- How many bytes the first lines have. -/
def linesSize (bytes : ByteArray) : (count position : Nat) → (fuel : Nat) → Nat
  | _, position, 0 => position
  | 0, position, _ + 1 => position
  | count + 1, position, fuel + 1 =>
    if position < bytes.size then
      linesSize bytes (if bytes.get! position = 10 then count else count + 1) (position + 1) fuel
    else position

/-- The number of line feeds. -/
def lineFeeds (bytes : ByteArray) : Nat :=
  bytes.foldl (fun count byte => if byte = 10 then count + 1 else count) 0

/-- The first part of what is read. -/
def head : Utility := fun call =>
  let (amount, paths) := amount call.arguments
  match amount with
  | .bytes count => (call.sources paths count).map (·.extract 0 count)
  | .lines count =>
    (call.sources paths deviceSupply).map fun bytes =>
      bytes.extract 0 (linesSize bytes count 0 (bytes.size + 1))

/-- The last part of what is read. -/
def tail : Utility := fun call =>
  let (amount, paths) := amount call.arguments
  (call.sources paths deviceSupply).map fun bytes =>
    match amount with
    | .bytes count => bytes.extract (bytes.size - count) bytes.size
    | .lines count =>
      let open_ := bytes.size ≠ 0 && bytes.get! (bytes.size - 1) ≠ 10
      let total := lineFeeds bytes + if open_ then 1 else 0
      bytes.extract (linesSize bytes (total - count) 0 (bytes.size + 1)) bytes.size

/-! ### Single bytes -/

/-- The bytes of a class. -/
def classBytes (name : String) : List Nat :=
  let range (first last : Char) : List Nat :=
    (List.range (last.toNat + 1 - first.toNat)).map (· + first.toNat)
  if name = "lower" then range 'a' 'z'
  else if name = "upper" then range 'A' 'Z'
  else if name = "digit" then range '0' '9'
  else if name = "alpha" then range 'A' 'Z' ++ range 'a' 'z'
  else if name = "alnum" then range '0' '9' ++ range 'A' 'Z' ++ range 'a' 'z'
  else if name = "space" then [9, 10, 11, 12, 13, 32]
  else []

/-- The bytes of a set without its ranges: each byte, and whether it is a bare hyphen. -/
def setBytes : (fuel : Nat) → List Char → List (Nat × Bool)
  | 0, _ => []
  | _ + 1, [] => []
  | fuel + 1, '\\' :: c :: rest =>
    if isOctal c then
      let (byte, rest) := octalByte (c :: rest)
      (byte, false) :: setBytes fuel rest
    else ((escapeByte? c).getD c.toNat, false) :: setBytes fuel rest
  | fuel + 1, '[' :: ':' :: rest =>
    let name := rest.takeWhile (· ≠ ':')
    (classBytes (String.ofList name)).map (·, false) ++ setBytes fuel (rest.drop (name.length + 2))
  | fuel + 1, c :: rest =>
    (charBytes [c]).toList.map (fun byte => (byte.toNat, c == '-')) ++ setBytes fuel rest

/-- The bytes of a set, with its ranges filled in. -/
def fillRanges : List (Nat × Bool) → List Nat
  | (first, _) :: (_, true) :: (last, _) :: rest =>
    (List.range (last + 1 - first)).map (· + first) ++ fillRanges rest
  | (byte, _) :: rest => byte :: fillRanges rest
  | [] => []

/-- The bytes that a set names. -/
def byteSet (text : String) : List Nat := fillRanges (setBytes (text.length + 1) text.toList)

/-- Drop each byte of a set that follows itself. -/
def squeeze (isIn : Nat → Bool) (bytes : List UInt8) : List UInt8 :=
  (bytes.foldl (fun (kept : List UInt8) byte =>
    if kept.head? = some byte && isIn byte.toNat then kept else byte :: kept) []).reverse

/-- Translate, delete or squeeze single bytes. -/
def translate : Utility := fun call =>
  let (flags, sets) := call.flags
  let named := byteSet (sets.headD "")
  let first := if flags.contains 'c' || flags.contains 'C' then
      (List.range 256).filter fun byte => !named.contains byte else named
  let second := byteSet (sets.tail.headD "")
  let images := second ++ List.replicate (first.length - second.length) (second.getLast?.getD 0)
  let pairs := (first.zip images).reverse
  let inFirst : Array Bool := ((List.range 256).map first.contains).toArray
  let inSecond : Array Bool := ((List.range 256).map second.contains).toArray
  let image : Array Nat := ((List.range 256).map fun byte => (pairs.lookup byte).getD byte).toArray
  let work (bytes : List UInt8) : List UInt8 :=
    let deletes := flags.contains 'd'
    let kept := if deletes then bytes.filter fun byte => !inFirst.getD byte.toNat false
      else if sets.length < 2 then bytes
      else bytes.map fun byte => UInt8.ofNat (image.getD byte.toNat 0)
    if flags.contains 's' then
      let set := if sets.length < 2 then inFirst else inSecond
      squeeze (fun byte => set.getD byte false) kept
    else kept
  (call.sources [] deviceSupply).map fun bytes => ⟨(work bytes.toList).toArray⟩

/-! ### Counts -/

/-- The number of words: runs of bytes that are not blank. -/
def wordCount (bytes : ByteArray) : Nat :=
  (bytes.foldl (fun (count, inside) byte =>
    let blank := byte = 32 || (9 ≤ byte && byte ≤ 13)
    (if !blank && !inside then count + 1 else count, !blank)) (0, false)).1

/-- The number of characters. -/
def charCount (bytes : ByteArray) : Nat :=
  bytes.foldl (fun count byte => if byte &&& 0xC0 = 0x80 then count else count + 1) 0

/-- A number with blanks before it, up to a width. -/
def padNumber (width number : Nat) : String :=
  let digits := toString number
  String.ofList (List.replicate (width - digits.length) ' ') ++ digits

/-- Count lines, words and bytes of the input or of files. -/
def count : Utility := fun call =>
  let (flags, paths) := call.flags
  let flags := if flags.isEmpty then ['l', 'w', 'c'] else flags
  let chosen := ['l', 'w', 'm', 'c'].filter flags.contains
  let counts (bytes : ByteArray) : List Nat := chosen.map fun kind =>
    if kind = 'l' then lineFeeds bytes
    else if kind = 'w' then wordCount bytes
    else if kind = 'm' then charCount bytes
    else bytes.size
  let line (width : Nat) (numbers : List Nat) (label : String) : String :=
    " ".intercalate (numbers.map (padNumber width)) ++ label ++ "\n"
  if paths.isEmpty then
    let width := if chosen.length = 1 then 1 else 7
    { call.succeed (line width (counts call.input) "").toUTF8 with consumed := true }
  else
    let read := paths.map fun path => (path, readFile call.files path deviceSupply)
    let total := read.foldl (fun total (_, found) => match found with
      | .ok bytes => total + bytes.size
      | .error _ => total) 0
    let width := if chosen.length = 1 && paths.length = 1 then 1 else (toString total).length
    let reply := read.foldl (fun (reply : Reply) (path, found) => match found with
      | .ok bytes =>
        { reply with output := reply.output ++ (line width (counts bytes) (" " ++ path)).toUTF8 }
      | .error failure =>
        { reply with
          errors := reply.errors ++ ("wc: " ++ path ++ ": " ++ failure.words ++ "\n").toUTF8
          status := 1 }) (call.succeed .empty)
    if paths.length = 1 then reply
    else
      let sums := read.foldl (fun sums (_, found) => match found with
        | .ok bytes => List.zipWith (· + ·) sums (counts bytes)
        | .error _ => sums) (chosen.map fun _ => 0)
      { reply with output := reply.output ++ (line width sums " total").toUTF8 }

end Marksheet.Shell
