/-!
# Text from bytes

Bytes are read as UTF-8. Each longest piece that begins a character but does not
complete it, and each byte that begins none, gives one replacement character.
-/

namespace Marksheet.Text

/-- How many bytes a character has and the range of the second one, by its first byte. -/
def leadShape? (byte : UInt8) : Option (Nat × UInt8 × UInt8) :=
  if byte < 0x80 then some (1, 0x80, 0xBF)
  else if byte < 0xC2 then none
  else if byte < 0xE0 then some (2, 0x80, 0xBF)
  else if byte = 0xE0 then some (3, 0xA0, 0xBF)
  else if byte = 0xED then some (3, 0x80, 0x9F)
  else if byte < 0xF0 then some (3, 0x80, 0xBF)
  else if byte = 0xF0 then some (4, 0x90, 0xBF)
  else if byte < 0xF4 then some (4, 0x80, 0xBF)
  else if byte = 0xF4 then some (4, 0x80, 0x8F)
  else none

/-- The bits of a first byte that count, by the length of the character. -/
def leadBits (length : Nat) (byte : UInt8) : Nat :=
  match length with
  | 1 => byte.toNat
  | 2 => byte.toNat % 32
  | 3 => byte.toNat % 16
  | _ => byte.toNat % 8

/-- The replacement character. -/
def replacement : Char := Char.ofNat 0xFFFD

/-- What has been read of a character that is not complete. -/
structure Partial where
  /-- The bits so far. -/
  value : Nat
  /-- How many bytes are missing. -/
  missing : Nat
  /-- The range of the next byte. -/
  low : UInt8
  high : UInt8
  deriving DecidableEq, Repr

/-- Begin a character: the characters that are complete with its first byte, and what is open. -/
def beginChar (byte : UInt8) : List Char × Option Partial :=
  match leadShape? byte with
  | none => ([replacement], none)
  | some (1, _, _) => ([Char.ofNat byte.toNat], none)
  | some (length, low, high) => ([], some ⟨leadBits length byte, length - 1, low, high⟩)

/-- Read one byte behind an open character or between characters. -/
def decodeByte (opened : Option Partial) (byte : UInt8) : List Char × Option Partial :=
  match opened with
  | none => beginChar byte
  | some character =>
    if character.low ≤ byte && byte ≤ character.high then
      let value := character.value * 64 + byte.toNat % 64
      if character.missing = 1 then ([Char.ofNat value], none)
      else ([], some ⟨value, character.missing - 1, 0x80, 0xBF⟩)
    else
      let (chars, opened) := beginChar byte
      (replacement :: chars, opened)

/-- The characters of bytes behind an open character. -/
def decodeFrom (opened : Option Partial) : List UInt8 → List Char
  | [] => if opened.isSome then [replacement] else []
  | byte :: rest =>
    let (chars, opened) := decodeByte opened byte
    chars ++ decodeFrom opened rest

/-- The text of bytes. -/
def ofBytes (bytes : ByteArray) : String := String.ofList (decodeFrom none bytes.toList)

end Marksheet.Text
