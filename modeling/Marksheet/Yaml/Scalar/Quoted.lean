import Marksheet.Yaml.Scalar.Gap

/-!
# Quoted scalars

A quoted scalar goes up to the next quote of its kind. Between single quotes,
only the quote itself can be escaped, by doubling it; between double quotes a
backslash begins an escape. Line breaks fold.
-/

namespace Marksheet.Yaml

/-- The escapes of one character. -/
def escapeOf? (c : Char) : Option Char :=
  match c with
  | '0' => some (Char.ofNat 0)
  | 'a' => some (Char.ofNat 7)
  | 'b' => some (Char.ofNat 8)
  | 't' | '\t' => some '\t'
  | 'n' => some '\n'
  | 'v' => some (Char.ofNat 11)
  | 'f' => some (Char.ofNat 12)
  | 'r' => some '\r'
  | 'e' => some (Char.ofNat 27)
  | ' ' => some ' '
  | '\"' => some '\"'
  | '/' => some '/'
  | '\\' => some '\\'
  | 'N' => some (Char.ofNat 0x85)
  | '_' => some (Char.ofNat 0xA0)
  | 'L' => some (Char.ofNat 0x2028)
  | 'P' => some (Char.ofNat 0x2029)
  | _ => none

/-- How many hexadecimal digits follow an escape by number. -/
def digitsOf? (c : Char) : Option Nat :=
  match c with
  | 'x' => some 2
  | 'u' => some 4
  | 'U' => some 8
  | _ => none

/-- The number that exactly so many hexadecimal digits write. -/
def hexNumber? : (count value : Nat) → List Char → Option Nat
  | 0, value, _ => some value
  | _ + 1, _, [] => none
  | count + 1, value, c :: rest => do hexNumber? count (value * 16 + (← hexValue? c)) rest

/-- The character with a number, if there is one. -/
def characterOf? (number : Nat) : Option Char :=
  if h : number.isValidChar then some (Char.ofNatAux number h) else none

/-- What begins with a backslash: the character that it stands for, if it is not an escaped break,
and how many characters are behind the backslash. The mark is that of the backslash. -/
def escape (start mark : Mark) (rest : List Char) : Except Fault (Option Char × Nat) :=
  let fault (problem : String) (mark : Mark) :=
    Fault.within "while parsing a quoted scalar" start problem mark
  match rest with
  | [] => .error (fault "found unknown escape character" mark)
  | c :: behind =>
    if isBreak c then .ok (none, 1)
    else
      match escapeOf? c, digitsOf? c with
      | some meant, _ => .ok (some meant, 1)
      | none, some count =>
        match hexNumber? count 0 behind with
        | none => .error (fault "did not find expected hexdecimal number" (mark.forward 2))
        | some number =>
          match characterOf? number with
          | some meant => .ok (some meant, 1 + count)
          | none =>
            .error (fault "found invalid Unicode character escape code" (mark.forward 2))
      | none, none => .error (fault "found unknown escape character" mark)

/-- What has been read of a quoted scalar. -/
structure QuotedState where
  mark : Mark
  /-- The text so far, newest first. -/
  text : List Char
  gap : Gap
  /-- How many characters have been dealt with already. -/
  skip : Nat
  deriving Inhabited

/-- Read a quoted scalar behind its opening quote: its text, the mark behind the closing quote, and
what stands there. -/
def readQuoted (single : Bool) (start : Mark) (state : QuotedState) :
    List Char → Except Fault (String × Mark × List Char)
  | [] => .error (.within "while scanning a quoted scalar" start
      "found unexpected end of stream" state.mark)
  | c :: rest =>
    let behind := state.mark.step c
    match state.skip with
    | skip + 1 => readQuoted single start { state with mark := behind, skip := skip } rest
    | 0 =>
      if isGap c then
        readQuoted single start { state with mark := behind, gap := state.gap.push c } rest
      else if state.mark.column = 0 && isDocumentIndicator (c :: rest) then
        .error (.within "while scanning a quoted scalar" start
          "found unexpected document indicator" state.mark)
      else
        let text := state.gap.folded ++ state.text
        if single && c = '\'' then
          if rest.head? = some '\'' then
            readQuoted single start ⟨behind, '\'' :: text, .none, 1⟩ rest
          else .ok (String.ofList text.reverse, behind, rest)
        else if !single && c = '\"' then .ok (String.ofList text.reverse, behind, rest)
        else if !single && c = '\\' then do
          match ← escape start state.mark rest with
          | (some meant, count) =>
            readQuoted single start ⟨behind, meant :: text, .none, count⟩ rest
          | (none, count) =>
            readQuoted single start ⟨behind, text, .breaks none [], count⟩ rest
        else readQuoted single start ⟨behind, c :: text, .none, 0⟩ rest

end Marksheet.Yaml
