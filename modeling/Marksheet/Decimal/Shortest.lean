/-!
# The shortest decimal of a double

A double stands for all reals that round to it. `shortest` gives the decimal
with the fewest digits among them, and of two such the nearer one. It tries the
power of ten above the double, then one digit, two digits and so on; on each of
these grids only the two neighbours of the double need to be looked at, since
the reals in question form an interval around it. All arithmetic is exact.
-/

namespace Marksheet.Decimal

/-- A positive double: a significand times a power of two. -/
structure Double where
  significand : Nat
  /-- The exponent of the power of two. -/
  exponent : Int
  /-- The next smaller double is only half as far away as the next larger one. -/
  lopsided : Bool
  deriving DecidableEq, Repr, Inhabited

/-- The magnitude of a finite double by its bits. -/
def Double.ofBits (bits : UInt64) : Double :=
  let magnitude := bits.toNat % Nat.pow 2 63
  let fraction := magnitude % Nat.pow 2 52
  let biased : Nat := magnitude / Nat.pow 2 52
  if biased = 0 then ⟨fraction, -1074, false⟩
  else ⟨Nat.pow 2 52 + fraction, (biased : Int) - 1075, fraction = 0 && biased ≠ 1⟩

/-- A natural power as a ratio, for an exponent of either sign. -/
def powerRatio (base : Nat) (exponent : Int) : Nat × Nat :=
  if exponent ≥ 0 then (base.pow exponent.toNat, 1) else (1, base.pow (-exponent).toNat)

/-- The least power of ten that a positive ratio stays below. -/
def magnitude (num den : Nat) : Int :=
  if den ≤ num then (Nat.toDigits 10 (num / den)).length
  else 1 - ((Nat.toDigits 10 ((den + num - 1) / num - 1)).length : Int)

/-- The neighbour of a double on the grid of a power of ten that rounds to it, if there is one; of
two, the nearer. -/
def neighbour? (value : Double) (power : Int) : Option Nat :=
  let (two, half) := powerRatio 2 (value.exponent - 2)
  let (ten, tenth) := powerRatio 10 power
  -- one quarter of the unit in the last place is `unit / grid` grid steps
  let unit := two * tenth
  let grid := half * ten
  let exact := 4 * value.significand * unit
  let low := (4 * value.significand - if value.lopsided then 1 else 2) * unit
  let high := (4 * value.significand + 2) * unit
  let even := value.significand % 2 = 0
  let holds (n : Nat) : Bool :=
    if even then low ≤ n * grid && n * grid ≤ high else low < n * grid && n * grid < high
  let floor := exact / grid
  match holds floor && floor ≠ 0, holds (floor + 1) with
  | true, true =>
    let below := exact - floor * grid
    let above := (floor + 1) * grid - exact
    some (if above < below || (above = below && floor % 2 = 1) then floor + 1 else floor)
  | true, false => some floor
  | false, true => some (floor + 1)
  | false, false => none

/-- The first grid of at most `fuel` digits more that holds a neighbour. -/
def shortestFrom (value : Double) (top : Int) (digits : Nat) : (fuel : Nat) → Nat × Int
  | 0 => (0, 0)
  | fuel + 1 =>
    match neighbour? value (top - digits) with
    | some n => (n, top - digits)
    | none => shortestFrom value top (digits + 1) fuel

/-- The shortest decimal of a double that is not zero: a number and the power of ten it counts. -/
def shortest (value : Double) : Nat × Int :=
  let (two, half) := powerRatio 2 value.exponent
  shortestFrom value (magnitude (value.significand * two) half) 0 18

/-- A number of units of a power of ten, without an exponent. -/
def positional (digits : Nat) (power : Int) : String :=
  let text := Nat.toDigits 10 digits
  if power ≥ 0 then String.ofList (text ++ List.replicate power.toNat '0')
  else
    let places := (-power).toNat
    let padded := List.replicate (places + 1 - text.length) '0' ++ text
    String.ofList (padded.take (padded.length - places) ++ ['.'] ++
      padded.drop (padded.length - places))

/-- A finite double with a point: the shortest decimal, without an exponent. -/
def pointed (bits : UInt64) : String :=
  let sign := if Nat.pow 2 63 ≤ bits.toNat then "-" else ""
  let value := Double.ofBits bits
  let text := if value.significand = 0 then "0" else
    let (digits, power) := shortest value
    positional digits power
  sign ++ if text.contains '.' then text else text ++ ".0"

end Marksheet.Decimal
