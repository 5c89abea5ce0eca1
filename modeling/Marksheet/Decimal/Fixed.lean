import Marksheet.Decimal.Binary64
import Marksheet.Decimal.Shortest

/-!
# Doubles with one decimal place

The exact value of a double is rounded to tenths, a tie to the even one. A
number of milliseconds becomes a number of seconds by one division of the part
below a second and one addition, each rounded to the nearest double.
-/

namespace Marksheet.Decimal

/-- The exact magnitude of a double. -/
def exactRatio (bits : UInt64) : Nat × Nat :=
  let value := Double.ofBits bits
  let (two, half) := powerRatio 2 value.exponent
  (value.significand * two, half)

/-- The double nearest to the sum of two positive doubles. -/
def addDoubles (a b : UInt64) : UInt64 :=
  let (first, firstUnit) := exactRatio a
  let (second, secondUnit) := exactRatio b
  Binary64.ofRatio (first * secondUnit + second * firstUnit) (firstUnit * secondUnit)

/-- A positive double with one decimal place. -/
def inTenths (bits : UInt64) : String :=
  let (num, den) := exactRatio bits
  let tenths := roundHalfEven (10 * num) den
  toString (tenths / 10) ++ "." ++ toString (tenths % 10)

/-- Milliseconds as seconds. -/
def secondsOf (milliseconds : Nat) : UInt64 :=
  addDoubles (Binary64.ofRatio (milliseconds / 1000) 1)
    (Binary64.ofRatio (milliseconds % 1000) 1000)

end Marksheet.Decimal
