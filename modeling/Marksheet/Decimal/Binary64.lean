/-!
# The nearest double of a decimal

`Binary64.ofRatio` rounds a ratio of natural numbers to the nearest IEEE 754
double, a tie to the even significand, and gives the sixty-four bits. All
arithmetic is exact. Too large a value becomes infinity.
-/

namespace Marksheet.Decimal

/-- The quotient rounded to the nearest natural number, a tie to the even one. -/
def roundHalfEven (num den : Nat) : Nat :=
  let quotient := num / den
  let rest := num % den
  if 2 * rest < den then quotient
  else if den < 2 * rest then quotient + 1
  else if quotient % 2 = 0 then quotient else quotient + 1

/-- A rounded quotient lies within half a unit of the exact one. -/
theorem roundHalfEven_within (num den : Nat) (h : 0 < den) :
    2 * den * roundHalfEven num den ≤ 2 * num + den ∧
      2 * num ≤ 2 * den * roundHalfEven num den + den := by
  have hq : den * (num / den) + num % den = num := Nat.div_add_mod num den
  have hr : num % den < den := Nat.mod_lt num h
  have key : ∀ a b c : Nat, 2 * a * (b + c) = 2 * (a * b) + 2 * (a * c) := by
    intro a b c
    rw [Nat.mul_assoc, Nat.mul_add, Nat.mul_add]
  have h0 := key den (num / den) 0
  have h1 := key den (num / den) 1
  simp only [Nat.add_zero, Nat.mul_zero, Nat.mul_one] at h0 h1
  unfold roundHalfEven
  simp only
  split
  · omega
  · split
    · omega
    · split <;> omega

namespace Binary64

/-- The bits of positive infinity. -/
def infinity : Nat := 0x7FF0000000000000

/-- The exponent of the unit in the last place of the double nearest to a ratio: the
ratio holds fifty-three bits above it, but it is never below the least one. -/
def unitExponent (num den : Nat) : Int :=
  let guess : Int := (num.log2 : Int) - (den.log2 : Int) - 53
  -- the ratio lies strictly between two to `guess + 52` and two to `guess + 54`
  let reaches :=
    if guess + 53 ≥ 0 then den * Nat.pow 2 (guess + 53).toNat ≤ num
    else den ≤ num * Nat.pow 2 (-(guess + 53)).toNat
  max (if reaches then guess + 1 else guess) (-1074)

/-- The bits of the double nearest to a ratio with a positive denominator. -/
def ofRatio (num den : Nat) : UInt64 :=
  if num = 0 then 0
  else
    let exponent := unitExponent num den
    let significand :=
      if exponent ≥ 0 then roundHalfEven num (den * Nat.pow 2 exponent.toNat)
      else roundHalfEven (num * Nat.pow 2 (-exponent).toNat) den
    let (significand, exponent) :=
      if significand = Nat.pow 2 53 then (Nat.pow 2 52, exponent + 1) else (significand, exponent)
    if exponent > 971 then UInt64.ofNat infinity
    else if significand < Nat.pow 2 52 then UInt64.ofNat significand
    else UInt64.ofNat ((exponent + 1075).toNat * Nat.pow 2 52 + (significand - Nat.pow 2 52))

/-- The bits of the double nearest to `digits` times ten to the `exponent`. Beyond
four hundred decimal places in either direction the result is infinity or zero. -/
def ofDecimal (digits : Nat) (places : Nat) (exponent : Int) : UInt64 :=
  if digits = 0 then 0
  else if (places : Int) + exponent > 400 then UInt64.ofNat infinity
  else if (places : Int) + exponent < -400 then 0
  else if exponent ≥ 0 then ofRatio (digits * Nat.pow 10 exponent.toNat) 1
  else ofRatio digits (Nat.pow 10 (-exponent).toNat)

end Binary64

end Marksheet.Decimal
