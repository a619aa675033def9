import AuditTrail.CoreInstances
import AuditTrail.Decimal.Binary64
/-!
# Decimals read step by step

The quick way from a decimal to a double: digits are taken as long as a word holds them, and the
word is multiplied or divided by a power of ten from a table. Each of these steps rounds. So the
result may lie beside the nearest double, and next to the largest one there may be none.
-/

namespace AuditTrail.Decimal

open scoped CoreInstances

/-- Some more digits of a number as long as 64 bits hold it, and the digits that are left from the
first one on that does not fit. -/
def takeDigits : Nat → List Char → Nat × List Char
  | n, [] => (n, [])
  | n, c :: cs =>
    let next := 10 * n + (c.toNat - 48)
    if next < 2 ^ (64 : Nat) then takeDigits next cs else (n, c :: cs)

/-- The double nearest to a power of ten. -/
def tenTo (k : Nat) : Float := (Binary64.ofDecimal false 1 k).toFloat

/-- A double times a power of ten, or nothing where that is infinite. The table of powers ends at
`10 ^ 308`: below its inverse the double is divided step by step until nothing is left of it. -/
def timesTenTo? (f : Float) (exponent : Int) : Option Float :=
  if exponent.natAbs ≤ 308 then
    if 0 ≤ exponent then
      let product := f * tenTo exponent.toNat
      if product.isInf then none else some product
    else some (f / tenTo exponent.natAbs)
  else if f == 0 then some f
  else if 0 ≤ exponent then none
  else timesTenTo? (f / tenTo 308) (exponent + 308)
termination_by exponent.natAbs
decreasing_by omega

/-- The double that a sign, the digits before and behind a point and an exponent give step by step.
Digits before the point that the word does not hold count as zeros, those behind it for nothing. -/
def stepwise? (negative : Bool) (whole part : List Char) (exponent : Int) : Option Binary64 :=
  let (n, zeros) := takeDigits 0 whole
  let (n, dropped) := takeDigits n part
  let places : Int := (part.length : Int) - dropped.length
  (timesTenTo? (UInt64.ofNat n).toFloat (exponent + zeros.length - places)).map fun f =>
    Binary64.ofFloat (if negative then -f else f)

end AuditTrail.Decimal
