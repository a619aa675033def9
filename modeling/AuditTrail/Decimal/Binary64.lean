import AuditTrail.CoreInstances
/-!
# Double-precision numbers as bit patterns

A double is kept as its 64 bits, so that equality is equality of patterns and the zeros differ.
`ofDecimal?` reads a decimal to the nearest double in exact integer arithmetic, a tie going to the
even pattern; it answers nothing when the decimal lies beyond the largest finite double.
-/

namespace AuditTrail.Decimal

open scoped CoreInstances

/-- A double-precision number: a sign bit, eleven exponent bits and fifty-two fraction bits. -/
structure Binary64 where
  /-- The pattern, sign bit first. -/
  bits : UInt64
deriving DecidableEq, Repr

namespace Binary64

def exponentField (x : Binary64) : Nat := x.bits.toNat / 2 ^ (52 : Nat) % 2 ^ (11 : Nat)

def fractionField (x : Binary64) : Nat := x.bits.toNat % 2 ^ (52 : Nat)

/-- The sign bit is set. -/
def isNegative (x : Binary64) : Bool := 2 ^ (63 : Nat) ≤ x.bits.toNat

/-- Neither an infinity nor a value that is no number. -/
def isFinite (x : Binary64) : Bool := x.exponentField != 2047

/-- The value is no number. -/
def isNaN (x : Binary64) : Bool := x.exponentField == 2047 && x.fractionField != 0

/-- The integer `m` of a finite value `m · 2 ^ q`. -/
def significand (x : Binary64) : Nat :=
  if x.exponentField = 0 then x.fractionField else 2 ^ (52 : Nat) + x.fractionField

/-- The exponent `q` of a finite value `m · 2 ^ q`. -/
def scale (x : Binary64) : Int :=
  if x.exponentField = 0 then -1074 else (x.exponentField : Int) - 1075

/-- The magnitude of a finite value as numerator and denominator. -/
def fraction (x : Binary64) : Nat × Nat :=
  if 0 ≤ x.scale then (x.significand * 2 ^ x.scale.toNat, 1)
  else (x.significand, 2 ^ (-x.scale).toNat)

/-- The hardware number with this pattern. -/
def toFloat (x : Binary64) : Float := Float.ofBits x.bits

/-- The pattern of a hardware number. -/
def ofFloat (f : Float) : Binary64 := ⟨f.toBits⟩

end Binary64

/-- A quotient rounded to the nearest integer, a tie going to the even one. -/
def roundHalfEven (num den : Nat) : Nat :=
  let whole := num / den
  let rest := num % den
  if 2 * rest < den then whole
  else if den < 2 * rest then whole + 1
  else whole + whole % 2

/-- The quotient of `num` by `den · 2 ^ q`, as numerator and denominator. -/
def descaled (num den : Nat) (q : Int) : Nat × Nat :=
  if 0 ≤ q then (num, den * 2 ^ q.toNat) else (num * 2 ^ (-q).toNat, den)

/-- The exponent of the last bit that the double nearest to `num / den` can hold. -/
def lastBit (num den : Nat) : Int :=
  let guess := max ((Nat.log2 num : Int) - Nat.log2 den - 52) (-1074)
  let (n, d) := descaled num den guess
  if -1074 < guess ∧ n < 2 ^ (52 : Nat) * d then guess - 1 else guess

/-- The pattern, less its sign, of the double nearest to `num / den`: consecutive doubles have
consecutive patterns, so rounding up past a power of two needs no case of its own. -/
def magnitudePattern (num den : Nat) : Nat :=
  if num = 0 then 0
  else
    let q := lastBit num den
    let (n, d) := descaled num den q
    (q + 1074).toNat * 2 ^ (52 : Nat) + roundHalfEven n d

/-- The pattern of the infinity, less its sign. -/
def infinityPattern : Nat := 2047 * 2 ^ (52 : Nat)

/-- A sign and a magnitude pattern put together. -/
def Binary64.ofParts (negative : Bool) (pattern : Nat) : Binary64 :=
  ⟨UInt64.ofNat (if negative then 2 ^ (63 : Nat) + pattern else pattern)⟩

/-- The infinity of a sign. -/
def Binary64.infinity (negative : Bool) : Binary64 := .ofParts negative infinityPattern

/-- The value that is no number. -/
def Binary64.nan : Binary64 := .ofParts false (infinityPattern + 2 ^ (51 : Nat))

/-- How many decimal digits a number is written with. -/
def digitCount (n : Nat) : Nat := (Nat.toDigits 10 n).length

/-- The double nearest to `± coefficient · 10 ^ exponent`, or nothing beyond the finite range.
The first two tests keep the powers of ten small. -/
def Binary64.ofDecimal? (negative : Bool) (coefficient : Nat) (exponent : Int) : Option Binary64 :=
  if coefficient = 0 then some (.ofParts negative 0)
  else
    let top : Int := digitCount coefficient + exponent
    if 310 < top then none
    else if top < -330 then some (.ofParts negative 0)
    else
      let pattern :=
        if 0 ≤ exponent then magnitudePattern (coefficient * 10 ^ exponent.toNat) 1
        else magnitudePattern coefficient (10 ^ (-exponent).toNat)
      if pattern < infinityPattern then some (.ofParts negative pattern) else none

/-- The double nearest to `± coefficient · 10 ^ exponent`, infinite beyond the finite range. -/
def Binary64.ofDecimal (negative : Bool) (coefficient : Nat) (exponent : Int) : Binary64 :=
  (Binary64.ofDecimal? negative coefficient exponent).getD (.infinity negative)

end AuditTrail.Decimal
