/-!
# Numbers that scores are made of

Scores are computed from counts by a few operations. They run on doubles; the same formulas over
exact fractions say what the scores mean without rounding.
-/

namespace AuditTrail

/-- The operations that scores are made of. -/
class ScoreNumber (R : Type) where
  ofCount : Nat → R
  sub : R → R → R
  mul : R → R → R
  div : R → R → R
  /-- The nearest number between zero and one; what is no number counts as zero. -/
  clamp : R → R
  /-- The first number is at most the second; false when one of them is no number. -/
  le : R → R → Bool
  /-- Neither infinite nor no number. -/
  isFinite : R → Bool

instance : ScoreNumber Float where
  ofCount n := Float.ofNat n
  sub a b := a - b
  mul a b := a * b
  div a b := a / b
  clamp a := if a.isNaN then 0 else if a < 0 then 0 else if 1 < a then 1 else a
  le a b := decide (a ≤ b)
  isFinite a := a.isFinite

instance : ScoreNumber Rat where
  ofCount n := n
  sub a b := a - b
  mul a b := a * b
  div a b := a / b
  clamp a := if a < 0 then 0 else if 1 < a then 1 else a
  le a b := decide (a ≤ b)
  isFinite _ := true

namespace ScoreNumber

variable {R : Type} [ScoreNumber R]

/-- The quotient of two counts. -/
def quotient (a b : Nat) : R := div (ofCount a) (ofCount b)

/-- The first number is below the second. -/
def lt (a b : R) : Bool := le a b && !le b a

/-- The number lies between zero and one. -/
def inUnit (a : R) : Bool := le (ofCount 0) a && le a (ofCount 1)

end ScoreNumber

end AuditTrail
