import AuditTrail.CoreInstances
import AuditTrail.Decimal.Binary64
/-!
# Number literals in settings

The texts that settings count as numbers: an integer is an optional sign and digits, within 64
signed bits; a double is an optional sign and digits with at most one point and at most one
exponent, or a word for an infinity or for no number.
-/

namespace AuditTrail.Decimal

open scoped CoreInstances

/-- An ASCII digit. -/
def isDigit (c : Char) : Bool := decide ('0' ≤ c) && decide (c ≤ '9')

/-- The number that some digits write. -/
def digitsValue (ds : List Char) : Nat :=
  ds.foldl (fun n c => 10 * n + (c.toNat - 48)) 0

/-- A leading sign cut off: whether it was a minus, and what follows. -/
def splitSign : List Char → Bool × List Char
  | '-' :: rest => (true, rest)
  | '+' :: rest => (false, rest)
  | cs => (false, cs)

/-- The integer that a text of digits with an optional sign writes. -/
def integer? (cs : List Char) : Option Int :=
  let (negative, ds) := splitSign cs
  if ds.isEmpty || !ds.all isDigit then none
  else some (if negative then -(digitsValue ds : Int) else digitsValue ds)

/-- The same, within 64 signed bits. -/
def int64? (cs : List Char) : Option Int :=
  (integer? cs).filter fun n => decide (-(2 ^ (63 : Nat)) ≤ n ∧ n < 2 ^ (63 : Nat))

/-- The same without a minus, within 64 unsigned bits. -/
def uint64? (cs : List Char) : Option Nat :=
  let ds := match cs with
    | '+' :: rest => rest
    | _ => cs
  if ds.isEmpty || !ds.all isDigit then none
  else (some (digitsValue ds)).filter fun n => decide (n < 2 ^ (64 : Nat))

/-- The exponent that ends a literal: nothing stands for none, and the letter needs digits. -/
def exponent? : List Char → Option Int
  | [] => some 0
  | c :: rest => if c = 'e' ∨ c = 'E' then integer? rest else none

def unsigned? (negative : Bool) (cs : List Char) : Option Binary64 :=
  let whole := cs.takeWhile isDigit
  let afterWhole := cs.dropWhile isDigit
  let (part, rest) := match afterWhole with
    | '.' :: tail => (tail.takeWhile isDigit, tail.dropWhile isDigit)
    | _ => ([], afterWhole)
  if whole.isEmpty && part.isEmpty then none
  else
    (exponent? rest).map fun e =>
      Binary64.ofDecimal negative (digitsValue (whole ++ part)) (e - part.length)

def double? (cs : List Char) : Option Binary64 :=
  let (negative, body) := splitSign cs
  let word := String.ofList (body.map Char.toLower)
  if word = "inf" ∨ word = "infinity" then some (.infinity negative)
  else if word = "nan" then some .nan
  else unsigned? negative body

end AuditTrail.Decimal
