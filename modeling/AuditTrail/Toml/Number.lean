import AuditTrail.CoreInstances
import AuditTrail.Decimal.Literal
import AuditTrail.Toml.Text
/-!
# Numbers in TOML

An underscore may stand between two digits. An integer is decimal, without zeros in front, or behind
a mark of its base; a double has a fraction or an exponent, or is a word for an infinity or for no
number.
-/

namespace AuditTrail.Toml

open scoped CoreInstances

open Decimal (Binary64 digitsValue isDigit)

/-- A number of a settings file. -/
inductive Numeral where
  | integer (n : Int)
  | double (x : Binary64)
deriving DecidableEq, Repr

/-- The digits behind a digit, without the underscores between them, and what follows them. -/
def moreDigits? (isDigit : Char → Bool) : List Char → Option (List Char × List Char)
  | '_' :: d :: rest =>
    if isDigit d then (moreDigits? isDigit rest).map fun (ds, rest) => (d :: ds, rest) else none
  | d :: rest =>
    if isDigit d then (moreDigits? isDigit rest).map fun (ds, rest) => (d :: ds, rest)
    else if d = '_' then none
    else some ([], d :: rest)
  | [] => some ([], [])

/-- One digit or more with single underscores between them, and what follows them. -/
def digits? (isDigit : Char → Bool) : List Char → Option (List Char × List Char)
  | d :: rest =>
    if isDigit d then (moreDigits? isDigit rest).map fun (ds, rest) => (d :: ds, rest) else none
  | [] => none

/-- Decimal digits without a zero in front, and what follows them. -/
def whole? : List Char → Option (List Char × List Char)
  | '0' :: rest => some (['0'], rest)
  | cs => digits? isDigit cs

/-- A sign cut off: whether there is a minus, and what follows. -/
def splitSign (cs : List Char) : Bool × List Char := Decimal.splitSign cs

def exponent? (cs : List Char) : Option (Option Int × List Char) :=
  match cs with
  | c :: rest =>
    if c = 'e' ∨ c = 'E' then
      let (isNegative, rest) := splitSign rest
      (digits? isDigit rest).map fun (ds, rest) =>
        (some (if isNegative then -(digitsValue ds : Int) else digitsValue ds), rest)
    else some (none, cs)
  | [] => some (none, [])

/-- The digits behind a point, if there is one. -/
def fraction? : List Char → Option (Option (List Char) × List Char)
  | '.' :: rest => (digits? isDigit rest).map fun (ds, rest) => (some ds, rest)
  | cs => some (none, cs)

/-- A decimal number. No double above all others is written out. -/
def decimal? (cs : List Char) : Option (Numeral × List Char) := do
  let (isNegative, cs) := splitSign cs
  let (whole, cs) ← whole? cs
  let (part, cs) ← fraction? cs
  let (exponent, cs) ← exponent? cs
  if part.isNone && exponent.isNone then
    let n : Int := if isNegative then -(digitsValue whole : Int) else digitsValue whole
    if -(2 ^ (63 : Nat)) ≤ n ∧ n < 2 ^ (63 : Nat) then return (.integer n, cs) else none
  else
    let part := part.getD []
    let x := Binary64.ofDecimal isNegative (digitsValue (whole ++ part))
      (exponent.getD 0 - part.length)
    if x = .infinity false then none else return (.double x, cs)

/-- An integer of some base behind its mark. -/
def radix? (base : Nat) (cs : List Char) : Option (Numeral × List Char) := do
  let isDigit := fun c : Char => (radixValue? base [c]).isSome
  let (ds, rest) ← digits? isDigit cs
  let n ← radixValue? base ds
  if n < 2 ^ (63 : Nat) then return (.integer n, rest) else none

/-- A word for an infinity or for no number, with a sign or without. -/
def word? (cs : List Char) : Option (Numeral × List Char) :=
  match splitSign cs with
  | (isNegative, 'i' :: 'n' :: 'f' :: rest) => some (.double (.infinity isNegative), rest)
  | (_, 'n' :: 'a' :: 'n' :: rest) => some (.double .nan, rest)
  | _ => none

/-- The number that stands in front, and what follows it. -/
def numeral? (cs : List Char) : Option (Numeral × List Char) :=
  match cs with
  | '0' :: 'x' :: rest => radix? 16 rest
  | '0' :: 'o' :: rest => radix? 8 rest
  | '0' :: 'b' :: rest => radix? 2 rest
  | _ =>
    match word? cs with
    | some found => some found
    | none => decimal? cs

end AuditTrail.Toml
