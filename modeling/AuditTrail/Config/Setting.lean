import AuditTrail.CoreInstances
import AuditTrail.Decimal.Literal
import AuditTrail.Decimal.Shortest
import AuditTrail.Json.Basic
import AuditTrail.Text.Split
/-!
# Settings

A setting is a value as a source of settings gives it. It is read as the kind of value that is asked
for, so that a number may be given as text and a text as a number.
-/

namespace AuditTrail

open scoped CoreInstances

open Decimal (Binary64)

/-- A value from a source of settings. -/
inductive Setting where
  | missing
  | flag (b : Bool)
  | integer (n : Int)
  | double (x : Binary64)
  | text (s : String)
  | list (items : List Setting)
  | table (entries : List (String × Setting))

namespace Setting

/-- The integers that a source can give. -/
def isInteger64 (n : Int) : Bool := decide (-(2 ^ (63 : Nat)) ≤ n ∧ n < 2 ^ (63 : Nat))

mutual

/-- A JSON value as a setting. A number beyond the signed words is a double. -/
def ofJson : Json → Setting
  | .null | .flawed _ => .missing
  | .bool b => .flag b
  | .number (.natural n) =>
    if isInteger64 n.toNat then .integer n.toNat else .double (Binary64.ofFloat n.toFloat)
  | .number (.negative n) => .integer (-(n.toNat : Int))
  | .number (.double x) => .double x
  | .string s => .text s
  | .array items => .list (ofItems items)
  | .object members => .table (ofMembers members)

def ofItems : List Json → List Setting
  | [] => []
  | j :: rest => ofJson j :: ofItems rest

def ofMembers : List (String × Json) → List (String × Setting)
  | [] => []
  | (k, j) :: rest => (k, ofJson j) :: ofMembers rest

end

/-! ## Reading a setting as a kind of value -/

/-- The words for true, apart from the digit. -/
def yesWords : List String := ["true", "on", "yes"]

/-- The words for false, apart from the digit. -/
def noWords : List String := ["false", "off", "no"]

/-- A double rounded to a word, a half going away from zero; what lies beyond the words goes to the
nearest one, and what is no number to zero. -/
def roundedWord (x : Binary64) : Nat :=
  if x.isNaN || x.isNegative then 0
  else if x.isFinite then
    let (num, den) := x.fraction
    min ((2 * num + den) / (2 * den)) (2 ^ (64 : Nat) - 1)
  else 2 ^ (64 : Nat) - 1

/-- The setting as a natural number of 64 bits. -/
def asNat? : Setting → Option Nat
  | .integer n => if 0 ≤ n then some n.toNat else none
  | .flag b => some b.toNat
  | .double x => some (roundedWord x)
  | .text s =>
    if Text.lowered s ∈ yesWords then some 1
    else if Text.lowered s ∈ noWords then some 0
    else Decimal.uint64? s.toList
  | .missing | .list _ | .table _ => none

/-- The setting as a natural number below a bound. -/
def asNatBelow? (bound : Nat) (s : Setting) : Option Nat :=
  s.asNat?.filter fun n => decide (n < bound)

/-- The setting as a truth value. -/
def asBool? : Setting → Option Bool
  | .flag b => some b
  | .integer n => some (n != 0)
  | .double x => some (x.toFloat != 0)
  | .text s =>
    if Text.lowered s = "1" ∨ Text.lowered s ∈ yesWords then some true
    else if Text.lowered s = "0" ∨ Text.lowered s ∈ noWords then some false
    else none
  | .missing | .list _ | .table _ => none

/-- The setting as a double. -/
def asFloat? : Setting → Option Float
  | .double x => some x.toFloat
  | .integer n => some (if n < 0 then -(Float.ofNat n.natAbs) else Float.ofNat n.natAbs)
  | .flag b => some (if b then 1 else 0)
  | .text s =>
    if Text.lowered s ∈ yesWords then some 1
    else if Text.lowered s ∈ noWords then some 0
    else (Decimal.double? s.toList).map Binary64.toFloat
  | .missing | .list _ | .table _ => none

def asText? : Setting → Option String
  | .text s => some s
  | .flag b => some (if b then "true" else "false")
  | .integer n => some (toString n)
  | .double x => some x.messageText
  | .missing | .list _ | .table _ => none

/-- The setting as a value that may be missing. -/
def asOption? {α : Type} (read : Setting → Option α) : Setting → Option (Option α)
  | .missing => some none
  | s => (read s).map some

/-- The setting of a record's field, found in a table by its name and in a list by its place. -/
def field? (place : Nat) (name : String) : Setting → Option Setting
  | .table entries => entries.lookup name
  | .list items => items[place]?
  | _ => none

/-- The value of a field, or its standard value if it is not set. -/
def fieldOr? {α : Type} (place : Nat) (name : String) (read : Setting → Option α) (standard : α)
    (s : Setting) : Option α :=
  match s.field? place name with
  | some value => read value
  | none => some standard

/-- The setting can hold the fields of a record. -/
def isRecord : Setting → Bool
  | .table _ | .list _ => true
  | _ => false

end Setting

end AuditTrail
