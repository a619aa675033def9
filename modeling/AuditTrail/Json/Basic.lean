import AuditTrail.CoreInstances
import AuditTrail.Decimal.Binary64
/-!
# JSON values

A value is a tree. Objects keep their members in the order in which they are written, so that the
same type serves a record, whose members come in a fixed order, and a free-form object, whose
members are sorted by key.

Three leaves stand for places where a text that is being read has no value: `unusable` for one that
is correct JSON but cannot be held (a number beyond the doubles, half of a surrogate pair, too many
levels), `keyless` for the value of a key that cannot be held, and `malformed` for the place from
which on the text is no JSON. A value without them is *sound*. It is *normal* when its objects are
also sorted by key at every depth; normal values are equal exactly when they hold the same data, and
`FreeFields` packages the members of one. Of equal keys the normal order keeps the last one only, so
flaws are looked for before members are brought into it.
-/

namespace AuditTrail

open scoped CoreInstances

open Decimal (Binary64)

/-- A number as JSON tells numbers apart: integers that fit 64 bits, and doubles. -/
inductive Number where
  /-- A natural number. -/
  | natural (n : UInt64)
  /-- The number `-n`. -/
  | negative (n : UInt64)
  | double (x : Binary64)
deriving DecidableEq, Repr

/-- A number in the form that reading gives it: a negative integer is below zero and fits 64 signed
bits, a double is finite. -/
def Number.isNormal : Number → Bool
  | .natural _ => true
  | .negative n => decide (0 < n.toNat ∧ n.toNat ≤ 2 ^ (63 : Nat))
  | .double x => x.isFinite

/-- What keeps a place in a text from having a value. -/
inductive Flaw where
  /-- Correct JSON that no value can hold. -/
  | unusable
  /-- Correct JSON behind a key that cannot be held. -/
  | keyless
  /-- From here on the text is no JSON. -/
  | malformed
deriving DecidableEq, Repr

/-- A JSON value, or a text read as far as it is one. -/
inductive Json where
  | null
  | bool (b : Bool)
  | number (n : Number)
  | string (s : String)
  | array (items : List Json)
  | object (members : List (String × Json))
  | flawed (flaw : Flaw)

namespace Json

/-- The natural number `n`. -/
def nat (n : Nat) : Json := .number (.natural (UInt64.ofNat n))

/-- The unsigned word `n`. -/
def word (n : UInt64) : Json := .number (.natural n)

/-- A double, or null for a value that is not finite. -/
def real (f : Float) : Json :=
  let x := Binary64.ofFloat f
  if x.isFinite then .number (.double x) else .null

/-- A value that may be missing, null when it is. -/
def orNull {α : Type} (write : α → Json) : Option α → Json
  | none => .null
  | some a => write a

/-- A member that is left out when its value is missing. -/
def memberIfSome {α : Type} (name : String) (write : α → Json) : Option α → List (String × Json)
  | none => []
  | some a => [(name, write a)]

/-- A list of texts. -/
def strings (ss : List String) : Json := .array (ss.map .string)

/-- The member of an object with this key, the last one if there are several. -/
def member? (name : String) : Json → Option Json
  | .object members => members.reverse.lookup name
  | _ => none

/-! ## Normal values -/

mutual

/-- The text was JSON throughout. -/
def isSkippable : Json → Bool
  | .null | .bool _ | .number _ | .string _ => true
  | .array items => areSkippable items
  | .object members => haveSkippable members
  | .flawed flaw => decide (flaw ≠ .malformed)

/-- Each item was JSON throughout. -/
def areSkippable : List Json → Bool
  | [] => true
  | j :: rest => isSkippable j && areSkippable rest

/-- Each member's value was JSON throughout. -/
def haveSkippable : List (String × Json) → Bool
  | [] => true
  | (_, j) :: rest => isSkippable j && haveSkippable rest

end

mutual

/-- No flaws, and numbers in the form that reading gives them. Keys may come in any order and
repeatedly. -/
def isSound : Json → Bool
  | .null | .bool _ | .string _ => true
  | .number n => n.isNormal
  | .array items => areSound items
  | .object members => haveSound members
  | .flawed _ => false

/-- Every item is sound. -/
def areSound : List Json → Bool
  | [] => true
  | j :: rest => isSound j && areSound rest

/-- Every member's value is sound. -/
def haveSound : List (String × Json) → Bool
  | [] => true
  | (_, j) :: rest => isSound j && haveSound rest

end

/-- Members sorted by key with `key` put in its place, unless the key is there already. -/
def insertAbsent (key : String) (value : Json) : List (String × Json) → List (String × Json)
  | [] => [(key, value)]
  | (k, v) :: rest =>
    if key < k then (key, value) :: (k, v) :: rest
    else if key = k then (k, v) :: rest
    else (k, v) :: insertAbsent key value rest

mutual

/-- The value with the members of every object sorted by key, the last of equal keys kept. -/
def normalize : Json → Json
  | .array items => .array (normalizeItems items)
  | .object members => .object (normalizeMembers members)
  | .null => .null
  | .bool b => .bool b
  | .number n => .number n
  | .string s => .string s
  | .flawed flaw => .flawed flaw

/-- Every item in normal order. -/
def normalizeItems : List Json → List Json
  | [] => []
  | j :: rest => normalize j :: normalizeItems rest

def normalizeMembers : List (String × Json) → List (String × Json)
  | [] => []
  | (k, j) :: rest => insertAbsent k (normalize j) (normalizeMembers rest)

end

/-- The keys of some members increase strictly. -/
def keysIncrease : List (String × Json) → Bool
  | [] => true
  | [_] => true
  | (k, _) :: (k', j') :: rest => decide (k < k') && keysIncrease ((k', j') :: rest)

mutual

/-- No flaws, numbers in the form that reading gives them, and keys increasing at every depth. -/
def isNormal : Json → Bool
  | .null | .bool _ | .string _ => true
  | .number n => n.isNormal
  | .array items => areNormal items
  | .object members => keysIncrease members && haveNormal members
  | .flawed _ => false

/-- Every item is normal. -/
def areNormal : List Json → Bool
  | [] => true
  | j :: rest => isNormal j && areNormal rest

/-- Every member's value is normal. -/
def haveNormal : List (String × Json) → Bool
  | [] => true
  | (_, j) :: rest => isNormal j && haveNormal rest

end

mutual

/-- How many arrays and objects lie inside each other at most. -/
def levels : Json → Nat
  | .null | .bool _ | .number _ | .string _ | .flawed _ => 0
  | .array items => levelsOfItems items + 1
  | .object members => levelsOfMembers members + 1

def levelsOfItems : List Json → Nat
  | [] => 0
  | j :: rest => max (levels j) (levelsOfItems rest)

/-- The most levels that a member's value has. -/
def levelsOfMembers : List (String × Json) → Nat
  | [] => 0
  | (_, j) :: rest => max (levels j) (levelsOfMembers rest)

end

end Json

/-- The members of a normal object: keys sorted, each once, at every depth. -/
structure FreeFields where
  /-- The members in the order of their keys. -/
  members : List (String × Json)
  normal : (Json.object members).isNormal = true

namespace FreeFields

/-- No members. -/
def empty : FreeFields := ⟨[], rfl⟩

/-- The members brought into normal order; nothing if one of them has a flaw, even one that another
member with the same key follows. -/
def ofMembers? (members : List (String × Json)) : Option FreeFields :=
  if h : Json.haveSound members = true ∧
      (Json.object (Json.normalizeMembers members)).isNormal = true then
    some ⟨Json.normalizeMembers members, h.2⟩
  else none

end FreeFields

end AuditTrail
