import AuditTrail.Json.Basic
/-!
# Decoding JSON

How a value of a type is taken from a JSON tree. A decoder walks the tree in order and stops at the
first fault, so a text with two faults has the fault that comes first.

A record is read from an object by the names of its fields or from an array by their places. A name
that the record does not know is skipped, a name that comes twice is refused. A field may be missing
or not as its `Absence` says.
-/

namespace AuditTrail

/-- Why a tree is no value of a type. -/
inductive Fault where
  /-- The text is no JSON, or holds something that no value can hold. -/
  | malformed
  /-- The text is JSON, but of another shape. -/
  | mismatch
deriving DecidableEq, Repr

/-- Taking a value of a type from a tree. -/
abbrev Decoder (α : Type) : Type := Json → Except Fault α

namespace Json

/-- The fault of a tree that is not of the shape asked for. -/
def faultOf : Json → Fault
  | .flawed _ => .malformed
  | _ => .mismatch

def asString : Decoder String
  | .string s => .ok s
  | j => .error j.faultOf

/-- A truth value. -/
def asBool : Decoder Bool
  | .bool b => .ok b
  | j => .error j.faultOf

/-- A natural number of 64 bits. -/
def asWord : Decoder UInt64
  | .number (.natural n) => .ok n
  | j => .error j.faultOf

/-- A natural number below a bound. -/
def asNatBelow (bound : Nat) (j : Json) : Except Fault Nat :=
  match j.asWord with
  | .ok n => if n.toNat < bound then .ok n.toNat else .error .mismatch
  | .error fault => .error fault

/-- A number of any kind as a double. -/
def asFloat : Decoder Float
  | .number (.natural n) => .ok n.toFloat
  | .number (.negative n) => .ok (-n.toFloat)
  | .number (.double x) => .ok x.toFloat
  | j => .error j.faultOf

/-- A value, or null for none. -/
def asOption {α : Type} (read : Decoder α) : Decoder (Option α)
  | .null => .ok none
  | j => (read j).map some

/-- The items of an array, each read in turn. -/
def asList {α : Type} (read : Decoder α) : Decoder (List α)
  | .array items => items.mapM read
  | j => .error j.faultOf

/-- One of some words, written as a text or as an object whose only member has the word for its key
and null for its value. -/
def asWordOf {α : Type} (words : List (String × α)) : Decoder α
  | .string s =>
    match words.lookup s with
    | some a => .ok a
    | none => .error .mismatch
  | .object [(s, .null)] =>
    match words.lookup s with
    | some a => .ok a
    | none => .error .mismatch
  | j => .error j.faultOf

/-! ## Records -/

/-- When a field may be missing. -/
inductive Absence where
  /-- Never. -/
  | required
  /-- Where fields are named, but not where they are told apart by their places. -/
  | nullable
  /-- Always. -/
  | defaulted
deriving DecidableEq, Repr

/-- A field of a record: its name, a check of its value, and when it may be missing. -/
structure Field where
  name : String
  absence : Absence
  check : Json → Except Fault Unit

/-- A field that may not be missing. -/
def Field.of {α : Type} (name : String) (read : Decoder α) : Field :=
  ⟨name, .required, fun j => (read j).map fun _ => ()⟩

def Field.nullable {α : Type} (name : String) (read : Decoder α) : Field :=
  ⟨name, .nullable, fun j => (asOption read j).map fun _ => ()⟩

/-- A field that is null when it is missing, also where fields are told apart by their places. -/
def Field.optional {α : Type} (name : String) (read : Decoder α) : Field :=
  ⟨name, .defaulted, fun j => (asOption read j).map fun _ => ()⟩

/-- A field that has a value of its own when it is missing. -/
def Field.defaulted {α : Type} (name : String) (read : Decoder α) : Field :=
  ⟨name, .defaulted, fun j => (read j).map fun _ => ()⟩

/-- The key in front of this value cannot be held. -/
def isKeyless : Json → Bool
  | .flawed .keyless => true
  | _ => false

/-- The members are checked in their order; `seen` holds the names met so far. -/
def checkNamed (fields : List Field) :
    List String → List (String × Json) → Except Fault (List String)
  | seen, [] => .ok seen
  | seen, (name, j) :: rest =>
    match fields.find? fun f => f.name == name with
    | none =>
      if j.isSkippable && !j.isKeyless then checkNamed fields seen rest else .error .malformed
    | some f =>
      if seen.contains name then .error .mismatch
      else
        match f.check j with
        | .error fault => .error fault
        | .ok _ => checkNamed fields (name :: seen) rest

/-- The items are checked against the fields at their places and named after them. -/
def checkPlaced : List Field → List Json → Except Fault (List (String × Json))
  | [], [] => .ok []
  | [], _ :: _ => .error .malformed
  | f :: fs, [] => if f.absence = .defaulted then checkPlaced fs [] else .error .mismatch
  | f :: fs, j :: js =>
    match f.check j with
    | .error fault => .error fault
    | .ok _ =>
      match checkPlaced fs js with
      | .error fault => .error fault
      | .ok members => .ok ((f.name, j) :: members)

/-- The members of a record with these fields, each of them checked. -/
def record (fields : List Field) : Json → Except Fault (List (String × Json))
  | .object members =>
    match checkNamed fields [] members with
    | .error fault => .error fault
    | .ok seen =>
      if fields.all fun f => f.absence != .required || seen.contains f.name then .ok members
      else .error .mismatch
  | .array items => checkPlaced fields items
  | j => .error j.faultOf

/-- The value of a field that is there. -/
def required {α : Type} (name : String) (read : Decoder α) (members : List (String × Json)) :
    Except Fault α :=
  match members.lookup name with
  | some j => read j
  | none => .error .mismatch

/-- The value of a field, or a value that stands for a missing one. -/
def withDefault {α : Type} (name : String) (read : Decoder α) (default : α)
    (members : List (String × Json)) : Except Fault α :=
  match members.lookup name with
  | some j => read j
  | none => .ok default

/-- The value of a field that may be null or missing. -/
def optional {α : Type} (name : String) (read : Decoder α) (members : List (String × Json)) :
    Except Fault (Option α) :=
  match members.lookup name with
  | some j => asOption read j
  | none => .ok none

end Json

end AuditTrail
