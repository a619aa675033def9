import AuditTrail.Config.Setting
import AuditTrail.Text.Hex
import AuditTrail.Yaml.Node
/-!
# Settings in YAML

A settings file in YAML holds one document, whose root is a mapping, or none. Its scalars count as
what they look like, or as what their tags say; keys are texts or integers, each of them once.
-/

namespace AuditTrail.Yaml

open Decimal (Binary64)

/-- What a scalar says. -/
inductive ScalarValue where
  /-- It is not what its tag says. -/
  | unfit
  | missing
  | flag (b : Bool)
  | integer (n : Int)
  /-- A double, by its literal. -/
  | double (literal : List Char)
  | text (s : String)
deriving DecidableEq, Repr

/-! ## Plain scalars -/

/-- The integer of 64 bits that digits of a base write, with a sign or without. -/
def radixInteger? (base : Nat) (cs : List Char) : Option Int :=
  let (negative, ds) := Decimal.splitSign cs
  let values := ds.map fun c => (Text.Hex.digitValue? c.toNat).filter fun n => decide (n < base)
  if ds.isEmpty || values.any Option.isNone then none
  else
    let n := values.foldl (fun n d => base * n + d.getD 0) 0
    (some (if negative then -(n : Int) else n)).filter Setting.isInteger64

/-- The integer that a mark of its base or a plus sign stands before. -/
def markedInteger? : List Char → Option Int
  | '0' :: 'x' :: rest => radixInteger? 16 rest
  | '0' :: 'o' :: rest => radixInteger? 8 rest
  | '+' :: rest => Decimal.int64? rest
  | _ => none

/-- The words for infinities and for no number. -/
def doubleWords : List String :=
  [".inf", ".Inf", ".INF", "+.inf", "+.Inf", "+.INF", "-.inf", "-.Inf", "-.INF", ".nan", "NaN",
    ".NAN"]

/-- The literal of a double, or a word for one. -/
def isDouble (cs : List Char) : Bool :=
  doubleWords.contains (String.ofList cs) || (Decimal.double? cs).isSome

/-- What a plain scalar looks like. -/
def plainValue (s : String) : ScalarValue :=
  match markedInteger? s.toList with
  | some n => .integer n
  | none =>
    if s = "" ∨ s = "~" ∨ s = "null" then .missing
    else if s = "true" then .flag true
    else if s = "false" then .flag false
    else
      match Decimal.int64? s.toList with
      | some n => .integer n
      | none => if isDouble s.toList then .double s.toList else .text s

/-- What a plain scalar says when it has to be of a kind; unknown kinds are texts. -/
def taggedValue (kind s : String) : ScalarValue :=
  match kind with
  | "bool" => if s = "true" then .flag true else if s = "false" then .flag false else .unfit
  | "int" => ((Decimal.int64? s.toList).map .integer).getD .unfit
  | "float" => if isDouble s.toList then .double s.toList else .unfit
  | "null" => if s = "~" ∨ s = "null" then .missing else .unfit
  | _ => .text s

/-- What a scalar says. A tag counts only where the scalar is plain. -/
def scalarValue (style : ScalarStyle) (tag : Option Tag) (s : String) : ScalarValue :=
  match style, tag with
  | .plain, none => plainValue s
  | .plain, some t =>
    if t.handle = NodeReader.standardAddress then taggedValue t.suffix s else .text s
  | _, _ => .text s

/-- The setting that a scalar gives; nothing if its literal is only a word for a double. -/
def ScalarValue.setting? : ScalarValue → Option Setting
  | .unfit | .missing => some .missing
  | .flag b => some (.flag b)
  | .integer n => some (.integer n)
  | .double cs => (Decimal.double? cs).map .double
  | .text s => some (.text s)

/-! ## Mappings -/

/-- A key of a mapping. -/
inductive Key where
  | integer (n : Int)
  | text (s : String)
deriving DecidableEq, Repr

/-- The name of a setting that a key gives. -/
def Key.name : Key → String
  | .integer n => toString n
  | .text s => s

def Key.ofNode? : Node → Option Key
  | .scalar style tag s =>
    match scalarValue style tag s with
    | .integer n => some (.integer n)
    | .text s => some (.text s)
    | _ => none
  | _ => none

/-- A node that says nothing, not even that something is missing. It is passed over where a key is
expected. -/
def isUnfit : Node → Bool
  | .scalar style tag s => decide (scalarValue style tag s = .unfit)
  | .unknown => true
  | _ => false

mutual

/-- The setting that a node gives. -/
def settingOf? : Node → Option Setting
  | .scalar style tag s => (scalarValue style tag s).setting?
  | .sequence items => (itemsOf? items).map .list
  | .mapping parts => (entriesOf? none [] parts).map .table
  | .unknown => some .missing

/-- The settings of some items. -/
def itemsOf? : List Node → Option (List Setting)
  | [] => some []
  | n :: rest => do return (← settingOf? n) :: (← itemsOf? rest)

/-- The settings of some keys and values by turns; a key may already stand before them, and the keys
met so far must not come again. -/
def entriesOf? (key : Option Key) (seen : List Key) : List Node → Option (List (String × Setting))
  | [] => some []
  | n :: rest =>
    match key with
    | none =>
      if isUnfit n || rest.isEmpty then entriesOf? none seen rest
      else
        (Key.ofNode? n).bind fun key =>
          if seen.contains key then none else entriesOf? (some key) (key :: seen) rest
    | some key => do
      let value ← settingOf? n
      let entries ← entriesOf? none seen rest
      return (key.name, value) :: entries

end

def settings? (s : String) : Option (List (String × Setting)) :=
  match Node.ofText? s with
  | none => none
  | some none => some []
  | some (some n) =>
    match settingOf? n with
    | some (.table entries) => some entries
    | _ => none

end AuditTrail.Yaml
