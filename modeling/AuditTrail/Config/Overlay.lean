import AuditTrail.Config.Setting
import AuditTrail.Config.SettingPath
/-!
# Settings over settings

Sources of settings are laid over each other: a table joins the table below it, anything else
replaces what lies below. The keys of tables are kept in small letters; what stands in a list is
left as it is.
-/

namespace AuditTrail.Setting

/-- The entries of a table; anything else counts as an empty table. -/
def entries : Setting → List (String × Setting)
  | .table entries => entries
  | _ => []

/-- The items of a list; anything else counts as an empty list. -/
def items : Setting → List Setting
  | .list items => items
  | _ => []

/-- A table with another value for a key. -/
def replace (key : String) (value : Setting) : List (String × Setting) → List (String × Setting)
  | [] => [(key, value)]
  | (k, v) :: rest => if k = key then (key, value) :: rest else (k, v) :: replace key value rest

mutual

/-- A setting laid over another one. -/
def merge (base : Setting) : Setting → Setting
  | .table [] => base
  | .table (entry :: rest) => .table (mergeEntries base.entries (entry :: rest))
  | .missing => .missing
  | .flag b => .flag b
  | .integer n => .integer n
  | .double x => .double x
  | .text s => .text s
  | .list items => .list items

/-- The entries of a table laid over some entries. -/
def mergeEntries (base : List (String × Setting)) :
    List (String × Setting) → List (String × Setting)
  | [] => base
  | (k, v) :: rest =>
    let key := Text.small k
    mergeEntries (replace key (merge ((base.lookup key).getD (.table [])) v) base) rest

end

/-- The place in a list of some length that an index tells. -/
def placeOf (index : Int) (length : Nat) : Nat :=
  if 0 ≤ index then index.toNat else length - index.natAbs

/-- A list with another item at a place, made long enough for it. -/
def replaceItem (place : Nat) (value : Setting) (items : List Setting) : List Setting :=
  (items ++ List.replicate (place + 1 - items.length) Setting.missing).set place value

/-- A setting laid over the place that some steps lead to. Tables and lists are made on the way. -/
def mergeAt (value base : Setting) : List SettingStep → Setting
  | [] => merge base value
  | [.item index] => .list (replaceItem (placeOf index base.items.length) value base.items)
  | .key name :: rest =>
    let inner := mergeAt value ((base.entries.lookup name).getD (.table [])) rest
    .table (replace name inner base.entries)
  | .item index :: rest =>
    let place := placeOf index base.items.length
    .list (replaceItem place (mergeAt value (base.items[place]?.getD .missing) rest) base.items)

/-- Some entries of a source laid over a setting, each at the place that its name tells. -/
def mergeAll (base : Setting) (entries : List (String × Setting)) : Setting :=
  entries.foldl (fun base entry => mergeAt entry.2 base (SettingStep.ofName entry.1)) base

end AuditTrail.Setting
