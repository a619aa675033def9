import AuditTrail.Decimal.Binary64
import AuditTrail.Toml.Moment
/-!
# Tables in TOML

A table grows as keys are set in it. How it came about tells what may still be done to it: a table
made by the name of a deeper table may be opened once, one made by a dotted key may get more dotted
keys, and one that has been opened takes keys only while it is open. Nothing is set twice.
-/

namespace AuditTrail.Toml

inductive Value where
  | flag (b : Bool)
  | integer (n : Int)
  | double (x : Decimal.Binary64)
  | text (s : String)
  | moment (m : Moment)
  | list (items : List Value)
  | table (entries : List (String × Value))

/-- How a table came about. -/
inductive TableKind where
  /-- By a name of its own between brackets. -/
  | opened
  /-- By the name of a deeper table. -/
  | implied
  /-- By a dotted key. -/
  | dotted
deriving DecidableEq, Repr

/-- What stands at a key of a table that still grows. -/
inductive Entry where
  | value (v : Value)
  | table (kind : TableKind) (entries : List (String × Entry))
  /-- Tables that make up a list, the last one first. -/
  | tables (items : List (List (String × Entry)))

/-- The entries of a table that still grows. -/
abbrev Entries : Type := List (String × Entry)

namespace Entries

/-- The entries with another one at a key. -/
def put (key : String) (entry : Entry) : Entries → Entries
  | [] => [(key, entry)]
  | (k, e) :: rest => if k = key then (key, entry) :: rest else (k, e) :: put key entry rest

/-- The entries with a value at a new key. -/
def add? (key : String) (v : Value) (entries : Entries) : Option Entries :=
  if (entries.lookup key).isSome then none else some (entries ++ [(key, .value v)])

/-- The entries with a value set by a dotted key: the keys in front, the next one given apart, and
the last one. -/
def define? (last : String) (v : Value) (key : String) : List String → Entries → Option Entries
  | [], entries =>
    match entries.lookup key with
    | none => some (entries ++ [(key, .table .dotted [(last, .value v)])])
    | some (.table .dotted inner) =>
      (add? last v inner).map fun inner => put key (.table .dotted inner) entries
    | some _ => none
  | next :: rest, entries =>
    match entries.lookup key with
    | none =>
      (define? last v next rest []).map fun inner => entries ++ [(key, .table .dotted inner)]
    | some (.table .opened _) | some (.value _) | some (.tables []) => none
    | some (.table kind inner) =>
      (define? last v next rest inner).map fun inner => put key (.table kind inner) entries
    | some (.tables (inner :: items)) =>
      (define? last v next rest inner).map fun inner => put key (.tables (inner :: items)) entries

/-- The entries with a value set by a key of one part or more. -/
def set? (v : Value) (entries : Entries) : List String → Option Entries
  | [] => none
  | [key] => add? key v entries
  | key :: next :: rest =>
    define? ((next :: rest).getLast (by simp)) v key (next :: rest).dropLast entries

/-- The entries changed inside the table that a name leads to, made if it is not there. The last
table of a list stands for the list. -/
def change? (change : Entries → Option Entries) : List String → Entries → Option Entries
  | [], entries => change entries
  | key :: rest, entries =>
    match entries.lookup key with
    | none => (change? change rest []).map fun inner => entries ++ [(key, .table .implied inner)]
    | some (.table kind inner) =>
      (change? change rest inner).map fun inner => put key (.table kind inner) entries
    | some (.tables (inner :: items)) =>
      (change? change rest inner).map fun inner => put key (.tables (inner :: items)) entries
    | some (.tables []) | some (.value _) => none

/-- The entries with a table opened at a key. -/
def openTable? (key : String) (entries : Entries) : Option Entries :=
  match entries.lookup key with
  | none => some (entries ++ [(key, .table .opened [])])
  | some (.table .implied inner) => some (put key (.table .opened inner) entries)
  | some _ => none

/-- The entries with one more table in the list at a key. -/
def openItem? (key : String) (entries : Entries) : Option Entries :=
  match entries.lookup key with
  | none => some (entries ++ [(key, .tables [[]])])
  | some (.tables items) => some (put key (.tables ([] :: items)) entries)
  | some _ => none

end Entries

mutual

/-- The value that an entry comes to. -/
def Entry.close : Entry → Value
  | .value v => v
  | .table _ entries => .table (closeEntries entries)
  | .tables items => .list (closeItems items).reverse

/-- The values that entries come to. -/
def closeEntries : List (String × Entry) → List (String × Value)
  | [] => []
  | (k, e) :: rest => (k, e.close) :: closeEntries rest

/-- The values that the tables of a list come to. -/
def closeItems : List (List (String × Entry)) → List Value
  | [] => []
  | entries :: rest => .table (closeEntries entries) :: closeItems rest

end

end AuditTrail.Toml
