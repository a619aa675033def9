import AuditTrail.Config.Setting
import AuditTrail.Toml.Document
/-!
# Settings in TOML

The values of a settings file in TOML as settings. A date or time is a text; it may also be written
as a table with a key of its own in front.
-/

namespace AuditTrail.Toml

/-- The key of a table that stands for a date or a time. -/
def momentKey : String := "$__toml_private_datetime"

/-- The setting of a table that stands for a date or a time, told by the value of its key. -/
def momentSetting? : Value → Option Setting
  | .text s =>
    match Moment.read? false s.toList with
    | some (m, []) => some (.text (String.ofList m.write))
    | _ => none
  | _ => none

mutual

/-- The setting that a value gives. -/
def settingOf? : Value → Option Setting
  | .flag b => some (.flag b)
  | .integer n => some (.integer n)
  | .double x => some (.double x)
  | .text s => some (.text s)
  | .moment m => some (.text (String.ofList m.write))
  | .list items => (itemsOf? items).map .list
  | .table [] => some (.table [])
  | .table ((key, v) :: rest) =>
    if key = momentKey then momentSetting? v
    else (entriesOf? ((key, v) :: rest)).map .table

/-- The settings of some items. -/
def itemsOf? : List Value → Option (List Setting)
  | [] => some []
  | v :: rest => do return (← settingOf? v) :: (← itemsOf? rest)

/-- The settings of some entries. -/
def entriesOf? : List (String × Value) → Option (List (String × Setting))
  | [] => some []
  | (key, v) :: rest => do return (key, ← settingOf? v) :: (← entriesOf? rest)

end

def settings? (s : String) : Option (List (String × Setting)) :=
  match (read? s).bind fun entries => settingOf? (.table entries) with
  | some (.table entries) => some entries
  | _ => none

end AuditTrail.Toml
