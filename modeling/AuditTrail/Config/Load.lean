import AuditTrail.AuditError
import AuditTrail.Config.Environment
import AuditTrail.Config.Layers
import AuditTrail.Config.Overlay
import AuditTrail.Config.Toml
import AuditTrail.Config.Yaml
import AuditTrail.Json.Embedded
/-!
# Loading the configuration

The settings of a file, whose format its extension tells, lie below those of the environment. What
they give is validated.
-/

namespace AuditTrail

inductive SettingsFormat where
  | json
  | toml
  | yaml
deriving DecidableEq, Repr

namespace SettingsFormat

/-- The extensions with the formats that they tell. -/
def extensions : List (String × SettingsFormat) :=
  [("json", json), ("toml", toml), ("yaml", yaml), ("yml", yaml)]

/-- The format that an extension tells. -/
def ofExtension? (extension : String) : Option SettingsFormat := extensions.lookup extension

/-- The settings that a JSON text writes: an object whose values can all be held. -/
def readJson? (text : String) : Option (List (String × Setting)) := do
  match (← Json.embedded text).normalize with
  | .object members => some (Setting.ofMembers members)
  | _ => none

/-- The settings that a text writes in a format. -/
def read? (text : String) : SettingsFormat → Option (List (String × Setting))
  | .json => readJson? text
  | .toml => Toml.settings? text
  | .yaml => Yaml.settings? text

end SettingsFormat

namespace Config

/-- The file that a path stands for, with its format: the file there, or one beside it whose name
has one more extension. -/
def settingsFile? (store : FileStore) (path : String) : Option (String × SettingsFormat) :=
  if store.hasFile path then
    (Path.extension path).bind fun extension =>
      (SettingsFormat.ofExtension? extension).map fun format => (path, format)
  else if (Path.names path).getLast?.all [".", ".."].contains then none
  else
    (SettingsFormat.extensions.map fun e => (Path.withExtension path e.1, e.2)).find? fun found =>
      store.hasFile found.1

/-- The settings of the file that a path stands for. -/
def fileSettings? (store : FileStore) (path : String) : Option (List (String × Setting)) := do
  let (path, format) ← settingsFile? store path
  let text ← (store.readText path).toOption
  format.read? text

/-- The settings of the file at a path, if one is given. -/
def optionalFileSettings (store : FileStore) :
    Option String → Except AuditError (List (String × Setting))
  | none => .ok []
  | some path =>
    if store.has path then
      match fileSettings? store path with
      | some entries => .ok entries
      | none => .error .configUnreadable
    else .error (.configMissing path)

/-- The configuration that two layers of settings give, the second one above the first. -/
def ofLayers (below above : List (String × Setting)) : Except AuditError Config :=
  match ofSetting? (Setting.mergeAll (Setting.mergeAll (.table []) below) above) with
  | none => .error .configUnreadable
  | some config =>
    match config.check with
    | .ok _ => .ok config
    | .error fault => .error (.setting fault)

/-- The configuration of a file, if one is given, and an environment. -/
def load (store : FileStore) (path : Option String) (environment : List (String × String)) :
    Except AuditError Config :=
  match optionalFileSettings store path with
  | .error e => .error e
  | .ok entries => ofLayers entries (Environment.settings environment)

end Config

end AuditTrail
