import AuditTrail.Config.Load
import AuditTrail.Proofs.Config.Environment
/-! # Text settings from the environment

A setting changes what lies below the first key of its name and nothing beside it
(`Setting.lookup_mergeAll`), and a value of the environment replaces what lies below it. So a text field
holds the text that the value of its variable comes out as (`Config.load_text_setting`). -/

namespace AuditTrail
set_option autoImplicit false

/-! ## Settings over settings -/

namespace SettingStep

theorem exists_key_of_takeKey? {cs rest : List Char} {step : SettingStep}
    (h : takeKey? cs = some (step, rest)) : ∃ name, step = .key name := by
  simp only [takeKey?] at h
  split at h
  · cases h
  · cases h
    exact ⟨_, rfl⟩

/-- The name of a setting begins with a key of the outermost table. -/
theorem exists_ofName (name : String) : ∃ front rest, ofName name = .key front :: rest := by
  unfold ofName
  cases hkey : takeKey? (Text.small name).toList with
  | none => exact ⟨Text.small name, [], by simp [hkey]⟩
  | some first =>
    obtain ⟨step, rest⟩ := first
    obtain ⟨front, rfl⟩ := exists_key_of_takeKey? hkey
    cases hmore : takeMore? rest.length rest with
    | none => exact ⟨Text.small name, [], by simp [hkey, hmore]⟩
    | some more => exact ⟨front, more, by simp [hkey, hmore]⟩

end SettingStep

namespace Setting

variable {key other : String} {value : Setting}

theorem lookup_replace_self (entries : List (String × Setting)) :
    (replace key value entries).lookup key = some value := by
  induction entries with
  | nil => simp [replace]
  | cons entry rest ih =>
    obtain ⟨k, v⟩ := entry
    rw [replace]
    by_cases hk : k = key
    · rw [if_pos hk, List.lookup_cons_self]
    · rw [if_neg hk, List.lookup_cons, beq_false_of_ne (Ne.symm hk)]
      exact ih

theorem lookup_replace_ne (h : other ≠ key) (entries : List (String × Setting)) :
    (replace key value entries).lookup other = entries.lookup other := by
  induction entries with
  | nil => simp [replace, h]
  | cons entry rest ih =>
    obtain ⟨k, v⟩ := entry
    rw [replace]
    by_cases hk : k = key
    · rw [if_pos hk, hk, List.lookup_cons, List.lookup_cons, beq_false_of_ne h]
    · rw [if_neg hk, List.lookup_cons, List.lookup_cons, ih]

/-- Some of the entries is placed at a key of the outermost table or below it. -/
def Sets (key : String) (entries : List (String × Setting)) : Prop :=
  ∃ entry ∈ entries, (SettingStep.ofName entry.1).head? = some (.key key)

instance (key : String) (entries : List (String × Setting)) : Decidable (Sets key entries) :=
  inferInstanceAs (Decidable (∃ entry ∈ entries, _))

/-- A setting laid at its place leaves the other keys of the outermost table. -/
theorem lookup_mergeAt {name : String} (h : (SettingStep.ofName name).head? ≠ some (.key key))
    (base : Setting) : (mergeAt value base (SettingStep.ofName name)).entries.lookup key =
      base.entries.lookup key := by
  obtain ⟨front, rest, hname⟩ := SettingStep.exists_ofName name
  rw [hname] at h ⊢
  have hne : key ≠ front := by
    rintro rfl
    exact h rfl
  rw [mergeAt, entries, lookup_replace_ne hne]

/-- Settings that are all placed elsewhere leave a key of the outermost table. -/
theorem lookup_mergeAll {entries : List (String × Setting)} (h : ¬ Sets key entries)
    (base : Setting) : (mergeAll base entries).entries.lookup key = base.entries.lookup key := by
  induction entries generalizing base with
  | nil => rfl
  | cons entry rest ih =>
    have hentry : (SettingStep.ofName entry.1).head? ≠ some (.key key) :=
      fun hhead => h ⟨entry, List.mem_cons_self, hhead⟩
    have hrest : ¬ Sets key rest :=
      fun ⟨other, hother, hhead⟩ => h ⟨other, List.mem_cons_of_mem entry hother, hhead⟩
    exact (ih hrest _).trans (lookup_mergeAt hentry base)

/-- What is laid over a table is a table. -/
theorem exists_mergeAll_table (below entries : List (String × Setting)) :
    ∃ above, mergeAll (.table below) entries = .table above := by
  induction entries generalizing below with
  | nil => exact ⟨below, rfl⟩
  | cons entry rest ih =>
    -- the first step is to a key, never to an item, so a table is laid over a table
    obtain ⟨front, more, hname⟩ := SettingStep.exists_ofName entry.1
    obtain ⟨above, habove⟩ := ih (replace front
      (mergeAt entry.2 ((below.lookup front).getD (.table [])) more) below)
    refine ⟨above, ?_⟩
    rw [← habove, mergeAll, List.foldl_cons, hname, mergeAt]
    rfl

theorem fieldOr?_of_lookup {α : Type} {place : Nat} {read : Setting → Option α} {standard : α}
    {entries : List (String × Setting)} (h : entries.lookup key = some value) :
    (table entries).fieldOr? place key read standard = read value := by
  rw [fieldOr?, field?, h]

end Setting

/-- A value of the environment replaces what lies below it. -/
theorem Environment.merge_ofValue (base : Setting) (v : String) :
    Setting.merge base (ofValue v) = ofValue v := by
  rcases ofValue_cases v with ⟨b, -, hvalue⟩ | ⟨n, -, hvalue⟩ | ⟨x, -, -, hvalue⟩ | ⟨-, -, hvalue⟩ <;>
    rw [hvalue, Setting.merge]

/-! ## Text settings -/

/-- The settings that are texts and have a text as standard value. -/
inductive TextSetting where
  | systemVersion
  | jurisdiction
  | serverHost
deriving DecidableEq, Repr

namespace TextSetting

/-- The key of the outermost table. -/
def key : TextSetting → String
  | systemVersion => "system_version"
  | jurisdiction => "jurisdiction"
  | serverHost => "server_host"

/-- The variable of the environment that stands for the setting. -/
def variableName : TextSetting → String
  | systemVersion => "COMPLIANCE__SYSTEM_VERSION"
  | jurisdiction => "COMPLIANCE__JURISDICTION"
  | serverHost => "COMPLIANCE__SERVER_HOST"

def get (config : Config) : TextSetting → String
  | systemVersion => config.systemVersion
  | jurisdiction => config.jurisdiction
  | serverHost => config.serverHost

theorem settingName?_variableName (f : TextSetting) :
    Environment.settingName? f.variableName = some f.key := by
  cases f <;> decide +kernel

theorem ofName_key (f : TextSetting) : SettingStep.ofName f.key = [.key f.key] := by
  cases f <;> decide +kernel

end TextSetting

namespace Config

/-- A text setting is the text that stands at its key, if anything does. -/
theorem asText?_of_ofSetting? {entries : List (String × Setting)} {config : Config}
    (h : ofSetting? (.table entries) = some config) (f : TextSetting) {s : Setting}
    (hs : entries.lookup f.key = some s) : s.asText? = some (f.get config) := by
  unfold ofSetting? at h
  simp only [Option.bind_eq_bind, Option.bind_eq_some_iff, Option.pure_def, Option.some.injEq] at h
  obtain ⟨-, -, _, -, _, -, _, -, version, hversion, place, hplace, _, -, _, -, host, hhost, _, -,
    _, -, _, -, rfl⟩ := h
  cases f with
  | systemVersion => exact (Setting.fieldOr?_of_lookup hs).symm.trans hversion
  | jurisdiction => exact (Setting.fieldOr?_of_lookup hs).symm.trans hplace
  | serverHost => exact (Setting.fieldOr?_of_lookup hs).symm.trans hhost

theorem exists_of_load {store : FileStore} {path : Option String}
    {environment : List (String × String)} {config : Config}
    (h : load store path environment = .ok config) :
    ∃ below, optionalFileSettings store path = .ok below ∧
      ofSetting? (Setting.mergeAll (Setting.mergeAll (.table []) below)
        (Environment.settings environment)) = some config := by
  unfold load at h
  cases hbelow : optionalFileSettings store path with
  | error fault =>
    rw [hbelow] at h
    cases h
  | ok below =>
    rw [hbelow] at h
    refine ⟨below, rfl, ?_⟩
    simp only [ofLayers] at h
    split at h
    · cases h
    · rename_i given hgiven
      split at h
      · cases h
        exact hgiven
      · cases h

/-- A variable gives the value at its key, whatever lies below, if the others set nothing there. -/
theorem lookup_of_variable (f : TextSetting) (base : Setting) {before after : List (String × String)}
    (value : String) (hothers : ¬ Setting.Sets f.key (Environment.settings (before ++ after))) :
    (base.mergeAll (Environment.settings
      (before ++ (f.variableName, value) :: after))).entries.lookup f.key =
        some (Environment.ofValue value) := by
  rw [Environment.settings, List.filterMap_append] at hothers
  have hafter : ¬ Setting.Sets f.key (Environment.settings after) :=
    fun ⟨entry, hentry, hhead⟩ => hothers ⟨entry, List.mem_append_right _ hentry, hhead⟩
  have hsettings : Environment.settings (before ++ (f.variableName, value) :: after) =
      Environment.settings before ++ (f.key, Environment.ofValue value) ::
        Environment.settings after := by
    rw [Environment.settings, List.filterMap_append, List.filterMap_cons, f.settingName?_variableName]
    rfl
  rw [hsettings, Setting.mergeAll, List.foldl_append, List.foldl_cons, f.ofName_key, Setting.mergeAt,
    Setting.mergeAt, Environment.merge_ofValue]
  -- the value is in place now, and what comes behind leaves it there
  exact (Setting.lookup_mergeAll hafter _).trans (Setting.lookup_replace_self _)

/-- **A text setting from the environment comes out as the text of what it looks like.** Whatever the
file holds, and whatever the other variables hold if none sets the same field: what looks like a truth
value or a number becomes the form in which that is written, and any other text stays. So the field
holds the value exactly when the value is kept, and what it holds is kept but for the zero below
zero. -/
theorem load_text_setting (f : TextSetting) {store : FileStore} {path : Option String}
    (before : List (String × String)) {after : List (String × String)} {value : String}
    {config : Config}
    (hothers : ¬ Setting.Sets f.key (Environment.settings (before ++ after)))
    (h : load store path (before ++ (f.variableName, value) :: after) = .ok config) :
    (Environment.ofValue value).asText? = some (f.get config) ∧
      (f.get config = value ↔ Environment.IsKept value) ∧
      (Environment.IsKept (f.get config) ∨ f.get config = "-0") := by
  obtain ⟨below, -, hgiven⟩ := exists_of_load h
  obtain ⟨file, hfile⟩ := Setting.exists_mergeAll_table [] below
  rw [hfile] at hgiven
  have hlookup := lookup_of_variable f (.table file) value hothers
  obtain ⟨entries, hentries⟩ := Setting.exists_mergeAll_table file
    (Environment.settings (before ++ (f.variableName, value) :: after))
  rw [hentries] at hgiven hlookup
  have htext := asText?_of_ofSetting? hgiven f hlookup
  refine ⟨htext, ?_, Environment.isKept_of_asText?_ofValue htext⟩
  rw [← Environment.asText?_ofValue_eq_self_iff, htext, Option.some.injEq]

/-- A store with a file of settings. -/
def storeOfSettings : FileStore :=
  ⟨[(["c.toml"], .file "jurisdiction = \"EU\"\n".toUTF8)], [], fun _ => none, 0⟩

/-- A version that is the form of a double is kept, above a file and among other variables. -/
theorem load_text_setting_half : ∃ config,
    load storeOfSettings (some "c.toml") [("COMPLIANCE__RETENTION_DAYS", "30"),
      ("COMPLIANCE__SYSTEM_VERSION", "2.5"), ("COMPLIANCE__SERVER_HOST", "::1")] = .ok config ∧
    config.jurisdiction = "EU" ∧ config.systemVersion = "2.5" := by
  have hload : (load storeOfSettings (some "c.toml") [("COMPLIANCE__RETENTION_DAYS", "30"),
      ("COMPLIANCE__SYSTEM_VERSION", "2.5"), ("COMPLIANCE__SERVER_HOST", "::1")]).toOption.map
        (·.jurisdiction) = some "EU" := by
    decide +kernel
  have hothers : ¬ Setting.Sets TextSetting.systemVersion.key (Environment.settings
      [("COMPLIANCE__RETENTION_DAYS", "30"), ("COMPLIANCE__SERVER_HOST", "::1")]) := by
    decide +kernel
  have hkept : Environment.IsKept "2.5" :=
    Environment.asText?_ofValue_eq_self_iff.mp (by decide +kernel)
  cases h : load storeOfSettings (some "c.toml") [("COMPLIANCE__RETENTION_DAYS", "30"),
      ("COMPLIANCE__SYSTEM_VERSION", "2.5"), ("COMPLIANCE__SERVER_HOST", "::1")] with
  | error fault =>
    rw [h] at hload
    cases hload
  | ok config =>
    rw [h] at hload
    have htext := load_text_setting .systemVersion [("COMPLIANCE__RETENTION_DAYS", "30")] hothers h
    exact ⟨config, rfl, Option.some.inj hload, htext.2.1.mpr hkept⟩

/-- A version that looks like a double but ends in a zero loses the zero. -/
theorem load_version_shortened : Text.isAllBlank "1.10" = false ∧
    (load ⟨[], [], fun _ => none, 0⟩ none [("COMPLIANCE__SYSTEM_VERSION", "1.10")]).toOption.map
      (·.systemVersion) = some "1.1" := by
  decide +kernel

end Config

end AuditTrail
