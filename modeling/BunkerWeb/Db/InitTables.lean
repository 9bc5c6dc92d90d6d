import BunkerWeb.Db.PluginSync
import BunkerWeb.Lib.Reconcile

/-!
# Initialization of the tables

`init_tables` of `Database.py`, which brings the tables of the plugins to what the plugins of a
version say. It collects the rows that are to be there, compares each table with them, and applies
the changes of all tables together; at last it removes the settings of templates that are not
valid.
-/

namespace BunkerWeb.Db

open Lib

/-! ## The plugins -/

structure DefaultPlugin where
  id : String
  name : String
  description : String
  version : String
  stream : StreamType
  type : Option PluginType
  method : Option Method
  data : Option String
  checksum : Option String
  settings : List SettingInput
  jobs : List JobInput
  commands : List (String × String)

/-- An item of `default_plugins`. The general settings come without a plugin around them. -/
inductive DefaultInput where
  | general (settings : List SettingInput)
  | plugin (p : DefaultPlugin)

/-- `base_plugin`, with its settings, jobs and commands. -/
def DefaultInput.base : DefaultInput → DefaultPlugin
  | .general settings =>
    { id := "general"
      name := "General"
      description := "The general settings for the server"
      version := "0.1"
      stream := .partially
      type := some .core
      method := some .manual
      data := none
      checksum := none
      settings := settings
      jobs := []
      commands := [] }
  | .plugin p => p

/-- The plugins without the one that is no longer supported. -/
def supported (inputs : List DefaultInput) : List DefaultPlugin :=
  (inputs.map DefaultInput.base).filter (·.id ≠ "letsencrypt_dns")

structure InitEnv extends Validator where
  directory : PluginType → String → PluginDir
  bytesHash : ByteArray → String
  /-- The error of a statement or a commit that would leave these tables. -/
  commit : PluginDb → Option String

def DefaultPlugin.dir (env : InitEnv) (p : DefaultPlugin) : PluginDir :=
  env.directory (p.type.getD .core) p.id

def DefaultPlugin.row (p : DefaultPlugin) : Plugin :=
  ⟨p.id, p.name, p.description, p.version, p.stream, p.type.getD .core, p.method.getD .manual,
    p.data, p.checksum⟩

/-- The archive of the directory `ui`, if it can be made. -/
def DefaultPlugin.archive (env : InitEnv) (p : DefaultPlugin) : Option Archive :=
  (p.dir env).ui.join

/-- The templates of a plugin, with their names. -/
def DefaultPlugin.templates (env : InitEnv) (p : DefaultPlugin) : List (String × TemplateData) :=
  ((p.dir env).templates.getD []).filterMap fun f => f.data.map (f.stem, ·)

/-- The settings with their places. -/
def DefaultPlugin.settingItems (p : DefaultPlugin) :
    List ((String × String) × (SettingInput × Nat)) :=
  p.settings.zipIdx.map fun e => ((p.id, e.1.key), e)

def DefaultPlugin.jobItems (p : DefaultPlugin) : List ((String × String) × JobInput) :=
  p.jobs.map fun j => ((p.id, j.name), j)

def DefaultPlugin.pageItems (env : InitEnv) (p : DefaultPlugin) : List (String × Archive) :=
  ((p.archive env).map (p.id, ·)).toList

def DefaultPlugin.commandItems (p : DefaultPlugin) : List ((String × String) × String) :=
  p.commands.map fun e => ((p.id, e.1), e.2)

/-! ## The rows that are to be there -/

abbrev TemplateSettingKey := String × String × Nat × Nat × Nat

abbrev TemplateConfigKey := String × String × String × Nat × Nat

/-- One turn of the loop over the settings of a template. -/
def desiredSetting (saved : List String) (templateId : String) (steps : List StepData)
    (acc : List (TemplateSettingKey × String)) (e : String × String) :
    List (TemplateSettingKey × String) :=
  let (setting, suffix) := rsplitKey e.1
  if e.1 ∈ restrictedTemplateSettings ∨ setting ∉ saved then acc
  else match settingStep steps e.1 with
    | none => acc
    | some step => acc ++ [((templateId, setting, suffix, step, acc.length), e.2)]

/-- One turn of the loop over the custom configs of a template. -/
def desiredConfig (env : InitEnv) (dir : PluginDir) (templateId : String) (steps : List StepData)
    (acc : List (TemplateConfigKey × ByteArray × String)) (config : String) :
    List (TemplateConfigKey × ByteArray × String) :=
  match configRow env.bytesHash dir templateId steps config acc.length with
  | none => acc
  | some c => acc ++ [((templateId, c.type, c.name, c.stepId, c.order), c.data, c.checksum)]

/-- What the tables are to have, by the keys that the old rows are compared with. -/
structure Desired where
  plugins : Dict String Plugin
  settings : Dict (String × String) (SettingInput × Nat)
  selects : List Select
  multiselects : List Multiselect
  jobs : Dict (String × String) JobInput
  pages : Dict String Archive
  commands : Dict (String × String) String
  templates : Dict (Option String × String) (String × Method)
  steps : Dict (String × Nat) StepData
  templateSettings : Dict TemplateSettingKey String
  configs : Dict TemplateConfigKey (ByteArray × String)

/-- The loops over `default_plugins`; where one key comes twice the last one stays. -/
def desired (env : InitEnv) (plugins : List DefaultPlugin) : Desired :=
  let saved := plugins.flatMap fun p => p.settings.map SettingInput.key
  { plugins := .setAll ∅ (plugins.map fun p => (p.id, p.row))
    settings := .setAll ∅ (plugins.flatMap DefaultPlugin.settingItems)
    selects := (plugins.flatMap fun p => p.settings.flatMap SettingInput.selects).dedup
    multiselects := (plugins.flatMap fun p => p.settings.flatMap SettingInput.multiselects).dedup
    jobs := .setAll ∅ (plugins.flatMap DefaultPlugin.jobItems)
    pages := .setAll ∅ (plugins.flatMap (DefaultPlugin.pageItems env))
    commands := .setAll ∅ (plugins.flatMap DefaultPlugin.commandItems)
    templates := .setAll ∅ (plugins.flatMap fun p => (p.templates env).map fun t =>
      ((some p.id, t.1), t.2.name.getD t.1, p.method.getD .manual))
    steps := .setAll ∅ (plugins.flatMap fun p => (p.templates env).flatMap fun t =>
      (t.2.steps.zipIdx 1).map fun e => ((t.1, e.2), e.1))
    templateSettings := .setAll ∅ (plugins.flatMap fun p => (p.templates env).flatMap fun t =>
      t.2.settings.foldl (desiredSetting saved t.1 t.2.steps) [])
    configs := .setAll ∅ (plugins.flatMap fun p => (p.templates env).flatMap fun t =>
      t.2.configs.foldl (desiredConfig env (p.dir env) t.1 t.2.steps) []) }

/-! ## The tables -/

/-- A plugin is updated when its method is the same, and removed when its method is `manual`. -/
def pluginTable : Reconcile String Plugin Plugin String where
  key := Plugin.id
  index := id
  fresh k p := { p with id := k }
  merge _ p r := if r.method = p.method then { p with id := r.id } else r
  removable r := r.method = .manual

/-- An update of a setting sets the columns that the setting has a key for. -/
def settingTable :
    Reconcile (String × String) (SettingInput × Nat) SettingRow (String × String) where
  key r := (r.pluginId, r.id)
  index := id
  fresh k e := { e.1.newRow k.1 e.2 with id := k.2 }
  merge k e r :=
    { e.1.row k.1 e.2 with
      id := k.2
      multiple := e.1.multiple.or r.multiple
      separator := e.1.separator.or r.separator
      accept := e.1.accept.or r.accept }
  removable _ := true

def jobTable : Reconcile (String × String) JobInput Job (String × String) where
  key r := (r.pluginId, r.name)
  index := id
  fresh k j := { j.row k.1 with name := k.2 }
  merge k j _ := { j.row k.1 with name := k.2 }
  removable _ := true

/-- Pages are compared by their checksums. -/
def pageTable : Reconcile String Archive PluginPage String where
  key := PluginPage.pluginId
  index := id
  fresh k a := ⟨k, a.data, a.checksum⟩
  merge k a r := if r.checksum = a.checksum then r else ⟨k, a.data, a.checksum⟩
  removable _ := true

def commandTable : Reconcile (String × String) String CliCommand (String × String) where
  key r := (r.pluginId, r.name)
  index := id
  fresh k file := ⟨k.2, k.1, file⟩
  merge k file _ := ⟨k.2, k.1, file⟩
  removable _ := true

/-- Templates are compared by their names. -/
def templateTable :
    Reconcile (Option String × String) (String × Method) Template (Option String × String) where
  key r := (r.pluginId, r.id)
  index := id
  fresh k e := ⟨k.2, e.1, k.1, e.2⟩
  merge _ e r := if r.name = e.1 then r else { r with name := e.1, method := e.2 }
  removable _ := true

def stepTable : Reconcile (String × Nat) StepData TemplateStep (String × Nat) where
  key r := (r.templateId, r.id)
  index := id
  fresh k e := ⟨k.2, k.1, e.title, e.subtitle⟩
  merge k e _ := ⟨k.2, k.1, e.title, e.subtitle⟩
  removable _ := true

/-- The statements do not look at the place. -/
def templateSettingTable :
    Reconcile TemplateSettingKey String TemplateSettingRow (String × String × Nat × Nat) where
  key r := (r.templateId, r.settingId, r.suffix, r.stepId, r.order)
  index k := (k.1, k.2.1, k.2.2.2.1, k.2.2.1)
  fresh k default := ⟨k.1, k.2.1, k.2.2.2.1, default, k.2.2.1, k.2.2.2.2⟩
  merge _ default r := { r with default := default }
  removable _ := true

def configTable : Reconcile TemplateConfigKey (ByteArray × String) TemplateConfig
    (String × Nat × String × String) where
  key r := (r.templateId, r.type, r.name, r.stepId, r.order)
  index k := (k.1, k.2.2.2.1, k.2.1, k.2.2.1)
  fresh k e := ⟨k.1, k.2.2.2.1, k.2.1, k.2.2.1, e.1, e.2, k.2.2.2.2⟩
  merge _ e r := if r.checksum = e.2 then r else { r with data := e.1, checksum := e.2 }
  removable _ := true

/-- `managed_template_ids`. -/
def managedTemplates (db : PluginDb) : List String :=
  (db.templates.filter (·.pluginId.isSome)).map Template.id

/-! ## The changes -/

/-- The settings whose options are all deleted before the new ones are put. -/
def updatedSettings (selects : List Select) : List String := (selects.map Select.settingId).dedup

def updatedMultiSettings (multiselects : List Multiselect) : List String :=
  (multiselects.map Multiselect.settingId).dedup

/-- The options of other settings. -/
def staleSelects (desired old : List Select) : List Select :=
  old.filter fun s => s ∉ desired ∧ s.settingId ∉ updatedSettings desired

/-- `to_put`, `to_update` and `to_delete`, table by table. -/
structure Changes where
  plugins : Diff String Plugin Plugin String
  settings : Diff (String × String) (SettingInput × Nat) SettingRow (String × String)
  selects : List Select
  staleSelects : List Select
  multiselects : List Multiselect
  jobs : Diff (String × String) JobInput Job (String × String)
  pages : Diff String Archive PluginPage String
  commands : Diff (String × String) String CliCommand (String × String)
  templates : Diff (Option String × String) (String × Method) Template (Option String × String)
  steps : Diff (String × Nat) StepData TemplateStep (String × Nat)
  templateSettings : Diff TemplateSettingKey String TemplateSettingRow (String × String × Nat × Nat)
  configs : Diff TemplateConfigKey (ByteArray × String) TemplateConfig
    (String × Nat × String × String)

def changes (w : Desired) (db : PluginDb) : Changes :=
  let managed := managedTemplates db
  { plugins := pluginTable.diff w.plugins (db.plugins.filter fun _ => true)
    settings := settingTable.diff w.settings (db.settings.filter fun _ => true)
    selects := w.selects
    staleSelects := staleSelects w.selects db.selects
    multiselects := w.multiselects
    jobs := jobTable.diff w.jobs (db.jobs.filter fun _ => true)
    pages := pageTable.diff w.pages (db.pages.filter fun _ => true)
    commands := commandTable.diff w.commands (db.commands.filter fun _ => true)
    templates := templateTable.diff w.templates (db.templates.filter (·.pluginId.isSome))
    steps := stepTable.diff w.steps (db.templateSteps.filter (·.templateId ∈ managed))
    templateSettings := templateSettingTable.diff w.templateSettings
      (db.templateSettings.filter (·.templateId ∈ managed))
    configs := configTable.diff w.configs (db.templateConfigs.filter (·.templateId ∈ managed)) }

namespace Changes

def isEmpty (ch : Changes) : Bool :=
  ch.plugins.isEmpty && ch.settings.isEmpty && ch.selects.isEmpty && ch.staleSelects.isEmpty &&
    ch.multiselects.isEmpty && ch.jobs.isEmpty && ch.pages.isEmpty && ch.commands.isEmpty &&
    ch.templates.isEmpty && ch.steps.isEmpty && ch.templateSettings.isEmpty && ch.configs.isEmpty

/-- The deletions and the new rows. -/
def put (ch : Changes) (db : PluginDb) : PluginDb :=
  { db with
    plugins := pluginTable.put ch.plugins db.plugins
    settings := settingTable.put ch.settings db.settings
    selects := (db.selects.filter fun s =>
      s.settingId ∉ updatedSettings ch.selects ∧ s ∉ ch.staleSelects) ++ ch.selects
    multiselects := (db.multiselects.filter fun s =>
      s.settingId ∉ updatedMultiSettings ch.multiselects) ++ ch.multiselects
    jobs := jobTable.put ch.jobs db.jobs
    pages := pageTable.put ch.pages db.pages
    commands := commandTable.put ch.commands db.commands
    templates := templateTable.put ch.templates db.templates
    templateSteps := stepTable.put ch.steps db.templateSteps
    templateSettings := templateSettingTable.put ch.templateSettings db.templateSettings
    templateConfigs := configTable.put ch.configs db.templateConfigs }

def renamedSetting : String := "MODSECURITY_CRS_PLUGIN_URLS"

/-- The values of a setting that has got another name follow it when it is removed. -/
def rename (ch : Changes) (setting : String) : String :=
  if setting = renamedSetting ∧ renamedSetting ∈ ch.settings.delete.map Prod.snd then
    "MODSECURITY_CRS_PLUGINS"
  else setting

/-- The updates. -/
def update (ch : Changes) (db : PluginDb) : PluginDb :=
  { db with
    plugins := pluginTable.update ch.plugins db.plugins
    settings := settingTable.update ch.settings db.settings
    globalValues := db.globalValues.map fun v => { v with settingId := ch.rename v.settingId }
    servicesSettings := db.servicesSettings.map fun s =>
      { s with settingId := ch.rename s.settingId }
    jobs := jobTable.update ch.jobs db.jobs
    pages := pageTable.update ch.pages db.pages
    commands := commandTable.update ch.commands db.commands
    templates := templateTable.update ch.templates db.templates
    templateSteps := stepTable.update ch.steps db.templateSteps
    templateSettings := templateSettingTable.update ch.templateSettings db.templateSettings
    templateConfigs := configTable.update ch.configs db.templateConfigs }

end Changes

/-! ## `init_tables` -/

/-- Whether a row of a template has a valid value for a setting that templates may have. -/
def validRow (v : Validator) (settings : List SettingRow) (s : TemplateSettingRow) : Bool :=
  isValidSetting v settings (suffixedKey s.settingId s.suffix) s.default

/-- The last part: the settings of templates that are not valid are removed. -/
def checkTemplates (v : Validator) (db : PluginDb) : PluginDb :=
  { db with templateSettings := db.templateSettings.filter (validRow v db.settings) }

/-- `init_tables`: the database after the call, and the error or whether there were changes. -/
def initTables (env : InitEnv) (readonly : Bool) (inputs : List DefaultInput) (db : PluginDb) :
    PluginDb × Except String Bool :=
  if readonly then (db, .error "The database is read-only, the changes will not be saved")
  else
    let ch := changes (desired env (supported inputs)) db
    let flushed := ch.put db
    match env.commit flushed with
    | some e => (db, .error e)
    | none =>
      let updated := ch.update flushed
      match env.commit updated with
      | some e => (db, .error e)
      | none =>
        let checked := checkTemplates env.toValidator updated
        match env.commit checked with
        | some e => (updated, .error e)
        | none => (checked, .ok !ch.isEmpty)

end BunkerWeb.Db
