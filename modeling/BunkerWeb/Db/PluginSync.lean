import BunkerWeb.Db.PluginRemoval
import BunkerWeb.Db.TemplateEdit

/-!
# Synchronisation of plugins

`update_external_plugins` of `Database.py`. For each plugin that it is given, the rows that the
database has of it are compared, table by table, with what its `plugin.json` and its directory say.
Rows are changed and removed at once, and new rows are put together at the commit.
-/

namespace BunkerWeb.Db

open Lib Lib.Lines

/-! ## Plugins as they are given -/

/-- An option of a `multiselect`. -/
structure OptionInput where
  id : String
  label : String
  value : String

/-- A setting of `plugin.json`; `name` is its `"id"`. An item of the options that is not an object
is `none`. -/
structure SettingInput where
  key : String
  name : String
  context : Context
  default : String
  help : String
  label : String
  regex : String
  type : SettingType
  multiple : Option String
  separator : Option String
  accept : Option String
  select : List String
  multiselect : List (Option OptionInput)

structure JobInput where
  name : String
  file : String
  every : Schedule
  reload : Option Bool
  async : Option Bool

structure PluginInput where
  id : String
  name : String
  description : String
  version : String
  stream : StreamType
  method : Method
  data : Option String
  checksum : Option String
  settings : List SettingInput
  jobs : List JobInput
  page : Bool
  /-- `bwcli`: the names of the commands with their files. -/
  commands : List (String × String)

structure StepData where
  title : String
  subtitle : Option String
  settings : List String
  configs : List String

structure TemplateData where
  name : Option String
  steps : List StepData
  settings : List (String × String)
  configs : List String

/-- A file of the directory `templates`; without data it is not valid JSON. -/
structure TemplateFile where
  stem : String
  data : Option TemplateData

/-- `create_plugin_tar_gz`, with the SHA-256 of the archive. -/
structure Archive where
  data : String
  checksum : String

/-- The directory of a plugin. The directory `ui` may be there and not let itself be archived. -/
structure PluginDir where
  ui : Option (Option Archive)
  /-- The files below `bwcli`. -/
  commandFiles : List String
  templates : Option (List TemplateFile)
  /-- The contents of `templates/<template>/configs/<type>/<name>`. -/
  configFiles : List ((String × String × String) × ByteArray)

/-- What `is_valid_setting` reads besides the settings. -/
structure Validator where
  services : List String
  /-- `re.search` for an expression, a text and `DOTALL`; `none` when the expression is invalid. -/
  search : String → String → Bool → Option Bool
  ignoreRegexCheck : Bool

/-- What a call reads besides the database and its arguments. -/
structure SyncEnv extends Validator where
  directory : String → PluginDir
  bytesHash : ByteArray → String
  /-- Whether the database takes the integer identity of a row of `Template_settings` (that has
  these template, setting, step and suffix) to be equal to a text. -/
  identityIs : String × String × Nat × Nat → String → Bool
  /-- The error of a commit that would leave these tables. -/
  commit : PluginDb → Option String

/-! ## Rows -/

namespace PluginDb

def empty : PluginDb := ⟨[], [], [], [], [], [], [], [], [], [], [], [], [], [], [], none⟩

/-- `_add_ordered`. -/
def add (db rows : PluginDb) : PluginDb where
  plugins := db.plugins ++ rows.plugins
  settings := db.settings ++ rows.settings
  selects := db.selects ++ rows.selects
  multiselects := db.multiselects ++ rows.multiselects
  globalValues := db.globalValues ++ rows.globalValues
  servicesSettings := db.servicesSettings ++ rows.servicesSettings
  jobs := db.jobs ++ rows.jobs
  jobsCache := db.jobsCache ++ rows.jobsCache
  jobsRuns := db.jobsRuns ++ rows.jobsRuns
  pages := db.pages ++ rows.pages
  commands := db.commands ++ rows.commands
  templates := db.templates ++ rows.templates
  templateSteps := db.templateSteps ++ rows.templateSteps
  templateSettings := db.templateSettings ++ rows.templateSettings
  templateConfigs := db.templateConfigs ++ rows.templateConfigs
  metadata := db.metadata

end PluginDb

def PluginInput.row (type : PluginType) (p : PluginInput) : Plugin :=
  ⟨p.id, p.name, p.description, p.version, p.stream, type, p.method, p.data, p.checksum⟩

/-- The row after the updates: the archive is taken over when the checksum is another one. -/
def PluginInput.update (type : PluginType) (p : PluginInput) (row : Plugin) : Plugin :=
  { row with
    name := p.name
    description := p.description
    version := p.version
    stream := p.stream
    type := type
    method := p.method
    checksum := p.checksum
    data := if p.checksum = row.checksum then row.data else p.data }

def SettingInput.row (s : SettingInput) (pluginId : String) (order : Nat) : SettingRow :=
  ⟨s.key, s.name, pluginId, s.context, s.default, s.help, s.label, s.regex, s.type, s.multiple,
    s.separator, s.accept, order⟩

/-- The row of a setting that is new: its column has a default for the separator. -/
def SettingInput.newRow (s : SettingInput) (pluginId : String) (order : Nat) : SettingRow :=
  { s.row pluginId order with separator := some (s.separator.getD " ") }

def SettingInput.selects (s : SettingInput) : List Select :=
  (s.select.zipIdx 1).map fun e => ⟨s.key, e.1, e.2⟩

def SettingInput.multiselects (s : SettingInput) : List Multiselect :=
  (s.multiselect.zipIdx 1).filterMap fun e =>
    e.1.map fun o => ⟨s.key, o.id, o.label, o.value, e.2⟩

def JobInput.row (j : JobInput) (pluginId : String) : Job :=
  ⟨j.name, pluginId, j.file, j.every, j.reload.getD false, j.async.getD false⟩

/-- The checksums are the same and not empty. -/
def SameContents (p : PluginInput) (row : Plugin) : Prop :=
  p.checksum = row.checksum ∧ p.checksum ≠ none ∧ p.checksum ≠ some ""

instance (p : PluginInput) (row : Plugin) : Decidable (SameContents p row) :=
  instDecidableAnd

/-! ## Templates -/

/-- `setting.rsplit("_", 1)` for a key that `SUFFIX_RX` finds something in. -/
def rsplitKey (key : String) : String × Nat :=
  match suffixRx key with
  | some (setting, suffix) => (setting, parseInt suffix)
  | none => (key, 0)

/-- The row that `is_valid_setting` finds: it also looks for the setting after the name of a
service. -/
def findSetting (v : Validator) (settings : List SettingRow) (setting : String) :
    Option SettingRow :=
  match settings.find? (·.id = setting) with
  | some row => some row
  | none =>
    match v.services.find? fun s => setting.startsWith (s ++ "_") with
    | some service => settings.find? (·.id = setting.replace (service ++ "_") "")
    | none => none

/-- `is_valid_setting` with `multisite`. -/
def isValidSetting (v : Validator) (settings : List SettingRow) (setting value : String) : Bool :=
  let (id, multiple) := match suffixRx setting with
    | some (id, _) => (id, true)
    | none => (setting, false)
  match findSetting v settings id with
  | none => false
  | some row =>
    row.context = .multisite && (!multiple || row.multiple.isSome) &&
      (v.ignoreRegexCheck || v.search row.regex value (row.type = .file) = some true)

/-- Whether a template may have a setting: it is not restricted, the plugin or the database knows
it, and its default is valid. -/
def templateAllows (env : SyncEnv) (known own : List String) (db : PluginDb)
    (setting value : String) : Bool :=
  setting ∉ restrictedTemplateSettings && (setting ∈ own || setting ∈ known) &&
    isValidSetting env.toValidator db.settings setting value

/-- The first step that has the setting. -/
def settingStep (steps : List StepData) (setting : String) : Option Nat :=
  ((steps.zipIdx 1).find? fun e => setting ∈ e.1.settings).map Prod.snd

def configStep (steps : List StepData) (config : String) : Option Nat :=
  ((steps.zipIdx 1).find? fun e => config ∈ e.1.configs).map Prod.snd

/-- The row of a custom config that a template names, if its type is right, its file exists and it
belongs to a step. -/
def configRow (bytesHash : ByteArray → String) (dir : PluginDir) (templateId : String)
    (steps : List StepData) (config : String) (order : Nat) : Option TemplateConfig := do
  let (rawType, rawName) ← splitFirst '/' config.toList
  if String.ofList (rawType.map fun c => if c = '-' then '_' else c) ∉ multisiteCustomConfigTypes
  then none
  let content ← dir.configFiles.lookup (templateId, String.ofList rawType, String.ofList rawName)
  let step ← configStep steps config
  return ⟨templateId, step, String.ofList (normalizeType (stripChars rawType)),
    String.ofList (removeSuffix rawName), content, bytesHash content, order⟩

def templateInsert (p : PluginInput) (stem : String) (d : TemplateData) : Template :=
  ⟨stem, d.name.getD stem, some p.id, p.method⟩

/-- How a custom config of the database is referred to. -/
def configReference (c : TemplateConfig) : String :=
  String.ofList (c.type.toList.map fun ch => if ch = '_' then '-' else ch) ++ "/" ++ c.name ++ ".conf"

/-! ## A turn of the loop -/

/-- The tables as the session has them, the rows to put, and whether something has changed. -/
structure Turn where
  db : PluginDb
  put : PluginDb
  changes : Bool

namespace Turn

def change (t : Turn) (f : PluginDb → PluginDb) : Turn := { t with db := f t.db, changes := true }

def add (t : Turn) (rows : PluginDb) : Turn := { t with put := t.put.add rows, changes := true }

end Turn

/-! ### The plugin, its settings, jobs, page and commands -/

def syncRow (type : PluginType) (p : PluginInput) (row : Plugin) (t : Turn) : Turn :=
  if p.update type row = row then t
  else t.change fun db =>
    { db with plugins := db.plugins.map fun r => if r.id = p.id then p.update type r else r }

def removeSettings (missing : List String) (db : PluginDb) : PluginDb :=
  { db with
    settings := db.settings.filter (·.id ∉ missing)
    selects := db.selects.filter (·.settingId ∉ missing)
    multiselects := db.multiselects.filter (·.settingId ∉ missing)
    servicesSettings := db.servicesSettings.filter (·.settingId ∉ missing)
    globalValues := db.globalValues.filter (·.settingId ∉ missing)
    templateSettings := db.templateSettings.filter (·.settingId ∉ missing) }

/-- The settings that the plugin no longer has go, unless its archive is the one that the database
has. -/
def dropSettings (p : PluginInput) (row : Plugin) (t : Turn) : Turn :=
  let missing := (settingsOf p.id t.db).filter (· ∉ p.settings.map SettingInput.key)
  if missing = [] ∨ SameContents p row then t else t.change (removeSettings missing)

/-- The options of a `select`, compared as far as both lists go. -/
def syncSelects (s : SettingInput) (t : Turn) : Turn :=
  if ((t.db.selects.filter (·.settingId = s.key)).zip s.selects).any fun e => e.1 ≠ e.2 then
    (t.change fun db => { db with selects := db.selects.filter (·.settingId ≠ s.key) }).add
      { PluginDb.empty with selects := s.selects }
  else t

def syncMultiselects (s : SettingInput) (t : Turn) : Turn :=
  if t.db.multiselects.filter (·.settingId = s.key) = s.multiselects then t
  else (t.change fun db =>
      { db with multiselects := db.multiselects.filter (·.settingId ≠ s.key) }).add
    { PluginDb.empty with multiselects := s.multiselects }

/-- One turn of the loop over the settings; `ids` are the settings that the plugin had. -/
def syncSetting (pluginId : String) (ids : List String) (t : Turn) (e : SettingInput × Nat) :
    Turn :=
  let (s, order) := e
  match t.db.settings.find? (·.id = s.key) with
  | some row =>
    if s.key ∉ ids then
      t.add { PluginDb.empty with
        settings := [s.newRow pluginId order]
        selects := s.selects
        multiselects := s.multiselects }
    else
      let t := if s.row row.pluginId order = row then t
        else t.change fun db =>
          { db with settings := db.settings.map fun r =>
              if r.id = s.key then s.row r.pluginId order else r }
      syncMultiselects s (syncSelects s t)
  | none =>
    t.add { PluginDb.empty with
      settings := [s.newRow pluginId order]
      selects := s.selects
      multiselects := s.multiselects }

def dropJobs (p : PluginInput) (t : Turn) : Turn :=
  let missing := (jobsOf p.id t.db).filter (· ∉ p.jobs.map JobInput.name)
  if missing = [] then t
  else t.change fun db =>
    { db with
      jobs := db.jobs.filter (·.name ∉ missing)
      jobsCache := db.jobsCache.filter (·.jobName ∉ missing)
      jobsRuns := db.jobsRuns.filter (·.jobName ∉ missing) }

/-- One turn of the loop over the jobs. The update of a job names a column that the table does not
have. -/
def syncJob (pluginId : String) (t : Turn) (j : JobInput) : Except String Turn :=
  match t.db.jobs.find? fun row => row.name = j.name ∧ row.pluginId = pluginId with
  | none => .ok (t.add { PluginDb.empty with jobs := [j.row pluginId] })
  | some row =>
    if j.row pluginId = row then .ok t
    else .error "type object 'Jobs' has no attribute 'last_run'"

/-- The page of the plugin; `none` when its directory cannot be archived, which ends the turn. A
page that has not changed is removed. -/
def syncPage (pluginId : String) (ui : Option (Option Archive)) (t : Turn) : Option Turn :=
  let without := t.change fun db => { db with pages := db.pages.filter (·.pluginId ≠ pluginId) }
  match ui, t.db.pages.find? (·.pluginId = pluginId) with
  | none, none => some t
  | none, some _ => some without
  | some none, _ => none
  | some (some a), none =>
    some (t.add { PluginDb.empty with pages := [⟨pluginId, a.data, a.checksum⟩] })
  | some (some a), some page =>
    if a.checksum = page.checksum then some without
    else some (t.change fun db =>
      { db with pages := db.pages.map fun r =>
          if r.pluginId = pluginId then ⟨pluginId, a.data, a.checksum⟩ else r })

def dropCommands (p : PluginInput) (t : Turn) : Turn :=
  { t with db := { t.db with commands := t.db.commands.filter fun c =>
      ¬ (c.pluginId = p.id ∧ c.name ∉ p.commands.map Prod.fst) } }

/-- One turn of the loop over the commands. -/
def syncCommand (pluginId : String) (files : List String) (t : Turn) (e : String × String) : Turn :=
  let (command, file) := e
  match t.db.commands.find? fun c => c.name = command ∧ c.pluginId = pluginId with
  | none =>
    if file ∈ files then t.add { PluginDb.empty with commands := [⟨command, pluginId, file⟩] } else t
  | some row =>
    if file = row.fileName then t
    else if file ∈ files then
      t.change fun db => { db with commands := db.commands.map fun c =>
        if c.name = command ∧ c.pluginId = pluginId then ⟨command, pluginId, file⟩ else c }
    else
      t.change fun db => { db with commands := db.commands.filter fun c =>
        ¬ (c.name = command ∧ c.pluginId = pluginId) }

/-! ### Its templates -/

/-- The numbers of the steps that the database does not have for the template. -/
def missingSteps (db : PluginDb) (templateId : String) (d : TemplateData) : List Nat :=
  (List.range' 1 d.steps.length).filter fun k =>
    ∀ s ∈ db.templateSteps, ¬ (s.id = k ∧ s.templateId = templateId)

/-- The deletions for steps that are missing. They look at the number of the step only. -/
def removeSteps (missing : List Nat) (db : PluginDb) : PluginDb :=
  { db with
    templateSettings := db.templateSettings.filter (·.stepId ∉ missing)
    templateConfigs := db.templateConfigs.filter (·.stepId ∉ missing)
    templateSteps := db.templateSteps.filter (·.id ∉ missing) }

def dropSteps (templateId : String) (d : TemplateData) (t : Turn) : Turn :=
  let missing := missingSteps t.db templateId d
  if missing = [] then t else t.change (removeSteps missing)

/-- The update of the steps with the number of `row`: of the title and the subtitle, what is not as
in `row`. -/
def retitle (e : StepData) (row : TemplateStep) (db : PluginDb) : PluginDb :=
  { db with templateSteps := db.templateSteps.map fun s =>
      if s.id = row.id then
        { s with
          title := if e.title = row.title then s.title else e.title
          subtitle := if e.subtitle = row.subtitle then s.subtitle else e.subtitle }
      else s }

/-- One turn of the loop over the steps. -/
def syncStep (templateId : String) (t : Turn) (e : StepData × Nat) : Turn :=
  match t.db.templateSteps.find? fun s => s.id = e.2 ∧ s.templateId = templateId with
  | none =>
    t.add { PluginDb.empty with templateSteps := [⟨e.2, templateId, e.1.title, e.1.subtitle⟩] }
  | some row =>
    if e.1.title = row.title ∧ e.1.subtitle = row.subtitle then t else t.change (retitle e.1 row)

/-- What looks like the removal of settings that are missing: the keys that the database does not
have are compared with the identities of rows. -/
def dropIdentities (env : SyncEnv) (templateId : String) (d : TemplateData) (t : Turn) : Turn :=
  let keys := (t.db.templateSettings.filter (·.templateId = templateId)).map fun s =>
    suffixedKey s.settingId s.suffix
  let missing := (d.settings.map Prod.fst).filter (· ∉ keys)
  if missing = [] then t
  else t.change fun db => { db with templateSettings := db.templateSettings.filter fun s =>
    ¬ ∃ key ∈ missing, env.identityIs (s.templateId, s.settingId, s.stepId, s.suffix) key = true }

/-- One turn of the loop over the settings of a template. -/
def syncTemplateSetting (env : SyncEnv) (known own : List String) (templateId : String)
    (steps : List StepData) (acc : Turn × Nat) (e : String × String) : Turn × Nat :=
  let (t, order) := acc
  let (setting, suffix) := rsplitKey e.1
  if ¬ templateAllows env known own t.db setting e.2 then
    ({ t with db := { t.db with templateSettings := t.db.templateSettings.filter fun s =>
        ¬ (s.templateId = templateId ∧ s.settingId = setting ∧ s.suffix = suffix) } }, order)
  else match settingStep steps e.1 with
    | none => (t, order)
    | some step =>
      match t.db.templateSettings.find? fun s =>
        s.templateId = templateId ∧ s.settingId = setting ∧ s.stepId = step ∧ s.suffix = suffix with
      | none =>
        (t.add { PluginDb.empty with
          templateSettings := [⟨templateId, setting, step, e.2, suffix, order⟩] }, order + 1)
      | some row =>
        if e.2 = row.default ∧ order = row.order then (t, order + 1)
        else
          (t.change fun db => { db with templateSettings := db.templateSettings.map fun s =>
            if s = row then { s with default := e.2, order := order } else s }, order + 1)

/-- The removal of custom configs that the database does not have under these references, by
name. -/
def dropConfigs (templateId : String) (d : TemplateData) (t : Turn) : Turn :=
  let references := (t.db.templateConfigs.filter (·.templateId = templateId)).map configReference
  let missing := d.configs.filter (· ∉ references)
  if missing = [] then t
  else t.change fun db => { db with templateConfigs := db.templateConfigs.filter (·.name ∉ missing) }

/-- One turn of the loop over the custom configs of a template. -/
def syncTemplateConfig (env : SyncEnv) (dir : PluginDir) (templateId : String)
    (steps : List StepData) (acc : Turn × Nat) (config : String) : Turn × Nat :=
  let (t, order) := acc
  match configRow env.bytesHash dir templateId steps config order with
  | none => (t, order)
  | some new =>
    match t.db.templateConfigs.find? fun c => c.templateId = templateId ∧ c.stepId = new.stepId ∧
      c.type = new.type ∧ c.name = new.name with
    | none => (t.add { PluginDb.empty with templateConfigs := [new] }, order + 1)
    | some row =>
      if new.checksum = row.checksum ∧ order = row.order then (t, order + 1)
      else
        (t.change fun db => { db with templateConfigs := db.templateConfigs.map fun c =>
          if c = row then { c with data := new.data, checksum := new.checksum, order := order }
          else c }, order + 1)

/-- The steps, settings and custom configs of a template. -/
def syncParts (env : SyncEnv) (known own : List String) (dir : PluginDir) (templateId : String)
    (d : TemplateData) (t : Turn) : Turn :=
  let t := dropSteps templateId d t
  let t := (d.steps.zipIdx 1).foldl (syncStep templateId) t
  let t := dropIdentities env templateId d t
  let t := (d.settings.foldl (syncTemplateSetting env known own templateId d.steps) (t, 0)).1
  let t := dropConfigs templateId d t
  (d.configs.foldl (syncTemplateConfig env dir templateId d.steps) (t, 0)).1

/-- One turn of the loop over the files of the templates. -/
def syncTemplate (env : SyncEnv) (known : List String) (p : PluginInput) (dir : PluginDir)
    (t : Turn) (f : TemplateFile) : Turn :=
  match f.data with
  | none => t
  | some d =>
    let t := if ∃ row ∈ t.db.templates, row.id = f.stem ∧ row.pluginId = some p.id then t
      else t.add { PluginDb.empty with templates := [templateInsert p f.stem d] }
    syncParts env known (p.settings.map SettingInput.key) dir f.stem d t

/-- The deletions for a template that the plugin no longer has. -/
def removeOwnTemplate (pluginId : String) (db : PluginDb) (id : String) : PluginDb :=
  { db with
    templateSteps := db.templateSteps.filter (·.templateId ≠ id)
    templateSettings := db.templateSettings.filter (·.templateId ≠ id)
    templateConfigs := db.templateConfigs.filter (·.templateId ≠ id)
    templates := db.templates.filter fun t => ¬ (t.id = id ∧ t.pluginId = some pluginId) }

/-- `saved_templates`. -/
def savedTemplates (files : List TemplateFile) : List String :=
  (files.filter (·.data.isSome)).map TemplateFile.stem

def syncTemplates (env : SyncEnv) (known : List String) (p : PluginInput) (dir : PluginDir)
    (t : Turn) : Turn :=
  let names := templatesOf p.id t.db
  match dir.templates with
  | none => { t with db := names.foldl (removeOwnTemplate p.id) t.db }
  | some files =>
    (names.filter (· ∉ savedTemplates files)).foldl
      (fun t id => t.change (removeOwnTemplate p.id · id))
      (files.foldl (syncTemplate env known p dir) t)

/-! ### A plugin that the database has, and a new one -/

/-- The turn of a plugin that the database has in `row`: an exception, or the turn and whether it
comes to its commit. -/
def updatePlugin (env : SyncEnv) (type : PluginType) (known : List String) (p : PluginInput)
    (row : Plugin) (db : PluginDb) : Except String (Turn × Bool) := do
  let dir := env.directory p.id
  let t := syncRow type p row ⟨db, .empty, false⟩
  let ids := settingsOf p.id t.db
  let t := dropSettings p row t
  let t := p.settings.zipIdx.foldl (syncSetting p.id ids) t
  let t ← p.jobs.foldlM (syncJob p.id) (dropJobs p t)
  match syncPage p.id dir.ui t with
  | none => return ({ t with put := .empty }, false)
  | some t =>
    let t := p.commands.foldl (syncCommand p.id dir.commandFiles) (dropCommands p t)
    return (syncTemplates env known p dir t, true)

/-- One turn of the loop over the settings of a new plugin: the rows, the next place and the
settings that were added. -/
def addSetting (db : PluginDb) (pluginId : String) (acc : PluginDb × Nat × List String)
    (s : SettingInput) : PluginDb × Nat × List String :=
  let (rows, order, own) := acc
  if ∃ row ∈ db.settings, row.id = s.key then acc
  else (rows.add { PluginDb.empty with
      settings := [s.newRow pluginId order]
      selects := s.selects
      multiselects := s.multiselects }, order + 1, own ++ [s.key])

def addTemplateSetting (env : SyncEnv) (known own : List String) (db : PluginDb)
    (templateId : String) (steps : List StepData) (acc : List TemplateSettingRow)
    (e : String × String) : List TemplateSettingRow :=
  let (setting, suffix) := rsplitKey e.1
  if templateAllows env known own db setting e.2 then
    match settingStep steps e.1 with
    | none => acc
    | some step => acc ++ [⟨templateId, setting, step, e.2, suffix, acc.length⟩]
  else acc

def addTemplateConfig (env : SyncEnv) (dir : PluginDir) (templateId : String)
    (steps : List StepData) (acc : List TemplateConfig) (config : String) : List TemplateConfig :=
  match configRow env.bytesHash dir templateId steps config acc.length with
  | none => acc
  | some row => acc ++ [row]

/-- The rows of a template of a new plugin. -/
def templateInserts (env : SyncEnv) (known own : List String) (db : PluginDb) (p : PluginInput)
    (dir : PluginDir) (f : TemplateFile) : PluginDb :=
  match f.data with
  | none => .empty
  | some d => { PluginDb.empty with
      templates := [templateInsert p f.stem d]
      templateSteps := (d.steps.zipIdx 1).map fun e => ⟨e.2, f.stem, e.1.title, e.1.subtitle⟩
      templateSettings := d.settings.foldl (addTemplateSetting env known own db f.stem d.steps) []
      templateConfigs := d.configs.foldl (addTemplateConfig env dir f.stem d.steps) [] }

/-- The page of a new plugin, if it says that it has one. -/
def pageRows (p : PluginInput) (dir : PluginDir) : List PluginPage :=
  match dir.ui with
  | some (some a) => if p.page then [⟨p.id, a.data, a.checksum⟩] else []
  | _ => []

/-- The turn of a plugin that the database does not have. -/
def addPlugin (env : SyncEnv) (type : PluginType) (known : List String) (p : PluginInput)
    (db : PluginDb) : Turn :=
  let dir := env.directory p.id
  let (rows, _, own) := p.settings.foldl (addSetting db p.id) (.empty, 0, [])
  let jobs := (p.jobs.filter fun j =>
    ¬ ∃ row ∈ db.jobs, row.name = j.name ∧ row.pluginId = p.id).map (JobInput.row · p.id)
  let commands := (p.commands.filter (·.2 ∈ dir.commandFiles)).map fun e => ⟨e.1, p.id, e.2⟩
  let rows := rows.add { PluginDb.empty with
    plugins := [p.row type]
    jobs := jobs
    pages := pageRows p dir
    commands := commands }
  ⟨db, ((dir.templates.getD []).map (templateInserts env known own db p dir)).foldl .add rows, true⟩

/-- Whether a plugin may be updated: its method is the one that the database has, or `autoconf`,
and it is no core plugin. -/
def MayUpdate (p : PluginInput) (row : Plugin) : Prop :=
  (p.method = row.method ∨ p.method = .autoconf) ∧ row.type ≠ .core

instance (p : PluginInput) (row : Plugin) : Decidable (MayUpdate p row) := instDecidableAnd

def syncPlugin (env : SyncEnv) (type : PluginType) (known : List String) (p : PluginInput)
    (db : PluginDb) : Except String (Turn × Bool) :=
  match db.plugins.find? (·.id = p.id) with
  | none => .ok (addPlugin env type known p db, true)
  | some row =>
    if MayUpdate p row then updatePlugin env type known p row db
    else .ok (⟨db, .empty, false⟩, false)

/-! ## The loop -/

/-- What was committed last, the tables as the session has them, the rows for the last commit, and
whether something has changed. -/
structure Session where
  saved : PluginDb
  db : PluginDb
  put : PluginDb
  changes : Bool

/-- The database after the call, and what it returns (`""` when it succeeds) or raises. -/
abbrev SyncResult := PluginDb × Except String String

/-- One turn of the loop over the plugins; its error is the result of a call that ends there. -/
def syncTurn (env : SyncEnv) (type : PluginType) (perPluginCommit : Bool) (known : List String)
    (s : Session) (p : PluginInput) : Except SyncResult Session :=
  match syncPlugin env type known p s.db with
  | .error e => .error (s.saved, .error e)
  | .ok (t, commits) =>
    let changes := s.changes || t.changes
    if commits = false then .ok { s with db := t.db, changes := changes }
    else if perPluginCommit = false then
      .ok { s with db := t.db, put := s.put.add t.put, changes := changes }
    else match env.commit (t.db.add t.put) with
      | some e => .error (s.saved, .ok e)
      | none => .ok ⟨t.db.add t.put, t.db.add t.put, s.put, changes⟩

/-- The flags and the last commit. -/
def finish (env : SyncEnv) (type : PluginType) (s : Session) : SyncResult :=
  let db := (if s.changes then withFlags (flagsOfType type) s.db else s.db).add s.put
  match env.commit db with
  | some e => (s.saved, .ok e)
  | none => (db, .ok "")

/-- The loop over the plugins, and the end of the call. -/
def syncPlugins (env : SyncEnv) (type : PluginType) (perPluginCommit : Bool)
    (plugins : List PluginInput) (s : Session) : SyncResult :=
  match plugins.foldlM (syncTurn env type perPluginCommit (s.db.settings.map SettingRow.id)) s with
  | .error r => r
  | .ok s => finish env type s

/-- The arguments of `update_external_plugins` that are not the plugins. -/
structure SyncOptions where
  type : PluginType
  deleteMissing : Bool
  onlyClearMetadata : Bool
  perPluginCommit : Bool

/-- `update_external_plugins`. -/
def updateExternalPlugins (env : SyncEnv) (readonly : Bool) (o : SyncOptions)
    (plugins : List PluginInput) (db : PluginDb) : SyncResult :=
  if readonly then (db, .ok "The database is read-only, the changes will not be saved")
  else if o.deleteMissing = false then
    syncPlugins env o.type o.perPluginCommit plugins ⟨db, db, .empty, false⟩
  else match deleteMissing o.type o.onlyClearMetadata (plugins.map PluginInput.id) db with
    | none => (db, .ok "")
    | some (cleaned, changed) =>
      if changed = true ∧ o.perPluginCommit = true then
        match env.commit cleaned with
        | some e => (db, .ok e)
        | none => syncPlugins env o.type true plugins ⟨cleaned, cleaned, .empty, true⟩
      else syncPlugins env o.type o.perPluginCommit plugins ⟨db, cleaned, .empty, changed⟩

end BunkerWeb.Db
