import BunkerWeb.Db.PluginTables
import BunkerWeb.Lib.Lines
import BunkerWeb.Lib.Loop
import BunkerWeb.Text
import Mathlib.Data.List.Sort

/-!
# Templates of the user

`create_template` and `get_template_details` of `Database.py`. The payload is normalized on the way
in: texts are stripped, `None` is the empty text, and a reference to a custom config is brought to
the form `type/name.conf`.
-/

namespace BunkerWeb.Db

open Lib Lib.Lines

/-! ## The payload -/

structure StepInput where
  title : String
  subtitle : Option String
  settings : List String
  configs : List String

structure ConfigInput where
  type : String
  name : String
  data : String
  order : Option Int

structure TemplateInput where
  id : String
  pluginId : Option String
  name : String
  settings : List (String × Option String)
  steps : List StepInput
  configs : List ConfigInput
  method : Method

/-! ## Keys and references -/

/-- `MULTISITE_CUSTOM_CONFIG_TYPES`. -/
def multisiteCustomConfigTypes : List String :=
  ["server_http", "modsec_crs", "modsec", "server_stream", "crs_plugins_before",
    "crs_plugins_after"]

def restrictedTemplateSettings : List String := ["USE_TEMPLATE", "IS_DRAFT"]

/-- `_split_setting_key`. The search goes on after the last line break, which the dot of the
expression does not stand for. -/
def splitSettingKey (key : String) : String × Option Nat :=
  match suffixRx (String.ofList (key.toList.rtakeWhile (· ≠ '\n'))) with
  | some (setting, suffix) => (setting, some (parseInt suffix))
  | none => (key, none)

/-- `.replace("-", "_").lower()`, for texts that are compared with the types. -/
def normalizeType (type : List Char) : List Char :=
  type.map fun c => if c = '-' then '_' else c.toLower

def confSuffix : List Char := ['.', 'c', 'o', 'n', 'f']

/-- `.removesuffix(".conf")`. -/
def removeSuffix (name : List Char) : List Char :=
  if confSuffix <:+ name then name.take (name.length - 5) else name

/-- `.replace(".conf", "")`. -/
def removeConf : List Char → List Char
  | '.' :: 'c' :: 'o' :: 'n' :: 'f' :: s => removeConf s
  | c :: s => c :: removeConf s
  | [] => []

/-- A reference that is normalized: its type and its name. No type has a slash, so that the two
are the parts of the text at its first slash. -/
abbrev ConfigRef := String × String

def ConfigRef.text (r : ConfigRef) : String := r.1 ++ "/" ++ r.2 ++ ".conf"

/-- `_normalize_template_config_reference`. -/
def normalizeReference (reference : List Char) : Option ConfigRef :=
  match splitFirst '/' (stripChars reference) with
  | none => none
  | some (rawType, rawName) =>
    let type := String.ofList (normalizeType (stripChars rawType))
    let name := removeSuffix (stripChars rawName)
    if type ∉ multisiteCustomConfigTypes ∨ name = [] then none
    else some (type, String.ofList name)

/-- `cfg_name_conf.replace(".conf", "")`. -/
def configName (r : ConfigRef) : String := String.ofList (removeConf (r.2.toList ++ confSuffix))

/-! ## `_prepare_template_entities` -/

/-- One turn of the loop over the settings of the payload. -/
def normalizeSetting (known : Dict String String) (e : String × Option String) :
    Except String (Dict String String) :=
  if stripText e.1 = "" then .error "Template settings keys must be non-empty strings"
  else .ok (known.insert (stripText e.1) (e.2.getD ""))

def normalizeSettings (settings : List (String × Option String)) :
    Except String (Dict String String) := settings.foldlM normalizeSetting ∅

/-- What the loop over the steps builds: the steps, and the step of each setting and each custom
config, in the order in which the steps name them. -/
structure Assigned where
  steps : List TemplateStep
  settings : List (String × Nat)
  configs : List (ConfigRef × Nat)

def assignSetting (known : Dict String String) (index : Nat) (acc : List (String × Nat))
    (raw : String) : Except String (List (String × Nat)) :=
  let ref := stripText raw
  if known.lookup ref = none then
    .error ("Step " ++ toString index ++ " references unknown setting " ++ ref)
  else if ref ∈ acc.map Prod.fst then
    .error ("Setting " ++ ref ++ " is assigned to multiple steps")
  else .ok (acc ++ [(ref, index)])

def assignConfig (index : Nat) (acc : List (ConfigRef × Nat)) (raw : String) :
    Except String (List (ConfigRef × Nat)) :=
  match normalizeReference raw.toList with
  | none => .error ("Step " ++ toString index ++ " contains an invalid config reference")
  | some ref =>
    if ref ∈ acc.map Prod.fst then
      .error ("Config " ++ ref.text ++ " is assigned to multiple steps")
    else .ok (acc ++ [(ref, index)])

/-- `str(subtitle_value).strip() or None`. -/
def subtitleOf (subtitle : Option String) : Option String :=
  subtitle.bind fun s => if stripText s = "" then none else some (stripText s)

/-- One turn of the loop over the steps. -/
def addStep (templateId : String) (known : Dict String String) (acc : Assigned)
    (e : StepInput × Nat) : Except String Assigned :=
  let (step, index) := e
  let title := stripText step.title
  if title = "" then .error ("Step " ++ toString index ++ " must have a title")
  else do
    let settings ← step.settings.foldlM (assignSetting known index) acc.settings
    let configs ← step.configs.foldlM (assignConfig index) acc.configs
    return ⟨acc.steps ++ [⟨index, templateId, title, subtitleOf step.subtitle⟩], settings, configs⟩

/-- The row of a setting: `e` is its key with its step, and its place. The column turns no suffix
into `0`. -/
def settingEntity (templateId : String) (known : Dict String String) (e : (String × Nat) × Nat) :
    Except String TemplateSettingRow :=
  let ((key, step), order) := e
  let (id, suffix) := splitSettingKey key
  if id ∈ restrictedTemplateSettings then
    .error ("Setting " ++ id ++ " cannot be part of a template")
  else .ok ⟨templateId, id, step, (known.lookup key).getD "", suffix.getD 0, order⟩

/-- A custom config of the payload with its reference and its place. -/
structure RefConfig where
  ref : ConfigRef
  input : ConfigInput
  index : Nat

/-- One turn of the loop over the custom configs. -/
def addConfig (acc : List RefConfig) (e : ConfigInput × Nat) : Except String (List RefConfig) :=
  let (config, index) := e
  match normalizeReference
    (normalizeType (stripChars config.type.toList) ++ '/' :: stripChars config.name.toList) with
  | none => .error ("Invalid config definition at index " ++ toString (index + 1))
  | some ref =>
    if ref ∈ acc.map RefConfig.ref then .error ("Duplicate config " ++ ref.text)
    else .ok (acc ++ [⟨ref, config, index⟩])

def RefConfig.sortKey (c : RefConfig) : Int := c.input.order.getD c.index

/-- The tuples that `ordered_configs.sort()` compares. -/
def RefConfig.Before (a b : RefConfig) : Prop :=
  a.sortKey < b.sortKey ∨ (a.sortKey = b.sortKey ∧ a.index ≤ b.index)

instance : DecidableRel RefConfig.Before := fun _ _ => instDecidableOr

/-- The row of a custom config, with its place; `bytesHash` is the SHA-256 of the contents. -/
def configEntity (bytesHash : ByteArray → String) (templateId : String)
    (steps : List (ConfigRef × Nat)) (e : RefConfig × Nat) : TemplateConfig :=
  ⟨templateId, ((steps.find? (·.1 = e.1.ref)).map Prod.snd).getD 0, e.1.ref.1,
    configName e.1.ref, e.1.input.data.toUTF8, bytesHash e.1.input.data.toUTF8, e.2⟩

structure Entities where
  steps : List TemplateStep
  settings : List TemplateSettingRow
  configs : List TemplateConfig

/-- `_prepare_template_entities`. -/
def prepareTemplateEntities (bytesHash : ByteArray → String) (db : PluginDb) (templateId : String)
    (t : TemplateInput) : Except String Entities :=
  if t.steps = [] then .error "A template must contain at least one step"
  else do
    let known ← normalizeSettings t.settings
    let assigned ← (t.steps.zipIdx 1).foldlM (addStep templateId known) ⟨[], [], []⟩
    let unassigned := (t.settings.map fun e => stripText e.1).eraseDups.filter
      (· ∉ assigned.settings.map Prod.fst)
    if unassigned ≠ [] then
      .error ("Settings " ++ ", ".intercalate unassigned ++ " are not assigned to any step")
    else do
      let settings ← (assigned.settings.zipIdx 1).mapM (settingEntity templateId known)
      let missing := (settings.map (·.settingId)).dedup.filter (· ∉ db.settings.map SettingRow.id)
      if missing ≠ [] then
        .error ("Unknown settings: " ++ ", ".intercalate (missing.insertionSort (· ≤ ·)))
      else do
        let configs ← t.configs.zipIdx.foldlM addConfig []
        match assigned.configs.find? (·.1 ∉ configs.map RefConfig.ref) with
        | some (ref, _) => .error ("Step references unknown config " ++ ref.text)
        | none =>
          match configs.find? (·.ref ∉ assigned.configs.map Prod.fst) with
          | some c => .error ("Config " ++ c.ref.text ++ " is not assigned to any step")
          | none =>
            .ok ⟨assigned.steps, settings, ((configs.insertionSort RefConfig.Before).zipIdx 1).map
              (configEntity bytesHash templateId assigned.configs)⟩

/-! ## `create_template` -/

/-- The keys and unique constraints of the tables of the templates. -/
structure TemplateKeys (db : PluginDb) : Prop where
  templates : (db.templates.map Template.id).Nodup
  names : (db.templates.map Template.name).Nodup
  steps : (db.templateSteps.map fun s => (s.id, s.templateId)).Nodup
  settings : (db.templateSettings.map fun s =>
    (s.templateId, s.settingId, s.stepId, s.suffix)).Nodup
  settingOrders : (db.templateSettings.map fun s => (s.templateId, s.settingId, s.order)).Nodup
  configs : (db.templateConfigs.map fun c => (c.templateId, c.stepId, c.type, c.name)).Nodup
  configOrders : (db.templateConfigs.map fun c => (c.templateId, c.order)).Nodup

instance (db : PluginDb) : Decidable (TemplateKeys db) :=
  decidable_of_iff
    ((db.templates.map Template.id).Nodup ∧ (db.templates.map Template.name).Nodup ∧
      (db.templateSteps.map fun s => (s.id, s.templateId)).Nodup ∧
      (db.templateSettings.map fun s => (s.templateId, s.settingId, s.stepId, s.suffix)).Nodup ∧
      (db.templateSettings.map fun s => (s.templateId, s.settingId, s.order)).Nodup ∧
      (db.templateConfigs.map fun c => (c.templateId, c.stepId, c.type, c.name)).Nodup ∧
      (db.templateConfigs.map fun c => (c.templateId, c.order)).Nodup)
    ⟨fun ⟨h1, h2, h3, h4, h5, h6, h7⟩ => ⟨h1, h2, h3, h4, h5, h6, h7⟩,
      fun h => ⟨h.templates, h.names, h.steps, h.settings, h.settingOrders, h.configs,
        h.configOrders⟩⟩

/-- The plugin of a payload, if it names one. -/
def normalizedPlugin (t : TemplateInput) : Option String :=
  t.pluginId.bind fun p => if stripText p = "" then none else some (stripText p)

/-- The tables with the new template. -/
def withTemplate (db : PluginDb) (t : TemplateInput) (e : Entities) : PluginDb :=
  { db with
    templates := db.templates ++ [⟨stripText t.id, stripText t.name, normalizedPlugin t, t.method⟩]
    templateSteps := db.templateSteps ++ e.steps
    templateSettings := db.templateSettings ++ e.settings
    templateConfigs := db.templateConfigs ++ e.configs }

/-- `create_template`: the error, or the database after the commit. What the database system says
of a constraint that is broken is left out of the text. -/
def createTemplate (bytesHash : ByteArray → String) (readonly : Bool) (db : PluginDb)
    (t : TemplateInput) : Except String PluginDb :=
  let id := stripText t.id
  let name := stripText t.name
  if readonly then .error "The database is read-only, the changes will not be saved"
  else if id = "" then .error "Template id is required"
  else if name = "" then .error "Template name cannot be empty"
  else if id ∈ db.templates.map Template.id then .error ("Template " ++ id ++ " already exists")
  else if name ∈ db.templates.map Template.name then
    .error ("Template name " ++ name ++ " already exists")
  else
    match (normalizedPlugin t).filter (· ∉ db.plugins.map Plugin.id) with
    | some plugin => .error ("Plugin " ++ plugin ++ " does not exist")
    | none => do
      let entities ← prepareTemplateEntities bytesHash db id t
      if TemplateKeys (withTemplate db t entities) then .ok (withTemplate db t entities)
      else .error ("An error occurred while creating template " ++ id ++ ".\n")

/-! ## `get_template_details` -/

/-- A sequence of UTF-8 that has begun: its value so far, the number of bytes to come and the range
of the next one. -/
structure Sequence where
  value : Nat
  missing : Nat
  low : Nat
  high : Nat

def sequenceOf (b : Nat) : Option Sequence :=
  if 0xC2 ≤ b ∧ b ≤ 0xDF then some ⟨b - 0xC0, 1, 0x80, 0xBF⟩
  else if b = 0xE0 then some ⟨0, 2, 0xA0, 0xBF⟩
  else if b = 0xED then some ⟨0xD, 2, 0x80, 0x9F⟩
  else if 0xE1 ≤ b ∧ b ≤ 0xEF then some ⟨b - 0xE0, 2, 0x80, 0xBF⟩
  else if b = 0xF0 then some ⟨0, 3, 0x90, 0xBF⟩
  else if 0xF1 ≤ b ∧ b ≤ 0xF3 then some ⟨b - 0xF0, 3, 0x80, 0xBF⟩
  else if b = 0xF4 then some ⟨4, 3, 0x80, 0x8F⟩
  else none

/-- Starts a character at the byte `b`. -/
def decodeStart (b : Nat) : List Char × Option Sequence :=
  if b < 0x80 then ([Char.ofNat b], none)
  else match sequenceOf b with
    | some q => ([], some q)
    | none => (['\uFFFD'], none)

/-- The characters of bytes that are not valid UTF-8: each part that is the beginning of a
sequence, as long as can be, stands for one U+FFFD, and so does each byte that begins none. -/
def decodeBytes : Option Sequence → List UInt8 → List Char
  | none, [] => []
  | some _, [] => ['\uFFFD']
  | none, b :: s => (decodeStart b.toNat).1 ++ decodeBytes (decodeStart b.toNat).2 s
  | some q, b :: s =>
    if q.low ≤ b.toNat ∧ b.toNat ≤ q.high then
      let value := q.value * 64 + (b.toNat - 0x80)
      if q.missing = 1 then Char.ofNat value :: decodeBytes none s
      else decodeBytes (some ⟨value, q.missing - 1, 0x80, 0xBF⟩) s
    else '\uFFFD' :: (decodeStart b.toNat).1 ++ decodeBytes (decodeStart b.toNat).2 s

/-- `data.decode("utf-8", errors="replace")`. -/
def decodeReplace (data : ByteArray) : String :=
  match String.fromUTF8? data with
  | some text => text
  | none => String.ofList (decodeBytes none data.toList)

structure SettingDetails where
  key : String
  settingId : String
  suffix : Nat
  default : String
  stepId : Nat
  order : Nat
  deriving DecidableEq, Repr

structure ConfigDetails where
  key : String
  type : String
  name : String
  stepId : Nat
  data : String
  order : Nat
  deriving DecidableEq, Repr

structure StepDetails where
  id : Nat
  title : String
  subtitle : String
  settings : List String
  configs : List String
  deriving DecidableEq, Repr

structure TemplateDetails where
  id : String
  name : String
  pluginId : Option String
  method : Method
  steps : List StepDetails
  settings : List SettingDetails
  configs : List ConfigDetails
  deriving DecidableEq, Repr

def settingDetails (s : TemplateSettingRow) : SettingDetails :=
  ⟨suffixedKey s.settingId s.suffix, s.settingId, s.suffix, s.default, s.stepId, s.order⟩

def configDetails (c : TemplateConfig) : ConfigDetails :=
  ⟨ConfigRef.text (c.type, c.name), c.type, c.name, c.stepId, decodeReplace c.data, c.order⟩

def stepDetails (settings : List SettingDetails) (configs : List ConfigDetails)
    (s : TemplateStep) : StepDetails :=
  ⟨s.id, s.title, s.subtitle.getD "", (settings.filter (·.stepId = s.id)).map SettingDetails.key,
    (configs.filter (·.stepId = s.id)).map ConfigDetails.key⟩

/-- `get_template_details`. -/
def getTemplateDetails (db : PluginDb) (templateId : String) : Option TemplateDetails :=
  (db.templates.find? (·.id = templateId)).map fun t =>
    let steps := (db.templateSteps.filter (·.templateId = templateId)).insertionSort (·.id ≤ ·.id)
    let settings := ((db.templateSettings.filter (·.templateId = templateId)).insertionSort
      (·.order ≤ ·.order)).map settingDetails
    let configs := ((db.templateConfigs.filter (·.templateId = templateId)).insertionSort
      (·.order ≤ ·.order)).map configDetails
    ⟨t.id, t.name, t.pluginId, t.method, steps.map (stepDetails settings configs), settings,
      configs⟩

end BunkerWeb.Db
