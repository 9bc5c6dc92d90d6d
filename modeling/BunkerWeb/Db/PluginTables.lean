import BunkerWeb.Db.Tables

/-!
# The tables of the plugins (`db/model.py`)

The rows that belong to a plugin: its settings with their options and values, its jobs, its page,
its commands and its templates. A table is the list of its rows, without their integer identity and
their dates. Nothing enforces the foreign keys when the database is SQLite.
-/

namespace BunkerWeb.Db

/-- `PLUGIN_TYPES_ENUM`. -/
inductive PluginType where
  | core
  | external
  | ui
  | pro
  deriving DecidableEq, Repr

/-- `STREAM_TYPES_ENUM`. -/
inductive StreamType where
  | no
  | yes
  | partially
  deriving DecidableEq, Repr

/-- `SCHEDULES_ENUM`. -/
inductive Schedule where
  | once
  | minute
  | hour
  | day
  | week
  deriving DecidableEq, Repr

structure Plugin where
  id : String
  name : String
  description : String
  version : String
  stream : StreamType
  type : PluginType
  method : Method
  data : Option String
  checksum : Option String
  deriving DecidableEq, Repr

/-- A row of `Settings`. -/
structure SettingRow where
  id : String
  name : String
  pluginId : String
  context : Context
  default : String
  help : String
  label : String
  regex : String
  type : SettingType
  multiple : Option String
  separator : Option String
  accept : Option String
  order : Nat
  deriving DecidableEq, Repr

structure Select where
  settingId : String
  value : String
  order : Nat
  deriving DecidableEq, Repr

structure Multiselect where
  settingId : String
  optionId : String
  label : String
  value : String
  order : Nat
  deriving DecidableEq, Repr

structure GlobalValue where
  settingId : String
  suffix : Nat
  cell : Cell
  deriving DecidableEq, Repr

structure ServiceSetting where
  serviceId : String
  settingId : String
  suffix : Nat
  cell : Cell
  deriving DecidableEq, Repr

structure Job where
  name : String
  pluginId : String
  fileName : String
  every : Schedule
  reload : Bool
  runAsync : Bool
  deriving DecidableEq, Repr

structure JobRun where
  jobName : String
  success : Bool
  deriving DecidableEq, Repr

structure PluginPage where
  pluginId : String
  data : String
  checksum : String
  deriving DecidableEq, Repr

/-- A row of `Bw_cli_commands`. -/
structure CliCommand where
  name : String
  pluginId : String
  fileName : String
  deriving DecidableEq, Repr

structure Template where
  id : String
  name : String
  pluginId : Option String
  method : Method
  deriving DecidableEq, Repr

structure TemplateStep where
  id : Nat
  templateId : String
  title : String
  subtitle : Option String
  deriving DecidableEq, Repr

/-- A row of `Template_settings`. -/
structure TemplateSettingRow where
  templateId : String
  settingId : String
  stepId : Nat
  default : String
  suffix : Nat
  order : Nat
  deriving DecidableEq, Repr

-- the instance of the core library, whatever else is imported
instance (priority := 2000) decidableEqBytes : DecidableEq ByteArray := ByteArray.instDecidableEq

/-- A row of `Template_custom_configs`. -/
structure TemplateConfig where
  templateId : String
  stepId : Nat
  type : String
  name : String
  data : ByteArray
  checksum : String
  order : Nat
  deriving DecidableEq

/-- The flags of `Metadata` that tell the scheduler and the web interface about plugins. -/
structure PluginFlags where
  externalPluginsChanged : Bool
  proPluginsChanged : Bool
  reloadUiPlugins : Bool
  deriving DecidableEq, Repr

structure PluginDb where
  plugins : List Plugin
  settings : List SettingRow
  selects : List Select
  multiselects : List Multiselect
  globalValues : List GlobalValue
  servicesSettings : List ServiceSetting
  jobs : List Job
  jobsCache : List JobCache
  jobsRuns : List JobRun
  pages : List PluginPage
  commands : List CliCommand
  templates : List Template
  templateSteps : List TemplateStep
  templateSettings : List TemplateSettingRow
  templateConfigs : List TemplateConfig
  metadata : Option PluginFlags
  deriving DecidableEq

end BunkerWeb.Db
