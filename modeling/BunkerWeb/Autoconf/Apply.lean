import BunkerWeb.Autoconf.MergeServices
import BunkerWeb.Lib.Run
import BunkerWeb.Text

/-!
# Applying what a controller has read (`autoconf/Config.py`)

A `Config` object keeps a copy of what it was asked to apply last, and saves what differs from it.
`changesOf` is the first half of `apply`: it compares, and takes the copy over. The second half
saves, and each of its three saves may report an error.

Dictionaries are compared as Python does, whatever the order of their items; `update_needed`
compares their texts, which have that order.
-/

namespace BunkerWeb.Autoconf.Config

open Lib

variable {ι : Type}

/-- Custom configs by type and by file. -/
abbrev Configs := Dict String (Dict String (List UInt8))

/-- What a controller has read; its instances are of any type. -/
structure Inputs (ι : Type) where
  instances : List ι
  services : List Service
  configs : Configs
  extraConfig : Dict String String

inductive ControllerType where
  | docker
  | swarm
  | kubernetes
  deriving DecidableEq, Repr

/-- A `Config` object. -/
structure Object (ι : Type) where
  type : ControllerType
  settings : List String
  instances : List ι
  services : List Service
  configs : Configs
  config : Dict String String
  extraConfig : Dict String String
  appliedSettingsSignature : Option (List String)

/-- A custom config as `save_custom_configs` takes it. -/
structure CustomConfig where
  value : List UInt8
  site : Option String
  type : String
  name : String
  deriving DecidableEq, Repr

/-- What a call meets in the database. -/
structure Outside (ι : Type) where
  /-- `_try_database_readonly`. -/
  readonly : Bool
  /-- `wait_applying` comes to an end. -/
  ready : Bool
  /-- The identities that `get_services` returns; `none` when it raises. -/
  services : Option (List String)
  /-- `is_valid_setting`, with `multisite` and `extra_services`; `none` when it raises. -/
  isValidSetting : String → String → Bool → List String → Option Bool
  /-- The errors of the three saves. -/
  updateInstances : List ι → Option String
  saveConfig : Dict String String → Option String
  saveCustomConfigs : List CustomConfig → Option String

/-! ## Comparisons -/

/-- `==` of dictionaries. -/
def sameDict (d d' : Dict String String) : Bool := decide (d.entries.Perm d'.entries)

def sameServices (l l' : List Service) : Bool := l.isEqv l' sameDict

def sameConfigs (c c' : Configs) : Bool :=
  decide (c.entries.length = c'.entries.length) &&
    c.items.all fun e => (c'.lookup e.1).any fun files => decide (e.2.entries.Perm files.entries)

/-- `set(l) == set(l')`. -/
def sameSet {α : Type} [DecidableEq α] (l l' : List α) : Bool :=
  l.all (l'.contains ·) && l'.all (l.contains ·)

/-- `update_needed`, for the text `str` of an instance. -/
def updateNeeded (str : ι → String) (c : Object ι) (i : Inputs ι) : Bool :=
  !sameSet (c.instances.map str) (i.instances.map str) ||
    !sameSet (c.services.map Dict.items) (i.services.map Dict.items) ||
    !sameSet (c.configs.items.map fun e => (e.1, e.2.items))
      (i.configs.items.map fun e => (e.1, e.2.items)) ||
    !sameSet c.extraConfig.items i.extraConfig.items

/-! ## The environment of the services -/

/-- `service["SERVER_NAME"].split(" ")[0]`, which raises without a server name. -/
def serverName (service : Service) : Option String :=
  (service.lookup "SERVER_NAME").map fun v => String.ofList (v.toList.takeWhile (· ≠ ' '))

/-- One turn of the loop over the variables of a service. -/
def addVariable (o : Outside ι) (type : ControllerType) (dbServices : List String)
    (name : String) (config : Dict String String) (e : String × String) :
    Option (Dict String String) := do
  let (setting, value) := e
  if setting = "NAMESPACE" ∨ "CUSTOM_CONF".toList.isPrefixOf setting.toList then
    return config
  let extra := words ((config.lookup "SERVER_NAME").getD "") ++ dbServices
  let valid ← o.isValidSetting setting value true extra
  let isGlobal ← if !valid && type = .kubernetes then o.isValidSetting setting value false []
    else some false
  if !valid && !isGlobal then
    return config
  if isGlobal || (name ++ "_").toList.isPrefixOf setting.toList then
    return if setting = "SERVER_NAME" then config else config.insert setting value
  return config.insert (joinKey name setting) value

/-- `__get_full_env`. -/
def getFullEnv (o : Outside ι) (type : ControllerType) (services : List Service) :
    Option (Dict String String) := do
  let names ← services.mapM serverName
  let served := names.filter (· ≠ "")
  let config := Dict.ofItems [("SERVER_NAME", String.join (served.map (" " ++ ·))),
    ("MULTISITE", "yes")]
  let dbServices := (← o.services).filter (· ≠ "")
  let config ← (services.zip names).foldlM (fun config e =>
    if e.2 = "" then some config
    else e.1.items.foldlM (addVariable o type dbServices e.2) config) config
  return config.insert "SERVER_NAME" (stripText ((config.lookup "SERVER_NAME").getD ""))

/-! ## Changes -/

inductive Change where
  | instances
  | services
  | customConfigs
  | extraConfig
  | config
  deriving DecidableEq, Repr

structure Call (ι : Type) extends Inputs ι where
  first : Bool
  force : Bool
  outside : Outside ι

/-- `env | extra_config`. -/
def withExtra (env extra : Dict String String) : Dict String String := env.setAll extra.items

section

variable [BEq ι]

/-- The comparisons of the inputs with what the object has. -/
def changed (c : Object ι) (call : Call ι) : Change → Bool
  | .instances => !(call.instances == c.instances) || call.first
  | .services => !sameServices call.services c.services || call.first
  | .customConfigs => !sameConfigs call.configs c.configs || call.first
  | .extraConfig => !sameDict call.extraConfig c.extraConfig || call.first
  | .config => false

/-- The object after the comparisons. -/
def takeOver (c : Object ι) (call : Call ι) : Object ι :=
  { c with
    instances := if changed c call .instances then call.instances else c.instances
    services := if changed c call .services then call.services else c.services
    configs := if changed c call .customConfigs then call.configs else c.configs }

/-- The first half of `apply`: the object after it, and what has changed; `none` when a read of the
database raises. -/
def changesOf (c : Object ι) (call : Call ι) : Object ι × Option (List Change) :=
  let changes := [Change.instances, .services, .customConfigs, .extraConfig].filter (changed c call)
  let c := takeOver c call
  if .instances ∈ changes ∨ .services ∈ changes ∨ .extraConfig ∈ changes ∨ call.force = true then
    match getFullEnv call.outside c.type c.services with
    | none => (c, none)
    | some env =>
      let new := withExtra env call.extraConfig
      let differs := !sameDict c.config new || call.first
      ({ c with
          config := if differs then new else c.config
          extraConfig := if .extraConfig ∈ changes then call.extraConfig else c.extraConfig },
        some (if differs then changes ++ [.config] else changes))
  else (c, some changes)

end

/-! ## Saving -/

def supportedConfigTypes : List String :=
  ["http", "stream", "server-http", "server-stream", "default-server-http", "modsec", "modsec-crs",
    "crs-plugins-before", "crs-plugins-after"]

/-- The site and the name that the key of a file stands for. -/
def explodeFile (file : String) : Option String × String :=
  match file.splitOn "/" with
  | site :: name :: _ => (some site, name.replace ".conf" "")
  | _ => (none, file.replace ".conf" "")

/-- The list that `save_custom_configs` is given. -/
def customConfigsOf (configs : Configs) : List CustomConfig :=
  (configs.items.filter (·.1 ∈ supportedConfigTypes)).flatMap fun e =>
    e.2.items.map fun f => ⟨f.2, (explodeFile f.1).1, e.1, (explodeFile f.1).2⟩

/-- What the database took over last. -/
structure Saved (ι : Type) where
  instances : Option (List ι)
  config : Option (Dict String String)
  customConfigs : Option (List CustomConfig)

/-- The save of a change: whether it is made, and the error it reports. -/
def saveError (o : Outside ι) (c : Object ι) : Change → Option String
  | .instances => o.updateInstances c.instances
  | .config => o.saveConfig c.config
  | .customConfigs => o.saveCustomConfigs (customConfigsOf c.configs)
  | _ => none

/-- The database after the saves for the changes; one that reports an error leaves it. -/
def saveAll (o : Outside ι) (c : Object ι) (changes : List Change) (db : Saved ι) : Saved ι where
  instances := if .instances ∈ changes ∧ saveError o c .instances = none then some c.instances
    else db.instances
  config := if .config ∈ changes ∧ saveError o c .config = none then some c.config else db.config
  customConfigs := if .customConfigs ∈ changes ∧ saveError o c .customConfigs = none then
    some (customConfigsOf c.configs) else db.customConfigs

structure State (ι : Type) where
  object : Object ι
  db : Saved ι

inductive Answer where
  | returned (success : Bool)
  | raised
  deriving DecidableEq, Repr

/-- `apply`. An error of the instances does not make it return `False`. -/
def apply [BEq ι] (st : State ι) (call : Call ι) : Answer × State ι :=
  if call.outside.readonly then (.returned false, st)
  else if !call.outside.ready then (.raised, st)
  else match changesOf st.object call with
    | (c, none) => (.raised, { st with object := c })
    | (c, some changes) =>
      let success := [Change.config, .customConfigs].all fun change =>
        change ∉ changes || saveError call.outside c change = none
      let c' := if success then { c with appliedSettingsSignature := some c.settings } else c
      (.returned success, ⟨c', saveAll call.outside c changes st.db⟩)

end BunkerWeb.Autoconf.Config
