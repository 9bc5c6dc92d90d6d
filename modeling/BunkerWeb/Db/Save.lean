import BunkerWeb.Db.Read

/-!
# Saving the configuration (`save_config`)

The call first collects the rows of its method whose keys have gone from the configuration, and
two guards may refuse it there. It then brings the services in line with `SERVER_NAME`, with
statements that run on the session at once, works out what the keys of the configuration change (in
a pool, with one task for each service and one for the global settings, if the configuration is
multisite), and applies everything in one commit.

The texts that are only logged are left out, and so are the dates. `SERVER_NAME` is a text.
-/

namespace BunkerWeb.Db

open Lib

structure Call where
  config : Dict String String
  method : Method
  changed : Bool
  fileNames : Dict String String
  skipServiceManagement : Bool
  disableCleanup : Bool
  explicitKeys : List String

/-- What a caller finds. -/
inductive Outcome where
  /-- The text that the code returns for an error. -/
  | error (message : String)
  /-- The set of changed plugins. -/
  | plugins (ids : List String)
  /-- An exception that leaves `save_config`. -/
  | raised (message : String)
  deriving DecidableEq, Repr

/-- The columns that an update of a row sets; `fileName = none` leaves the file name alone. -/
structure CellUpdate where
  value : String
  method : Method
  fileName : Option String
  deriving DecidableEq, Repr

def CellUpdate.apply (u : CellUpdate) (c : Cell) : Cell :=
  ⟨u.value, u.fileName.getD c.fileName, u.method⟩

abbrev RowChange := Change CellUpdate Cell

/-- What a task of the pool brings back. -/
structure TaskResult where
  globalChanges : List (GlobalKey × RowChange)
  serviceChanges : List (ServiceKey × RowChange)
  newServices : List (String × Service)
  changedPlugins : List String
  changedServices : Bool
  serviceTemplateChange : Bool

/-- What the call depends on beside its arguments and the database. -/
structure Env where
  readonly : Bool
  /-- The processing of a service, or of the global settings (`none`), raises. -/
  raises : Option String → Bool
  /-- The order in which the tasks of the pool complete. -/
  asCompleted : List TaskResult → List TaskResult
  asCompleted_perm : ∀ l, (asCompleted l).Perm l
  /-- The database refuses the commit, with this text. -/
  commitError : Option String
  /-- The text of a broken unique constraint. -/
  integrityError : String

/-! ## One row -/

/-- `text.strip()`. -/
def strip (text : String) : String :=
  String.ofList ((text.toList.dropWhile Char.isWhitespace).reverse.dropWhile
    Char.isWhitespace).reverse

/-- `get_setting_file_name`: the file name to store, and whether it changes. -/
def settingFileName (fileNames : Dict String String) (type : SettingType) (originalKey : String)
    (valueChanged : Bool) (current : String) : String × Bool :=
  if type ≠ .file then ("", false)
  else
    match fileNames.lookup originalKey with
    | some name => (strip name, strip name != current)
    | none => ("", valueChanged && current != "")

/-- `scheduler_can_override`. -/
def schedulerCanOverride (explicitKeys : List String) (fullKey incoming : String) : Bool :=
  explicitKeys.contains fullKey && !(fullKey == "SERVER_NAME" && strip incoming == "")

/-- `is_default_value`. -/
def isDefaultValue (config dbConfig : Dict String String) (val key default : String)
    (templateDefault : Option String) (suffix : Nat) (isGlobal : Bool) : Bool :=
  match templateDefault with
  | some t => val == t
  | none =>
    if isGlobal && suffix == 0 ||
        (config.lookup key).isNone && (dbConfig.lookup key).isNone then val == default
    else if isGlobal then false
    else
      config.lookup (suffixedKey key suffix) == some val ||
        dbConfig.lookup (suffixedKey key suffix) == some val

/-- `check_value`. -/
def checkValue (config dbConfig : Dict String String) (key value default : String)
    (templateDefault : Option String) (suffix : Nat) (isGlobal : Bool) : Bool :=
  if key = "SERVER_NAME" then false
  else isDefaultValue config dbConfig value key default templateDefault suffix isGlobal

/-- A key of the configuration that names a setting, taken apart. -/
structure Line where
  originalKey : String
  value : String
  setting : Setting
  suffix : Nat
  deriving DecidableEq, Repr

/-- The items of a configuration that name a setting. -/
def lines (settings : Catalog) (config : List (String × String)) : List Line :=
  config.filterMap fun e =>
    (settings.find (splitKey e.1).1).map fun s => ⟨e.1, e.2, s, (splitKey e.1).2⟩

/-- What the three loops do with a row, given what each works out in its own way: whether the value
may be updated and whether it is a default. Also whether the plugin of the setting has changed. -/
def rowChange (call : Call) (existing : Option Cell) (l : Line) (shouldUpdate isDefault : Bool) :
    Option RowChange × Bool :=
  match existing with
  | none =>
    if isDefault then (none, false)
    else
      let (target, _) := settingFileName call.fileNames l.setting.type l.originalKey false ""
      (some (.put ⟨l.value, if l.setting.type = .file then target else "", call.method⟩), true)
  | some c =>
    let valueChanged := c.value != l.value
    let (target, fileNameChanged) :=
      settingFileName call.fileNames l.setting.type l.originalKey valueChanged c.fileName
    if shouldUpdate || fileNameChanged then
      if shouldUpdate && isDefault then (some .delete, true)
      else
        let fileName :=
          if l.setting.type = .file ∧ (fileNameChanged || valueChanged) then some target else none
        (some (.update ⟨l.value, call.method, fileName⟩), shouldUpdate)
    else (none, false)

/-! ## The clean-up of what has gone -/

/-- The key of a row of the method has gone from the configuration. -/
def vanished (config : Dict String String) (key : String) (suffix : Nat) : Bool :=
  (config.lookup key).isNone && (suffix != 0 || (config.lookup (joinKey key "0")).isNone)

/-- The rows of `Global_values` of the method. -/
def methodGlobals (call : Call) (db : Database) : List GlobalKey :=
  (db.globalValues.items.filter (·.2.method = call.method)).map Prod.fst

/-- `global_settings_to_delete`. -/
def globalsToDelete (call : Call) (db : Database) : List GlobalKey :=
  (methodGlobals call db).filter fun k => vanished call.config (suffixedKey k.1 k.2) k.2

/-- The words of `SERVER_NAME`. -/
def serverNames (config : Dict String String) : List String :=
  words ((config.lookup "SERVER_NAME").getD "")

/-- `drafted_service_ids`. -/
def draftedServiceIds (call : Call) (db : Database) : List String :=
  if call.disableCleanup ∧ call.method = .autoconf ∧ ¬ call.skipServiceManagement then
    ((db.services.items.filter (·.2.method = .autoconf)).map Prod.fst).filter
      fun id => !(serverNames call.config).contains id
  else []

/-- The key of a row of `Services_settings`. -/
def serviceRowKey (k : ServiceKey) : String := joinKey k.1 (suffixedKey k.2.1 k.2.2)

/-- The rows of `Services_settings` of the method that the clean-up looks at. -/
def methodServiceRows (call : Call) (db : Database) : List ServiceKey :=
  if call.skipServiceManagement then []
  else
    ((db.servicesSettings.items.filter (·.2.method = call.method)).map Prod.fst).filter
      fun k => !(draftedServiceIds call db).contains k.1

/-- `service_settings_to_delete`. -/
def serviceRowsToDelete (call : Call) (db : Database) : List ServiceKey :=
  (methodServiceRows call db).filter fun k => vanished call.config (serviceRowKey k) k.2.2

/-- The plugins of the settings of some rows. -/
def pluginsOf (settings : Catalog) (ids : List String) : List String :=
  ids.filterMap fun id => ((settings.find id).map Setting.pluginId).filter (· ≠ "")

/-- The guard that refuses a scheduler call that would delete every global value of its method. -/
def wipesGlobals (call : Call) (db : Database) : Bool :=
  call.method = .scheduler && !(methodGlobals call db).isEmpty &&
    (globalsToDelete call db).length == (methodGlobals call db).length

/-- The guard that refuses a `ui` or `api` call that would delete every row that its method has for
a service that is still in `SERVER_NAME`. -/
def wipesService (call : Call) (db : Database) : Bool :=
  call.method.isUi && !call.skipServiceManagement &&
    (methodServiceRows call db).any fun k =>
      (serverNames call.config).contains k.1 &&
        ((serviceRowsToDelete call db).filter (·.1 = k.1)).length ==
          ((methodServiceRows call db).filter (·.1 = k.1)).length

/-! ## The services -/

/-- The method may decide about a service of this owner. -/
def owns (call owner : Method) : Bool := owner == call || owner.isUi && call.isUi

/-- The services that are to go; `none` if the call is refused because its list of services is
empty. -/
def missingIds (call : Call) (db : Database) : Option (List String) :=
  let owned := (db.services.items.filter fun s => owns call.method s.2.method).map Prod.fst
  if serverNames call.config = [] ∧ owned ≠ [] ∧
      (call.method = .autoconf ∨ (call.config.lookup "SERVER_NAME").isNone) then
    if call.method = .autoconf ∧
        db.services.items.all fun s => s.2.method = .autoconf || s.2.method = .scheduler then
      some owned
    else none
  else some (owned.filter fun id => !(serverNames call.config).contains id)

/-- What becomes of the services of the database. -/
structure ServicePlan where
  draftable : List String
  hardDelete : List String
  drafts : List String
  missingDrafts : List String
  newDrafts : List String
  updatedDrafts : List String

def servicePlan (call : Call) (db : Database) (missing : List String) : ServicePlan :=
  let draftable :=
    if call.disableCleanup ∧ call.method = .autoconf then
      missing.filter fun id => (db.services.lookup id).any (·.method = .autoconf)
    else []
  let drafts := ((serverNames call.config).filter fun s =>
    (call.config.lookup (joinKey s "IS_DRAFT")).getD "no" = "yes").dedup
  let dbDrafts := (db.services.items.filter (·.2.isDraft)).map Prod.fst
  { draftable
    hardDelete := missing.filter fun id => !draftable.contains id
    drafts
    missingDrafts :=
      if dbDrafts = [] then []
      else ((db.services.items.filter fun s => owns call.method s.2.method).map Prod.fst).filter
        fun id => !drafts.contains id && !missing.contains id
    newDrafts := drafts.filter fun id => !dbDrafts.contains id && (db.services.lookup id).isNone
    updatedDrafts := drafts.filter fun id =>
      !dbDrafts.contains id && (db.services.lookup id).any fun s => owns call.method s.method }

/-- The configuration after its `DATABASE_URI` and the `IS_DRAFT` of its services are popped. -/
def popped (call : Call) : Dict String String :=
  if call.skipServiceManagement then call.config.erase "DATABASE_URI"
  else (serverNames call.config).foldl (fun c s => c.erase (joinKey s "IS_DRAFT"))
    (call.config.erase "DATABASE_URI")

/-- The session after the statements that run at once. -/
def sessionOf (db : Database) (p : ServicePlan) : Database :=
  { db with
    services := Table.deleteAll
      (Table.updateAll (fun isDraft s => { s with isDraft := isDraft }) db.services
        (p.draftable.map (·, true) ++ p.missingDrafts.map (·, false))) p.hardDelete
    servicesSettings := Table.deleteAll db.servicesSettings
      ((db.servicesSettings.items.map Prod.fst).filter fun k => p.hardDelete.contains k.1)
    customConfigs :=
      (db.customConfigs.filter fun c => !c.serviceId.any p.hardDelete.contains).map fun c =>
        if c.serviceId.any p.draftable.contains then { c with isDraft := true } else c
    jobsCache := db.jobsCache.filter fun j => !j.serviceId.any p.hardDelete.contains
    metadata :=
      if p.draftable = [] ∧ p.hardDelete = [] then db.metadata
      else db.metadata.map fun m => { m with customConfigsChanged := true } }

/-! ## The tasks -/

/-- The variable `template` of `save_config`. The loop over the rows of `Template_settings` in the
multisite branch has the same variable, so that it holds the last row from there on. -/
inductive TemplateVar where
  | name (template : String)
  | row
  deriving DecidableEq, Repr

def TemplateVar.truthy : TemplateVar → Bool
  | .name template => template != ""
  | .row => true

/-- `templates.get(template, {}).get((key, suffix))`, if `template` is set. -/
def TemplateVar.default (db : Database) (template : TemplateVar) (key : String) (suffix : Nat) :
    Option String :=
  match template with
  | .row => none
  | .name template =>
    if template = "" then none
    else Dict.lastOf (key, suffix)
      ((db.templateSettings.filter (·.templateId = template)).map fun t =>
        ((t.settingId, t.suffix), t.default))

/-- What the tasks read. -/
structure Work where
  call : Call
  config : Dict String String
  dbConfig : Dict String String
  session : Database
  template : TemplateVar
  drafts : List String

/-- The value of a line is what its service has without a row. -/
def serviceIsDefault (w : Work) (template : TemplateVar) (l : Line) : Bool :=
  checkValue w.config w.dbConfig l.setting.id l.value l.setting.default
    (template.default w.session l.setting.id l.suffix) l.suffix false

/-- `should_update_value` of the two multisite loops: the value changes and the method may do it,
or `autoconf` takes the row over. -/
def shouldUpdate (call : Call) (fullKey value : String) (c : Cell) : Bool :=
  c.value != value && methodsAreCompatible call.method c.method
    (schedulerCanOverride call.explicitKeys fullKey value) ||
  (call.method = .autoconf && c.method != .autoconf)

/-- One turn of the loop of `process_service`. -/
def serviceChange (w : Work) (template : TemplateVar) (server : String) (l : Line) :
    Option RowChange × Bool :=
  let existing := w.session.servicesSettings.lookup (server, l.setting.id, l.suffix)
  rowChange w.call existing l
    (existing.any (shouldUpdate w.call (joinKey server l.originalKey) l.value))
    (serviceIsDefault w template l)

/-- `service_template`. -/
def serviceTemplate (w : Work) (config : List (String × String)) : TemplateVar :=
  ((config.lookup "USE_TEMPLATE").map TemplateVar.name).getD w.template

/-- `process_service`. -/
def processService (w : Work) (dbIds : List String) (server : String)
    (config : List (String × String)) : TaskResult :=
  let template := serviceTemplate w config
  let ls := lines w.session.settings config
  let changes := ls.map fun l => (l, serviceChange w template server l)
  let isNew := !ls.isEmpty && !dbIds.contains server
  let isDraft := w.drafts.contains server
  { globalChanges := []
    serviceChanges := changes.filterMap fun e =>
      e.2.1.map fun c => ((server, e.1.setting.id, e.1.suffix), c)
    newServices := if isNew then [(server, ⟨w.call.method, isDraft⟩)] else []
    changedPlugins := (changes.filter (·.2.2)).map (·.1.setting.pluginId)
    changedServices := isNew && !isDraft ||
      changes.any fun e => e.1.setting.id == "SERVER_NAME" && e.2.1.isSome
    serviceTemplateChange := template.truthy && !ls.isEmpty }

/-- One turn of the loop of `process_global_settings`. -/
def globalChange (w : Work) (l : Line) : Option RowChange × Bool :=
  let existing := w.session.globalValues.lookup (l.setting.id, l.suffix)
  rowChange w.call existing l (existing.any (shouldUpdate w.call l.originalKey l.value))
    (checkValue w.config w.dbConfig l.setting.id l.value l.setting.default
      (w.template.default w.session l.setting.id l.suffix) l.suffix true)

/-- `process_global_settings`. -/
def processGlobalSettings (w : Work) (config : List (String × String)) : TaskResult :=
  let ls := lines w.session.settings config
  let changes := ls.map fun l => (l, globalChange w l)
  { globalChanges := changes.filterMap fun e =>
      e.2.1.map fun c => ((e.1.setting.id, e.1.suffix), c)
    serviceChanges := []
    newServices := []
    changedPlugins := (changes.filter (·.2.2)).map (·.1.setting.pluginId)
    changedServices := false
    serviceTemplateChange := w.template.truthy && !ls.isEmpty }

/-- `should_update_value` of the branch that is not multisite, without a rule of its own for
`autoconf`. -/
def plainShouldUpdate (call : Call) (fullKey value : String) (c : Cell) : Bool :=
  methodsAreCompatible call.method c.method
    (schedulerCanOverride call.explicitKeys fullKey value) && c.value != value

/-- One turn of the loop of the branch that is not multisite, which compares with the plain
default. -/
def plainChange (w : Work) (l : Line) : Option RowChange × Bool :=
  let existing := w.session.globalValues.lookup (l.setting.id, l.suffix)
  let row := w.session.templateSettings.find? fun t =>
    w.template == .name t.templateId && t.settingId = l.setting.id && t.suffix = l.suffix
  rowChange w.call existing l (existing.any (plainShouldUpdate w.call l.originalKey l.value))
    (l.value == if w.template.truthy then (row.map (·.default)).getD l.setting.default
      else l.setting.default)

/-- `services_set`: the services of the call and those of the database that are no drafts. -/
def servicesSet (call : Call) (db : Database) : List String :=
  serverNames call.config ++ (db.services.items.filter fun s => !s.2.isDraft).map Prod.fst

/-- `service_configs[service]`. -/
def serviceConfig (config : Dict String String) (services : List String) (service : String) :
    List (String × String) :=
  config.items.filterMap fun e =>
    match firstService services e.1 with
    | some (s, rest) => if s = service then some (rest, e.2) else none
    | none => none

/-- `global_config`. -/
def globalConfig (config : Dict String String) (services : List String) :
    List (String × String) :=
  config.items.filter fun e => (firstService services e.1).isNone

/-- The services that keys of the configuration are prefixed with. -/
def configuredServices (config : Dict String String) (services : List String) : List String :=
  (config.items.filterMap fun e => (firstService services e.1).map Prod.fst).dedup

/-- The results of the tasks that do not raise; an exception is only logged. -/
def poolResults (env : Env) (w : Work) (dbIds services : List String) : List TaskResult :=
  env.asCompleted
    (((configuredServices w.config services).filter fun s => !env.raises (some s)).map
      (fun s => processService w dbIds s (serviceConfig w.config services s)) ++
    if env.raises none then [] else [processGlobalSettings w (globalConfig w.config services)])

/-! ## The whole call -/

/-- What is to be applied at the commit. -/
structure Plan where
  session : Database
  globalChanges : List (GlobalKey × RowChange)
  serviceChanges : List (ServiceKey × RowChange)
  newServices : List (String × Service)
  updatedDrafts : List String
  changedPlugins : List String
  changedServices : Bool
  serviceTemplateChange : Bool

/-- The first word of `SERVER_NAME` up to a blank, which the branch that is not multisite makes a
service. -/
def firstServer (serverName : String) : String :=
  String.ofList (serverName.toList.takeWhile (· ≠ ' '))

/-- The template of the configuration. -/
def templateOf (call : Call) : String := (call.config.lookup "USE_TEMPLATE").getD ""

/-- The values that `autoconf` compares with beside those of the configuration. -/
def dbConfigOf (call : Call) (db : Database) : Dict String String :=
  if call.method = .autoconf then
    (getNonDefaultSettings db withDrafts ∅ []).mapValues Entry.value
  else ∅

/-- What the tasks of the multisite branch read. -/
def poolWork (call : Call) (db : Database) (p : ServicePlan) : Work where
  call
  config := popped call
  dbConfig := dbConfigOf call db
  session := sessionOf db p
  template := if db.templateSettings = [] then .name (templateOf call) else .row
  drafts := p.drafts

/-- What the loop of the other branch reads. -/
def plainWork (call : Call) (db : Database) (p : ServicePlan) : Work where
  call
  config := popped call
  dbConfig := dbConfigOf call db
  session := sessionOf db p
  template := .name (templateOf call)
  drafts := p.drafts

/-- The multisite branch. -/
def multisitePlan (env : Env) (call : Call) (db : Database) (p : ServicePlan) : Plan :=
  let results := poolResults env (poolWork call db p)
    ((db.services.items.map Prod.fst) ++ p.newDrafts) (servicesSet call db)
  { session := sessionOf db p
    globalChanges := results.flatMap (·.globalChanges)
    serviceChanges := results.flatMap (·.serviceChanges)
    newServices := p.newDrafts.map (·, ⟨call.method, true⟩) ++ results.flatMap (·.newServices)
    updatedDrafts := p.updatedDrafts
    changedPlugins := results.flatMap (·.changedPlugins)
    changedServices := results.any (·.changedServices)
    serviceTemplateChange := results.any (·.serviceTemplateChange) }

/-- The branch that is not multisite, which is also that of a call without service management. -/
def plainPlan (env : Env) (call : Call) (db : Database) (p : ServicePlan) :
    Except Outcome Plan :=
  let session := sessionOf db p
  let template := templateOf call
  let serverName := call.config.lookup "SERVER_NAME"
  if !call.skipServiceManagement && template != "" && serverName.isNone then
    -- The query names a column that `Template_settings` does not have.
    .error (.raised "type object 'Template_settings' has no attribute 'value'")
  else if env.raises none then .error (.raised "")
  else
    let newService :=
      if call.skipServiceManagement || serverName == some "" then []
      else
        let first := firstServer (serverName.getD "www.example.com")
        if (session.services.lookup first).isSome then []
        else [(first, (⟨call.method, p.drafts.contains first⟩ : Service))]
    let ls := lines session.settings (popped call).items
    let changes := ls.map fun l => (l, plainChange (plainWork call db p) l)
    .ok
      { session
        globalChanges := changes.filterMap fun e =>
          e.2.1.map fun c => ((e.1.setting.id, e.1.suffix), c)
        serviceChanges := []
        newServices := p.newDrafts.map (·, ⟨call.method, true⟩) ++ newService
        updatedDrafts := p.updatedDrafts
        changedPlugins := (changes.filter (·.2.2)).map (·.1.setting.pluginId)
        changedServices := !newService.isEmpty
        serviceTemplateChange := template != "" && !ls.isEmpty }

/-- What the services alone change: flags, and whether a template of one that goes is set. -/
def serviceFlags (call : Call) (p : ServicePlan) : Bool × Bool :=
  (!p.draftable.isEmpty || !p.hardDelete.isEmpty || !p.missingDrafts.isEmpty ||
      !p.updatedDrafts.isEmpty,
    (p.draftable ++ p.hardDelete).any fun id =>
      (call.config.lookup (joinKey id "USE_TEMPLATE")).getD "" != "")

/-- No change to any service. -/
def noServicePlan : ServicePlan := ⟨[], [], [], [], [], []⟩

/-- From the end of the guards on the clean-up to the commit. -/
def planOf (env : Env) (call : Call) (db : Database) : Except Outcome Plan :=
  if call.config.items.isEmpty then .ok ⟨db, [], [], [], [], [], false, false⟩
  else if call.skipServiceManagement then plainPlan env call db noServicePlan
  else
    match missingIds call db with
    | none => .error (.plugins (pluginsOf db.settings
        ((globalsToDelete call db).map Prod.fst ++
          (serviceRowsToDelete call db).map (·.2.1))))
    | some missing =>
      let p := servicePlan call db missing
      let (services, template) := serviceFlags call p
      let plan :=
        if ((popped call).lookup "MULTISITE").getD "no" = "yes" then
          .ok (multisitePlan env call db p)
        else plainPlan env call db p
      plan.map fun plan =>
        { plan with
          changedServices := plan.changedServices || services
          serviceTemplateChange := plan.serviceTemplateChange || template }

/-- The tables after the deletions, the updates, the new rows and the clean-up of the commit. -/
def commitTables (plan : Plan) (globalCleanup : List GlobalKey)
    (serviceCleanup : List ServiceKey) : Option Database := do
  let globalValues ← Table.commit CellUpdate.apply plan.session.globalValues plan.globalChanges
    globalCleanup
  let servicesSettings ← Table.commit CellUpdate.apply plan.session.servicesSettings
    plan.serviceChanges serviceCleanup
  let services ← Table.putAll
    (Table.updateAll (fun isDraft s => { s with isDraft := isDraft }) plan.session.services
      (plan.updatedDrafts.map (·, true))) plan.newServices
  some { plan.session with globalValues, servicesSettings, services }

/-- The flags that are set just before the commit, if the call says `changed`. -/
def setFlags (call : Call) (changedPlugins : List String) (templateChange : Bool)
    (db : Database) : Database :=
  if call.changed then
    { db with
      metadata := db.metadata.map fun m =>
        ⟨true, m.customConfigsChanged || templateChange⟩
      plugins := db.plugins.map fun p => (p.1, p.2 || changedPlugins.contains p.1) }
  else db

/-- `save_config`. -/
def saveConfig (env : Env) (call : Call) (db : Database) : Outcome × Database :=
  if env.readonly then (.error "The database is read-only, the changes will not be saved", db)
  else
    let globals := globalsToDelete call db
    let rows := serviceRowsToDelete call db
    let globalPlugins := pluginsOf db.settings (globals.map Prod.fst)
    let rowPlugins := pluginsOf db.settings (rows.map (·.2.1))
    if wipesGlobals call db then (.plugins globalPlugins, db)
    else if wipesService call db then (.plugins (globalPlugins ++ rowPlugins), db)
    else
      match planOf env call db with
      | .error outcome => (outcome, db)
      | .ok plan =>
        let changedServices := plan.changedServices ||
          globals.any (fun k => suffixedKey k.1 k.2 == "SERVER_NAME") ||
          rows.any fun k => serviceRowKey k == "SERVER_NAME" ||
            serviceRowKey k == joinKey k.1 "SERVER_NAME"
        let templateChange := plan.serviceTemplateChange ||
          rows.any fun k => serviceRowKey k == "USE_TEMPLATE" ||
            serviceRowKey k == joinKey k.1 "USE_TEMPLATE"
        let changedPlugins :=
          if changedServices then db.plugins.map Prod.fst
          else globalPlugins ++ rowPlugins ++ plan.changedPlugins
        match env.commitError with
        | some message => (.error message, db)
        | none =>
          match commitTables plan globals rows with
          | none => (.error env.integrityError, db)
          | some db' => (.plugins changedPlugins, setFlags call changedPlugins templateChange db')

/-! ## A small installation -/

def siteCatalog : Catalog :=
  ⟨[[serverNameSetting, multisiteSetting, useTemplate], [useGzip, customSslCertData]],
    by decide, by decide⟩

/-- A database with some services and rows, and without templates. -/
def site (services : List (String × Service)) (globals : List (GlobalKey × Cell))
    (rows : List (ServiceKey × Cell)) : Database where
  settings := siteCatalog
  templateSettings := []
  globalValues := Dict.ofItems globals
  services := Dict.ofItems services
  servicesSettings := Dict.ofItems rows
  customConfigs := []
  jobsCache := []
  plugins := [("general", false), ("gzip", false), ("customcert", false)]
  metadata := some ⟨true, false⟩

/-- A multisite call with nothing beside its configuration. -/
def multisiteCall (method : Method) (config : List (String × String)) : Call where
  config := Dict.ofItems (("MULTISITE", "yes") :: config)
  method
  changed := true
  fileNames := ∅
  skipServiceManagement := false
  disableCleanup := false
  explicitKeys := []

/-- Nothing goes wrong, and the tasks complete in the order in which they were started. -/
def quietEnv : Env where
  readonly := false
  raises := fun _ => false
  asCompleted := id
  asCompleted_perm := List.Perm.refl
  commitError := none
  integrityError := "UNIQUE constraint failed"

end BunkerWeb.Db
