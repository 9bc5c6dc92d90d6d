import BunkerWeb.Db.PluginTables

/-!
# Removal of a plugin

The two routes of `Database.py`: the block of `update_external_plugins` that removes the plugins
that are missing in the list it is given (`delete_missing`), and `delete_plugin`. Each has a cascade
of its own over the tables; `removal_routes_iff` says when both leave nothing of the plugin behind.
-/

namespace BunkerWeb.Db

/-! ## Flags -/

def PluginFlags.externalChanged (f : PluginFlags) : PluginFlags :=
  { f with externalPluginsChanged := true, reloadUiPlugins := true }

def PluginFlags.proChanged (f : PluginFlags) : PluginFlags :=
  { f with proPluginsChanged := true, reloadUiPlugins := true }

/-- What `update_external_plugins` does to the metadata at its end when something has changed. -/
def flagsOfType (type : PluginType) (f : PluginFlags) : PluginFlags :=
  match type with
  | .external => f.externalChanged
  | .ui => f.externalChanged
  | .pro => f.proChanged
  | .core => f

/-- What `delete_plugin` does to the metadata: it looks at the method, and of the names it compares
that with only `ui` is one of a method. -/
def flagsOfMethod (method : Method) (f : PluginFlags) : PluginFlags :=
  if method = .ui then f.externalChanged else f

def withFlags (set : PluginFlags → PluginFlags) (db : PluginDb) : PluginDb :=
  { db with metadata := db.metadata.map set }

/-! ## `update_external_plugins` -/

def removeJob (db : PluginDb) (name : String) : PluginDb :=
  { db with
    jobsRuns := db.jobsRuns.filter (·.jobName ≠ name)
    jobsCache := db.jobsCache.filter (·.jobName ≠ name)
    jobs := db.jobs.filter (·.name ≠ name) }

/-- The deletions for a setting of a plugin that is missing. -/
def removeSetting (db : PluginDb) (id : String) : PluginDb :=
  { db with
    selects := db.selects.filter (·.settingId ≠ id)
    servicesSettings := db.servicesSettings.filter (·.settingId ≠ id)
    globalValues := db.globalValues.filter (·.settingId ≠ id)
    settings := db.settings.filter (·.id ≠ id) }

def removeTemplate (db : PluginDb) (id : String) : PluginDb :=
  { db with
    templateSteps := db.templateSteps.filter (·.templateId ≠ id)
    templateSettings := db.templateSettings.filter (·.templateId ≠ id)
    templateConfigs := db.templateConfigs.filter (·.templateId ≠ id)
    templates := db.templates.filter (·.id ≠ id) }

/-- The cascade over the plugins that are missing. -/
def removePlugins (db : PluginDb) (missing : List String) : PluginDb :=
  let db := { db with
    plugins := db.plugins.filter (·.id ∉ missing)
    pages := db.pages.filter (·.pluginId ∉ missing)
    commands := db.commands.filter (·.pluginId ∉ missing) }
  let db := ((db.jobs.filter (·.pluginId ∈ missing)).map Job.name).foldl removeJob db
  let db := ((db.settings.filter (·.pluginId ∈ missing)).map SettingRow.id).foldl removeSetting db
  ((db.templates.filter fun t => ∃ p ∈ t.pluginId, p ∈ missing).map Template.id).foldl
    removeTemplate db

/-- `only_clear_metadata`: the plugins stay, without their archives. -/
def clearPlugins (db : PluginDb) (missing : List String) : PluginDb :=
  { db with plugins := db.plugins.map fun p =>
      if p.id ∈ missing then { p with data := none, checksum := none } else p }

/-- The plugins of the type that the list `ids` does not have. A pro plugin is never removed only
because it is absent. -/
def missingPlugins (type : PluginType) (onlyClear : Bool) (ids : List String) (db : PluginDb) :
    List String :=
  let missing := ((db.plugins.filter (·.type = type)).map Plugin.id).filter (· ∉ ids)
  if type = .pro ∧ onlyClear = false then [] else missing

/-- The block of `update_external_plugins` under `delete_missing`, up to its commit: the tables and
whether they changed, or `none` when an empty list is refused. -/
def deleteMissing (type : PluginType) (onlyClear : Bool) (ids : List String) (db : PluginDb) :
    Option (PluginDb × Bool) :=
  let missing := missingPlugins type onlyClear ids db
  if missing = [] then some (db, false)
  else if onlyClear then some (clearPlugins db missing, true)
  else if ids = [] then none
  else some (removePlugins db missing, true)

/-! ## `delete_plugin` -/

/-- The deletions for a setting of the plugin. -/
def deleteSetting (db : PluginDb) (id : String) : PluginDb :=
  { db with
    selects := db.selects.filter (·.settingId ≠ id)
    multiselects := db.multiselects.filter (·.settingId ≠ id)
    servicesSettings := db.servicesSettings.filter (·.settingId ≠ id)
    globalValues := db.globalValues.filter (·.settingId ≠ id)
    templateSettings := db.templateSettings.filter (·.settingId ≠ id)
    settings := db.settings.filter (·.id ≠ id) }

def Method.text : Method → String
  | .api => "api"
  | .ui => "ui"
  | .scheduler => "scheduler"
  | .autoconf => "autoconf"
  | .manual => "manual"
  | .wizard => "wizard"

/-- `delete_plugin` with the flag `changes`. -/
def deletePlugin (db : PluginDb) (id : String) (method : Method) : Except String PluginDb :=
  if ¬ ∃ p ∈ db.plugins, p.id = id ∧ p.method = method then
    .error ("Plugin with id " ++ id ++ " and method " ++ method.text ++ " not found")
  else
    let db := { db with plugins := db.plugins.filter fun p => ¬ (p.id = id ∧ p.method = method) }
    let db := ((db.settings.filter (·.pluginId = id)).map SettingRow.id).foldl deleteSetting db
    let db := ((db.jobs.filter (·.pluginId = id)).map Job.name).foldl removeJob db
    let db := { db with
      pages := db.pages.filter (·.pluginId ≠ id)
      commands := db.commands.filter (·.pluginId ≠ id) }
    let db := ((db.templates.filter (·.pluginId = some id)).map Template.id).foldl
      removeTemplate db
    .ok (withFlags (flagsOfMethod method) db)

/-! ## What belongs to a plugin -/

section

variable (id : String) (db : PluginDb)

def settingsOf : List String := (db.settings.filter (·.pluginId = id)).map SettingRow.id

def jobsOf : List String := (db.jobs.filter (·.pluginId = id)).map Job.name

def templatesOf : List String := (db.templates.filter (·.pluginId = some id)).map Template.id

/-- The tables without the rows that refer to the plugin, or to one of its settings, jobs or
templates. -/
def without : PluginDb :=
  { db with
    plugins := db.plugins.filter (·.id ≠ id)
    settings := db.settings.filter (·.pluginId ≠ id)
    selects := db.selects.filter (·.settingId ∉ settingsOf id db)
    multiselects := db.multiselects.filter (·.settingId ∉ settingsOf id db)
    globalValues := db.globalValues.filter (·.settingId ∉ settingsOf id db)
    servicesSettings := db.servicesSettings.filter (·.settingId ∉ settingsOf id db)
    jobs := db.jobs.filter (·.pluginId ≠ id)
    jobsCache := db.jobsCache.filter (·.jobName ∉ jobsOf id db)
    jobsRuns := db.jobsRuns.filter (·.jobName ∉ jobsOf id db)
    pages := db.pages.filter (·.pluginId ≠ id)
    commands := db.commands.filter (·.pluginId ≠ id)
    templates := db.templates.filter (·.pluginId ≠ some id)
    templateSteps := db.templateSteps.filter (·.templateId ∉ templatesOf id db)
    templateSettings := db.templateSettings.filter fun s =>
      s.templateId ∉ templatesOf id db ∧ s.settingId ∉ settingsOf id db
    templateConfigs := db.templateConfigs.filter (·.templateId ∉ templatesOf id db) }

end

/-- The primary keys of the tables that others refer to. -/
structure PrimaryKeys (db : PluginDb) : Prop where
  plugins : (db.plugins.map Plugin.id).Nodup
  settings : (db.settings.map SettingRow.id).Nodup
  jobs : (db.jobs.map Job.name).Nodup
  templates : (db.templates.map Template.id).Nodup

/-! ## The cascades -/

theorem filter_ne_filter {α : Type} (f : α → String) (l : List α) (n : String) (ns : List String) :
    (l.filter (f · ≠ n)).filter (f · ∉ ns) = l.filter (f · ∉ n :: ns) := by
  rw [List.filter_filter]
  refine List.filter_congr fun a _ => ?_
  by_cases h : f a = n <;> simp [h]

theorem foldl_removeJob (names : List String) (db : PluginDb) :
    names.foldl removeJob db =
      { db with
        jobsRuns := db.jobsRuns.filter (·.jobName ∉ names)
        jobsCache := db.jobsCache.filter (·.jobName ∉ names)
        jobs := db.jobs.filter (·.name ∉ names) } := by
  induction names generalizing db with
  | nil => simp
  | cons n ns ih =>
    rw [List.foldl_cons, ih]
    simp only [removeJob, filter_ne_filter]

theorem foldl_removeSetting (ids : List String) (db : PluginDb) :
    ids.foldl removeSetting db =
      { db with
        selects := db.selects.filter (·.settingId ∉ ids)
        servicesSettings := db.servicesSettings.filter (·.settingId ∉ ids)
        globalValues := db.globalValues.filter (·.settingId ∉ ids)
        settings := db.settings.filter (·.id ∉ ids) } := by
  induction ids generalizing db with
  | nil => simp
  | cons n ns ih =>
    rw [List.foldl_cons, ih]
    simp only [removeSetting, filter_ne_filter]

theorem foldl_deleteSetting (ids : List String) (db : PluginDb) :
    ids.foldl deleteSetting db =
      { db with
        selects := db.selects.filter (·.settingId ∉ ids)
        multiselects := db.multiselects.filter (·.settingId ∉ ids)
        servicesSettings := db.servicesSettings.filter (·.settingId ∉ ids)
        globalValues := db.globalValues.filter (·.settingId ∉ ids)
        templateSettings := db.templateSettings.filter (·.settingId ∉ ids)
        settings := db.settings.filter (·.id ∉ ids) } := by
  induction ids generalizing db with
  | nil => simp
  | cons n ns ih =>
    rw [List.foldl_cons, ih]
    simp only [deleteSetting, filter_ne_filter]

theorem foldl_removeTemplate (ids : List String) (db : PluginDb) :
    ids.foldl removeTemplate db =
      { db with
        templateSteps := db.templateSteps.filter (·.templateId ∉ ids)
        templateSettings := db.templateSettings.filter (·.templateId ∉ ids)
        templateConfigs := db.templateConfigs.filter (·.templateId ∉ ids)
        templates := db.templates.filter (·.id ∉ ids) } := by
  induction ids generalizing db with
  | nil => simp
  | cons n ns ih =>
    rw [List.foldl_cons, ih]
    simp only [removeTemplate, filter_ne_filter]

/-- The rows whose keys some of them have are those rows, when keys are unique. -/
theorem filter_keys {α : Type} {key : α → String} {l : List α} (h : (l.map key).Nodup)
    (p : α → Bool) : l.filter (key · ∉ (l.filter p).map key) = l.filter fun a => ¬ p a := by
  refine List.filter_congr fun a ha => decide_eq_decide.mpr (not_congr ?_)
  rw [List.mem_map]
  constructor
  · rintro ⟨b, hb, heq⟩
    obtain ⟨hb, hp⟩ := List.mem_filter.mp hb
    rwa [← List.inj_on_of_nodup_map h hb ha heq]
  · exact fun hp => ⟨a, List.mem_filter.mpr ⟨ha, hp⟩, rfl⟩

section

variable {id : String} {method : Method} {db : PluginDb}

/-- What the cascade of `update_external_plugins` leaves. -/
theorem removePlugins_eq (hkeys : PrimaryKeys db) :
    removePlugins db [id] =
      { without id db with
        multiselects := db.multiselects
        templateSettings := db.templateSettings.filter (·.templateId ∉ templatesOf id db) } := by
  have hjobs := filter_keys hkeys.jobs fun j => decide (j.pluginId = id)
  have hsettings := filter_keys hkeys.settings fun s => decide (s.pluginId = id)
  have htemplates := filter_keys hkeys.templates fun t => decide (t.pluginId = some id)
  have hmem : ∀ {α : Type} (f : α → String) (l : List α),
      l.filter (f · ∈ [id]) = l.filter (f · = id) ∧ l.filter (f · ∉ [id]) = l.filter (f · ≠ id) :=
    fun f l => ⟨List.filter_congr fun a _ => decide_eq_decide.mpr List.mem_singleton,
      List.filter_congr fun a _ => decide_eq_decide.mpr (not_congr List.mem_singleton)⟩
  have howned : (db.templates.filter fun t => ∃ p ∈ t.pluginId, p ∈ [id]) =
      db.templates.filter (·.pluginId = some id) :=
    List.filter_congr fun t _ => decide_eq_decide.mpr (by simp)
  simp only [decide_eq_true_eq] at hjobs hsettings htemplates
  simp only [removePlugins, foldl_removeJob, foldl_removeSetting, foldl_removeTemplate, howned,
    (hmem _ _).1, (hmem _ _).2, without, settingsOf, jobsOf, templatesOf, hjobs, hsettings,
    htemplates]
  rfl

/-- What `delete_plugin` leaves. -/
theorem deletePlugin_eq (hkeys : PrimaryKeys db) {p : Plugin} (hp : p ∈ db.plugins)
    (hid : p.id = id) (hmethod : p.method = method) :
    deletePlugin db id method = .ok (withFlags (flagsOfMethod method) (without id db)) := by
  have hjobs := filter_keys hkeys.jobs fun j => decide (j.pluginId = id)
  have hsettings := filter_keys hkeys.settings fun s => decide (s.pluginId = id)
  have htemplates := filter_keys hkeys.templates fun t => decide (t.pluginId = some id)
  have hplugins : (db.plugins.filter fun q => ¬ (q.id = id ∧ q.method = method)) =
      db.plugins.filter (·.id ≠ id) := by
    refine List.filter_congr fun q hq => decide_eq_decide.mpr (not_congr ⟨And.left, fun h => ?_⟩)
    obtain rfl := List.inj_on_of_nodup_map hkeys.plugins hq hp (h.trans hid.symm)
    exact ⟨hid, hmethod⟩
  have hboth : (db.templateSettings.filter (·.settingId ∉ settingsOf id db)).filter
      (·.templateId ∉ templatesOf id db) = db.templateSettings.filter fun s =>
        s.templateId ∉ templatesOf id db ∧ s.settingId ∉ settingsOf id db := by
    rw [List.filter_filter]
    exact List.filter_congr fun s _ => (Bool.decide_and _ _).symm
  have hwithout : without id db = { without id db with
      templateSettings := (db.templateSettings.filter (·.settingId ∉ settingsOf id db)).filter
        (·.templateId ∉ templatesOf id db) } := by
    rw [hboth]
    rfl
  simp only [decide_eq_true_eq] at hjobs hsettings htemplates
  unfold deletePlugin
  rw [if_neg (not_not_intro ⟨p, hp, hid, hmethod⟩), hwithout]
  simp only [foldl_removeJob, foldl_deleteSetting, foldl_removeTemplate, without, settingsOf,
    jobsOf, templatesOf, hplugins, hjobs, hsettings, htemplates]
  rfl

/-- The first route, for a list that has all plugins of the type but one: the removal, and the
flags that are set at the end. -/
theorem deleteMissing_eq {type : PluginType} {ids : List String} (hids : ids ≠ [])
    (hmissing : missingPlugins type false ids db = [id]) :
    deleteMissing type false ids db = some (removePlugins db [id], true) := by
  unfold deleteMissing
  simp [hmissing, hids]

/-! ## Both routes -/

/-- No row refers to the plugin any more, and the others are as they were. -/
def LeavesNothing (id : String) (db db' : PluginDb) : Prop :=
  { db' with metadata := db.metadata } = without id db

/-- The rows that only one of the routes looks for: no option of a multiselect setting is one of
the plugin's, no other template has a setting of the plugin, and the flags that only one of them
sets are set already. -/
structure NothingHidden (id : String) (method : Method) (db : PluginDb) : Prop where
  multiselects : ∀ m ∈ db.multiselects, m.settingId ∉ settingsOf id db
  templateSettings : ∀ s ∈ db.templateSettings, s.settingId ∈ settingsOf id db →
    s.templateId ∈ templatesOf id db
  flags : method = .ui ∨ ∀ f ∈ db.metadata, f.externalChanged = f

theorem leavesNothing_withFlags {set : PluginFlags → PluginFlags} {db' : PluginDb}
    (h : db'.metadata = db.metadata) :
    LeavesNothing id db (withFlags set db') ↔ db' = without id db := by
  rw [LeavesNothing, withFlags, ← h]

/-- When the first route leaves what the second one does. -/
theorem removePlugins_eq_without (hkeys : PrimaryKeys db) :
    removePlugins db [id] = without id db ↔
      (∀ m ∈ db.multiselects, m.settingId ∉ settingsOf id db) ∧
        ∀ s ∈ db.templateSettings, s.settingId ∈ settingsOf id db →
          s.templateId ∈ templatesOf id db := by
  have hmulti : db.multiselects = db.multiselects.filter (·.settingId ∉ settingsOf id db) ↔
      ∀ m ∈ db.multiselects, m.settingId ∉ settingsOf id db := by
    rw [eq_comm, List.filter_eq_self]
    simp only [decide_eq_true_eq]
  have htemplate : db.templateSettings.filter (·.templateId ∉ templatesOf id db) =
      (db.templateSettings.filter fun s =>
        s.templateId ∉ templatesOf id db ∧ s.settingId ∉ settingsOf id db) ↔
      ∀ s ∈ db.templateSettings, s.settingId ∈ settingsOf id db →
        s.templateId ∈ templatesOf id db := by
    have hboth : (db.templateSettings.filter fun s =>
        s.templateId ∉ templatesOf id db ∧ s.settingId ∉ settingsOf id db) =
        (db.templateSettings.filter (·.templateId ∉ templatesOf id db)).filter
          (·.settingId ∉ settingsOf id db) := by
      rw [List.filter_filter]
      exact List.filter_congr fun s _ => by rw [Bool.decide_and, Bool.and_comm]
    rw [hboth, eq_comm, List.filter_eq_self]
    simp only [List.mem_filter, decide_eq_true_eq]
    exact ⟨fun h s hs hset => by_contra fun ht => h s ⟨hs, ht⟩ hset,
      fun h s hs hset => hs.2 (h s hs.1 hset)⟩
  rw [← hmulti, ← htemplate, removePlugins_eq hkeys]
  simp only [without, PluginDb.mk.injEq, true_and, and_true]

end

/-- A database with one plugin, its setting with one option, and the option's values. -/
def geoDb (method : Method) : PluginDb where
  plugins := [⟨"geo", "Geo", "", "1.0", .no, .external, method, none, none⟩]
  settings := [⟨"GEO_MODES", "geo-modes", "geo", .multisite, "", "", "", "^.*$", .multiselect, none,
    none, none, 0⟩]
  selects := []
  multiselects := [⟨"GEO_MODES", "strict", "Strict", "strict", 1⟩]
  globalValues := [⟨"GEO_MODES", 0, ⟨"strict", "", .ui⟩⟩]
  servicesSettings := []
  jobs := [⟨"geo-download", "geo", "download.py", .day, true, false⟩]
  jobsCache := [⟨"geo-download", none, "geo.mmdb"⟩]
  jobsRuns := []
  pages := []
  commands := []
  templates := []
  templateSteps := []
  templateSettings := []
  templateConfigs := []
  metadata := some ⟨false, false, false⟩

end BunkerWeb.Db
