import BunkerWeb.Db.InitConverge

/-!
# Plugins that the initialization does not know

`init_tables` removes a plugin that it is not given only when its method is `manual`. The
comparisons of the settings, jobs, pages and commands do not look at the plugin: each row without a
definition goes, so that a plugin which is kept loses all of them.
-/

namespace BunkerWeb.Db.Init

open Lib

/-! ## The property -/

/-- The rows that belong to the plugin and to its settings are still there. -/
structure KeepsPlugin (id : String) (db db' : PluginDb) : Prop where
  settings : ∀ s ∈ db.settings, s.pluginId = id → s ∈ db'.settings
  selects : ∀ s ∈ db.selects, s.settingId ∈ settingsOf id db → s ∈ db'.selects
  multiselects : ∀ s ∈ db.multiselects, s.settingId ∈ settingsOf id db → s ∈ db'.multiselects
  jobs : ∀ j ∈ db.jobs, j.pluginId = id → j ∈ db'.jobs
  pages : ∀ p ∈ db.pages, p.pluginId = id → p ∈ db'.pages
  commands : ∀ c ∈ db.commands, c.pluginId = id → c ∈ db'.commands
  globalValues : ∀ v ∈ db.globalValues, v.settingId ∈ settingsOf id db → v ∈ db'.globalValues
  servicesSettings : ∀ s ∈ db.servicesSettings, s.settingId ∈ settingsOf id db →
    s ∈ db'.servicesSettings

/-- The plugins of the list. -/
def givenIds (inputs : List DefaultInput) : List String := inputs.map (·.base.id)

/-- Of each plugin that is not in the list and that the call keeps, it keeps the rows. -/
def KeepsUnmanaged (inputs : List DefaultInput) (db db' : PluginDb) : Prop :=
  ∀ row ∈ db.plugins, row.id ∉ givenIds inputs → row ∈ db'.plugins → KeepsPlugin row.id db db'

/-- The plugin has none of the rows that the comparisons look at. -/
structure OwnsNothing (id : String) (db : PluginDb) : Prop where
  settings : ∀ s ∈ db.settings, s.pluginId ≠ id
  jobs : ∀ j ∈ db.jobs, j.pluginId ≠ id
  pages : ∀ p ∈ db.pages, p.pluginId ≠ id
  commands : ∀ c ∈ db.commands, c.pluginId ≠ id

theorem OwnsNothing.keepsPlugin {id : String} {db db' : PluginDb} (h : OwnsNothing id db) :
    KeepsPlugin id db db' := by
  have hnone : settingsOf id db = [] := by
    refine List.map_eq_nil_iff.mpr (List.filter_eq_nil_iff.mpr fun s hs => ?_)
    simpa using h.settings s hs
  refine ⟨fun s hs hid => absurd hid (h.settings s hs), ?_, ?_,
    fun j hj hid => absurd hid (h.jobs j hj), fun p hp hid => absurd hid (h.pages p hp),
    fun c hc hid => absurd hid (h.commands c hc), ?_, ?_⟩
  all_goals
    intro r _ hmem
    rw [hnone] at hmem
    cases hmem

/-! ## Rows without a definition -/

section

variable {env : InitEnv} {inputs : List DefaultInput} {db db' : PluginDb} {id : String}

theorem id_mem_givenIds {p : DefaultPlugin} (hp : p ∈ supported inputs) : p.id ∈ givenIds inputs := by
  obtain ⟨hp, -⟩ := List.mem_filter.mp hp
  obtain ⟨input, hinput, rfl⟩ := List.mem_map.mp hp
  exact List.mem_map_of_mem hinput

/-- A plugin that is not in the list has no definitions: those of each table carry the identifiers
of the plugins that they are from. -/
theorem lookup_eq_none {κ ν : Type} [DecidableEq κ] {items : DefaultPlugin → List (κ × ν)}
    (owner : κ → String) (howner : ∀ p, ∀ e ∈ items p, owner e.1 = p.id) {k : κ}
    (hid : owner k ∉ givenIds inputs) :
    (Dict.setAll ∅ ((supported inputs).flatMap items)).lookup k = none := by
  refine Option.eq_none_iff_forall_ne_some.mpr fun v hv => hid ?_
  obtain ⟨p, hp, he⟩ := List.mem_flatMap.mp (Dict.mem_of_lookup_setAll hv)
  rw [howner p _ he]
  exact id_mem_givenIds hp

theorem plugins_lookup_eq_none (hid : id ∉ givenIds inputs) :
    (desired env (supported inputs)).plugins.lookup id = none := by
  refine Option.eq_none_iff_forall_ne_some.mpr fun v hv => hid ?_
  obtain ⟨p, hp, he⟩ := List.mem_map.mp (Dict.mem_of_lookup_setAll hv)
  cases he
  exact id_mem_givenIds hp

/-- The tables after a call that succeeds, as far as they are compared with definitions. -/
theorem initTables_tables {readonly changed : Bool}
    (h : initTables env readonly inputs db = (db', .ok changed)) :
    let w := desired env (supported inputs)
    db'.plugins = pluginTable.apply (pluginTable.diff w.plugins (db.plugins.filter fun _ => true))
        db.plugins ∧
      db'.settings = settingTable.apply
        (settingTable.diff w.settings (db.settings.filter fun _ => true)) db.settings ∧
      db'.jobs = jobTable.apply (jobTable.diff w.jobs (db.jobs.filter fun _ => true)) db.jobs ∧
      db'.pages = pageTable.apply (pageTable.diff w.pages (db.pages.filter fun _ => true))
        db.pages ∧
      db'.commands = commandTable.apply
        (commandTable.diff w.commands (db.commands.filter fun _ => true)) db.commands := by
  unfold initTables at h
  split at h
  · cases h
  · dsimp only at h
    split at h
    · cases h
    · split at h
      · cases h
      · split at h
        · cases h
        · cases h
          exact ⟨rfl, rfl, rfl, rfl, rfl⟩

/-- Whether a plugin that is not in the list is kept. -/
theorem mem_plugins_iff (hkeys : (db.plugins.map Plugin.id).Nodup) {readonly changed : Bool}
    (h : initTables env readonly inputs db = (db', .ok changed)) {row : Plugin}
    (hrow : row ∈ db.plugins) (hid : row.id ∉ givenIds inputs) :
    row ∈ db'.plugins ↔ row.method ≠ .manual := by
  rw [(initTables_tables h).1]
  have hnone : (desired env (supported inputs)).plugins.lookup (pluginTable.key row) = none :=
    plugins_lookup_eq_none hid
  constructor
  · intro hmem hmanual
    exact Reconcile.key_ne_of_mem_apply pluginTable_lawful hrow rfl (decide_eq_true hmanual) hnone
      hmem rfl
  · intro hmethod
    exact Reconcile.mem_apply_of_undefined hkeys hrow fun _ => ⟨decide_eq_false hmethod, hnone⟩

/-- No row of a plugin that is not in the list is left. -/
theorem rows_gone {readonly changed : Bool}
    (h : initTables env readonly inputs db = (db', .ok changed)) (hid : id ∉ givenIds inputs) :
    (∀ s ∈ db.settings, s.pluginId = id → s ∉ db'.settings) ∧
      (∀ j ∈ db.jobs, j.pluginId = id → j ∉ db'.jobs) ∧
      (∀ p ∈ db.pages, p.pluginId = id → p ∉ db'.pages) ∧
      ∀ c ∈ db.commands, c.pluginId = id → c ∉ db'.commands := by
  obtain ⟨-, hsettings, hjobs, hpages, hcommands⟩ := initTables_tables h
  rw [hsettings, hjobs, hpages, hcommands]
  refine ⟨fun s hs hplugin hmem => ?_, fun j hj hplugin hmem => ?_, fun p hp hplugin hmem => ?_,
    fun c hc hplugin hmem => ?_⟩
  · subst hplugin
    refine Reconcile.key_ne_of_mem_apply settingTable_lawful hs rfl rfl ?_ hmem rfl
    refine lookup_eq_none Prod.fst (fun p e he => ?_) hid
    obtain ⟨_, -, rfl⟩ := List.mem_map.mp he
    rfl
  · subst hplugin
    refine Reconcile.key_ne_of_mem_apply jobTable_lawful hj rfl rfl ?_ hmem rfl
    refine lookup_eq_none Prod.fst (fun p e he => ?_) hid
    obtain ⟨_, -, rfl⟩ := List.mem_map.mp he
    rfl
  · subst hplugin
    refine Reconcile.key_ne_of_mem_apply pageTable_lawful hp rfl rfl ?_ hmem rfl
    refine lookup_eq_none (fun k => k) (fun p e he => ?_) hid
    obtain ⟨_, -, rfl⟩ := Option.map_eq_some_iff.mp (Option.mem_toList.mp he)
    rfl
  · subst hplugin
    refine Reconcile.key_ne_of_mem_apply commandTable_lawful hc rfl rfl ?_ hmem rfl
    refine lookup_eq_none Prod.fst (fun p e he => ?_) hid
    obtain ⟨_, -, rfl⟩ := List.mem_map.mp he
    rfl

/-- **Plugins that are not in the list.** A call that succeeds keeps the rows of those that it keeps
only when they have no settings, jobs, pages and commands at all. -/
theorem keeps_unmanaged_iff (hkeys : (db.plugins.map Plugin.id).Nodup) {readonly changed : Bool}
    (h : initTables env readonly inputs db = (db', .ok changed)) :
    KeepsUnmanaged inputs db db' ↔
      ∀ row ∈ db.plugins, row.id ∉ givenIds inputs → row.method ≠ .manual →
        OwnsNothing row.id db := by
  unfold KeepsUnmanaged
  refine forall₂_congr fun row hrow => forall_congr' fun hid => ?_
  rw [mem_plugins_iff hkeys h hrow hid]
  refine forall_congr' fun _ => ⟨fun hkeeps => ?_, OwnsNothing.keepsPlugin⟩
  obtain ⟨hsettings, hjobs, hpages, hcommands⟩ := rows_gone h hid
  exact {
    settings := fun s hs hp => hsettings s hs hp (hkeeps.settings s hs hp)
    jobs := fun j hj hp => hjobs j hj hp (hkeeps.jobs j hj hp)
    pages := fun p hp hid => hpages p hp hid (hkeeps.pages p hp hid)
    commands := fun c hc hp => hcommands c hc hp (hkeeps.commands c hc hp) }

end

/-! ## A plugin of the web interface -/

/-- The call without its plugin. -/
def generalCall : PluginDb × Except String Bool :=
  initTables initEnv false [.general []] (geoDb .ui)

theorem keeps_unmanaged_geo :
    KeepsUnmanaged [.general []] (geoDb .ui) generalCall.1 ↔
      ∀ row ∈ (geoDb .ui).plugins, row.id ∉ givenIds [.general []] → row.method ≠ .manual →
        OwnsNothing row.id (geoDb .ui) :=
  have h : initTables initEnv false [.general []] (geoDb .ui) = (generalCall.1, .ok true) := by rfl
  keeps_unmanaged_iff (by decide) h

/-- The row of the plugin stays, its setting and its job go. -/
theorem settings_of_kept_plugin_lost :
    generalCall.2 = .ok true ∧ ¬ KeepsUnmanaged [.general []] (geoDb .ui) generalCall.1 := by
  refine ⟨rfl, fun h => ?_⟩
  have hsettings := (h _ List.mem_cons_self (by decide) (by decide)).settings _ List.mem_cons_self rfl
  revert hsettings
  decide

end BunkerWeb.Db.Init
