import BunkerWeb.Db.InitChanges

/-!
# When the initialization converges

A second call of `init_tables` with the same plugins should find nothing to do, and the tables
should then have for each plugin the rows that it describes. `initTables_converges_iff` says for
which plugins and tables this is so.
-/

namespace BunkerWeb.Db

open Lib

/-! ## What a plugin describes -/

def DefaultPlugin.settingRows (p : DefaultPlugin) : List SettingRow :=
  p.settings.zipIdx.map fun e => e.1.newRow p.id e.2

def DefaultPlugin.jobRows (p : DefaultPlugin) : List Job := p.jobs.map fun j => j.row p.id

def DefaultPlugin.pageRows (env : InitEnv) (p : DefaultPlugin) : List PluginPage :=
  ((p.archive env).map fun a => ⟨p.id, a.data, a.checksum⟩).toList

def DefaultPlugin.commandRows (p : DefaultPlugin) : List CliCommand :=
  p.commands.map fun e => ⟨e.1, p.id, e.2⟩

/-- The tables have exactly the rows that the plugin describes. -/
structure Described (env : InitEnv) (p : DefaultPlugin) (db : PluginDb) : Prop where
  settings : ∀ r : SettingRow, r.pluginId = p.id → (r ∈ db.settings ↔ r ∈ p.settingRows)
  selects : ∀ s : Select, s.settingId ∈ p.settings.map SettingInput.key →
    (s ∈ db.selects ↔ s ∈ p.settings.flatMap SettingInput.selects)
  multiselects : ∀ s : Multiselect, s.settingId ∈ p.settings.map SettingInput.key →
    (s ∈ db.multiselects ↔ s ∈ p.settings.flatMap SettingInput.multiselects)
  jobs : ∀ r : Job, r.pluginId = p.id → (r ∈ db.jobs ↔ r ∈ p.jobRows)
  pages : ∀ r : PluginPage, r.pluginId = p.id → (r ∈ db.pages ↔ r ∈ p.pageRows env)
  commands : ∀ r : CliCommand, r.pluginId = p.id → (r ∈ db.commands ↔ r ∈ p.commandRows)

/-- Each of the plugins has exactly its rows, and another call changes nothing. -/
def Converged (env : InitEnv) (inputs : List DefaultInput) (db : PluginDb) : Prop :=
  (∀ p ∈ inputs.map DefaultInput.base, Described env p db) ∧
    initTables env false inputs db = (db, .ok false)

/-! ## The condition -/

/-- Two plugins describe the same rows. -/
structure Alike (env : InitEnv) (p q : DefaultPlugin) : Prop where
  settings : ∀ r, r ∈ p.settingRows → r ∈ q.settingRows
  jobs : ∀ r, r ∈ p.jobRows → r ∈ q.jobRows
  pages : ∀ r, r ∈ p.pageRows env → r ∈ q.pageRows env
  commands : ∀ r, r ∈ p.commandRows → r ∈ q.commandRows

/-- No two rows of a plugin have the same name. -/
structure Distinct (p : DefaultPlugin) : Prop where
  settings : ∀ r ∈ p.settingRows, ∀ r' ∈ p.settingRows, r.id = r'.id → r = r'
  jobs : ∀ r ∈ p.jobRows, ∀ r' ∈ p.jobRows, r.name = r'.name → r = r'
  commands : ∀ r ∈ p.commandRows, ∀ r' ∈ p.commandRows, r.name = r'.name → r = r'

/-- The columns of a row that an update of the setting leaves as they are. -/
def KeptColumns (s : SettingInput) (r : SettingRow) : Prop :=
  (s.multiple = none → r.multiple = none) ∧ (s.separator = none → r.separator = some " ") ∧
    (s.accept = none → r.accept = none)

/-- What the plugins and the tables have to be like for the tables to converge. -/
structure Settled (env : InitEnv) (inputs : List DefaultInput) (db : PluginDb) : Prop where
  selects : ∀ p ∈ supported inputs, ∀ s ∈ p.settings, s.selects = []
  multiselects : ∀ p ∈ supported inputs, ∀ s ∈ p.settings, s.multiselects = []
  /-- No option of an earlier version is left. -/
  options : ∀ p ∈ supported inputs, ∀ m ∈ db.multiselects,
    m.settingId ∉ p.settings.map SettingInput.key
  alike : ∀ p ∈ inputs.map DefaultInput.base, ∀ q ∈ inputs.map DefaultInput.base, p.id = q.id →
    Alike env p q
  distinct : ∀ p ∈ inputs.map DefaultInput.base, Distinct p
  dropped : ∀ p ∈ inputs.map DefaultInput.base, p.id = "letsencrypt_dns" →
    p.settingRows = [] ∧ p.jobRows = [] ∧ p.pageRows env = [] ∧ p.commandRows = []
  columns : ∀ k e, (desired env (supported inputs)).settings.lookup k = some e →
    ∀ r ∈ db.settings, (r.pluginId, r.id) = k → KeptColumns e.1 r
  pages : ∀ k a, (desired env (supported inputs)).pages.lookup k = some a →
    ∀ r ∈ db.pages, r.pluginId = k → r.checksum = a.checksum → r.data = a.data
  valid : ∀ k default, (desired env (supported inputs)).templateSettings.lookup k = some default →
    isValidSetting env.toValidator ((supported inputs).flatMap DefaultPlugin.settingRows)
      (suffixedKey k.2.1 k.2.2.1) default = true
  steps : ∀ s ∈ db.templateSteps, ¬ NewTemplate (desired env (supported inputs)) db s.templateId
  settings : ∀ s ∈ db.templateSettings,
    NewTemplate (desired env (supported inputs)) db s.templateId →
    validRow env.toValidator ((supported inputs).flatMap DefaultPlugin.settingRows) s = false
  configs : ∀ c ∈ db.templateConfigs, ¬ NewTemplate (desired env (supported inputs)) db c.templateId

/-! ## The rows of the plugins -/

/-- A plugin that is not skipped. -/
def Kept (p : DefaultPlugin) : Bool := p.id ≠ "letsencrypt_dns"

theorem settingRows_eq (p : DefaultPlugin) :
    settingTable.rows p.settingItems = p.settingRows := by
  rw [Reconcile.rows, DefaultPlugin.settingItems, List.map_map]
  rfl

theorem jobRows_eq (p : DefaultPlugin) : jobTable.rows p.jobItems = p.jobRows := by
  rw [Reconcile.rows, DefaultPlugin.jobItems, List.map_map]
  rfl

theorem pageRows_eq (env : InitEnv) (p : DefaultPlugin) :
    pageTable.rows (p.pageItems env) = p.pageRows env := by
  rw [DefaultPlugin.pageItems, DefaultPlugin.pageRows]
  cases p.archive env <;> rfl

theorem commandRows_eq (p : DefaultPlugin) : commandTable.rows p.commandItems = p.commandRows := by
  rw [Reconcile.rows, DefaultPlugin.commandItems, List.map_map]
  rfl

theorem pluginId_of_mem_settingRows {p : DefaultPlugin} {r : SettingRow} (h : r ∈ p.settingRows) :
    r.pluginId = p.id := by
  obtain ⟨e, -, rfl⟩ := List.mem_map.mp h
  rfl

theorem pluginId_of_mem_jobRows {p : DefaultPlugin} {r : Job} (h : r ∈ p.jobRows) :
    r.pluginId = p.id := by
  obtain ⟨e, -, rfl⟩ := List.mem_map.mp h
  rfl

theorem pluginId_of_mem_commandRows {p : DefaultPlugin} {r : CliCommand} (h : r ∈ p.commandRows) :
    r.pluginId = p.id := by
  obtain ⟨e, -, rfl⟩ := List.mem_map.mp h
  rfl

/-- What it means for one table that the plugins do not contradict each other. -/
theorem consistent_iff_rows {κ ν ρ ι τ : Type} {c : Reconcile κ ν ρ ι} {given : List DefaultPlugin}
    {items : DefaultPlugin → List (κ × ν)} {rowsOf : DefaultPlugin → List ρ} {label : ρ → τ}
    (hrows : ∀ p, c.rows (items p) = rowsOf p)
    (hlabel : ∀ p, ∀ r ∈ rowsOf p, ∀ r' ∈ rowsOf p, label r = label r' ↔ c.key r = c.key r') :
    c.Consistent given DefaultPlugin.id Kept items ↔
    (∀ p ∈ given, ∀ q ∈ given, p.id = q.id → ∀ r, r ∈ rowsOf p → r ∈ rowsOf q) ∧
      (∀ p ∈ given, ∀ r ∈ rowsOf p, ∀ r' ∈ rowsOf p, label r = label r' → r = r') ∧
      ∀ p ∈ given, p.id = "letsencrypt_dns" → rowsOf p = [] := by
  have hempty : ∀ p, items p = [] ↔ rowsOf p = [] := fun p => by
    rw [← hrows p, Reconcile.rows, List.map_eq_nil_iff]
  have hkept : ∀ p, Kept p = false ↔ p.id = "letsencrypt_dns" := fun p => by simp [Kept]
  constructor
  · rintro ⟨halike, hdistinct, hdropped⟩
    refine ⟨fun p hp q hq hid r hr => ?_, fun p hp r hr r' hr' h => ?_, fun p hp hid => ?_⟩
    · rw [← hrows] at hr ⊢
      exact halike p hp q hq hid r hr
    · refine hdistinct p hp r ?_ r' ?_ ((hlabel p r hr r' hr').mp h)
      · rwa [hrows]
      · rwa [hrows]
    · exact (hempty p).mp (hdropped p hp ((hkept p).mpr hid))
  · rintro ⟨halike, hdistinct, hdropped⟩
    refine ⟨fun p hp q hq hid r hr => ?_, fun p hp r hr r' hr' h => ?_, fun p hp hk => ?_⟩
    · rw [hrows] at hr ⊢
      exact halike p hp q hq hid r hr
    · rw [hrows] at hr hr'
      exact hdistinct p hp r hr r' hr' ((hlabel p r hr r' hr').mpr h)
    · exact (hempty p).mpr (hdropped p hp ((hkept p).mp hk))

theorem settingTable_merge_eq_fresh {k : String × String} {e : SettingInput × Nat}
    {r : SettingRow} : settingTable.merge k e r = settingTable.fresh k e ↔ KeptColumns e.1 r := by
  obtain ⟨s, n⟩ := e
  simp only [settingTable, SettingInput.newRow, SettingInput.row, SettingRow.mk.injEq, true_and,
    and_true, KeptColumns]
  cases s.multiple <;> cases s.separator <;> cases s.accept <;> simp

theorem pageTable_merge_eq_fresh {k : String} {a : Archive} {r : PluginPage}
    (h : pageTable.key r = k) : pageTable.merge k a r = pageTable.fresh k a ↔
      (r.checksum = a.checksum → r.data = a.data) := by
  subst h
  obtain ⟨id, data, checksum⟩ := r
  simp only [pageTable]
  by_cases hsum : checksum = a.checksum <;> simp [hsum]

theorem consistent_tables_iff {env : InitEnv} {given : List DefaultPlugin} :
    (settingTable.Consistent given DefaultPlugin.id Kept DefaultPlugin.settingItems ∧
      jobTable.Consistent given DefaultPlugin.id Kept DefaultPlugin.jobItems ∧
      pageTable.Consistent given DefaultPlugin.id Kept (DefaultPlugin.pageItems env) ∧
      commandTable.Consistent given DefaultPlugin.id Kept DefaultPlugin.commandItems) ↔
    (∀ p ∈ given, ∀ q ∈ given, p.id = q.id → Alike env p q) ∧ (∀ p ∈ given, Distinct p) ∧
      ∀ p ∈ given, p.id = "letsencrypt_dns" →
        p.settingRows = [] ∧ p.jobRows = [] ∧ p.pageRows env = [] ∧ p.commandRows = [] := by
  have hsettings : ∀ p : DefaultPlugin, ∀ r ∈ p.settingRows, ∀ r' ∈ p.settingRows,
      r.id = r'.id ↔ settingTable.key r = settingTable.key r' := fun p r hr r' hr' => by
    simp [settingTable, pluginId_of_mem_settingRows hr, pluginId_of_mem_settingRows hr']
  have hjobs : ∀ p : DefaultPlugin, ∀ r ∈ p.jobRows, ∀ r' ∈ p.jobRows,
      r.name = r'.name ↔ jobTable.key r = jobTable.key r' := fun p r hr r' hr' => by
    simp [jobTable, pluginId_of_mem_jobRows hr, pluginId_of_mem_jobRows hr']
  have hcommands : ∀ p : DefaultPlugin, ∀ r ∈ p.commandRows, ∀ r' ∈ p.commandRows,
      r.name = r'.name ↔ commandTable.key r = commandTable.key r' := fun p r hr r' hr' => by
    simp [commandTable, pluginId_of_mem_commandRows hr, pluginId_of_mem_commandRows hr']
  have hpages : ∀ p : DefaultPlugin, ∀ r ∈ p.pageRows env, ∀ r' ∈ p.pageRows env,
      pageTable.key r = pageTable.key r' → r = r' := by
    intro p r hr r' hr' _
    rw [DefaultPlugin.pageRows, Option.mem_toList] at hr hr'
    exact Option.mem_unique hr hr'
  rw [consistent_iff_rows settingRows_eq hsettings, consistent_iff_rows jobRows_eq hjobs,
    consistent_iff_rows (pageRows_eq env) fun _ _ _ _ _ => Iff.rfl,
    consistent_iff_rows commandRows_eq hcommands]
  constructor
  · rintro ⟨⟨as, ds, es⟩, ⟨aj, dj, ej⟩, ⟨ap, -, ep⟩, ⟨ac, dc, ec⟩⟩
    exact ⟨fun p hp q hq h => ⟨as p hp q hq h, aj p hp q hq h, ap p hp q hq h, ac p hp q hq h⟩,
      fun p hp => ⟨ds p hp, dj p hp, dc p hp⟩,
      fun p hp h => ⟨es p hp h, ej p hp h, ep p hp h, ec p hp h⟩⟩
  · rintro ⟨a, d, e⟩
    exact ⟨⟨fun p hp q hq h => (a p hp q hq h).settings, fun p hp => (d p hp).settings,
        fun p hp h => (e p hp h).1⟩,
      ⟨fun p hp q hq h => (a p hp q hq h).jobs, fun p hp => (d p hp).jobs,
        fun p hp h => (e p hp h).2.1⟩,
      ⟨fun p hp q hq h => (a p hp q hq h).pages, fun p _ => hpages p,
        fun p hp h => (e p hp h).2.2.1⟩,
      ⟨fun p hp q hq h => (a p hp q hq h).commands, fun p hp => (d p hp).commands,
        fun p hp h => (e p hp h).2.2.2⟩⟩

section

variable {env : InitEnv} {inputs : List DefaultInput} {db : PluginDb} (hkeys : Indexed db)
  (hputs : Indexed ((changes (desired env (supported inputs)) db).put db))

theorem kept_of_id {p q : DefaultPlugin} (h : p.id = q.id) : Kept p = Kept q := by
  rw [Kept, Kept, h]

include hkeys hputs

theorem settings_described_iff :
    (∀ p ∈ inputs.map DefaultInput.base, ∀ r : SettingRow, r.pluginId = p.id →
      (r ∈ (initialized env (supported inputs) db).settings ↔ r ∈ p.settingRows)) ↔
    settingTable.Consistent (inputs.map DefaultInput.base) DefaultPlugin.id Kept
        DefaultPlugin.settingItems ∧
      ∀ k e, (desired env (supported inputs)).settings.lookup k = some e →
        ∀ r ∈ db.settings, (r.pluginId, r.id) = k → KeptColumns e.1 r := by
  have howner : ∀ p : DefaultPlugin, ∀ e ∈ p.settingItems, e.1.1 = p.id := by
    intro p e he
    obtain ⟨_, -, rfl⟩ := List.mem_map.mp he
    rfl
  have hdesired : (desired env (supported inputs)).settings = Dict.setAll ∅
      (((inputs.map DefaultInput.base).filter Kept).flatMap DefaultPlugin.settingItems) := rfl
  have h := Reconcile.described_iff settingTable_lawful (fun _ => rfl) hkeys.settings
    hputs.settings howner (fun _ _ => kept_of_id) hdesired
  simp only [settingRows_eq, settingTable_merge_eq_fresh] at h
  exact h

theorem jobs_described_iff :
    (∀ p ∈ inputs.map DefaultInput.base, ∀ r : Job, r.pluginId = p.id →
      (r ∈ (initialized env (supported inputs) db).jobs ↔ r ∈ p.jobRows)) ↔
    jobTable.Consistent (inputs.map DefaultInput.base) DefaultPlugin.id Kept
      DefaultPlugin.jobItems := by
  have howner : ∀ p : DefaultPlugin, ∀ e ∈ p.jobItems, e.1.1 = p.id := by
    intro p e he
    obtain ⟨_, -, rfl⟩ := List.mem_map.mp he
    rfl
  have hdesired : (desired env (supported inputs)).jobs = Dict.setAll ∅
      (((inputs.map DefaultInput.base).filter Kept).flatMap DefaultPlugin.jobItems) := rfl
  have h := Reconcile.described_iff jobTable_lawful (fun _ => rfl) hkeys.jobs hputs.jobs howner
    (fun _ _ => kept_of_id) hdesired
  simp only [jobRows_eq] at h
  exact h.trans (and_iff_left fun _ _ _ _ _ _ => rfl)

theorem pages_described_iff :
    (∀ p ∈ inputs.map DefaultInput.base, ∀ r : PluginPage, r.pluginId = p.id →
      (r ∈ (initialized env (supported inputs) db).pages ↔ r ∈ p.pageRows env)) ↔
    pageTable.Consistent (inputs.map DefaultInput.base) DefaultPlugin.id Kept
        (DefaultPlugin.pageItems env) ∧
      ∀ k a, (desired env (supported inputs)).pages.lookup k = some a →
        ∀ r ∈ db.pages, r.pluginId = k → r.checksum = a.checksum → r.data = a.data := by
  have howner : ∀ p : DefaultPlugin, ∀ e ∈ p.pageItems env, id e.1 = p.id := by
    intro p e he
    obtain ⟨a, -, rfl⟩ := Option.map_eq_some_iff.mp (Option.mem_toList.mp he)
    rfl
  have hdesired : (desired env (supported inputs)).pages = Dict.setAll ∅
      (((inputs.map DefaultInput.base).filter Kept).flatMap (DefaultPlugin.pageItems env)) := rfl
  have h := Reconcile.described_iff pageTable_lawful (fun _ => rfl) hkeys.pages hputs.pages howner
    (fun _ _ => kept_of_id) hdesired
  simp only [pageRows_eq] at h
  refine h.trans (and_congr_right fun _ => forall₂_congr fun k a => forall_congr' fun _ => ?_)
  exact forall₂_congr fun r _ => forall_congr' fun hkey => pageTable_merge_eq_fresh hkey

theorem commands_described_iff :
    (∀ p ∈ inputs.map DefaultInput.base, ∀ r : CliCommand, r.pluginId = p.id →
      (r ∈ (initialized env (supported inputs) db).commands ↔ r ∈ p.commandRows)) ↔
    commandTable.Consistent (inputs.map DefaultInput.base) DefaultPlugin.id Kept
      DefaultPlugin.commandItems := by
  have howner : ∀ p : DefaultPlugin, ∀ e ∈ p.commandItems, e.1.1 = p.id := by
    intro p e he
    obtain ⟨_, -, rfl⟩ := List.mem_map.mp he
    rfl
  have hdesired : (desired env (supported inputs)).commands = Dict.setAll ∅
      (((inputs.map DefaultInput.base).filter Kept).flatMap DefaultPlugin.commandItems) := rfl
  have h := Reconcile.described_iff commandTable_lawful (fun _ => rfl) hkeys.commands
    hputs.commands howner (fun _ _ => kept_of_id) hdesired
  simp only [commandRows_eq] at h
  exact h.trans (and_iff_left fun _ _ _ _ _ _ => rfl)

/-- The settings of the table are those of the plugins, when each has exactly its own. -/
theorem mem_settings_initialized
    (h : ∀ p ∈ inputs.map DefaultInput.base, ∀ r : SettingRow, r.pluginId = p.id →
      (r ∈ (initialized env (supported inputs) db).settings ↔ r ∈ p.settingRows))
    (r : SettingRow) : r ∈ (initialized env (supported inputs) db).settings ↔
      r ∈ (supported inputs).flatMap DefaultPlugin.settingRows := by
  rw [List.mem_flatMap]
  constructor
  · intro hr
    rcases (Reconcile.mem_apply settingTable_lawful hkeys.settings hputs.settings).mp hr with
      ⟨-, hno⟩ | ⟨k, e, hlookup, hmade⟩
    · cases (hno rfl).1
    · obtain ⟨p, hp, he⟩ := List.mem_flatMap.mp (Dict.mem_of_lookup_setAll hlookup)
      obtain ⟨_, -, heq⟩ := List.mem_map.mp he
      have hkey : (r.pluginId, r.id) = k := hmade.key_eq settingTable_lawful
      cases heq
      refine ⟨p, hp, (h p (List.mem_filter.mp hp).1 r ?_).mp hr⟩
      exact congrArg Prod.fst hkey
  · rintro ⟨p, hp, hr⟩
    exact (h p (List.mem_filter.mp hp).1 r (pluginId_of_mem_settingRows hr)).mpr hr

end

/-! ## Validity -/

theorem find?_eq_of_mem_iff {α β : Type} [DecidableEq β] {l l' : List α} {f : α → β}
    (hmem : ∀ a, a ∈ l ↔ a ∈ l') (hinj : ∀ a ∈ l, ∀ b ∈ l, f a = f b → a = b) (x : β) :
    l.find? (f · = x) = l'.find? (f · = x) := by
  cases h : l.find? (f · = x) with
  | none =>
    refine (List.find?_eq_none.mpr fun b hb => ?_).symm
    exact List.find?_eq_none.mp h b ((hmem b).mpr hb)
  | some a =>
    have ha := List.mem_of_find?_eq_some h
    have hfa : f a = x := by simpa using List.find?_some h
    cases h' : l'.find? (f · = x) with
    | none =>
      have := List.find?_eq_none.mp h' a ((hmem a).mp ha)
      simp [hfa] at this
    | some b =>
      have hfb : f b = x := by simpa using List.find?_some h'
      rw [hinj a ha b ((hmem b).mpr (List.mem_of_find?_eq_some h')) (by rw [hfa, hfb])]

theorem isValidSetting_congr {v : Validator} {settings settings' : List SettingRow}
    (h : ∀ x, settings.find? (·.id = x) = settings'.find? (·.id = x)) (setting value : String) :
    isValidSetting v settings setting value = isValidSetting v settings' setting value := by
  simp only [isValidSetting, findSetting, h]

/-! ## The tables converge -/

section

variable {env : InitEnv} {inputs : List DefaultInput} {db db₂ : PluginDb}

theorem desired_selects_eq_nil {ps : List DefaultPlugin} :
    (desired env ps).selects = [] ↔ ∀ p ∈ ps, ∀ s ∈ p.settings, s.selects = [] := by
  simp only [desired, List.dedup_eq_nil, List.flatMap_eq_nil_iff]

theorem desired_multiselects_eq_nil {ps : List DefaultPlugin} :
    (desired env ps).multiselects = [] ↔ ∀ p ∈ ps, ∀ s ∈ p.settings, s.multiselects = [] := by
  simp only [desired, List.dedup_eq_nil, List.flatMap_eq_nil_iff]

/-- The settings with the options of a plugin that has no options at all. -/
theorem supported_of_setting {p : DefaultPlugin} (hp : p ∈ inputs.map DefaultInput.base)
    (hdropped : p.id = "letsencrypt_dns" → p.settingRows = []) {id : String}
    (h : id ∈ p.settings.map SettingInput.key) : p ∈ supported inputs := by
  refine List.mem_filter.mpr ⟨hp, decide_eq_true fun hid => ?_⟩
  have hnil := hdropped hid
  rw [DefaultPlugin.settingRows, List.map_eq_nil_iff, List.zipIdx_eq_nil_iff] at hnil
  rw [hnil] at h
  cases h

/-- The rows of all plugins are exactly those that they describe, when no setting has options. -/
theorem described_all_iff (hkeys : Indexed db)
    (hputs : Indexed ((changes (desired env (supported inputs)) db).put db))
    (hselects : (desired env (supported inputs)).selects = [])
    (hmultiselects : (desired env (supported inputs)).multiselects = []) :
    (∀ p ∈ inputs.map DefaultInput.base, Described env p (initialized env (supported inputs) db)) ↔
    ((∀ p ∈ inputs.map DefaultInput.base, ∀ q ∈ inputs.map DefaultInput.base, p.id = q.id →
        Alike env p q) ∧ (∀ p ∈ inputs.map DefaultInput.base, Distinct p) ∧
      ∀ p ∈ inputs.map DefaultInput.base, p.id = "letsencrypt_dns" →
        p.settingRows = [] ∧ p.jobRows = [] ∧ p.pageRows env = [] ∧ p.commandRows = []) ∧
    (∀ k e, (desired env (supported inputs)).settings.lookup k = some e →
      ∀ r ∈ db.settings, (r.pluginId, r.id) = k → KeptColumns e.1 r) ∧
    (∀ k a, (desired env (supported inputs)).pages.lookup k = some a →
      ∀ r ∈ db.pages, r.pluginId = k → r.checksum = a.checksum → r.data = a.data) ∧
    ∀ p ∈ supported inputs, ∀ m ∈ db.multiselects,
      m.settingId ∉ p.settings.map SettingInput.key := by
  have hnoselects : ∀ p ∈ supported inputs, p.settings.flatMap SettingInput.selects = [] :=
    fun p hp => List.flatMap_eq_nil_iff.mpr (desired_selects_eq_nil.mp hselects p hp)
  have hnomultiselects : ∀ p ∈ supported inputs,
      p.settings.flatMap SettingInput.multiselects = [] :=
    fun p hp => List.flatMap_eq_nil_iff.mpr (desired_multiselects_eq_nil.mp hmultiselects p hp)
  rw [← consistent_tables_iff]
  constructor
  · intro h
    obtain ⟨hcs, hcolumns⟩ :=
      (settings_described_iff hkeys hputs).mp fun p hp => (h p hp).settings
    obtain ⟨hcp, hpages⟩ := (pages_described_iff hkeys hputs).mp fun p hp => (h p hp).pages
    have hcj := (jobs_described_iff hkeys hputs).mp fun p hp => (h p hp).jobs
    have hcc := (commands_described_iff hkeys hputs).mp fun p hp => (h p hp).commands
    refine ⟨⟨hcs, hcj, hcp, hcc⟩, hcolumns, hpages, fun p hp m hm hkey => ?_⟩
    have hmem := ((h p (List.mem_filter.mp hp).1).multiselects m hkey).mp
      (by rwa [initialized_multiselects hmultiselects])
    rw [hnomultiselects p hp] at hmem
    cases hmem
  · rintro ⟨hconsistent, hcolumns, hpages, hoptions⟩ p hp
    obtain ⟨hcs, hcj, hcp, hcc⟩ := hconsistent
    have hdropped := (consistent_tables_iff.mp ⟨hcs, hcj, hcp, hcc⟩).2.2 p hp
    refine ⟨(settings_described_iff hkeys hputs).mpr ⟨hcs, hcolumns⟩ p hp, fun s hs => ?_,
      fun m hm => ?_, (jobs_described_iff hkeys hputs).mpr hcj p hp,
      (pages_described_iff hkeys hputs).mpr ⟨hcp, hpages⟩ p hp,
      (commands_described_iff hkeys hputs).mpr hcc p hp⟩
    · have hsupported := supported_of_setting hp (fun h => (hdropped h).1) hs
      rw [initialized_selects hselects, hnoselects p hsupported]
    · have hsupported := supported_of_setting hp (fun h => (hdropped h).1) hm
      rw [initialized_multiselects hmultiselects, hnomultiselects p hsupported]
      exact iff_of_false (fun hmem => hoptions p hsupported m hmem hm) List.not_mem_nil

/-- The next call finds nothing to do. -/
theorem initTables_initialized_iff
    (hdone : env.commit (initialized env (supported inputs) db) = none) :
    initTables env false inputs (initialized env (supported inputs) db) =
      (initialized env (supported inputs) db, .ok false) ↔
    (nextChanges env (supported inputs) db).isEmpty = true := by
  have hvalid : checkTemplates env.toValidator (initialized env (supported inputs) db) =
      initialized env (supported inputs) db := by
    simp [initialized, checkTemplates]
  refine ⟨fun h => ?_, initTables_of_isEmpty hdone hvalid⟩
  obtain ⟨-, -, -, -, hchanged⟩ := initTables_ok h
  simpa [nextChanges] using hchanged

/-- What is valid for the settings of the table is valid for those of the plugins. -/
theorem isValidSetting_initialized (hkeys : Indexed db)
    (hputs : Indexed ((changes (desired env (supported inputs)) db).put db))
    (hids : ((initialized env (supported inputs) db).settings.map SettingRow.id).Nodup)
    (h : ∀ p ∈ inputs.map DefaultInput.base, ∀ r : SettingRow, r.pluginId = p.id →
      (r ∈ (initialized env (supported inputs) db).settings ↔ r ∈ p.settingRows))
    (setting value : String) :
    isValidSetting env.toValidator (initialized env (supported inputs) db).settings setting value =
      isValidSetting env.toValidator ((supported inputs).flatMap DefaultPlugin.settingRows) setting
        value := by
  refine isValidSetting_congr (fun x => ?_) setting value
  refine find?_eq_of_mem_iff (mem_settings_initialized hkeys hputs h) ?_ x
  exact fun a ha b hb => List.inj_on_of_nodup_map hids ha hb

/-- After a call that succeeds the tables have converged if and only if the plugins and the tables
before were settled. -/
theorem initTables_converges_iff (hcommit : ∀ d, env.commit d = none → TableKeys d)
    (hkeys : TableKeys db) {readonly changed : Bool}
    (h : initTables env readonly inputs db = (db₂, .ok changed)) :
    Converged env inputs db₂ ↔ Settled env inputs db := by
  obtain ⟨-, hput, hdone, rfl, -⟩ := initTables_ok h
  have hputs := (hcommit _ hput).indexed
  have hids := (hcommit _ hdone).primary.settings
  rw [Converged, initTables_initialized_iff hdone,
    nextChanges_isEmpty_iff hkeys.indexed hputs, steps_isEmpty_iff hkeys.indexed hputs,
    templateSettings_isEmpty_iff hkeys.indexed hputs, configs_isEmpty_iff hkeys.indexed hputs]
  constructor
  · rintro ⟨hdescribed, hselects, hmultiselects, hsteps, ⟨hdefaults, hrows⟩, hconfigs⟩
    have hv := isValidSetting_initialized hkeys.indexed hputs hids fun p hp =>
      (hdescribed p hp).settings
    obtain ⟨⟨halike, hdistinct, hdropped⟩, hcolumns, hpages, hoptions⟩ :=
      (described_all_iff hkeys.indexed hputs hselects hmultiselects).mp hdescribed
    exact
      { selects := desired_selects_eq_nil.mp hselects
        multiselects := desired_multiselects_eq_nil.mp hmultiselects
        options := hoptions
        alike := halike
        distinct := hdistinct
        dropped := hdropped
        columns := hcolumns
        pages := hpages
        valid := fun k default hk => by rw [← hv, hdefaults k default hk]
        steps := hsteps
        settings := fun s hs hnew => by rw [validRow, ← hv]; exact hrows s hs hnew
        configs := hconfigs }
  · intro hsettled
    have hselects : (desired env (supported inputs)).selects = [] :=
      desired_selects_eq_nil.mpr hsettled.selects
    have hmultiselects : (desired env (supported inputs)).multiselects = [] :=
      desired_multiselects_eq_nil.mpr hsettled.multiselects
    have hdescribed := (described_all_iff hkeys.indexed hputs hselects hmultiselects).mpr
      ⟨⟨hsettled.alike, hsettled.distinct, hsettled.dropped⟩, hsettled.columns, hsettled.pages,
        hsettled.options⟩
    have hv := isValidSetting_initialized hkeys.indexed hputs hids fun p hp =>
      (hdescribed p hp).settings
    refine ⟨hdescribed, hselects, hmultiselects, hsettled.steps, ⟨fun k default hk => ?_,
      fun s hs hnew => ?_⟩, hsettled.configs⟩
    · rw [hv, hsettled.valid k default hk]
    · rw [validRow, hv]
      exact hsettled.settings s hs hnew

end

/-! ## A plugin with options -/

/-- An environment without directories, whose database system looks at the keys. -/
def initEnv : InitEnv where
  services := []
  search _ _ _ := some true
  ignoreRegexCheck := false
  directory _ _ := ⟨none, [], none, []⟩
  bytesHash _ := ""
  commit db := if TableKeys db then none else some "UNIQUE constraint failed"

theorem initEnv_commit {db : PluginDb} (h : initEnv.commit db = none) : TableKeys db := by
  by_contra hkeys
  change (if TableKeys db then none else some _) = none at h
  rw [if_neg hkeys] at h
  cases h

/-- The plugin `geo` with one setting, whose values are to be chosen from `modes`. -/
def geoDefault (modes : List String) : DefaultInput :=
  .plugin
    { id := "geo"
      name := "Geo"
      description := ""
      version := "1.0"
      stream := .no
      type := some .core
      method := none
      data := none
      checksum := none
      settings := [⟨"GEO_MODE", "geo-mode", .multisite, "off", "", "", "^.*$", .select, none, none,
        none, modes, []⟩]
      jobs := [⟨"geo-download", "download.py", .day, some true, none⟩]
      commands := [("geo", "geo.py")] }

theorem initTables_converges_geo :
    Converged initEnv [geoDefault []] (initTables initEnv false [geoDefault []] PluginDb.empty).1 ↔
      Settled initEnv [geoDefault []] PluginDb.empty :=
  have hkeys : TableKeys PluginDb.empty := by decide
  have h : initTables initEnv false [geoDefault []] PluginDb.empty =
      ((initTables initEnv false [geoDefault []] PluginDb.empty).1, .ok true) := by rfl
  initTables_converges_iff (fun _ => initEnv_commit) hkeys h

/-- Each call deletes the options and puts them again. -/
theorem options_put_again :
    (initTables initEnv false [geoDefault ["off", "on"]] PluginDb.empty).2 = .ok true ∧
    ¬ Converged initEnv [geoDefault ["off", "on"]]
      (initTables initEnv false [geoDefault ["off", "on"]] PluginDb.empty).1 := by
  refine ⟨rfl, fun ⟨_, hcall⟩ => ?_⟩
  have hchanged : (initTables initEnv false [geoDefault ["off", "on"]]
      (initTables initEnv false [geoDefault ["off", "on"]] PluginDb.empty).1).2 = .ok true := rfl
  rw [hcall] at hchanged
  cases hchanged

end BunkerWeb.Db
