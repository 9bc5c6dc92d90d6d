import BunkerWeb.Db.TemplateWork

/-!
# Templates of others

What `update_external_plugins` leaves of the templates that belong to none of the plugins that it is
given. One turn of its loop works on the rows of one plugin, except for the deletions and updates
that look at the number of a step or at the name of a custom config only.
-/

namespace BunkerWeb.Db

open Lib

/-! ## Rows of others -/

section

variable (env : SyncEnv) (plugins : List PluginInput) (db : PluginDb)

/-- One of the plugins has this identifier. -/
def Given (pluginId : Option String) : Prop := ∃ p ∈ plugins, pluginId = some p.id

/-- A template of the database that belongs to none of the plugins. -/
def OtherTemplate (id : String) : Prop := ∃ t ∈ db.templates, t.id = id ∧ ¬ Given plugins t.pluginId

/-- More than one of the plugins has the identifier. -/
def Repeated (id : String) : Prop := 2 ≤ (plugins.map PluginInput.id).count id

/-- The database has the plugin and it may be updated (or another one of the list may have been
put under its identifier before). -/
def Updated (p : PluginInput) : Prop :=
  Repeated plugins p.id ∨ ∃ row ∈ db.plugins, row.id = p.id ∧ MayUpdate p row

/-- The files of the templates of a plugin. -/
def templateFiles (p : PluginInput) : List TemplateFile := (env.directory p.id).templates.getD []

/-- A plugin that is updated has a file with this template. -/
def Reads (id : String) (d : TemplateData) : Prop :=
  ∃ p ∈ plugins, Updated plugins db p ∧ ⟨id, some d⟩ ∈ templateFiles env p

/-- A template of the database whose plugin is given and does not have it any more. -/
def LostTemplate (id : String) : Prop :=
  ∃ t ∈ db.templates, t.id = id ∧
    ∃ p ∈ plugins, t.pluginId = some p.id ∧ id ∉ savedTemplates (templateFiles env p)

/-- The step is one of a template that is read, and the database does not have it for this
template (or loses it). -/
def MissingStep (k : Nat) : Prop :=
  ∃ id d e, Reads env plugins db id d ∧ (e, k) ∈ d.steps.zipIdx 1 ∧
    ((∀ s ∈ db.templateSteps, ¬ (s.id = k ∧ s.templateId = id)) ∨ LostTemplate env plugins db id)

/-- The step is one of a template that is read, and the database has it for this template with
another title or subtitle. -/
def RetitledStep (k : Nat) : Prop :=
  ∃ id d e, Reads env plugins db id d ∧ (e, k) ∈ d.steps.zipIdx 1 ∧
    ∃ s ∈ db.templateSteps, s.id = k ∧ s.templateId = id ∧
      ¬ (e.title = s.title ∧ e.subtitle = s.subtitle)

/-- A setting that one of the plugins has and does not have any more. -/
def RemovedSetting (id : String) : Prop :=
  ∃ p ∈ plugins, id ∉ p.settings.map SettingInput.key ∧
    ((∃ s ∈ db.settings, s.id = id ∧ s.pluginId = p.id ∧ (Repeated plugins p.id ∨
        ∃ row ∈ db.plugins, row.id = p.id ∧ MayUpdate p row ∧ ¬ SameContents p row)) ∨
      ∃ q ∈ plugins, q.id = p.id ∧ id ∈ q.settings.map SettingInput.key)

/-- A template that is read has a key that is taken to be the identity of the row. -/
def NamedIdentity (s : TemplateSettingRow) : Prop :=
  ∃ id d, Reads env plugins db id d ∧ ∃ e ∈ d.settings,
    env.identityIs (s.templateId, s.settingId, s.stepId, s.suffix) e.1 = true

/-- A template that is read has a custom config with the name as its reference. -/
def NamedConfig (name : String) : Prop :=
  ∃ id d, Reads env plugins db id d ∧ name ∈ d.configs

/-- The rows of the templates of others are as they were. -/
structure KeepsOthers (db' : PluginDb) : Prop where
  templates : ∀ t, ¬ Given plugins t.pluginId → (t ∈ db'.templates ↔ t ∈ db.templates)
  steps : ∀ s : TemplateStep, OtherTemplate plugins db s.templateId →
    ¬ MissingStep env plugins db s.id → ¬ RetitledStep env plugins db s.id →
    (s ∈ db'.templateSteps ↔ s ∈ db.templateSteps)
  settings : ∀ s : TemplateSettingRow, OtherTemplate plugins db s.templateId →
    ¬ MissingStep env plugins db s.stepId → ¬ RemovedSetting plugins db s.settingId →
    ¬ NamedIdentity env plugins db s → (s ∈ db'.templateSettings ↔ s ∈ db.templateSettings)
  configs : ∀ c : TemplateConfig, OtherTemplate plugins db c.templateId →
    ¬ MissingStep env plugins db c.stepId → ¬ NamedConfig env plugins db c.name →
    (c ∈ db'.templateConfigs ↔ c ∈ db.templateConfigs)

end

/-! ## What the turns keep -/

section

variable (env : SyncEnv) (plugins : List PluginInput) (db₀ : PluginDb)

/-- The tables of the plugins, settings and templates after the plugins `done`: what is new in them
belongs to these plugins. -/
structure Tables (done : List PluginInput) (db : PluginDb) : Prop where
  others : ∀ t, ¬ Given plugins t.pluginId → (t ∈ db.templates ↔ t ∈ db₀.templates)
  nodup : (db.templates.map Template.id).Nodup
  owned : ∀ t ∈ db.templates, t ∈ db₀.templates ∨
    ∃ p ∈ plugins, t.pluginId = some p.id ∧ t.id ∈ savedTemplates (templateFiles env p)
  pluginRows : ∀ r ∈ db.plugins, r.id ∈ done.map PluginInput.id ∨ r ∈ db₀.plugins
  settings : ∀ s ∈ db.settings, (∃ s₀ ∈ db₀.settings, s₀.id = s.id ∧ s₀.pluginId = s.pluginId) ∨
    ∃ p ∈ done, s.pluginId = p.id ∧ s.id ∈ p.settings.map SettingInput.key

/-- The parts of the templates of others are as they were, and the steps that the templates which
are read have in common with the database are still there. -/
structure PartsKept (db : PluginDb) : Prop where
  steps : ∀ s : TemplateStep, OtherTemplate plugins db₀ s.templateId →
    ¬ MissingStep env plugins db₀ s.id → ¬ RetitledStep env plugins db₀ s.id →
    (s ∈ db.templateSteps ↔ s ∈ db₀.templateSteps)
  settings : ∀ s : TemplateSettingRow, OtherTemplate plugins db₀ s.templateId →
    ¬ MissingStep env plugins db₀ s.stepId → ¬ RemovedSetting plugins db₀ s.settingId →
    ¬ NamedIdentity env plugins db₀ s → (s ∈ db.templateSettings ↔ s ∈ db₀.templateSettings)
  configs : ∀ c : TemplateConfig, OtherTemplate plugins db₀ c.templateId →
    ¬ MissingStep env plugins db₀ c.stepId → ¬ NamedConfig env plugins db₀ c.name →
    (c ∈ db.templateConfigs ↔ c ∈ db₀.templateConfigs)
  present : ∀ k, ¬ MissingStep env plugins db₀ k → ∀ id d e, Reads env plugins db₀ id d →
    (e, k) ∈ d.steps.zipIdx 1 → ∃ s ∈ db.templateSteps, s.id = k ∧ s.templateId = id
  titled : ∀ k, ¬ MissingStep env plugins db₀ k → ¬ RetitledStep env plugins db₀ k →
    ∀ id d e, Reads env plugins db₀ id d → (e, k) ∈ d.steps.zipIdx 1 →
    ∀ s ∈ db.templateSteps, s.id = k → s.templateId = id →
      e.title = s.title ∧ e.subtitle = s.subtitle

/-- The rows cannot be committed: one of them is a template with the identifier of another's. -/
def Doomed (put : PluginDb) : Prop := ∃ t ∈ put.templates, OtherTemplate plugins db₀ t.id

/-- The rows to put after the plugins `done`. -/
structure PutRows (done : List PluginInput) (put : PluginDb) : Prop where
  templates : ∀ t ∈ put.templates,
    ∃ p ∈ plugins, t.pluginId = some p.id ∧ t.id ∈ savedTemplates (templateFiles env p)
  pluginRows : ∀ r ∈ put.plugins, r.id ∈ done.map PluginInput.id
  settings : ∀ s ∈ put.settings,
    ∃ p ∈ done, s.pluginId = p.id ∧ s.id ∈ p.settings.map SettingInput.key
  steps : ∀ s ∈ put.templateSteps, OtherTemplate plugins db₀ s.templateId → Doomed plugins db₀ put
  templateSettings : ∀ s ∈ put.templateSettings, OtherTemplate plugins db₀ s.templateId →
    Doomed plugins db₀ put
  configs : ∀ c ∈ put.templateConfigs, OtherTemplate plugins db₀ c.templateId →
    Doomed plugins db₀ put

/-- A turn before it comes to the templates: it belongs to the plugins `done`, and it began with
the tables `start`. -/
structure EarlyOk (done : List PluginInput) (start : PluginDb) (t : Turn) : Prop where
  tables : Tables env plugins db₀ done t.db
  rows : PutRows env plugins db₀ done t.put
  parts : PartsKept env plugins db₀ start → PartsKept env plugins db₀ t.db

/-- A turn at its templates. When it reads a template of others, it puts one with the same
identifier. -/
structure TurnOk (done : List PluginInput) (start : PluginDb) (t : Turn) : Prop where
  tables : Tables env plugins db₀ done t.db
  rows : PutRows env plugins db₀ done t.put
  parts : PartsKept env plugins db₀ start →
    Doomed plugins db₀ t.put ∨ PartsKept env plugins db₀ t.db

end

section

variable {env : SyncEnv} {plugins : List PluginInput} {db₀ start : PluginDb}
  {done : List PluginInput} {p : PluginInput} {t t' : Turn}

/-- A template of others is not one of a plugin that is given. -/
theorem Tables.not_other {db : PluginDb} (h : Tables env plugins db₀ done db) {r : Template}
    (hr : r ∈ db.templates) (hgiven : Given plugins r.pluginId) :
    ¬ OtherTemplate plugins db₀ r.id := by
  rintro ⟨t, ht, hid, hnot⟩
  have heq := List.inj_on_of_nodup_map h.nodup ((h.others t hnot).mpr ht) hr hid
  exact hnot (heq ▸ hgiven)

theorem Doomed.mono {put put' : PluginDb} (h : Doomed plugins db₀ put)
    (hsub : ∀ t ∈ put.templates, t ∈ put'.templates) : Doomed plugins db₀ put' :=
  let ⟨t, ht, hother⟩ := h
  ⟨t, hsub t ht, hother⟩

theorem PutRows.empty : PutRows env plugins db₀ done .empty where
  templates _ h := by cases h
  pluginRows _ h := by cases h
  settings _ h := by cases h
  steps _ h := by cases h
  templateSettings _ h := by cases h
  configs _ h := by cases h

theorem PutRows.add {a b : PluginDb} (ha : PutRows env plugins db₀ done a)
    (hb : PutRows env plugins db₀ done b) : PutRows env plugins db₀ done (a.add b) := by
  have hleft : Doomed plugins db₀ a → Doomed plugins db₀ (a.add b) :=
    fun h => h.mono fun _ => List.mem_append_left _
  have hright : Doomed plugins db₀ b → Doomed plugins db₀ (a.add b) :=
    fun h => h.mono fun _ => List.mem_append_right _
  constructor
  · exact fun t ht => (List.mem_append.mp ht).elim (ha.templates t) (hb.templates t)
  · exact fun r hr => (List.mem_append.mp hr).elim (ha.pluginRows r) (hb.pluginRows r)
  · exact fun s hs => (List.mem_append.mp hs).elim (ha.settings s) (hb.settings s)
  · exact fun s hs ho => (List.mem_append.mp hs).elim (fun h => hleft (ha.steps s h ho))
      fun h => hright (hb.steps s h ho)
  · exact fun s hs ho => (List.mem_append.mp hs).elim (fun h => hleft (ha.templateSettings s h ho))
      fun h => hright (hb.templateSettings s h ho)
  · exact fun c hc ho => (List.mem_append.mp hc).elim (fun h => hleft (ha.configs c h ho))
      fun h => hright (hb.configs c h ho)

/-- Tables are changed, but not those of the templates. -/
theorem EarlyOk.set (h : EarlyOk env plugins db₀ done start t) {db : PluginDb} {changes : Bool}
    (hplugins : ∀ r ∈ db.plugins, r.id ∈ done.map PluginInput.id ∨ r ∈ t.db.plugins)
    (hsettings : ∀ s ∈ db.settings, ∃ s₁ ∈ t.db.settings, s₁.id = s.id ∧ s₁.pluginId = s.pluginId)
    (htemplates : db.templates = t.db.templates)
    (hsteps : db.templateSteps = t.db.templateSteps)
    (htsettings : db.templateSettings = t.db.templateSettings)
    (hconfigs : db.templateConfigs = t.db.templateConfigs) :
    EarlyOk env plugins db₀ done start { t with db := db, changes := changes } where
  tables :=
    { others := htemplates ▸ h.tables.others
      nodup := htemplates ▸ h.tables.nodup
      owned := htemplates ▸ h.tables.owned
      pluginRows := fun r hr => (hplugins r hr).elim .inl (h.tables.pluginRows r)
      settings := fun s hs => by
        obtain ⟨s₁, hs₁, hid, hplugin⟩ := hsettings s hs
        rw [← hid, ← hplugin]
        exact h.tables.settings s₁ hs₁ }
  rows := h.rows
  parts hstart :=
    have hp := h.parts hstart
    ⟨hsteps ▸ hp.steps, htsettings ▸ hp.settings, hconfigs ▸ hp.configs, hsteps ▸ hp.present,
      hsteps ▸ hp.titled⟩

/-- Rows are put. -/
theorem EarlyOk.add (h : EarlyOk env plugins db₀ done start t) {rows : PluginDb}
    (hrows : PutRows env plugins db₀ done rows) :
    EarlyOk env plugins db₀ done start (t.add rows) where
  tables := h.tables
  rows := h.rows.add hrows
  parts := h.parts

/-- Tables are changed, but not those of the plugins, settings and templates. -/
theorem EarlyOk.setOthers (h : EarlyOk env plugins db₀ done start t) {db : PluginDb} {changes : Bool}
    (hplugins : db.plugins = t.db.plugins) (hsettings : db.settings = t.db.settings)
    (htemplates : db.templates = t.db.templates) (hsteps : db.templateSteps = t.db.templateSteps)
    (htsettings : db.templateSettings = t.db.templateSettings)
    (hconfigs : db.templateConfigs = t.db.templateConfigs) :
    EarlyOk env plugins db₀ done start { t with db := db, changes := changes } :=
  h.set (fun _ hr => .inr (hplugins ▸ hr)) (fun s hs => ⟨s, hsettings ▸ hs, rfl, rfl⟩) htemplates
    hsteps htsettings hconfigs

/-- Rows that are no part of a template. -/
theorem PutRows.of_settings {rows : PluginDb} (hplugins : ∀ r ∈ rows.plugins, r.id = p.id)
    (hsettings : ∀ s ∈ rows.settings, s.pluginId = p.id ∧ s.id ∈ p.settings.map SettingInput.key)
    (htemplates : rows.templates = []) (hsteps : rows.templateSteps = [])
    (htsettings : rows.templateSettings = []) (hconfigs : rows.templateConfigs = [])
    (hp : p ∈ done) : PutRows env plugins db₀ done rows where
  templates t ht := by rw [htemplates] at ht; cases ht
  pluginRows r hr := List.mem_map.mpr ⟨p, hp, (hplugins r hr).symm⟩
  settings s hs := ⟨p, hp, hsettings s hs⟩
  steps s hs := by rw [hsteps] at hs; cases hs
  templateSettings s hs := by rw [htsettings] at hs; cases hs
  configs c hc := by rw [hconfigs] at hc; cases hc

/-- Rows of the plugin in tables that nothing here depends on. -/
theorem PutRows.of_others {rows : PluginDb} (hp : p ∈ done) (hplugins : rows.plugins = [])
    (hsettings : rows.settings = []) (htemplates : rows.templates = [])
    (hsteps : rows.templateSteps = []) (htsettings : rows.templateSettings = [])
    (hconfigs : rows.templateConfigs = []) : PutRows env plugins db₀ done rows :=
  .of_settings (fun r hr => by rw [hplugins] at hr; cases hr)
    (fun s hs => by rw [hsettings] at hs; cases hs) htemplates hsteps htsettings hconfigs hp

theorem Tables.mono {db : PluginDb} {done' : List PluginInput}
    (h : Tables env plugins db₀ done db) (hsub : ∀ q ∈ done, q ∈ done') :
    Tables env plugins db₀ done' db where
  others := h.others
  nodup := h.nodup
  owned := h.owned
  pluginRows r hr := (h.pluginRows r hr).imp_left fun hid => by
    obtain ⟨q, hq, heq⟩ := List.mem_map.mp hid
    exact List.mem_map.mpr ⟨q, hsub q hq, heq⟩
  settings s hs := (h.settings s hs).imp_right fun ⟨q, hq, hs⟩ => ⟨q, hsub q hq, hs⟩

/-! ### The plugin, its settings, jobs, page and commands -/

theorem syncRow_ok (h : EarlyOk env plugins db₀ done start t) (hp : p ∈ done) (type : PluginType)
    (row : Plugin) : EarlyOk env plugins db₀ done start (syncRow type p row t) := by
  unfold syncRow
  split
  · exact h
  · refine h.set (fun r hr => ?_) (fun s hs => ⟨s, hs, rfl, rfl⟩) rfl rfl rfl rfl
    obtain ⟨r₁, hr₁, rfl⟩ := List.mem_map.mp hr
    split
    · rename_i hid
      exact .inl (List.mem_map.mpr ⟨p, hp, hid.symm⟩)
    · exact .inr hr₁

theorem dropSettings_ok (h : EarlyOk env plugins db₀ done start t) (row : Plugin)
    (hremoved : ∀ s ∈ t.db.settings, s.pluginId = p.id → s.id ∉ p.settings.map SettingInput.key →
      ¬ SameContents p row → RemovedSetting plugins db₀ s.id) :
    EarlyOk env plugins db₀ done start (dropSettings p row t) := by
  unfold dropSettings
  dsimp only
  split
  · exact h
  · rename_i hcond
    refine ⟨⟨h.tables.others, h.tables.nodup, h.tables.owned, h.tables.pluginRows,
      fun s hs => h.tables.settings s (List.mem_filter.mp hs).1⟩, h.rows, fun hstart => ?_⟩
    have hparts := h.parts hstart
    refine ⟨hparts.steps, fun s ho hm hr hn => ?_, hparts.configs, hparts.present, hparts.titled⟩
    rw [← hparts.settings s ho hm hr hn]
    refine mem_filter_iff_of_pos (decide_eq_true fun hmem => hr ?_)
    obtain ⟨hof, hkey⟩ := List.mem_filter.mp hmem
    obtain ⟨r, hrow, hid⟩ := List.mem_map.mp hof
    obtain ⟨hrow, hplugin⟩ := List.mem_filter.mp hrow
    rw [← hid] at hkey ⊢
    exact hremoved r hrow (of_decide_eq_true hplugin) (of_decide_eq_true hkey) fun hsame =>
      hcond (.inr hsame)

theorem syncSelects_ok (h : EarlyOk env plugins db₀ done start t) (hp : p ∈ done)
    (s : SettingInput) : EarlyOk env plugins db₀ done start (syncSelects s t) := by
  unfold syncSelects
  split
  · refine EarlyOk.add ?_ (.of_others hp rfl rfl rfl rfl rfl rfl)
    exact h.setOthers rfl rfl rfl rfl rfl rfl
  · exact h

theorem syncMultiselects_ok (h : EarlyOk env plugins db₀ done start t) (hp : p ∈ done)
    (s : SettingInput) : EarlyOk env plugins db₀ done start (syncMultiselects s t) := by
  unfold syncMultiselects
  split
  · exact h
  · refine EarlyOk.add ?_ (.of_others hp rfl rfl rfl rfl rfl rfl)
    exact h.setOthers rfl rfl rfl rfl rfl rfl

/-- The rows of a new setting. -/
theorem putSetting_ok (h : EarlyOk env plugins db₀ done start t) (hp : p ∈ done)
    {s : SettingInput} (hs : s ∈ p.settings) (order : Nat) :
    EarlyOk env plugins db₀ done start (t.add { PluginDb.empty with
      settings := [s.newRow p.id order]
      selects := s.selects
      multiselects := s.multiselects }) := by
  refine h.add (.of_settings (p := p) (fun _ h => by cases h) (fun r hr => ?_) rfl rfl rfl rfl hp)
  rw [List.mem_singleton.mp hr]
  exact ⟨rfl, List.mem_map_of_mem hs⟩

theorem syncSetting_ok (h : EarlyOk env plugins db₀ done start t) (hp : p ∈ done)
    {e : SettingInput × Nat} (he : e.1 ∈ p.settings) (ids : List String) :
    EarlyOk env plugins db₀ done start (syncSetting p.id ids t e) := by
  obtain ⟨s, order⟩ := e
  unfold syncSetting
  dsimp only
  split
  · split
    · exact putSetting_ok h hp he order
    · refine syncMultiselects_ok (syncSelects_ok ?_ hp s) hp s
      split
      · exact h
      · refine h.set (fun r hr => .inr hr) (fun r hr => ?_) rfl rfl rfl rfl
        obtain ⟨r₁, hr₁, rfl⟩ := List.mem_map.mp hr
        split
        · rename_i hid
          exact ⟨r₁, hr₁, hid, rfl⟩
        · exact ⟨r₁, hr₁, rfl, rfl⟩
  · exact putSetting_ok h hp he order

theorem dropJobs_ok (h : EarlyOk env plugins db₀ done start t) :
    EarlyOk env plugins db₀ done start (dropJobs p t) := by
  unfold dropJobs
  dsimp only
  split
  · exact h
  · exact h.setOthers rfl rfl rfl rfl rfl rfl

theorem syncJob_ok (h : EarlyOk env plugins db₀ done start t) (hp : p ∈ done) {j : JobInput}
    (hj : syncJob p.id t j = .ok t') : EarlyOk env plugins db₀ done start t' := by
  unfold syncJob at hj
  split at hj
  · cases hj
    exact h.add (.of_others hp rfl rfl rfl rfl rfl rfl)
  · split at hj
    · cases hj
      exact h
    · cases hj

theorem syncPage_ok (h : EarlyOk env plugins db₀ done start t) (hp : p ∈ done)
    {ui : Option (Option Archive)} (ht : syncPage p.id ui t = some t') :
    EarlyOk env plugins db₀ done start t' := by
  unfold syncPage at ht
  dsimp only at ht
  split at ht
  · cases ht
    exact h
  · cases ht
    exact h.setOthers rfl rfl rfl rfl rfl rfl
  · cases ht
  · cases ht
    exact h.add (.of_others hp rfl rfl rfl rfl rfl rfl)
  · split at ht <;> cases ht <;> exact h.setOthers rfl rfl rfl rfl rfl rfl

theorem syncCommand_ok (h : EarlyOk env plugins db₀ done start t) (hp : p ∈ done)
    (files : List String) (e : String × String) :
    EarlyOk env plugins db₀ done start (syncCommand p.id files t e) := by
  unfold syncCommand
  dsimp only
  split
  · split
    · exact h.add (.of_others hp rfl rfl rfl rfl rfl rfl)
    · exact h
  · split
    · exact h
    · split <;> exact h.setOthers rfl rfl rfl rfl rfl rfl

/-! ### The templates -/

theorem mem_savedTemplates {files : List TemplateFile} {f : TemplateFile} {d : TemplateData}
    (hf : f ∈ files) (hd : f.data = some d) : f.stem ∈ savedTemplates files :=
  List.mem_map_of_mem (List.mem_filter.mpr ⟨hf, by rw [hd]; rfl⟩)

theorem EarlyOk.turnOk (h : EarlyOk env plugins db₀ done start t) :
    TurnOk env plugins db₀ done start t :=
  ⟨h.tables, h.rows, fun hstart => .inr (h.parts hstart)⟩

/-- The row of a template is put. -/
theorem TurnOk.add (h : TurnOk env plugins db₀ done start t) {rows : PluginDb}
    (hrows : PutRows env plugins db₀ done rows) :
    TurnOk env plugins db₀ done start (t.add rows) where
  tables := h.tables
  rows := h.rows.add hrows
  parts hstart := (h.parts hstart).imp_left fun hd => hd.mono fun _ => List.mem_append_left _

/-- The steps of a template that is read are there, unless they are missing from the start. -/
theorem PartsKept.not_missing {db : PluginDb} (h : PartsKept env plugins db₀ db) {id : String}
    {d : TemplateData} (hread : Reads env plugins db₀ id d) {k : Nat}
    (hk : ¬ MissingStep env plugins db₀ k) : k ∉ missingSteps db id d := by
  intro hmem
  obtain ⟨hrange, hno⟩ := List.mem_filter.mp hmem
  obtain ⟨h1, h2⟩ := List.mem_range'_1.mp hrange
  have he : (d.steps[k - 1], k) ∈ d.steps.zipIdx 1 :=
    List.mk_mem_zipIdx_iff_le_and_getElem?_sub.mpr ⟨h1, by simp⟩
  obtain ⟨s, hs, hid, htemplate⟩ := h.present k hk id d _ hread he
  exact of_decide_eq_true hno s hs ⟨hid, htemplate⟩

/-- Work on a template that is none of others keeps the parts of the templates of others. -/
theorem PartsKept.work (h : PartsKept env plugins db₀ t.db) {id : String} {d : TemplateData}
    (hother : ¬ OtherTemplate plugins db₀ id) (hread : Reads env plugins db₀ id d)
    (known own : List String) (dir : PluginDir) :
    PartsKept env plugins db₀ (syncParts env known own dir id d t).db := by
  have hwork : TemplateWork id (fun k => ¬ MissingStep env plugins db₀ k)
      (fun k => ¬ MissingStep env plugins db₀ k ∧ ¬ RetitledStep env plugins db₀ k)
      (fun s => OtherTemplate plugins db₀ s.templateId ∧ ¬ MissingStep env plugins db₀ s.stepId ∧
        ¬ NamedIdentity env plugins db₀ s)
      (fun c => OtherTemplate plugins db₀ c.templateId ∧ ¬ MissingStep env plugins db₀ c.stepId ∧
        ¬ NamedConfig env plugins db₀ c.name) t (syncParts env known own dir id d t) := by
    refine syncParts_work (fun k => h.not_missing hread) (fun k hk => ⟨hk.1, fun e he => ?_⟩)
      (fun s hs => ?_) fun c hc => ?_
    · exact h.titled k hk.1 hk.2 id d e hread he
    · refine ⟨hs.2.1, fun hid => hother (hid ▸ hs.1), fun e he => ?_⟩
      exact Bool.eq_false_iff.mpr fun hident => hs.2.2 ⟨id, d, hread, e, he, hident⟩
    · exact ⟨hc.2.1, fun hid => hother (hid ▸ hc.1), fun hname => hc.2.2 ⟨id, d, hread, hname⟩⟩
  constructor
  · exact fun s ho hm hr => (hwork.steps s ⟨hm, hr⟩).trans (h.steps s ho hm hr)
  · exact fun s ho hm hr hn => (hwork.settings s ⟨ho, hm, hn⟩).trans (h.settings s ho hm hr hn)
  · exact fun c ho hm hn => (hwork.configs c ⟨ho, hm, hn⟩).trans (h.configs c ho hm hn)
  · intro k hk id' d' e hread' he
    obtain ⟨s, hs, hid, htemplate⟩ := h.present k hk id' d' e hread' he
    obtain ⟨s', hs', hid', htemplate'⟩ := hwork.present s hs (hid ▸ hk)
    exact ⟨s', hs', hid'.trans hid, htemplate'.trans htemplate⟩
  · intro k hm hr id' d' e hread' he s hs hid
    exact h.titled k hm hr id' d' e hread' he s ((hwork.steps s (hid ▸ ⟨hm, hr⟩)).mp hs) hid

/-- Work on one template. -/
theorem TurnOk.work (h : TurnOk env plugins db₀ done start t) {id : String} {d : TemplateData}
    (hput : OtherTemplate plugins db₀ id → Doomed plugins db₀ t.put)
    (hread : Reads env plugins db₀ id d) (known own : List String) (dir : PluginDir) :
    TurnOk env plugins db₀ done start (syncParts env known own dir id d t) := by
  have hnone : TemplateWork id (fun _ => False) (fun _ => False) (fun _ => False) (fun _ => False) t
      (syncParts env known own dir id d t) :=
    syncParts_work (fun _ h => h.elim) (fun _ h => h.elim) (fun _ h => h.elim) fun _ h => h.elim
  have htemplates := congrArg PluginDb.templates hnone.db
  have hplugins := congrArg PluginDb.plugins hnone.db
  have hsettings := congrArg PluginDb.settings hnone.db
  dsimp only at htemplates hplugins hsettings
  have hdoomed : Doomed plugins db₀ t.put →
      Doomed plugins db₀ (syncParts env known own dir id d t).put :=
    fun hd => hd.mono fun _ ht => hnone.putTemplates ▸ ht
  refine ⟨⟨htemplates ▸ h.tables.others, htemplates ▸ h.tables.nodup, htemplates ▸ h.tables.owned,
    hplugins ▸ h.tables.pluginRows, hsettings ▸ h.tables.settings⟩,
    ⟨hnone.putTemplates ▸ h.rows.templates, hnone.putPlugins ▸ h.rows.pluginRows,
      hnone.putSettings ▸ h.rows.settings, fun s hs ho => hdoomed ?_, fun s hs ho => hdoomed ?_,
      fun c hc ho => hdoomed ?_⟩, fun hstart => ?_⟩
  · exact (hnone.putSteps s hs).elim (fun hs => h.rows.steps s hs ho) fun hid => hput (hid ▸ ho)
  · exact (hnone.putTemplateSettings s hs).elim (fun hs => h.rows.templateSettings s hs ho)
      fun hid => hput (hid ▸ ho)
  · exact (hnone.putConfigs c hc).elim (fun hc => h.rows.configs c hc ho) fun hid => hput (hid ▸ ho)
  · refine (h.parts hstart).elim (fun hd => .inl (hdoomed hd)) fun hparts => ?_
    by_cases hother : OtherTemplate plugins db₀ id
    · exact .inl (hdoomed (hput hother))
    · exact .inr (hparts.work hother hread known own dir)

/-- The row of a template that is put. -/
theorem PutRows.of_template {stem : String} {d : TemplateData} (hp : p ∈ plugins)
    (hsaved : stem ∈ savedTemplates (templateFiles env p)) :
    PutRows env plugins db₀ done { PluginDb.empty with templates := [templateInsert p stem d] } where
  templates t ht := by
    rw [List.mem_singleton.mp ht]
    exact ⟨p, hp, rfl, hsaved⟩
  pluginRows _ h := by cases h
  settings _ h := by cases h
  steps _ h := by cases h
  templateSettings _ h := by cases h
  configs _ h := by cases h

theorem syncTemplate_ok (h : TurnOk env plugins db₀ done start t) (hp : p ∈ plugins)
    (hupdated : Updated plugins db₀ p) {f : TemplateFile} (hf : f ∈ templateFiles env p)
    (known : List String) (dir : PluginDir) :
    TurnOk env plugins db₀ done start (syncTemplate env known p dir t f) := by
  unfold syncTemplate
  split
  · exact h
  · rename_i d hd
    have hread : Reads env plugins db₀ f.stem d := ⟨p, hp, hupdated, hd ▸ hf⟩
    dsimp only
    split
    · rename_i hrow
      obtain ⟨row, hrow, hid, hplugin⟩ := hrow
      refine h.work (fun hother => ?_) hread known _ dir
      exact absurd (hid ▸ hother) (h.tables.not_other hrow ⟨p, hp, hplugin⟩)
    · refine (h.add (.of_template hp (mem_savedTemplates hf hd))).work (fun hother => ?_) hread
        known _ dir
      exact ⟨_, List.mem_append_right _ (List.mem_singleton_self _), hother⟩

/-- The removal of a template that is the plugin's own and that it no longer has. -/
theorem removeOwnTemplate_ok (h : TurnOk env plugins db₀ done start t) (hp : p ∈ plugins)
    {id : String} (hother : ¬ OtherTemplate plugins db₀ id) (hlost : LostTemplate env plugins db₀ id)
    {changes : Bool} : TurnOk env plugins db₀ done start
      { t with db := removeOwnTemplate p.id t.db id, changes := changes } := by
  refine ⟨⟨fun r hr => ?_, h.tables.nodup.sublist (List.filter_sublist.map _), fun r hr =>
    h.tables.owned r (List.mem_filter.mp hr).1, h.tables.pluginRows, h.tables.settings⟩, h.rows,
    fun hstart => (h.parts hstart).imp_right fun hparts => ?_⟩
  · rw [← h.tables.others r hr]
    exact mem_filter_iff_of_pos (decide_eq_true fun hid => hr ⟨p, hp, hid.2⟩)
  have hne : ∀ {x}, OtherTemplate plugins db₀ x → x ≠ id := fun ho heq => hother (heq ▸ ho)
  refine ⟨fun s ho hm hr => ?_, fun s ho hm hr hn => ?_, fun c ho hm hn => ?_,
    fun k hk id' d e hread he => ?_, fun k hm hr id' d e hread he s hs =>
      hparts.titled k hm hr id' d e hread he s (List.mem_filter.mp hs).1⟩
  · rw [← hparts.steps s ho hm hr]
    exact mem_filter_iff_of_pos (decide_eq_true (hne ho))
  · rw [← hparts.settings s ho hm hr hn]
    exact mem_filter_iff_of_pos (decide_eq_true (hne ho))
  · rw [← hparts.configs c ho hm hn]
    exact mem_filter_iff_of_pos (decide_eq_true (hne ho))
  · obtain ⟨s, hs, hid, htemplate⟩ := hparts.present k hk id' d e hread he
    refine ⟨s, List.mem_filter.mpr ⟨hs, decide_eq_true fun heq => hk ?_⟩, hid, htemplate⟩
    exact ⟨id', d, e, hread, he, .inr (htemplate.symm.trans heq ▸ hlost)⟩

/-- Templates of the plugin that it has no file of. -/
theorem lostTemplate {db : PluginDb} (h : Tables env plugins db₀ done db) (hp : p ∈ plugins)
    {id : String} (hid : id ∈ templatesOf p.id db)
    (hsaved : id ∉ savedTemplates (templateFiles env p)) :
    ¬ OtherTemplate plugins db₀ id ∧ LostTemplate env plugins db₀ id := by
  obtain ⟨r, hr, rfl⟩ := List.mem_map.mp hid
  obtain ⟨hr, hplugin⟩ := List.mem_filter.mp hr
  have hplugin := of_decide_eq_true hplugin
  refine ⟨h.not_other hr ⟨p, hp, hplugin⟩, ?_⟩
  rcases h.owned r hr with hr₀ | ⟨q, -, hq, hqsaved⟩
  · exact ⟨r, hr₀, rfl, p, hp, hplugin, hsaved⟩
  · -- the directory of a plugin is that of its identifier
    have hsame : p.id = q.id := Option.some.inj (hplugin.symm.trans hq)
    exact absurd (by rwa [templateFiles, ← hsame] at hqsaved) hsaved

theorem syncTemplates_ok (h : TurnOk env plugins db₀ done start t) (hp : p ∈ plugins)
    (hupdated : Updated plugins db₀ p) (known : List String) :
    TurnOk env plugins db₀ done start (syncTemplates env known p (env.directory p.id) t) := by
  unfold syncTemplates
  dsimp only
  split
  · rename_i hnone
    have hsaved : ∀ id, id ∉ savedTemplates (templateFiles env p) := fun id hid => by
      rw [templateFiles, hnone] at hid
      cases hid
    refine List.foldlRecOn (motive := fun db => TurnOk env plugins db₀ done start { t with db := db })
      (templatesOf p.id t.db) (removeOwnTemplate p.id) h fun db hdb id hid => ?_
    obtain ⟨hother, hlost⟩ := lostTemplate h.tables hp hid (hsaved id)
    exact removeOwnTemplate_ok hdb hp hother hlost
  · rename_i files hfiles
    have hfile : ∀ f ∈ files, f ∈ templateFiles env p := fun f hf => by rwa [templateFiles, hfiles]
    have hsync : TurnOk env plugins db₀ done start
        (files.foldl (syncTemplate env known p (env.directory p.id)) t) :=
      List.foldlRecOn files _ h fun t₁ h₁ f hf =>
        syncTemplate_ok h₁ hp hupdated (hfile f hf) known _
    refine List.foldlRecOn _ _ hsync fun t₁ h₁ id hid => ?_
    obtain ⟨hid, hsaved⟩ := List.mem_filter.mp hid
    obtain ⟨hother, hlost⟩ := lostTemplate h.tables hp hid
      (by rw [templateFiles, hfiles]; exact of_decide_eq_true hsaved)
    exact removeOwnTemplate_ok h₁ hp hother hlost

/-! ### Whole turns -/

/-- What a turn begins with. -/
theorem Tables.earlyOk {db : PluginDb} (h : Tables env plugins db₀ done db) :
    EarlyOk env plugins db₀ done db ⟨db, .empty, false⟩ :=
  ⟨h, .empty, id⟩

/-- A plugin that comes again after one with its identifier is repeated. -/
theorem repeated_of_mem {todo : List PluginInput} (hplugins : plugins = done ++ p :: todo)
    (h : p.id ∈ done.map PluginInput.id) : Repeated plugins p.id := by
  have hcount := List.count_pos_iff.mpr h
  rw [Repeated, hplugins, List.map_append, List.count_append, List.map_cons, List.count_cons_self]
  omega

theorem updatePlugin_ok {todo : List PluginInput} {db : PluginDb} {type : PluginType}
    {known : List String} {row : Plugin} {commits : Bool} (hplugins : plugins = done ++ p :: todo)
    (h : Tables env plugins db₀ done db) (hrow : row ∈ db.plugins) (hid : row.id = p.id)
    (hmay : MayUpdate p row) (ht : updatePlugin env type known p row db = .ok (t, commits)) :
    TurnOk env plugins db₀ (done ++ [p]) db t ∧ (commits = false → t.put = .empty) := by
  have hp : p ∈ done ++ [p] := List.mem_append_right _ (List.mem_singleton_self p)
  have hmem : p ∈ plugins := by rw [hplugins]; simp
  have hrowcases : Repeated plugins p.id ∨ row ∈ db₀.plugins :=
    (h.pluginRows row hrow).imp_left fun hdone => repeated_of_mem hplugins (hid ▸ hdone)
  have hupdated : Updated plugins db₀ p := hrowcases.imp_right fun hr => ⟨row, hr, hid, hmay⟩
  have hsync := syncRow_ok (h.mono fun q hq => List.mem_append_left [p] hq).earlyOk hp type row
  have hsettings : (syncRow type p row ⟨db, .empty, false⟩).db.settings = db.settings := by
    unfold syncRow
    split <;> rfl
  have hdrop := dropSettings_ok (p := p) hsync row fun s hs hplugin hkey hsame => by
    rw [hsettings] at hs
    rcases h.settings s hs with ⟨s₀, hs₀, hid₀, hplugin₀⟩ | ⟨q, hq, hplugin', hkey'⟩
    · refine ⟨p, hmem, hkey, .inl ⟨s₀, hs₀, hid₀, hplugin₀.trans hplugin, ?_⟩⟩
      exact hrowcases.imp_right fun hr => ⟨row, hr, hid, hmay, hsame⟩
    · exact ⟨p, hmem, hkey, .inr ⟨q, by rw [hplugins]; exact List.mem_append_left _ hq,
        hplugin'.symm.trans hplugin, hkey'⟩⟩
  unfold updatePlugin at ht
  obtain ⟨t₁, hjobs, ht⟩ := bind_eq_ok.mp ht
  have hset := List.foldlRecOn (motive := EarlyOk env plugins db₀ (done ++ [p]) db) p.settings.zipIdx
    (syncSetting p.id (settingsOf p.id (syncRow type p row ⟨db, .empty, false⟩).db)) hdrop
    fun t₂ h₂ e he => syncSetting_ok h₂ hp (List.fst_mem_of_mem_zipIdx he) _
  have hjob : EarlyOk env plugins db₀ (done ++ [p]) db t₁ :=
    foldlM_ok (fun _ => EarlyOk env plugins db₀ (done ++ [p]) db)
      (fun _ j t₂ t₃ _ h₂ hj => syncJob_ok h₂ hp hj) (dropJobs_ok hset) hjobs
  split at ht
  · cases ht
    exact ⟨⟨hjob.tables, .empty, fun hstart => .inr (hjob.parts hstart)⟩, fun _ => rfl⟩
  · rename_i t₂ hpage
    cases ht
    refine ⟨syncTemplates_ok (EarlyOk.turnOk ?_) hmem hupdated known, fun h => by cases h⟩
    refine List.foldlRecOn _ _ ?_ fun t₃ h₃ e _ => syncCommand_ok h₃ hp _ e
    exact (syncPage_ok hjob hp hpage).setOthers rfl rfl rfl rfl rfl rfl

theorem addSettings_ok {db : PluginDb} (hp : p ∈ done) (l : List SettingInput)
    (hl : ∀ s ∈ l, s ∈ p.settings) : PutRows env plugins db₀ done
      (l.foldl (addSetting db p.id) (.empty, 0, [])).1 := by
  refine List.foldlRecOn (motive := fun r => PutRows env plugins db₀ done r.1) l
    (addSetting db p.id) (b := (.empty, 0, [])) .empty fun r hr s hs => ?_
  unfold addSetting
  dsimp only
  split
  · exact hr
  · refine hr.add
      (.of_settings (p := p) (fun _ h => by cases h) (fun s' hs' => ?_) rfl rfl rfl rfl hp)
    rw [List.mem_singleton.mp hs']
    exact ⟨rfl, List.mem_map_of_mem (hl s hs)⟩

theorem templateInserts_ok {db : PluginDb} {known own : List String} {dir : PluginDir}
    (hp : p ∈ plugins) {f : TemplateFile} (hf : f ∈ templateFiles env p) :
    PutRows env plugins db₀ done (templateInserts env known own db p dir f) := by
  unfold templateInserts
  split
  · exact .empty
  · rename_i d hd
    have hsettings : ∀ s ∈ d.settings.foldl (addTemplateSetting env known own db f.stem d.steps) [],
        s.templateId = f.stem := by
      refine List.foldlRecOn (motive := fun l : List TemplateSettingRow =>
        ∀ s ∈ l, s.templateId = f.stem) _ _ (fun _ h => by cases h) fun l hl e _ s hs => ?_
      unfold addTemplateSetting at hs
      dsimp only at hs
      split at hs
      · split at hs
        · exact hl s hs
        · exact (List.mem_append.mp hs).elim (hl s) fun h => by rw [List.mem_singleton.mp h]
      · exact hl s hs
    have hconfigs : ∀ c ∈ d.configs.foldl (addTemplateConfig env dir f.stem d.steps) [],
        c.templateId = f.stem := by
      refine List.foldlRecOn (motive := fun l : List TemplateConfig =>
        ∀ c ∈ l, c.templateId = f.stem) _ _ (fun _ h => by cases h) fun l hl e _ c hc => ?_
      unfold addTemplateConfig at hc
      split at hc
      · exact hl c hc
      · rename_i row hrow
        exact (List.mem_append.mp hc).elim (hl c) fun h => by
          rw [List.mem_singleton.mp h, configRow_templateId hrow]
    have hdoomed : OtherTemplate plugins db₀ f.stem → Doomed plugins db₀
        { PluginDb.empty with
          templates := [templateInsert p f.stem d]
          templateSteps := (d.steps.zipIdx 1).map fun e => ⟨e.2, f.stem, e.1.title, e.1.subtitle⟩
          templateSettings := d.settings.foldl (addTemplateSetting env known own db f.stem d.steps) []
          templateConfigs := d.configs.foldl (addTemplateConfig env dir f.stem d.steps) [] } :=
      fun ho => ⟨_, List.mem_singleton_self _, ho⟩
    have hrow : PutRows env plugins db₀ done
        { PluginDb.empty with templates := [templateInsert p f.stem d] } :=
      .of_template hp (mem_savedTemplates hf hd)
    refine ⟨hrow.templates, hrow.pluginRows, hrow.settings, fun s hs ho => ?_, fun s hs ho => ?_,
      fun c hc ho => ?_⟩
    · obtain ⟨e, -, rfl⟩ := List.mem_map.mp hs
      exact hdoomed ho
    · exact hdoomed (hsettings s hs ▸ ho)
    · exact hdoomed (hconfigs c hc ▸ ho)

theorem addPlugin_ok {db : PluginDb} (h : Tables env plugins db₀ done db) (hp : p ∈ plugins)
    (type : PluginType) (known : List String) :
    TurnOk env plugins db₀ (done ++ [p]) db (addPlugin env type known p db) := by
  have hmem : p ∈ done ++ [p] := List.mem_append_right _ (List.mem_singleton_self p)
  refine ⟨h.mono fun q hq => List.mem_append_left [p] hq, ?_, .inr⟩
  unfold addPlugin
  dsimp only
  refine List.foldlRecOn (motive := PutRows env plugins db₀ (done ++ [p])) _ _ ?_
    fun rows hrows r hr => ?_
  · refine (addSettings_ok hmem p.settings fun _ => id).add ?_
    refine .of_settings (p := p) (fun r hr => ?_) (fun _ h => by cases h) rfl rfl rfl rfl hmem
    rw [List.mem_singleton.mp hr]
    rfl
  · obtain ⟨f, hf, rfl⟩ := List.mem_map.mp hr
    exact hrows.add (templateInserts_ok hp hf)

/-- One turn, for a plugin that comes after `done`. -/
theorem syncPlugin_ok {todo : List PluginInput} {db : PluginDb} {type : PluginType}
    {known : List String} {commits : Bool} (hplugins : plugins = done ++ p :: todo)
    (h : Tables env plugins db₀ done db)
    (ht : syncPlugin env type known p db = .ok (t, commits)) :
    TurnOk env plugins db₀ (done ++ [p]) db t ∧ (commits = false → t.put = .empty) := by
  unfold syncPlugin at ht
  split at ht
  · cases ht
    exact ⟨addPlugin_ok h (by rw [hplugins]; simp) type known, fun h => by cases h⟩
  · rename_i row hrow
    split at ht
    · rename_i hmay
      have hid := List.find?_some hrow
      exact updatePlugin_ok hplugins h (List.mem_of_find?_eq_some hrow) (of_decide_eq_true hid) hmay
        ht
    · cases ht
      exact ⟨(h.mono fun q hq => List.mem_append_left [p] hq).earlyOk.turnOk, fun _ => rfl⟩

/-! ## The loop and its commits -/

theorem PutRows.mono {done' : List PluginInput} {put : PluginDb}
    (h : PutRows env plugins db₀ done put) (hsub : ∀ q ∈ done, q ∈ done') :
    PutRows env plugins db₀ done' put where
  templates := h.templates
  pluginRows r hr := by
    obtain ⟨q, hq, heq⟩ := List.mem_map.mp (h.pluginRows r hr)
    exact List.mem_map.mpr ⟨q, hsub q hq, heq⟩
  settings s hs :=
    let ⟨q, hq, hs⟩ := h.settings s hs
    ⟨q, hsub q hq, hs⟩
  steps := h.steps
  templateSettings := h.templateSettings
  configs := h.configs

theorem Tables.keepsOthers {db : PluginDb} (h : Tables env plugins db₀ done db)
    (hparts : PartsKept env plugins db₀ db) : KeepsOthers env plugins db₀ db :=
  ⟨h.others, hparts.steps, hparts.settings, hparts.configs⟩

section

variable {db put : PluginDb} (htables : Tables env plugins db₀ done db)
  (hrows : PutRows env plugins db₀ done put) (hkeys : TemplateKeys (db.add put))

include htables hkeys

/-- Rows that the database system takes are not those of another's template. -/
theorem not_doomed : ¬ Doomed plugins db₀ put := by
  rintro ⟨t, ht, t₀, ht₀, hid, hgiven⟩
  have hnodup := hkeys.templates
  rw [PluginDb.add, List.map_append] at hnodup
  exact List.disjoint_of_nodup_append hnodup
    (List.mem_map.mpr ⟨t₀, (htables.others t₀ hgiven).mpr ht₀, hid⟩) (List.mem_map_of_mem ht)

include hrows

theorem Tables.add : Tables env plugins db₀ done (db.add put) where
  others t hgiven := by
    rw [← htables.others t hgiven, PluginDb.add, List.mem_append, or_iff_left]
    intro ht
    obtain ⟨p, hp, hid, -⟩ := hrows.templates t ht
    exact hgiven ⟨p, hp, hid⟩
  nodup := hkeys.templates
  owned t ht := (List.mem_append.mp ht).elim (htables.owned t) fun h => .inr (hrows.templates t h)
  pluginRows r hr := (List.mem_append.mp hr).elim (htables.pluginRows r)
    fun h => .inl (hrows.pluginRows r h)
  settings s hs := (List.mem_append.mp hs).elim (htables.settings s)
    fun h => .inr (hrows.settings s h)

theorem PartsKept.add (hparts : PartsKept env plugins db₀ db) :
    PartsKept env plugins db₀ (db.add put) := by
  have hnot := not_doomed htables hkeys
  refine ⟨fun s ho hm hr => ?_, fun s ho hm hr hn => ?_, fun c ho hm hn => ?_,
    fun k hk id d e hread he => ?_, fun k hm hr id d e hread he s hs hid htemplate => ?_⟩
  · rw [← hparts.steps s ho hm hr, PluginDb.add, List.mem_append, or_iff_left]
    exact fun hs => hnot (hrows.steps s hs ho)
  · rw [← hparts.settings s ho hm hr hn, PluginDb.add, List.mem_append, or_iff_left]
    exact fun hs => hnot (hrows.templateSettings s hs ho)
  · rw [← hparts.configs c ho hm hn, PluginDb.add, List.mem_append, or_iff_left]
    exact fun hc => hnot (hrows.configs c hc ho)
  · obtain ⟨s, hs, hkey⟩ := hparts.present k hk id d e hread he
    exact ⟨s, List.mem_append_left _ hs, hkey⟩
  · rcases List.mem_append.mp hs with hs | hs
    · exact hparts.titled k hm hr id d e hread he s hs hid htemplate
    · -- the step is there already, and it is not put twice
      obtain ⟨s', hs', hid', htemplate'⟩ := hparts.present k hm id d e hread he
      have hnodup := hkeys.steps
      rw [PluginDb.add, List.map_append] at hnodup
      refine absurd (List.mem_map_of_mem hs) (List.disjoint_of_nodup_append hnodup
        (List.mem_map.mpr ⟨s', hs', ?_⟩))
      rw [hid, hid', htemplate, htemplate']

end

/-- The session after the plugins `done`. -/
structure SessionOk (env : SyncEnv) (plugins : List PluginInput) (db₀ : PluginDb)
    (perPluginCommit : Bool) (done : List PluginInput) (s : Session) : Prop where
  saved : KeepsOthers env plugins db₀ s.saved
  tables : Tables env plugins db₀ done s.db
  rows : PutRows env plugins db₀ done s.put
  parts : Doomed plugins db₀ s.put ∨ PartsKept env plugins db₀ s.db
  put : perPluginCommit = true → s.put = .empty

theorem not_doomed_empty : ¬ Doomed plugins db₀ .empty := by
  rintro ⟨t, ht, -⟩
  cases ht

section

variable {type : PluginType} {perPluginCommit : Bool} {known : List String} {s s' : Session}
  (hcommit : ∀ db, env.commit db = none → TemplateKeys db)

theorem syncTurn_error {r : SyncResult} (h : SessionOk env plugins db₀ perPluginCommit done s)
    (hr : syncTurn env type perPluginCommit known s p = .error r) :
    KeepsOthers env plugins db₀ r.1 := by
  unfold syncTurn at hr
  split at hr
  · cases hr
    exact h.saved
  · dsimp only at hr
    split at hr
    · cases hr
    · split at hr
      · cases hr
      · split at hr
        · cases hr
          exact h.saved
        · cases hr

include hcommit

theorem syncTurn_ok {todo : List PluginInput} (hplugins : plugins = done ++ p :: todo)
    (h : SessionOk env plugins db₀ perPluginCommit done s)
    (hs : syncTurn env type perPluginCommit known s p = .ok s') :
    SessionOk env plugins db₀ perPluginCommit (done ++ [p]) s' := by
  have hsub : ∀ q ∈ done, q ∈ done ++ [p] := fun q hq => List.mem_append_left [p] hq
  unfold syncTurn at hs
  split at hs
  · cases hs
  · rename_i t commits hturn
    obtain ⟨ht, hempty⟩ := syncPlugin_ok hplugins h.tables hturn
    dsimp only at hs
    split at hs
    · rename_i hcommits
      cases hs
      refine ⟨h.saved, ht.tables, h.rows.mono hsub, h.parts.imp_right fun hparts => ?_, h.put⟩
      exact (ht.parts hparts).resolve_left (hempty hcommits ▸ not_doomed_empty)
    · split at hs
      · rename_i hper
        cases hs
        refine ⟨h.saved, ht.tables, (h.rows.mono hsub).add ht.rows, ?_, fun hper' => ?_⟩
        · rcases h.parts with hd | hparts
          · exact .inl (hd.mono fun _ => List.mem_append_left _)
          · exact (ht.parts hparts).imp_left fun hd => hd.mono fun _ => List.mem_append_right _
        · rw [hper] at hper'
          cases hper'
      · rename_i hper
        split at hs
        · cases hs
        · rename_i haccepted
          cases hs
          have hkeys := hcommit _ haccepted
          have hput := h.put (Bool.eq_true_of_not_eq_false hper)
          have hparts := h.parts.resolve_left (hput ▸ not_doomed_empty)
          have hkept := (ht.parts hparts).resolve_left (not_doomed ht.tables hkeys)
          have htables := ht.tables.add ht.rows hkeys
          have hadd := PartsKept.add ht.tables ht.rows hkeys hkept
          exact ⟨htables.keepsOthers hadd, htables, h.rows.mono hsub, .inr hadd, h.put⟩

theorem finish_ok (h : SessionOk env plugins db₀ perPluginCommit done s) :
    KeepsOthers env plugins db₀ (finish env type s).1 := by
  have htables : Tables env plugins db₀ done
      (if s.changes then withFlags (flagsOfType type) s.db else s.db) := by
    split
    · exact ⟨h.tables.others, h.tables.nodup, h.tables.owned, h.tables.pluginRows, h.tables.settings⟩
    · exact h.tables
  have hparts : PartsKept env plugins db₀ s.db → PartsKept env plugins db₀
      (if s.changes then withFlags (flagsOfType type) s.db else s.db) := by
    intro hkept
    split
    · exact ⟨hkept.steps, hkept.settings, hkept.configs, hkept.present, hkept.titled⟩
    · exact hkept
  unfold finish
  dsimp only
  split
  · exact h.saved
  · rename_i haccepted
    have hkeys := hcommit _ haccepted
    have hkept := h.parts.resolve_left (not_doomed htables hkeys)
    exact (htables.add h.rows hkeys).keepsOthers (PartsKept.add htables h.rows hkeys (hparts hkept))

end

/-- What the call begins with. -/
theorem sessionOk_start {db : PluginDb} {perPluginCommit : Bool} (hkeys : TemplateKeys db) :
    SessionOk env plugins db perPluginCommit [] ⟨db, db, .empty, false⟩ where
  saved := ⟨fun _ _ => Iff.rfl, fun _ _ _ _ => Iff.rfl, fun _ _ _ _ _ => Iff.rfl,
    fun _ _ _ _ => Iff.rfl⟩
  tables := ⟨fun _ _ => Iff.rfl, hkeys.templates, fun _ => .inl, fun _ => .inr,
    fun s hs => .inl ⟨s, hs, rfl, rfl⟩⟩
  rows := .empty
  parts := by
    refine .inr ⟨fun _ _ _ _ => Iff.rfl, fun _ _ _ _ _ => Iff.rfl, fun _ _ _ _ => Iff.rfl,
      fun k hk id d e hread he => ?_, fun k _ hr id d e hread he s hs hid htemplate => ?_⟩
    · by_contra hno
      exact hk ⟨id, d, e, hread, he, .inl fun s hs hkey => hno ⟨s, hs, hkey⟩⟩
    · by_contra hno
      exact hr ⟨id, d, e, hread, he, s, hs, hid, htemplate, hno⟩
  put _ := rfl

end

/-- **Synchronisation of plugins and the templates of others.** However the call ends, the rows of
the templates of others are as they were, but for the settings that a plugin no longer has (and for
what the deletions and updates hit that look at the number of a step or at a name only). -/
theorem update_keeps_others {env : SyncEnv} {db : PluginDb}
    (hcommit : ∀ db, env.commit db = none → TemplateKeys db) (hkeys : TemplateKeys db)
    (readonly : Bool) (type : PluginType) (onlyClearMetadata perPluginCommit : Bool)
    (plugins : List PluginInput) :
    KeepsOthers env plugins db (updateExternalPlugins env readonly
      ⟨type, false, onlyClearMetadata, perPluginCommit⟩ plugins db).1 := by
  have hstart : SessionOk env plugins db perPluginCommit [] ⟨db, db, .empty, false⟩ :=
    sessionOk_start hkeys
  unfold updateExternalPlugins
  split
  · exact hstart.saved
  · rw [if_pos rfl]
    unfold syncPlugins
    obtain ⟨hok, herror⟩ := foldlM_cases (l := plugins)
      (f := syncTurn env type perPluginCommit (db.settings.map SettingRow.id))
      (SessionOk env plugins db perPluginCommit) (fun r => KeepsOthers env plugins db r.1)
      (fun done p todo s s' hl h hs => syncTurn_ok hcommit hl h hs)
      (fun done p todo s r _ h hr => syncTurn_error h hr) hstart
    split
    · rename_i r hr
      exact herror r hr
    · rename_i s hs
      exact finish_ok hcommit (hok s hs)

/-! ## A setting that goes -/

/-- The plugin `geo` without settings and with one template of one step. -/
def geoInput (method : Method) : PluginInput where
  id := "geo"
  name := "Geo"
  description := ""
  version := "1.1"
  stream := .no
  method := method
  data := none
  checksum := none
  settings := []
  jobs := [⟨"geo-download", "download.py", .day, some true, none⟩]
  page := false
  commands := []

/-- An environment with the given directories, whose database system looks at the keys of the
templates. -/
def keyedEnv (directory : String → PluginDir) : SyncEnv where
  services := []
  directory := directory
  search _ _ _ := some true
  ignoreRegexCheck := false
  bytesHash _ := ""
  identityIs _ _ := false
  commit db := if TemplateKeys db then none else some "UNIQUE constraint failed"

theorem keyedEnv_commit {directory : String → PluginDir} {db : PluginDb}
    (h : (keyedEnv directory).commit db = none) : TemplateKeys db := by
  by_contra hkeys
  change (if TemplateKeys db then none else some _) = none at h
  rw [if_neg hkeys] at h
  cases h

def emptyDir : PluginDir := ⟨none, [], none, []⟩

/-- The database of the plugin, with a template of a user that has its setting. -/
def geoTemplateDb : PluginDb :=
  { geoDb .manual with
    templates := [⟨"mine", "Mine", none, .ui⟩]
    templateSteps := [⟨1, "mine", "Modes", none⟩]
    templateSettings := [⟨"mine", "GEO_MODES", 1, "strict", 0, 1⟩] }

theorem update_keeps_others_geo :
    KeepsOthers (keyedEnv fun _ => emptyDir) [geoInput .manual] geoTemplateDb
      (updateExternalPlugins (keyedEnv fun _ => emptyDir) false ⟨.external, false, false, true⟩
        [geoInput .manual] geoTemplateDb).1 :=
  update_keeps_others (fun _ => keyedEnv_commit) (by decide) false .external false true
    [geoInput .manual]

/-- The row of the user's template goes with the setting. -/
theorem template_setting_removed :
    OtherTemplate [geoInput .manual] geoTemplateDb "mine" ∧
    (updateExternalPlugins (keyedEnv fun _ => emptyDir) false ⟨.external, false, false, true⟩
      [geoInput .manual] geoTemplateDb).1.templateSettings = [] ∧
    geoTemplateDb.templateSettings = [⟨"mine", "GEO_MODES", 1, "strict", 0, 1⟩] := by
  refine ⟨⟨_, List.mem_singleton_self _, rfl, ?_⟩, by decide, rfl⟩
  rintro ⟨p, -, h⟩
  cases h

/-- The first step of a new template of the plugin takes the place of the user's. -/
example :
    let dir := { emptyDir with templates := some [⟨"geo", some ⟨none, [⟨"Geo", none, [], []⟩], [],
      []⟩⟩] }
    (updateExternalPlugins (keyedEnv fun _ => dir) false ⟨.external, false, false, true⟩
      [geoInput .manual] geoTemplateDb).1.templateSteps = [⟨1, "geo", "Geo", none⟩] := by
  decide

end BunkerWeb.Db
