import BunkerWeb.Db.InitTables

/-!
# The changes of the initialization

What `initTables` leaves in the tables, and what the next call finds to do there. The comparison of
each table is lawful, so that the tables which are compared as a whole have nothing left to do;
options are put again by each call, and the parts of templates depend on which templates the
database has as templates of plugins (`nextChanges_isEmpty_iff`).
-/

namespace BunkerWeb.Db

open Lib

/-! ## Templates and keys -/

/-- A template that one of the plugins has. -/
def HasTemplate (w : Desired) (id : String) : Prop :=
  ∃ plugin e, w.templates.lookup (plugin, id) = some e

/-- A template of the plugins that the database does not have as one of a plugin. -/
def NewTemplate (w : Desired) (db : PluginDb) (id : String) : Prop :=
  HasTemplate w id ∧ id ∉ managedTemplates db

/-- The keys and unique constraints of the tables. -/
structure TableKeys (db : PluginDb) : Prop where
  primary : PrimaryKeys db
  template : TemplateKeys db
  pages : (db.pages.map PluginPage.pluginId).Nodup
  commands : (db.commands.map fun c => (c.pluginId, c.name)).Nodup

instance (db : PluginDb) : Decidable (PrimaryKeys db) :=
  decidable_of_iff
    ((db.plugins.map Plugin.id).Nodup ∧ (db.settings.map SettingRow.id).Nodup ∧
      (db.jobs.map Job.name).Nodup ∧ (db.templates.map Template.id).Nodup)
    ⟨fun ⟨h1, h2, h3, h4⟩ => ⟨h1, h2, h3, h4⟩,
      fun h => ⟨h.plugins, h.settings, h.jobs, h.templates⟩⟩

instance (db : PluginDb) : Decidable (TableKeys db) :=
  decidable_of_iff
    (PrimaryKeys db ∧ TemplateKeys db ∧ (db.pages.map PluginPage.pluginId).Nodup ∧
      (db.commands.map fun c => (c.pluginId, c.name)).Nodup)
    ⟨fun ⟨h1, h2, h3, h4⟩ => ⟨h1, h2, h3, h4⟩,
      fun h => ⟨h.primary, h.template, h.pages, h.commands⟩⟩

/-! ## The comparisons are lawful -/

theorem pluginTable_lawful : pluginTable.Lawful where
  key_fresh _ _ := rfl
  key_merge k p r _ := by
    simp only [pluginTable]
    split <;> rfl
  merge_merge k p r _ := by
    simp only [pluginTable]
    split <;> simp_all
  merge_fresh k p := by simp [pluginTable]

theorem settingTable_lawful : settingTable.Lawful where
  key_fresh _ _ := rfl
  key_merge _ _ _ h := h.symm
  merge_merge k e r _ := by
    simp only [settingTable, ← Option.or_assoc, Option.or_self]
  merge_fresh k e := by
    simp only [settingTable, SettingInput.newRow, SettingInput.row, Option.or_self]
    cases e.1.separator <;> rfl

theorem jobTable_lawful : jobTable.Lawful where
  key_fresh _ _ := rfl
  key_merge _ _ _ h := h.symm
  merge_merge _ _ _ _ := rfl
  merge_fresh _ _ := rfl

theorem pageTable_lawful : pageTable.Lawful where
  key_fresh _ _ := rfl
  key_merge k a r h := by
    simp only [pageTable]
    split
    · rfl
    · exact h.symm
  merge_merge k a r _ := by
    simp only [pageTable]
    split <;> simp_all
  merge_fresh k a := by simp [pageTable]

theorem commandTable_lawful : commandTable.Lawful where
  key_fresh _ _ := rfl
  key_merge _ _ _ h := h.symm
  merge_merge _ _ _ _ := rfl
  merge_fresh _ _ := rfl

theorem templateTable_lawful : templateTable.Lawful where
  key_fresh _ _ := rfl
  key_merge k e r _ := by
    simp only [templateTable]
    split <;> rfl
  merge_merge k e r _ := by
    simp only [templateTable]
    split <;> simp_all
  merge_fresh k e := by simp [templateTable]

theorem stepTable_lawful : stepTable.Lawful where
  key_fresh _ _ := rfl
  key_merge _ _ _ h := h.symm
  merge_merge _ _ _ _ := rfl
  merge_fresh _ _ := rfl

theorem templateSettingTable_lawful : templateSettingTable.Lawful where
  key_fresh _ _ := rfl
  key_merge _ _ _ _ := rfl
  merge_merge _ _ _ _ := rfl
  merge_fresh _ _ := rfl

theorem configTable_lawful : configTable.Lawful where
  key_fresh _ _ := rfl
  key_merge k e r _ := by
    simp only [configTable]
    split <;> rfl
  merge_merge k e r _ := by
    simp only [configTable]
    split <;> simp_all
  merge_fresh k e := by simp [configTable]

/-! ## The keys of the definitions -/

section

variable {env : InitEnv} {ps : List DefaultPlugin}

theorem templates_lookup_plugin {k : Option String × String} {e : String × Method}
    (h : (desired env ps).templates.lookup k = some e) : k.1.isSome = true := by
  obtain ⟨p, -, hmem⟩ := List.mem_flatMap.mp (Dict.mem_of_lookup_setAll h)
  obtain ⟨t, -, heq⟩ := List.mem_map.mp hmem
  cases heq
  rfl

theorem hasTemplate_of_mem {p : DefaultPlugin} (hp : p ∈ ps) {t : String × TemplateData}
    (ht : t ∈ p.templates env) : HasTemplate (desired env ps) t.1 := by
  have hitem : ((some p.id, t.1), t.2.name.getD t.1, p.method.getD .manual) ∈
      ps.flatMap fun p => (p.templates env).map fun t =>
        ((some p.id, t.1), t.2.name.getD t.1, p.method.getD .manual) :=
    List.mem_flatMap.mpr ⟨p, hp, List.mem_map.mpr ⟨t, ht, rfl⟩⟩
  exact ⟨some p.id, Dict.exists_lookup_setAll hitem⟩

theorem steps_lookup_template {k : String × Nat} {e : StepData}
    (h : (desired env ps).steps.lookup k = some e) : HasTemplate (desired env ps) k.1 := by
  obtain ⟨p, hp, hmem⟩ := List.mem_flatMap.mp (Dict.mem_of_lookup_setAll h)
  obtain ⟨t, ht, hmem⟩ := List.mem_flatMap.mp hmem
  obtain ⟨_, -, heq⟩ := List.mem_map.mp hmem
  cases heq
  exact hasTemplate_of_mem hp ht

theorem desiredSetting_template {saved : List String} {id : String} {steps : List StepData}
    {acc : List (TemplateSettingKey × String)} (hacc : ∀ e ∈ acc, e.1.1 = id)
    (s : String × String) : ∀ e ∈ desiredSetting saved id steps acc s, e.1.1 = id := by
  intro e he
  rw [desiredSetting] at he
  dsimp only at he
  split at he
  · exact hacc e he
  · split at he
    · exact hacc e he
    · rcases List.mem_append.mp he with he | he
      · exact hacc e he
      · rw [List.mem_singleton.mp he]

theorem templateSettings_lookup_template {k : TemplateSettingKey} {default : String}
    (h : (desired env ps).templateSettings.lookup k = some default) :
    HasTemplate (desired env ps) k.1 := by
  obtain ⟨p, hp, hmem⟩ := List.mem_flatMap.mp (Dict.mem_of_lookup_setAll h)
  obtain ⟨t, ht, hmem⟩ := List.mem_flatMap.mp hmem
  have hid := List.foldlRecOn (motive := fun acc => ∀ e ∈ acc, e.1.1 = t.1) t.2.settings
    (desiredSetting (ps.flatMap fun p => p.settings.map SettingInput.key) t.1 t.2.steps)
    (fun _ he => absurd he List.not_mem_nil) fun _ hacc s _ => desiredSetting_template hacc s
  rw [hid _ hmem]
  exact hasTemplate_of_mem hp ht

theorem desiredConfig_template {dir : PluginDir} {id : String} {steps : List StepData}
    {acc : List (TemplateConfigKey × ByteArray × String)} (hacc : ∀ e ∈ acc, e.1.1 = id)
    (config : String) : ∀ e ∈ desiredConfig env dir id steps acc config, e.1.1 = id := by
  intro e he
  rw [desiredConfig] at he
  split at he
  · exact hacc e he
  · rcases List.mem_append.mp he with he | he
    · exact hacc e he
    · rw [List.mem_singleton.mp he]

theorem configs_lookup_template {k : TemplateConfigKey} {e : ByteArray × String}
    (h : (desired env ps).configs.lookup k = some e) : HasTemplate (desired env ps) k.1 := by
  obtain ⟨p, hp, hmem⟩ := List.mem_flatMap.mp (Dict.mem_of_lookup_setAll h)
  obtain ⟨t, ht, hmem⟩ := List.mem_flatMap.mp hmem
  have hid := List.foldlRecOn (motive := fun acc => ∀ e ∈ acc, e.1.1 = t.1) t.2.configs
    (desiredConfig env (p.dir env) t.1 t.2.steps)
    (fun _ he => absurd he List.not_mem_nil) fun _ hacc c _ => desiredConfig_template hacc c
  rw [hid _ hmem]
  exact hasTemplate_of_mem hp ht

end

/-! ## Nothing to do -/

namespace Changes

variable {ch : Changes} {db : PluginDb}

theorem isEmpty_iff : ch.isEmpty = true ↔
    ch.plugins.isEmpty = true ∧ ch.settings.isEmpty = true ∧ ch.selects = [] ∧
      ch.staleSelects = [] ∧ ch.multiselects = [] ∧ ch.jobs.isEmpty = true ∧
      ch.pages.isEmpty = true ∧ ch.commands.isEmpty = true ∧ ch.templates.isEmpty = true ∧
      ch.steps.isEmpty = true ∧ ch.templateSettings.isEmpty = true ∧ ch.configs.isEmpty = true := by
  simp only [isEmpty, Bool.and_eq_true, List.isEmpty_iff, and_assoc]

theorem put_of_isEmpty (h : ch.isEmpty = true) : ch.put db = db := by
  obtain ⟨h1, h2, h3, h4, h5, h6, h7, h8, h9, h10, h11, h12⟩ := isEmpty_iff.mp h
  simp [put, Reconcile.put_of_isEmpty, updatedSettings, updatedMultiSettings, *]

theorem update_of_isEmpty (h : ch.isEmpty = true) : ch.update db = db := by
  obtain ⟨h1, h2, -, -, -, h6, h7, h8, h9, h10, h11, h12⟩ := isEmpty_iff.mp h
  have hrename : ∀ s, ch.rename s = s := fun s => by
    rw [rename, if_neg]
    rw [Diff.isEmpty_iff.mp h2]
    exact fun h => nomatch h.2
  simp [update, Reconcile.update_of_isEmpty, *]

end Changes

/-! ## The tables after the call -/

section

variable {env : InitEnv} {inputs : List DefaultInput} {db db₂ : PluginDb} {readonly changed : Bool}

/-- The tables after a call in which no statement fails. -/
def initialized (env : InitEnv) (ps : List DefaultPlugin) (db : PluginDb) : PluginDb :=
  let ch := changes (desired env ps) db
  checkTemplates env.toValidator (ch.update (ch.put db))

theorem initTables_ok (h : initTables env readonly inputs db = (db₂, .ok changed)) :
    readonly = false ∧ env.commit ((changes (desired env (supported inputs)) db).put db) = none ∧
      env.commit db₂ = none ∧ db₂ = initialized env (supported inputs) db ∧
      changed = !(changes (desired env (supported inputs)) db).isEmpty := by
  rw [initTables] at h
  split at h
  · cases h
  · next hread =>
    dsimp only at h
    split at h
    · cases h
    · next hput =>
      split at h
      · cases h
      · split at h
        · cases h
        · next hcheck =>
          cases h
          exact ⟨Bool.eq_false_iff.mpr hread, hput, hcheck, rfl, rfl⟩

/-- With nothing to do the call leaves the tables as they are. -/
theorem initTables_of_isEmpty (hcommit : env.commit db = none)
    (hvalid : checkTemplates env.toValidator db = db)
    (h : (changes (desired env (supported inputs)) db).isEmpty = true) :
    initTables env false inputs db = (db, .ok false) := by
  simp only [initTables, Changes.put_of_isEmpty h, Changes.update_of_isEmpty h, hvalid, hcommit, h]
  rfl

/-- When no setting has options, all of them are gone. -/
theorem initialized_selects {ps : List DefaultPlugin} (h : (desired env ps).selects = []) :
    (initialized env ps db).selects = [] := by
  change (db.selects.filter fun s => s.settingId ∉ updatedSettings (desired env ps).selects ∧
    s ∉ staleSelects (desired env ps).selects db.selects) ++ (desired env ps).selects = []
  rw [h, List.append_nil, List.filter_eq_nil_iff]
  intro s hs
  simp [staleSelects, updatedSettings, hs]

/-- When no setting has options that can be chosen together, the old ones stay. -/
theorem initialized_multiselects {ps : List DefaultPlugin}
    (h : (desired env ps).multiselects = []) :
    (initialized env ps db).multiselects = db.multiselects := by
  change (db.multiselects.filter fun s =>
    s.settingId ∉ updatedMultiSettings (desired env ps).multiselects) ++
      (desired env ps).multiselects = _
  rw [h, List.append_nil, List.filter_eq_self]
  intro s _
  simp [updatedMultiSettings]

end

/-! ## No two rows with the same index -/

/-- No two rows of a table have the same index. -/
structure Indexed (db : PluginDb) : Prop where
  plugins : (db.plugins.map fun r => pluginTable.index (pluginTable.key r)).Nodup
  settings : (db.settings.map fun r => settingTable.index (settingTable.key r)).Nodup
  jobs : (db.jobs.map fun r => jobTable.index (jobTable.key r)).Nodup
  pages : (db.pages.map fun r => pageTable.index (pageTable.key r)).Nodup
  commands : (db.commands.map fun r => commandTable.index (commandTable.key r)).Nodup
  templates : (db.templates.map fun r => templateTable.index (templateTable.key r)).Nodup
  steps : (db.templateSteps.map fun r => stepTable.index (stepTable.key r)).Nodup
  templateSettings : (db.templateSettings.map fun r =>
    templateSettingTable.index (templateSettingTable.key r)).Nodup
  configs : (db.templateConfigs.map fun r => configTable.index (configTable.key r)).Nodup

theorem nodup_map_of_comp {ρ ι κ : Type} {f : ρ → ι} {l : List ρ} (g : ι → κ)
    (h : (l.map fun r => g (f r)).Nodup) : (l.map f).Nodup := by
  refine List.Nodup.of_map g ?_
  rwa [List.map_map]

theorem TableKeys.indexed {db : PluginDb} (h : TableKeys db) : Indexed db where
  plugins := h.primary.plugins
  settings := nodup_map_of_comp Prod.snd h.primary.settings
  jobs := nodup_map_of_comp Prod.snd h.primary.jobs
  pages := h.pages
  commands := h.commands
  templates := nodup_map_of_comp Prod.snd h.primary.templates
  steps := nodup_map_of_comp Prod.swap h.template.steps
  templateSettings := h.template.settings
  configs := h.template.configs

/-! ## The next changes -/

/-- The changes that the next call finds. -/
def nextChanges (env : InitEnv) (ps : List DefaultPlugin) (db : PluginDb) : Changes :=
  changes (desired env ps) (initialized env ps db)

/-- Whether the row of a setting of a template is valid is up to its definition. -/
theorem validRow_of_made {v : Validator} {settings : List SettingRow}
    {table : List TemplateSettingRow} {scope : TemplateSettingRow → Bool} {k : TemplateSettingKey}
    {default : String} {r : TemplateSettingRow}
    (h : templateSettingTable.Made table scope k default r) :
    validRow v settings r = isValidSetting v settings (suffixedKey k.2.1 k.2.2.1) default := by
  rcases h with ⟨r₀, -, -, rfl, rfl⟩ | ⟨-, rfl⟩ <;> rfl

section

variable {env : InitEnv} {ps : List DefaultPlugin} {db : PluginDb} (hkeys : Indexed db)
  (hputs : Indexed ((changes (desired env ps) db).put db))

include hkeys hputs

theorem mem_managedTemplates_after {id : String} :
    id ∈ managedTemplates (initialized env ps db) ↔ HasTemplate (desired env ps) id := by
  have happly {t : Template} :=
    Reconcile.mem_apply (r := t) templateTable_lawful hkeys.templates hputs.templates
  rw [managedTemplates, List.mem_map]
  constructor
  · rintro ⟨t, ht, rfl⟩
    obtain ⟨ht, hscope⟩ := List.mem_filter.mp ht
    rcases happly.mp ht with ⟨-, hno⟩ | ⟨k, e, hlookup, hmade⟩
    · cases (hno hscope).1
    · rw [← hmade.key_eq templateTable_lawful] at hlookup
      exact ⟨_, e, hlookup⟩
  · rintro ⟨plugin, e, hlookup⟩
    obtain ⟨t, hmade⟩ := Reconcile.exists_made templateTable db.templates (·.pluginId.isSome)
      (plugin, id) e
    have hkey : (t.pluginId, t.id) = (plugin, id) := hmade.key_eq templateTable_lawful
    cases hkey
    refine ⟨t, List.mem_filter.mpr ⟨happly.mpr (.inr ⟨_, e, hlookup, hmade⟩), ?_⟩, rfl⟩
    exact templates_lookup_plugin hlookup

theorem newTemplate_iff {id : String} : NewTemplate (desired env ps) db id ↔
    decide (id ∈ managedTemplates db) = false ∧
      decide (id ∈ managedTemplates (initialized env ps db)) = true := by
  rw [decide_eq_true_eq, decide_eq_false_iff_not, NewTemplate,
    mem_managedTemplates_after hkeys hputs, and_comm]

/-- The comparison of a table of the parts of templates. -/
theorem parts_isEmpty_iff {κ ν ρ ι : Type} [DecidableEq κ] [DecidableEq ρ] [DecidableEq ι]
    {c : Reconcile κ ν ρ ι} (hc : c.Lawful) {w : Dict κ ν} {table : List ρ} {template : ρ → String}
    (valid : ρ → Bool) (hnodup : (table.map fun r => c.index (c.key r)).Nodup)
    (hput : ((c.put (c.diff w (table.filter fun r => template r ∈ managedTemplates db)) table).map
      fun r => c.index (c.key r)).Nodup)
    (hdefined : ∀ r v, w.lookup (c.key r) = some v → HasTemplate (desired env ps) (template r))
    (hremovable : ∀ r, c.removable r = true) :
    (c.diff w (((c.apply (c.diff w (table.filter fun r => template r ∈ managedTemplates db))
      table).filter valid).filter fun r =>
        template r ∈ managedTemplates (initialized env ps db))).isEmpty = true ↔
    (∀ k v r, w.lookup k = some v →
      c.Made table (fun r => template r ∈ managedTemplates db) k v r → valid r = true) ∧
    ∀ r ∈ table, NewTemplate (desired env ps) db (template r) → valid r = false := by
  have hscope : ∀ r v, w.lookup (c.key r) = some v →
      decide (template r ∈ managedTemplates (initialized env ps db)) = true := fun r v h =>
    decide_eq_true ((mem_managedTemplates_after hkeys hputs).mpr (hdefined r v h))
  rw [Reconcile.diff_apply_isEmpty_iff hc hnodup hput hscope fun r _ _ => hremovable r]
  refine and_congr_right fun _ => forall₂_congr fun r _ => ?_
  rw [newTemplate_iff hkeys hputs, and_imp]

theorem steps_isEmpty_iff : (nextChanges env ps db).steps.isEmpty = true ↔
    ∀ s ∈ db.templateSteps, ¬ NewTemplate (desired env ps) db s.templateId := by
  have h := parts_isEmpty_iff hkeys hputs stepTable_lawful (fun _ => true)
    hkeys.steps hputs.steps (fun _ _ => steps_lookup_template) fun _ => rfl
  rw [List.filter_true] at h
  refine h.trans ?_
  simp

theorem configs_isEmpty_iff : (nextChanges env ps db).configs.isEmpty = true ↔
    ∀ c ∈ db.templateConfigs, ¬ NewTemplate (desired env ps) db c.templateId := by
  have h := parts_isEmpty_iff hkeys hputs configTable_lawful (fun _ => true)
    hkeys.configs hputs.configs (fun _ _ => configs_lookup_template) fun _ => rfl
  rw [List.filter_true] at h
  refine h.trans ?_
  simp

theorem templateSettings_isEmpty_iff : (nextChanges env ps db).templateSettings.isEmpty = true ↔
    (∀ k default, (desired env ps).templateSettings.lookup k = some default →
      isValidSetting env.toValidator (initialized env ps db).settings (suffixedKey k.2.1 k.2.2.1)
        default = true) ∧
    ∀ s ∈ db.templateSettings, NewTemplate (desired env ps) db s.templateId →
      validRow env.toValidator (initialized env ps db).settings s = false := by
  have h := parts_isEmpty_iff hkeys hputs templateSettingTable_lawful
    (validRow env.toValidator (initialized env ps db).settings) hkeys.templateSettings
    hputs.templateSettings (fun _ _ => templateSettings_lookup_template) fun _ => rfl
  refine h.trans (and_congr_left fun _ => forall₂_congr fun k default => ?_)
  obtain ⟨r₀, hr₀⟩ := Reconcile.exists_made templateSettingTable db.templateSettings
    (fun r => r.templateId ∈ managedTemplates db) k default
  constructor
  · intro h hk
    rw [← validRow_of_made hr₀]
    exact h r₀ hk hr₀
  · intro h r hk hr
    rw [validRow_of_made hr]
    exact h hk

/-- The other tables have nothing left to do. -/
theorem nextChanges_isEmpty_iff :
    (nextChanges env ps db).isEmpty = true ↔
    (desired env ps).selects = [] ∧ (desired env ps).multiselects = [] ∧
      (nextChanges env ps db).steps.isEmpty = true ∧
      (nextChanges env ps db).templateSettings.isEmpty = true ∧
      (nextChanges env ps db).configs.isEmpty = true := by
  have hplugins : (nextChanges env ps db).plugins.isEmpty = true :=
    Reconcile.diff_apply_isEmpty pluginTable_lawful hkeys.plugins hputs.plugins fun _ _ _ => rfl
  have hsettings : (nextChanges env ps db).settings.isEmpty = true :=
    Reconcile.diff_apply_isEmpty settingTable_lawful hkeys.settings hputs.settings fun _ _ _ => rfl
  have hjobs : (nextChanges env ps db).jobs.isEmpty = true :=
    Reconcile.diff_apply_isEmpty jobTable_lawful hkeys.jobs hputs.jobs fun _ _ _ => rfl
  have hpages : (nextChanges env ps db).pages.isEmpty = true :=
    Reconcile.diff_apply_isEmpty pageTable_lawful hkeys.pages hputs.pages fun _ _ _ => rfl
  have hcommands : (nextChanges env ps db).commands.isEmpty = true :=
    Reconcile.diff_apply_isEmpty commandTable_lawful hkeys.commands hputs.commands fun _ _ _ => rfl
  have htemplates : (nextChanges env ps db).templates.isEmpty = true :=
    Reconcile.diff_apply_isEmpty templateTable_lawful hkeys.templates hputs.templates
      fun _ _ => templates_lookup_plugin
  have hstale (h : (desired env ps).selects = []) :
      (nextChanges env ps db).staleSelects = [] := by
    rw [nextChanges, changes, initialized_selects h, staleSelects, List.filter_nil]
  rw [Changes.isEmpty_iff]
  constructor
  · rintro ⟨-, -, hselects, -, hmultiselects, -, -, -, -, hrest⟩
    exact ⟨hselects, hmultiselects, hrest⟩
  · rintro ⟨hselects, hmultiselects, hrest⟩
    exact ⟨hplugins, hsettings, hselects, hstale hselects, hmultiselects, hjobs, hpages, hcommands,
      htemplates, hrest⟩

end

end BunkerWeb.Db
