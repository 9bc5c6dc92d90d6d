import BunkerWeb.Db.PluginSync
import BunkerWeb.Lib.Loop

/-!
# The options of one setting

What a turn of `update_external_plugins` leaves of a setting that is not among those of its plugin:
the rows of the setting and of its options. Most of a turn works on other tables.
-/

namespace BunkerWeb.Db.Options

open Lib

/-! ## The rows of a setting -/

/-- The rows of the setting `key` and of its options, and those of the plugins in `P`, are as they
were. -/
structure Same (key : String) (P : String → Prop) (db db' : PluginDb) : Prop where
  settings : db'.settings.filter (·.id = key) = db.settings.filter (·.id = key)
  selects : db'.selects.filter (·.settingId = key) = db.selects.filter (·.settingId = key)
  multiselects :
    db'.multiselects.filter (·.settingId = key) = db.multiselects.filter (·.settingId = key)
  plugins : ∀ id, P id → db'.plugins.find? (·.id = id) = db.plugins.find? (·.id = id)

/-- None of the rows is one of them. -/
def Lacks (key : String) (P : String → Prop) (rows : PluginDb) : Prop := Same key P .empty rows

structure SameTurn (key : String) (P : String → Prop) (t t' : Turn) : Prop where
  db : Same key P t.db t'.db
  put : Same key P t.put t'.put

section

variable {key : String} {P : String → Prop} {db db' : PluginDb} {t t' : Turn} {p : PluginInput}

theorem Same.of_eq (hplugins : db'.plugins = db.plugins) (hsettings : db'.settings = db.settings)
    (hselects : db'.selects = db.selects) (hmultiselects : db'.multiselects = db.multiselects) :
    Same key P db db' where
  settings := by rw [hsettings]
  selects := by rw [hselects]
  multiselects := by rw [hmultiselects]
  plugins id _ := by rw [hplugins]

theorem Same.refl (db : PluginDb) : Same key P db db := .of_eq rfl rfl rfl rfl

theorem Same.trans {db'' : PluginDb} (h : Same key P db db') (h' : Same key P db' db'') :
    Same key P db db'' where
  settings := h'.settings.trans h.settings
  selects := h'.selects.trans h.selects
  multiselects := h'.multiselects.trans h.multiselects
  plugins id hid := (h'.plugins id hid).trans (h.plugins id hid)

theorem Same.mono {Q : String → Prop} (h : Same key P db db') (hsub : ∀ id, Q id → P id) :
    Same key Q db db' :=
  { h with plugins := fun id hid => h.plugins id (hsub id hid) }

theorem Same.add {rows rows' : PluginDb} (h : Same key P db db') (h' : Same key P rows rows') :
    Same key P (db.add rows) (db'.add rows') where
  settings := by
    show (db'.settings ++ rows'.settings).filter _ = (db.settings ++ rows.settings).filter _
    rw [List.filter_append, List.filter_append, h.settings, h'.settings]
  selects := by
    show (db'.selects ++ rows'.selects).filter _ = (db.selects ++ rows.selects).filter _
    rw [List.filter_append, List.filter_append, h.selects, h'.selects]
  multiselects := by
    show (db'.multiselects ++ rows'.multiselects).filter _ =
      (db.multiselects ++ rows.multiselects).filter _
    rw [List.filter_append, List.filter_append, h.multiselects, h'.multiselects]
  plugins id hid := by
    show (db'.plugins ++ rows'.plugins).find? _ = (db.plugins ++ rows.plugins).find? _
    rw [List.find?_append, List.find?_append, h.plugins id hid, h'.plugins id hid]

theorem add_empty (db : PluginDb) : db.add .empty = db := by
  show PluginDb.mk _ _ _ _ _ _ _ _ _ _ _ _ _ _ _ _ = db
  simp only [PluginDb.empty, List.append_nil]

theorem Same.add_lacks {rows : PluginDb} (h : Same key P db db') (h' : Lacks key P rows) :
    Same key P db (db'.add rows) := by
  have := h.add h'
  rwa [add_empty] at this

theorem Lacks.of_nil {rows : PluginDb} (hplugins : rows.plugins = []) (hsettings : rows.settings = [])
    (hselects : rows.selects = []) (hmultiselects : rows.multiselects = []) :
    Lacks key P rows :=
  .of_eq hplugins hsettings hselects hmultiselects

theorem SameTurn.refl (t : Turn) : SameTurn key P t t := ⟨.refl _, .refl _⟩

theorem SameTurn.trans {t'' : Turn} (h : SameTurn key P t t') (h' : SameTurn key P t' t'') :
    SameTurn key P t t'' := ⟨h.db.trans h'.db, h.put.trans h'.put⟩

theorem SameTurn.change {f : PluginDb → PluginDb} (h : SameTurn key P t t')
    (hf : Same key P t'.db (f t'.db)) : SameTurn key P t (t'.change f) :=
  ⟨h.db.trans hf, h.put⟩

theorem SameTurn.add {rows : PluginDb} (h : SameTurn key P t t') (hrows : Lacks key P rows) :
    SameTurn key P t (t'.add rows) :=
  ⟨h.db, h.put.add_lacks hrows⟩

theorem SameTurn.foldl {α : Type} {f : Turn → α → Turn} (l : List α)
    (hf : ∀ t, ∀ a ∈ l, SameTurn key P t (f t a)) (t : Turn) :
    SameTurn key P t (l.foldl f t) := by
  induction l generalizing t with
  | nil => exact .refl t
  | cons a l ih =>
    exact (hf t a List.mem_cons_self).trans
      (ih (fun t b hb => hf t b (List.mem_cons_of_mem a hb)) (f t a))

theorem SameTurn.foldl_fst {α β : Type} {f : Turn × β → α → Turn × β}
    (hf : ∀ acc a, SameTurn key P acc.1 (f acc a).1) (l : List α) (acc : Turn × β) :
    SameTurn key P acc.1 (l.foldl f acc).1 := by
  induction l generalizing acc with
  | nil => exact .refl _
  | cons a l ih => exact (hf acc a).trans (ih (f acc a))

/-! ## The plugin and its settings -/

theorem filter_filter_eq {α : Type} {f : α → String} {missing : List String} (l : List α)
    (h : key ∉ missing) :
    (l.filter (f · ∉ missing)).filter (f · = key) = l.filter (f · = key) := by
  rw [List.filter_filter]
  refine List.filter_congr fun a _ => ?_
  by_cases ha : f a = key
  · simp [ha, h]
  · simp [ha]

theorem filter_filter_ne {α : Type} {f : α → String} {other : String} (l : List α)
    (h : other ≠ key) :
    (l.filter (f · ≠ other)).filter (f · = key) = l.filter (f · = key) := by
  rw [List.filter_filter]
  refine List.filter_congr fun a _ => ?_
  by_cases ha : f a = key
  · simp [ha, Ne.symm h]
  · simp [ha]

/-- Updates of rows with another key. -/
theorem filter_map_eq {f : SettingRow → SettingRow} {l : List SettingRow}
    (hf : ∀ r ∈ l, (f r).id = r.id) (hfixed : ∀ r ∈ l, r.id = key → f r = r) :
    (l.map f).filter (·.id = key) = l.filter (·.id = key) := by
  induction l with
  | nil => rfl
  | cons r l ih =>
    have ih := ih (fun r hr => hf r (List.mem_cons_of_mem _ hr))
      fun r hr => hfixed r (List.mem_cons_of_mem _ hr)
    rw [List.map_cons, List.filter_cons, List.filter_cons, hf r List.mem_cons_self, ih]
    by_cases hr : r.id = key
    · rw [hfixed r List.mem_cons_self hr]
    · simp [hr]

theorem find_map_eq {f : Plugin → Plugin} {id : String} (hf : ∀ r, (f r).id = r.id)
    (hfixed : ∀ r, r.id = id → f r = r) (l : List Plugin) :
    (l.map f).find? (·.id = id) = l.find? (·.id = id) := by
  induction l with
  | nil => rfl
  | cons r l ih =>
    rw [List.map_cons, List.find?_cons, List.find?_cons, hf r, ih]
    by_cases hr : r.id = id
    · rw [hfixed r hr]
    · simp [hr]

theorem syncRow_same (hP : ∀ id, P id → id ≠ p.id) (type : PluginType) (row : Plugin) (t : Turn) :
    SameTurn key P t (syncRow type p row t) := by
  unfold syncRow
  split
  · exact .refl t
  · refine (SameTurn.refl t).change ⟨rfl, rfl, rfl, fun id hid => ?_⟩
    refine find_map_eq (fun r => ?_) (fun r hr => ?_) _
    · split <;> rfl
    · rw [if_neg (by rw [hr]; exact hP id hid)]

theorem dropSettings_same (row : Plugin) (t : Turn)
    (h : ∀ r ∈ t.db.settings, r.id = key → r.pluginId = p.id →
      key ∈ p.settings.map SettingInput.key) :
    SameTurn key P t (dropSettings p row t) := by
  unfold dropSettings
  dsimp only
  split
  · exact .refl t
  · have hkey : key ∉ (settingsOf p.id t.db).filter (· ∉ p.settings.map SettingInput.key) := by
      intro hmem
      obtain ⟨hmem, hnot⟩ := List.mem_filter.mp hmem
      obtain ⟨r, hr, hid⟩ := List.mem_map.mp hmem
      obtain ⟨hr, hplugin⟩ := List.mem_filter.mp hr
      exact of_decide_eq_true hnot (h r hr hid (of_decide_eq_true hplugin))
    refine (SameTurn.refl t).change ⟨?_, ?_, ?_, fun _ _ => rfl⟩
    · exact filter_filter_eq _ hkey
    · exact filter_filter_eq _ hkey
    · exact filter_filter_eq _ hkey

theorem selects_key {s : SettingInput} {r : Select} (hr : r ∈ s.selects) : r.settingId = s.key := by
  obtain ⟨e, -, rfl⟩ := List.mem_map.mp hr
  rfl

theorem multiselects_key {s : SettingInput} {r : Multiselect} (hr : r ∈ s.multiselects) :
    r.settingId = s.key := by
  obtain ⟨e, -, he⟩ := List.mem_filterMap.mp hr
  obtain ⟨o, -, rfl⟩ := Option.map_eq_some_iff.mp he
  rfl

/-- The rows of another setting. -/
theorem lacks_rows {s : SettingInput} (hs : s.key ≠ key) {settings : List SettingRow}
    {selects : List Select} {multiselects : List Multiselect}
    (hsettings : ∀ r ∈ settings, r.id = s.key) (hselects : ∀ r ∈ selects, r.settingId = s.key)
    (hmultiselects : ∀ r ∈ multiselects, r.settingId = s.key) :
    Lacks key P { PluginDb.empty with
      settings := settings, selects := selects, multiselects := multiselects } where
  settings := List.filter_eq_nil_iff.mpr fun r hr => by simp [hsettings r hr, hs]
  selects := List.filter_eq_nil_iff.mpr fun r hr => by simp [hselects r hr, hs]
  multiselects := List.filter_eq_nil_iff.mpr fun r hr => by simp [hmultiselects r hr, hs]
  plugins _ _ := rfl

theorem lacks_newRow {s : SettingInput} (hs : s.key ≠ key) (pluginId : String) (order : Nat) :
    Lacks key P { PluginDb.empty with
      settings := [s.newRow pluginId order]
      selects := s.selects
      multiselects := s.multiselects } :=
  lacks_rows hs (fun r hr => by rw [List.mem_singleton.mp hr]; rfl) (fun _ => selects_key)
    fun _ => multiselects_key

theorem syncSelects_same {s : SettingInput} (hs : s.key ≠ key) (t : Turn) :
    SameTurn key P t (syncSelects s t) := by
  unfold syncSelects
  split
  · refine ((SameTurn.refl t).change ⟨rfl, filter_filter_ne _ hs, rfl, fun _ _ => rfl⟩).add ?_
    exact lacks_rows hs (fun _ h => nomatch h) (fun _ => selects_key) fun _ h => nomatch h
  · exact .refl t

theorem syncMultiselects_same {s : SettingInput} (hs : s.key ≠ key) (t : Turn) :
    SameTurn key P t (syncMultiselects s t) := by
  unfold syncMultiselects
  split
  · exact .refl t
  · refine ((SameTurn.refl t).change ⟨rfl, rfl, filter_filter_ne _ hs, fun _ _ => rfl⟩).add ?_
    exact lacks_rows hs (fun _ h => nomatch h) (fun _ h => nomatch h) fun _ => multiselects_key

theorem syncSetting_same {e : SettingInput × Nat} (hs : e.1.key ≠ key) (pluginId : String)
    (ids : List String) (t : Turn) : SameTurn key P t (syncSetting pluginId ids t e) := by
  unfold syncSetting
  dsimp only
  split
  · split
    · exact (SameTurn.refl t).add (lacks_newRow hs ..)
    · refine SameTurn.trans (SameTurn.trans ?_ (syncSelects_same hs _)) (syncMultiselects_same hs _)
      split
      · exact .refl t
      · refine (SameTurn.refl t).change ⟨?_, rfl, rfl, fun _ _ => rfl⟩
        refine filter_map_eq (fun r _ => ?_) (fun r _ hr => ?_)
        · split
          · rename_i h
            exact h.symm
          · rfl
        · rw [if_neg (by rw [hr]; exact hs.symm)]
  · exact (SameTurn.refl t).add (lacks_newRow hs ..)

theorem syncSettings_same {l : List SettingInput} (hl : ∀ s ∈ l, s.key ≠ key) (pluginId : String)
    (ids : List String) (n : Nat) (t : Turn) :
    SameTurn key P t ((l.zipIdx n).foldl (syncSetting pluginId ids) t) :=
  .foldl _ (fun t _ he => syncSetting_same (hl _ (List.fst_mem_of_mem_zipIdx he)) pluginId ids t) t

/-! ## Jobs, page and commands -/

theorem dropJobs_same (p : PluginInput) (t : Turn) : SameTurn key P t (dropJobs p t) := by
  unfold dropJobs
  dsimp only
  split
  · exact .refl t
  · exact (SameTurn.refl t).change (.of_eq rfl rfl rfl rfl)

theorem syncJob_same {pluginId : String} {j : JobInput} (h : syncJob pluginId t j = .ok t') :
    SameTurn key P t t' := by
  unfold syncJob at h
  split at h
  · cases h
    exact (SameTurn.refl t).add (.of_nil rfl rfl rfl rfl)
  · split at h
    · cases h
      exact .refl t
    · cases h

theorem syncPage_same {pluginId : String} {ui : Option (Option Archive)}
    (h : syncPage pluginId ui t = some t') : SameTurn key P t t' := by
  unfold syncPage at h
  dsimp only at h
  split at h
  · cases h
    exact .refl t
  · cases h
    exact (SameTurn.refl t).change (.of_eq rfl rfl rfl rfl)
  · cases h
  · cases h
    exact (SameTurn.refl t).add (.of_nil rfl rfl rfl rfl)
  · split at h
    · cases h
      exact (SameTurn.refl t).change (.of_eq rfl rfl rfl rfl)
    · cases h
      exact (SameTurn.refl t).change (.of_eq rfl rfl rfl rfl)

theorem dropCommands_same (p : PluginInput) (t : Turn) : SameTurn key P t (dropCommands p t) :=
  ⟨.of_eq rfl rfl rfl rfl, .refl _⟩

theorem syncCommand_same (pluginId : String) (files : List String) (t : Turn)
    (e : String × String) : SameTurn key P t (syncCommand pluginId files t e) := by
  unfold syncCommand
  dsimp only
  split
  · split
    · exact (SameTurn.refl t).add (.of_nil rfl rfl rfl rfl)
    · exact .refl t
  · split
    · exact .refl t
    · split
      · exact (SameTurn.refl t).change (.of_eq rfl rfl rfl rfl)
      · exact (SameTurn.refl t).change (.of_eq rfl rfl rfl rfl)

/-! ## Templates -/

theorem dropSteps_same (templateId : String) (d : TemplateData) (t : Turn) :
    SameTurn key P t (dropSteps templateId d t) := by
  unfold dropSteps
  dsimp only
  split
  · exact .refl t
  · exact (SameTurn.refl t).change (.of_eq rfl rfl rfl rfl)

theorem syncStep_same (templateId : String) (t : Turn) (e : StepData × Nat) :
    SameTurn key P t (syncStep templateId t e) := by
  unfold syncStep
  split
  · exact (SameTurn.refl t).add (.of_nil rfl rfl rfl rfl)
  · split
    · exact .refl t
    · exact (SameTurn.refl t).change (.of_eq rfl rfl rfl rfl)

theorem dropIdentities_same (env : SyncEnv) (templateId : String) (d : TemplateData) (t : Turn) :
    SameTurn key P t (dropIdentities env templateId d t) := by
  unfold dropIdentities
  dsimp only
  split
  · exact .refl t
  · exact (SameTurn.refl t).change (.of_eq rfl rfl rfl rfl)

theorem syncTemplateSetting_same (env : SyncEnv) (known own : List String) (templateId : String)
    (steps : List StepData) (acc : Turn × Nat) (e : String × String) :
    SameTurn key P acc.1 (syncTemplateSetting env known own templateId steps acc e).1 := by
  unfold syncTemplateSetting
  dsimp only
  split
  · exact ⟨.of_eq rfl rfl rfl rfl, .refl _⟩
  · split
    · exact .refl _
    · split
      · exact (SameTurn.refl _).add (.of_nil rfl rfl rfl rfl)
      · split
        · exact .refl _
        · exact ⟨.of_eq rfl rfl rfl rfl, .refl _⟩

theorem dropConfigs_same (templateId : String) (d : TemplateData) (t : Turn) :
    SameTurn key P t (dropConfigs templateId d t) := by
  unfold dropConfigs
  dsimp only
  split
  · exact .refl t
  · exact (SameTurn.refl t).change (.of_eq rfl rfl rfl rfl)

theorem syncTemplateConfig_same (env : SyncEnv) (dir : PluginDir) (templateId : String)
    (steps : List StepData) (acc : Turn × Nat) (config : String) :
    SameTurn key P acc.1 (syncTemplateConfig env dir templateId steps acc config).1 := by
  unfold syncTemplateConfig
  dsimp only
  split
  · exact .refl _
  · split
    · exact (SameTurn.refl _).add (.of_nil rfl rfl rfl rfl)
    · split
      · exact .refl _
      · exact ⟨.of_eq rfl rfl rfl rfl, .refl _⟩

theorem syncParts_same (env : SyncEnv) (known own : List String) (dir : PluginDir)
    (templateId : String) (d : TemplateData) (t : Turn) :
    SameTurn key P t (syncParts env known own dir templateId d t) := by
  have hsteps : SameTurn key P t _ := (dropSteps_same templateId d t).trans
    (.foldl (d.steps.zipIdx 1) (fun t e _ => syncStep_same templateId t e) _)
  have hsettings := (hsteps.trans (dropIdentities_same env templateId d _)).trans
    (.foldl_fst (syncTemplateSetting_same env known own templateId d.steps) d.settings (_, 0))
  exact (hsettings.trans (dropConfigs_same templateId d _)).trans
    (.foldl_fst (syncTemplateConfig_same env dir templateId d.steps) d.configs (_, 0))

theorem syncTemplate_same (env : SyncEnv) (known : List String) (p : PluginInput) (dir : PluginDir)
    (t : Turn) (f : TemplateFile) : SameTurn key P t (syncTemplate env known p dir t f) := by
  unfold syncTemplate
  split
  · exact .refl t
  · dsimp only
    refine SameTurn.trans ?_ (syncParts_same env known _ dir _ _ _)
    split
    · exact .refl t
    · exact (SameTurn.refl t).add (.of_nil rfl rfl rfl rfl)

theorem removeOwnTemplates_same (pluginId : String) (names : List String) (db : PluginDb) :
    Same key P db (names.foldl (removeOwnTemplate pluginId) db) := by
  induction names generalizing db with
  | nil => exact .refl db
  | cons id names ih =>
    have hone : Same key P db (removeOwnTemplate pluginId db id) := .of_eq rfl rfl rfl rfl
    exact hone.trans (ih _)

theorem syncTemplates_same (env : SyncEnv) (known : List String) (p : PluginInput) (dir : PluginDir)
    (t : Turn) : SameTurn key P t (syncTemplates env known p dir t) := by
  unfold syncTemplates
  dsimp only
  split
  · exact ⟨removeOwnTemplates_same .., .refl _⟩
  · rename_i files _
    have hfiles : SameTurn key P t _ :=
      .foldl files (fun t f _ => syncTemplate_same env known p dir t f) t
    have hgone (t : Turn) (id : String) :
        SameTurn key P t (t.change (removeOwnTemplate p.id · id)) :=
      ⟨.of_eq rfl rfl rfl rfl, .refl _⟩
    exact hfiles.trans (.foldl _ (fun t id _ => hgone t id) _)

/-! ## Whole turns -/

/-- The turn of a plugin that is updated, after its settings. -/
def settingsTurn (type : PluginType) (p : PluginInput) (row : Plugin) (db : PluginDb) : Turn :=
  let t := syncRow type p row ⟨db, .empty, false⟩
  p.settings.zipIdx.foldl (syncSetting p.id (settingsOf p.id t.db)) (dropSettings p row t)

/-- What comes after the settings leaves them, or their rows are dropped with the page. -/
theorem updatePlugin_same {env : SyncEnv} {type : PluginType} {known : List String} {row : Plugin}
    {commits : Bool} (h : updatePlugin env type known p row db = .ok (t, commits)) :
    (commits = true ∧ (env.directory p.id).ui ≠ some none ∧
      SameTurn key P (settingsTurn type p row db) t) ∨
    (commits = false ∧ (env.directory p.id).ui = some none ∧
      Same key P (settingsTurn type p row db).db t.db ∧ t.put = .empty) := by
  obtain ⟨t₂, hjobs, h⟩ := bind_eq_ok.mp h
  have hsame : SameTurn key P (settingsTurn type p row db) t₂ := by
    refine (dropJobs_same p _).trans ?_
    exact foldlM_ok (fun _ => SameTurn key P (dropJobs p (settingsTurn type p row db)))
      (fun _ _ _ _ _ h hj => h.trans (syncJob_same hj)) (.refl _) hjobs
  cases hpage : syncPage p.id (env.directory p.id).ui t₂ with
  | none =>
    rw [hpage] at h
    cases h
    have hui : (env.directory p.id).ui = some none := by
      unfold syncPage at hpage
      dsimp only at hpage
      split at hpage
      · cases hpage
      · cases hpage
      · assumption
      · cases hpage
      · split at hpage <;> cases hpage
    exact .inr ⟨rfl, hui, hsame.db, rfl⟩
  | some t₃ =>
    rw [hpage] at h
    cases h
    refine .inl ⟨rfl, fun hui => ?_, ?_⟩
    · rw [hui] at hpage
      cases hpage
    · refine (hsame.trans (syncPage_same hpage)).trans (SameTurn.trans ?_ (syncTemplates_same ..))
      exact (dropCommands_same p t₃).trans (.foldl _ (fun t e _ => syncCommand_same p.id _ t e) _)

theorem templateInserts_lacks (env : SyncEnv) (known own : List String) (db : PluginDb)
    (p : PluginInput) (dir : PluginDir) (f : TemplateFile) :
    Lacks key P (templateInserts env known own db p dir f) := by
  unfold templateInserts
  split
  · exact .refl _
  · exact .of_nil rfl rfl rfl rfl

theorem foldl_add_same (l : List PluginDb) (hl : ∀ rows ∈ l, Lacks key P rows) (db : PluginDb) :
    Same key P db (l.foldl .add db) := by
  induction l generalizing db with
  | nil => exact .refl db
  | cons rows l ih =>
    have hone : Same key P db (db.add rows) := (Same.refl db).add_lacks (hl rows List.mem_cons_self)
    exact hone.trans (ih (fun r hr => hl r (List.mem_cons_of_mem _ hr)) _)

/-- The rows of the settings of a new plugin. -/
def addedSettings (p : PluginInput) (db : PluginDb) : PluginDb :=
  (p.settings.foldl (addSetting db p.id) (.empty, 0, [])).1

/-- A new plugin brings the rows of its settings, its own, and rows in other tables. -/
theorem addPlugin_same (env : SyncEnv) (type : PluginType) (known : List String) (p : PluginInput)
    (db : PluginDb) (hP : ∀ id, P id → id ≠ p.id) :
    (addPlugin env type known p db).db = db ∧
      Same key P (addedSettings p db) (addPlugin env type known p db).put := by
  refine ⟨rfl, ?_⟩
  unfold addPlugin
  dsimp only
  refine Same.trans ?_ (foldl_add_same _ (fun rows hrows => ?_) _)
  · refine (Same.refl _).add_lacks ⟨rfl, rfl, rfl, fun id hid => ?_⟩
    show List.find? _ [p.row type] = none
    rw [List.find?_eq_none]
    rintro r hr heq
    rw [List.mem_singleton.mp hr] at heq
    exact hP id hid (of_decide_eq_true heq).symm
  · obtain ⟨f, -, rfl⟩ := List.mem_map.mp hrows
    exact templateInserts_lacks ..

/-! ## The turn of another plugin -/

theorem settingsTurn_same {type : PluginType} {row : Plugin} (hP : ∀ id, P id → id ≠ p.id)
    (hkey : key ∉ p.settings.map SettingInput.key)
    (howned : ∀ r ∈ db.settings, r.id = key → r.pluginId ≠ p.id) :
    SameTurn key P ⟨db, .empty, false⟩ (settingsTurn type p row db) := by
  have hrow : SameTurn key P ⟨db, .empty, false⟩ (syncRow type p row ⟨db, .empty, false⟩) :=
    syncRow_same hP type row _
  refine (hrow.trans (dropSettings_same row _ fun r hr hid hplugin => ?_)).trans
    (syncSettings_same (fun s hmem hs => hkey ?_) ..)
  · have hmem : r ∈ db.settings.filter (·.id = key) := by
      rw [← hrow.db.settings]
      exact List.mem_filter.mpr ⟨hr, decide_eq_true hid⟩
    exact absurd hplugin (howned r (List.mem_filter.mp hmem).1 hid)
  · rw [← hs]
    exact List.mem_map_of_mem hmem

theorem addSettings_same {l : List SettingInput} (hl : ∀ s ∈ l, s.key ≠ key) (db : PluginDb)
    (pluginId : String) (acc : PluginDb × Nat × List String) :
    Same key P acc.1 (l.foldl (addSetting db pluginId) acc).1 := by
  induction l generalizing acc with
  | nil => exact .refl _
  | cons s l ih =>
    refine Same.trans ?_ (ih (fun s hs => hl s (List.mem_cons_of_mem _ hs)) _)
    unfold addSetting
    dsimp only
    split
    · exact .refl _
    · exact (Same.refl _).add_lacks (lacks_newRow (hl s List.mem_cons_self) ..)

theorem addedSettings_lacks (hkey : key ∉ p.settings.map SettingInput.key) (db : PluginDb) :
    Lacks key P (addedSettings p db) := by
  refine addSettings_same (fun s hs heq => hkey ?_) db p.id (.empty, 0, [])
  rw [← heq]
  exact List.mem_map_of_mem hs

/-- **The turn of another plugin.** It leaves the rows of the setting as they are. -/
theorem syncPlugin_other {env : SyncEnv} {type : PluginType} {known : List String} {commits : Bool}
    (hP : ∀ id, P id → id ≠ p.id) (hkey : key ∉ p.settings.map SettingInput.key)
    (howned : ∀ r ∈ db.settings, r.id = key → r.pluginId ≠ p.id)
    (h : syncPlugin env type known p db = .ok (t, commits)) :
    Same key P db t.db ∧ Lacks key P t.put := by
  unfold syncPlugin at h
  split at h
  · cases h
    obtain ⟨hdb, hput⟩ := addPlugin_same env type known p db hP
    rw [hdb]
    exact ⟨.refl db, (addedSettings_lacks hkey db).trans hput⟩
  · split at h
    · have hsettings : ∀ type row, SameTurn key P ⟨db, .empty, false⟩ (settingsTurn type p row db) :=
        fun _ _ => settingsTurn_same hP hkey howned
      obtain ⟨-, -, hrest⟩ | ⟨-, -, hdb, hput⟩ := updatePlugin_same (P := P) h
      · have hall := (hsettings ..).trans hrest
        exact ⟨hall.db, hall.put⟩
      · rw [hput]
        exact ⟨(hsettings ..).db.trans hdb, .refl _⟩
    · cases h
      exact ⟨.refl db, .refl _⟩

/-! ## The loop over the other plugins -/

/-- A turn of another plugin, with the commit after it. -/
theorem syncTurn_other {env : SyncEnv} {type : PluginType} {perPluginCommit : Bool}
    {known : List String} {s s' : Session} (hP : ∀ id, P id → id ≠ p.id)
    (hkey : key ∉ p.settings.map SettingInput.key)
    (howned : ∀ r ∈ s.db.settings, r.id = key → r.pluginId ≠ p.id)
    (h : syncTurn env type perPluginCommit known s p = .ok s') :
    Same key P s.db s'.db ∧ Same key P s.put s'.put := by
  unfold syncTurn at h
  cases hsync : syncPlugin env type known p s.db with
  | error e =>
    rw [hsync] at h
    cases h
  | ok r =>
    obtain ⟨t, commits⟩ := r
    rw [hsync] at h
    obtain ⟨hdb, hput⟩ := syncPlugin_other (P := P) hP hkey howned hsync
    dsimp only at h
    split at h
    · cases h
      exact ⟨hdb, .refl _⟩
    · split at h
      · cases h
        exact ⟨hdb, (Same.refl _).add_lacks hput⟩
      · split at h
        · cases h
        · cases h
          exact ⟨hdb.add_lacks hput, .refl _⟩

theorem syncTurns_other {env : SyncEnv} {type : PluginType} {perPluginCommit : Bool}
    {known : List String} {plugins : List PluginInput} {s s' : Session} {pluginId : String}
    (hP : ∀ q ∈ plugins, ∀ id, P id → id ≠ q.id) (hids : ∀ q ∈ plugins, q.id ≠ pluginId)
    (hkeys : ∀ q ∈ plugins, key ∉ q.settings.map SettingInput.key)
    (howned : ∀ r ∈ s.db.settings, r.id = key → r.pluginId = pluginId)
    (h : plugins.foldlM (syncTurn env type perPluginCommit known) s = .ok s') :
    Same key P s.db s'.db ∧ Same key P s.put s'.put := by
  refine foldlM_ok (fun _ acc => Same key P s.db acc.db ∧ Same key P s.put acc.put)
    (fun _ q acc acc' hq hacc hturn => ?_) ⟨.refl _, .refl _⟩ h
  have hstill : ∀ r ∈ acc.db.settings, r.id = key → r.pluginId ≠ q.id := by
    intro r hr hid hplugin
    have hmem : r ∈ s.db.settings.filter (·.id = key) := by
      rw [← hacc.1.settings]
      exact List.mem_filter.mpr ⟨hr, decide_eq_true hid⟩
    exact hids q hq (hplugin.symm.trans (howned r (List.mem_filter.mp hmem).1 hid))
  obtain ⟨hdb, hput⟩ := syncTurn_other (hP q hq) (hkeys q hq) hstill hturn
  exact ⟨hacc.1.trans hdb, hacc.2.trans hput⟩

end

end BunkerWeb.Db.Options
