import BunkerWeb.Db.PluginSync

/-!
# Work on one template

What `update_external_plugins` does to the tables when it works on one template of a plugin. It
changes the parts of this template, but some of its deletions and updates look at the number of a
step, at the name of a custom config or at an identity only; `syncParts_work` says which rows of
others stay.
-/

namespace BunkerWeb.Db

open Lib

/-- What a turn may do for one template: it changes no other tables than those with the parts of
templates, where it keeps the rows that the predicates speak of, and it puts parts of this template
only. Steps with a number in `P` do not go, and those with one in `K` stay as they are. -/
structure TemplateWork (id : String) (P K : Nat → Prop) (S : TemplateSettingRow → Prop)
    (C : TemplateConfig → Prop) (t t' : Turn) : Prop where
  db : { t'.db with
      templateSteps := t.db.templateSteps
      templateSettings := t.db.templateSettings
      templateConfigs := t.db.templateConfigs } = t.db
  present : ∀ s ∈ t.db.templateSteps, P s.id →
    ∃ s' ∈ t'.db.templateSteps, s'.id = s.id ∧ s'.templateId = s.templateId
  steps : ∀ s, K s.id → (s ∈ t'.db.templateSteps ↔ s ∈ t.db.templateSteps)
  settings : ∀ s, S s → (s ∈ t'.db.templateSettings ↔ s ∈ t.db.templateSettings)
  configs : ∀ c, C c → (c ∈ t'.db.templateConfigs ↔ c ∈ t.db.templateConfigs)
  putPlugins : t'.put.plugins = t.put.plugins
  putSettings : t'.put.settings = t.put.settings
  putTemplates : t'.put.templates = t.put.templates
  putSteps : ∀ s ∈ t'.put.templateSteps, s ∈ t.put.templateSteps ∨ s.templateId = id
  putTemplateSettings : ∀ s ∈ t'.put.templateSettings,
    s ∈ t.put.templateSettings ∨ s.templateId = id
  putConfigs : ∀ c ∈ t'.put.templateConfigs, c ∈ t.put.templateConfigs ∨ c.templateId = id

theorem mem_map_iff_of_fixed {α : Type} {f : α → α} {p : α → Prop} {l : List α}
    (hf : ∀ a, f a = a ∨ ¬ p a ∧ ¬ p (f a)) {a : α} (ha : p a) : a ∈ l.map f ↔ a ∈ l := by
  rw [List.mem_map]
  constructor
  · rintro ⟨b, hb, rfl⟩
    rcases hf b with h | h
    · rwa [h]
    · exact absurd ha h.2
  · intro h
    rcases hf a with h' | h'
    · exact ⟨a, h, h'⟩
    · exact absurd ha h'.1

theorem mem_filter_iff_of_pos {α : Type} {p : α → Bool} {l : List α} {a : α} (ha : p a = true) :
    a ∈ l.filter p ↔ a ∈ l := by
  rw [List.mem_filter, and_iff_left ha]

section

variable {env : SyncEnv} {known own : List String} {dir : PluginDir} {id : String}
  {d : TemplateData} {P K : Nat → Prop} {S : TemplateSettingRow → Prop} {C : TemplateConfig → Prop}
  {t t' t'' : Turn}

theorem TemplateWork.refl (t : Turn) : TemplateWork id P K S C t t where
  db := rfl
  present s hs _ := ⟨s, hs, rfl, rfl⟩
  steps _ _ := Iff.rfl
  settings _ _ := Iff.rfl
  configs _ _ := Iff.rfl
  putPlugins := rfl
  putSettings := rfl
  putTemplates := rfl
  putSteps _ := .inl
  putTemplateSettings _ := .inl
  putConfigs _ := .inl

theorem TemplateWork.trans (h : TemplateWork id P K S C t t')
    (h' : TemplateWork id P K S C t' t'') : TemplateWork id P K S C t t'' where
  db := by rw [← h.db, ← h'.db]
  present s hs hP := by
    obtain ⟨s₁, hs₁, hid₁, htemplate₁⟩ := h.present s hs hP
    obtain ⟨s₂, hs₂, hid₂, htemplate₂⟩ := h'.present s₁ hs₁ (hid₁ ▸ hP)
    exact ⟨s₂, hs₂, hid₂.trans hid₁, htemplate₂.trans htemplate₁⟩
  steps s hs := (h'.steps s hs).trans (h.steps s hs)
  settings s hs := (h'.settings s hs).trans (h.settings s hs)
  configs c hc := (h'.configs c hc).trans (h.configs c hc)
  putPlugins := h'.putPlugins.trans h.putPlugins
  putSettings := h'.putSettings.trans h.putSettings
  putTemplates := h'.putTemplates.trans h.putTemplates
  putSteps s hs := (h'.putSteps s hs).elim (h.putSteps s) .inr
  putTemplateSettings s hs := (h'.putTemplateSettings s hs).elim (h.putTemplateSettings s) .inr
  putConfigs c hc := (h'.putConfigs c hc).elim (h.putConfigs c) .inr

/-- Rows of the template that are put. -/
theorem TemplateWork.put (steps : List TemplateStep) (settings : List TemplateSettingRow)
    (configs : List TemplateConfig) (hsteps : ∀ s ∈ steps, s.templateId = id)
    (hsettings : ∀ s ∈ settings, s.templateId = id) (hconfigs : ∀ c ∈ configs, c.templateId = id) :
    TemplateWork id P K S C t (t.add { PluginDb.empty with
      templateSteps := steps, templateSettings := settings, templateConfigs := configs }) where
  db := rfl
  present s hs _ := ⟨s, hs, rfl, rfl⟩
  steps _ _ := Iff.rfl
  settings _ _ := Iff.rfl
  configs _ _ := Iff.rfl
  putPlugins := List.append_nil _
  putSettings := List.append_nil _
  putTemplates := List.append_nil _
  putSteps s hs := (List.mem_append.mp hs).imp_right (hsteps s)
  putTemplateSettings s hs := (List.mem_append.mp hs).imp_right (hsettings s)
  putConfigs c hc := (List.mem_append.mp hc).imp_right (hconfigs c)

/-- Other parts of the templates in the tables. -/
theorem TemplateWork.set {db : PluginDb} {changes : Bool}
    (hdb : { db with
        templateSteps := t.db.templateSteps
        templateSettings := t.db.templateSettings
        templateConfigs := t.db.templateConfigs } = t.db)
    (hpresent : ∀ s ∈ t.db.templateSteps, P s.id →
      ∃ s' ∈ db.templateSteps, s'.id = s.id ∧ s'.templateId = s.templateId)
    (hsteps : ∀ s, K s.id → (s ∈ db.templateSteps ↔ s ∈ t.db.templateSteps))
    (hsettings : ∀ s, S s → (s ∈ db.templateSettings ↔ s ∈ t.db.templateSettings))
    (hconfigs : ∀ c, C c → (c ∈ db.templateConfigs ↔ c ∈ t.db.templateConfigs)) :
    TemplateWork id P K S C t { t with db := db, changes := changes } where
  db := hdb
  present := hpresent
  steps := hsteps
  settings := hsettings
  configs := hconfigs
  putPlugins := rfl
  putSettings := rfl
  putTemplates := rfl
  putSteps _ := .inl
  putTemplateSettings _ := .inl
  putConfigs _ := .inl

theorem dropSteps_work (hP : ∀ k, P k → k ∉ missingSteps t.db id d)
    (hK : ∀ k, K k → k ∉ missingSteps t.db id d)
    (hS : ∀ s, S s → s.stepId ∉ missingSteps t.db id d)
    (hC : ∀ c, C c → c.stepId ∉ missingSteps t.db id d) :
    TemplateWork id P K S C t (dropSteps id d t) := by
  unfold dropSteps
  dsimp only
  split
  · exact .refl t
  · refine .set rfl (fun s hs hs' => ⟨s, ?_, rfl, rfl⟩) (fun s hs => ?_) (fun s hs => ?_)
      fun c hc => ?_
    · exact List.mem_filter.mpr ⟨hs, decide_eq_true (hP _ hs')⟩
    · exact mem_filter_iff_of_pos (decide_eq_true (hK _ hs))
    · exact mem_filter_iff_of_pos (decide_eq_true (hS _ hs))
    · exact mem_filter_iff_of_pos (decide_eq_true (hC _ hc))

theorem retitle_id (e : StepData) (row s : TemplateStep) (db : PluginDb)
    (h : s ∈ db.templateSteps) :
    ∃ s' ∈ (retitle e row db).templateSteps, s'.id = s.id ∧ s'.templateId = s.templateId := by
  refine ⟨_, List.mem_map_of_mem h, ?_⟩
  split <;> exact ⟨rfl, rfl⟩

/-- The loop over the steps, for numbers whose steps of the template are as in the file. -/
theorem syncSteps_work {l : List (StepData × Nat)}
    (hK : ∀ k, K k → ∀ e, (e, k) ∈ l → ∀ s ∈ t.db.templateSteps, s.id = k → s.templateId = id →
      e.title = s.title ∧ e.subtitle = s.subtitle) :
    TemplateWork id P K S C t (l.foldl (syncStep id) t) := by
  refine List.foldlRecOn l (syncStep id) (.refl t) fun t₁ h₁ e he => h₁.trans ?_
  unfold syncStep
  split
  · exact .put [_] [] [] (by simp) (by simp) (by simp)
  · rename_i row hrow
    split
    · exact .refl t₁
    · rename_i hdiff
      have hkey := List.find?_some hrow
      have hmem := List.mem_of_find?_eq_some hrow
      simp only [decide_eq_true_eq] at hkey
      refine .set rfl (fun s hs _ => retitle_id _ _ _ _ hs) (fun s hs => ?_) (fun _ _ => Iff.rfl)
        fun _ _ => Iff.rfl
      refine mem_map_iff_of_fixed (p := fun s => K s.id) (fun s' => ?_) hs
      by_cases hs' : s'.id = row.id
      · -- the number of the row is not in `K`, or the row would be as in the file
        refine .inr ?_
        have hnot : ¬ K row.id := fun hKrow =>
          hdiff (hK e.2 (hkey.1 ▸ hKrow) e.1 he row ((h₁.steps row hKrow).mp hmem) hkey.1 hkey.2)
        rw [if_pos hs', hs']
        exact ⟨hnot, hnot⟩
      · exact .inl (if_neg hs')

theorem dropIdentities_work (hS : ∀ s, S s → ∀ e ∈ d.settings,
      env.identityIs (s.templateId, s.settingId, s.stepId, s.suffix) e.1 = false) :
    TemplateWork id P K S C t (dropIdentities env id d t) := by
  unfold dropIdentities
  dsimp only
  split
  · exact .refl t
  · refine .set rfl (fun s hs _ => ⟨s, hs, rfl, rfl⟩) (fun _ _ => Iff.rfl) (fun s hs => ?_)
      fun _ _ => Iff.rfl
    refine mem_filter_iff_of_pos (decide_eq_true ?_)
    rintro ⟨key, hkey, hident⟩
    obtain ⟨e, he, rfl⟩ := List.mem_map.mp (List.mem_filter.mp hkey).1
    rw [hS s hs e he] at hident
    cases hident

theorem syncTemplateSetting_work (env : SyncEnv) (known own : List String) (steps : List StepData)
    (hS : ∀ s, S s → s.templateId ≠ id) (acc : Turn × Nat) (e : String × String) :
    TemplateWork id P K S C acc.1 (syncTemplateSetting env known own id steps acc e).1 := by
  obtain ⟨t, order⟩ := acc
  unfold syncTemplateSetting
  dsimp only
  split
  · refine .set rfl (fun s hs _ => ⟨s, hs, rfl, rfl⟩) (fun _ _ => Iff.rfl) (fun s hs => ?_)
      fun _ _ => Iff.rfl
    exact mem_filter_iff_of_pos (decide_eq_true fun h => hS s hs h.1)
  · split
    · exact .refl t
    · split
      · exact .put [] [_] [] (by simp) (by simp) (by simp)
      · rename_i row hrow
        split
        · exact .refl t
        · have hkey := List.find?_some hrow
          simp only [decide_eq_true_eq] at hkey
          refine .set rfl (fun s hs _ => ⟨s, hs, rfl, rfl⟩) (fun _ _ => Iff.rfl) (fun s hs => ?_)
            fun _ _ => Iff.rfl
          refine mem_map_iff_of_fixed (fun s' => ?_) hs
          by_cases hs' : s' = row
          · rw [if_pos hs', hs']
            exact .inr ⟨fun h => hS _ h hkey.1, fun h => hS _ h hkey.1⟩
          · exact .inl (if_neg hs')

theorem dropConfigs_work (hC : ∀ c, C c → c.name ∉ d.configs) :
    TemplateWork id P K S C t (dropConfigs id d t) := by
  unfold dropConfigs
  dsimp only
  split
  · exact .refl t
  · refine .set rfl (fun s hs _ => ⟨s, hs, rfl, rfl⟩) (fun _ _ => Iff.rfl) (fun _ _ => Iff.rfl)
      fun c hc => ?_
    exact mem_filter_iff_of_pos (decide_eq_true fun h => hC c hc (List.mem_filter.mp h).1)

theorem configRow_templateId {bytesHash : ByteArray → String} {steps : List StepData}
    {config : String} {order : Nat} {row : TemplateConfig}
    (h : configRow bytesHash dir id steps config order = some row) :
    row.templateId = id := by
  unfold configRow at h
  simp only [Option.bind_eq_bind, Option.bind_eq_some_iff] at h
  obtain ⟨_, _, h⟩ := h
  split at h
  · cases h
  · simp only [Option.bind_eq_some_iff] at h
    obtain ⟨_, _, _, _, h⟩ := h
    cases h
    rfl

theorem syncTemplateConfig_work (hC : ∀ c, C c → c.templateId ≠ id) {steps : List StepData}
    (acc : Turn × Nat) (config : String) :
    TemplateWork id P K S C acc.1 (syncTemplateConfig env dir id steps acc config).1 := by
  obtain ⟨t, order⟩ := acc
  unfold syncTemplateConfig
  dsimp only
  split
  · exact .refl t
  · rename_i new hnew
    split
    · exact .put [] [] [new] (by simp) (by simp) (by simpa using configRow_templateId hnew)
    · rename_i row hrow
      split
      · exact .refl t
      · have hkey := List.find?_some hrow
        simp only [decide_eq_true_eq] at hkey
        refine .set rfl (fun s hs _ => ⟨s, hs, rfl, rfl⟩) (fun _ _ => Iff.rfl) (fun _ _ => Iff.rfl)
          fun c hc => ?_
        refine mem_map_iff_of_fixed (fun c' => ?_) hc
        by_cases hc' : c' = row
        · rw [if_pos hc', hc']
          exact .inr ⟨fun h => hC _ h hkey.1, fun h => hC _ h hkey.1⟩
        · exact .inl (if_neg hc')

theorem TemplateWork.foldl {α : Type} {f : Turn × Nat → α → Turn × Nat}
    (hf : ∀ acc a, TemplateWork id P K S C acc.1 (f acc a).1) (l : List α) (acc : Turn × Nat) :
    TemplateWork id P K S C acc.1 (l.foldl f acc).1 :=
  List.foldlRecOn l f (motive := fun r => TemplateWork id P K S C acc.1 r.1) (.refl acc.1)
    fun r hr a _ => hr.trans (hf r a)

/-- The work on a template, for rows that are not its own and that none of the deletions and
updates hits that look at more than its own. -/
theorem syncParts_work (hP : ∀ k, P k → k ∉ missingSteps t.db id d)
    (hK : ∀ k, K k → P k ∧ ∀ e, (e, k) ∈ d.steps.zipIdx 1 → ∀ s ∈ t.db.templateSteps, s.id = k →
      s.templateId = id → e.title = s.title ∧ e.subtitle = s.subtitle)
    (hS : ∀ s, S s → P s.stepId ∧ s.templateId ≠ id ∧ ∀ e ∈ d.settings,
      env.identityIs (s.templateId, s.settingId, s.stepId, s.suffix) e.1 = false)
    (hC : ∀ c, C c → P c.stepId ∧ c.templateId ≠ id ∧ c.name ∉ d.configs) :
    TemplateWork id P K S C t (syncParts env known own dir id d t) := by
  have hdrop : TemplateWork id P K S C t (dropSteps id d t) :=
    dropSteps_work hP (fun k hk => hP k (hK k hk).1) (fun s hs => hP _ (hS s hs).1)
      fun c hc => hP _ (hC c hc).1
  have hsteps := hdrop.trans <| syncSteps_work (l := d.steps.zipIdx 1) fun k hk e he s hs hid =>
    (hK k hk).2 e he s ((hdrop.steps s (hid ▸ hk)).mp hs) hid
  have hidentities := hsteps.trans (dropIdentities_work fun s hs => (hS s hs).2.2)
  have hsettings := hidentities.trans <| .foldl (syncTemplateSetting_work env known own d.steps
    fun s hs => (hS s hs).2.1) d.settings (_, 0)
  have hconfigs := hsettings.trans (dropConfigs_work fun c hc => (hC c hc).2.2)
  exact hconfigs.trans <| .foldl (syncTemplateConfig_work fun c hc => (hC c hc).2.1) d.configs (_, 0)

end

end BunkerWeb.Db
