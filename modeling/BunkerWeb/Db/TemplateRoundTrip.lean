import BunkerWeb.Db.TemplateEdit
import BunkerWeb.Lib.Dict
import Mathlib.Data.List.Infix

/-!
# A template is read as it was created

`template_round_trip`: what `get_template_details` gives of a template that `create_template` has
accepted. `Prepared` says what the entities of an accepted payload are; the rest follows from it.
-/

namespace BunkerWeb.Db

open Lib

/-! ## What a payload means -/

/-- The settings of the payload with their values. -/
def payload (t : TemplateInput) : List (String × String) :=
  t.settings.map fun e => (stripText e.1, e.2.getD "")

/-- The value of a setting: the last one that the payload has for it. -/
def payloadValue (t : TemplateInput) (key : String) : String := (Dict.lastOf key (payload t)).getD ""

/-- The references of a step. -/
def configRefs (s : StepInput) : List ConfigRef :=
  s.configs.filterMap fun r => normalizeReference r.toList

/-- The settings with the numbers of their steps, in the order of the steps. -/
def assignedSettings (t : TemplateInput) : List (String × Nat) :=
  (t.steps.zipIdx 1).flatMap fun e => e.1.settings.map fun r => (stripText r, e.2)

def assignedConfigs (t : TemplateInput) : List (ConfigRef × Nat) :=
  (t.steps.zipIdx 1).flatMap fun e => (configRefs e.1).map (·, e.2)

/-- A custom config of the payload under its reference. -/
def refConfig (e : ConfigInput × Nat) : Option RefConfig :=
  (normalizeReference
    (normalizeType (stripChars e.1.type.toList) ++ '/' :: stripChars e.1.name.toList)).map (⟨·, e.1, e.2⟩)

def orderedConfigs (t : TemplateInput) : List RefConfig :=
  (t.configs.zipIdx.filterMap refConfig).insertionSort RefConfig.Before

/-! ## The loops over the payload -/

theorem normalizeSettings_ok {settings : List (String × Option String)} {known : Dict String String}
    (h : normalizeSettings settings = .ok known) (k : String) :
    known.lookup k = Dict.lastOf k (settings.map fun e => (stripText e.1, e.2.getD "")) := by
  unfold normalizeSettings at h
  refine foldlM_ok (fun (done : List (String × Option String)) (d : Dict String String) =>
    d.lookup k = Dict.lastOf k (done.map fun e => (stripText e.1, e.2.getD ""))) ?_ ?_ h
  · intro done e d d' _ hd hstep
    unfold normalizeSetting at hstep
    split at hstep
    · cases hstep
    · cases hstep
      rw [List.map_append, Dict.lastOf_append, List.map_singleton, Dict.lastOf_cons,
        Dict.lastOf_nil, Option.none_or, ← hd]
      by_cases hk : stripText e.1 = k
      · subst hk
        rw [AList.lookup_insert, if_pos rfl]
        rfl
      · rw [AList.lookup_insert_ne (Ne.symm hk), if_neg hk]
        rfl
  · rw [AList.lookup_empty]
    rfl

theorem assignSettings_ok {known : Dict String String} {index : Nat} {refs : List String}
    {acc acc' : List (String × Nat)} (hnodup : (acc.map Prod.fst).Nodup)
    (h : refs.foldlM (assignSetting known index) acc = .ok acc') :
    acc' = acc ++ refs.map (fun r => (stripText r, index)) ∧ (acc'.map Prod.fst).Nodup ∧
      ∀ r ∈ refs, known.lookup (stripText r) ≠ none := by
  refine foldlM_ok (fun done r => r = acc ++ done.map (fun r => (stripText r, index)) ∧
    (r.map Prod.fst).Nodup ∧ ∀ r ∈ done, known.lookup (stripText r) ≠ none) ?_
    ⟨by simp, hnodup, by simp⟩ h
  rintro done raw acc₁ acc₂ - ⟨rfl, hnd, hknown⟩ hstep
  unfold assignSetting at hstep
  dsimp only at hstep
  split at hstep
  · cases hstep
  · rename_i hsome
    split at hstep
    · cases hstep
    · rename_i hnew
      cases hstep
      refine ⟨by simp, ?_, ?_⟩
      · rw [List.map_append]
        exact hnd.append (List.nodup_singleton _) (List.disjoint_singleton.mpr hnew)
      · intro r hr
        rcases List.mem_append.mp hr with hr | hr
        · exact hknown r hr
        · rw [List.mem_singleton.mp hr]
          exact hsome

theorem assignConfigs_ok {index : Nat} {refs : List String} {acc acc' : List (ConfigRef × Nat)}
    (hnodup : (acc.map Prod.fst).Nodup)
    (h : refs.foldlM (assignConfig index) acc = .ok acc') :
    acc' = acc ++ (refs.filterMap fun r => normalizeReference r.toList).map (·, index) ∧
      (acc'.map Prod.fst).Nodup := by
  refine foldlM_ok (fun (done : List String) (r : List (ConfigRef × Nat)) =>
    r = acc ++ (done.filterMap fun r => normalizeReference r.toList).map (·, index) ∧
      (r.map Prod.fst).Nodup) ?_ ⟨by simp, hnodup⟩ h
  rintro done raw acc₁ acc₂ - ⟨rfl, hnd⟩ hstep
  unfold assignConfig at hstep
  split at hstep
  · cases hstep
  · rename_i ref href
    split at hstep
    · cases hstep
    · rename_i hnew
      cases hstep
      refine ⟨by simp [List.filterMap_append, href], ?_⟩
      rw [List.map_append]
      exact hnd.append (List.nodup_singleton _) (List.disjoint_singleton.mpr hnew)

/-- The row of a step. -/
def stepRow (templateId : String) (e : StepInput × Nat) : TemplateStep :=
  ⟨e.2, templateId, stripText e.1.title, subtitleOf e.1.subtitle⟩

/-- What the loop over the steps has built after `done`. -/
structure Collected (templateId : String) (known : Dict String String)
    (done : List (StepInput × Nat)) (acc : Assigned) : Prop where
  steps : acc.steps = done.map (stepRow templateId)
  settings : acc.settings = done.flatMap fun e => e.1.settings.map fun r => (stripText r, e.2)
  configs : acc.configs = done.flatMap fun e => (configRefs e.1).map (·, e.2)
  settings_nodup : (acc.settings.map Prod.fst).Nodup
  configs_nodup : (acc.configs.map Prod.fst).Nodup
  known : ∀ key ∈ acc.settings.map Prod.fst, known.lookup key ≠ none

theorem addStep_ok {templateId : String} {known : Dict String String}
    {done : List (StepInput × Nat)} {e : StepInput × Nat} {acc acc' : Assigned}
    (hacc : Collected templateId known done acc) (h : addStep templateId known acc e = .ok acc') :
    Collected templateId known (done ++ [e]) acc' := by
  obtain ⟨step, index⟩ := e
  unfold addStep at h
  dsimp only at h
  split at h
  · cases h
  · obtain ⟨settings, hsettings, h⟩ := bind_eq_ok.mp h
    obtain ⟨configs, hconfigs, h⟩ := bind_eq_ok.mp h
    cases h
    obtain ⟨rfl, hsnd, hknown⟩ := assignSettings_ok hacc.settings_nodup hsettings
    obtain ⟨rfl, hcnd⟩ := assignConfigs_ok hacc.configs_nodup hconfigs
    refine ⟨by simp [hacc.steps, stepRow], by simp [hacc.settings],
      by simp [hacc.configs, configRefs],
      hsnd, hcnd, fun key hkey => ?_⟩
    rw [List.map_append] at hkey
    rcases List.mem_append.mp hkey with hkey | hkey
    · exact hacc.known key hkey
    · obtain ⟨x, hx, rfl⟩ := List.mem_map.mp hkey
      obtain ⟨r, hr, rfl⟩ := List.mem_map.mp hx
      exact hknown r hr

theorem addSteps_ok {templateId : String} {known : Dict String String} {t : TemplateInput}
    {acc : Assigned}
    (h : (t.steps.zipIdx 1).foldlM (addStep templateId known) ⟨[], [], []⟩ = .ok acc) :
    Collected templateId known (t.steps.zipIdx 1) acc :=
  foldlM_ok (Collected templateId known)
    (fun _ _ _ _ _ hacc hstep => addStep_ok hacc hstep)
    (by constructor <;> simp) h

theorem addConfigs_ok {l : List (ConfigInput × Nat)} {acc : List RefConfig}
    (h : l.foldlM addConfig [] = .ok acc) :
    acc = l.filterMap refConfig ∧ acc.map (fun c => (c.input, c.index)) = l ∧
      (acc.map RefConfig.ref).Nodup := by
  refine foldlM_ok (fun done acc => acc = done.filterMap refConfig ∧
    acc.map (fun c => (c.input, c.index)) = done ∧ (acc.map RefConfig.ref).Nodup) ?_
    ⟨rfl, rfl, List.nodup_nil⟩ h
  rintro done ⟨config, index⟩ acc₁ acc₂ - ⟨hacc, hinputs, hnd⟩ hstep
  unfold addConfig at hstep
  dsimp only at hstep
  split at hstep
  · cases hstep
  · rename_i ref href
    split at hstep
    · cases hstep
    · rename_i hnew
      cases hstep
      refine ⟨by simp [hacc, refConfig, href], by simp [hinputs], ?_⟩
      rw [List.map_append]
      exact hnd.append (List.nodup_singleton _) (List.disjoint_singleton.mpr hnew)

/-! ## The entities -/

/-- The row of a setting, with its place. -/
def settingRow (templateId : String) (t : TemplateInput) (e : (String × Nat) × Nat) :
    TemplateSettingRow :=
  ⟨templateId, (splitSettingKey e.1.1).1, e.1.2, payloadValue t e.1.1,
    (splitSettingKey e.1.1).2.getD 0, e.2⟩

/-- What is prepared of a payload that is accepted. -/
structure Prepared (bytesHash : ByteArray → String) (templateId : String) (t : TemplateInput)
    (e : Entities) : Prop where
  steps : e.steps = (t.steps.zipIdx 1).map (stepRow templateId)
  settings : e.settings = ((assignedSettings t).zipIdx 1).map (settingRow templateId t)
  configs : e.configs =
    ((orderedConfigs t).zipIdx 1).map (configEntity bytesHash templateId (assignedConfigs t))
  settings_nodup : ((assignedSettings t).map Prod.fst).Nodup
  configs_nodup : ((assignedConfigs t).map Prod.fst).Nodup
  assigned : ∀ key, key ∈ (assignedSettings t).map Prod.fst ↔ key ∈ (payload t).map Prod.fst
  inputs : (t.configs.zipIdx.filterMap refConfig).map (fun c => (c.input, c.index)) = t.configs.zipIdx
  refs_nodup : ((orderedConfigs t).map RefConfig.ref).Nodup
  refs : ∀ ref, ref ∈ (assignedConfigs t).map Prod.fst ↔ ref ∈ (orderedConfigs t).map RefConfig.ref

theorem orderedConfigs_perm (t : TemplateInput) :
    (orderedConfigs t).Perm (t.configs.zipIdx.filterMap refConfig) := List.perm_insertionSort _ _

theorem settingEntities_ok {templateId : String} {t : TemplateInput} {known : Dict String String}
    {l : List ((String × Nat) × Nat)} {rows : List TemplateSettingRow}
    (hknown : normalizeSettings t.settings = .ok known)
    (h : l.mapM (settingEntity templateId known) = .ok rows) :
    rows = l.map (settingRow templateId t) := by
  refine mapM_ok (fun x _ row hrow => ?_) h
  unfold settingEntity at hrow
  dsimp only at hrow
  split at hrow
  · cases hrow
  · cases hrow
    rw [normalizeSettings_ok hknown]
    rfl

/-- A payload whose settings are all assigned assigns the settings that it has. -/
theorem Collected.mem_payload {templateId : String} {t : TemplateInput} {known : Dict String String}
    {done : List (StepInput × Nat)} {acc : Assigned} (h : Collected templateId known done acc)
    (hknown : normalizeSettings t.settings = .ok known)
    (hassigned : (t.settings.map fun e => stripText e.1).eraseDups.filter
      (· ∉ acc.settings.map Prod.fst) = []) (key : String) :
    key ∈ acc.settings.map Prod.fst ↔ key ∈ (payload t).map Prod.fst := by
  constructor
  · intro hkey
    have hlookup := h.known key hkey
    rw [normalizeSettings_ok hknown] at hlookup
    by_contra hnone
    exact hlookup (Dict.lastOf_eq_none.mpr fun x hx hxk => hnone (List.mem_map.mpr ⟨x, hx, hxk⟩))
  · intro hkey
    by_contra hnone
    obtain ⟨x, hx, rfl⟩ := List.mem_map.mp hkey
    obtain ⟨raw, hraw, rfl⟩ := List.mem_map.mp hx
    refine absurd hassigned (List.ne_nil_of_mem (a := stripText raw.1) ?_)
    rw [List.mem_filter, List.mem_eraseDups]
    exact ⟨List.mem_map_of_mem hraw, by simpa using hnone⟩

theorem mem_map_iff_of_find? {α β γ : Type} [BEq γ] [LawfulBEq γ] {l : List α} {l' : List β}
    {f : α → γ} {g : β → γ} (h : l.find? (f · ∉ l'.map g) = none)
    (h' : l'.find? (g · ∉ l.map f) = none) (x : γ) : x ∈ l.map f ↔ x ∈ l'.map g := by
  constructor
  · intro hx
    obtain ⟨a, ha, rfl⟩ := List.mem_map.mp hx
    simpa using List.find?_eq_none.mp h a ha
  · intro hx
    obtain ⟨b, hb, rfl⟩ := List.mem_map.mp hx
    simpa using List.find?_eq_none.mp h' b hb

theorem prepared_of_ok {bytesHash : ByteArray → String} {db : PluginDb} {templateId : String}
    {t : TemplateInput} {e : Entities}
    (h : prepareTemplateEntities bytesHash db templateId t = .ok e) :
    Prepared bytesHash templateId t e := by
  unfold prepareTemplateEntities at h
  split at h
  · cases h
  obtain ⟨known, hknown, h⟩ := bind_eq_ok.mp h
  obtain ⟨acc, hacc, h⟩ := bind_eq_ok.mp h
  have hsteps := addSteps_ok hacc
  dsimp only at h
  split at h
  · cases h
  rename_i hassigned
  obtain ⟨settings, hsettings, h⟩ := bind_eq_ok.mp h
  split at h
  · cases h
  obtain ⟨configs, hconfigs, h⟩ := bind_eq_ok.mp h
  obtain ⟨rfl, hinputs, hrefs⟩ := addConfigs_ok hconfigs
  split at h
  · cases h
  rename_i hstepConfigs
  split at h
  · cases h
  rename_i hallConfigs
  cases h
  have hset : acc.settings = assignedSettings t := hsteps.settings
  have hcfg : acc.configs = assignedConfigs t := hsteps.configs
  have hperm := (orderedConfigs_perm t).map RefConfig.ref
  have hkeys := hsteps.mem_payload hknown (not_not.mp hassigned)
  have hnodup := hsteps.settings_nodup
  have hconfigsNodup := hsteps.configs_nodup
  rw [hset] at hsettings hkeys hnodup
  rw [hcfg] at hstepConfigs hallConfigs hconfigsNodup ⊢
  exact {
    steps := hsteps.steps
    settings := settingEntities_ok hknown hsettings
    configs := rfl
    settings_nodup := hnodup
    configs_nodup := hconfigsNodup
    assigned := hkeys
    inputs := hinputs
    refs_nodup := hperm.nodup_iff.mpr hrefs
    refs := fun ref => by
      rw [mem_map_iff_of_find? hstepConfigs hallConfigs]
      exact hperm.mem_iff.symm }

theorem created_of_ok {bytesHash : ByteArray → String} {readonly : Bool} {db db' : PluginDb}
    {t : TemplateInput} (h : createTemplate bytesHash readonly db t = .ok db') :
    stripText t.id ∉ db.templates.map Template.id ∧
      ∃ e, db' = withTemplate db t e ∧ Prepared bytesHash (stripText t.id) t e := by
  unfold createTemplate at h
  dsimp only at h
  split at h
  · cases h
  split at h
  · cases h
  split at h
  · cases h
  split at h
  · cases h
  rename_i hid
  split at h
  · cases h
  split at h
  · cases h
  obtain ⟨e, he, h⟩ := bind_eq_ok.mp h
  split at h
  · cases h
    exact ⟨hid, e, rfl, prepared_of_ok he⟩
  · cases h

/-! ## What is read -/

/-- The foreign keys of the tables of the templates. -/
structure TemplateOwners (db : PluginDb) : Prop where
  steps : ∀ s ∈ db.templateSteps, s.templateId ∈ db.templates.map Template.id
  settings : ∀ s ∈ db.templateSettings, s.templateId ∈ db.templates.map Template.id
  configs : ∀ c ∈ db.templateConfigs, c.templateId ∈ db.templates.map Template.id

/-- The rows of a new owner are those that are added for it, and they are in order when they are
made in the order of their places. -/
theorem rows_added {α β : Type} {owner : α → String} (order : α → Nat) {ids : List String}
    {old : List α} {id : String} {f : β × Nat → α} {l : List β} {n : Nat}
    (hold : ∀ a ∈ old, owner a ∈ ids) (hid : id ∉ ids) (howner : ∀ e, owner (f e) = id)
    (horder : ∀ e, order (f e) = e.2) :
    ((old ++ (l.zipIdx n).map f).filter (owner · = id)).insertionSort
      (fun a b => order a ≤ order b) = (l.zipIdx n).map f := by
  have hnone : old.filter (owner · = id) = [] := List.filter_eq_nil_iff.mpr fun a ha => by
    simp only [decide_eq_true_eq]
    exact fun h => hid (h ▸ hold a ha)
  have hall : ((l.zipIdx n).map f).filter (owner · = id) = (l.zipIdx n).map f :=
    List.filter_eq_self.mpr fun a ha => by
      obtain ⟨e, -, rfl⟩ := List.mem_map.mp ha
      exact decide_eq_true (howner e)
  rw [List.filter_append, hnone, List.nil_append, hall]
  refine List.Pairwise.insertionSort_eq (List.pairwise_map.mpr ?_)
  refine (pairwise_zipIdx l n).imp fun {a b} hab => ?_
  rwa [horder, horder]

/-- The details of the new template. -/
theorem getTemplateDetails_created {bytesHash : ByteArray → String} {db : PluginDb}
    {t : TemplateInput} {e : Entities} (hown : TemplateOwners db)
    (hid : stripText t.id ∉ db.templates.map Template.id)
    (he : Prepared bytesHash (stripText t.id) t e) :
    getTemplateDetails (withTemplate db t e) (stripText t.id) =
      some ⟨stripText t.id, stripText t.name, normalizedPlugin t, t.method,
        e.steps.map (stepDetails (e.settings.map settingDetails) (e.configs.map configDetails)),
        e.settings.map settingDetails, e.configs.map configDetails⟩ := by
  have hfind : (withTemplate db t e).templates.find? (·.id = stripText t.id) =
      some ⟨stripText t.id, stripText t.name, normalizedPlugin t, t.method⟩ := by
    have hnone : db.templates.find? (·.id = stripText t.id) = none :=
      List.find?_eq_none.mpr fun x hx => by
        simpa using fun h => hid (List.mem_map.mpr ⟨x, hx, h⟩)
    rw [withTemplate, List.find?_append, hnone]
    simp
  have hsteps := rows_added TemplateStep.id (f := stepRow (stripText t.id)) (l := t.steps) (n := 1)
    hown.steps hid (fun _ => rfl) (fun _ => rfl)
  have hsettings := rows_added TemplateSettingRow.order (f := settingRow (stripText t.id) t)
    (l := assignedSettings t) (n := 1) hown.settings hid (fun _ => rfl) (fun _ => rfl)
  have hconfigs := rows_added TemplateConfig.order
    (f := configEntity bytesHash (stripText t.id) (assignedConfigs t)) (l := orderedConfigs t)
    (n := 1) hown.configs hid (fun _ => rfl) (fun _ => rfl)
  rw [← he.steps] at hsteps
  rw [← he.settings] at hsettings
  rw [← he.configs] at hconfigs
  unfold getTemplateDetails
  rw [hfind]
  simp only [Option.map_some, withTemplate, hsteps, hsettings, hconfigs]

/-! ## The encodings -/

/-- The keys that come back from their parts: without line breaks, and when they end in an
underscore and a number it is positive and written without leading zeros. -/
structure PlainKey (key : String) : Prop where
  one_line : '\n' ∉ key.toList
  number : ∀ base digits, suffixRx key = some (base, digits) →
    digits = toString (parseInt digits) ∧ parseInt digits ≠ 0

instance (key : String) : Decidable (PlainKey key) :=
  decidable_of_iff ('\n' ∉ key.toList ∧ ∀ r ∈ suffixRx key,
      r.2 = toString (parseInt r.2) ∧ parseInt r.2 ≠ 0)
    ⟨fun h => ⟨h.1, fun base digits hrx => h.2 (base, digits) hrx⟩,
      fun h => ⟨h.one_line, fun r hr => h.number r.1 r.2 hr⟩⟩

theorem PlainKey.key_eq {key : String} (h : PlainKey key) :
    suffixedKey (splitSettingKey key).1 ((splitSettingKey key).2.getD 0) = key := by
  have hline : key.toList.rtakeWhile (· ≠ '\n') = key.toList :=
    List.rtakeWhile_eq_self_iff.mpr fun c hc => by
      simpa using fun he : c = '\n' => h.one_line (he ▸ hc)
  unfold splitSettingKey
  rw [hline, String.ofList_toList]
  cases hrx : suffixRx key with
  | none => rfl
  | some r =>
    obtain ⟨base, digits⟩ := r
    obtain ⟨hdigits, hpos⟩ := h.number base digits hrx
    obtain ⟨hkey, -⟩ := suffixRx_eq_some.mp hrx
    rw [hkey, Option.getD_some, suffixedKey_of_pos _ (Nat.pos_of_ne_zero hpos), ← hdigits]

/-- A name without the suffix inside keeps it nowhere when it is put behind. -/
theorem removeConf_append {name : List Char} (h : ¬ confSuffix <:+: name) :
    removeConf (name ++ confSuffix) = name := by
  induction name with
  | nil => rfl
  | cons c name ih =>
    have htail : ¬ confSuffix <:+: name := fun hin =>
      h (hin.trans (List.suffix_cons c name).isInfix)
    rw [List.cons_append, removeConf, ih htail]
    -- No occurrence starts in the name and ends in the suffix, which has one dot only.
    intro s hc hs
    subst hc
    rcases name with _ | ⟨c₁, _ | ⟨c₂, _ | ⟨c₃, _ | ⟨c₄, name⟩⟩⟩⟩ <;> simp [confSuffix] at hs
    obtain ⟨rfl, rfl, rfl, rfl, -⟩ := hs
    exact h ⟨[], name, rfl⟩

theorem decodeReplace_encode (text : String) : decodeReplace text.toUTF8 = text := by
  have h : String.fromUTF8? text.toUTF8 = some text := dif_pos text.isValidUTF8
  rw [decodeReplace, h]

/-! ## The members of a step -/

theorem members_of_step {α β : Type} (f : α × Nat → β) (stepId : β → Nat) (key : β → String)
    (step : α → Nat) (name : α → String) {l : List α} {n : Nat}
    (hstep : ∀ e, stepId (f e) = step e.1) (hkey : ∀ a ∈ l, ∀ i, key (f (a, i)) = name a)
    (i : Nat) :
    (((l.zipIdx n).map f).filter (stepId · = i)).map key =
      (l.filter (step · = i)).map name := by
  rw [List.filter_map, List.map_map, ← filter_map_zipIdx l n]
  have hfilter : (l.zipIdx n).filter ((fun b => decide (stepId b = i)) ∘ f) =
      (l.zipIdx n).filter fun e => decide (step e.1 = i) :=
    List.filter_congr fun e _ => by rw [Function.comp_apply, hstep]
  rw [hfilter]
  refine List.map_congr_left fun e he => ?_
  exact hkey e.1 (List.fst_mem_of_mem_zipIdx (List.mem_of_mem_filter he)) e.2

/-- The step of a custom config. -/
def stepOf (steps : List (ConfigRef × Nat)) (ref : ConfigRef) : Nat :=
  ((steps.find? (·.1 = ref)).map Prod.snd).getD 0

theorem stepOf_eq {steps : List (ConfigRef × Nat)} (hnodup : (steps.map Prod.fst).Nodup)
    {ref : ConfigRef} (href : ref ∈ steps.map Prod.fst) {i : Nat} :
    stepOf steps ref = i ↔ (ref, i) ∈ steps := by
  obtain ⟨x, hx, rfl⟩ := List.mem_map.mp href
  have hfind : steps.find? (·.1 = x.1) = some x := by
    cases h : steps.find? (·.1 = x.1) with
    | none => simpa using List.find?_eq_none.mp h x hx
    | some y =>
      have hy : y.1 = x.1 := by simpa using List.find?_some h
      rw [List.inj_on_of_nodup_map hnodup (List.mem_of_find?_eq_some h) hx hy]
  rw [stepOf, hfind]
  constructor
  · rintro rfl
    exact hx
  · intro h
    exact congrArg Prod.snd (List.inj_on_of_nodup_map hnodup hx h rfl)

@[simp] theorem settingDetails_key (s : TemplateSettingRow) :
    (settingDetails s).key = suffixedKey s.settingId s.suffix := rfl

section

variable {bytesHash : ByteArray → String} {templateId : String} {t : TemplateInput}
  {e : Entities}

theorem PlainKey.row_key {x : (String × Nat) × Nat} (h : PlainKey x.1.1) :
    (settingDetails (settingRow templateId t x)).key = x.1.1 := by
  rw [settingDetails_key]
  simp only [settingRow, h.key_eq]

theorem Prepared.step_settings (he : Prepared bytesHash templateId t e)
    (hkeys : ∀ x ∈ assignedSettings t, PlainKey x.1) {s : StepInput × Nat}
    (hs : s ∈ t.steps.zipIdx 1) :
    ((e.settings.map settingDetails).filter (·.stepId = s.2)).map SettingDetails.key =
      s.1.settings.map stripText := by
  have hmembers := members_of_step (l := assignedSettings t) (n := 1)
    (settingDetails ∘ settingRow templateId t) SettingDetails.stepId SettingDetails.key
    Prod.snd Prod.fst (fun _ => rfl) (fun x hx i => PlainKey.row_key (x := (x, i)) (hkeys x hx)) s.2
  rw [he.settings, List.map_map, hmembers, assignedSettings, filter_flatMap_zipIdx (by simp) hs,
    List.map_map]
  rfl

theorem PlainKey.row_value {x : (String × Nat) × Nat} (h : PlainKey x.1.1) :
    ((settingDetails (settingRow templateId t x)).key,
      (settingDetails (settingRow templateId t x)).default) = (x.1.1, payloadValue t x.1.1) := by
  rw [h.row_key]
  simp only [settingDetails, settingRow]

/-- The references of a step are in the table of the steps of custom configs. -/
theorem filter_assignedConfigs {s : StepInput × Nat} (hs : s ∈ t.steps.zipIdx 1) :
    (assignedConfigs t).filter (·.2 = s.2) = (configRefs s.1).map (·, s.2) := by
  refine filter_flatMap_zipIdx (fun e x hx => ?_) hs
  obtain ⟨ref, -, rfl⟩ := List.mem_map.mp hx
  rfl

theorem mem_assignedConfigs {s : StepInput × Nat} (hs : s ∈ t.steps.zipIdx 1) {ref : ConfigRef} :
    (ref, s.2) ∈ assignedConfigs t ↔ ref ∈ configRefs s.1 := by
  have hmem : (ref, s.2) ∈ (assignedConfigs t).filter (·.2 = s.2) ↔
      (ref, s.2) ∈ (configRefs s.1).map (·, s.2) := by rw [filter_assignedConfigs hs]
  simpa using hmem

theorem Prepared.configRefs_nodup (he : Prepared bytesHash templateId t e) {s : StepInput × Nat}
    (hs : s ∈ t.steps.zipIdx 1) : (configRefs s.1).Nodup := by
  have hsub := ((List.filter_sublist (p := fun x => x.2 = s.2)).map Prod.fst).nodup
    he.configs_nodup
  rw [filter_assignedConfigs hs, List.map_map] at hsub
  simpa [Function.comp_def] using hsub

/-- The custom configs of a step, in their own order. -/
theorem Prepared.step_refs (he : Prepared bytesHash templateId t e) {s : StepInput × Nat}
    (hs : s ∈ t.steps.zipIdx 1) :
    (((orderedConfigs t).filter fun c => stepOf (assignedConfigs t) c.ref = s.2).map
      RefConfig.ref).Perm (configRefs s.1) := by
  have hmap : ((orderedConfigs t).filter fun c => stepOf (assignedConfigs t) c.ref = s.2).map
      RefConfig.ref = ((orderedConfigs t).map RefConfig.ref).filter fun ref =>
        stepOf (assignedConfigs t) ref = s.2 := by
    rw [List.filter_map]
    rfl
  rw [hmap]
  refine (List.perm_ext_iff_of_nodup (he.refs_nodup.filter _) (he.configRefs_nodup hs)).mpr
    fun ref => ?_
  rw [List.mem_filter, ← he.refs, decide_eq_true_iff]
  constructor
  · rintro ⟨href, hstep⟩
    exact (mem_assignedConfigs hs).mp ((stepOf_eq he.configs_nodup href).mp hstep)
  · intro href
    have hmem := (mem_assignedConfigs hs).mpr href
    have hfst := List.mem_map_of_mem (f := Prod.fst) hmem
    exact ⟨hfst, (stepOf_eq he.configs_nodup hfst).mpr hmem⟩

/-- The references without the suffix inside their names. -/
def PlainRef (ref : ConfigRef) : Prop := ¬ confSuffix <:+: ref.2.toList

instance (ref : ConfigRef) : Decidable (PlainRef ref) := inferInstanceAs (Decidable (¬ _))

theorem PlainRef.configName {ref : ConfigRef} (h : PlainRef ref) : configName ref = ref.2 := by
  unfold BunkerWeb.Db.configName
  rw [removeConf_append h, String.ofList_toList]

/-- What is read of a custom config. -/
theorem configDetails_entity (bytesHash : ByteArray → String) (templateId : String)
    (steps : List (ConfigRef × Nat)) {c : RefConfig} (h : PlainRef c.ref) (i : Nat) :
    configDetails (configEntity bytesHash templateId steps (c, i)) =
      ⟨c.ref.text, c.ref.1, c.ref.2, stepOf steps c.ref, c.input.data, i⟩ := by
  unfold configDetails configEntity
  simp only [h.configName, decodeReplace_encode]
  rfl

theorem Prepared.step_configs (he : Prepared bytesHash templateId t e)
    (hrefs : ∀ c ∈ orderedConfigs t, PlainRef c.ref) {s : StepInput × Nat}
    (hs : s ∈ t.steps.zipIdx 1) :
    (((e.configs.map configDetails).filter (·.stepId = s.2)).map ConfigDetails.key).Perm
      ((configRefs s.1).map ConfigRef.text) := by
  have hmembers := members_of_step (l := orderedConfigs t) (n := 1)
    (configDetails ∘ configEntity bytesHash templateId (assignedConfigs t)) ConfigDetails.stepId
    ConfigDetails.key (fun c => stepOf (assignedConfigs t) c.ref) (fun c => c.ref.text)
    (fun _ => rfl) (fun c hc i => by
      rw [Function.comp_apply, configDetails_entity _ _ _ (hrefs c hc)])
    s.2
  rw [he.configs, List.map_map, hmembers]
  have hperm := (he.step_refs hs).map ConfigRef.text
  rwa [List.map_map] at hperm

end

/-! ## The round trip -/

/-- A step that is read as it was given. -/
structure StepReadsBack (s : StepInput) (d : StepDetails) : Prop where
  title : d.title = stripText s.title
  subtitle : d.subtitle = stripText (s.subtitle.getD "")
  settings : d.settings = s.settings.map stripText
  configs : d.configs.Perm ((configRefs s).map ConfigRef.text)

/-- A template that is read as it was given. -/
structure TemplateReadsBack (t : TemplateInput) (d : TemplateDetails) : Prop where
  name : d.name = stripText t.name
  settings : d.settings.map (fun s => (s.key, s.default)) =
    (t.steps.flatMap StepInput.settings).map fun r => (stripText r, payloadValue t (stripText r))
  settings_once : (d.settings.map SettingDetails.key).Perm ((payload t).map Prod.fst).dedup
  steps : List.Forall₂ StepReadsBack t.steps d.steps
  configs : d.configs.map (fun c => (c.type, c.name, c.data)) =
    (orderedConfigs t).map fun c => (c.ref.1, c.ref.2, c.input.data)
  configs_once : ((orderedConfigs t).map RefConfig.input).Perm t.configs

theorem subtitleOf_getD (subtitle : Option String) :
    (subtitleOf subtitle).getD "" = stripText (subtitle.getD "") := by
  cases subtitle with
  | none => rfl
  | some s =>
    by_cases h : stripText s = "" <;> simp [subtitleOf, h]

theorem assignedSettings_fst (t : TemplateInput) :
    (assignedSettings t).map Prod.fst = (t.steps.flatMap StepInput.settings).map stripText := by
  have hsteps : t.steps.flatMap StepInput.settings =
      (t.steps.zipIdx 1).flatMap fun e => e.1.settings := by
    conv_lhs => rw [← List.zipIdx_map_fst 1 t.steps, List.flatMap_map]
  rw [assignedSettings, hsteps, List.map_flatMap, List.map_flatMap]
  simp only [List.map_map]
  rfl

/-- **Template round trip.** A template that is accepted is read as it was given, when its setting
keys and the names of its custom configs come back from their parts. -/
theorem template_round_trip {bytesHash : ByteArray → String} {readonly : Bool} {db db' : PluginDb}
    {t : TemplateInput} (hown : TemplateOwners db)
    (hcreate : createTemplate bytesHash readonly db t = .ok db')
    (hkeys : ∀ e ∈ t.settings, PlainKey (stripText e.1))
    (hrefs : ∀ c ∈ orderedConfigs t, PlainRef c.ref) :
    ∃ d, getTemplateDetails db' (stripText t.id) = some d ∧ TemplateReadsBack t d := by
  obtain ⟨hid, e, rfl, he⟩ := created_of_ok hcreate
  refine ⟨_, getTemplateDetails_created hown hid he, ?_⟩
  have hplain : ∀ x ∈ assignedSettings t, PlainKey x.1 := fun x hx => by
    obtain ⟨p, hp, hpx⟩ := List.mem_map.mp ((he.assigned x.1).mp (List.mem_map_of_mem hx))
    obtain ⟨raw, hraw, rfl⟩ := List.mem_map.mp hp
    exact hpx ▸ hkeys raw hraw
  have hrows : (e.settings.map settingDetails).map (fun s => (s.key, s.default)) =
      (assignedSettings t).map fun x => (x.1, payloadValue t x.1) := by
    rw [he.settings, List.map_map, List.map_map]
    conv_rhs => rw [← List.zipIdx_map_fst 1 (assignedSettings t), List.map_map]
    exact List.map_congr_left fun x hx => (hplain x.1 (List.fst_mem_of_mem_zipIdx hx)).row_value
  have hfst : (e.settings.map settingDetails).map SettingDetails.key =
      (assignedSettings t).map Prod.fst := by
    have := congrArg (List.map Prod.fst) hrows
    simpa [Function.comp_def] using this
  refine ⟨rfl, ?_, ?_, ?_, ?_, ?_⟩
  · have hpairs : (assignedSettings t).map (fun x => (x.1, payloadValue t x.1)) =
        ((assignedSettings t).map Prod.fst).map fun key => (key, payloadValue t key) := by
      rw [List.map_map]
      rfl
    rw [hrows, hpairs, assignedSettings_fst, List.map_map]
    rfl
  · rw [hfst]
    exact (List.perm_ext_iff_of_nodup he.settings_nodup (List.nodup_dedup _)).mpr fun key => by
      rw [he.assigned, List.mem_dedup]
  · dsimp only
    rw [he.steps, List.map_map]
    refine forall₂_zipIdx fun s hs => ?_
    exact ⟨rfl, subtitleOf_getD _, he.step_settings hplain hs, he.step_configs hrefs hs⟩
  · dsimp only
    rw [he.configs, List.map_map, List.map_map]
    conv_rhs => rw [← List.zipIdx_map_fst 1 (orderedConfigs t), List.map_map]
    refine List.map_congr_left fun c hc => ?_
    have hentity := configDetails_entity bytesHash (stripText t.id) (assignedConfigs t)
      (hrefs c.1 (List.fst_mem_of_mem_zipIdx hc)) c.2
    simp only [Function.comp_apply, hentity]
  · refine ((orderedConfigs_perm t).map _).trans (List.Perm.of_eq ?_)
    have hinputs := congrArg (List.map Prod.fst) he.inputs
    rw [List.map_map, List.zipIdx_map_fst] at hinputs
    exact hinputs

def settingRowOf (id : String) : SettingRow where
  id := id
  name := id
  pluginId := "general"
  context := .multisite
  default := ""
  help := ""
  label := ""
  regex := "^.*$"
  type := .text
  multiple := some "group"
  separator := none
  accept := none
  order := 0

/-- A database with two settings and no templates. -/
def twoSettings : PluginDb where
  plugins := []
  settings := [settingRowOf "USE_GZIP", settingRowOf "REVERSE_PROXY_HOST"]
  selects := []
  multiselects := []
  globalValues := []
  servicesSettings := []
  jobs := []
  jobsCache := []
  jobsRuns := []
  pages := []
  commands := []
  templates := []
  templateSteps := []
  templateSettings := []
  templateConfigs := []
  metadata := none

def shopTemplate (name : String) : TemplateInput where
  id := "shop"
  pluginId := none
  name := name
  settings := [("REVERSE_PROXY_HOST_2", some "http://app"), ("USE_GZIP", none)]
  steps := [⟨"Front", some "The proxy", ["USE_GZIP"], []⟩,
    ⟨"Back", none, ["REVERSE_PROXY_HOST_2"], ["server-http/shop.conf"]⟩]
  configs := [⟨"server-http", "shop.conf", "more_set_headers;", none⟩]
  method := .ui

def shopCreated : PluginDb :=
  (createTemplate (fun _ => "") false twoSettings (shopTemplate "Shop")).toOption.getD twoSettings

theorem template_round_trip_shop :
    ∃ d, getTemplateDetails shopCreated (stripText (shopTemplate "Shop").id) = some d ∧
      TemplateReadsBack (shopTemplate "Shop") d :=
  have hown : TemplateOwners twoSettings :=
    ⟨by simp [twoSettings], by simp [twoSettings], by simp [twoSettings]⟩
  have hcreate : createTemplate (fun _ => "") false twoSettings (shopTemplate "Shop") =
    .ok shopCreated := eq_ok_of_isOk (by decide) _
  template_round_trip hown hcreate (by decide) (by decide)

/-- The blanks around a name are not kept. -/
theorem created_name_is_stripped :
    ((createTemplate (fun _ => "") false twoSettings (shopTemplate " Shop")).toOption.bind
      (getTemplateDetails · "shop")).map TemplateDetails.name = some "Shop" ∧
    "Shop" ≠ (shopTemplate " Shop").name := by
  exact ⟨by decide, by decide⟩

end BunkerWeb.Db
