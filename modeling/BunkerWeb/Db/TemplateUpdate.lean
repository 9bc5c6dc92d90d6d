import BunkerWeb.Db.TemplateRoundTrip
import BunkerWeb.Lib.Numbered

/-!
# Updates of templates

`update_template` of `Database.py`. What the call does not pass is read as `get_template_details`
gives it and goes through the same preparation as a new payload: the parts of the template are
deleted and made again. `update_keeps_parts_iff` says for which templates they come out as they
were.
-/

namespace BunkerWeb.Db

open Lib Lib.Lines

/-! ## `update_template` -/

/-- What a call passes; `none` stands for an argument that is left out. -/
structure TemplateChange where
  pluginId : Option String
  name : Option String
  settings : Option (List (String × Option String))
  steps : Option (List StepInput)
  configs : Option (List ConfigInput)

/-- `current_steps`. -/
def currentStep (s : StepDetails) : StepInput := ⟨s.title, some s.subtitle, s.settings, s.configs⟩

/-- `current_configs`. -/
def currentConfig (c : ConfigDetails) : ConfigInput := ⟨c.type, c.name, c.data, some c.order⟩

/-- `effective_settings`, `effective_steps` and `effective_configs`. -/
def effectiveInput (d : TemplateDetails) (c : TemplateChange) : TemplateInput where
  id := d.id
  pluginId := c.pluginId
  name := c.name.getD d.name
  settings := c.settings.getD (d.settings.map fun s => (s.key, some s.default))
  steps := c.steps.getD (d.steps.map currentStep)
  configs := c.configs.getD (d.configs.map currentConfig)
  method := .ui

/-- The plugin that the template is to belong to. -/
def changedPlugin (db : PluginDb) (current given : Option String) :
    Except String (Option String) :=
  match given with
  | none => .ok current
  | some p =>
    let normalized := if stripText p = "" then none else some (stripText p)
    if normalized = current then .ok current
    else match normalized.filter (· ∉ db.plugins.map Plugin.id) with
      | some plugin => .error ("Plugin " ++ plugin ++ " does not exist")
      | none => .ok normalized

/-- The name of the template. -/
def changedName (db : PluginDb) (id current : String) (given : Option String) :
    Except String String :=
  match given with
  | none => .ok current
  | some n =>
    let name := stripText n
    if name = "" then .error "Template name cannot be empty"
    else if ∃ t ∈ db.templates, t.name = name ∧ t.id ≠ id then
      .error ("Template name " ++ name ++ " already exists")
    else .ok name

/-- The tables with the template and its parts made again. -/
def withParts (db : PluginDb) (id : String) (name : String) (pluginId : Option String)
    (e : Entities) : PluginDb :=
  { db with
    templates := db.templates.map fun t =>
      if t.id = id then { t with name := name, pluginId := pluginId, method := .ui } else t
    templateSteps := db.templateSteps.filter (·.templateId ≠ id) ++ e.steps
    templateSettings := db.templateSettings.filter (·.templateId ≠ id) ++ e.settings
    templateConfigs := db.templateConfigs.filter (·.templateId ≠ id) ++ e.configs }

/-- `update_template`: the error, or the database after the commit. What the database system says
of a constraint that is broken is left out of the text. -/
def updateTemplate (bytesHash : ByteArray → String) (readonly : Bool) (db : PluginDb) (id : String)
    (c : TemplateChange) : Except String PluginDb :=
  match getTemplateDetails db id with
  | none => .error "Template not found"
  | some d =>
    if readonly then .error "The database is read-only, the changes will not be saved"
    else do
      let pluginId ← changedPlugin db d.pluginId c.pluginId
      let name ← changedName db id d.name c.name
      let entities ← prepareTemplateEntities bytesHash db id (effectiveInput d c)
      let updated := withParts db id name pluginId entities
      if TemplateKeys updated then .ok updated
      else .error ("An error occurred while updating template " ++ id ++ ".\n")

/-! ## The property and the condition -/

section

variable (db : PluginDb) (id : String)

def storedSteps : List TemplateStep :=
  (db.templateSteps.filter (·.templateId = id)).insertionSort (·.id ≤ ·.id)

def storedSettings : List TemplateSettingRow :=
  (db.templateSettings.filter (·.templateId = id)).insertionSort (·.order ≤ ·.order)

def storedConfigs : List TemplateConfig :=
  (db.templateConfigs.filter (·.templateId = id)).insertionSort (·.order ≤ ·.order)

/-- The steps, settings and custom configs of the template are the rows that they were. -/
structure PartsUnchanged (db' : PluginDb) : Prop where
  steps : (db'.templateSteps.filter (·.templateId = id)).Perm
    (db.templateSteps.filter (·.templateId = id))
  settings : (db'.templateSettings.filter (·.templateId = id)).Perm
    (db.templateSettings.filter (·.templateId = id))
  configs : (db'.templateConfigs.filter (·.templateId = id)).Perm
    (db.templateConfigs.filter (·.templateId = id))

end

/-- A step that is made again as it was, at its place. -/
structure PlainStep (s : TemplateStep) (place : Nat) : Prop where
  id : s.id = place
  title : stripText s.title = s.title
  subtitle : subtitleOf (some (s.subtitle.getD "")) = s.subtitle

/-- A setting that is made again as it was, at its place: its key gives its parts back. -/
structure PlainSetting (r : TemplateSettingRow) (place : Nat) : Prop where
  order : r.order = place
  setting : (splitSettingKey (stripText (suffixedKey r.settingId r.suffix))).1 = r.settingId
  suffix : (splitSettingKey (stripText (suffixedKey r.settingId r.suffix))).2.getD 0 = r.suffix

/-- A custom config that is made again as it was, at its place: its name has no blanks around it
and no `.conf` in it, its contents are UTF-8, and its checksum is right. -/
structure PlainConfig (bytesHash : ByteArray → String) (c : TemplateConfig) (place : Nat) :
    Prop where
  order : c.order = place
  type : c.type ∈ multisiteCustomConfigTypes
  name : stripChars c.name.toList = c.name.toList
  noSuffix : ¬ confSuffix <:+ c.name.toList
  reference : configName (c.type, c.name) = c.name
  data : (decodeReplace c.data).toUTF8 = c.data
  checksum : bytesHash c.data = c.checksum

/-- A template that is read and written as it is: each part is made again as it was, the places are
numbered from 1 on, the settings come in the order of their steps, and no step is missing. -/
structure Canonical (bytesHash : ByteArray → String) (db : PluginDb) (id : String) : Prop where
  steps : ∀ e ∈ (storedSteps db id).zipIdx 1, PlainStep e.1 e.2
  settings : ∀ e ∈ (storedSettings db id).zipIdx 1, PlainSetting e.1 e.2
  grouped : (storedSettings db id).Pairwise fun a b => a.stepId ≤ b.stepId
  placed : ∀ r ∈ storedSettings db id, r.stepId ∈ (storedSteps db id).map TemplateStep.id
  configs : ∀ e ∈ (storedConfigs db id).zipIdx 1, PlainConfig bytesHash e.1 e.2
  configsPlaced : ∀ c ∈ storedConfigs db id, c.stepId ∈ (storedSteps db id).map TemplateStep.id

/-! ## What is prepared of a stored template -/

/-- The payload that stands for the template as it is stored. -/
def storedInput (db : PluginDb) (id : String) (t : Template) (c : TemplateChange) : TemplateInput :=
  effectiveInput
    ⟨t.id, t.name, t.pluginId, t.method,
      (storedSteps db id).map (stepDetails ((storedSettings db id).map settingDetails)
        ((storedConfigs db id).map configDetails)),
      (storedSettings db id).map settingDetails, (storedConfigs db id).map configDetails⟩ c

/-- A call that passes a name, a plugin or both. -/
def rename (pluginId name : Option String) : TemplateChange := ⟨pluginId, name, none, none, none⟩

section

variable {bytesHash : ByteArray → String} {db db' : PluginDb} {id : String} {t : Template}
  {pluginId name : Option String} {e : Entities}

/-- A call that succeeds has made the parts again. -/
theorem updated_of_ok {readonly : Bool} {c : TemplateChange}
    (h : updateTemplate bytesHash readonly db id c = .ok db') :
    ∃ t name pluginId e, db' = withParts db id name pluginId e ∧
      Prepared bytesHash id (storedInput db id t c) e := by
  unfold updateTemplate at h
  split at h
  · cases h
  · rename_i d hd
    obtain ⟨t, -, rfl⟩ := Option.map_eq_some_iff.mp hd
    split at h
    · cases h
    · obtain ⟨pluginId, -, h⟩ := bind_eq_ok.mp h
      obtain ⟨name, -, h⟩ := bind_eq_ok.mp h
      obtain ⟨e, he, h⟩ := bind_eq_ok.mp h
      dsimp only at h
      split at h
      · cases h
        exact ⟨t, name, pluginId, e, rfl, prepared_of_ok he⟩
      · cases h

/-- The rows of the template after the call are those that were prepared. -/
theorem filter_replaced {α : Type} {owner : α → String} {old new : List α}
    (hnew : ∀ a ∈ new, owner a = id) :
    (old.filter (owner · ≠ id) ++ new).filter (owner · = id) = new := by
  have hold : (old.filter (owner · ≠ id)).filter (owner · = id) = [] := by
    refine List.filter_eq_nil_iff.mpr fun a ha => ?_
    have hne := of_decide_eq_true (List.mem_filter.mp ha).2
    simp [hne]
  rw [List.filter_append, hold, List.nil_append]
  exact List.filter_eq_self.mpr fun a ha => decide_eq_true (hnew a ha)

theorem storedStep_template {s : TemplateStep} (hs : s ∈ storedSteps db id) : s.templateId = id :=
  of_decide_eq_true (List.mem_filter.mp ((List.mem_insertionSort _).mp hs)).2

theorem storedSetting_template {r : TemplateSettingRow} (hr : r ∈ storedSettings db id) :
    r.templateId = id :=
  of_decide_eq_true (List.mem_filter.mp ((List.mem_insertionSort _).mp hr)).2

theorem storedConfig_template {c : TemplateConfig} (hc : c ∈ storedConfigs db id) :
    c.templateId = id :=
  of_decide_eq_true (List.mem_filter.mp ((List.mem_insertionSort _).mp hc)).2

/-! ### Steps -/

/-- The row that is made of a step at its place. -/
def remadeStep (id : String) (e : TemplateStep × Nat) : TemplateStep :=
  ⟨e.2, id, stripText e.1.title, subtitleOf (some (e.1.subtitle.getD ""))⟩

theorem prepared_steps (he : Prepared bytesHash id (storedInput db id t (rename pluginId name)) e) :
    e.steps = ((storedSteps db id).zipIdx 1).map (remadeStep id) := by
  rw [he.steps]
  show ((((storedSteps db id).map _).map currentStep).zipIdx 1).map _ = _
  rw [List.map_map, List.zipIdx_map, List.map_map]
  rfl

theorem remadeStep_eq_iff {s : TemplateStep} {place : Nat} (hs : s.templateId = id) :
    remadeStep id (s, place) = s ↔ PlainStep s place := by
  obtain ⟨sid, template, title, subtitle⟩ := s
  constructor
  · intro h
    injection h with h1 h2 h3 h4
    exact ⟨h1.symm, h3, h4⟩
  · rintro ⟨h1, h3, h4⟩
    show TemplateStep.mk _ _ _ _ = _
    simp only at h1 h3 h4 hs
    rw [h3, h4, h1, hs]

theorem steps_perm_iff
    (he : Prepared bytesHash id (storedInput db id t (rename pluginId name)) e) :
    e.steps.Perm (db.templateSteps.filter (·.templateId = id)) ↔
      ∀ x ∈ (storedSteps db id).zipIdx 1, PlainStep x.1 x.2 := by
  rw [prepared_steps he, Numbered.numbered_perm_iff TemplateStep.id fun _ => rfl]
  refine Numbered.map_zipIdx_eq_self_iff.trans (forall₂_congr fun x hx => ?_)
  exact remadeStep_eq_iff (storedStep_template (List.fst_mem_of_mem_zipIdx hx))

/-- Steps that are numbered. -/
theorem steps_ascending (h : ∀ x ∈ (storedSteps db id).zipIdx 1, PlainStep x.1 x.2) :
    ((storedSteps db id).map TemplateStep.id).Pairwise (· < ·) := by
  have hids : (storedSteps db id).map TemplateStep.id =
      ((storedSteps db id).zipIdx 1).map Prod.snd := by
    conv_lhs => rw [← List.zipIdx_map_fst 1 (storedSteps db id), List.map_map]
    exact List.map_congr_left fun x hx => (h x hx).id
  rw [hids]
  exact List.pairwise_map.mpr (Numbered.pairwise_lt_zipIdx _ _)

/-! ### Settings -/

/-- The settings of the template, step by step. -/
def settingsByStep (db : PluginDb) (id : String) : List TemplateSettingRow :=
  ((storedSteps db id).map TemplateStep.id).flatMap fun i =>
    (storedSettings db id).filter (·.stepId = i)

def settingKey (r : TemplateSettingRow) : String := stripText (suffixedKey r.settingId r.suffix)

theorem assignedSettings_stored (h : ∀ x ∈ (storedSteps db id).zipIdx 1, PlainStep x.1 x.2) :
    assignedSettings (storedInput db id t (rename pluginId name)) =
      (settingsByStep db id).map fun r => (settingKey r, r.stepId) := by
  unfold assignedSettings settingsByStep
  show ((((storedSteps db id).map _).map currentStep).zipIdx 1).flatMap _ = _
  rw [List.map_map, List.zipIdx_map, List.flatMap_map, List.map_flatMap, List.flatMap_map]
  conv_rhs => rw [← List.zipIdx_map_fst 1 (storedSteps db id), List.flatMap_map]
  refine List.flatMap_congr fun x hx => ?_
  show (((((storedSettings db id).map settingDetails).filter (·.stepId = x.1.id)).map
    SettingDetails.key).map fun r => (stripText r, x.2)) = _
  rw [List.filter_map, List.map_map, List.map_map]
  refine List.map_congr_left fun r hr => ?_
  have hstep : r.stepId = x.1.id := of_decide_eq_true (List.mem_filter.mp hr).2
  rw [hstep, (h x hx).id]
  rfl

/-- The row that is made of a setting at its place. -/
def remadeSetting (id : String) (default : String → String) (e : TemplateSettingRow × Nat) :
    TemplateSettingRow :=
  ⟨id, (splitSettingKey (settingKey e.1)).1, e.1.stepId, default (settingKey e.1),
    (splitSettingKey (settingKey e.1)).2.getD 0, e.2⟩

theorem prepared_settings
    (he : Prepared bytesHash id (storedInput db id t (rename pluginId name)) e)
    (h : ∀ x ∈ (storedSteps db id).zipIdx 1, PlainStep x.1 x.2) :
    e.settings = ((settingsByStep db id).zipIdx 1).map
      (remadeSetting id (payloadValue (storedInput db id t (rename pluginId name)))) := by
  rw [he.settings, assignedSettings_stored h, List.zipIdx_map, List.map_map]
  rfl

theorem settingsByStep_of_grouped (h : ∀ x ∈ (storedSteps db id).zipIdx 1, PlainStep x.1 x.2)
    (hgrouped : (storedSettings db id).Pairwise fun a b => a.stepId ≤ b.stepId)
    (hplaced : ∀ r ∈ storedSettings db id, r.stepId ∈ (storedSteps db id).map TemplateStep.id) :
    settingsByStep db id = storedSettings db id :=
  Numbered.flatMap_filter_eq_self (steps_ascending h) hgrouped hplaced

/-- The value that the payload has for the key of a setting, when no two settings have one key. -/
theorem payloadValue_stored
    (he : Prepared bytesHash id (storedInput db id t (rename pluginId name)) e)
    (h : ∀ x ∈ (storedSteps db id).zipIdx 1, PlainStep x.1 x.2)
    (hbyStep : settingsByStep db id = storedSettings db id) {r : TemplateSettingRow}
    (hr : r ∈ storedSettings db id) :
    payloadValue (storedInput db id t (rename pluginId name)) (settingKey r) = r.default := by
  have hpayload : payload (storedInput db id t (rename pluginId name)) =
      (storedSettings db id).map fun r => (settingKey r, r.default) := by
    show ((((storedSettings db id).map settingDetails).map _).map _) = _
    rw [List.map_map, List.map_map]
    rfl
  have hnodup : ((storedSettings db id).map settingKey).Nodup := by
    have hkeys := he.settings_nodup
    rw [assignedSettings_stored h, hbyStep, List.map_map] at hkeys
    exact hkeys
  have hlast : Dict.lastOf (settingKey r) ((storedSettings db id).map fun r =>
      (settingKey r, r.default)) = some r.default := by
    refine Dict.lastOf_eq_some (List.mem_map.mpr ⟨r, hr, rfl⟩) fun w hw => ?_
    obtain ⟨r', hr', heq⟩ := List.mem_map.mp hw
    injection heq with hkey hdefault
    rw [← hdefault, List.inj_on_of_nodup_map hnodup hr' hr hkey]
  rw [payloadValue, hpayload, hlast, Option.getD_some]

theorem remadeSetting_eq_iff {default : String → String} {r : TemplateSettingRow} {place : Nat}
    (hr : r.templateId = id) (hdefault : default (settingKey r) = r.default) :
    remadeSetting id default (r, place) = r ↔ PlainSetting r place := by
  obtain ⟨template, setting, step, value, suffix, order⟩ := r
  constructor
  · intro h
    injection h with h1 h2 h3 h4 h5 h6
    exact ⟨h6.symm, h2, h5⟩
  · rintro ⟨horder, hsetting, hsuffix⟩
    show TemplateSettingRow.mk _ _ _ _ _ _ = _
    rw [hdefault]
    simp only [settingKey] at horder hsetting hsuffix hr ⊢
    rw [hsetting, hsuffix, ← horder, hr]

theorem settings_perm_iff
    (he : Prepared bytesHash id (storedInput db id t (rename pluginId name)) e)
    (h : ∀ x ∈ (storedSteps db id).zipIdx 1, PlainStep x.1 x.2) :
    e.settings.Perm (db.templateSettings.filter (·.templateId = id)) ↔
      (∀ x ∈ (storedSettings db id).zipIdx 1, PlainSetting x.1 x.2) ∧
        ((storedSettings db id).Pairwise fun a b => a.stepId ≤ b.stepId) ∧
        ∀ r ∈ storedSettings db id, r.stepId ∈ (storedSteps db id).map TemplateStep.id := by
  have helem (hbyStep : settingsByStep db id = storedSettings db id) :
      ((settingsByStep db id).zipIdx 1).map
          (remadeSetting id (payloadValue (storedInput db id t (rename pluginId name)))) =
        storedSettings db id ↔
      ∀ x ∈ (storedSettings db id).zipIdx 1, PlainSetting x.1 x.2 := by
    rw [hbyStep]
    refine Numbered.map_zipIdx_eq_self_iff.trans (forall₂_congr fun x hx => ?_)
    have hmem := List.fst_mem_of_mem_zipIdx hx
    exact remadeSetting_eq_iff (storedSetting_template hmem) (payloadValue_stored he h hbyStep hmem)
  rw [prepared_settings he h, Numbered.numbered_perm_iff TemplateSettingRow.order fun _ => rfl]
  show _ = storedSettings db id ↔ _
  constructor
  · intro heq
    -- the steps of the rows that are made are those of the rows step by step
    have hsteps : (settingsByStep db id).map TemplateSettingRow.stepId =
        (storedSettings db id).map TemplateSettingRow.stepId := by
      rw [← heq, List.map_map]
      conv_lhs => rw [← List.zipIdx_map_fst 1 (settingsByStep db id), List.map_map]
      rfl
    have hgrouped : (storedSettings db id).Pairwise fun a b => a.stepId ≤ b.stepId := by
      have hle : ((storedSettings db id).map TemplateSettingRow.stepId).Pairwise (· ≤ ·) := by
        rw [← hsteps]
        exact List.pairwise_map.mpr (Numbered.pairwise_flatMap_filter _ (steps_ascending h))
      exact List.pairwise_map.mp hle
    have hplaced : ∀ r ∈ storedSettings db id,
        r.stepId ∈ (storedSteps db id).map TemplateStep.id := by
      intro r hr
      have hmem := List.mem_map_of_mem (f := TemplateSettingRow.stepId) hr
      rw [← hsteps] at hmem
      obtain ⟨r', hr', hstep⟩ := List.mem_map.mp hmem
      obtain ⟨i, hi, hr'⟩ := List.mem_flatMap.mp hr'
      rw [← hstep, of_decide_eq_true (List.mem_filter.mp hr').2]
      exact hi
    exact ⟨(helem (settingsByStep_of_grouped h hgrouped hplaced)).mp heq, hgrouped, hplaced⟩
  · rintro ⟨hplain, hgrouped, hplaced⟩
    exact (helem (settingsByStep_of_grouped h hgrouped hplaced)).mpr hplain

end

/-! ### Names of custom configs -/

theorem removeConf_length {l : List Char} (h : confSuffix <:+: l) :
    (removeConf l).length + 5 ≤ l.length := by
  have hle : ∀ l : List Char, (removeConf l).length ≤ l.length := by
    intro l
    fun_induction removeConf l with
    | case1 s ih =>
      simp only [List.length_cons]
      omega
    | case2 c s _ ih =>
      simp only [List.length_cons]
      omega
    | case3 => exact le_rfl
  fun_induction removeConf l with
  | case1 s ih =>
    have := hle s
    simp only [List.length_cons]
    omega
  | case2 c s hno ih =>
    rcases List.infix_cons_iff.mp h with hprefix | hinfix
    · obtain ⟨rest, hrest⟩ := hprefix
      injection hrest with hc hs
      exact absurd hs.symm (hno rest hc.symm)
    · have := ih hinfix
      simp only [List.length_cons]
      omega
  | case3 => exact absurd (List.eq_nil_of_infix_nil h) (by decide)

theorem stripChars_sublist (l : List Char) : (stripChars l).Sublist l :=
  (List.rdropWhile_prefix _ _).sublist.trans (List.dropWhile_sublist _)

theorem stripChars_stripChars (l : List Char) : stripChars (stripChars l) = stripChars l :=
  stripChars_eq_self head_stripChars getLast_stripChars

theorem removeSuffix_of_not {name : List Char} (h : ¬ confSuffix <:+ name) :
    removeSuffix name = name := if_neg h

theorem removeSuffix_length {name : List Char} (h : confSuffix <:+ name) :
    (removeSuffix name).length < name.length := by
  have hlen := h.length_le
  rw [removeSuffix, if_pos h, List.length_take]
  simp only [confSuffix, List.length_cons, List.length_nil] at hlen
  omega

/-- The types come out of the normalization as they are. -/
theorem normalizeType_plain {type : String} (h : type ∈ multisiteCustomConfigTypes) :
    normalizeType (stripChars type.toList) = type.toList ∧ '/' ∉ type.toList ∧
      stripChars type.toList = type.toList := by
  revert type
  decide

theorem head_type {type : String} (h : type ∈ multisiteCustomConfigTypes) (x : List Char) :
    ∀ c ∈ (type.toList ++ x).head?, isSpace c = false := by
  have hhead : ∀ type ∈ multisiteCustomConfigTypes, ∃ c s, type.toList = c :: s ∧
      isSpace c = false := by
    intro type h
    simp only [multisiteCustomConfigTypes, List.mem_cons, List.not_mem_nil, or_false] at h
    rcases h with rfl | rfl | rfl | rfl | rfl | rfl <;> exact ⟨_, _, rfl, by decide⟩
  obtain ⟨c, s, hs, hc⟩ := hhead type h
  rw [hs]
  rintro d hd
  cases hd
  exact hc

/-- A reference of one of the types, with a name without blanks around it. -/
theorem normalizeReference_plain {type : String} (h : type ∈ multisiteCustomConfigTypes)
    {x : List Char} (hx : stripChars x = x) :
    normalizeReference (type.toList ++ '/' :: x) =
      if removeSuffix x = [] then none else some (type, String.ofList (removeSuffix x)) := by
  obtain ⟨hnormal, hslash, hstrip⟩ := normalizeType_plain h
  have hself : stripChars (type.toList ++ '/' :: x) = type.toList ++ '/' :: x := by
    refine stripChars_eq_self (head_type h _) fun c hc => ?_
    rw [List.getLast?_append_of_ne_nil _ (List.cons_ne_nil _ _)] at hc
    cases x with
    | nil =>
      cases hc
      decide
    | cons d x =>
      rw [List.getLast?_cons_cons] at hc
      refine getLast_stripChars (l := d :: x) c ?_
      rwa [hx]
  unfold normalizeReference
  rw [hself, splitFirst_eq_some.mpr ⟨rfl, hslash⟩]
  dsimp only
  rw [hnormal, hx, String.ofList_toList]
  by_cases hnil : removeSuffix x = []
  · rw [if_pos (.inr hnil), if_pos hnil]
  · rw [if_neg (by simp [h, hnil]), if_neg hnil]

/-- The text of the reference of a custom config that is as it was. -/
theorem normalizeReference_text {type name : String} (h : type ∈ multisiteCustomConfigTypes)
    (hname : stripChars name.toList = name.toList) (hne : name.toList ≠ []) :
    normalizeReference (ConfigRef.text (type, name)).toList = some (type, name) := by
  have htext : (ConfigRef.text (type, name)).toList =
      type.toList ++ '/' :: (name.toList ++ confSuffix) := by
    simp [ConfigRef.text, confSuffix]
  have hstrip : stripChars (name.toList ++ confSuffix) = name.toList ++ confSuffix := by
    refine stripChars_eq_self (fun c hc => ?_) fun c hc => ?_
    · rw [List.head?_append_of_ne_nil _ hne, ← hname] at hc
      exact head_stripChars c hc
    · rw [List.getLast?_append_of_ne_nil _ (by decide)] at hc
      cases hc
      decide
  have hsuffix : removeSuffix (name.toList ++ confSuffix) = name.toList := by
    rw [removeSuffix, if_pos (List.suffix_append _ _), List.length_append]
    exact List.take_left
  rw [htext, normalizeReference_plain h hstrip, hsuffix, if_neg hne, String.ofList_toList]

theorem normalizeReference_type {reference : List Char} {ref : ConfigRef}
    (h : normalizeReference reference = some ref) : ref.1 ∈ multisiteCustomConfigTypes := by
  unfold normalizeReference at h
  split at h
  · cases h
  · dsimp only at h
    split at h
    · cases h
    · rename_i hnot
      cases h
      exact not_not.mp fun hno => hnot (.inl hno)

/-! ### Custom configs -/

/-- The reference that the preparation makes of a stored custom config. -/
def storedRef (c : TemplateConfig) : Option ConfigRef :=
  normalizeReference (normalizeType (stripChars c.type.toList) ++ '/' :: stripChars c.name.toList)

theorem storedRef_of_type {c : TemplateConfig} (h : c.type ∈ multisiteCustomConfigTypes) :
    storedRef c =
      if removeSuffix (stripChars c.name.toList) = [] then none
      else some (c.type, String.ofList (removeSuffix (stripChars c.name.toList))) := by
  unfold storedRef
  rw [(normalizeType_plain h).1, normalizeReference_plain h (stripChars_stripChars _)]

/-- The row that is made of a custom config at its place. -/
def remadeConfig (bytesHash : ByteArray → String) (id : String) (steps : List (ConfigRef × Nat))
    (e : TemplateConfig × Nat) : TemplateConfig :=
  let ref := (storedRef e.1).getD ("", "")
  ⟨id, stepOf steps ref, ref.1, configName ref, (decodeReplace e.1.data).toUTF8,
    bytesHash (decodeReplace e.1.data).toUTF8, e.2⟩

section

variable {bytesHash : ByteArray → String} {db db' : PluginDb} {id : String} {t : Template}
  {pluginId name : Option String} {e : Entities}

/-- A custom config of the payload that is read, with its place. -/
def readConfig (x : TemplateConfig × Nat) : ConfigInput × Nat :=
  (currentConfig (configDetails x.1), x.2)

theorem storedInput_configs :
    (storedInput db id t (rename pluginId name)).configs.zipIdx =
      (storedConfigs db id).zipIdx.map readConfig := by
  show (((storedConfigs db id).map configDetails).map currentConfig).zipIdx = _
  rw [List.map_map, List.zipIdx_map]
  rfl

theorem refConfig_readConfig (x : TemplateConfig × Nat) :
    refConfig (readConfig x) = (storedRef x.1).map (⟨·, (readConfig x).1, x.2⟩) := rfl

/-- The preparation has found a reference for each custom config. -/
theorem exists_storedRef
    (he : Prepared bytesHash id (storedInput db id t (rename pluginId name)) e) {c : TemplateConfig}
    (hc : c ∈ storedConfigs db id) : ∃ ref, storedRef c = some ref := by
  have hinputs := he.inputs
  rw [storedInput_configs] at hinputs
  rw [← List.zipIdx_map_fst 0 (storedConfigs db id)] at hc
  obtain ⟨x, hx, rfl⟩ := List.mem_map.mp hc
  have hmem := List.mem_map_of_mem (f := readConfig) hx
  rw [← hinputs] at hmem
  obtain ⟨r, hr, heq⟩ := List.mem_map.mp hmem
  obtain ⟨y, -, hy⟩ := List.mem_filterMap.mp hr
  obtain ⟨ref, href, rfl⟩ := Option.map_eq_some_iff.mp hy
  have hinput : y.1 = currentConfig (configDetails x.1) := congrArg Prod.fst heq
  rw [hinput] at href
  exact ⟨ref, href⟩

/-- A custom config of the payload that is read, under its reference. -/
def storedRefConfig (x : TemplateConfig × Nat) : RefConfig :=
  ⟨(storedRef x.1).getD ("", ""), (readConfig x).1, x.2⟩

/-- The custom configs come in the order of the table. -/
theorem orderedConfigs_stored
    (he : Prepared bytesHash id (storedInput db id t (rename pluginId name)) e) :
    orderedConfigs (storedInput db id t (rename pluginId name)) =
      (storedConfigs db id).zipIdx.map storedRefConfig := by
  have hmap : (storedInput db id t (rename pluginId name)).configs.zipIdx.filterMap refConfig =
      (storedConfigs db id).zipIdx.map storedRefConfig := by
    rw [storedInput_configs, List.filterMap_map, ← List.filterMap_eq_map]
    refine List.filterMap_congr fun x hx => ?_
    obtain ⟨ref, href⟩ := exists_storedRef he (List.fst_mem_of_mem_zipIdx hx)
    rw [Function.comp_apply, refConfig_readConfig, Function.comp_apply, storedRefConfig, href]
    rfl
  unfold orderedConfigs
  rw [hmap]
  refine List.Pairwise.insertionSort_eq (List.pairwise_map.mpr ?_)
  have hsorted : (storedConfigs db id).Pairwise fun a b => a.order ≤ b.order := by
    have htotal : Std.Total fun a b : TemplateConfig => a.order ≤ b.order :=
      ⟨fun a b => Nat.le_total a.order b.order⟩
    have htrans : IsTrans TemplateConfig fun a b => a.order ≤ b.order := ⟨fun _ _ _ => Nat.le_trans⟩
    exact List.pairwise_insertionSort (fun a b : TemplateConfig => a.order ≤ b.order) _
  have horders : (storedConfigs db id).zipIdx.Pairwise fun x y => x.1.order ≤ y.1.order := by
    rw [← List.zipIdx_map_fst 0 (storedConfigs db id), List.pairwise_map] at hsorted
    exact hsorted
  refine (horders.and (Numbered.pairwise_lt_zipIdx (storedConfigs db id) 0)).imp ?_
  rintro x y ⟨horder, hplace⟩
  rcases horder.lt_or_eq with hlt | heq
  · exact .inl (Int.ofNat_lt.mpr hlt)
  · exact .inr ⟨congrArg Int.ofNat heq, hplace.le⟩

theorem configEntity_mk {steps : List (ConfigRef × Nat)} {ref : ConfigRef} {input : ConfigInput}
    {index place : Nat} : configEntity bytesHash id steps (⟨ref, input, index⟩, place) =
      ⟨id, stepOf steps ref, ref.1, configName ref, input.data.toUTF8,
        bytesHash input.data.toUTF8, place⟩ := rfl

theorem configEntity_storedRefConfig {steps : List (ConfigRef × Nat)} (x : TemplateConfig × Nat)
    (place : Nat) : configEntity bytesHash id steps (storedRefConfig x, place) =
      remadeConfig bytesHash id steps (x.1, place) := by
  unfold storedRefConfig remadeConfig
  rw [configEntity_mk]
  dsimp only [readConfig, currentConfig, configDetails]

theorem prepared_configs
    (he : Prepared bytesHash id (storedInput db id t (rename pluginId name)) e) :
    e.configs = ((storedConfigs db id).zipIdx 1).map (remadeConfig bytesHash id
      (assignedConfigs (storedInput db id t (rename pluginId name)))) := by
  rw [he.configs, orderedConfigs_stored he, List.zipIdx_map, List.map_map]
  conv_rhs => rw [← List.zipIdx_map_fst 0 (storedConfigs db id), List.zipIdx_map, List.map_map]
  exact List.map_congr_left fun x _ => configEntity_storedRefConfig x.1 x.2

/-- The references that the steps of the template name. -/
theorem mem_assignedConfigs_stored (h : ∀ x ∈ (storedSteps db id).zipIdx 1, PlainStep x.1 x.2)
    {ref : ConfigRef} {i : Nat} :
    (ref, i) ∈ assignedConfigs (storedInput db id t (rename pluginId name)) ↔
      i ∈ (storedSteps db id).map TemplateStep.id ∧ ∃ c ∈ storedConfigs db id, c.stepId = i ∧
        normalizeReference (ConfigRef.text (c.type, c.name)).toList = some ref := by
  have hassigned : assignedConfigs (storedInput db id t (rename pluginId name)) =
      ((storedSteps db id).map TemplateStep.id).flatMap fun i =>
        (((storedConfigs db id).filter (·.stepId = i)).filterMap fun c =>
          normalizeReference (ConfigRef.text (c.type, c.name)).toList).map (·, i) := by
    unfold assignedConfigs
    show ((((storedSteps db id).map _).map currentStep).zipIdx 1).flatMap _ = _
    rw [List.map_map, List.zipIdx_map, List.flatMap_map, List.flatMap_map]
    conv_rhs => rw [← List.zipIdx_map_fst 1 (storedSteps db id), List.flatMap_map]
    refine List.flatMap_congr fun x hx => ?_
    show ((((((storedConfigs db id).map configDetails).filter (·.stepId = x.1.id)).map
      ConfigDetails.key).filterMap fun r => normalizeReference r.toList).map (·, x.2)) = _
    rw [List.filter_map, List.map_map, List.filterMap_map, (h x hx).id]
    rfl
  rw [hassigned, List.mem_flatMap]
  constructor
  · rintro ⟨j, hj, hmem⟩
    obtain ⟨ref', href', heq⟩ := List.mem_map.mp hmem
    obtain ⟨rfl, rfl⟩ := Prod.mk.inj heq
    obtain ⟨c, hc, hcref⟩ := List.mem_filterMap.mp href'
    obtain ⟨hstored, hstep⟩ := List.mem_filter.mp hc
    exact ⟨hj, c, hstored, of_decide_eq_true hstep, hcref⟩
  · rintro ⟨hi, c, hc, hstep, href⟩
    refine ⟨i, hi, List.mem_map_of_mem (List.mem_filterMap.mpr ⟨c, ?_, href⟩)⟩
    exact List.mem_filter.mpr ⟨hc, decide_eq_true hstep⟩

/-- Each custom config that is read is assigned to a step. -/
theorem storedRef_assigned
    (he : Prepared bytesHash id (storedInput db id t (rename pluginId name)) e) {c : TemplateConfig}
    (hc : c ∈ storedConfigs db id) {ref : ConfigRef} (href : storedRef c = some ref) :
    ref ∈ (assignedConfigs (storedInput db id t (rename pluginId name))).map Prod.fst := by
  rw [he.refs, orderedConfigs_stored he, List.map_map]
  rw [← List.zipIdx_map_fst 0 (storedConfigs db id)] at hc
  obtain ⟨x, hx, rfl⟩ := List.mem_map.mp hc
  refine List.mem_map.mpr ⟨x, hx, ?_⟩
  rw [Function.comp_apply, storedRefConfig, href]
  rfl

theorem PlainConfig.storedRef_eq {c : TemplateConfig} {place : Nat}
    (h : PlainConfig bytesHash c place) {ref : ConfigRef} (href : storedRef c = some ref) :
    ref = (c.type, c.name) ∧ c.name.toList ≠ [] := by
  rw [storedRef_of_type h.type, h.name, removeSuffix_of_not h.noSuffix,
    String.ofList_toList] at href
  split at href
  · cases href
  · rename_i hne
    cases href
    exact ⟨rfl, hne⟩

/-- A name that is kept has lost nothing on the way. -/
theorem plainName_of_kept {name : List Char}
    (h : removeConf (removeSuffix (stripChars name) ++ confSuffix) = name) :
    stripChars name = name ∧ ¬ confSuffix <:+ name := by
  have hconf := removeConf_length (List.suffix_append (removeSuffix (stripChars name))
    confSuffix).isInfix
  have hstrip := (stripChars_sublist name).length_le
  rw [h, List.length_append] at hconf
  simp only [confSuffix, List.length_cons, List.length_nil] at hconf
  by_cases hsuffix : confSuffix <:+ stripChars name
  · have hremove := removeSuffix_length hsuffix
    omega
  · rw [removeSuffix_of_not hsuffix] at hconf
    have hself : stripChars name = name := (stripChars_sublist name).eq_of_length (by omega)
    exact ⟨hself, hself ▸ hsuffix⟩

theorem plain_of_remadeConfig {steps : List (ConfigRef × Nat)} {c : TemplateConfig} {place : Nat}
    {ref : ConfigRef} (href : storedRef c = some ref)
    (h : remadeConfig bytesHash id steps (c, place) = c) :
    PlainConfig bytesHash c place ∧ stepOf steps ref = c.stepId := by
  obtain ⟨template, step, type, name, data, checksum, order⟩ := c
  unfold remadeConfig at h
  dsimp only at h
  rw [href] at h
  injection h with h1 hstep htype hname hdata hchecksum horder
  rw [Option.getD_some] at hstep htype hname
  have htypes : type ∈ multisiteCustomConfigTypes := htype ▸ normalizeReference_type href
  rw [storedRef_of_type htypes] at href
  split at href
  · cases href
  · cases href
    have hkept := congrArg String.toList hname
    rw [configName, String.toList_ofList, String.toList_ofList] at hkept
    obtain ⟨hstrip, hsuffix⟩ := plainName_of_kept hkept
    refine ⟨⟨horder.symm, htypes, hstrip, hsuffix, ?_, hdata, hdata ▸ hchecksum⟩, hstep⟩
    rwa [hstrip, removeSuffix_of_not hsuffix, String.ofList_toList] at hname

theorem remadeConfig_of_plain {steps : List (ConfigRef × Nat)} {c : TemplateConfig} {place : Nat}
    {ref : ConfigRef} (hid : c.templateId = id) (href : storedRef c = some ref)
    (h : PlainConfig bytesHash c place) (hstep : stepOf steps ref = c.stepId) :
    remadeConfig bytesHash id steps (c, place) = c := by
  obtain ⟨rfl, -⟩ := h.storedRef_eq href
  unfold remadeConfig
  dsimp only
  rw [href, Option.getD_some, hstep, h.reference, h.data, h.checksum, ← h.order, ← hid]

theorem configs_perm_iff
    (he : Prepared bytesHash id (storedInput db id t (rename pluginId name)) e)
    (h : ∀ x ∈ (storedSteps db id).zipIdx 1, PlainStep x.1 x.2) :
    e.configs.Perm (db.templateConfigs.filter (·.templateId = id)) ↔
      (∀ x ∈ (storedConfigs db id).zipIdx 1, PlainConfig bytesHash x.1 x.2) ∧
        ∀ c ∈ storedConfigs db id, c.stepId ∈ (storedSteps db id).map TemplateStep.id := by
  have hassigned {c : TemplateConfig} (hc : c ∈ storedConfigs db id) {ref : ConfigRef}
      (href : storedRef c = some ref) {i : Nat} :=
    stepOf_eq (i := i) he.configs_nodup (storedRef_assigned he hc href)
  rw [prepared_configs he, Numbered.numbered_perm_iff TemplateConfig.order fun _ => rfl]
  refine Numbered.map_zipIdx_eq_self_iff.trans ⟨fun heq => ⟨fun x hx => ?_, fun c hc => ?_⟩,
    fun ⟨hplain, hplaced⟩ x hx => ?_⟩
  · obtain ⟨ref, href⟩ := exists_storedRef he (List.fst_mem_of_mem_zipIdx hx)
    exact (plain_of_remadeConfig href (heq x hx)).1
  · obtain ⟨ref, href⟩ := exists_storedRef he hc
    have hmem : c ∈ ((storedConfigs db id).zipIdx 1).map Prod.fst := by rwa [List.zipIdx_map_fst]
    obtain ⟨x, hx, rfl⟩ := List.mem_map.mp hmem
    have hstep := (plain_of_remadeConfig href (heq x hx)).2
    exact ((mem_assignedConfigs_stored h).mp ((hassigned hc href).mp hstep)).1
  · have hc := List.fst_mem_of_mem_zipIdx hx
    obtain ⟨ref, href⟩ := exists_storedRef he hc
    have hx' := hplain x hx
    obtain ⟨rfl, hne⟩ := hx'.storedRef_eq href
    refine remadeConfig_of_plain (storedConfig_template hc) href hx' ((hassigned hc href).mpr ?_)
    refine (mem_assignedConfigs_stored h).mpr ⟨hplaced x.1 hc, x.1, hc, rfl, ?_⟩
    exact normalizeReference_text hx'.type hx'.name hne

/-! ## The result -/

/-- **Partial template update.** A call that passes a name, a plugin or both leaves the steps, the
settings and the custom configs as they were exactly when the template is read and written as it
is. -/
theorem update_keeps_parts_iff {readonly : Bool}
    (h : updateTemplate bytesHash readonly db id (rename pluginId name) = .ok db') :
    PartsUnchanged db id db' ↔ Canonical bytesHash db id := by
  obtain ⟨t, newName, newPlugin, e, rfl, he⟩ := updated_of_ok h
  have hsteps : ((withParts db id newName newPlugin e).templateSteps.filter (·.templateId = id)) =
      e.steps := filter_replaced fun s hs => by
    rw [he.steps] at hs
    obtain ⟨x, -, rfl⟩ := List.mem_map.mp hs
    rfl
  have hsettings : ((withParts db id newName newPlugin e).templateSettings.filter
      (·.templateId = id)) = e.settings :=
    filter_replaced fun s hs => by
      rw [he.settings] at hs
      obtain ⟨x, -, rfl⟩ := List.mem_map.mp hs
      rfl
  have hconfigs : ((withParts db id newName newPlugin e).templateConfigs.filter
      (·.templateId = id)) = e.configs :=
    filter_replaced fun c hc => by
      rw [he.configs] at hc
      obtain ⟨x, -, rfl⟩ := List.mem_map.mp hc
      rfl
  constructor
  · rintro ⟨h1, h2, h3⟩
    rw [hsteps] at h1
    rw [hsettings] at h2
    rw [hconfigs] at h3
    have hplain := (steps_perm_iff he).mp h1
    obtain ⟨hset, hgrouped, hplaced⟩ := (settings_perm_iff he hplain).mp h2
    obtain ⟨hcfg, hcfgPlaced⟩ := (configs_perm_iff he hplain).mp h3
    exact ⟨hplain, hset, hgrouped, hplaced, hcfg, hcfgPlaced⟩
  · intro hc
    refine ⟨?_, ?_, ?_⟩
    · rw [hsteps]
      exact (steps_perm_iff he).mpr hc.steps
    · rw [hsettings]
      exact (settings_perm_iff he hc.steps).mpr ⟨hc.settings, hc.grouped, hc.placed⟩
    · rw [hconfigs]
      exact (configs_perm_iff he hc.steps).mpr ⟨hc.configs, hc.configsPlaced⟩

end

/-- The template of the example with other contents of its custom config. -/
def shopWith (data : ByteArray) : PluginDb :=
  { shopCreated with templateConfigs := [⟨"shop", 2, "server_http", "shop", data, "", 1⟩] }

def shopRenamed (db : PluginDb) : PluginDb :=
  (updateTemplate (fun _ => "") false db "shop" (rename none (some "Store"))).toOption.getD db

theorem update_keeps_parts_shop :
    PartsUnchanged shopCreated "shop" (shopRenamed shopCreated) ∧
      Canonical (fun _ => "") shopCreated "shop" :=
  have hparts : PartsUnchanged shopCreated "shop" (shopRenamed shopCreated) :=
    ⟨by decide +kernel, by decide +kernel, by decide +kernel⟩
  have hok : updateTemplate (fun _ => "") false shopCreated "shop" (rename none (some "Store")) =
    .ok (shopRenamed shopCreated) := eq_ok_of_isOk (by decide +kernel) _
  ⟨hparts, (update_keeps_parts_iff hok).mp hparts⟩

/-- A byte that is not UTF-8 is written as the three bytes of U+FFFD. -/
theorem renaming_changes_bytes :
    updateTemplate (fun _ => "") false (shopWith ⟨#[0xFF]⟩) "shop" (rename none (some "Store")) =
        .ok (shopRenamed (shopWith ⟨#[0xFF]⟩)) ∧
      ¬ PartsUnchanged (shopWith ⟨#[0xFF]⟩) "shop" (shopRenamed (shopWith ⟨#[0xFF]⟩)) := by
  refine ⟨eq_ok_of_isOk (by decide +kernel) _, fun h => ?_⟩
  exact absurd h.configs (by decide +kernel)

end BunkerWeb.Db
