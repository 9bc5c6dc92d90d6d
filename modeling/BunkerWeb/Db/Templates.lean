import BunkerWeb.Db.Reading

/-!
# What `get_config` finds at a key: the templates

`globalValue` and `serviceValue` say what a key of a setting stands for: its row, or what the
template in effect sets, or what is inherited. `getConfig_global` and `getConfig_service` say that
`get_config` finds just that.
-/

namespace BunkerWeb.Db

open Lib

/-- The row of a template for a setting. -/
def templateRow (db : Database) (template id : String) (n : Nat) : Option TemplateSetting :=
  Dict.lastOf (id, n) ((db.templateSettings.filter (·.templateId = template)).map fun t =>
    ((t.settingId, t.suffix), t))

/-- What a template sets. -/
def templateValue (db : Database) (template id : String) (n : Nat) : Option String :=
  if template = "" then none else (templateRow db template id n).map TemplateSetting.default

/-- The global template. -/
def templateUsed (db : Database) : String :=
  ((db.globalValues.lookup ("USE_TEMPLATE", 0)).map Cell.value).getD ""

/-- The template of a service. -/
def serviceTemplateUsed (db : Database) (service : String) : String :=
  ((db.servicesSettings.lookup (service, "USE_TEMPLATE", 0)).map Cell.value).getD (templateUsed db)

/-- What a global key stands for. -/
def globalValue (db : Database) (s : Setting) (n : Nat) : Option String :=
  ((db.globalValues.lookup (s.id, n)).map Cell.value).or
    ((templateValue db (templateUsed db) s.id n).or (if n = 0 then some s.default else none))

/-- What a key of a service stands for. -/
def serviceValue (db : Database) (service : String) (s : Setting) (n : Nat) : Option String :=
  ((db.servicesSettings.lookup (service, s.id, n)).map Cell.value).or
    ((templateValue db (serviceTemplateUsed db service) s.id n).or (baseValue db s n))

/-- The value that a row of a service brings. -/
def rowText (service : String) (s : Setting) (c : Cell) : String :=
  if s.id = "SERVER_NAME" then serverNameValue service c.value else c.value

/-- What a key of a service stands for, of any setting: only those that services have for themselves
are inherited. -/
def keyValue (db : Database) (service : String) (s : Setting) (n : Nat) : Option String :=
  ((db.servicesSettings.lookup (service, s.id, n)).map (rowText service s)).or
    ((templateValue db (serviceTemplateUsed db service) s.id n).or
      (if s.context = .multisite then baseValue db s n else none))

theorem keyValue_eq_serviceValue {db : Database} {service : String} {s : Setting} {n : Nat}
    (hctx : s.context = .multisite) (hid : s.id ≠ "SERVER_NAME") :
    keyValue db service s n = serviceValue db service s n := by
  have htext : rowText service s = Cell.value := funext fun c => if_neg hid
  rw [keyValue, serviceValue, htext, if_pos hctx]

/-- What should be found is found; a numbered key that stands for nothing is not there, or has the
default with which its group is filled. -/
def Found (default : String) (expected found : Option String) : Prop :=
  match expected with
  | some v => found = some v
  | none => found = none ∨ found = some default

section

variable {db : Database} {s : Setting} {n : Nat} {service : String} {config : Dict String Entry}

/-! ## The templates -/

/-- The configuration with the global template over it. -/
def withGlobalTemplate (db : Database) (config : Dict String Entry) : Dict String Entry :=
  if templateUsed db = "" then config
  else config.setAllUnless (fun e => e.method.isSome)
    ((templateRows db withDrafts.wants (templateUsed db)).map fun t =>
      (suffixedKey t.settingId t.suffix, templateEntry true t))

/-- The configuration with the templates of the services over it. -/
def withServiceTemplates (db : Database) (config : Dict String Entry) : Dict String Entry :=
  config.setAllUnless (fun e => e.method.isSome && !e.isGlobal)
    ((serviceTemplates config (templateUsed db)
      (words (valueOf config "SERVER_NAME" ""))).flatMap fun u =>
        (templateRows db withDrafts.wants u.2).map fun t =>
          (joinKey u.1 (suffixedKey t.settingId t.suffix), templateEntry false t))

theorem templateRows_withDrafts (template : String) :
    templateRows db withDrafts.wants template =
      db.templateSettings.filter (·.templateId = template) := by
  simp [templateRows]

theorem mem_templateSettings {template : String} {t : TemplateSetting}
    (ht : t ∈ templateRows db withDrafts.wants template) : t ∈ db.templateSettings := by
  rw [templateRows_withDrafts] at ht
  exact (List.mem_filter.mp ht).1

/-- What the settings of a template bring for a key, under a name that is put in front. -/
theorem lastOf_templateRows (h : Readable db) (hs : s ∈ db.settings.all) (n : Nat)
    (template : String) (name : String → String)
    (hname : ∀ {s' n'}, s' ∈ db.settings.all → name (suffixedKey s'.id n') =
      name (suffixedKey s.id n) → suffixedKey s'.id n' = suffixedKey s.id n) (isGlobal : Bool) :
    Dict.lastOf (name (suffixedKey s.id n)) ((templateRows db withDrafts.wants template).map fun t =>
      (name (suffixedKey t.settingId t.suffix), templateEntry isGlobal t)) =
      (templateRow db template s.id n).map (templateEntry isGlobal) := by
  have hmap := Dict.lastOf_map (k := (s.id, n)) (f := fun k => name (suffixedKey k.1 k.2))
    (l := (db.templateSettings.filter (·.templateId = template)).map fun t =>
      ((t.settingId, t.suffix), t)) (templateEntry isGlobal) ?_
  · rw [List.map_map] at hmap
    rw [templateRows_withDrafts]
    exact hmap
  · intro e he hkey
    obtain ⟨t, ht, rfl⟩ := List.mem_map.mp he
    obtain ⟨-, s', hs', hid⟩ := h.installed.templates t (List.mem_filter.mp ht).1
    simp only [← hid] at hkey ⊢
    obtain ⟨rfl, rfl⟩ := h.installed.suffixedKey_inj hs' hs (hname hs' hkey)
    rfl

theorem lookup_withGlobalTemplate (h : Readable db) (hs : s ∈ db.settings.all) (n : Nat)
    (config : Dict String Entry) :
    (withGlobalTemplate db config).lookup (suffixedKey s.id n) =
      if (config.lookup (suffixedKey s.id n)).any (fun e => e.method.isSome) then
        config.lookup (suffixedKey s.id n)
      else (if templateUsed db = "" then none
        else (templateRow db (templateUsed db) s.id n).map (templateEntry true)).or
          (config.lookup (suffixedKey s.id n)) := by
  unfold withGlobalTemplate
  split
  · simp
  · rw [Dict.lookup_setAllUnless]
    · have hrows := lastOf_templateRows h hs n (templateUsed db) id (fun _ he => he) true
      simp only [id] at hrows
      rw [hrows]
    · intro e he
      obtain ⟨t, -, rfl⟩ := List.mem_map.mp he
      rfl

/-- The global template sets no key but those of settings. -/
theorem lookup_withGlobalTemplate_of_ne (h : Readable db) {key : String}
    (hkey : ∀ s ∈ db.settings.all, ∀ n, suffixedKey s.id n ≠ key) :
    (withGlobalTemplate db config).lookup key = config.lookup key := by
  unfold withGlobalTemplate
  split
  · rfl
  · rw [Dict.lookup_setAllUnless, Dict.lastOf_eq_none.mpr]
    · simp
    · intro e he
      obtain ⟨t, ht, rfl⟩ := List.mem_map.mp he
      obtain ⟨-, s', hs', hid⟩ := h.installed.templates t (mem_templateSettings ht)
      exact hid ▸ hkey s' hs' t.suffix
    · intro e he
      obtain ⟨t, -, rfl⟩ := List.mem_map.mp he
      rfl

theorem mem_serviceTemplates {templateUsed template : String} {services : List String} :
    (service, template) ∈ serviceTemplates config templateUsed services ↔
      service ∈ services ∧ template ≠ "" ∧
        template = valueOf config (joinKey service "USE_TEMPLATE") templateUsed := by
  have hused : ∀ {service template : String}, (service, template) ∈ (services.filterMap fun s =>
      if valueOf config (joinKey s "USE_TEMPLATE") templateUsed = "" then none
      else some (s, valueOf config (joinKey s "USE_TEMPLATE") templateUsed)) ↔
      service ∈ services ∧ template ≠ "" ∧
        template = valueOf config (joinKey service "USE_TEMPLATE") templateUsed := by
    intro service template
    rw [List.mem_filterMap]
    constructor
    · rintro ⟨s, hs, hif⟩
      split at hif
      · cases hif
      · rename_i hne
        cases hif
        exact ⟨hs, hne, rfl⟩
    · rintro ⟨hs, hne, rfl⟩
      exact ⟨service, hs, if_neg hne⟩
  unfold serviceTemplates
  simp only [List.mem_flatMap, List.mem_dedup, List.mem_filter]
  constructor
  · rintro ⟨t, -, hmem, -⟩
    exact hused.mp hmem
  · intro hmem
    have hmem := hused.mpr hmem
    exact ⟨template, List.mem_map.mpr ⟨_, hmem, rfl⟩, hmem, by simp⟩

/-- The key of a service after the templates, if `template` is the one it uses. -/
theorem lookup_withServiceTemplates (h : Readable db) (hs : s ∈ db.settings.all)
    (hservice : (db.services.lookup service).isSome) (n : Nat) {template : String}
    (hservices : ∀ sv, sv ∈ words (valueOf config "SERVER_NAME" "") ↔
      (db.services.lookup sv).isSome)
    (htemplate : valueOf config (joinKey service "USE_TEMPLATE") (templateUsed db) = template) :
    (withServiceTemplates db config).lookup (joinKey service (suffixedKey s.id n)) =
      if (config.lookup (joinKey service (suffixedKey s.id n))).any
          (fun e => e.method.isSome && !e.isGlobal) then
        config.lookup (joinKey service (suffixedKey s.id n))
      else (if template = "" then none
        else (templateRow db template s.id n).map (templateEntry false)).or
          (config.lookup (joinKey service (suffixedKey s.id n))) := by
  have hsep := h.services service hservice
  -- What the templates of another service bring is for other keys.
  have hother : ∀ u ∈ serviceTemplates config (templateUsed db)
      (words (valueOf config "SERVER_NAME" "")), u ≠ (service, template) →
      Dict.lastOf (joinKey service (suffixedKey s.id n))
        ((templateRows db withDrafts.wants u.2).map fun t =>
          (joinKey u.1 (suffixedKey t.settingId t.suffix), templateEntry false t)) = none := by
    rintro ⟨sv, template'⟩ hu hne
    obtain ⟨hsv, -, rfl⟩ := mem_serviceTemplates.mp hu
    refine Dict.lastOf_eq_none.mpr fun e he hkey => hne ?_
    obtain ⟨t, -, rfl⟩ := List.mem_map.mp he
    obtain ⟨rfl, -⟩ := (h.services sv ((hservices sv).mp hsv)).joinKey_inj hsep hkey
    rw [htemplate]
  have hlast : Dict.lastOf (joinKey service (suffixedKey s.id n))
      ((serviceTemplates config (templateUsed db) (words (valueOf config "SERVER_NAME" ""))).flatMap
        fun u => (templateRows db withDrafts.wants u.2).map fun t =>
          (joinKey u.1 (suffixedKey t.settingId t.suffix), templateEntry false t)) =
      if template = "" then none else (templateRow db template s.id n).map (templateEntry false) := by
    split
    · rename_i hempty
      refine Dict.lastOf_eq_none.mpr fun e he => ?_
      obtain ⟨u, hu, he⟩ := List.mem_flatMap.mp he
      refine Dict.lastOf_eq_none.mp (hother u hu fun heq => ?_) e he
      rw [heq] at hu
      exact (mem_serviceTemplates.mp hu).2.1 hempty
    · rename_i hne
      rw [Dict.lastOf_flatMap (mem_serviceTemplates.mpr
        ⟨(hservices service).mpr hservice, hne, htemplate.symm⟩) hother]
      exact lastOf_templateRows h hs n template (joinKey service)
        (fun _ he => joinKey_right_inj.mp he) false
  unfold withServiceTemplates
  rw [Dict.lookup_setAllUnless, hlast]
  intro e he
  obtain ⟨u, -, he⟩ := List.mem_flatMap.mp he
  obtain ⟨t, -, rfl⟩ := List.mem_map.mp he
  rfl

theorem lookup_withServiceTemplates_global {key : String}
    (hservices : ∀ sv, sv ∈ words (valueOf config "SERVER_NAME" "") ↔
      (db.services.lookup sv).isSome)
    (hkey : ∀ service, (db.services.lookup service).isSome → ∀ r, key ≠ joinKey service r) :
    (withServiceTemplates db config).lookup key = config.lookup key := by
  unfold withServiceTemplates
  rw [Dict.lookup_setAllUnless, Dict.lastOf_eq_none.mpr]
  · simp
  · intro e he
    obtain ⟨⟨sv, template⟩, hu, he⟩ := List.mem_flatMap.mp he
    obtain ⟨t, -, rfl⟩ := List.mem_map.mp he
    exact (hkey sv ((hservices sv).mp (mem_serviceTemplates.mp hu).1) _).symm
  · intro e he
    obtain ⟨u, -, he⟩ := List.mem_flatMap.mp he
    obtain ⟨t, -, rfl⟩ := List.mem_map.mp he
    rfl

/-! ## The configuration -/

/-- The configuration before the groups are filled. -/
def templatedConfig (db : Database) : Dict String Entry :=
  withServiceTemplates db (withGlobalTemplate db (baseConfig db withDrafts))

/-- The templates that the groups are filled with. -/
def windowTemplates (db : Database) : Dict String String :=
  let config := withGlobalTemplate db (baseConfig db withDrafts)
  Dict.setAll ∅ ((if templateUsed db = "" then [] else [("global", templateUsed db)]) ++
    serviceTemplates config (templateUsed db) (words (valueOf config "SERVER_NAME" "")))

theorem lookup_serverName (h : Readable db) (hm : StoredMultisite db) :
    (withGlobalTemplate db (baseConfig db withDrafts)).lookup "SERVER_NAME" =
      some (serversEntry ((serviceList db withDrafts).map Prod.fst)) := by
  obtain ⟨s, hs, hid⟩ := h.installed.serverName
  have hl := lookup_withGlobalTemplate h hs 0 (baseConfig db withDrafts)
  rw [suffixedKey_zero, hid, baseConfig_stages h hm, AList.lookup_insert] at hl
  rw [baseConfig_stages h hm, hl]
  rfl

theorem mem_serverName (h : Readable db) (hm : StoredMultisite db) (service : String) :
    service ∈ words (valueOf (withGlobalTemplate db (baseConfig db withDrafts)) "SERVER_NAME" "") ↔
      (db.services.lookup service).isSome := by
  rw [valueOf, lookup_serverName h hm, Option.map_some, Option.getD_some, serversEntry,
    words_joinWords, mem_serviceList]
  exact fun name hname => (h.services name (mem_serviceList.mp hname)).word

theorem valueOf_useTemplate (h : Readable db) (hm : StoredMultisite db) :
    valueOf (baseConfig db withDrafts) "USE_TEMPLATE" "" = templateUsed db := by
  obtain ⟨s, hs, hid, -, hdefault, -⟩ := h.installed.useTemplate
  have hl := lookup_baseConfig_global (n := 0) h hm hs (by rw [suffixedKey_zero, hid]; decide)
  rw [suffixedKey_zero, hid] at hl
  rw [valueOf, hl, baseEntry_value, baseValue, templateUsed, hid]
  cases db.globalValues.lookup ("USE_TEMPLATE", 0) with
  | some c => rfl
  | none => rw [if_pos rfl, hdefault]; rfl

theorem Readable.joinKey_ne (h : Readable db) (hservice : (db.services.lookup service).isSome)
    (r : String) : ∀ s ∈ db.settings.all, ∀ n, suffixedKey s.id n ≠ joinKey service r :=
  fun _ hs n => (h.services service hservice).ne_joinKey hs n r

/-- The template that the code finds for a service. -/
theorem valueOf_serviceTemplate (h : Readable db) (hm : StoredMultisite db)
    (hservice : (db.services.lookup service).isSome) :
    valueOf (withGlobalTemplate db (baseConfig db withDrafts)) (joinKey service "USE_TEMPLATE")
      (templateUsed db) = serviceTemplateUsed db service := by
  obtain ⟨s, hs, hid, hctx, hdefault, -⟩ := h.installed.useTemplate
  obtain ⟨d, hl⟩ := lookup_baseConfig_service h hm hs hservice hctx (by rw [hid]; decide) 0
  rw [suffixedKey_zero, hid] at hl
  rw [valueOf, lookup_withGlobalTemplate_of_ne h (h.joinKey_ne hservice _), hl,
    serviceTemplateUsed]
  cases db.servicesSettings.lookup (service, "USE_TEMPLATE", 0) with
  | some c =>
    simp only [Option.map_some, Option.some_or, Option.getD_some, serviceEntry]
    rw [if_neg (by rw [hid]; decide)]
  | none =>
    rw [Option.map_none, Option.none_or, baseEntry_value, baseValue, templateUsed, hid]
    cases db.globalValues.lookup ("USE_TEMPLATE", 0) with
    | some c => rfl
    | none => rw [if_pos rfl, hdefault]; rfl

theorem getConfigEntries_eq (h : Readable db) (hm : StoredMultisite db) :
    getConfigEntries db withDrafts = (templatedConfig db).setDefaults
      (groupDefaults db withDrafts.wants (windowTemplates db) (templatedConfig db)) := by
  have hmultisite : valueOf (withGlobalTemplate db (baseConfig db withDrafts)) "MULTISITE" "no" =
      "yes" := by
    obtain ⟨s, hs, hid, -⟩ := h.installed.multisite
    obtain ⟨c, hc, hyes⟩ := Option.map_eq_some_iff.mp hm
    have hbase := lookup_baseConfig_global (n := 0) h hm hs (by rw [suffixedKey_zero, hid]; decide)
    have hl := lookup_withGlobalTemplate h hs 0 (baseConfig db withDrafts)
    rw [hbase, baseEntry, hid, hc, suffixedKey_zero] at hl
    rw [valueOf, hl]
    exact hyes
  have hstages : getConfigEntries db withDrafts =
      let config := withGlobalTemplate db (baseConfig db withDrafts)
      let used :=
        if !withDrafts.globalOnly && valueOf config "MULTISITE" "no" = "yes" then
          serviceTemplates config (templateUsed db) (words (valueOf config "SERVER_NAME" ""))
        else []
      let config' := config.setAllUnless (fun e => e.method.isSome && !e.isGlobal)
        (used.flatMap fun u => (templateRows db withDrafts.wants u.2).map fun t =>
          (joinKey u.1 (suffixedKey t.settingId t.suffix), templateEntry false t))
      config'.setDefaults (groupDefaults db withDrafts.wants (Dict.setAll ∅
        ((if templateUsed db = "" then [] else [("global", templateUsed db)]) ++ used))
        config') := by
    unfold getConfigEntries
    rw [show withDrafts.update ["SERVER_NAME", "MULTISITE", "USE_TEMPLATE"] = withDrafts from rfl]
    simp only [valueOf_useTemplate h hm]
    rfl
  rw [hstages]
  simp only
  rw [if_pos (by rw [hmultisite]; rfl)]
  rfl

/-- The windows of the groups are the global one and the services. -/
theorem groupOf_window {groups : String → Option String} {services : List String} {key : String}
    {f : String × String × Nat} (hf : groupOf groups services key = some f) :
    f.2.1 = "global" ∨ f.2.1 ∈ services := by
  unfold groupOf at hf
  split at hf
  · cases hf
  · split at hf
    · cases hf
      exact .inl rfl
    · split at hf
      · cases hf
      · rename_i hfirst
        obtain ⟨group, -, rfl⟩ := Option.map_eq_some_iff.mp hf
        exact .inr (firstService_eq_some.mp hfirst).1

/-- The template that a window of the groups is filled with. -/
def fillTemplate (templates : Dict String String) (window : String) : String :=
  match templates.lookup window with
  | some t => if t = "" then (templates.lookup "global").getD "" else t
  | none => (templates.lookup "global").getD ""

/-- The group of a setting that may be numbered. -/
def groupsOf (db : Database) (id : String) : Option String :=
  (db.settings.find id).bind Setting.multiple

/-- What fills a group: a numbered key of the configuration has asked for it, in its window, and its
value is the default of a setting or what the template of the window sets. -/
theorem mem_groupDefaults_window {templates : Dict String String} {key : String} {e : Entry}
    (he : (key, e) ∈ groupDefaults db withDrafts.wants templates config) :
    ∃ s ∈ db.settings.all, ∃ n window,
      (∃ item ∈ config.items, ∃ group, s.multiple = some group ∧ groupOf (groupsOf db)
        (words (valueOf config "SERVER_NAME" "")) item.1 = some (group, window, n)) ∧
      (key = if window = "global" then joinKey s.id (toString n)
        else joinKey window (joinKey s.id (toString n))) ∧
      (templateValue db (fillTemplate templates window) s.id n = none → e.value = s.default) := by
  unfold groupDefaults at he
  simp only at he
  obtain ⟨s, hs, he⟩ := List.mem_flatMap.mp he
  split at he
  · cases he
  · rename_i group hmultiple
    obtain ⟨f, hf, heq⟩ := List.mem_map.mp he
    obtain ⟨hkey, rfl⟩ := Prod.mk.inj heq
    obtain ⟨hfound, hof⟩ := List.mem_filter.mp hf
    obtain ⟨item, hitem, hgroup⟩ := List.mem_filterMap.mp hfound
    obtain rfl : f.1 = group := of_decide_eq_true hof
    rw [Catalog.find_eq_some.mpr ⟨hs, rfl⟩] at hmultiple
    refine ⟨s, hs, f.2.2, f.2.1, ⟨item, hitem, f.1, hmultiple, hgroup⟩, hkey.symm,
      fun hnone => ?_⟩
    show (if fillTemplate templates f.2.1 = "" then s.default else _) = s.default
    split
    · rfl
    · rename_i hne
      rw [templateValue, if_neg hne, Option.map_eq_none_iff, templateRow,
        Dict.lastOf_eq_none] at hnone
      have hfind : (db.templateSettings.find? fun t =>
          t.templateId = fillTemplate templates f.2.1 && t.settingId = s.id &&
            t.suffix = f.2.2) = none := by
        refine List.find?_eq_none.mpr fun t ht hcond => ?_
        simp only [Bool.and_eq_true, decide_eq_true_eq] at hcond
        obtain ⟨⟨htemplate, hid⟩, hsuffix⟩ := hcond
        exact hnone _ (List.mem_map.mpr ⟨t, List.mem_filter.mpr ⟨ht, by simp [htemplate]⟩, rfl⟩)
          (by rw [hid, hsuffix])
      show ((db.templateSettings.find? fun t =>
          t.templateId = fillTemplate templates f.2.1 && t.settingId = s.id &&
            t.suffix = f.2.2).map (·.default)).getD s.default = s.default
      rw [hfind]
      rfl

/-- What fills a group of the global settings or of a service of the database. -/
theorem mem_groupDefaults {templates : Dict String String} {key : String} {e : Entry}
    (hservices : ∀ sv, sv ∈ words (valueOf config "SERVER_NAME" "") →
      (db.services.lookup sv).isSome)
    (he : (key, e) ∈ groupDefaults db withDrafts.wants templates config) :
    ∃ s ∈ db.settings.all, ∃ n window,
      (window = "global" ∧ key = joinKey s.id (toString n) ∨
        (db.services.lookup window).isSome ∧ window ≠ "global" ∧
          key = joinKey window (joinKey s.id (toString n))) ∧
      (templateValue db (fillTemplate templates window) s.id n = none → e.value = s.default) := by
  obtain ⟨s, hs, n, window, ⟨item, -, group, -, hgroup⟩, hkey, hvalue⟩ :=
    mem_groupDefaults_window he
  refine ⟨s, hs, n, window, ?_, hvalue⟩
  by_cases hglobal : window = "global"
  · exact .inl ⟨hglobal, hkey.trans (if_pos hglobal)⟩
  · exact .inr ⟨hservices _ ((groupOf_window hgroup).resolve_left hglobal), hglobal,
      hkey.trans (if_neg hglobal)⟩

/-- The services that use a template, with it. -/
theorem mem_usedTemplates (h : Readable db) (hm : StoredMultisite db) {sv t : String} :
    (sv, t) ∈ serviceTemplates (withGlobalTemplate db (baseConfig db withDrafts)) (templateUsed db)
      (words (valueOf (withGlobalTemplate db (baseConfig db withDrafts)) "SERVER_NAME" "")) ↔
    (db.services.lookup sv).isSome ∧ t ≠ "" ∧ t = serviceTemplateUsed db sv := by
  rw [mem_serviceTemplates, mem_serverName h hm]
  refine and_congr_right fun hsv => ?_
  rw [valueOf_serviceTemplate h hm hsv]

theorem lookup_windowTemplates (window : String) :
    (windowTemplates db).lookup window = (Dict.lastOf window
      (serviceTemplates (withGlobalTemplate db (baseConfig db withDrafts)) (templateUsed db)
        (words (valueOf (withGlobalTemplate db (baseConfig db withDrafts)) "SERVER_NAME" "")))).or
      (Dict.lastOf window
        (if templateUsed db = "" then [] else [("global", templateUsed db)])) := by
  rw [windowTemplates, Dict.lookup_setAll, AList.lookup_empty, Option.or_none, Dict.lastOf_append]

/-- The template of the window of the global settings. -/
theorem windowTemplates_global (h : Readable db) (hm : StoredMultisite db) :
    ((windowTemplates db).lookup "global").getD "" = templateUsed db := by
  have hnone : Dict.lastOf "global" (serviceTemplates
      (withGlobalTemplate db (baseConfig db withDrafts)) (templateUsed db)
      (words (valueOf (withGlobalTemplate db (baseConfig db withDrafts)) "SERVER_NAME" ""))) =
      none :=
    Dict.lastOf_eq_none.mpr fun e he =>
      (h.services _ ((mem_usedTemplates h hm).mp he).1).notGlobal
  rw [lookup_windowTemplates, hnone, Option.none_or]
  split
  · rename_i hempty
    rw [hempty]
    rfl
  · simp [Dict.lastOf]

/-- The template of the window of a service, if it has one of its own. -/
theorem windowTemplates_service (h : Readable db) (hm : StoredMultisite db)
    (hservice : (db.services.lookup service).isSome) :
    (windowTemplates db).lookup service = if serviceTemplateUsed db service = "" then none
      else some (serviceTemplateUsed db service) := by
  have hglobal : Dict.lastOf service
      (if templateUsed db = "" then [] else [("global", templateUsed db)]) = none := by
    split
    · rfl
    · simp [Dict.lastOf, (h.services _ hservice).notGlobal.symm]
  rw [lookup_windowTemplates, hglobal, Option.or_none]
  refine Dict.lastOf_eq_of_iff fun t => ?_
  rw [mem_usedTemplates h hm, and_iff_right hservice]
  by_cases hempty : serviceTemplateUsed db service = ""
  · rw [if_pos hempty, hempty]
    exact iff_of_false (fun h => h.1 h.2) (by simp)
  · rw [if_neg hempty, Option.some.injEq]
    exact ⟨fun h => h.2.symm, fun ht => ⟨ht ▸ hempty, ht.symm⟩⟩

/-- The templates of the windows are those of the services and the global one. -/
theorem fillTemplate_windowTemplates (h : Readable db) (hm : StoredMultisite db)
    (hservice : (db.services.lookup service).isSome ∨ service = "global") :
    fillTemplate (windowTemplates db) service =
      if service = "global" ∨ serviceTemplateUsed db service = "" then templateUsed db
      else serviceTemplateUsed db service := by
  have hglobal := windowTemplates_global h hm
  by_cases hisGlobal : service = "global"
  · rw [if_pos (.inl hisGlobal), hisGlobal, fillTemplate]
    split
    · rename_i t ht
      rw [ht, Option.getD_some] at hglobal
      split
      · rw [ht, Option.getD_some, hglobal]
      · exact hglobal
    · exact hglobal
  · rw [fillTemplate, windowTemplates_service h hm (hservice.resolve_right hisGlobal)]
    by_cases hempty : serviceTemplateUsed db service = ""
    · rw [if_pos hempty, if_pos (.inr hempty)]
      exact hglobal
    · rw [if_neg hempty, if_neg (by simp [hisGlobal, hempty])]
      simp only [if_neg hempty]

theorem Found.of_lookup {default : String} {d : Dict String Entry} {l : List (String × Entry)}
    {key : String} {expected : Option String}
    (hd : (d.lookup key).map Entry.value = expected)
    (hl : expected = none → ∀ e, (key, e) ∈ l → e.value = default) :
    Found default expected (((d.setDefaults l).lookup key).map Entry.value) := by
  rw [Dict.lookup_setDefaults]
  cases hk : d.lookup key with
  | some e =>
    rw [hk] at hd
    rw [← hd]
    rfl
  | none =>
    rw [hk] at hd
    have hnone : expected = none := hd.symm
    rw [hnone, Option.none_or]
    cases hf : Dict.firstOf key l with
    | none => exact .inl rfl
    | some e => exact .inr (by rw [Option.map_some, hl hnone e (Dict.mem_of_firstOf hf)])

theorem Readable.numbered_inj (h : Readable db) {s' : Setting} {n' : Nat}
    (hs : s ∈ db.settings.all) (hs' : s' ∈ db.settings.all)
    (he : suffixedKey s.id n = joinKey s'.id (toString n')) : s' = s ∧ n' = n := by
  have hsplit := congrArg splitKey he
  rw [splitKey_suffixedKey (db.settings.ne_empty s hs) (h.installed.unnumbered s hs),
    splitKey_toString (db.settings.ne_empty s' hs')] at hsplit
  obtain ⟨hid, hn⟩ := Prod.mk.inj hsplit
  exact ⟨db.settings.eq_of_id hs' hs hid.symm, hn.symm⟩

/-- The value of an entry that a template may have laid over another one. -/
theorem overlay_value {row : Option TemplateSetting} {template : String} {isGlobal : Bool}
    {below : Option Entry} :
    (((if template = "" then none else row.map (templateEntry isGlobal)).or below).map Entry.value) =
      (if template = "" then none else row.map TemplateSetting.default).or
        (below.map Entry.value) := by
  split
  · rfl
  · cases row <;> rfl

theorem mem_serverName_templated (h : Readable db) (hm : StoredMultisite db) {sv : String}
    (hsv : sv ∈ words (valueOf (templatedConfig db) "SERVER_NAME" "")) :
    (db.services.lookup sv).isSome := by
  have hkey : ∀ service, (db.services.lookup service).isSome → ∀ r,
      "SERVER_NAME" ≠ joinKey service r := fun service hservice r =>
    (h.joinKey_ne_serverName hservice r).symm
  rw [valueOf, templatedConfig, lookup_withServiceTemplates_global (mem_serverName h hm) hkey] at hsv
  exact (mem_serverName h hm sv).mp hsv

/-- A global key before the groups are filled. -/
theorem templated_global (h : Readable db) (hm : StoredMultisite db) (hs : s ∈ db.settings.all)
    (hkey : suffixedKey s.id n ≠ "SERVER_NAME") :
    ((templatedConfig db).lookup (suffixedKey s.id n)).map Entry.value = globalValue db s n := by
  rw [templatedConfig, lookup_withServiceTemplates_global (mem_serverName h hm) fun _ hservice =>
      (h.services _ hservice).ne_joinKey hs n, lookup_withGlobalTemplate h hs,
    lookup_baseConfig_global h hm hs hkey, globalValue, templateValue, baseEntry]
  cases db.globalValues.lookup (s.id, n) with
  | some c => rfl
  | none =>
    rw [Option.map_none, Option.none_or, if_neg, overlay_value]
    · have hdefault : ((if n = 0 then some (defaultEntry s) else none).map Entry.value) =
          if n = 0 then some s.default else none := by
        split <;> rfl
      rw [hdefault]
      rfl
    · split <;> simp [defaultEntry]

/-- A key of a service before the groups are filled. -/
theorem templated_service (h : Readable db) (hm : StoredMultisite db) (hs : s ∈ db.settings.all)
    (hservice : (db.services.lookup service).isSome)
    (hdraft : suffixedKey s.id n ≠ "IS_DRAFT") :
    ((templatedConfig db).lookup (joinKey service (suffixedKey s.id n))).map Entry.value =
      keyValue db service s n := by
  obtain ⟨d, hbase⟩ := lookup_baseConfig_key h hm hs hservice hdraft
  rw [templatedConfig, lookup_withServiceTemplates h hs hservice n (mem_serverName h hm)
    (valueOf_serviceTemplate h hm hservice),
    lookup_withGlobalTemplate_of_ne h (h.joinKey_ne hservice _), hbase, keyValue, templateValue]
  cases db.servicesSettings.lookup (service, s.id, n) with
  | some c =>
    simp only [Option.map_some, Option.some_or, Option.any_some, serviceEntry, Option.isSome_some,
      Bool.not_false, Bool.and_self, if_true, rowText]
  | none =>
    have hbelow : ((if s.context = .multisite then baseEntry db s n else none).map Entry.value) =
        if s.context = .multisite then baseValue db s n else none := by
      by_cases hctx : s.context = .multisite
      · rw [if_pos hctx, if_pos hctx, baseEntry_value]
      · rw [if_neg hctx, if_neg hctx, Option.map_none]
    rw [Option.map_none, Option.none_or, if_neg, overlay_value, hbelow]
    · rfl
    · split
      · rw [baseEntry]
        cases db.globalValues.lookup (s.id, n) with
        | some c => simp [globalEntry]
        | none => split <;> simp [defaultEntry]
      · simp

/-- **Global keys.** `get_config` finds at each global key what it stands for. -/
theorem getConfig_global (h : Readable db) (hm : StoredMultisite db) (hs : s ∈ db.settings.all)
    (hid : s.id ≠ "SERVER_NAME") (n : Nat) :
    Found s.default (globalValue db s n)
      ((getConfig db withDrafts).lookup (suffixedKey s.id n)) := by
  have hkey : ∀ service, (db.services.lookup service).isSome → ∀ r,
      suffixedKey s.id n ≠ joinKey service r := fun service hservice r =>
    (h.services service hservice).ne_joinKey hs n r
  rw [getConfig, Dict.lookup_mapValues, getConfigEntries_eq h hm]
  refine Found.of_lookup ?_ ?_
  · exact templated_global h hm hs fun he => hid (suffixedKey_eq (db.settings.ne_empty s hs)
      (h.installed.unnumbered s hs) (by decide) he).1
  · intro hnone e he
    rw [globalValue, Option.or_eq_none_iff, Option.or_eq_none_iff] at hnone
    obtain ⟨s', hs', n', window, hwindow, hvalue⟩ :=
      mem_groupDefaults (fun sv => mem_serverName_templated h hm) he
    rcases hwindow with ⟨rfl, hkey'⟩ | ⟨hwindow, -, hkey'⟩
    · obtain ⟨rfl, rfl⟩ := h.numbered_inj hs hs' hkey'
      refine hvalue ?_
      rw [fillTemplate_windowTemplates h hm (.inr rfl), if_pos (.inl rfl)]
      exact hnone.2.1
    · exact absurd hkey' (hkey window hwindow _)

/-- **Keys of services.** `get_config` finds at each key of a service what it stands for; the group
of a numbered one must not be filled from the global template in the place of none. -/
theorem getConfig_service (h : Readable db) (hm : StoredMultisite db) (hs : s ∈ db.settings.all)
    (hservice : (db.services.lookup service).isSome) (hctx : s.context = .multisite)
    (hid : s.id ≠ "SERVER_NAME") (hdraft : s.id ≠ "IS_DRAFT") (n : Nat)
    (hfill : serviceValue db service s n = none → n = 0 ∨ serviceTemplateUsed db service ≠ "" ∨
      templateValue db (templateUsed db) s.id n = none) :
    Found s.default (serviceValue db service s n)
      ((getConfig db withDrafts).lookup (joinKey service (suffixedKey s.id n))) := by
  rw [getConfig, Dict.lookup_mapValues, getConfigEntries_eq h hm]
  refine Found.of_lookup ?_ ?_
  · rw [templated_service h hm hs hservice fun he => hdraft (suffixedKey_eq
      (db.settings.ne_empty s hs) (h.installed.unnumbered s hs) (by decide) he).1]
    exact keyValue_eq_serviceValue hctx hid
  · intro hnone e he
    have hfill := hfill hnone
    rw [serviceValue, Option.or_eq_none_iff, Option.or_eq_none_iff] at hnone
    obtain ⟨-, hnoTemplate, hnoBase⟩ := hnone
    obtain ⟨s', hs', n', window, hwindow, hvalue⟩ :=
      mem_groupDefaults (fun sv => mem_serverName_templated h hm) he
    rcases hwindow with ⟨-, hkey'⟩ | ⟨hwindow, -, hkey'⟩
    · have hsep := h.services service hservice
      exact absurd hkey'.symm (joinKey_ne_joinKey hsep.noUnderscore (hsep.notSetting s' hs')
        (hsep.notPrefix s' hs') _ _)
    · obtain ⟨rfl, hrest⟩ := (h.services _ hwindow).joinKey_inj (h.services _ hservice) hkey'.symm
      obtain ⟨rfl, rfl⟩ := h.numbered_inj hs hs' hrest.symm
      refine hvalue ?_
      rw [fillTemplate_windowTemplates h hm (.inl hservice)]
      split
      · rename_i hempty
        have hpos : n' ≠ 0 := fun hn => by
          rw [baseValue] at hnoBase
          split at hnoBase
          · cases hnoBase
          · rw [if_pos hn] at hnoBase
            cases hnoBase
        have hempty' := hempty.resolve_left (h.services _ hservice).notGlobal
        exact (hfill.resolve_left hpos).resolve_left fun hne => hne hempty'
      · exact hnoTemplate

end

end BunkerWeb.Db
