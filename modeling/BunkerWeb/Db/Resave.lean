import BunkerWeb.Db.Stands

/-!
# Saving what was just read

The web interface and the API read the whole configuration, change a key or none, and save it
(`convert_services`, `_full_config_snapshot` and `_persist_config`). `get_config` lists many keys
that have no row, and `save_config` has to see of each that it needs none.

- **The lines** (`global_line`, `service_line`): what the loops of the call go through.
- **Nothing changes** (`globalChange_of_atRest`, `serviceChange_of_atRest`): in a database at rest
  no line asks for a change.
- **The plan** (`planOf_resave`): neither do the services, so that the call changes nothing.
-/

namespace BunkerWeb.Db

open Lib

/-- `save_config(get_config(with_drafts=True), method)`. -/
def resaveCall (method : Method) (db : Database) : Call where
  config := getConfig db withDrafts
  method
  changed := true
  fileNames := ∅
  skipServiceManagement := false
  disableCleanup := false
  explicitKeys := []

/-- The call leaves the services and the rows as they are, but for the global `SERVER_NAME`, and
reports no plugin. -/
structure NoOp (env : Env) (method : Method) (db : Database) : Prop where
  services : ∀ id, (saveConfig env (resaveCall method db) db).2.services.lookup id =
    db.services.lookup id
  rows : ∀ k, (saveConfig env (resaveCall method db) db).2.servicesSettings.lookup k =
    db.servicesSettings.lookup k
  globals : ∀ k, k ≠ ("SERVER_NAME", 0) →
    (saveConfig env (resaveCall method db) db).2.globalValues.lookup k = db.globalValues.lookup k
  plugins : ∀ ids, (saveConfig env (resaveCall method db) db).1 = .plugins ids → ids = []

/-- The rows are those of known settings and services, and the settings that `save_config` treats in
a way of their own are what they are. -/
structure Regular (db : Database) : Prop where
  readable : Readable db
  drafts : DraftsApart db
  globals : ∀ k c, db.globalValues.lookup k = some c → ∃ s ∈ db.settings.all, s.id = k.1
  rows : ∀ k c, db.servicesSettings.lookup k = some c →
    (db.services.lookup k.1).isSome ∧ ∃ s ∈ db.settings.all, s.id = k.2.1
  serverName : ∀ s ∈ db.settings.all, s.id = "SERVER_NAME" → s.type ≠ .file ∧ s.multiple = none
  databaseUri : ∀ s ∈ db.settings.all, s.id = "DATABASE_URI" → s.context ≠ .multisite
  templates : ∀ t ∈ db.templateSettings, 0 < t.suffix →
    ∀ s ∈ db.settings.all, s.id = t.settingId → s.multiple.isSome

/-- The row has the text already, or the method may not write it. -/
def Fixed (method : Method) (text : String) (row : Option Cell) : Prop :=
  ∃ c, row = some c ∧ (text = c.value ∨ methodsAreCompatible method c.method false = false)

/-- A database that the call leaves alone. There is no draft beside a service of `ui` or `api` that
is none; the names of the services are in rows, as `get_config` gives them back; the global template
sets what has no row to its default at most; and the groups are whole. -/
structure AtRest (method : Method) (db : Database) : Prop where
  drafts : (∀ id sv, db.services.lookup id = some sv → sv.isDraft = false) ∨
    ∀ id sv, db.services.lookup id = some sv → owns method sv.method = true → sv.isDraft = true
  serverName : Fixed method (joinWords (serviceIds db)) (db.globalValues.lookup ("SERVER_NAME", 0))
  serverNames : ∀ service, (db.services.lookup service).isSome →
    ∃ c, db.servicesSettings.lookup (service, "SERVER_NAME", 0) = some c ∧
      (serverNameValue service c.value = c.value ∨
        methodsAreCompatible method c.method false = false)
  template : ∀ s ∈ db.settings.all, ∀ n, suffixedKey s.id n ≠ "SERVER_NAME" →
    db.globalValues.lookup (s.id, n) = none →
      ∀ t, templateValue db (templateUsed db) s.id n = some t → n = 0 ∧ t = s.default
  groups : WholeGroups db

/-- A task that brings nothing back. -/
structure TaskResult.Quiet (r : TaskResult) : Prop where
  globalChanges : r.globalChanges = []
  serviceChanges : r.serviceChanges = []
  newServices : r.newServices = []
  changedPlugins : r.changedPlugins = []
  changedServices : r.changedServices = false

/-- The processing of a known service none of whose lines asks for a change. -/
theorem processService_quiet {w : Work} {dbIds : List String} {server : String}
    {config : List (String × String)}
    (hsame : ∀ l ∈ lines w.session.settings config,
      serviceChange w (serviceTemplate w config) server l = (none, false))
    (hknown : dbIds.contains server = true) : (processService w dbIds server config).Quiet := by
  have hchanges : ∀ e ∈ (lines w.session.settings config).map
      (fun l => (l, serviceChange w (serviceTemplate w config) server l)), e.2 = (none, false) := by
    intro e he
    obtain ⟨l, hl, rfl⟩ := List.mem_map.mp he
    exact hsame l hl
  constructor
  · rfl
  · exact List.filterMap_eq_nil_iff.mpr fun e he => by rw [hchanges e he]; rfl
  · simp only [processService, hknown, Bool.not_true, Bool.and_false, Bool.false_eq_true, if_false]
  · exact List.map_eq_nil_iff.mpr (List.filter_eq_nil_iff.mpr fun e he => by
      rw [hchanges e he]
      exact Bool.false_ne_true)
  · simp only [processService, hknown, Bool.not_true, Bool.and_false, Bool.false_and,
      Bool.false_or]
    exact List.any_eq_false.mpr fun e he => by simp [hchanges e he]

/-- The processing of the global settings none of whose lines asks for a change. -/
theorem processGlobalSettings_quiet {w : Work} {config : List (String × String)}
    (hsame : ∀ l ∈ lines w.session.settings config, globalChange w l = (none, false)) :
    (processGlobalSettings w config).Quiet := by
  have hchanges : ∀ e ∈ (lines w.session.settings config).map fun l => (l, globalChange w l),
      e.2 = (none, false) := by
    intro e he
    obtain ⟨l, hl, rfl⟩ := List.mem_map.mp he
    exact hsame l hl
  constructor
  · exact List.filterMap_eq_nil_iff.mpr fun e he => by rw [hchanges e he]; rfl
  · rfl
  · rfl
  · exact List.map_eq_nil_iff.mpr (List.filter_eq_nil_iff.mpr fun e he => by
      rw [hchanges e he]
      exact Bool.false_ne_true)
  · rfl

section

variable {env : Env} {method : Method} {db : Database} {s : Setting} {n : Nat} {service : String}
  {l : Line}

/-! ## The names -/

theorem isUi_ne {call : Method} (hui : method.isUi = true) (h : call.isUi = false) :
    method ≠ call := fun he => by rw [he, h] at hui; cases hui

variable (h : Regular db) (hm : StoredMultisite db) (hs : AtRest method db)

include h hm hs

theorem lookup_serverName_resave :
    (resaveCall method db).config.lookup "SERVER_NAME" = some (joinWords (serviceIds db)) := by
  obtain ⟨u, hu, hid⟩ := h.readable.installed.serverName
  have hproper : Proper db none u 0 := ⟨knownScope_none, fun hsome => by cases hsome⟩
  have hl := lookup_getConfig h.readable hm hs.groups hu hproper
  rw [keyOf, suffixedKey_zero, hid, stands, suffixedKey_zero, hid, if_pos rfl] at hl
  exact hl

theorem serverNames_resave : serverNames (resaveCall method db).config = serviceIds db := by
  rw [serverNames, lookup_serverName_resave h hm hs, Option.getD_some]
  refine words_joinWords fun name hname => ?_
  exact (h.readable.services name (mem_serviceIds.mp hname)).word

theorem mem_servicesSet_resave :
    service ∈ servicesSet (resaveCall method db) db ↔ (db.services.lookup service).isSome := by
  constructor
  · intro hmem
    rcases mem_servicesSet hmem with hname | hsome
    · rw [serverNames_resave h hm hs] at hname
      exact mem_serviceIds.mp hname
    · exact hsome
  · intro hsome
    refine List.mem_append_left _ ?_
    rw [serverNames_resave h hm hs]
    exact mem_serviceIds.mpr hsome

theorem separate_resave (hmem : service ∈ servicesSet (resaveCall method db) db) :
    Separate db.settings service :=
  h.readable.services service ((mem_servicesSet_resave h hm hs).mp hmem)

theorem firstService_resave (hservice : (db.services.lookup service).isSome) (rest : String) :
    firstService (servicesSet (resaveCall method db) db) (joinKey service rest) =
      some (service, rest) :=
  firstService_joinKey (fun _ => separate_resave h hm hs)
    ((mem_servicesSet_resave h hm hs).mpr hservice) rest

/-! ## The lines -/

/-- A global line is that of a setting and what its key stands for. -/
theorem global_line (hl : l ∈ lines db.settings (globalConfig (popped (resaveCall method db))
    (servicesSet (resaveCall method db) db))) :
    ∃ s ∈ db.settings.all, ∃ n, l = ⟨suffixedKey s.id n, l.value, s, n⟩ ∧
      stands db none s n = some l.value := by
  obtain ⟨hmem, hfind, hsplit⟩ := mem_lines.mp hl
  obtain ⟨hpopped, hfirst⟩ := mem_globalConfig.mp hmem
  have hgiven := lookup_of_popped hpopped
  rcases keyForm_getConfig h.readable hm hs.groups hgiven with
    ⟨scope, hscope, s, hsin, n, hkey⟩ | ⟨service, hservice, hkey⟩
  · cases scope with
    | some service =>
      rw [hkey, keyOf, firstService_resave h hm hs (hscope service rfl)] at hfirst
      cases hfirst
    | none =>
      have hkey : l.originalKey = suffixedKey s.id n := hkey
      have hproper : Proper db none s n := ⟨hscope, fun hsome => by cases hsome⟩
      have hstands := lookup_getConfig h.readable hm hs.groups hsin hproper
      rw [hkey, splitKey_suffixedKey (db.settings.ne_empty s hsin)
        (h.readable.installed.unnumbered s hsin)] at hsplit
      obtain ⟨hid, rfl⟩ := Prod.mk.inj hsplit
      obtain rfl := db.settings.eq_of_id hsin (Catalog.find_eq_some.mp hfind).1 hid
      refine ⟨l.setting, hsin, l.suffix, by rw [← hkey], ?_⟩
      rw [← hstands, keyOf, ← hkey]
      exact hgiven
  · rw [hkey, draftKey, firstService_resave h hm hs hservice] at hfirst
    cases hfirst

/-- The draft flags are popped. -/
theorem popped_draftKey (hservice : (db.services.lookup service).isSome) :
    (popped (resaveCall method db)).lookup (draftKey service) = none := by
  rw [lookup_popped, if_pos]
  refine List.mem_cons_of_mem _ ?_
  show _ ∈ (serverNames (resaveCall method db).config).map fun s => joinKey s "IS_DRAFT"
  rw [serverNames_resave h hm hs]
  exact List.mem_map.mpr ⟨service, mem_serviceIds.mpr hservice, rfl⟩

/-- A line of a service is that of a setting and what its key stands for. -/
theorem service_line (hl : l ∈ lines db.settings (serviceConfig (popped (resaveCall method db))
    (servicesSet (resaveCall method db) db) service)) :
    (db.services.lookup service).isSome ∧ ∃ s ∈ db.settings.all, ∃ n,
      l = ⟨suffixedKey s.id n, l.value, s, n⟩ ∧ keyValue db service s n = some l.value := by
  obtain ⟨hmem, hfind, hsplit⟩ := mem_lines.mp hl
  obtain ⟨hpopped, hfirst⟩ := mem_serviceConfig.mp hmem
  have hgiven := lookup_of_popped hpopped
  have hservice := (mem_servicesSet_resave h hm hs).mp (firstService_eq_some.mp hfirst).1
  have hsep := h.readable.services service hservice
  refine ⟨hservice, ?_⟩
  rcases keyForm_getConfig h.readable hm hs.groups hgiven with
    ⟨scope, hscope, s, hsin, n, hkey⟩ | ⟨service', hservice', hkey⟩
  · cases scope with
    | none => exact absurd hkey.symm (hsep.ne_joinKey hsin n _)
    | some service' =>
      obtain ⟨rfl, hrest⟩ := hsep.joinKey_inj (h.readable.services _ (hscope _ rfl)) hkey
      have hdraft : suffixedKey s.id n ≠ "IS_DRAFT" := fun he => by
        rw [hrest, he, ← draftKey, popped_draftKey h hm hs hservice] at hpopped
        cases hpopped
      have hproper : Proper db (some service) s n := ⟨hscope, fun _ => hdraft⟩
      have hstands := lookup_getConfig h.readable hm hs.groups hsin hproper
      rw [hrest, splitKey_suffixedKey (db.settings.ne_empty s hsin)
        (h.readable.installed.unnumbered s hsin)] at hsplit
      obtain ⟨hid, rfl⟩ := Prod.mk.inj hsplit
      obtain rfl := db.settings.eq_of_id hsin (Catalog.find_eq_some.mp hfind).1 hid
      refine ⟨l.setting, hsin, l.suffix, by rw [← hrest], ?_⟩
      have hstands : _ = keyValue db service l.setting l.suffix := hstands
      rw [← hstands, keyOf, ← hrest]
      exact hgiven
  · obtain ⟨rfl, -⟩ := hsep.joinKey_inj (h.readable.services _ hservice') hkey
    rw [hkey, popped_draftKey h hm hs hservice] at hpopped
    cases hpopped

/-! ## Nothing changes -/

/-- A key of a setting is not popped, unless it is that of the database. -/
theorem popped_resave {scope : Option String} (hsin : s ∈ db.settings.all)
    (hscope : Proper db scope s n) (huri : s.id ≠ "DATABASE_URI")
    (hrest : scope.isSome → suffixedKey s.id n ≠ "URI") :
    (popped (resaveCall method db)).lookup (keyOf scope s n) = stands db scope s n := by
  rw [lookup_popped, if_neg, ← lookup_getConfig h.readable hm hs.groups hsin hscope]
  · rfl
  · intro hmem
    rcases List.mem_cons.mp hmem with he | hmem
    · cases scope with
      | none =>
        exact huri (suffixedKey_eq (db.settings.ne_empty s hsin)
          (h.readable.installed.unnumbered s hsin) (by decide) he).1
      | some service =>
        rw [show "DATABASE_URI" = joinKey "DATABASE" "URI" by decide] at he
        exact hrest rfl (BunkerWeb.joinKey_inj
          (h.readable.services service (hscope.1 service rfl)).noUnderscore (by decide) he).2
    · have hmem : keyOf scope s n ∈ (serverNames (resaveCall method db).config).map fun s =>
          joinKey s "IS_DRAFT" := hmem
      obtain ⟨sv, hsv, he⟩ := List.mem_map.mp hmem
      rw [serverNames_resave h hm hs] at hsv
      have hsep := h.readable.services sv (mem_serviceIds.mp hsv)
      cases scope with
      | none => exact hsep.ne_joinKey hsin n _ he.symm
      | some service =>
        exact hscope.2 rfl (hsep.joinKey_inj (h.readable.services service
          (hscope.1 service rfl)) he).2.symm

omit h hm hs in
/-- A row that has the value already does not change. -/
theorem rowChange_of_same {c : Cell} {isDefault : Bool} (hv : c.value = l.value) :
    rowChange (resaveCall method db) (some c) l false isDefault = (none, false) := by
  have hfile : (settingFileName (resaveCall method db).fileNames l.setting.type l.originalKey
      (c.value != l.value) c.fileName).2 = false := by
    unfold settingFileName
    split
    · rfl
    · rw [show (resaveCall method db).fileNames.lookup _ = none from AList.lookup_empty _]
      simp [hv]
  simp only [rowChange, Bool.false_or, Bool.false_and, hfile, Bool.false_eq_true, if_false]

omit h hm hs in
/-- A row of a text that the call may not write does not change. -/
theorem rowChange_of_text {c : Cell} {isDefault : Bool} (hfile : l.setting.type ≠ .file) :
    rowChange (resaveCall method db) (some c) l false isDefault = (none, false) := by
  simp [rowChange, settingFileName, hfile]

omit h hm hs in
/-- A default gets no row. -/
theorem rowChange_of_default (update : Bool) :
    rowChange (resaveCall method db) none l update true = (none, false) := rfl

omit h hm hs in
theorem shouldUpdate_resave (hui : method.isUi = true) {key value : String} {c : Cell}
    (hc : c.value = value ∨ methodsAreCompatible method c.method false = false) :
    shouldUpdate (resaveCall method db) key value c = false := by
  have hautoconf : method ≠ .autoconf := isUi_ne hui rfl
  have hover : schedulerCanOverride (resaveCall method db).explicitKeys key value = false := rfl
  rcases hc with rfl | hnot
  · simp [shouldUpdate, resaveCall, hautoconf]
  · rw [shouldUpdate, hover, show (resaveCall method db).method = method from rfl, hnot]
    simp [hautoconf]

/-- No global line asks for a change. -/
theorem globalChange_of_atRest (hui : method.isUi = true) {p : ServicePlan}
    (hl : l ∈ lines db.settings (globalConfig (popped (resaveCall method db))
      (servicesSet (resaveCall method db) db))) :
    globalChange (poolWork (resaveCall method db) db p) l = (none, false) := by
  obtain ⟨s, hsin, n, hline, hstands⟩ := global_line h hm hs hl
  have hsetting : l.setting = s := by rw [hline]
  have hsuffix : l.suffix = n := by rw [hline]
  unfold globalChange
  rw [poolWork_template]
  show rowChange (resaveCall method db) (db.globalValues.lookup (l.setting.id, l.suffix)) l
    ((db.globalValues.lookup (l.setting.id, l.suffix)).any
      (shouldUpdate (resaveCall method db) l.originalKey l.value)) _ = _
  rw [hsetting, hsuffix]
  rw [stands] at hstands
  split at hstands
  · -- The list of the services.
    rename_i hserver
    obtain ⟨hid, rfl⟩ := suffixedKey_eq (db.settings.ne_empty s hsin)
      (h.readable.installed.unnumbered s hsin) (by decide) hserver
    obtain ⟨c, hc, hfixed⟩ := hs.serverName
    have hvalue := Option.some.inj hstands
    rw [hid, hc, Option.any_some, shouldUpdate_resave hui (hfixed.imp_left fun he => by
      rw [← he, hvalue])]
    exact rowChange_of_text (by rw [hsetting]; exact (h.serverName s hsin hid).1)
  · rename_i hserver
    cases hrow : db.globalValues.lookup (s.id, n) with
    | some c =>
      rw [globalValue, hrow] at hstands
      have hvalue : c.value = l.value := Option.some.inj hstands
      rw [Option.any_some, shouldUpdate_resave hui (.inl hvalue)]
      exact rowChange_of_same hvalue
    | none =>
      have hdefault : n = 0 ∧ l.value = s.default := by
        rw [globalValue, hrow, Option.map_none, Option.none_or] at hstands
        cases ht : templateValue db (templateUsed db) s.id n with
        | some t =>
          rw [ht] at hstands
          obtain ⟨hn, rfl⟩ := hs.template s hsin n hserver hrow t ht
          exact ⟨hn, (Option.some.inj hstands).symm⟩
        | none =>
          rw [ht, Option.none_or] at hstands
          obtain ⟨hn, hv⟩ := Option.ite_none_right_eq_some.mp hstands
          exact ⟨hn, (Option.some.inj hv).symm⟩
      obtain ⟨rfl, hvalue⟩ := hdefault
      have hid : s.id ≠ "SERVER_NAME" := hserver
      rw [checkValue, if_neg hid, isDefaultValue]
      simp only [beq_self_eq_true, Bool.and_self, Bool.true_or, if_true, hvalue]
      exact rowChange_of_default _

/-- The configuration names for a service the template that it uses. -/
theorem namedTemplateValue_resave (hservice : (db.services.lookup service).isSome) :
    namedTemplateValue (resaveCall method db) db service s n =
      templateValue db (serviceTemplateUsed db service) s.id n := by
  obtain ⟨u, hu, hid, hctx, hdefault, -⟩ := h.readable.installed.useTemplate
  have hkey : suffixedKey u.id 0 = "USE_TEMPLATE" := by rw [suffixedKey_zero, hid]
  have hproper : Proper db (some service) u 0 :=
    ⟨knownScope_some hservice, fun _ => by rw [hkey]; decide⟩
  have hpopped := popped_resave h hm hs hu hproper (by rw [hid]; decide)
    fun _ => by rw [hkey]; decide
  have hvalue : keyValue db service u 0 = some (serviceTemplateUsed db service) := by
    have hnone : templateValue db (serviceTemplateUsed db service) u.id 0 = none := by
      rw [templateValue]
      split
      · rfl
      · rw [templateRow, Option.map_eq_none_iff, Dict.lastOf_eq_none]
        rintro e he hek
        obtain ⟨row, hrow, rfl⟩ := List.mem_map.mp he
        exact (h.readable.installed.templates row (List.mem_filter.mp hrow).1).1
          ((Prod.mk.inj hek).1.trans hid)
    have htext : rowText service u = Cell.value := funext fun c => if_neg (by rw [hid]; decide)
    rw [keyValue, hnone, if_pos hctx, htext, hid, baseValue, hid, if_pos rfl, hdefault,
      serviceTemplateUsed, templateUsed]
    cases db.servicesSettings.lookup (service, "USE_TEMPLATE", 0) with
    | some c => rfl
    | none => cases db.globalValues.lookup ("USE_TEMPLATE", 0) <;> rfl
  have hpopped : (popped (resaveCall method db)).lookup (joinKey service "USE_TEMPLATE") =
      some (serviceTemplateUsed db service) := by
    rw [← hkey]
    exact hpopped.trans hvalue
  rw [namedTemplateValue, hpopped]
  rfl

/-- What a service inherits is what the configuration has at the global key. -/
theorem inherited_resave (hsin : s ∈ db.settings.all) (hid : s.id ≠ "SERVER_NAME")
    (hctx : s.context = .multisite) {v : String} (hbase : baseValue db s n = some v) :
    isDefaultValue (popped (resaveCall method db)) (dbConfigOf (resaveCall method db) db) v s.id
      s.default none n false = true := by
  have huri : s.id ≠ "DATABASE_URI" := fun he => h.databaseUri s hsin he hctx
  have hne : ∀ n, suffixedKey s.id n ≠ "SERVER_NAME" := fun n he =>
    hid (suffixedKey_eq (db.settings.ne_empty s hsin) (h.readable.installed.unnumbered s hsin)
      (by decide) he).1
  have hpopped : ∀ n, (popped (resaveCall method db)).lookup (suffixedKey s.id n) =
      globalValue db s n := fun n => by
    have hproper : Proper db none s n := ⟨knownScope_none, fun hsome => by cases hsome⟩
    have hl := popped_resave h hm hs hsin hproper huri fun hsome => by cases hsome
    rw [keyOf, stands, if_neg (hne n)] at hl
    exact hl
  have hsome : ((popped (resaveCall method db)).lookup s.id).isSome := by
    have hzero := hpopped 0
    rw [suffixedKey_zero] at hzero
    rw [hzero, globalValue]
    simp
  have hglobal : globalValue db s n = some v := by
    rw [baseValue] at hbase
    rw [globalValue]
    cases hrow : db.globalValues.lookup (s.id, n) with
    | some c =>
      rw [hrow] at hbase
      exact hbase
    | none =>
      rw [hrow] at hbase
      obtain ⟨rfl, hv⟩ := Option.ite_none_right_eq_some.mp hbase
      cases ht : templateValue db (templateUsed db) s.id 0 with
      | none => exact hv
      | some t =>
        obtain ⟨-, rfl⟩ := hs.template s hsin 0 (hne 0) hrow t ht
        exact hv
  have hnot : ((popped (resaveCall method db)).lookup s.id).isNone = false := by
    rw [Option.isNone_eq_false_iff]
    exact hsome
  simp [isDefaultValue, hnot, hpopped, hglobal]

/-- No line of a service asks for a change. -/
theorem serviceChange_of_atRest (hui : method.isUi = true) {p : ServicePlan}
    (hp : p.hardDelete = [])
    (hl : l ∈ lines db.settings (serviceConfig (popped (resaveCall method db))
      (servicesSet (resaveCall method db) db) service)) :
    serviceChange (poolWork (resaveCall method db) db p)
      (serviceTemplate (poolWork (resaveCall method db) db p)
        (serviceConfig (popped (resaveCall method db))
          (servicesSet (resaveCall method db) db) service)) service l = (none, false) := by
  obtain ⟨hservice, s, hsin, n, hline, hstands⟩ := service_line h hm hs hl
  have hsetting : l.setting = s := by rw [hline]
  have hsuffix : l.suffix = n := by rw [hline]
  have hrows : (sessionOf db p).servicesSettings.lookup (service, s.id, n) =
      db.servicesSettings.lookup (service, s.id, n) := by
    rw [lookup_sessionOf_servicesSettings, hp, if_neg List.not_mem_nil]
  unfold serviceChange serviceIsDefault
  rw [serviceTemplate_default_of (firstService_resave h hm hs hservice _),
    namedTemplateValue_resave h hm hs hservice, hsetting, hsuffix]
  show rowChange (resaveCall method db)
    ((sessionOf db p).servicesSettings.lookup (service, s.id, n)) l
    (((sessionOf db p).servicesSettings.lookup (service, s.id, n)).any
      (shouldUpdate (resaveCall method db) (joinKey service l.originalKey) l.value))
    (checkValue (popped (resaveCall method db)) (dbConfigOf (resaveCall method db) db) s.id l.value
      s.default (templateValue db (serviceTemplateUsed db service) s.id n) n false) = _
  rw [hrows]
  by_cases hid : s.id = "SERVER_NAME"
  · -- The names of the service: its row is there, and it is not numbered.
    obtain ⟨htype, hmultiple⟩ := h.serverName s hsin hid
    obtain rfl : n = 0 := by
      by_contra hn
      have hpos := Nat.pos_of_ne_zero hn
      have hrow : db.servicesSettings.lookup (service, s.id, n) = none := by
        refine Option.eq_none_iff_forall_ne_some.mpr fun c hc => ?_
        have := h.readable.rows _ c hc hpos s hsin rfl
        rw [hmultiple] at this
        cases this
      have hglobal : db.globalValues.lookup (s.id, n) = none := by
        refine Option.eq_none_iff_forall_ne_some.mpr fun c hc => ?_
        have := h.readable.globals _ c hc hpos s hsin rfl
        rw [hmultiple] at this
        cases this
      have htemplate : templateValue db (serviceTemplateUsed db service) s.id n = none := by
        rw [templateValue]
        split
        · rfl
        · rw [templateRow, Option.map_eq_none_iff, Dict.lastOf_eq_none]
          rintro e he hek
          obtain ⟨row, hrow, rfl⟩ := List.mem_map.mp he
          obtain ⟨hkey, hsuffix⟩ := Prod.mk.inj hek
          have := h.templates row (List.mem_filter.mp hrow).1 (hsuffix ▸ hpos) s hsin hkey.symm
          rw [hmultiple] at this
          cases this
      rw [keyValue, hrow, htemplate, baseValue, hglobal, if_neg hn] at hstands
      simp at hstands
    obtain ⟨c, hc, hfixed⟩ := hs.serverNames service hservice
    rw [← hid] at hc
    rw [keyValue, hc] at hstands
    have hvalue : serverNameValue service c.value = l.value := by
      have htext : rowText service s c = serverNameValue service c.value := if_pos hid
      rw [← htext]
      exact Option.some.inj hstands
    rw [hc, Option.any_some, shouldUpdate_resave hui (hfixed.imp_left fun he => by
      rw [← hvalue, he])]
    exact rowChange_of_text (by rw [hsetting]; exact htype)
  · have htext : rowText service s = Cell.value := funext fun c => if_neg hid
    rw [keyValue, htext] at hstands
    cases hrow : db.servicesSettings.lookup (service, s.id, n) with
    | some c =>
      rw [hrow] at hstands
      have hvalue : c.value = l.value := Option.some.inj hstands
      rw [Option.any_some, shouldUpdate_resave hui (.inl hvalue)]
      exact rowChange_of_same hvalue
    | none =>
      rw [hrow, Option.map_none, Option.none_or] at hstands
      rw [checkValue, if_neg hid]
      cases ht : templateValue db (serviceTemplateUsed db service) s.id n with
      | some t =>
        rw [ht] at hstands
        have hvalue : t = l.value := Option.some.inj hstands
        rw [isDefaultValue, hvalue, beq_self_eq_true]
        exact rowChange_of_default _
      | none =>
        rw [ht, Option.none_or] at hstands
        obtain ⟨hctx, hbase⟩ := Option.ite_none_right_eq_some.mp hstands
        rw [inherited_resave h hm hs hsin hid hctx hbase]
        exact rowChange_of_default _

/-! ## The clean-up -/

theorem globalsToDelete_resave : globalsToDelete (resaveCall method db) db = [] := by
  refine List.eq_nil_iff_forall_not_mem.mpr ?_
  rintro ⟨id, n⟩ hk
  obtain ⟨⟨c, hc, -⟩, hvanished⟩ := mem_globalsToDelete.mp hk
  obtain ⟨s, hsin, rfl⟩ := h.globals _ c hc
  have hproper : Proper db none s n := ⟨knownScope_none, fun hsome => by cases hsome⟩
  have hl := lookup_getConfig h.readable hm hs.groups hsin hproper
  have hsome : (stands db none s n).isSome := by
    rw [stands, globalValue, hc]
    split <;> rfl
  have hthere : ((resaveCall method db).config.lookup (suffixedKey s.id n)).isNone = false := by
    rw [Option.isNone_eq_false_iff, ← hl] at *
    exact hsome
  rw [vanished, hthere] at hvanished
  cases hvanished

theorem serviceRowsToDelete_resave : serviceRowsToDelete (resaveCall method db) db = [] := by
  refine List.eq_nil_iff_forall_not_mem.mpr ?_
  rintro ⟨service, id, n⟩ hk
  obtain ⟨⟨c, hc, -⟩, -, hvanished⟩ := mem_serviceRowsToDelete.mp hk
  obtain ⟨hservice, s, hsin, rfl⟩ := h.rows _ c hc
  have hproper : Proper db (some service) s n := by
    refine ⟨knownScope_some hservice, fun _ he => ?_⟩
    obtain ⟨hid, rfl⟩ := eq_isDraft h.readable hsin he
    rw [hid, h.drafts.rows] at hc
    cases hc
  have hl := lookup_getConfig h.readable hm hs.groups hsin hproper
  have hsome : (stands db (some service) s n).isSome := by
    rw [stands, keyValue, hc]
    rfl
  have hthere : ((resaveCall method db).config.lookup
      (serviceRowKey (service, s.id, n))).isNone = false := by
    rw [Option.isNone_eq_false_iff, ← hl] at *
    exact hsome
  rw [vanished, hthere] at hvanished
  cases hvanished

theorem wipesService_resave : wipesService (resaveCall method db) db = false := by
  rw [wipesService, serviceRowsToDelete_resave h hm hs, Bool.and_eq_false_iff]
  refine .inr (List.any_eq_false.mpr fun k hk => ?_)
  have hlength : ((methodServiceRows (resaveCall method db) db).filter (·.1 = k.1)).length ≠ 0 := by
    rw [List.length_eq_zero_iff.ne]
    exact List.ne_nil_of_mem (List.mem_filter.mpr ⟨hk, decide_eq_true rfl⟩)
  have hne : (0 == ((methodServiceRows (resaveCall method db) db).filter (·.1 = k.1)).length) =
      false := by
    rw [beq_eq_false_iff_ne]
    exact hlength.symm
  rw [List.filter_nil, List.length_nil, hne, Bool.and_false]
  exact Bool.false_ne_true

/-! ## The services -/

theorem missingIds_resave : missingIds (resaveCall method db) db = some [] := by
  have howned : ∀ id ∈ (db.services.items.filter fun s => owns (resaveCall method db).method
      s.2.method).map Prod.fst, id ∈ serviceIds db := by
    intro id hid
    obtain ⟨e, he, rfl⟩ := List.mem_map.mp hid
    exact List.mem_map_of_mem (List.mem_filter.mp he).1
  unfold missingIds
  rw [serverNames_resave h hm hs]
  simp only
  rw [if_neg]
  · refine congrArg some (List.filter_eq_nil_iff.mpr fun id hid => ?_)
    simpa using howned id hid
  · rintro ⟨hempty, hne, -⟩
    obtain ⟨id, hid⟩ := List.exists_mem_of_ne_nil _ hne
    have hmem := howned id hid
    rw [hempty] at hmem
    cases hmem

/-- The drafts of the configuration are those of the database. -/
theorem mem_drafts_resave {id : String} :
    id ∈ (servicePlan (resaveCall method db) db []).drafts ↔
      ∃ sv, db.services.lookup id = some sv ∧ sv.isDraft = true := by
  have hflag : ∀ sv, db.services.lookup id = some sv →
      (((resaveCall method db).config.lookup (joinKey id "IS_DRAFT")).getD "no" = "yes" ↔
        sv.isDraft = true) := by
    intro sv hsv
    have hl := lookup_getConfig_draft h.readable hm hs.groups h.drafts hsv
    rw [show (resaveCall method db).config.lookup (joinKey id "IS_DRAFT") = _ from hl,
      Option.getD_some, draftText]
    cases sv.isDraft <;> decide
  rw [mem_drafts, serverNames_resave h hm hs, mem_serviceIds]
  constructor
  · rintro ⟨hsome, hyes⟩
    obtain ⟨sv, hsv⟩ := Option.isSome_iff_exists.mp hsome
    exact ⟨sv, hsv, (hflag sv hsv).mp hyes⟩
  · rintro ⟨sv, hsv, hdraft⟩
    exact ⟨by rw [hsv]; rfl, (hflag sv hsv).mpr hdraft⟩

/-- No service changes. -/
theorem servicePlan_resave :
    (servicePlan (resaveCall method db) db []).draftable = [] ∧
      (servicePlan (resaveCall method db) db []).hardDelete = [] ∧
      (servicePlan (resaveCall method db) db []).missingDrafts = [] ∧
      (servicePlan (resaveCall method db) db []).newDrafts = [] ∧
      (servicePlan (resaveCall method db) db []).updatedDrafts = [] := by
  have hdb : ∀ id ∈ (servicePlan (resaveCall method db) db []).drafts,
      id ∈ (db.services.items.filter (·.2.isDraft)).map Prod.fst := by
    intro id hid
    obtain ⟨sv, hsv, hdraft⟩ := (mem_drafts_resave h hm hs).mp hid
    exact List.mem_map.mpr ⟨(id, sv), List.mem_filter.mpr ⟨Dict.mem_items.mpr hsv, hdraft⟩, rfl⟩
  refine ⟨rfl, rfl, ?_, ?_, ?_⟩
  · show (if (db.services.items.filter (·.2.isDraft)).map Prod.fst = [] then []
      else List.filter _ _) = []
    split
    · rfl
    · rename_i hne
      refine List.filter_eq_nil_iff.mpr fun id hid => ?_
      obtain ⟨⟨id, sv⟩, he, rfl⟩ := List.mem_map.mp hid
      obtain ⟨hitem, howns⟩ := List.mem_filter.mp he
      have hsv := Dict.mem_items.mp hitem
      have hdraft : sv.isDraft = true := by
        rcases hs.drafts with hno | hall
        · exfalso
          obtain ⟨id', hid'⟩ := List.exists_mem_of_ne_nil _ hne
          obtain ⟨e, he', rfl⟩ := List.mem_map.mp hid'
          obtain ⟨hitem', hdraft'⟩ := List.mem_filter.mp he'
          rw [hno e.1 e.2 (Dict.mem_items.mp hitem')] at hdraft'
          cases hdraft'
        · exact hall id sv hsv howns
      have hmem : id ∈ (servicePlan (resaveCall method db) db []).drafts :=
        (mem_drafts_resave h hm hs).mpr ⟨sv, hsv, hdraft⟩
      simp only [Bool.and_eq_true, Bool.not_eq_true', not_and]
      intro hnot
      exact absurd (List.contains_iff_mem.mpr hmem) (by
        rw [Bool.not_eq_true]
        exact hnot)
  · refine List.filter_eq_nil_iff.mpr fun id hid => ?_
    simp only [List.contains_iff_mem.mpr (hdb id hid), Bool.not_true, Bool.false_and,
      Bool.false_eq_true, not_false_eq_true]
  · refine List.filter_eq_nil_iff.mpr fun id hid => ?_
    simp only [List.contains_iff_mem.mpr (hdb id hid), Bool.not_true, Bool.false_and,
      Bool.false_eq_true, not_false_eq_true]

/-! ## The plan -/

/-- A task brings nothing back. -/
theorem taskResult_resave (hui : method.isUi = true) {r : TaskResult}
    (hr : r ∈ poolResults env (poolWork (resaveCall method db) db
      (servicePlan (resaveCall method db) db [])) ((db.services.items.map Prod.fst) ++
        (servicePlan (resaveCall method db) db []).newDrafts)
          (servicesSet (resaveCall method db) db)) : r.Quiet := by
  rcases mem_poolResults.mp hr with ⟨id, hid, -, rfl⟩ | ⟨-, rfl⟩
  · refine processService_quiet (fun l hl => ?_) ?_
    · exact serviceChange_of_atRest h hm hs hui rfl hl
    · obtain ⟨e, -, he⟩ := List.mem_filterMap.mp (List.mem_dedup.mp hid)
      obtain ⟨⟨id', rest⟩, hf, rfl⟩ := Option.map_eq_some_iff.mp he
      have hsome := (mem_servicesSet_resave h hm hs).mp (firstService_eq_some.mp hf).1
      exact List.contains_iff_mem.mpr (List.mem_append_left _ (mem_serviceIds.mpr hsome))
  · exact processGlobalSettings_quiet fun l hl => globalChange_of_atRest h hm hs hui hl

variable (env) in
/-- The plan of the call is to change nothing. -/
theorem planOf_resave (hui : method.isUi = true) :
    ∃ plan, planOf env (resaveCall method db) db = .ok plan ∧
      plan.session = sessionOf db (servicePlan (resaveCall method db) db []) ∧
      plan.globalChanges = [] ∧ plan.serviceChanges = [] ∧ plan.newServices = [] ∧
      plan.updatedDrafts = [] ∧ plan.changedPlugins = [] ∧ plan.changedServices = false := by
  obtain ⟨hdraftable, hdelete, hmissing, hnew, hupdated⟩ := servicePlan_resave h hm hs
  have hne : (resaveCall method db).config.items.isEmpty = false := by
    have hl := Dict.mem_items.mpr (lookup_serverName_resave h hm hs)
    cases hitems : (resaveCall method db).config.items with
    | nil => rw [hitems] at hl; cases hl
    | cons e l => rfl
  have hyes : ((popped (resaveCall method db)).lookup "MULTISITE").getD "no" = "yes" := by
    obtain ⟨u, hu, hid, -⟩ := h.readable.installed.multisite
    have hproper : Proper db none u 0 := ⟨knownScope_none, fun hsome => by cases hsome⟩
    have hl := popped_resave h hm hs hu hproper (by rw [hid]; decide)
      fun hsome => by cases hsome
    obtain ⟨c, hc, hcv⟩ := Option.map_eq_some_iff.mp hm
    rw [keyOf, suffixedKey_zero, hid, stands, suffixedKey_zero, hid, if_neg (by decide),
      globalValue, hid, hc] at hl
    rw [hl]
    exact hcv
  have hquiet : ∀ r ∈ poolResults env (poolWork (resaveCall method db) db
      (servicePlan (resaveCall method db) db [])) ((db.services.items.map Prod.fst) ++
        (servicePlan (resaveCall method db) db []).newDrafts)
          (servicesSet (resaveCall method db) db), r.Quiet :=
    fun r hr => taskResult_resave h hm hs hui hr
  have hflags : (serviceFlags (resaveCall method db)
      (servicePlan (resaveCall method db) db [])).1 = false := by
    rw [serviceFlags, hdraftable, hdelete, hmissing, hupdated]
    rfl
  have hservices : (multisitePlan env (resaveCall method db) db
      (servicePlan (resaveCall method db) db [])).changedServices = false := by
    refine List.any_eq_false.mpr fun r hr => ?_
    rw [(hquiet r hr).changedServices]
    exact Bool.false_ne_true
  refine ⟨{ multisitePlan env (resaveCall method db) db
      (servicePlan (resaveCall method db) db []) with
      changedServices := (multisitePlan env (resaveCall method db) db
        (servicePlan (resaveCall method db) db [])).changedServices ||
          (serviceFlags (resaveCall method db) (servicePlan (resaveCall method db) db [])).1
      serviceTemplateChange := (multisitePlan env (resaveCall method db) db
        (servicePlan (resaveCall method db) db [])).serviceTemplateChange ||
          (serviceFlags (resaveCall method db) (servicePlan (resaveCall method db) db [])).2 },
    ?_, rfl, ?_, ?_, ?_, hupdated, ?_, ?_⟩
  · unfold planOf
    rw [hne, missingIds_resave h hm hs]
    simp only [Bool.false_eq_true, if_false, if_pos hyes]
    rfl
  · exact List.flatMap_eq_nil_iff.mpr fun r hr => (hquiet r hr).globalChanges
  · exact List.flatMap_eq_nil_iff.mpr fun r hr => (hquiet r hr).serviceChanges
  · exact List.append_eq_nil_iff.mpr ⟨List.map_eq_nil_iff.mpr hnew,
      List.flatMap_eq_nil_iff.mpr fun r hr => (hquiet r hr).newServices⟩
  · exact List.flatMap_eq_nil_iff.mpr fun r hr => (hquiet r hr).changedPlugins
  · simp only [hservices, hflags, Bool.or_self]

/-- The commit of the call, if it gets there, leaves the tables as they are. -/
theorem commit_resave {plan : Plan} {db' : Database}
    (hsession : plan.session = sessionOf db (servicePlan (resaveCall method db) db []))
    (hglobals : plan.globalChanges = []) (hrows : plan.serviceChanges = [])
    (hnew : plan.newServices = []) (hdrafts : plan.updatedDrafts = [])
    (hcommit : commitTables plan [] [] = some db') :
    db'.services = db.services ∧ (∀ k, db'.servicesSettings.lookup k =
      db.servicesSettings.lookup k) ∧ db'.globalValues = db.globalValues := by
  obtain ⟨hdraftable, hdelete, hmissing, -, -⟩ := servicePlan_resave h hm hs
  obtain ⟨hcg, hcr, hcs, -⟩ := commitTables_eq_some hcommit
  rw [hsession, hglobals] at hcg
  rw [hsession, hrows] at hcr
  rw [hsession, hnew, hdrafts] at hcs
  refine ⟨?_, fun k => ?_, (Option.some.inj hcg).symm⟩
  · rw [← Option.some.inj hcs]
    show Table.deleteAll (Table.updateAll _ db.services _) _ = _
    rw [hdraftable, hdelete, hmissing]
    rfl
  · rw [← Option.some.inj hcr]
    show (sessionOf db _).servicesSettings.lookup k = _
    rw [lookup_sessionOf_servicesSettings, hdelete, if_neg List.not_mem_nil]

/-- **Saving what was just read.** For every environment: in a multisite database at rest a call of
`ui` or `api` with the configuration that was just read changes nothing. -/
theorem noOp_of_atRest (hui : method.isUi = true) : NoOp env method db := by
  obtain ⟨plan, hplan, hsession, hglobals, hrows, hnew, hdrafts, hplugins, hservices⟩ :=
    planOf_resave env h hm hs hui
  have hwipes : wipesGlobals (resaveCall method db) db = false := by
    have hscheduler : method ≠ .scheduler := isUi_ne hui rfl
    simp [wipesGlobals, resaveCall, hscheduler]
  have hsaved : (∃ message, saveConfig env (resaveCall method db) db = (.error message, db)) ∨
      ∃ db' flag, commitTables plan [] [] = some db' ∧ saveConfig env (resaveCall method db) db =
        (.plugins [], setFlags (resaveCall method db) [] flag db') := by
    unfold saveConfig
    rw [hwipes, wipesService_resave h hm hs, globalsToDelete_resave h hm hs,
      serviceRowsToDelete_resave h hm hs, hplan]
    simp only [hplugins, hservices, Bool.false_eq_true, if_false, List.any_nil, Bool.or_self,
      List.map_nil, List.append_nil, pluginsOf, List.filterMap_nil]
    cases env.readonly with
    | true => exact .inl ⟨_, rfl⟩
    | false =>
      cases env.commitError with
      | some message => exact .inl ⟨message, rfl⟩
      | none =>
        cases hcommit : commitTables plan [] [] with
        | none => exact .inl ⟨_, rfl⟩
        | some db' => exact .inr ⟨db', _, rfl, rfl⟩
  rcases hsaved with ⟨message, hsaved⟩ | ⟨db', flag, hcommit, hsaved⟩
  · exact ⟨fun _ => by rw [hsaved], fun _ => by rw [hsaved], fun _ _ => by rw [hsaved],
      fun ids hids => by rw [hsaved] at hids; cases hids⟩
  · obtain ⟨hsame, hsameRows, hsameGlobals⟩ :=
      commit_resave h hm hs hsession hglobals hrows hnew hdrafts hcommit
    refine ⟨fun id => ?_, fun k => ?_, fun k _ => ?_, fun ids hids => ?_⟩
    · rw [hsaved, setFlags_services, hsame]
    · rw [hsaved, setFlags_servicesSettings, hsameRows]
    · rw [hsaved, setFlags_globalValues, hsameGlobals]
    · rw [hsaved] at hids
      exact (Outcome.plugins.inj hids).symm

end

end BunkerWeb.Db
