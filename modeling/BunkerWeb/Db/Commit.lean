import BunkerWeb.Db.Save

/-!
# What a call of `save_config` can do

A call either leaves the database alone or gets to its commit (`saveConfig_cases`), and its plan
comes from one of three places: an empty configuration, the branch that is not multisite, or the
multisite one (`PlanCases`). The lemmas below say what the session and the changes of a plan are,
so that no later proof takes the definition of `saveConfig` apart.
-/

namespace BunkerWeb.Db

open Lib

/-- The call gets to its commit with `plan`, and the commit leaves the tables of `db'`. -/
structure Commits (env : Env) (call : Call) (db : Database) (plan : Plan) (db' : Database) :
    Prop where
  writable : env.readonly = false
  keepsGlobals : wipesGlobals call db = false
  keepsService : wipesService call db = false
  planned : planOf env call db = .ok plan
  accepted : env.commitError = none
  tables : commitTables plan (globalsToDelete call db) (serviceRowsToDelete call db) = some db'

section

variable {env : Env} {call : Call} {db db' : Database} {plan : Plan} {p : ServicePlan}

theorem Commits.unique {plan' : Plan} {db'' : Database} (h : Commits env call db plan db')
    (h' : Commits env call db plan' db'') : plan = plan' ∧ db' = db'' := by
  obtain rfl : plan = plan' := Except.ok.inj (h.planned.symm.trans h'.planned)
  exact ⟨rfl, Option.some.inj (h.tables.symm.trans h'.tables)⟩

/-- A call that commits returns the changed plugins and changes the tables and some flags; any
other leaves the database as it is. -/
theorem saveConfig_cases (env : Env) (call : Call) (db : Database) :
    (∃ plan db' plugins templateChange, Commits env call db plan db' ∧
      saveConfig env call db =
        (.plugins plugins, setFlags call plugins templateChange db')) ∨
    ((saveConfig env call db).2 = db ∧ ∀ plan db', ¬ Commits env call db plan db') := by
  unfold saveConfig
  cases hro : env.readonly with
  | true => exact .inr ⟨rfl, fun _ _ h => by simp [h.writable] at hro⟩
  | false =>
    simp only [Bool.false_eq_true, if_false]
    cases hg : wipesGlobals call db with
    | true => exact .inr ⟨rfl, fun _ _ h => by simp [h.keepsGlobals] at hg⟩
    | false =>
      simp only [Bool.false_eq_true, if_false]
      cases hs : wipesService call db with
      | true => exact .inr ⟨rfl, fun _ _ h => by simp [h.keepsService] at hs⟩
      | false =>
        simp only [Bool.false_eq_true, if_false]
        cases hp : planOf env call db with
        | error o => exact .inr ⟨rfl, fun _ _ h => by simp [h.planned] at hp⟩
        | ok plan =>
          simp only
          cases he : env.commitError with
          | some m => exact .inr ⟨rfl, fun _ _ h => by simp [h.accepted] at he⟩
          | none =>
            simp only
            cases ht : commitTables plan (globalsToDelete call db)
                (serviceRowsToDelete call db) with
            | none =>
              refine .inr ⟨rfl, fun plan' db' h => ?_⟩
              obtain rfl : plan = plan' := Except.ok.inj (hp.symm.trans h.planned)
              simp [h.tables] at ht
            | some db' => exact .inl ⟨plan, db', _, _, ⟨hro, hg, hs, hp, he, ht⟩, rfl⟩

/-! ## What is popped -/

/-- The keys that are popped from the configuration. -/
def poppedKeys (call : Call) : List String :=
  "DATABASE_URI" ::
    if call.skipServiceManagement then []
    else (serverNames call.config).map fun s => joinKey s "IS_DRAFT"

theorem lookup_popped (call : Call) (k : String) :
    (popped call).lookup k = if k ∈ poppedKeys call then none else call.config.lookup k := by
  have hpopped : popped call = (poppedKeys call).foldl (fun d k => d.erase k) call.config := by
    unfold popped poppedKeys
    split
    · rfl
    · rw [List.foldl_cons, List.foldl_map]
  rw [hpopped, Dict.lookup_foldl_erase]

theorem popped_of_isEmpty (h : call.config.items.isEmpty = true) : (popped call).items = [] := by
  refine List.eq_nil_iff_forall_not_mem.mpr fun e he => ?_
  have hl := Dict.mem_items.mp he
  rw [lookup_popped] at hl
  split at hl
  · cases hl
  · have := Dict.mem_items.mpr hl
    rw [List.isEmpty_iff.mp h] at this
    exact List.not_mem_nil this

/-! ## The clean-up -/

theorem mem_globalsToDelete {k : GlobalKey} :
    k ∈ globalsToDelete call db ↔
      (∃ c, db.globalValues.lookup k = some c ∧ c.method = call.method) ∧
        vanished call.config (suffixedKey k.1 k.2) k.2 = true := by
  rw [globalsToDelete, List.mem_filter, methodGlobals, List.mem_map]
  refine and_congr_left fun _ => ?_
  constructor
  · rintro ⟨⟨k', c⟩, hmem, rfl⟩
    obtain ⟨hitem, hmethod⟩ := List.mem_filter.mp hmem
    exact ⟨c, Dict.mem_items.mp hitem, of_decide_eq_true hmethod⟩
  · rintro ⟨c, hc, hmethod⟩
    exact ⟨(k, c), List.mem_filter.mpr ⟨Dict.mem_items.mpr hc, decide_eq_true hmethod⟩, rfl⟩

theorem mem_serviceRowsToDelete {k : ServiceKey} :
    k ∈ serviceRowsToDelete call db ↔
      (∃ c, db.servicesSettings.lookup k = some c ∧ c.method = call.method) ∧
        (call.skipServiceManagement = false ∧ k.1 ∉ draftedServiceIds call db) ∧
          vanished call.config (serviceRowKey k) k.2.2 = true := by
  rw [serviceRowsToDelete, List.mem_filter, ← and_assoc]
  refine and_congr_left fun _ => ?_
  unfold methodServiceRows
  cases call.skipServiceManagement with
  | true => simp
  | false =>
    simp only [Bool.false_eq_true, if_false, true_and]
    rw [List.mem_filter, List.mem_map]
    refine and_congr ?_ (by simp)
    constructor
    · rintro ⟨⟨k', c⟩, hmem, rfl⟩
      obtain ⟨hitem, hmethod⟩ := List.mem_filter.mp hmem
      exact ⟨c, Dict.mem_items.mp hitem, of_decide_eq_true hmethod⟩
    · rintro ⟨c, hc, hmethod⟩
      exact ⟨(k, c), List.mem_filter.mpr ⟨Dict.mem_items.mpr hc, decide_eq_true hmethod⟩, rfl⟩

/-! ## The commit -/

@[simp] theorem setFlags_globalValues (plugins : List String) (b : Bool) :
    (setFlags call plugins b db).globalValues = db.globalValues := by
  unfold setFlags; split <;> rfl

@[simp] theorem setFlags_servicesSettings (plugins : List String) (b : Bool) :
    (setFlags call plugins b db).servicesSettings = db.servicesSettings := by
  unfold setFlags; split <;> rfl

@[simp] theorem setFlags_services (plugins : List String) (b : Bool) :
    (setFlags call plugins b db).services = db.services := by
  unfold setFlags; split <;> rfl

@[simp] theorem setFlags_customConfigs (plugins : List String) (b : Bool) :
    (setFlags call plugins b db).customConfigs = db.customConfigs := by
  unfold setFlags; split <;> rfl

/-- The commit, table by table. -/
theorem commitTables_eq_some {globals : List GlobalKey} {rows : List ServiceKey}
    (h : commitTables plan globals rows = some db') :
    Table.commit CellUpdate.apply plan.session.globalValues plan.globalChanges globals =
        some db'.globalValues ∧
      Table.commit CellUpdate.apply plan.session.servicesSettings plan.serviceChanges rows =
        some db'.servicesSettings ∧
      Table.putAll (Table.updateAll (fun isDraft s => { s with isDraft := isDraft })
          plan.session.services (plan.updatedDrafts.map (·, true))) plan.newServices =
        some db'.services ∧
      db'.customConfigs = plan.session.customConfigs ∧ db'.settings = plan.session.settings ∧
      db'.templateSettings = plan.session.templateSettings := by
  unfold commitTables at h
  obtain ⟨g, hg, h⟩ := Option.bind_eq_some_iff.mp h
  obtain ⟨r, hr, h⟩ := Option.bind_eq_some_iff.mp h
  obtain ⟨s, hs, h⟩ := Option.bind_eq_some_iff.mp h
  cases h
  exact ⟨hg, hr, hs, rfl, rfl, rfl⟩

/-! ## The session -/

@[simp] theorem sessionOf_globalValues : (sessionOf db p).globalValues = db.globalValues := rfl

@[simp] theorem sessionOf_settings : (sessionOf db p).settings = db.settings := rfl

@[simp] theorem sessionOf_templateSettings :
    (sessionOf db p).templateSettings = db.templateSettings := rfl

theorem lookup_sessionOf_servicesSettings (k : ServiceKey) :
    (sessionOf db p).servicesSettings.lookup k =
      if k.1 ∈ p.hardDelete then none else db.servicesSettings.lookup k := by
  show (Table.deleteAll _ _).lookup k = _
  rw [Table.lookup_deleteAll]
  by_cases hk : k.1 ∈ p.hardDelete
  · rw [if_pos hk]
    cases hl : db.servicesSettings.lookup k with
    | none => simp
    | some c =>
      rw [if_pos]
      exact List.mem_filter.mpr
        ⟨List.mem_map.mpr ⟨(k, c), Dict.mem_items.mpr hl, rfl⟩, by simpa using hk⟩
  · rw [if_neg hk, if_neg]
    exact fun hmem => hk (by simpa using (List.mem_filter.mp hmem).2)

theorem lookup_sessionOf_services_isSome (id : String) :
    ((sessionOf db p).services.lookup id).isSome ↔
      (db.services.lookup id).isSome ∧ id ∉ p.hardDelete := by
  show ((Table.deleteAll _ _).lookup id).isSome ↔ _
  rw [Table.lookup_deleteAll, Table.lookup_updateAll]
  by_cases h : id ∈ p.hardDelete <;> simp [h]

/-- The services after the commit: those of the session and the new ones. -/
theorem services_of_commit {globals : List GlobalKey} {rows : List ServiceKey}
    (h : commitTables plan globals rows = some db') (id : String) :
    (db'.services.lookup id).isSome ↔
      (plan.session.services.lookup id).isSome ∨ ∃ s, (id, s) ∈ plan.newServices := by
  rw [(Table.lookup_putAll (commitTables_eq_some h).2.2.1 id).1, Table.lookup_updateAll,
    Option.isSome_or, Option.isSome_map, Bool.or_eq_true]
  refine or_congr Iff.rfl ?_
  rw [Dict.firstOf, Option.isSome_map, List.find?_isSome]
  constructor
  · rintro ⟨⟨id', s⟩, hs, hid⟩
    obtain rfl : id' = id := by simpa using hid
    exact ⟨s, hs⟩
  · rintro ⟨s, hs⟩
    exact ⟨_, hs, by simp⟩

/-! ## The plan -/

/-- The configuration goes through the multisite branch. -/
def IsMultisite (call : Call) : Prop :=
  call.config.items.isEmpty = false ∧ call.skipServiceManagement = false ∧
    ((popped call).lookup "MULTISITE").getD "no" = "yes"

instance (call : Call) : Decidable (IsMultisite call) :=
  inferInstanceAs (Decidable (_ = _ ∧ _ = _ ∧ _ = _))

theorem IsMultisite.lookup_multisite (hm : IsMultisite call) :
    (popped call).lookup "MULTISITE" = some "yes" := by
  have hyes := hm.2.2
  cases hl : (popped call).lookup "MULTISITE" with
  | none => rw [hl] at hyes; exact absurd hyes (by decide)
  | some v => rw [hl] at hyes; exact congrArg some hyes

/-- The services that the call removes. -/
def removedIds (call : Call) (db : Database) : List String :=
  if call.config.items.isEmpty || call.skipServiceManagement then []
  else
    match missingIds call db with
    | none => []
    | some missing => (servicePlan call db missing).hardDelete

/-- A service that is to go is in the database and not in `SERVER_NAME`. -/
theorem missing_spec {missing : List String} (h : missingIds call db = some missing) {id : String}
    (hid : id ∈ missing) :
    (db.services.lookup id).isSome ∧ id ∉ serverNames call.config := by
  have howned : ∀ id, id ∈ (db.services.items.filter fun s =>
      owns call.method s.2.method).map Prod.fst → (db.services.lookup id).isSome := by
    intro id hmem
    obtain ⟨⟨id', s⟩, hs, rfl⟩ := List.mem_map.mp hmem
    exact Option.isSome_iff_exists.mpr ⟨s, Dict.mem_items.mp (List.mem_filter.mp hs).1⟩
  unfold missingIds at h
  simp only at h
  split at h
  · rename_i hempty
    split at h
    · cases h
      exact ⟨howned id hid, by rw [hempty.1]; exact List.not_mem_nil⟩
    · cases h
  · cases h
    obtain ⟨hmem, hnot⟩ := List.mem_filter.mp hid
    exact ⟨howned id hmem, by simpa using hnot⟩

theorem hardDelete_spec {missing : List String} (h : missingIds call db = some missing)
    {id : String} (hid : id ∈ (servicePlan call db missing).hardDelete) :
    (db.services.lookup id).isSome ∧ id ∉ serverNames call.config :=
  missing_spec h (List.mem_filter.mp hid).1

/-- Where a plan comes from. -/
inductive PlanCases (env : Env) (call : Call) (db : Database) (plan : Plan) : Prop where
  | empty (session : plan.session = db) (globalChanges : plan.globalChanges = [])
      (serviceChanges : plan.serviceChanges = []) (isEmpty : call.config.items.isEmpty = true)
  | plain (p : ServicePlan) (session : plan.session = sessionOf db p)
      (globalChanges : plan.globalChanges =
        (lines db.settings (popped call).items).filterMap fun l =>
          (plainChange (plainWork call db p) l).1.map fun c => ((l.setting.id, l.suffix), c))
      (serviceChanges : plan.serviceChanges = []) (notMultisite : ¬ IsMultisite call)
      (hasConfig : call.config.items.isEmpty = false)
      (services : call.skipServiceManagement = true ∧ p = noServicePlan ∨
        call.skipServiceManagement = false ∧
          ∃ missing, missingIds call db = some missing ∧ p = servicePlan call db missing)
  | multisite (missing : List String) (hmissing : missingIds call db = some missing)
      (multisite : IsMultisite call)
      (session : plan.session = sessionOf db (servicePlan call db missing))
      (globalChanges : plan.globalChanges =
        (multisitePlan env call db (servicePlan call db missing)).globalChanges)
      (serviceChanges : plan.serviceChanges =
        (multisitePlan env call db (servicePlan call db missing)).serviceChanges)
      (newServices : plan.newServices =
        (multisitePlan env call db (servicePlan call db missing)).newServices)

theorem plainPlan_eq_ok (h : plainPlan env call db p = .ok plan) :
    plan.session = sessionOf db p ∧
      plan.globalChanges = (lines db.settings (popped call).items).filterMap (fun l =>
        (plainChange (plainWork call db p) l).1.map fun c => ((l.setting.id, l.suffix), c)) ∧
      plan.serviceChanges = [] := by
  unfold plainPlan at h
  simp only at h
  split at h
  · cases h
  · split at h
    · cases h
    · cases h
      refine ⟨rfl, ?_, rfl⟩
      simp only [sessionOf_settings, List.filterMap_map]
      rfl

theorem planOf_cases (h : planOf env call db = .ok plan) : PlanCases env call db plan := by
  unfold planOf at h
  split at h
  · rename_i he
    cases h
    exact .empty rfl rfl rfl he
  · rename_i he
    split at h
    · rename_i hskip
      obtain ⟨h1, h2, h3⟩ := plainPlan_eq_ok h
      exact .plain _ h1 h2 h3 (fun hm => by simp [hm.2.1] at hskip) (by simpa using he)
        (.inl ⟨hskip, rfl⟩)
    · rename_i hskip
      split at h
      · cases h
      · rename_i missing hmissing
        simp only at h
        split at h
        · rename_i hm
          cases h
          exact .multisite missing hmissing ⟨by simpa using he, by simpa using hskip, hm⟩
            rfl rfl rfl rfl
        · rename_i hm
          cases hplain : plainPlan env call db (servicePlan call db missing) with
          | error o => rw [hplain] at h; cases h
          | ok plan' =>
            rw [hplain] at h
            cases h
            obtain ⟨h1, h2, h3⟩ := plainPlan_eq_ok hplain
            exact .plain _ h1 h2 h3 (fun hm' => hm hm'.2.2)
              (by simpa using he) (.inr ⟨by simpa using hskip, missing, hmissing, rfl⟩)

/-- What a call that goes through the multisite branch commits. -/
theorem Commits.multisite (h : Commits env call db plan db') (hm : IsMultisite call) :
    ∃ missing, missingIds call db = some missing ∧
      plan.session = sessionOf db (servicePlan call db missing) ∧
      plan.globalChanges =
        (multisitePlan env call db (servicePlan call db missing)).globalChanges ∧
      plan.serviceChanges =
        (multisitePlan env call db (servicePlan call db missing)).serviceChanges ∧
      plan.newServices = (multisitePlan env call db (servicePlan call db missing)).newServices := by
  cases planOf_cases h.planned with
  | empty _ _ _ he => simp [hm.1] at he
  | plain _ _ _ _ hnot => exact absurd hm hnot
  | multisite missing hmissing _ hs hg hr hn => exact ⟨missing, hmissing, hs, hg, hr, hn⟩

/-- The session of a plan has lost the rows of the removed services. -/
theorem PlanCases.lookup_servicesSettings (h : PlanCases env call db plan) (k : ServiceKey) :
    plan.session.servicesSettings.lookup k =
      if k.1 ∈ removedIds call db then none else db.servicesSettings.lookup k := by
  cases h with
  | empty hs _ _ hempty => rw [hs, removedIds, hempty]; rfl
  | plain p hs _ _ _ hc hp =>
    rw [hs, lookup_sessionOf_servicesSettings]
    rcases hp with ⟨hskip, rfl⟩ | ⟨hskip, missing, hmissing, rfl⟩
    · rw [removedIds, hskip, Bool.or_true]; rfl
    · rw [removedIds, hc, hskip, hmissing]; rfl
  | multisite missing hmissing hm hs =>
    rw [hs, lookup_sessionOf_servicesSettings, removedIds, hm.1, hm.2.1, hmissing]
    rfl

theorem PlanCases.session_globalValues (h : PlanCases env call db plan) :
    plan.session.globalValues = db.globalValues := by
  cases h with
  | empty hs => rw [hs]
  | plain p hs => rw [hs, sessionOf_globalValues]
  | multisite missing _ _ hs => rw [hs, sessionOf_globalValues]

/-! ## The tasks of the pool -/

/-- The tasks that the pool runs: the services that keys are prefixed with, and the global
settings (`none`). -/
def poolTasks (call : Call) (db : Database) : List (Option String) :=
  (configuredServices (popped call) (servicesSet call db)).map some ++ [none]

theorem mem_poolResults {w : Work} {dbIds services : List String} {r : TaskResult} :
    r ∈ poolResults env w dbIds services ↔
      (∃ s ∈ configuredServices w.config services, env.raises (some s) = false ∧
        r = processService w dbIds s (serviceConfig w.config services s)) ∨
      (env.raises none = false ∧ r = processGlobalSettings w (globalConfig w.config services)) := by
  unfold poolResults
  rw [(env.asCompleted_perm _).mem_iff, List.mem_append, List.mem_map]
  refine or_congr ?_ ?_
  · constructor
    · rintro ⟨s, hs, rfl⟩
      obtain ⟨hs, hr⟩ := List.mem_filter.mp hs
      exact ⟨s, hs, by simpa using hr, rfl⟩
    · rintro ⟨s, hs, hr, rfl⟩
      exact ⟨s, List.mem_filter.mpr ⟨hs, by simp [hr]⟩, rfl⟩
  · cases env.raises none <;> simp

/-- The lines of a configuration are its items that name a setting. -/
theorem mem_lines {settings : Catalog} {config : List (String × String)} {l : Line} :
    l ∈ lines settings config ↔ (l.originalKey, l.value) ∈ config ∧
      settings.find l.setting.id = some l.setting ∧
      splitKey l.originalKey = (l.setting.id, l.suffix) := by
  rw [lines, List.mem_filterMap]
  constructor
  · rintro ⟨⟨key, value⟩, hmem, hl⟩
    obtain ⟨s, hs, rfl⟩ := Option.map_eq_some_iff.mp hl
    have hid := (Catalog.find_eq_some.mp hs).2
    exact ⟨hmem, by rw [hid]; exact hs, by rw [hid]⟩
  · rintro ⟨hmem, hs, hsplit⟩
    refine ⟨_, hmem, ?_⟩
    simp only [hsplit, hs, Option.map_some]

/-- A service that some line belongs to is one that keys are prefixed with. -/
theorem configured_of_line {config : Dict String String} {services : List String}
    {settings : Catalog} {service : String} {l : Line}
    (hl : l ∈ lines settings (serviceConfig config services service)) :
    service ∈ configuredServices config services := by
  obtain ⟨e, he, hmatch⟩ := List.mem_filterMap.mp (mem_lines.mp hl).1
  refine List.mem_dedup.mpr (List.mem_filterMap.mpr ⟨e, he, ?_⟩)
  cases hf : firstService services e.1 with
  | none => rw [hf] at hmatch; cases hmatch
  | some sr =>
    simp only [hf] at hmatch
    split at hmatch
    · rename_i hs
      rw [Option.map_some, hs]
    · cases hmatch

/-- A change to a row of `Services_settings` comes from one line of one task. -/
theorem mem_serviceChanges {k : ServiceKey} {c : RowChange} :
    (k, c) ∈ (multisitePlan env call db p).serviceChanges ↔
      k.1 ∈ configuredServices (popped call) (servicesSet call db) ∧
        env.raises (some k.1) = false ∧
        ∃ l ∈ lines db.settings (serviceConfig (popped call) (servicesSet call db) k.1),
          k.2 = (l.setting.id, l.suffix) ∧
          (serviceChange (poolWork call db p) (serviceTemplate (poolWork call db p)
            (serviceConfig (popped call) (servicesSet call db) k.1)) k.1 l).1 = some c := by
  show (k, c) ∈ List.flatMap _ (poolResults _ _ _ _) ↔ _
  rw [List.mem_flatMap]
  constructor
  · rintro ⟨r, hr, hk⟩
    rcases mem_poolResults.mp hr with ⟨s, hs, hraise, rfl⟩ | ⟨-, rfl⟩
    · obtain ⟨e, he, hc⟩ := List.mem_filterMap.mp hk
      obtain ⟨l, hl, rfl⟩ := List.mem_map.mp he
      obtain ⟨c', hc', hkc⟩ := Option.map_eq_some_iff.mp hc
      obtain ⟨rfl, rfl⟩ := Prod.mk.inj hkc
      exact ⟨hs, hraise, l, hl, rfl, hc'⟩
    · simp [processGlobalSettings] at hk
  · rintro ⟨hs, hraise, l, hl, hk, hc⟩
    refine ⟨_, mem_poolResults.mpr (.inl ⟨k.1, hs, hraise, rfl⟩), ?_⟩
    refine List.mem_filterMap.mpr ⟨_, List.mem_map.mpr ⟨l, hl, rfl⟩, ?_⟩
    obtain ⟨service, key⟩ := k
    cases hk
    exact Option.map_eq_some_iff.mpr ⟨c, hc, rfl⟩

/-- A change to a row of `Global_values` comes from one line of the task of the global settings. -/
theorem mem_globalChanges {k : GlobalKey} {c : RowChange} :
    (k, c) ∈ (multisitePlan env call db p).globalChanges ↔
      env.raises none = false ∧
        ∃ l ∈ lines db.settings (globalConfig (popped call) (servicesSet call db)),
          k = (l.setting.id, l.suffix) ∧ (globalChange (poolWork call db p) l).1 = some c := by
  show (k, c) ∈ List.flatMap _ (poolResults _ _ _ _) ↔ _
  rw [List.mem_flatMap]
  constructor
  · rintro ⟨r, hr, hk⟩
    rcases mem_poolResults.mp hr with ⟨s, -, -, rfl⟩ | ⟨hraise, rfl⟩
    · simp [processService] at hk
    · obtain ⟨e, he, hc⟩ := List.mem_filterMap.mp hk
      obtain ⟨l, hl, rfl⟩ := List.mem_map.mp he
      obtain ⟨c', hc', hkc⟩ := Option.map_eq_some_iff.mp hc
      obtain ⟨rfl, rfl⟩ := Prod.mk.inj hkc
      exact ⟨hraise, l, hl, rfl, hc'⟩
  · rintro ⟨hraise, l, hl, rfl, hc⟩
    refine ⟨_, mem_poolResults.mpr (.inr ⟨hraise, rfl⟩), ?_⟩
    exact List.mem_filterMap.mpr ⟨_, List.mem_map.mpr ⟨l, hl, rfl⟩,
      Option.map_eq_some_iff.mpr ⟨c, hc, rfl⟩⟩

theorem mem_servicesSet {id : String} (h : id ∈ servicesSet call db) :
    id ∈ serverNames call.config ∨ (db.services.lookup id).isSome := by
  rcases List.mem_append.mp h with hmem | hmem
  · exact .inl hmem
  · obtain ⟨⟨id', s⟩, hs, rfl⟩ := List.mem_map.mp hmem
    exact .inr (Option.isSome_iff_exists.mpr ⟨s, Dict.mem_items.mp (List.mem_filter.mp hs).1⟩)

/-- A service that keys are given to is one of the call or one of the database. -/
theorem mem_of_configured {id : String}
    (h : id ∈ configuredServices (popped call) (servicesSet call db)) :
    id ∈ serverNames call.config ∨ (db.services.lookup id).isSome := by
  obtain ⟨e, -, he⟩ := List.mem_filterMap.mp (List.mem_dedup.mp h)
  obtain ⟨⟨id', rest⟩, hf, rfl⟩ := Option.map_eq_some_iff.mp he
  exact mem_servicesSet (firstService_eq_some.mp hf).1

/-- The call may have keys for the service, and neither removes it nor makes it a draft. -/
structure KeptService (call : Call) (db : Database) (id : String) : Prop where
  known : id ∈ servicesSet call db
  notRemoved : id ∉ removedIds call db
  notDrafted : id ∉ draftedServiceIds call db

theorem KeptService.notMem_hardDelete {id : String} (h : KeptService call db id)
    (hm : IsMultisite call) {missing : List String} (hmissing : missingIds call db = some missing) :
    id ∉ (servicePlan call db missing).hardDelete := by
  have hnot := h.notRemoved
  rw [removedIds, hm.1, hm.2.1, hmissing] at hnot
  exact hnot

/-- The services of the call are kept. -/
theorem keptService_of_mem {id : String} (h : id ∈ serverNames call.config) :
    KeptService call db id where
  known := List.mem_append_left _ h
  notRemoved := by
    unfold removedIds
    split
    · exact List.not_mem_nil
    · split
      · exact List.not_mem_nil
      · rename_i hmissing
        exact fun hmem => (hardDelete_spec hmissing hmem).2 h
  notDrafted := by
    unfold draftedServiceIds
    split
    · exact fun hmem => by simpa [h] using (List.mem_filter.mp hmem).2
    · exact List.not_mem_nil

/-- A service that the call names and the database does not have is added with its first line. -/
theorem newService_of_line {p : ServicePlan} {id : String} {l : Line}
    (hid : id ∈ configuredServices (popped call) (servicesSet call db))
    (hraise : env.raises (some id) = false)
    (hl : l ∈ lines db.settings (serviceConfig (popped call) (servicesSet call db) id))
    (hnew : db.services.lookup id = none) :
    ∃ s, (id, s) ∈ (multisitePlan env call db p).newServices := by
  by_cases hdraft : id ∈ p.newDrafts
  · exact ⟨_, List.mem_append_left _ (List.mem_map.mpr ⟨id, hdraft, rfl⟩)⟩
  · refine ⟨⟨call.method, p.drafts.contains id⟩, List.mem_append_right _ (List.mem_flatMap.mpr
      ⟨_, mem_poolResults.mpr (.inl ⟨id, hid, hraise, rfl⟩), ?_⟩)⟩
    have hne : (lines db.settings
        (serviceConfig (popped call) (servicesSet call db) id)).isEmpty = false := by
      cases hls : lines db.settings (serviceConfig (popped call) (servicesSet call db) id) with
      | nil => rw [hls] at hl; cases hl
      | cons l ls => rfl
    have hnot : (db.services.items.map Prod.fst ++ p.newDrafts).contains id = false := by
      rw [List.contains_eq_mem, decide_eq_false_iff_not, List.mem_append, not_or]
      refine ⟨fun hmem => ?_, hdraft⟩
      obtain ⟨⟨id', s⟩, hs, rfl⟩ := List.mem_map.mp hmem
      rw [Dict.mem_items.mp hs] at hnew
      cases hnew
    simp only [processService, poolWork, sessionOf_settings, hne, hnot, Bool.not_false,
      Bool.and_self, if_true]
    exact List.mem_singleton.mpr rfl

end

end BunkerWeb.Db
