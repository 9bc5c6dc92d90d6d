import BunkerWeb.Db.Commit
import BunkerWeb.Db.ConfigsUnique

/-!
# The tables with their custom configurations in full

`save_config` reads of a custom configuration its service and its draft flag, and that is all that a
`Database` has of it; `save_custom_configs` is about the rest of the row. A `Store` has both, and the
two functions are steps of it: `seen_saveConfig` says that what `save_config` does to the rows is
what it does to the part that it sees.
-/

namespace BunkerWeb.Db

open Lib

/-- What `save_config` sees of a row. -/
def CustomConfigs.Row.seen {Data Digest : Type} (r : CustomConfigs.Row Data Digest) :
    CustomConfig :=
  ⟨r.key.1, r.key.2.1, r.key.2.2, r.isDraft⟩

structure Store (Data Digest : Type) where
  db : Database
  configs : List (CustomConfigs.Row Data Digest)
  seen : db.customConfigs = configs.map CustomConfigs.Row.seen
  unique : CustomConfigs.Unique (CustomConfigs.ofServices configs)

/-! ## `save_config` -/

/-- The call gets to its commit, and the database takes it. -/
def committed (env : Env) (call : Call) (db : Database) : Bool :=
  !env.readonly && !wipesGlobals call db && !wipesService call db && env.commitError.isNone &&
    match planOf env call db with
    | .error _ => false
    | .ok plan =>
      (commitTables plan (globalsToDelete call db) (serviceRowsToDelete call db)).isSome

/-- What the call makes of the services, if it gets to them. -/
def plannedServices (call : Call) (db : Database) : ServicePlan :=
  if call.config.items.isEmpty || call.skipServiceManagement then noServicePlan
  else
    match missingIds call db with
    | none => noServicePlan
    | some missing => servicePlan call db missing

/-- The rows after the statements that run at once. -/
def sessionConfigs {Data Digest : Type} (p : ServicePlan)
    (rows : List (CustomConfigs.Row Data Digest)) : List (CustomConfigs.Row Data Digest) :=
  (rows.filter fun r => !r.key.1.any p.hardDelete.contains).map fun r =>
    if r.key.1.any p.draftable.contains then { r with isDraft := true } else r

/-- The rows after the call. -/
def configsAfter {Data Digest : Type} (env : Env) (call : Call) (db : Database)
    (rows : List (CustomConfigs.Row Data Digest)) : List (CustomConfigs.Row Data Digest) :=
  if committed env call db then sessionConfigs (plannedServices call db) rows else rows

section

variable {env : Env} {call : Call} {db db' : Database} {plan : Plan} {Data Digest : Type}
  {rows : List (CustomConfigs.Row Data Digest)}

theorem committed_iff :
    committed env call db = true ↔ ∃ plan db', Commits env call db plan db' := by
  constructor
  · intro h
    simp only [committed, Bool.and_eq_true, Bool.not_eq_true', Option.isNone_iff_eq_none] at h
    obtain ⟨⟨⟨⟨hro, hg⟩, hs⟩, he⟩, hplan⟩ := h
    cases hp : planOf env call db with
    | error o => simp [hp] at hplan
    | ok plan =>
      rw [hp] at hplan
      obtain ⟨db', hdb'⟩ := Option.isSome_iff_exists.mp hplan
      exact ⟨plan, db', hro, hg, hs, hp, he, hdb'⟩
  · rintro ⟨plan, db', h⟩
    simp only [committed, h.writable, h.keepsGlobals, h.keepsService, h.accepted, h.planned,
      h.tables, Option.isNone_none, Option.isSome_some, Bool.not_false, Bool.and_self]

/-- No plan for the services leaves the custom configurations alone. -/
theorem sessionOf_noServicePlan (db : Database) :
    (sessionOf db noServicePlan).customConfigs = db.customConfigs := by
  have hno : ∀ c : CustomConfig, c.serviceId.any ([] : List String).contains = false := fun c => by
    cases c.serviceId <;> rfl
  have hall : (db.customConfigs.filter fun c =>
      !c.serviceId.any noServicePlan.hardDelete.contains) = db.customConfigs :=
    List.filter_eq_self.mpr fun c _ => by rw [noServicePlan, hno]; rfl
  show (db.customConfigs.filter _).map _ = _
  rw [hall]
  refine (List.map_congr_left fun c _ => ?_).trans (List.map_id _)
  rw [noServicePlan, hno]
  rfl

/-- The session of a plan has the services as they are planned. -/
theorem session_customConfigs (h : planOf env call db = .ok plan) :
    plan.session.customConfigs = (sessionOf db (plannedServices call db)).customConfigs := by
  cases planOf_cases h with
  | empty hs _ _ hempty =>
    rw [hs, plannedServices, hempty]
    exact (sessionOf_noServicePlan db).symm
  | plain p hs _ _ _ hc hp =>
    rcases hp with ⟨hskip, rfl⟩ | ⟨hskip, missing, hmissing, rfl⟩
    · rw [hs, plannedServices, hskip, Bool.or_true]
      rfl
    · rw [hs, plannedServices, hc, hskip, hmissing]
      rfl
  | multisite missing hmissing hm hs =>
    rw [hs, plannedServices, hm.1, hm.2.1, hmissing]
    rfl

/-- What the session does to the rows is what it does to the part of them that it sees. -/
theorem seen_sessionConfigs (p : ServicePlan)
    (h : db.customConfigs = rows.map CustomConfigs.Row.seen) :
    (sessionOf db p).customConfigs = (sessionConfigs p rows).map CustomConfigs.Row.seen := by
  show (db.customConfigs.filter _).map _ = _
  rw [h, sessionConfigs, List.filter_map, List.map_map, List.map_map]
  refine List.map_congr_left fun r _ => ?_
  show (if r.key.1.any p.draftable.contains then { r.seen with isDraft := true } else r.seen) =
    CustomConfigs.Row.seen (if r.key.1.any p.draftable.contains then _ else r)
  split
  · rfl
  · rfl

theorem seen_saveConfig (env : Env) (call : Call)
    (h : db.customConfigs = rows.map CustomConfigs.Row.seen) :
    (saveConfig env call db).2.customConfigs =
      (configsAfter env call db rows).map CustomConfigs.Row.seen := by
  rcases saveConfig_cases env call db with ⟨plan, db', plugins, b, hcom, heq⟩ | ⟨hsame, hnot⟩
  · rw [heq, setFlags_customConfigs, (commitTables_eq_some hcom.tables).2.2.2.1,
      session_customConfigs hcom.planned, seen_sessionConfigs _ h, configsAfter,
      if_pos (committed_iff.mpr ⟨plan, db', hcom⟩)]
  · rw [hsame, h, configsAfter, if_neg fun hc => ?_]
    obtain ⟨plan, db', hcom⟩ := committed_iff.mp hc
    exact hnot plan db' hcom

/-- Only the flags change, so that the keys stay different. -/
theorem unique_configsAfter (env : Env) (call : Call) (db : Database)
    (h : CustomConfigs.Unique (CustomConfigs.ofServices rows)) :
    CustomConfigs.Unique (CustomConfigs.ofServices (configsAfter env call db rows)) := by
  unfold configsAfter
  split
  · have hkeys : (CustomConfigs.ofServices (sessionConfigs (plannedServices call db) rows)).map
        CustomConfigs.Row.key = (CustomConfigs.ofServices (rows.filter fun r =>
          !r.key.1.any (plannedServices call db).hardDelete.contains)).map
            CustomConfigs.Row.key := by
      have hkey : ∀ r : CustomConfigs.Row Data Digest,
          (if r.key.1.any (plannedServices call db).draftable.contains then
            { r with isDraft := true } else r).key = r.key := fun r => by
        split
        · rfl
        · rfl
      rw [sessionConfigs, CustomConfigs.ofServices, CustomConfigs.ofServices, List.filter_map,
        List.map_map]
      simp only [Function.comp_def, hkey]
    unfold CustomConfigs.Unique
    rw [hkeys]
    refine List.Nodup.sublist ?_ h
    exact (List.filter_sublist.filter _).map _
  · exact h

end

/-- `save_config`. -/
def Store.saveConfig {Data Digest : Type} (env : Env) (call : Call) (st : Store Data Digest) :
    Store Data Digest where
  db := (Db.saveConfig env call st.db).2
  configs := configsAfter env call st.db st.configs
  seen := seen_saveConfig env call st.seen
  unique := unique_configsAfter env call st.db st.unique

/-! ## `save_custom_configs` -/

section

variable {Data Digest : Type} [DecidableEq Digest]

theorem unique_saveCustomConfigs (hash : Data → Digest) (env : CustomConfigs.Env Data Digest)
    {rows : List (CustomConfigs.Row Data Digest)} (given : List (CustomConfigs.Given Data Digest))
    (method : Method) (disableCleanup : Bool)
    (h : CustomConfigs.Unique (CustomConfigs.ofServices rows)) :
    CustomConfigs.Unique (CustomConfigs.ofServices
      (CustomConfigs.saveCustomConfigs hash env rows given method disableCleanup).2) := by
  have hs : CustomConfigs.Saved env rows given _
      (CustomConfigs.saveCustomConfigs hash env rows given method disableCleanup) :=
    CustomConfigs.saveCustomConfigs_cases hash env given
  generalize CustomConfigs.saveCustomConfigs hash env rows given method disableCleanup = result
    at hs ⊢
  cases hs with
  | refused => exact h
  | taken htaken => exact env.unique _ htaken

/-- `save_custom_configs`. -/
def Store.saveCustomConfigs (hash : Data → Digest) (env : CustomConfigs.Env Data Digest)
    (given : List (CustomConfigs.Given Data Digest)) (method : Method) (disableCleanup : Bool)
    (st : Store Data Digest) : Store Data Digest where
  db := { st.db with
    customConfigs :=
      (CustomConfigs.saveCustomConfigs hash env st.configs given method disableCleanup).2.map
        CustomConfigs.Row.seen }
  configs := (CustomConfigs.saveCustomConfigs hash env st.configs given method disableCleanup).2
  seen := rfl
  unique := unique_saveCustomConfigs hash env given method disableCleanup st.unique

end

end BunkerWeb.Db
