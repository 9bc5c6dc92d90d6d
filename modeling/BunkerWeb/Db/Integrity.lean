import BunkerWeb.Db.Commit
import BunkerWeb.Lib.Run

/-!
# Referential integrity

The database does not enforce its foreign keys, so that the rows of a service refer to a service
that exists only because `save_config` keeps it so. It does as long as no call holds a key of a
service that it removes: the services that keys are given to are read before the removal, and a
removed one gets its rows but not its service (`orphan_of_removed_service`).
-/

namespace BunkerWeb.Db

open Lib

/-- Every row of `Services_settings` and every custom configuration of a service refers to a
service that exists. -/
structure Integrity (db : Database) : Prop where
  rows : ∀ r ∈ db.servicesSettings.items, (db.services.lookup r.1.1).isSome
  configs : ∀ c ∈ db.customConfigs, ∀ id ∈ c.serviceId, (db.services.lookup id).isSome

/-- If the call commits, its configuration holds no key of a service that it removes, other than
with a value that gets no row. -/
def NoOrphanKey (env : Env) (call : Call) (db : Database) : Prop :=
  ∀ plan db', Commits env call db plan db' → IsMultisite call →
    ∀ missing, missingIds call db = some missing →
      let p := servicePlan call db missing
      ∀ id ∈ p.hardDelete, env.raises (some id) = false →
        let config := serviceConfig (popped call) (servicesSet call db) id
        ∀ l ∈ lines db.settings config,
          serviceIsDefault (poolWork call db p) (serviceTemplate (poolWork call db p) config) l =
            true

section

variable {env : Env} {call : Call} {db db' : Database} {plan : Plan}

/-- A change to a row of a removed service is a new row with a value that is no default. -/
theorem serviceChange_of_removed {p : ServicePlan} {template : TemplateVar} {id : String}
    {l : Line} (hid : id ∈ p.hardDelete)
    (hdefault : serviceIsDefault (poolWork call db p) template l = true) :
    (serviceChange (poolWork call db p) template id l).1 = none := by
  have hnone : (poolWork call db p).session.servicesSettings.lookup
      (id, l.setting.id, l.suffix) = none := by
    show (sessionOf db p).servicesSettings.lookup _ = none
    rw [lookup_sessionOf_servicesSettings, if_pos hid]
  simp only [serviceChange, hnone, rowChange, hdefault, if_true]

/-- The services that a committed call leaves contain those of its session. -/
theorem Commits.services (h : Commits env call db plan db') {id : String}
    (hid : (plan.session.services.lookup id).isSome) : (db'.services.lookup id).isSome :=
  (services_of_commit h.tables id).mpr (.inl hid)

/-- A row that a committed call leaves was in the session or is put by a change. -/
theorem Commits.row (h : Commits env call db plan db') {k : ServiceKey} {c : Cell}
    (hk : db'.servicesSettings.lookup k = some c) :
    (plan.session.servicesSettings.lookup k).isSome ∨
      ∃ v, (k, Change.put v) ∈ plan.serviceChanges :=
  Table.isSome_or_put_of_commit _ (commitTables_eq_some h.tables).2.1 hk

/-- The services and the custom configurations of a session fit together. -/
theorem Integrity.session (h : Integrity db) (p : ServicePlan) : Integrity (sessionOf db p) where
  rows := by
    rintro ⟨k, c⟩ hr
    have hk := Dict.mem_items.mp hr
    rw [lookup_sessionOf_servicesSettings] at hk
    split at hk
    · cases hk
    · rename_i hnot
      exact (lookup_sessionOf_services_isSome k.1).mpr
        ⟨h.rows (k, c) (Dict.mem_items.mpr hk), hnot⟩
  configs := by
    intro c hc id hid
    obtain ⟨c', hc', rfl⟩ := List.mem_map.mp hc
    obtain ⟨hmem, hnot⟩ := List.mem_filter.mp hc'
    have hid' : c'.serviceId = some id := by split at hid <;> exact hid
    rw [hid'] at hnot
    exact (lookup_sessionOf_services_isSome id).mpr
      ⟨h.configs c' hmem id hid', by simpa using hnot⟩

/-- A plan's session keeps the integrity of the database. -/
theorem PlanCases.session_integrity (h : PlanCases env call db plan) (hdb : Integrity db) :
    Integrity plan.session := by
  cases h with
  | empty hs => rw [hs]; exact hdb
  | plain p hs => rw [hs]; exact hdb.session p
  | multisite missing _ _ hs => rw [hs]; exact hdb.session _

theorem saveConfig_integrity (h : Integrity db) (hok : NoOrphanKey env call db) :
    Integrity (saveConfig env call db).2 := by
  rcases saveConfig_cases env call db with ⟨plan, db', plugins, tc, hcom, heq⟩ | ⟨hsame, -⟩
  · have hcases := planOf_cases hcom.planned
    have hsession := hcases.session_integrity h
    rw [heq]
    refine ⟨?_, ?_⟩
    · rintro ⟨k, c⟩ hr
      rw [setFlags_servicesSettings] at hr
      rw [setFlags_services]
      rcases hcom.row (Dict.mem_items.mp hr) with hk | ⟨v, hput⟩
      · obtain ⟨c', hc'⟩ := Option.isSome_iff_exists.mp hk
        exact hcom.services (hsession.rows (k, c') (Dict.mem_items.mpr hc'))
      · -- A new row: only the multisite branch has one.
        cases hcases with
        | empty _ _ hnil => rw [hnil] at hput; cases hput
        | plain _ _ _ hnil => rw [hnil] at hput; cases hput
        | multisite missing hmissing hmulti hs _ hsc hns =>
          rw [hsc] at hput
          obtain ⟨hconf, hraise, l, hl, -, hchange⟩ := mem_serviceChanges.mp hput
          have hnot : k.1 ∉ (servicePlan call db missing).hardDelete := fun hmem => by
            have := serviceChange_of_removed hmem
              (hok plan db' hcom hmulti missing hmissing k.1 hmem hraise l hl)
            rw [hchange] at this
            cases this
          cases hold : db.services.lookup k.1 with
          | some s =>
            refine hcom.services ?_
            rw [hs]
            exact (lookup_sessionOf_services_isSome k.1).mpr ⟨by simp [hold], hnot⟩
          | none =>
            obtain ⟨s, hs'⟩ := newService_of_line (p := servicePlan call db missing) hconf hraise
              hl hold
            exact (services_of_commit hcom.tables k.1).mpr (.inr ⟨s, by rw [hns]; exact hs'⟩)
    · intro c hc id hid
      rw [setFlags_customConfigs, (commitTables_eq_some hcom.tables).2.2.2.1] at hc
      rw [setFlags_services]
      exact hcom.services (hsession.configs c hc id hid)
  · rw [hsame]; exact h

end

/-- One call, for a run of calls. -/
def callStep (db : Database) (c : Env × Call) : Database := (saveConfig c.1 c.2 db).2

/-- **Integrity over runs.** In every run of calls of any methods from a database with integrity,
each of which meets `NoOrphanKey`, every database has integrity. -/
theorem integrity_of_run {db : Database} (h : Integrity db) {calls : List (Env × Call)}
    (hc : Run.Meets callStep (fun db c => NoOrphanKey c.1 c.2 db) db calls) :
    ∀ pre post, calls = pre ++ post → Integrity (Run.run callStep db pre) := by
  rintro pre post rfl
  exact Run.invariant_of_append (fun _ _ hdb hok => saveConfig_integrity hdb hok) h hc

/-- Two services of the web interface. -/
def twoServices : Database := site [("old", ⟨.ui, false⟩), ("www", ⟨.ui, false⟩)] []
  [(("old", "USE_GZIP", 0), ⟨"yes", "", .ui⟩)]

/-- A call that drops a service, and its keys with it. -/
def droppingCall : Env × Call := (quietEnv, multisiteCall .ui [("SERVER_NAME", "www")])

theorem integrity_of_dropped_service : Integrity (Run.run callStep twoServices [droppingCall]) := by
  have hmeets : Run.Meets callStep (fun db c => NoOrphanKey c.1 c.2 db) twoServices
      [droppingCall] := by
    refine ⟨?_, trivial⟩
    intro plan db' _ _ missing hmissing p id hid _ config l hl
    obtain rfl : missing = ["old"] := Option.some.inj (hmissing.symm.trans (by decide))
    obtain rfl : id = "old" := by
      have hdelete : p.hardDelete = ["old"] := by decide
      rw [hdelete] at hid
      exact List.mem_singleton.mp hid
    have hnil : lines twoServices.settings config = [] := by decide
    rw [hnil] at hl
    cases hl
  exact integrity_of_run ⟨by decide, by decide⟩ hmeets _ [] (List.append_nil _).symm

/-- A call that drops a service but still has one of its keys: the key gets a row, and its service
is gone. -/
theorem orphan_of_removed_service :
    Integrity twoServices ∧
      (saveConfig quietEnv (multisiteCall .ui [("SERVER_NAME", "www"), ("old_USE_GZIP", "yes")])
        twoServices).1 = .plugins ["general", "gzip", "customcert"] ∧
      ¬ Integrity (callStep twoServices
        (quietEnv, multisiteCall .ui [("SERVER_NAME", "www"), ("old_USE_GZIP", "yes")])) := by
  refine ⟨⟨by decide, by decide⟩, by decide, fun h => ?_⟩
  exact absurd h.rows (by decide)

end BunkerWeb.Db
