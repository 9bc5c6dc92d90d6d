import BunkerWeb.Db.Commit

/-!
# Atomicity

An exception in a task of the pool is only logged: the tasks that complete and the statements that
ran before are committed all the same. `atomic_iff` says that this is the one way in which a call
that raises changes the database: the branch that is not multisite lets the exception through, and
a refused commit is rolled back and reported.
-/

namespace BunkerWeb.Db

open Lib

/-- The caller is told that something went wrong. -/
def Outcome.IsError : Outcome → Prop
  | .error _ => True
  | .raised _ => True
  | .plugins _ => False

/-- The call gets past its checks to the settings of its configuration. -/
structure GetsToWork (env : Env) (call : Call) (db : Database) : Prop where
  writable : env.readonly = false
  keepsGlobals : wipesGlobals call db = false
  keepsService : wipesService call db = false
  hasConfig : call.config.items.isEmpty = false
  hasServices : call.skipServiceManagement = true ∨ (missingIds call db).isSome

/-- The processing of a service (`some`) or of the global settings (`none`) raises in the call. -/
def Raises (env : Env) (call : Call) (db : Database) : Prop :=
  GetsToWork env call db ∧
    ((IsMultisite call ∧ ∃ t ∈ poolTasks call db, env.raises t = true) ∨
      (¬ IsMultisite call ∧ env.raises none = true))

/-- If processing raises, the call reports an error and leaves the four tables as they were. -/
def AtomicOnError (env : Env) (call : Call) (db : Database) : Prop :=
  Raises env call db →
    (saveConfig env call db).1.IsError ∧
    (saveConfig env call db).2.services = db.services ∧
    (saveConfig env call db).2.servicesSettings = db.servicesSettings ∧
    (saveConfig env call db).2.globalValues = db.globalValues ∧
    (saveConfig env call db).2.customConfigs = db.customConfigs

section

variable {env : Env} {call : Call} {db db' : Database} {plan : Plan}

theorem Commits.outcome (h : Commits env call db plan db') :
    ¬ (saveConfig env call db).1.IsError := by
  rcases saveConfig_cases env call db with ⟨_, _, _, _, -, heq⟩ | ⟨-, hnone⟩
  · rw [heq]; exact id
  · exact absurd h (hnone plan db')

/-- A call that gets to work and has no plan reports what went wrong. -/
theorem outcome_of_plan_error (h : GetsToWork env call db) {o : Outcome}
    (hp : planOf env call db = .error o) : saveConfig env call db = (o, db) := by
  unfold saveConfig
  simp only [h.writable, h.keepsGlobals, h.keepsService, Bool.false_eq_true, if_false, hp]

/-- A call with a plan commits or reports what went wrong. -/
theorem outcome_of_plan_ok (h : GetsToWork env call db) (hp : planOf env call db = .ok plan)
    (hno : ∀ db', ¬ Commits env call db plan db') : (saveConfig env call db).1.IsError := by
  unfold saveConfig
  simp only [h.writable, h.keepsGlobals, h.keepsService, Bool.false_eq_true, if_false, hp]
  cases he : env.commitError with
  | some m => trivial
  | none =>
    simp only
    cases ht : commitTables plan (globalsToDelete call db) (serviceRowsToDelete call db) with
    | none => trivial
    | some db' =>
      exact absurd ⟨h.writable, h.keepsGlobals, h.keepsService, hp, he, ht⟩ (hno db')

/-- An exception in the branch that is not multisite leaves the call. -/
theorem plainPlan_raises {p : ServicePlan} (h : env.raises none = true) :
    ∃ o, plainPlan env call db p = .error o ∧ o.IsError := by
  unfold plainPlan
  simp only [h, if_true]
  split
  · exact ⟨_, rfl, trivial⟩
  · exact ⟨_, rfl, trivial⟩

theorem planOf_raises (hw : GetsToWork env call db) (hnot : ¬ IsMultisite call)
    (h : env.raises none = true) : ∃ o, planOf env call db = .error o ∧ o.IsError := by
  unfold planOf
  simp only [hw.hasConfig, Bool.false_eq_true, if_false]
  split
  · exact plainPlan_raises h
  · rename_i hskip
    have hskip' : call.skipServiceManagement = false := by simpa using hskip
    have hsome := hw.hasServices.resolve_left hskip
    obtain ⟨missing, hmissing⟩ := Option.isSome_iff_exists.mp hsome
    rw [hmissing]
    have hm : ((popped call).lookup "MULTISITE").getD "no" ≠ "yes" := fun hyes =>
      hnot ⟨hw.hasConfig, hskip', hyes⟩
    obtain ⟨o, ho, herr⟩ := @plainPlan_raises env call db
      (servicePlan call db missing) h
    simp only [hm, if_false, ho]
    exact ⟨o, rfl, herr⟩

/-- The multisite branch always has a plan. -/
theorem planOf_multisite (hw : GetsToWork env call db) (hm : IsMultisite call) :
    ∃ plan, planOf env call db = .ok plan := by
  unfold planOf
  simp only [hw.hasConfig, hm.2.1, Bool.false_eq_true, if_false]
  have hsome := hw.hasServices.resolve_left (by simp [hm.2.1])
  obtain ⟨missing, hmissing⟩ := Option.isSome_iff_exists.mp hsome
  rw [hmissing]
  simp only [hm.2.2, if_true]
  exact ⟨_, rfl⟩

end

/-- **Atomicity.** For every environment, call and database: a call in which processing raises
reports an error and changes none of the four tables, unless the call is multisite, one of the
tasks of its pool raises, and the commit goes through. -/
theorem atomic_iff (env : Env) (call : Call) (db : Database) :
    AtomicOnError env call db ↔
      ¬ (GetsToWork env call db ∧ IsMultisite call ∧
        (∃ t ∈ poolTasks call db, env.raises t = true) ∧
        ∃ plan db', Commits env call db plan db') := by
  constructor
  · rintro h ⟨hw, hm, hraise, plan, db', hcom⟩
    exact hcom.outcome (h ⟨hw, .inl ⟨hm, hraise⟩⟩).1
  · rintro h ⟨hw, hcase⟩
    have hno : ∀ plan db', ¬ Commits env call db plan db' := by
      intro plan db' hcom
      rcases hcase with ⟨hm, hraise⟩ | ⟨hnot, hraise⟩
      · exact h ⟨hw, hm, hraise, plan, db', hcom⟩
      · obtain ⟨o, ho, -⟩ := planOf_raises hw hnot hraise
        rw [hcom.planned] at ho
        cases ho
    have hsame : (saveConfig env call db).2 = db := by
      rcases saveConfig_cases env call db with ⟨plan, db', _, _, hcom, -⟩ | ⟨hsame, -⟩
      · exact absurd hcom (hno plan db')
      · exact hsame
    refine ⟨?_, by rw [hsame], by rw [hsame], by rw [hsame], by rw [hsame]⟩
    cases hp : planOf env call db with
    | ok plan => exact outcome_of_plan_ok hw hp (hno plan)
    | error o =>
      rw [outcome_of_plan_error hw hp]
      rcases hcase with ⟨hm, -⟩ | ⟨hnot, hraise⟩
      · obtain ⟨plan, hok⟩ := planOf_multisite hw hm
        rw [hok] at hp
        cases hp
      · obtain ⟨o', ho', herr⟩ := planOf_raises hw hnot hraise
        rw [ho'] at hp
        cases hp
        exact herr

/-- The environment in which the processing of the global settings raises. -/
def failingEnv : Env := { quietEnv with raises := fun t => t.isNone }

/-- The task of the global settings raises in a call that removes a service: the caller is told
that all went well, the service and its rows are gone, and the global settings are not stored. -/
theorem half_saved_call :
    let call := multisiteCall .ui [("SERVER_NAME", "www"), ("USE_GZIP", "yes")]
    let db := site [("old", ⟨.ui, false⟩), ("www", ⟨.ui, false⟩)] []
      [(("old", "USE_GZIP", 0), ⟨"yes", "", .ui⟩)]
    ¬ AtomicOnError failingEnv call db := by
  intro call db h
  have hraises : Raises failingEnv call db :=
    ⟨⟨by decide, by decide, by decide, by decide, .inr (by decide)⟩,
      .inl ⟨⟨by decide, by decide, by decide⟩, none, by decide, by decide⟩⟩
  have hrows := (h hraises).2.2.1
  exact absurd (congrArg AList.entries hrows) (by decide)

end BunkerWeb.Db
