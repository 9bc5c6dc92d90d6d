import BunkerWeb.Db.Commit

/-!
# Calls without service management

With `skip_service_management` a call goes through the branch that is not multisite, whatever the
database is, and its commit changes rows of `Global_values` only (`Commits.unmanaged`).
-/

namespace BunkerWeb.Db

open Lib

section

variable {env : Env} {call : Call} {db db' : Database} {plan : Plan}

/-- What a plan without service management does not do. -/
structure Unmanaged (call : Call) (db : Database) (plan : Plan) : Prop where
  globalValues : plan.session.globalValues = db.globalValues
  services : plan.session.services = db.services
  servicesSettings : plan.session.servicesSettings = db.servicesSettings
  settings : plan.session.settings = db.settings
  templateSettings : plan.session.templateSettings = db.templateSettings
  updatedDrafts : plan.updatedDrafts = []
  newServices : plan.newServices = []
  serviceChanges : plan.serviceChanges = []
  globalChanges : plan.globalChanges = (lines db.settings (popped call).items).filterMap fun l =>
    (plainChange (plainWork call db noServicePlan) l).1.map fun c => ((l.setting.id, l.suffix), c)

theorem unmanaged_of_planOf (hskip : call.skipServiceManagement = true)
    (h : planOf env call db = .ok plan) : Unmanaged call db plan := by
  unfold planOf at h
  split at h
  · rename_i hempty
    cases h
    refine ⟨rfl, rfl, rfl, rfl, rfl, rfl, rfl, rfl, ?_⟩
    rw [popped_of_isEmpty hempty]
    rfl
  · obtain ⟨hsession, hglobals, hservices⟩ := plainPlan_eq_ok h
    have hnew : plan.updatedDrafts = [] ∧ plan.newServices = [] := by
      unfold plainPlan at h
      simp only [hskip, Bool.not_true, Bool.false_and, Bool.false_eq_true, if_false,
        Bool.true_or, if_true] at h
      split at h
      · cases h
      · cases h
        exact ⟨rfl, rfl⟩
    have hrows : (sessionOf db noServicePlan).servicesSettings = db.servicesSettings := by
      show Table.deleteAll db.servicesSettings ((db.servicesSettings.items.map Prod.fst).filter
        fun k => ([] : List String).contains k.1) = _
      rw [List.filter_eq_nil_iff.mpr fun _ _ => by simp]
      rfl
    exact ⟨by rw [hsession]; rfl, by rw [hsession]; rfl, by rw [hsession, hrows],
      by rw [hsession]; rfl, by rw [hsession]; rfl, hnew.1, hnew.2, hservices, hglobals⟩

/-- Without service management the commit changes rows of `Global_values` only. -/
theorem Commits.unmanaged (h : Commits env call db plan db')
    (hskip : call.skipServiceManagement = true) :
    Table.commit CellUpdate.apply db.globalValues
        ((lines db.settings (popped call).items).filterMap fun l =>
          (plainChange (plainWork call db noServicePlan) l).1.map fun c =>
            ((l.setting.id, l.suffix), c))
        (globalsToDelete call db) = some db'.globalValues ∧
      db'.services = db.services ∧ db'.servicesSettings = db.servicesSettings ∧
      db'.settings = db.settings ∧ db'.templateSettings = db.templateSettings := by
  have hplan := unmanaged_of_planOf hskip h.planned
  have hrows : serviceRowsToDelete call db = [] := by
    rw [serviceRowsToDelete, methodServiceRows, if_pos hskip]
    rfl
  obtain ⟨hglobals, hservicesSettings, hservices, -, hsettings, htemplates⟩ :=
    commitTables_eq_some h.tables
  rw [hplan.globalValues, hplan.globalChanges] at hglobals
  rw [hplan.servicesSettings, hplan.serviceChanges, hrows] at hservicesSettings
  rw [hplan.services, hplan.updatedDrafts, hplan.newServices] at hservices
  exact ⟨hglobals, (Option.some.inj hservices).symm, (Option.some.inj hservicesSettings).symm,
    hsettings.trans hplan.settings, htemplates.trans hplan.templateSettings⟩

/-- A call of `api` without service management that returns plugins has committed. -/
theorem commits_of_plugins (hskip : call.skipServiceManagement = true)
    (hmethod : call.method = .api) {ids : List String}
    (h : (saveConfig env call db).1 = .plugins ids) :
    ∃ plan db', Commits env call db plan db' := by
  have hglobals : wipesGlobals call db = false := by
    simp [wipesGlobals, hmethod]
  have hservice : wipesService call db = false := by
    simp [wipesService, hskip]
  unfold saveConfig at h
  cases hro : env.readonly with
  | true => rw [hro, if_pos rfl] at h; cases h
  | false =>
    simp only [hro, hglobals, hservice, Bool.false_eq_true, if_false] at h
    cases hp : planOf env call db with
    | error o =>
      rw [hp] at h
      -- Without service management only an exception ends the planning.
      exfalso
      unfold planOf at hp
      split at hp
      · cases hp
      · unfold plainPlan at hp
        simp only [hskip, Bool.not_true, Bool.false_and, Bool.false_eq_true, if_false] at hp
        split at hp
        · cases hp
          cases h
        · cases hp
    | ok plan =>
      rw [hp] at h
      cases he : env.commitError with
      | some m => rw [he] at h; cases h
      | none =>
        cases ht : commitTables plan (globalsToDelete call db) (serviceRowsToDelete call db) with
        | none => simp only [he, ht] at h; cases h
        | some db' => exact ⟨plan, db', hro, hglobals, hservice, hp, he, ht⟩

end

/-- The planning ends with an exception or with plugins, never with a text. -/
theorem planOf_ne_error {env : Env} {call : Call} {db : Database} {message : String} :
    planOf env call db ≠ .error (.error message) := by
  have hplain : ∀ p, plainPlan env call db p ≠ .error (.error message) := by
    intro p h
    unfold plainPlan at h
    simp only at h
    split at h
    · cases h
    · split at h
      · cases h
      · cases h
  unfold planOf
  split
  · exact fun h => (by cases h)
  · split
    · exact hplain _
    · split
      · exact fun h => (by cases h)
      · rename_i missing _
        simp only
        split
        · exact fun h => (by cases h)
        · cases hp : plainPlan env call db (servicePlan call db missing) with
          | ok plan => exact fun h => (by cases h)
          | error o =>
            intro h
            obtain rfl : o = .error message := Except.error.inj h
            exact hplain _ hp

/-- The texts that `save_config` returns. -/
theorem message_of_error {env : Env} {call : Call} {db : Database} {message : String}
    (h : (saveConfig env call db).1 = .error message) :
    message = "The database is read-only, the changes will not be saved" ∨
      env.commitError = some message ∨ message = env.integrityError := by
  unfold saveConfig at h
  cases hro : env.readonly with
  | true =>
    rw [hro, if_pos rfl] at h
    cases h
    exact .inl rfl
  | false =>
    simp only [hro, Bool.false_eq_true, if_false] at h
    split at h
    · cases h
    · split at h
      · cases h
      · cases hp : planOf env call db with
        | error o =>
          rw [hp] at h
          obtain rfl : o = .error message := h
          exact absurd hp planOf_ne_error
        | ok plan =>
          rw [hp] at h
          cases he : env.commitError with
          | some m =>
            rw [he] at h
            cases h
            exact .inr (.inl rfl)
          | none =>
            cases ht : commitTables plan (globalsToDelete call db)
                (serviceRowsToDelete call db) with
            | none =>
              simp only [he, ht] at h
              cases h
              exact .inr (.inr rfl)
            | some db' =>
              simp only [he, ht] at h
              cases h

end BunkerWeb.Db
