import BunkerWeb.Db.Integrity
import BunkerWeb.Db.Resave

/-!
# Saving what was just read, over runs

- **One call** (`regular_callStep`): an orderly call leaves a regular database, with integrity.
- **A run** (`noOp_of_run`): whatever orderly calls came before, saving what was just read changes
  nothing as long as the database is at rest.
- **Where it does change something** (`resave_is_no_noop`): a global template without rows, and a
  draft beside a service that is none.
-/

namespace BunkerWeb.Db

open Lib

/-- A call that leaves a regular database: its keys are well written, and it has neither a key of a
service that it removes nor the draft flag of a service that it does not name. -/
structure Orderly (env : Env) (call : Call) (db : Database) : Prop where
  multisite : IsMultisite call
  named : WellNamed call db
  orphans : NoOrphanKey env call db
  drafts : ∀ service ∈ servicesSet call db, (popped call).lookup (draftKey service) = none

section

variable {env : Env} {call : Call} {db db' : Database} {plan : Plan}

/-- A row of the session was a row before. -/
theorem isSome_of_session {p : ServicePlan} {k : ServiceKey}
    (h : ((sessionOf db p).servicesSettings.lookup k).isSome) :
    (db.servicesSettings.lookup k).isSome := by
  rw [lookup_sessionOf_servicesSettings] at h
  split at h
  · cases h
  · exact h

/-- A row is an old one, or its service has a line for it. -/
theorem Commits.row_origin (h : Commits env call db plan db') (hm : IsMultisite call)
    {k : ServiceKey} {c : Cell} (hk : db'.servicesSettings.lookup k = some c) :
    (db.servicesSettings.lookup k).isSome ∨
      ∃ l ∈ lines db.settings (serviceConfig (popped call) (servicesSet call db) k.1),
        k.2 = (l.setting.id, l.suffix) := by
  obtain ⟨missing, -, hsession, -, hrows, -⟩ := h.multisite hm
  rcases h.row hk with hold | ⟨v, hput⟩
  · rw [hsession] at hold
    exact .inl (isSome_of_session hold)
  · rw [hrows, mem_serviceChanges] at hput
    obtain ⟨-, -, l, hl, hkey, -⟩ := hput
    exact .inr ⟨l, hl, hkey⟩

/-- A global value is an old one, or there is a line for it. -/
theorem Commits.global_origin (h : Commits env call db plan db') (hm : IsMultisite call)
    {k : GlobalKey} {c : Cell} (hk : db'.globalValues.lookup k = some c) :
    (db.globalValues.lookup k).isSome ∨
      ∃ l ∈ lines db.settings (globalConfig (popped call) (servicesSet call db)),
        k = (l.setting.id, l.suffix) := by
  obtain ⟨missing, -, hsession, hglobals, -, -⟩ := h.multisite hm
  have hcommit := (commitTables_eq_some h.tables).1
  rcases Table.isSome_or_put_of_commit _ hcommit hk with hold | ⟨v, hput⟩
  · rw [hsession, sessionOf_globalValues] at hold
    exact .inl hold
  · rw [hglobals, mem_globalChanges] at hput
    obtain ⟨-, l, hl, hkey, -⟩ := hput
    exact .inr ⟨l, hl, hkey⟩

/-- No orderly call writes a draft flag into a row. -/
theorem Commits.draftsApart (h : Commits env call db plan db') (ho : Orderly env call db)
    (hdb : DraftsApart db) : DraftsApart db' := by
  constructor
  · rw [h.templateSettings_eq ho.multisite]
    exact hdb.templates
  · intro service
    refine Option.eq_none_iff_forall_ne_some.mpr fun c hc => ?_
    rcases h.row_origin ho.multisite hc with hold | ⟨l, hl, hkey⟩
    · rw [hdb.rows] at hold
      cases hold
    · obtain ⟨hmem, -, -⟩ := mem_lines.mp hl
      obtain ⟨hpopped, hfirst⟩ := mem_serviceConfig.mp hmem
      have hservice := (firstService_eq_some.mp hfirst).1
      obtain ⟨hid, hsuffix⟩ := Prod.mk.inj hkey
      have hwritten := (ho.named.rows service hservice l hl).key
      rw [← hid, ← hsuffix, suffixedKey_zero] at hwritten
      rw [hwritten, ← draftKey, ho.drafts service hservice] at hpopped
      cases hpopped

theorem Commits.regular (h : Commits env call db plan db') (ho : Orderly env call db)
    (hdb : Regular db) (hservices : ∀ k c, db'.servicesSettings.lookup k = some c →
      (db'.services.lookup k.1).isSome) : Regular db' := by
  have hsettings := h.settings_eq ho.multisite
  have hknown : ∀ l : Line, ∀ config, l ∈ lines db.settings config →
      ∃ s ∈ db.settings.all, s.id = l.setting.id := fun l config hl =>
    ⟨l.setting, (Catalog.find_eq_some.mp (mem_lines.mp hl).2.1).1, rfl⟩
  constructor
  · exact h.readable ho.multisite ho.named hdb.readable
  · exact h.draftsApart ho hdb.drafts
  · intro k c hk
    rw [hsettings]
    rcases h.global_origin ho.multisite hk with hold | ⟨l, hl, rfl⟩
    · obtain ⟨c', hc'⟩ := Option.isSome_iff_exists.mp hold
      exact hdb.globals k c' hc'
    · exact hknown l _ hl
  · intro k c hk
    refine ⟨hservices k c hk, ?_⟩
    rw [hsettings]
    rcases h.row_origin ho.multisite hk with hold | ⟨l, hl, hkey⟩
    · obtain ⟨c', hc'⟩ := Option.isSome_iff_exists.mp hold
      exact (hdb.rows k c' hc').2
    · rw [hkey]
      exact hknown l _ hl
  · rw [hsettings]
    exact hdb.serverName
  · rw [hsettings]
    exact hdb.databaseUri
  · rw [hsettings, h.templateSettings_eq ho.multisite]
    exact hdb.templates

end

/-- A database that is regular and has integrity. -/
structure Sound (db : Database) : Prop where
  regular : Regular db
  integrity : Integrity db

/-- The flags of a commit are no part of what a regular database is. -/
theorem Regular.setFlags {db : Database} (h : Regular db) (call : Call) (plugins : List String)
    (b : Bool) : Regular (setFlags call plugins b db) := by
  unfold Db.setFlags
  split
  · exact ⟨⟨h.readable.installed.of_eq rfl rfl, h.readable.services, h.readable.globals,
      h.readable.rows⟩, ⟨h.drafts.templates, h.drafts.rows⟩, h.globals, h.rows, h.serverName,
      h.databaseUri, h.templates⟩
  · exact h

/-- **One call.** An orderly call leaves a sound database. -/
theorem Sound.callStep {db : Database} (h : Sound db) {c : Env × Call}
    (ho : Orderly c.1 c.2 db) : Sound (callStep db c) := by
  have hintegrity := saveConfig_integrity h.integrity ho.orphans
  refine ⟨?_, hintegrity⟩
  show Regular (saveConfig c.1 c.2 db).2
  rcases saveConfig_cases c.1 c.2 db with ⟨plan, db', plugins, b, hcom, heq⟩ | ⟨hsame, -⟩
  · rw [heq] at hintegrity ⊢
    refine (hcom.regular ho h.regular fun k r hk => ?_).setFlags _ _ _
    have hrow := hintegrity.rows (k, r) (Dict.mem_items.mpr (by
      rw [setFlags_servicesSettings]
      exact hk))
    rwa [setFlags_services] at hrow
  · rw [hsame]
    exact h.regular

/-- **Saving what was just read, over runs.** For every environment: in every run of orderly calls
from a sound database, wherever the database is multisite and at rest, a call of `ui` or `api` with
the configuration that was just read changes nothing. -/
theorem noOp_of_run {db : Database} (h : Sound db) {calls : List (Env × Call)}
    (hc : Run.Meets callStep (fun db c => Orderly c.1 c.2 db) db calls) {env : Env}
    {method : Method} (hui : method.isUi = true) :
    ∀ pre post, calls = pre ++ post → StoredMultisite (Run.run callStep db pre) →
      AtRest method (Run.run callStep db pre) → NoOp env method (Run.run callStep db pre) := by
  rintro pre post rfl hm hs
  have hsound := Run.invariant_of_append (fun _ _ hdb ho => hdb.callStep ho) h hc
  exact noOp_of_atRest hsound.regular hm hs hui

/-! ## Databases at rest, and others -/

instance (db : Database) : Decidable (StoredMultisite db) := inferInstanceAs (Decidable (_ = _))

/-- Without numbered settings the groups are whole. -/
theorem wholeGroups_of_single {db : Database} (h : ∀ s ∈ db.settings.all, s.multiple = none) :
    WholeGroups db := fun _ _ _ _ _ _ group _ _ _ s' hs' hgroup => by
  rw [h s' hs'] at hgroup
  cases hgroup

/-- A call with one service. -/
def oneServiceCall : Call := multisiteCall .ui
  [("SERVER_NAME", "www"), ("www_SERVER_NAME", "www"), ("www_USE_GZIP", "yes")]

/-- An empty database without templates is sound. -/
theorem sound_site : Sound (site [] [] []) := by
  refine ⟨⟨by decide, ⟨by decide, fun _ => rfl⟩, fun k c hk => ?_, fun k c hk => ?_, by decide,
    by decide, by decide⟩, ⟨by decide, by decide⟩⟩
  · cases hk
  · cases hk

/-- A call that names its services and removes none keeps the keys of all of them. -/
theorem noOrphanKey_of_empty {env : Env} {call : Call} {db : Database}
    (h : ∀ missing, missingIds call db = some missing →
      (servicePlan call db missing).hardDelete = []) : NoOrphanKey env call db := by
  intro plan db' _ _ missing hmissing p id hid
  rw [h missing hmissing] at hid
  cases hid

theorem orderly_oneServiceCall : Orderly quietEnv oneServiceCall (site [] [] []) where
  multisite := by decide
  named := by decide
  orphans := noOrphanKey_of_empty fun missing hmissing => by
    obtain rfl : missing = [] := Option.some.inj (hmissing.symm.trans (by decide))
    rfl
  drafts := by decide

theorem atRest_after_oneServiceCall :
    AtRest .api (callStep (site [] [] []) (quietEnv, oneServiceCall)) := by
  have hservices : ∀ id sv, (callStep (site [] [] []) (quietEnv, oneServiceCall)).services.lookup
      id = some sv → id = "www" ∧ sv.isDraft = false := by
    have hitems : ∀ e ∈ (callStep (site [] [] []) (quietEnv, oneServiceCall)).services.items,
        e.1 = "www" ∧ e.2.isDraft = false := by decide
    exact fun id sv hsv => hitems (id, sv) (Dict.mem_items.mpr hsv)
  constructor
  · exact .inl fun id sv hsv => (hservices id sv hsv).2
  · exact ⟨⟨"www", "", .ui⟩, by decide, .inl (by decide)⟩
  · intro service hservice
    obtain ⟨sv, hsv⟩ := Option.isSome_iff_exists.mp hservice
    rw [(hservices service sv hsv).1]
    exact ⟨⟨"www", "", .ui⟩, by decide, .inl (by decide)⟩
  · intro s _ n _ _ t ht
    have hnone : templateUsed (callStep (site [] [] []) (quietEnv, oneServiceCall)) = "" := by
      decide
    rw [templateValue, if_pos hnone] at ht
    cases ht
  · exact wholeGroups_of_single (by decide)

/-- The service is saved, and its configuration is read and saved again. -/
theorem noOp_after_oneServiceCall :
    NoOp quietEnv .api (Run.run callStep (site [] [] []) [(quietEnv, oneServiceCall)]) := by
  have hmeets : Run.Meets callStep (fun db c => Orderly c.1 c.2 db) (site [] [] [])
      [(quietEnv, oneServiceCall)] := ⟨orderly_oneServiceCall, trivial⟩
  have hyes : StoredMultisite (callStep (site [] [] []) (quietEnv, oneServiceCall)) := by
    decide
  exact noOp_of_run sound_site hmeets rfl _ [] (List.append_nil _).symm hyes
    atRest_after_oneServiceCall

/-- A database with a template, without services. -/
def lowInstallation : Database :=
  { site [] [] [] with templateSettings := [⟨"low", "USE_GZIP", 0, "yes"⟩] }

/-- A call that uses the template in the global scope. -/
def lowCall : Call := multisiteCall .ui
  [("SERVER_NAME", "www"), ("www_SERVER_NAME", "www"), ("USE_TEMPLATE", "low")]

/-- A call with a draft beside another service. -/
def draftCall : Call := multisiteCall .ui
  [("SERVER_NAME", "app www"), ("app_SERVER_NAME", "app"), ("www_SERVER_NAME", "www"),
    ("app_IS_DRAFT", "yes")]

/-- After these calls, which succeed, saving what was just read writes what the global template sets
into a row of its own, and reports every plugin because of the service that is no draft. -/
theorem resave_is_no_noop :
    ((saveConfig quietEnv lowCall lowInstallation).1 = .plugins ["general", "gzip", "customcert"] ∧
      StoredMultisite (callStep lowInstallation (quietEnv, lowCall)) ∧
      ¬ NoOp quietEnv .ui (callStep lowInstallation (quietEnv, lowCall))) ∧
    ((saveConfig quietEnv draftCall (site [] [] [])).1 =
        .plugins ["general", "gzip", "customcert"] ∧
      StoredMultisite (callStep (site [] [] []) (quietEnv, draftCall)) ∧
      ¬ NoOp quietEnv .ui (callStep (site [] [] []) (quietEnv, draftCall))) := by
  refine ⟨⟨by decide, by decide, fun h => ?_⟩, by decide, by decide, fun h => ?_⟩
  · exact absurd (h.globals ("USE_GZIP", 0) (by decide)) (by decide)
  · exact absurd (h.plugins ["general", "gzip", "customcert"] (by decide)) (by decide)

end BunkerWeb.Db
