import BunkerWeb.Autoconf.Settled
import BunkerWeb.Db.LaterSaves
import BunkerWeb.Db.Store

/-!
# A service that comes back

A configuration is saved with its custom configurations, then what is left of it without one of its
services, and then the whole again (`Episode`). The rows that were there stay, those of the service
as rows of a draft. But a value that has no row may get one: the first save compares it with a global
value that the same save deletes, so that it counts as a default once and never again.

- **One save of both** (`Taken.exists_commits`, `Taken.configs`).
- **The episode** (`Episode.services_same`, `Episode.configs_same`, `Episode.restored_iff`).
-/

namespace BunkerWeb.Autoconf.Saving

open Lib Db

/-! ## Both calls -/

/-- An entry of `custom_configs` in `apply`: `{"value": data, "exploded": [site, type, name]}`. -/
structure Label (Data : Type) where
  site : Option String
  type : String
  name : String
  data : Data

/-- What the two calls find. -/
structure Finds (Data Digest : Type) where
  save : Env
  customs : CustomConfigs.Env Data Digest

section

variable {Data Digest : Type}

def Label.entry (l : Label Data) : CustomConfigs.Given Data Digest :=
  .exploded l.data l.site l.type l.name false

/-- The rows that are put for the labels. -/
def entries (hash : Data → Digest) (labels : List (Label Data)) :
    List (CustomConfigs.Row Data Digest) :=
  (labels.map Label.entry).map (CustomConfigs.Given.row hash .autoconf)

theorem ofLabels (hash : Data → Digest) (labels : List (Label Data)) :
    CustomConfigs.OfLabels (entries hash labels) := by
  have hall : ∀ c ∈ entries hash labels, CustomConfigs.filters c.key = c.key ∧ c.isDraft = false ∧
      c.method = .autoconf := by
    intro c hc
    obtain ⟨g, hg, rfl⟩ := List.mem_map.mp hc
    obtain ⟨l, -, rfl⟩ := List.mem_map.mp hg
    refine ⟨Prod.ext ?_ rfl, rfl, rfl⟩
    show (l.site.filter (· ≠ "")).filter (· ≠ "") = l.site.filter (· ≠ "")
    cases hsite : l.site with
    | none => rfl
    | some t =>
      by_cases ht : t = ""
      · simp [Option.filter, ht]
      · simp [Option.filter, ht]
  exact ⟨fun c hc => (hall c hc).1, fun c hc => (hall c hc).2.1, fun c hc => (hall c hc).2.2⟩

/-- The labels of the other services. -/
theorem entries_without {s : String} (hs : s ≠ "") (hash : Data → Digest)
    (labels : List (Label Data)) : entries hash (labels.filter (·.site ≠ some s)) =
      CustomConfigs.without s (entries hash labels) := by
  unfold entries CustomConfigs.without
  rw [List.filter_map, List.filter_map, List.map_map, List.map_map]
  refine congrArg (List.map _) (List.filter_congr fun l _ => ?_)
  show decide (l.site ≠ some s) = decide (l.site.filter (· ≠ "") ≠ some s)
  cases hsite : l.site with
  | none => rfl
  | some t =>
    by_cases ht : t = ""
    · simp [Option.filter, ht, Ne.symm hs]
    · simp [Option.filter, ht]

variable [DecidableEq Digest]

/-- `save_config` and `save_custom_configs`, as `apply` calls them. -/
def saveBoth (hash : Data → Digest) (e : Finds Data Digest) (config : Dict String String)
    (labels : List (Label Data)) (st : Db.Store Data Digest) : Db.Store Data Digest :=
  (st.saveConfig e.save (autoconfCall config)).saveCustomConfigs hash e.customs
    (labels.map Label.entry) .autoconf true

/-- Both calls store what they are given, and no task of the pool raises. -/
structure Taken (hash : Data → Digest) (e : Finds Data Digest) (config : Dict String String)
    (labels : List (Label Data)) (st : Db.Store Data Digest) : Prop where
  smooth : Smooth e.save
  commits : committed e.save (autoconfCall config) st.db = true
  writable : e.customs.readonly = false
  quiet : e.customs.raises = false
  customs : e.customs.commitError (CustomConfigs.savedRows
    (configsAfter e.save (autoconfCall config) st.db st.configs) (entries hash labels)
      .autoconf true) = none

end

/-! ## What a save depends on -/

/-- The tables that `save_config` reads are the same. -/
structure SameTables (db db' : Database) : Prop where
  settings : db'.settings = db.settings
  templateSettings : db'.templateSettings = db.templateSettings
  globalValues : db'.globalValues = db.globalValues
  services : db'.services = db.services
  servicesSettings : db'.servicesSettings = db.servicesSettings

section

variable {config config' : Dict String String} {db db' : Database} {k : ServiceKey} {s : Setting}
  {n : Nat} {v t : String}

theorem setFlags_sameTables (call : Call) (plugins : List String) (b : Bool) (db : Database) :
    SameTables db (setFlags call plugins b db) := by
  unfold setFlags
  split
  · exact ⟨rfl, rfl, rfl, rfl, rfl⟩
  · exact ⟨rfl, rfl, rfl, rfl, rfl⟩

theorem SameTables.servicesSet (h : SameTables db db') (call : Call) :
    Db.servicesSet call db' = Db.servicesSet call db := by
  unfold Db.servicesSet
  rw [h.services]

theorem SameTables.given (h : SameTables db db') (config : Dict String String) (k : ServiceKey) :
    given config db' k = Saving.given config db k := by
  unfold Saving.given
  rw [h.servicesSet, h.settings]

theorem SameTables.readable (h : SameTables db db') (hr : Readable db) : Readable db' where
  installed := hr.installed.of_eq h.settings h.templateSettings
  services := by
    rw [h.services, h.settings]
    exact hr.services
  globals := by
    rw [h.globalValues, h.settings]
    exact hr.globals
  rows := by
    rw [h.servicesSettings, h.settings]
    exact hr.rows

theorem SameTables.wellNamed (h : SameTables db db') {call : Call} (hw : WellNamed call db) :
    WellNamed call db' where
  services := by
    rw [h.services, h.settings]
    exact hw.services
  globals := by
    rw [h.servicesSet, h.settings]
    exact hw.globals
  rows := by
    rw [h.servicesSet, h.settings]
    exact hw.rows

theorem SameTables.gone (h : SameTables db db') (config : Dict String String) (t : String) :
    Gone config db' t ↔ Gone config db t := by
  unfold Gone Own
  rw [h.services]

theorem SameTables.settled (h : SameTables db db') (hset : Settled config db) :
    Settled config db' where
  readable := h.readable hset.readable
  named := h.wellNamed hset.named
  gone t hgone := by
    rw [h.services]
    exact hset.gone t ((h.gone config t).mp hgone)
  rows k v c hv hc := by
    rw [h.given] at hv
    rw [h.servicesSettings] at hc
    exact hset.rows k v c hv hc
  kept k c hc hmethod hgone := by
    rw [h.servicesSettings] at hc
    exact hset.kept k c hc hmethod fun hg => hgone ((h.gone config k.1).mpr hg)
  globals s hs hne n v hv := by
    rw [h.settings] at hs
    rw [h.globalValues]
    refine (hset.globals s hs hne n v hv).imp_right fun ⟨hnone, hdefault⟩ => ⟨hnone, ?_⟩
    refine globalIsDefault_after hset.readable (h.readable hset.readable) h.settings hs hdefault
      fun _ hold => ?_
    rw [h.globalValues]
    exact hold
  keptGlobals s hs hne n c hc hmethod := by
    rw [h.settings] at hs
    rw [h.globalValues] at hc
    exact hset.keptGlobals s hs hne n c hc hmethod

/-- While the global values stay, a value of a service counts as a default in the same way. -/
theorem rowIsDefault_same (hr : Readable db) (hr' : Readable db')
    (hsettings : db'.settings = db.settings) (htemplates : db'.templateSettings = db.templateSettings)
    (hs : s ∈ db.settings.all) (hsame : s.id ≠ "SERVER_NAME" → ∀ n,
      db'.globalValues.lookup (s.id, n) = db.globalValues.lookup (s.id, n)) :
    rowIsDefault (autoconfCall config) db' t s n v =
      rowIsDefault (autoconfCall config) db t s n v := by
  have htemplate : namedTemplateValue (autoconfCall config) db' t s n =
      namedTemplateValue (autoconfCall config) db t s n := by
    unfold namedTemplateValue templateValue templateRow
    rw [htemplates]
  unfold rowIsDefault
  rw [htemplate]
  refine checkValue_congr fun hne m => ⟨rfl, ?_⟩
  rw [lookup_dbConfigOf config hr hs hne m, lookup_dbConfigOf config hr' (hsettings ▸ hs) hne m,
    hsame hne m]

end

/-! ## One save of both -/

section

variable {Data Digest : Type} [DecidableEq Digest] {hash : Data → Digest} {e : Finds Data Digest}
  {config : Dict String String} {labels : List (Label Data)} {st : Db.Store Data Digest}

/-- The tables of the store are those of the commit. -/
theorem Taken.exists_commits (h : Taken hash e config labels st) :
    ∃ plan db', Commits e.save (autoconfCall config) st.db plan db' ∧
      SameTables db' (saveBoth hash e config labels st).db := by
  rcases saveConfig_cases e.save (autoconfCall config) st.db with
    ⟨plan, db', plugins, b, hcom, heq⟩ | ⟨-, hno⟩
  · refine ⟨plan, db', hcom, ?_⟩
    have hflags := setFlags_sameTables (autoconfCall config) plugins b db'
    have hdb : (st.saveConfig e.save (autoconfCall config)).db =
        setFlags (autoconfCall config) plugins b db' := congrArg Prod.snd heq
    rw [← hdb] at hflags
    exact ⟨hflags.settings, hflags.templateSettings, hflags.globalValues, hflags.services,
      hflags.servicesSettings⟩
  · obtain ⟨plan, db', hcom⟩ := committed_iff.mp h.commits
    exact absurd hcom (hno plan db')

/-- The rows of the services that are gone become drafts, and then the labels are saved. -/
theorem Taken.configs (h : Taken hash e config labels st) (hm : IsMultisite (autoconfCall config)) :
    ∃ l : List String, (∀ t, t ∈ l ↔ Gone config st.db t) ∧
      (saveBoth hash e config labels st).configs =
        CustomConfigs.savedRows (st.configs.map (CustomConfigs.draftedOf l)) (entries hash labels)
          .autoconf true ∧
      CustomConfigs.Unique
        (CustomConfigs.ofServices (saveBoth hash e config labels st).configs) := by
  obtain ⟨plan, db', hcom⟩ := committed_iff.mp h.commits
  obtain ⟨missing, hmissing, -⟩ := hcom.multisite hm
  have hplanned : plannedServices (autoconfCall config) st.db =
      servicePlan (autoconfCall config) st.db missing := by
    rw [plannedServices, hm.1, hm.2.1, hmissing]
    rfl
  have hafter : configsAfter e.save (autoconfCall config) st.db st.configs =
      st.configs.map (CustomConfigs.draftedOf
        (servicePlan (autoconfCall config) st.db missing).draftable) := by
    rw [configsAfter, if_pos h.commits, hplanned, sessionConfigs, hardDelete_eq_nil hmissing]
    refine congrArg (List.map _) (List.filter_eq_self.mpr fun r _ => ?_)
    cases r.key.1 with
    | none => rfl
    | some t => rfl
  have hconfigs : (saveBoth hash e config labels st).configs =
      CustomConfigs.savedRows (configsAfter e.save (autoconfCall config) st.db st.configs)
        (entries hash labels) .autoconf true := by
    show (CustomConfigs.saveCustomConfigs hash e.customs
      (configsAfter e.save (autoconfCall config) st.db st.configs) _ .autoconf true).2 = _
    unfold CustomConfigs.saveCustomConfigs
    rw [if_neg (by rw [h.writable]; exact Bool.false_ne_true),
      if_neg (by rw [h.quiet]; exact Bool.false_ne_true), if_neg fun hno => absurd hno.1 (by decide)]
    dsimp only
    split
    next error herror => cases h.customs.symm.trans herror
    next => rfl
  refine ⟨_, fun t => mem_draftable hmissing, ?_, ?_⟩
  · rw [hconfigs, hafter]
  · rw [hconfigs]
    exact e.customs.unique _ h.customs

end

/-! ## Defaults -/

/-- The values of the configuration for a row count as defaults. -/
def OnlyDefault (config : Dict String String) (db : Database) (k : ServiceKey) : Prop :=
  ∀ s ∈ db.settings.all, s.id = k.2.1 → ∀ v, given config db k = some v →
    rowIsDefault (autoconfCall config) db k.1 s k.2.2 v = true

/-- Every value for a service that has no row counts as a default. -/
def DefaultsStand (config : Dict String String) (db : Database) : Prop :=
  ∀ t ∈ servicesSet (autoconfCall config) db,
    ∀ l ∈ lines db.settings (serviceConfig (popped (autoconfCall config))
      (servicesSet (autoconfCall config) db) t),
      db.servicesSettings.lookup (t, l.setting.id, l.suffix) = none →
        rowIsDefault (autoconfCall config) db t l.setting l.suffix l.value = true

instance (config : Dict String String) (db : Database) : Decidable (DefaultsStand config db) :=
  inferInstanceAs (Decidable (∀ t ∈ _, ∀ l ∈ _, _ → _))

section

variable {config : Dict String String} {db : Database}

theorem defaultsStand_iff (hinst : Installed db) (hw : WellNamed (autoconfCall config) db) :
    DefaultsStand config db ↔
      ∀ k, db.servicesSettings.lookup k = none → OnlyDefault config db k := by
  constructor
  · rintro h ⟨t, id, n⟩ hnone s hs rfl v hv
    obtain ⟨hset, hlookup⟩ := (given_eq_some hs).mp hv
    have hline := ((hw.service_line (n := n) hinst hs hset).mpr ⟨v, hlookup, rfl⟩).1
    exact h t hset _ hline hnone
  · intro h t hset l hl hnone
    obtain ⟨hitem, hfind, -⟩ := mem_lines.mp hl
    have hs := (Catalog.find_eq_some.mp hfind).1
    refine h (t, l.setting.id, l.suffix) hnone l.setting hs rfl l.value
      ((given_eq_some hs).mpr ⟨hset, ?_⟩)
    rw [← (hw.rows t hset l hl).key]
    exact (mem_serviceConfig.mp hitem).1

end

/-! ## The episode -/

/-- A configuration, what is left of it without one of its services, and what the saves find. -/
structure Episode (Data Digest : Type) where
  config : Dict String String
  less : Dict String String
  labels : List (Label Data)
  service : String
  found : Db.Store Data Digest
  first : Finds Data Digest
  leaving : Finds Data Digest
  returning : Finds Data Digest

/-- All that the service has is of `autoconf`. -/
structure FullyOwned {Data Digest : Type} (st : Db.Store Data Digest) (service : String) : Prop where
  own : Own st.db service
  rows : ∀ k c, k.1 = service → st.db.servicesSettings.lookup k = some c → c.method = .autoconf
  configs : ∀ r ∈ st.configs, r.key.1 = some service → r.method = .autoconf

namespace Episode

variable {Data Digest : Type} [DecidableEq Digest] (hash : Data → Digest)
  (ep : Episode Data Digest)

def saved : Db.Store Data Digest := saveBoth hash ep.first ep.config ep.labels ep.found

def left : Db.Store Data Digest :=
  saveBoth hash ep.leaving ep.less (ep.labels.filter (·.site ≠ some ep.service)) (ep.saved hash)

def back : Db.Store Data Digest :=
  saveBoth hash ep.returning ep.config ep.labels (ep.left hash)

/-- The names and keys are in order, the three saves go through, and before the service leaves it is
published and all of `autoconf`. -/
structure Valid : Prop where
  readable : Readable ep.found.db
  named : WellNamed (autoconfCall ep.config) ep.found.db
  multisite : IsMultisite (autoconfCall ep.config)
  listed : ep.service ∈ serverNames ep.config
  leaves : Leaves (some ep.service) ep.config ep.less
  first : Taken hash ep.first ep.config ep.labels ep.found
  leaving : Taken hash ep.leaving ep.less (ep.labels.filter (·.site ≠ some ep.service))
    (ep.saved hash)
  returning : Taken hash ep.returning ep.config ep.labels (ep.left hash)
  owned : FullyOwned (ep.saved hash) ep.service
  published : (ep.saved hash).db.services.lookup ep.service = some ⟨.autoconf, false⟩

/-- The service is published with the rows that it had, and so are the others. -/
structure Restored : Prop where
  published : (ep.back hash).db.services.lookup ep.service = some ⟨.autoconf, false⟩
  services : ∀ t sv, (ep.saved hash).db.services.lookup t = some sv →
    (ep.back hash).db.services.lookup t = some sv
  rows : ∀ k, ((ep.saved hash).db.services.lookup k.1).isSome →
    (ep.back hash).db.servicesSettings.lookup k = (ep.saved hash).db.servicesSettings.lookup k
  configs : CustomConfigs.ofServices (ep.back hash).configs =
    CustomConfigs.ofServices (ep.saved hash).configs

variable {hash ep}

theorem mem_away {t s : String} (h : t ∈ some s) : t = s := (Option.some.inj h).symm

theorem Valid.isMultisite (h : ep.Valid hash) : IsMultisite (autoconfCall ep.less) :=
  h.leaves.isMultisite h.readable.installed
    (fun t ht => h.named.services t (.inl (mem_away ht ▸ h.listed))) h.multisite

theorem Valid.settled (h : ep.Valid hash) : Settled ep.config (ep.saved hash).db := by
  obtain ⟨plan, db', hcom, hsame⟩ := h.first.exists_commits
  exact hsame.settled (settled_of_save hcom h.multisite h.first.smooth h.readable h.named)

theorem Valid.away (h : ep.Valid hash) : ∀ t ∈ some ep.service, t ∈ serverNames ep.config :=
  fun _ ht => mem_away ht ▸ h.listed

theorem Valid.own (h : ep.Valid hash) :
    ∀ t ∈ some ep.service, Own (ep.saved hash).db t :=
  fun _ ht => mem_away ht ▸ h.owned.own

theorem Valid.settled_left (h : ep.Valid hash) : Settled ep.config (ep.left hash).db := by
  obtain ⟨plan, db', hcom, hsame⟩ := h.leaving.exists_commits
  exact hsame.settled (h.settled.save h.leaves hcom h.multisite h.leaving.smooth h.away h.own)

/-! ### Services -/

/-- A service of `autoconf` is as the configuration has it after the first save and after the last
one, and a service of another method is not touched. -/
theorem Valid.services_same (h : ep.Valid hash) {t : String} {sv : Db.Service}
    (hsv : (ep.saved hash).db.services.lookup t = some sv) :
    (ep.back hash).db.services.lookup t = some sv := by
  obtain ⟨plan₀, db₀, hcom₀, hsame₀⟩ := h.first.exists_commits
  obtain ⟨plan₁, db₁, hcom₁, hsame₁⟩ := h.leaving.exists_commits
  obtain ⟨plan₂, db₂, hcom₂, hsame₂⟩ := h.returning.exists_commits
  have hleft : (ep.left hash).db.services = db₁.services := hsame₁.services
  have hback : (ep.back hash).db.services = db₂.services := hsame₂.services
  rw [hback]
  by_cases hown : sv.method = .autoconf
  · have hown₁ : Own db₁ t := own_after hcom₁ h.isMultisite ⟨sv, hsv, hown⟩
    have hown₂ : Own (ep.left hash).db t := by
      unfold Own
      rwa [hleft]
    rw [service_own hcom₂ h.multisite hown₂]
    have hfirst : (ep.saved hash).db.services = db₀.services := hsame₀.services
    rw [hfirst] at hsv
    rcases service_cases hcom₀ h.multisite hsv with ⟨rfl, -⟩ | ⟨-, hother⟩
    · rfl
    · exact absurd hown hother
  · refine service_other hcom₂ h.multisite ?_ hown
    rw [hleft]
    exact service_other hcom₁ h.isMultisite hsv hown

/-- The services that are gone are the same in every save, but for the one that leaves. -/
theorem Valid.gone_iff (h : ep.Valid hash) {t : String} (ht : t ≠ ep.service) :
    (Gone ep.less (ep.saved hash).db t ↔ Gone ep.config ep.found.db t) ∧
      (Gone ep.config (ep.left hash).db t ↔ Gone ep.config ep.found.db t) := by
  obtain ⟨plan₀, db₀, hcom₀, hsame₀⟩ := h.first.exists_commits
  obtain ⟨plan₁, db₁, hcom₁, hsame₁⟩ := h.leaving.exists_commits
  have haway : t ∉ some ep.service := fun hmem => ht (mem_away hmem)
  have hfirst : Gone ep.config (ep.saved hash).db t ↔ Gone ep.config ep.found.db t := by
    refine (hsame₀.gone ep.config t).trans ⟨fun hg => ⟨?_, hg.2⟩, gone_after hcom₀ h.multisite⟩
    exact own_of_after hcom₀ h.multisite hg.1 hg.2
  refine ⟨(h.leaves.gone_iff haway).trans hfirst, (hsame₁.gone ep.config t).trans ?_⟩
  refine Iff.trans ⟨fun hg => ⟨?_, hg.2⟩, gone_after hcom₁ h.isMultisite⟩ hfirst
  exact own_of_after hcom₁ h.isMultisite hg.1 fun hmem => hg.2 ((h.leaves.names t).mp hmem).1

/-! ### Custom configurations -/

theorem Valid.configs_same (h : ep.Valid hash) :
    CustomConfigs.ofServices (ep.back hash).configs =
      CustomConfigs.ofServices (ep.saved hash).configs := by
  obtain ⟨l₀, hl₀, hconfigs₀, hu₀⟩ := h.first.configs h.multisite
  obtain ⟨l₁, hl₁, hconfigs₁, hu₁⟩ := h.leaving.configs h.isMultisite
  obtain ⟨l₂, hl₂, hconfigs₂, -⟩ := h.returning.configs h.multisite
  have hword : ep.service ≠ "" := by
    have hsep := h.named.services ep.service (.inl h.listed)
    intro he
    exact absurd hsep.word (by rw [he]; decide)
  rw [entries_without hword] at hconfigs₁
  refine (congrArg CustomConfigs.ofServices hconfigs₂).trans ?_
  refine CustomConfigs.ofServices_comeback (ofLabels hash ep.labels) ep.found.unique hconfigs₀
    hconfigs₁ hu₀ hu₁ (fun t ht => ?_) ?_ (fun hmem => ?_) h.owned.configs
  · obtain ⟨hless, hleft⟩ := h.gone_iff ht
    exact ⟨(hl₁ t).trans (hless.trans (hl₀ t).symm), (hl₂ t).trans (hleft.trans (hl₀ t).symm)⟩
  · exact (hl₁ ep.service).mpr
      ⟨h.owned.own, fun hmem => ((h.leaves.names ep.service).mp hmem).2 rfl⟩
  · exact ((hl₂ ep.service).mp hmem).2 h.listed

/-! ### Rows -/

/-- The save that leaves the service out has the same services to know. -/
theorem Valid.known_iff (h : ep.Valid hash) {t : String} :
    t ∈ servicesSet (autoconfCall ep.config) (ep.left hash).db ↔
      t ∈ servicesSet (autoconfCall ep.config) (ep.saved hash).db := by
  obtain ⟨plan, db', hcom, hsame⟩ := h.leaving.exists_commits
  have hset : servicesSet (autoconfCall ep.config) (ep.left hash).db =
      servicesSet (autoconfCall ep.config) db' := hsame.servicesSet _
  rw [hset]
  refine ⟨mem_of_known_after h.leaves hcom h.isMultisite, fun ht => ?_⟩
  rw [mem_servicesSet_iff] at ht ⊢
  refine or_iff_not_imp_left.mpr fun hnot => ?_
  obtain ⟨sv, hsv, hdraft⟩ := ht.resolve_left hnot
  refine ⟨sv, service_other hcom h.isMultisite hsv fun hown => ?_, hdraft⟩
  rw [h.settled.gone t ⟨⟨sv, hsv, hown⟩, hnot⟩ sv hsv] at hdraft
  cases hdraft

/-- The values that defaults are compared with stay. -/
theorem Valid.onlyDefault_iff (h : ep.Valid hash) {k : ServiceKey} :
    OnlyDefault ep.config (ep.left hash).db k ↔ OnlyDefault ep.config (ep.saved hash).db k := by
  obtain ⟨plan, db', hcom, hsame⟩ := h.leaving.exists_commits
  have hsettings : (ep.left hash).db.settings = (ep.saved hash).db.settings :=
    hsame.settings.trans (hcom.settings_eq h.isMultisite)
  have htemplates : (ep.left hash).db.templateSettings = (ep.saved hash).db.templateSettings :=
    hsame.templateSettings.trans (hcom.templateSettings_eq h.isMultisite)
  have hgiven : given ep.config (ep.left hash).db k = given ep.config (ep.saved hash).db k := by
    unfold given
    rw [hsettings]
    simp only [h.known_iff]
  unfold OnlyDefault
  rw [hsettings, hgiven]
  refine forall_congr' fun s => forall_congr' fun hs => forall_congr' fun _ =>
    forall_congr' fun v => forall_congr' fun _ => ?_
  rw [rowIsDefault_same h.settled.readable h.settled_left.readable hsettings htemplates hs
    fun hne n => ?_]
  have hglobals : (ep.left hash).db.globalValues = db'.globalValues := hsame.globalValues
  rw [hglobals]
  exact h.settled.global_same h.leaves hcom h.multisite h.leaving.smooth h.away hs hne

/-- A row that is there when the service comes back stays. -/
theorem Valid.row_back (h : ep.Valid hash) {k : ServiceKey} {c : Cell}
    (hsep : Separate (ep.left hash).db.settings k.1)
    (hc : (ep.left hash).db.servicesSettings.lookup k = some c) :
    (ep.back hash).db.servicesSettings.lookup k = some c := by
  obtain ⟨plan, db', hcom, hsame⟩ := h.returning.exists_commits
  have hrows : (ep.back hash).db.servicesSettings = db'.servicesSettings := hsame.servicesSettings
  rw [hrows]
  exact h.settled_left.row_stays (Leaves.refl ep.config) hcom h.multisite h.returning.smooth nofun
    nofun hsep hc

/-- A row that is not there then is put only if the value is no default. -/
theorem Valid.row_missing_back (h : ep.Valid hash) {k : ServiceKey}
    (hc : (ep.left hash).db.servicesSettings.lookup k = none) :
    (ep.back hash).db.servicesSettings.lookup k = none ↔
      OnlyDefault ep.config (ep.saved hash).db k := by
  obtain ⟨plan, db', hcom, hsame⟩ := h.returning.exists_commits
  have hrows : (ep.back hash).db.servicesSettings = db'.servicesSettings := hsame.servicesSettings
  rw [hrows, ← h.onlyDefault_iff]
  exact h.settled_left.row_missing (Leaves.refl ep.config) hcom h.multisite h.returning.smooth nofun
    nofun hc

/-- The rows of the service that leaves stay meanwhile. -/
theorem Valid.row_left (h : ep.Valid hash) {k : ServiceKey} (hk : k.1 = ep.service) :
    (ep.left hash).db.servicesSettings.lookup k = (ep.saved hash).db.servicesSettings.lookup k := by
  obtain ⟨plan, db', hcom, hsame⟩ := h.leaving.exists_commits
  have hrows : (ep.left hash).db.servicesSettings = db'.servicesSettings := hsame.servicesSettings
  rw [hrows]
  exact h.settled.row_away h.leaves hcom h.multisite h.away (congrArg some hk.symm)
    (hk ▸ h.owned.own)

theorem Valid.separate_left (h : ep.Valid hash) {t : String}
    (hsep : Separate (ep.saved hash).db.settings t) : Separate (ep.left hash).db.settings t := by
  obtain ⟨plan, db', hcom, hsame⟩ := h.leaving.exists_commits
  have hsettings : (ep.left hash).db.settings = (ep.saved hash).db.settings :=
    hsame.settings.trans (hcom.settings_eq h.isMultisite)
  rwa [hsettings]

/-- A row that is there stays. -/
theorem Valid.row_stays (h : ep.Valid hash) {k : ServiceKey} {c : Cell}
    (hsep : Separate (ep.saved hash).db.settings k.1)
    (hc : (ep.saved hash).db.servicesSettings.lookup k = some c) :
    (ep.back hash).db.servicesSettings.lookup k = some c := by
  refine h.row_back (h.separate_left hsep) ?_
  by_cases hk : k.1 = ep.service
  · rw [h.row_left hk]
    exact hc
  · obtain ⟨plan, db', hcom, hsame⟩ := h.leaving.exists_commits
    have hrows : (ep.left hash).db.servicesSettings = db'.servicesSettings := hsame.servicesSettings
    rw [hrows]
    exact h.settled.row_stays h.leaves hcom h.multisite h.leaving.smooth h.away
      (fun hmem => hk (mem_away hmem)) hsep hc

/-- A row that is not there is put, in the second save or in the third, unless the value is a
default. -/
theorem Valid.row_missing (h : ep.Valid hash) {k : ServiceKey}
    (hc : (ep.saved hash).db.servicesSettings.lookup k = none) :
    (ep.back hash).db.servicesSettings.lookup k = none ↔
      OnlyDefault ep.config (ep.saved hash).db k := by
  by_cases hk : k.1 = ep.service
  · exact h.row_missing_back ((h.row_left hk).trans hc)
  · obtain ⟨plan, db', hcom, hsame⟩ := h.leaving.exists_commits
    have hrows : (ep.left hash).db.servicesSettings = db'.servicesSettings := hsame.servicesSettings
    have hleft : (ep.left hash).db.servicesSettings.lookup k = none ↔
        OnlyDefault ep.config (ep.saved hash).db k := by
      rw [hrows]
      exact h.settled.row_missing h.leaves hcom h.multisite h.leaving.smooth h.away
        (fun hmem => hk (mem_away hmem)) hc
    refine ⟨fun hback s hs hid v hv => ?_, fun honly => ?_⟩
    · have hsep := h.settled.named.separate (setting_of_given hv).1
      cases hl : (ep.left hash).db.servicesSettings.lookup k with
      | none => exact hleft.mp hl s hs hid v hv
      | some c =>
        rw [h.row_back (h.separate_left hsep) hl] at hback
        cases hback
    · exact (h.row_missing_back (hleft.mpr honly)).mpr honly

/-- A service that the configuration has a value for is in the table. -/
theorem Valid.service_of_given (h : ep.Valid hash) {k : ServiceKey} {v : String}
    (hv : given ep.config (ep.saved hash).db k = some v) :
    ((ep.saved hash).db.services.lookup k.1).isSome := by
  obtain ⟨plan, db', hcom, hsame⟩ := h.first.exists_commits
  have hservices : (ep.saved hash).db.services = db'.services := hsame.services
  have hsettings : (ep.saved hash).db.settings = ep.found.db.settings :=
    hsame.settings.trans (hcom.settings_eq h.multisite)
  obtain ⟨t, id, n⟩ := k
  obtain ⟨hset, s, hs, rfl⟩ := setting_of_given hv
  have hlookup := ((given_eq_some hs).mp hv).2
  have hknown : servicesSet (autoconfCall ep.config) (ep.saved hash).db =
      servicesSet (autoconfCall ep.config) db' := hsame.servicesSet _
  rw [hknown] at hset
  rw [hsettings] at hs
  obtain ⟨hbefore, hgone⟩ := known_before hcom h.multisite hset
  rw [hservices]
  exact hcom.service_isSome h.multisite (h.first.smooth _) h.named h.readable.installed hs
    (keptService hbefore hgone) hlookup

/-! ### The whole episode -/

/-- **A service that comes back.** For every database, every configuration and labels, every service
that is published and all of `autoconf` after they have been saved, and every order of the tasks of
the pool: saving the configuration without the service and then again leaves all services with the
rows that they had exactly when every value that has no row counts as a default there. -/
theorem restored_iff (h : ep.Valid hash) :
    ep.Restored hash ↔ DefaultsStand ep.config (ep.saved hash).db := by
  rw [defaultsStand_iff h.settled.readable.installed h.settled.named]
  constructor
  · intro hrestored k hc s hs hid v hv
    have hback := (hrestored.rows k (h.service_of_given hv)).trans hc
    exact (h.row_missing hc).mp hback s hs hid v hv
  · intro hstand
    refine ⟨h.services_same h.published, fun _ _ => h.services_same, fun k hservice => ?_,
      h.configs_same⟩
    cases hc : (ep.saved hash).db.servicesSettings.lookup k with
    | none => exact (h.row_missing hc).mpr (hstand k hc)
    | some c => exact h.row_stays (h.settled.readable.services k.1 hservice) hc

end Episode

/-! ## A setting that moves from all services to two of them -/

def bothHosts : Dict String String :=
  Dict.ofItems [("MULTISITE", "yes"), ("www_USE_GZIP", "yes"), ("api_USE_GZIP", "yes"),
    ("SERVER_NAME", "www api")]

def oneHost : Dict String String :=
  Dict.ofItems [("MULTISITE", "yes"), ("www_USE_GZIP", "yes"), ("SERVER_NAME", "www")]

/-- Two services of `autoconf`, one of which leaves, with a custom configuration of its own. -/
def twoHosts (globals : List (GlobalKey × Cell)) : Episode String String where
  config := bothHosts
  less := oneHost
  labels := [⟨some "api", "http", "access", CustomConfigs.allowAll⟩]
  service := "api"
  found := ⟨site [("www", ⟨.autoconf, false⟩), ("api", ⟨.autoconf, false⟩)] globals [], [], rfl,
    List.nodup_nil⟩
  first := ⟨quietEnv, CustomConfigs.sqlite⟩
  leaving := ⟨quietEnv, CustomConfigs.sqlite⟩
  returning := ⟨quietEnv, CustomConfigs.sqlite⟩

/-- Nothing but the mode is global. -/
def plainGlobals : List (GlobalKey × Cell) := [(("MULTISITE", 0), ⟨"yes", "", .autoconf⟩)]

/-- The setting has the value of both services for all of them. -/
def sharedGlobals : List (GlobalKey × Cell) :=
  [(("MULTISITE", 0), ⟨"yes", "", .autoconf⟩), (("USE_GZIP", 0), ⟨"yes", "", .autoconf⟩)]

theorem oneHost_leaves : Leaves (some "api") bothHosts oneHost := by
  have hnames : serverNames bothHosts = ["www", "api"] := by decide
  have hless : serverNames oneHost = ["www"] := by decide
  constructor
  · intro t
    rw [hnames, hless]
    simp only [List.mem_cons, List.not_mem_nil, or_false, Option.mem_def, Option.some.injEq]
    constructor
    · rintro rfl
      exact ⟨.inl rfl, by decide⟩
    · rintro ⟨rfl | rfl, hne⟩
      · rfl
      · exact absurd rfl hne
  · intro t ht r
    obtain rfl := Episode.mem_away ht
    have hkeys : ∀ e ∈ oneHost.items, firstService ["api"] e.1 = none := by decide
    refine Option.eq_none_iff_forall_ne_some.mpr fun v hv => ?_
    exact firstService_eq_none.mp (hkeys _ (Dict.mem_items.mpr hv)) "api" List.mem_cons_self r rfl
  · rintro key ⟨hserver, happart⟩
    have hapi : key ≠ "api_USE_GZIP" := happart "api" rfl "USE_GZIP"
    have hitems : bothHosts.items = [("MULTISITE", "yes"), ("www_USE_GZIP", "yes"),
        ("api_USE_GZIP", "yes"), ("SERVER_NAME", "www api")] := by decide
    have hless : oneHost.items =
        [("MULTISITE", "yes"), ("www_USE_GZIP", "yes"), ("SERVER_NAME", "www")] := by decide
    refine Option.ext fun v => ?_
    rw [← Dict.mem_items, ← Dict.mem_items, hitems, hless]
    simp [hserver, hapi]

theorem twoHosts_valid {globals : List (GlobalKey × Cell)}
    (h : globals = plainGlobals ∨ globals = sharedGlobals) :
    (twoHosts globals).Valid CustomConfigs.sha256 := by
  have hown : Own ((twoHosts globals).saved CustomConfigs.sha256).db "api" := by
    refine ⟨⟨.autoconf, false⟩, ?_, rfl⟩
    rcases h with rfl | rfl <;> decide +kernel
  have hrows : ∀ e ∈ ((twoHosts globals).saved CustomConfigs.sha256).db.servicesSettings.items,
      e.2.method = .autoconf := by
    rcases h with rfl | rfl <;> decide +kernel
  have hconfigs : ∀ r ∈ ((twoHosts globals).saved CustomConfigs.sha256).configs,
      r.key.1 = some "api" → r.method = .autoconf := by
    rcases h with rfl | rfl <;> decide +kernel
  have howned : FullyOwned ((twoHosts globals).saved CustomConfigs.sha256) "api" :=
    ⟨hown, fun k c _ hc => hrows _ (Dict.mem_items.mpr hc), hconfigs⟩
  rcases h with rfl | rfl <;>
    exact
      { readable := by decide
        named := by decide
        multisite := by decide
        listed := by decide
        leaves := oneHost_leaves
        first := ⟨fun _ => rfl, by decide, rfl, rfl, by decide +kernel⟩
        leaving := ⟨fun _ => rfl, by decide +kernel, rfl, rfl, by decide +kernel⟩
        returning := ⟨fun _ => rfl, by decide +kernel, rfl, rfl, by decide +kernel⟩
        owned := howned
        published := by decide +kernel }

theorem twoHosts_restored : (twoHosts plainGlobals).Restored CustomConfigs.sha256 :=
  (Episode.restored_iff (twoHosts_valid (.inl rfl))).mpr (by decide +kernel)

/-- The global value goes with the first save, which takes the values of the services for defaults
because of it. The second save puts a row for the service that stays, and the third one for the
service that comes back. -/
theorem sharedSetting_changes_others :
    (twoHosts sharedGlobals).Valid CustomConfigs.sha256 ∧
      ¬ (twoHosts sharedGlobals).Restored CustomConfigs.sha256 := by
  refine ⟨twoHosts_valid (.inr rfl), fun h => ?_⟩
  have hrow := h.rows ("www", "USE_GZIP", 0) (by decide +kernel)
  exact absurd hrow (by decide +kernel)

end BunkerWeb.Autoconf.Saving
