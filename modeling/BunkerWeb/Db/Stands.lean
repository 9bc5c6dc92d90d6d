import BunkerWeb.Db.RoundTrip

/-!
# What each key of `get_config` stands for, exactly

- **The keys** (`key_getConfig`): those of settings, global or of a service, and the draft flags.
- **The values** (`templated_global`, `templated_service`): `stands` is what a key stands for before
  the groups are filled.
- **The groups** (`lookup_getConfig`): where every group is whole (`WholeGroups`) nothing is filled,
  and `get_config` is `stands` at each key.
-/

namespace BunkerWeb.Db

open Lib

/-- The scope is the global one or a service of the database. -/
def KnownScope (db : Database) (scope : Option String) : Prop :=
  ∀ service ∈ scope, (db.services.lookup service).isSome

/-- The names of the services. -/
def serviceIds (db : Database) : List String := db.services.items.map Prod.fst

/-- What a key stands for before the groups are filled. -/
def stands (db : Database) (scope : Option String) (s : Setting) (n : Nat) : Option String :=
  match scope with
  | none =>
    if suffixedKey s.id n = "SERVER_NAME" then some (joinWords (serviceIds db))
    else globalValue db s n
  | some service => keyValue db service s n

/-- The key of the draft flag of a service. -/
def draftKey (service : String) : String := joinKey service "IS_DRAFT"

/-- The key is that of a setting, or a draft flag. -/
def KeyForm (db : Database) (key : String) : Prop :=
  (∃ scope, KnownScope db scope ∧ ∃ s ∈ db.settings.all, ∃ n, key = keyOf scope s n) ∨
    ∃ service, (db.services.lookup service).isSome ∧ key = draftKey service

section

variable {db : Database} {s : Setting} {n : Nat} {service : String} {config : Dict String Entry}

theorem knownScope_none : KnownScope db none := fun _ h => by cases h

theorem knownScope_some (h : (db.services.lookup service).isSome) : KnownScope db (some service) :=
  fun _ h' => Option.some.inj h' ▸ h

/-! ## The keys -/

/-- Every key of a dictionary is that of a setting or a draft flag. -/
def KeyForms (db : Database) (config : Dict String Entry) : Prop := ∀ key ∈ config, KeyForm db key

theorem KeyForms.setAll (h : KeyForms db config) {l : List (String × Entry)}
    (hl : ∀ e ∈ l, KeyForm db e.1) : KeyForms db (config.setAll l) := by
  intro key hkey
  rcases Dict.mem_of_mem_setAll hkey with hd | hl'
  · exact h key hd
  · obtain ⟨e, he, rfl⟩ := List.mem_map.mp hl'
    exact hl e he

theorem KeyForms.setAllUnless (h : KeyForms db config) {keep : Entry → Bool}
    {l : List (String × Entry)} (hl : ∀ e ∈ l, KeyForm db e.1) :
    KeyForms db (config.setAllUnless keep l) := by
  intro key hkey
  rcases Dict.mem_of_mem_setAllUnless hkey with hd | hl'
  · exact h key hd
  · obtain ⟨e, he, rfl⟩ := List.mem_map.mp hl'
    exact hl e he

theorem KeyForm.ofGlobal (hs : s ∈ db.settings.all) (n : Nat) : KeyForm db (suffixedKey s.id n) :=
  .inl ⟨none, knownScope_none, s, hs, n, rfl⟩

theorem KeyForm.ofService (hservice : (db.services.lookup service).isSome)
    (hs : s ∈ db.settings.all) (n : Nat) : KeyForm db (joinKey service (suffixedKey s.id n)) :=
  .inl ⟨some service, knownScope_some hservice, s, hs, n, rfl⟩

/-- The layers of `get_non_default_settings` bring keys of settings and draft flags. -/
theorem keyForms_stages (h : Readable db) {original : Dict String Entry} {multisite : List String}
    (horiginal : KeyForms db original)
    (hmultisite : ∀ key ∈ multisite, ∃ s ∈ db.settings.all, ∃ n, key = suffixedKey s.id n) :
    KeyForms db ((withRows db (withInherited db (withDraftEntries db (withGlobals db original))
      (inheritedKeys db multisite))).insert "SERVER_NAME"
        (serversEntry ((serviceList db withDrafts).map Prod.fst))) := by
  have hglobals : KeyForms db (withGlobals db original) := by
    refine horiginal.setAll fun e he => ?_
    obtain ⟨⟨s, n, c⟩, hrow, rfl⟩ := List.mem_map.mp he
    show KeyForm db (valueKey s n)
    rw [h.valueKey_eq hrow]
    exact .ofGlobal (mem_globalRows.mp hrow).1 n
  have hdrafts : KeyForms db (withDraftEntries db (withGlobals db original)) := by
    refine hglobals.setAll fun e he => ?_
    obtain ⟨sv, hsv, rfl⟩ := List.mem_map.mp he
    exact .inr ⟨sv.1, mem_serviceList.mp (List.mem_map_of_mem hsv), rfl⟩
  have hinherited : KeyForms db (withInherited db
      (withDraftEntries db (withGlobals db original)) (inheritedKeys db multisite)) := by
    refine hdrafts.setAllUnless fun e he => ?_
    obtain ⟨sv, hsv, he⟩ := List.mem_flatMap.mp he
    obtain ⟨⟨key, e'⟩, hmem, rfl⟩ := List.mem_map.mp he
    obtain ⟨key', hkey', hmap⟩ := List.mem_filterMap.mp hmem
    obtain ⟨_, -, heq⟩ := Option.map_eq_some_iff.mp hmap
    obtain ⟨rfl, -⟩ := Prod.mk.inj heq
    have hsv := mem_serviceList.mp (List.mem_map_of_mem hsv)
    -- A service inherits keys of settings.
    rcases List.mem_append.mp hkey' with hid | hrow
    · obtain ⟨s, hs, n, rfl⟩ := hmultisite _ hid
      exact .ofService hsv hs n
    · obtain ⟨⟨s, n, c⟩, hr, rfl⟩ := List.mem_map.mp hrow
      have hr := (List.mem_filter.mp hr).1
      show KeyForm db (joinKey sv.1 (valueKey s n))
      rw [h.valueKey_eq hr]
      exact .ofService hsv (mem_globalRows.mp hr).1 n
  have hrows : KeyForms db (withRows db (withInherited db
      (withDraftEntries db (withGlobals db original)) (inheritedKeys db multisite))) := by
    refine hinherited.setAll fun e he => ?_
    obtain ⟨⟨sv, s, n, c⟩, hr, rfl⟩ := List.mem_map.mp he
    simp only
    rw [h.serviceKey_eq hr]
    obtain ⟨hsv, hs, -⟩ := mem_serviceRows.mp hr
    exact .ofService hsv hs n
  intro key hkey
  rcases (AList.mem_insert _).mp hkey with rfl | hkey
  · obtain ⟨s, hs, hid⟩ := h.installed.serverName
    exact hid ▸ .ofGlobal hs 0
  · exact hrows key hkey

theorem keyForms_baseConfig (h : Readable db) (hm : StoredMultisite db) :
    KeyForms db (baseConfig db withDrafts) := by
  rw [baseConfig_stages h hm]
  refine keyForms_stages h (KeyForms.setAll (fun key hkey => by cases hkey) fun e he => ?_)
    fun key hkey => ?_
  · obtain ⟨s, hs, rfl⟩ := List.mem_map.mp he
    exact .ofGlobal hs 0
  · obtain ⟨s, hs, rfl⟩ := List.mem_map.mp hkey
    exact ⟨s, (List.mem_filter.mp hs).1, 0, rfl⟩

theorem keyForms_templatedConfig (h : Readable db) (hm : StoredMultisite db) :
    KeyForms db (templatedConfig db) := by
  have hglobal : KeyForms db (withGlobalTemplate db (baseConfig db withDrafts)) := by
    unfold withGlobalTemplate
    split
    · exact keyForms_baseConfig h hm
    · refine (keyForms_baseConfig h hm).setAllUnless fun e he => ?_
      obtain ⟨t, ht, rfl⟩ := List.mem_map.mp he
      obtain ⟨-, s, hs, hid⟩ := h.installed.templates t (mem_templateSettings ht)
      exact hid ▸ .ofGlobal hs t.suffix
  refine hglobal.setAllUnless fun e he => ?_
  obtain ⟨u, hu, he⟩ := List.mem_flatMap.mp he
  obtain ⟨t, ht, rfl⟩ := List.mem_map.mp he
  obtain ⟨-, s, hs, hid⟩ := h.installed.templates t (mem_templateSettings ht)
  exact hid ▸ .ofService ((mem_usedTemplates h hm).mp hu).1 hs t.suffix

/-! ## The values -/

theorem serviceIds_eq : (serviceList db withDrafts).map Prod.fst = serviceIds db := by
  simp [serviceIds, serviceList, withDrafts]

/-- The scope has the key: the draft flag of a service is not a setting of its own. -/
def Proper (db : Database) (scope : Option String) (s : Setting) (n : Nat) : Prop :=
  KnownScope db scope ∧ (scope.isSome → suffixedKey s.id n ≠ "IS_DRAFT")

/-- A key of a setting before the groups are filled. -/
theorem lookup_templatedConfig (h : Readable db) (hm : StoredMultisite db)
    (hs : s ∈ db.settings.all) {scope : Option String} (hscope : Proper db scope s n) :
    ((templatedConfig db).lookup (keyOf scope s n)).map Entry.value = stands db scope s n := by
  cases scope with
  | some service => exact templated_service h hm hs (hscope.1 service rfl) (hscope.2 rfl)
  | none =>
    rw [keyOf, stands]
    by_cases hserver : suffixedKey s.id n = "SERVER_NAME"
    · have hkey : ∀ service, (db.services.lookup service).isSome → ∀ r,
          suffixedKey s.id n ≠ joinKey service r := fun service hservice =>
        (h.services service hservice).ne_joinKey hs n
      rw [if_pos hserver, templatedConfig,
        lookup_withServiceTemplates_global (mem_serverName h hm) hkey, hserver,
        lookup_serverName h hm, Option.map_some, serviceIds_eq]
      rfl
    · rw [if_neg hserver]
      exact templated_global h hm hs hserver

/-! ## The groups -/

/-- The scope of a window of the groups. -/
def windowScope (window : String) : Option String :=
  if window = "global" then none else some window

/-- Every numbered key that stands for something comes with the keys of its whole group. -/
def WholeGroups (db : Database) : Prop :=
  ∀ scope s n, Proper db scope s n → s ∈ db.settings.all → stands db scope s n ≠ none →
    ∀ group window k,
      groupOf (groupsOf db) (serviceIds db) (keyOf scope s n) = some (group, window, k) →
        ∀ s' ∈ db.settings.all, s'.multiple = some group →
          0 < k ∧ stands db (windowScope window) s' k ≠ none

/-- The draft flags are in no group. -/
theorem groupOf_draftKey (groups : String → Option String) (services : List String)
    (service : String) : groupOf groups services (draftKey service) = none := by
  have hrx : suffixRx (draftKey service) = none := by
    cases hrx : suffixRx (draftKey service) with
    | none => rfl
    | some r =>
      obtain ⟨hkey, -, -, hdigits⟩ := suffixRx_eq_some.mp hrx
      have hunder : '_' ∉ r.2.toList := fun hmem => absurd (hdigits _ hmem) (by decide)
      rw [draftKey, show "IS_DRAFT" = joinKey "IS" "DRAFT" by decide, ← joinKey_assoc] at hkey
      obtain ⟨-, hr⟩ := joinKey_inj_of_last (by decide) hunder hkey
      exact absurd (hdigits 'D' (by rw [← hr]; decide)) (by decide)
  rw [groupOf, hrx]

theorem words_serverName (h : Readable db) (hm : StoredMultisite db) :
    words (valueOf (templatedConfig db) "SERVER_NAME" "") = serviceIds db := by
  obtain ⟨s, hs, hid⟩ := h.installed.serverName
  have hproper : Proper db none s 0 := ⟨knownScope_none, fun hsome => by cases hsome⟩
  have hl := lookup_templatedConfig h hm hs hproper
  rw [keyOf, suffixedKey_zero, hid, stands, suffixedKey_zero, hid, if_pos rfl] at hl
  rw [valueOf, hl, Option.getD_some]
  refine words_joinWords fun name hname => ?_
  obtain ⟨e, he, rfl⟩ := List.mem_map.mp hname
  exact (h.services e.1 (Option.isSome_iff_exists.mpr ⟨e.2, Dict.mem_items.mp he⟩)).word

theorem mem_serviceIds : service ∈ serviceIds db ↔ (db.services.lookup service).isSome := by
  rw [← serviceIds_eq, mem_serviceList]

/-- Where the groups are whole, none is filled. -/
theorem lookup_getConfigEntries (h : Readable db) (hm : StoredMultisite db)
    (hwhole : WholeGroups db) (key : String) :
    (getConfigEntries db withDrafts).lookup key = (templatedConfig db).lookup key := by
  rw [getConfigEntries_eq h hm, Dict.lookup_setDefaults]
  cases hkey : (templatedConfig db).lookup key with
  | some e => rfl
  | none =>
    rw [Option.none_or]
    refine Dict.firstOf_eq_none.mpr ?_
    rintro ⟨key', e⟩ he hkey'
    obtain rfl : key' = key := hkey'
    obtain ⟨s', hs', k, window, ⟨item, hitem, group, hgroup, hof⟩, hfill, -⟩ :=
      mem_groupDefaults_window he
    rw [words_serverName h hm] at hof
    have hitem := Dict.mem_items.mp hitem
    have hstands : 0 < k ∧ stands db (windowScope window) s' k ≠ none := by
      rcases keyForms_templatedConfig h hm item.1 (Dict.mem_iff_lookup.mpr ⟨_, hitem⟩) with
        ⟨scope, hscope, s, hs, n, hform⟩ | ⟨service, -, hform⟩
      · rw [hform] at hof hitem
        have hproper : Proper db scope s n := by
          refine ⟨hscope, fun hsome he => ?_⟩
          obtain ⟨service, rfl⟩ := Option.isSome_iff_exists.mp hsome
          rw [keyOf, he] at hof
          cases hof.symm.trans (groupOf_draftKey _ _ service)
        refine hwhole scope s n hproper hs (fun hnone => ?_) group window k hof s' hs' hgroup
        rw [← lookup_templatedConfig h hm hs hproper, hitem] at hnone
        cases hnone
      · rw [hform, groupOf_draftKey] at hof
        cases hof
    obtain ⟨hpos, hstands⟩ := hstands
    -- The key that would be filled is there.
    have hproper : Proper db (windowScope window) s' k := by
      constructor
      · intro sv hsv
        rw [windowScope] at hsv
        split at hsv
        · cases hsv
        · rename_i hne
          cases hsv
          exact mem_serviceIds.mp ((groupOf_window hof).resolve_left hne)
      · intro _ he
        have := (suffixedKey_eq (db.settings.ne_empty s' hs') (h.installed.unnumbered s' hs')
          (by decide) he).2
        omega
    have hlookup := lookup_templatedConfig h hm hs' hproper
    have hsame : keyOf (windowScope window) s' k = key' := by
      rw [hfill, windowScope]
      split
      · rw [keyOf, suffixedKey_of_pos _ hpos]
      · rw [keyOf, suffixedKey_of_pos _ hpos]
    rw [hsame, hkey] at hlookup
    exact hstands hlookup.symm

theorem lookup_getConfig (h : Readable db) (hm : StoredMultisite db) (hwhole : WholeGroups db)
    (hs : s ∈ db.settings.all) {scope : Option String} (hscope : Proper db scope s n) :
    (getConfig db withDrafts).lookup (keyOf scope s n) = stands db scope s n := by
  rw [getConfig, Dict.lookup_mapValues, lookup_getConfigEntries h hm hwhole,
    lookup_templatedConfig h hm hs hscope]

/-- Each key of the configuration is that of a setting or a draft flag. -/
theorem keyForm_getConfig (h : Readable db) (hm : StoredMultisite db) (hwhole : WholeGroups db)
    {key value : String} (hl : (getConfig db withDrafts).lookup key = some value) :
    KeyForm db key := by
  rw [getConfig, Dict.lookup_mapValues, lookup_getConfigEntries h hm hwhole] at hl
  obtain ⟨e, he, -⟩ := Option.map_eq_some_iff.mp hl
  exact keyForms_templatedConfig h hm key (Dict.mem_iff_lookup.mpr ⟨e, he⟩)

/-! ## The draft flags -/

/-- Nothing but the flag of a service sets its draft key: no template does, and no row. -/
structure DraftsApart (db : Database) : Prop where
  templates : ∀ t ∈ db.templateSettings, t.settingId ≠ "IS_DRAFT"
  rows : ∀ service, db.servicesSettings.lookup (service, "IS_DRAFT", 0) = none

/-- The text of a draft flag. -/
def draftText (sv : Service) : String := if sv.isDraft then "yes" else "no"

theorem eq_isDraft (h : Readable db) (hs : s ∈ db.settings.all)
    (he : suffixedKey s.id n = "IS_DRAFT") : s.id = "IS_DRAFT" ∧ n = 0 :=
  suffixedKey_eq (db.settings.ne_empty s hs) (h.installed.unnumbered s hs) (by decide) he

/-- The layers of `get_non_default_settings` keep the draft flag of a service without a row of its
own. -/
theorem lookup_stages_draft (h : Readable db) {original : Dict String Entry}
    {multisite : List String}
    (hapart : db.servicesSettings.lookup (service, "IS_DRAFT", 0) = none) {sv : Service}
    (hsv : db.services.lookup service = some sv) :
    (((withRows db (withInherited db (withDraftEntries db (withGlobals db original))
      (inheritedKeys db multisite))).insert "SERVER_NAME"
        (serversEntry ((serviceList db withDrafts).map Prod.fst))).lookup
          (draftKey service)).map Entry.value = some (draftText sv) := by
  have hservice : (db.services.lookup service).isSome := by rw [hsv]; rfl
  have hsep := h.services service hservice
  have hdraft : ∀ config, (withDraftEntries db config).lookup (draftKey service) =
      some (draftEntry config sv) := by
    intro config
    rw [withDraftEntries, Dict.lookup_setAll, Dict.lastOf_eq_some (v := draftEntry config sv)]
    · rfl
    · have hmem : (service, sv) ∈ serviceList db withDrafts := by
        simp [serviceList, withDrafts, Dict.mem_items.mpr hsv]
      exact List.mem_map.mpr ⟨_, hmem, rfl⟩
    · intro e he
      obtain ⟨⟨id, sv'⟩, hmem, heq⟩ := List.mem_map.mp he
      obtain ⟨hkey, rfl⟩ := Prod.mk.inj heq
      have hl := Dict.mem_items.mp (List.mem_filter.mp hmem).1
      obtain ⟨rfl, -⟩ := (h.services id (by rw [hl]; rfl)).joinKey_inj hsep hkey
      rw [hsv] at hl
      cases hl
      rfl
  have hinherited : (withInherited db (withDraftEntries db (withGlobals db original))
      (inheritedKeys db multisite)).lookup (draftKey service) =
        some (draftEntry (withGlobals db original) sv) := by
    rw [draftKey, lookup_withInherited h hservice, ← draftKey, hdraft]
    rfl
  have hrows : (withRows db (withInherited db (withDraftEntries db (withGlobals db original))
      (inheritedKeys db multisite))).lookup (draftKey service) =
        some (draftEntry (withGlobals db original) sv) := by
    rw [withRows, Dict.lookup_setAll, Dict.lastOf_eq_none.mpr, hinherited]
    · rfl
    · intro e he hkey
      obtain ⟨⟨id, s, n, c⟩, hr, rfl⟩ := List.mem_map.mp he
      simp only at hkey
      rw [h.serviceKey_eq hr] at hkey
      obtain ⟨hid, hs, hl⟩ := mem_serviceRows.mp hr
      obtain ⟨rfl, hrest⟩ := (h.services id hid).joinKey_inj hsep hkey
      obtain ⟨hname, rfl⟩ := eq_isDraft h hs hrest
      rw [hname, hapart] at hl
      cases hl
  have hne : draftKey service ≠ "SERVER_NAME" := h.joinKey_ne_serverName hservice _
  rw [AList.lookup_insert_ne hne, hrows, Option.map_some, draftEntry, draftText]

/-- The draft key of a service is its flag. -/
theorem lookup_getConfig_draft (h : Readable db) (hm : StoredMultisite db)
    (hwhole : WholeGroups db) (hapart : DraftsApart db) {sv : Service}
    (hsv : db.services.lookup service = some sv) :
    (getConfig db withDrafts).lookup (draftKey service) = some (draftText sv) := by
  have hservice : (db.services.lookup service).isSome := by rw [hsv]; rfl
  have htemplates : (withServiceTemplates db
      (withGlobalTemplate db (baseConfig db withDrafts))).lookup (draftKey service) =
        (withGlobalTemplate db (baseConfig db withDrafts)).lookup (draftKey service) := by
    rw [withServiceTemplates, Dict.lookup_setAllUnless, Dict.lastOf_eq_none.mpr]
    · simp
    · intro e he hkey
      obtain ⟨u, hu, he⟩ := List.mem_flatMap.mp he
      obtain ⟨t, ht, rfl⟩ := List.mem_map.mp he
      obtain ⟨-, s, hs, hid⟩ := h.installed.templates t (mem_templateSettings ht)
      have hu := (mem_usedTemplates h hm).mp hu
      obtain ⟨-, hrest⟩ := (h.services u.1 hu.1).joinKey_inj (h.services service hservice) hkey
      rw [← hid] at hrest
      exact hapart.templates t (mem_templateSettings ht) (hid ▸ (eq_isDraft h hs hrest).1)
    · intro e he
      obtain ⟨u, -, he⟩ := List.mem_flatMap.mp he
      obtain ⟨t, -, rfl⟩ := List.mem_map.mp he
      rfl
  rw [getConfig, Dict.lookup_mapValues, lookup_getConfigEntries h hm hwhole, templatedConfig,
    htemplates, draftKey, lookup_withGlobalTemplate_of_ne h (h.joinKey_ne hservice _), ← draftKey,
    baseConfig_stages h hm, lookup_stages_draft h (hapart.rows service) hsv]

end

end BunkerWeb.Db

/-!
## What `get_non_default_settings` lists

Without the defaults under them, the rows are all that is listed: a global key has its row, a key of
a service has its row or the row of the global key that it inherits.

- **The keys** (`keyForm_nonDefault`): those of settings and the draft flags.
- **The values** (`lookup_nonDefault`, `lookup_nonDefault_draft`).
-/

namespace BunkerWeb.Db

open Lib

/-- `get_non_default_settings(methods=False, with_drafts=True)`. -/
def nonDefault (db : Database) : Dict String String :=
  (getNonDefaultSettings db withDrafts ∅ []).mapValues Entry.value

/-- What a key has in a row. -/
def listed (db : Database) (scope : Option String) (s : Setting) (n : Nat) : Option String :=
  match scope with
  | none =>
    if suffixedKey s.id n = "SERVER_NAME" then some (joinWords (serviceIds db))
    else (db.globalValues.lookup (s.id, n)).map Cell.value
  | some service =>
    ((db.servicesSettings.lookup (service, s.id, n)).map (rowText service s)).or
      (if s.context = .multisite then (db.globalValues.lookup (s.id, n)).map Cell.value else none)

section

variable {db : Database} {s : Setting} {n : Nat} {service : String} {scope : Option String}

theorem StoredMultisite.nonDefault_entry (h : Readable db) (hm : StoredMultisite db) :
    ((withGlobals db ∅).lookup "MULTISITE").map Entry.value = some "yes" := by
  obtain ⟨s, hs, hid, -⟩ := h.installed.multisite
  have hl : (withGlobals db ∅).lookup (suffixedKey s.id 0) = _ := lookup_withGlobals h hs 0
  rw [suffixedKey_zero, hid] at hl
  obtain ⟨c, hc, hyes⟩ := Option.map_eq_some_iff.mp hm
  rw [hl, hc, Option.map_some, Option.some_or, Option.map_some, globalEntry, hyes]

/-- The layers. -/
theorem nonDefault_stages (h : Readable db) (hm : StoredMultisite db) :
    getNonDefaultSettings db withDrafts ∅ [] =
      (withRows db (withInherited db (withDraftEntries db (withGlobals db ∅))
        (inheritedKeys db []))).insert "SERVER_NAME"
        (serversEntry ((serviceList db withDrafts).map Prod.fst)) :=
  getNonDefaultSettings_eq (hm.nonDefault_entry h)

/-! ## The keys -/

theorem keyForms_nonDefault (h : Readable db) (hm : StoredMultisite db) :
    KeyForms db (getNonDefaultSettings db withDrafts ∅ []) := by
  rw [nonDefault_stages h hm]
  exact keyForms_stages h (fun key hkey => by cases hkey) fun key hkey => by cases hkey

/-- Each key that is listed is that of a setting or a draft flag. -/
theorem keyForm_nonDefault (h : Readable db) (hm : StoredMultisite db) {key value : String}
    (hl : (nonDefault db).lookup key = some value) : KeyForm db key := by
  rw [nonDefault, Dict.lookup_mapValues] at hl
  obtain ⟨e, he, -⟩ := Option.map_eq_some_iff.mp hl
  exact keyForms_nonDefault h hm key (Dict.mem_iff_lookup.mpr ⟨e, he⟩)

/-! ## The values -/

/-- The global keys are listed whether the database is multisite or not. -/
theorem lookup_nonDefault_global (h : Readable db) (hs : s ∈ db.settings.all) :
    (nonDefault db).lookup (suffixedKey s.id n) = listed db none s n := by
  have hkey : ∀ service, (db.services.lookup service).isSome → ∀ r,
      suffixedKey s.id n ≠ joinKey service r := fun service hservice =>
    (h.services service hservice).ne_joinKey hs n
  have hglobals : ((withGlobals db ∅).lookup (suffixedKey s.id n)).map Entry.value =
      (db.globalValues.lookup (s.id, n)).map Cell.value := by
    rw [lookup_withGlobals h hs, AList.lookup_empty, Option.or_none, Option.map_map]
    rfl
  rw [nonDefault, Dict.lookup_mapValues, getNonDefaultSettings_stages, listed]
  by_cases hserver : suffixedKey s.id n = "SERVER_NAME"
  · rw [if_pos hserver, hserver, AList.lookup_insert, Option.map_some, serviceIds_eq]
    rfl
  · rw [if_neg hserver, AList.lookup_insert_ne hserver]
    split
    · rw [lookup_withRows_global h hkey, lookup_withInherited_global hkey,
        lookup_withDraftEntries fun sv hsv => hkey sv hsv _, hglobals]
    · exact hglobals

/-- What a service inherits of the listed keys. -/
theorem mem_inheritedKeys (h : Readable db) (hs : s ∈ db.settings.all) :
    suffixedKey s.id n ∈ inheritedKeys db [] ↔
      s.context = .multisite ∧ (db.globalValues.lookup (s.id, n)).isSome := by
  rw [inheritedKeys, List.nil_append, List.mem_map]
  constructor
  · rintro ⟨⟨s', n', c⟩, hr, hkey⟩
    obtain ⟨hr, hctx⟩ := List.mem_filter.mp hr
    have hkey : valueKey s' n' = suffixedKey s.id n := hkey
    rw [h.valueKey_eq hr] at hkey
    obtain ⟨hs', hc⟩ := mem_globalRows.mp hr
    obtain ⟨rfl, rfl⟩ := h.installed.suffixedKey_inj hs' hs hkey
    exact ⟨of_decide_eq_true hctx, by rw [hc]; rfl⟩
  · rintro ⟨hctx, hsome⟩
    obtain ⟨c, hc⟩ := Option.isSome_iff_exists.mp hsome
    have hr : (s, n, c) ∈ globalRows db withDrafts := mem_globalRows.mpr ⟨hs, hc⟩
    exact ⟨_, List.mem_filter.mpr ⟨hr, decide_eq_true hctx⟩, h.valueKey_eq hr⟩

theorem lookup_nonDefault_service (h : Readable db) (hm : StoredMultisite db)
    (hs : s ∈ db.settings.all) (hservice : (db.services.lookup service).isSome)
    (hdraft : suffixedKey s.id n ≠ "IS_DRAFT") :
    (nonDefault db).lookup (joinKey service (suffixedKey s.id n)) =
      listed db (some service) s n := by
  have hsep := h.services service hservice
  have hbelow : (withDraftEntries db (withGlobals db ∅)).lookup
      (joinKey service (suffixedKey s.id n)) = none := by
    rw [lookup_withDraftEntries fun sv hsv he => hdraft (hsep.joinKey_inj (h.services sv hsv) he).2,
      lookup_withGlobals_joinKey h hsep, AList.lookup_empty]
  have hglobal : ((withDraftEntries db (withGlobals db ∅)).lookup (suffixedKey s.id n)) =
      (db.globalValues.lookup (s.id, n)).map (globalEntry s) := by
    rw [lookup_withDraftEntries fun sv hsv => (h.services sv hsv).ne_joinKey hs n _,
      lookup_withGlobals h hs, AList.lookup_empty, Option.or_none]
  rw [nonDefault, Dict.lookup_mapValues, nonDefault_stages h hm,
    AList.lookup_insert_ne (h.joinKey_ne_serverName hservice _), lookup_withRows h hs hservice,
    lookup_withInherited h hservice, hbelow, hglobal, Option.none_or, listed, Option.map_or,
    Option.map_map]
  congr 1
  simp only [mem_inheritedKeys h hs]
  by_cases hctx : s.context = .multisite
  · rw [if_pos hctx]
    cases db.globalValues.lookup (s.id, n) <;> simp [hctx, globalEntry]
  · rw [if_neg hctx, if_neg fun hmem => hctx hmem.1]
    rfl

/-- A listed key of a setting. -/
theorem lookup_nonDefault (h : Readable db) (hm : StoredMultisite db) (hs : s ∈ db.settings.all)
    (hscope : Proper db scope s n) :
    (nonDefault db).lookup (keyOf scope s n) = listed db scope s n := by
  cases scope with
  | none => exact lookup_nonDefault_global h hs
  | some service =>
    exact lookup_nonDefault_service h hm hs (hscope.1 service rfl) (hscope.2 rfl)

/-- A listed draft flag. -/
theorem lookup_nonDefault_draft (h : Readable db) (hm : StoredMultisite db)
    (hapart : db.servicesSettings.lookup (service, "IS_DRAFT", 0) = none) {sv : Service}
    (hsv : db.services.lookup service = some sv) :
    (nonDefault db).lookup (draftKey service) = some (draftText sv) := by
  rw [nonDefault, Dict.lookup_mapValues, nonDefault_stages h hm, lookup_stages_draft h hapart hsv]

end

end BunkerWeb.Db
