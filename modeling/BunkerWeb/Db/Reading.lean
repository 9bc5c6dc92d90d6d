import BunkerWeb.Db.Read

/-!
# What `get_config` finds at a key: the rows

For a database whose rows and names are in order (`Readable`), the layers of `get_config` come apart
at each key of a setting. Before the templates, a global key has its row or the default of its
setting, and a key of a service has its row or what the global key has.
-/

namespace BunkerWeb.Db

open Lib

/-- The name of a service is a word that no key of a setting starts with. -/
structure Separate (settings : Catalog) (service : String) : Prop where
  word : IsWord service
  noUnderscore : '_' ∉ service.toList
  notSetting : ∀ s ∈ settings.all, s.id ≠ service
  notPrefix : ∀ s ∈ settings.all, ∀ r, s.id ≠ joinKey service r
  /-- The window of the global settings has this name. -/
  notGlobal : service ≠ "global"

/-- What the tables of the settings and of the templates hold once they are filled. No template
sets one of `RESTRICTED_TEMPLATE_SETTINGS`. -/
structure Installed (db : Database) : Prop where
  unnumbered : ∀ s ∈ db.settings.all, suffixRx s.id = none
  serverName : ∃ s ∈ db.settings.all, s.id = "SERVER_NAME"
  multisite : ∃ s ∈ db.settings.all, s.id = "MULTISITE" ∧ s.default = "no"
  useTemplate : ∃ s ∈ db.settings.all, s.id = "USE_TEMPLATE" ∧ s.context = .multisite ∧
    s.default = "" ∧ s.type ≠ .file
  templates : ∀ t ∈ db.templateSettings, t.settingId ≠ "USE_TEMPLATE" ∧
    ∃ s ∈ db.settings.all, s.id = t.settingId

/-- The names of the services are no trouble, and only settings that may be numbered are. -/
structure Readable (db : Database) : Prop where
  installed : Installed db
  services : ∀ id, (db.services.lookup id).isSome → Separate db.settings id
  globals : ∀ k c, db.globalValues.lookup k = some c → 0 < k.2 →
    ∀ s ∈ db.settings.all, s.id = k.1 → s.multiple.isSome
  rows : ∀ k c, db.servicesSettings.lookup k = some c → 0 < k.2.2 →
    ∀ s ∈ db.settings.all, s.id = k.2.1 → s.multiple.isSome

instance (settings : Catalog) (service : String) : Decidable (Separate settings service) :=
  decidable_of_iff (IsWord service ∧ '_' ∉ service.toList ∧
      (∀ s ∈ settings.all, s.id ≠ service) ∧
      (∀ s ∈ settings.all, firstService [service] s.id = none) ∧ service ≠ "global")
    ⟨fun ⟨hword, hunder, hne, hpre, hglobal⟩ => ⟨hword, hunder, hne,
        fun s hs => firstService_eq_none.mp (hpre s hs) service List.mem_cons_self, hglobal⟩,
      fun h => ⟨h.word, h.noUnderscore, h.notSetting, fun s hs => firstService_eq_none.mpr
        fun _ ht => List.mem_singleton.mp ht ▸ h.notPrefix s hs, h.notGlobal⟩⟩

instance (db : Database) : Decidable (Installed db) :=
  decidable_of_iff (_ ∧ _ ∧ _ ∧ _ ∧ _)
    ⟨fun ⟨h1, h2, h3, h4, h5⟩ => ⟨h1, h2, h3, h4, h5⟩,
      fun h => ⟨h.unnumbered, h.serverName, h.multisite, h.useTemplate, h.templates⟩⟩

instance (db : Database) : Decidable (Readable db) :=
  decidable_of_iff (Installed db ∧
      (∀ e ∈ db.services.items, Separate db.settings e.1) ∧
      (∀ r ∈ db.globalValues.items, 0 < r.1.2 →
        ∀ s ∈ db.settings.all, s.id = r.1.1 → s.multiple.isSome) ∧
      ∀ r ∈ db.servicesSettings.items, 0 < r.1.2.2 →
        ∀ s ∈ db.settings.all, s.id = r.1.2.1 → s.multiple.isSome)
    ⟨fun ⟨hinst, hservices, hglobals, hrows⟩ => ⟨hinst,
        fun id hid => by
          obtain ⟨sv, hsv⟩ := Option.isSome_iff_exists.mp hid
          exact hservices _ (Dict.mem_items.mpr hsv),
        fun k c hk => hglobals (k, c) (Dict.mem_items.mpr hk),
        fun k c hk => hrows (k, c) (Dict.mem_items.mpr hk)⟩,
      fun h => ⟨h.installed,
        fun e he => h.services e.1 (Option.isSome_iff_exists.mpr ⟨e.2, Dict.mem_items.mp he⟩),
        fun r hr => h.globals r.1 r.2 (Dict.mem_items.mp hr),
        fun r hr => h.rows r.1 r.2 (Dict.mem_items.mp hr)⟩⟩

/-- The value of a global key before the templates. -/
def baseValue (db : Database) (s : Setting) (n : Nat) : Option String :=
  match db.globalValues.lookup (s.id, n) with
  | some c => some c.value
  | none => if n = 0 then some s.default else none

/-! ## Keys -/

section

variable {db : Database} {s : Setting} {n : Nat} {service : String}

theorem Separate.ne_joinKey (h : Separate db.settings service) (hs : s ∈ db.settings.all) (n : Nat)
    (r : String) : suffixedKey s.id n ≠ joinKey service r :=
  suffixedKey_ne_joinKey h.noUnderscore (h.notSetting s hs) (h.notPrefix s hs) n r

theorem Separate.joinKey_inj {service' r r' : String} (h : Separate db.settings service)
    (h' : Separate db.settings service') (he : joinKey service r = joinKey service' r') :
    service = service' ∧ r = r' :=
  BunkerWeb.joinKey_inj h.noUnderscore h'.noUnderscore he

/-- A key of a service is taken apart behind its name. -/
theorem firstService_joinKey {settings : Catalog} {services : List String}
    (hsep : ∀ id ∈ services, Separate settings id) (h : service ∈ services) (rest : String) :
    firstService services (joinKey service rest) = some (service, rest) :=
  firstService_eq_some.mpr ⟨h, rfl, fun _ ht _ he =>
    le_of_eq (congrArg String.length (BunkerWeb.joinKey_inj (hsep _ h).noUnderscore
      (hsep _ ht).noUnderscore he).1)⟩

theorem Installed.suffixedKey_inj (h : Installed db) {s' : Setting} {n' : Nat}
    (hs : s ∈ db.settings.all) (hs' : s' ∈ db.settings.all)
    (he : suffixedKey s.id n = suffixedKey s'.id n') : s = s' ∧ n = n' := by
  obtain ⟨hid, hn⟩ := BunkerWeb.suffixedKey_inj (db.settings.ne_empty s hs)
    (db.settings.ne_empty s' hs') (h.unnumbered s hs) (h.unnumbered s' hs') he
  exact ⟨db.settings.eq_of_id hs hs' hid, hn⟩

theorem valueKey_eq (h : 0 < n → s.multiple.isSome) : valueKey s n = suffixedKey s.id n := by
  unfold valueKey
  rcases Nat.eq_zero_or_pos n with rfl | hpos
  · simp
  · rw [suffixedKey_of_pos _ hpos, h hpos]
    simp [hpos]

@[simp] theorem wants_withDrafts (id : String) : withDrafts.wants id = true := rfl

theorem mem_globalRows {c : Cell} :
    (s, n, c) ∈ globalRows db withDrafts ↔
      s ∈ db.settings.all ∧ db.globalValues.lookup (s.id, n) = some c := by
  unfold globalRows
  simp only [wants_withDrafts, List.filter_true, List.mem_flatMap, List.mem_map, List.mem_filter]
  constructor
  · rintro ⟨s', hs', ⟨⟨id, n'⟩, c'⟩, ⟨hitem, hid⟩, he⟩
    obtain rfl : id = s'.id := of_decide_eq_true hid
    cases he
    exact ⟨hs', Dict.mem_items.mp hitem⟩
  · rintro ⟨hs, hl⟩
    exact ⟨s, hs, ((s.id, n), c), ⟨Dict.mem_items.mpr hl, by simp⟩, rfl⟩

theorem mem_serviceList : service ∈ (serviceList db withDrafts).map Prod.fst ↔
    (db.services.lookup service).isSome := by
  have hall : serviceList db withDrafts = db.services.items := by
    simp [serviceList, withDrafts]
  rw [hall, List.mem_map, Option.isSome_iff_exists]
  constructor
  · rintro ⟨⟨id, v⟩, hmem, rfl⟩
    exact ⟨v, Dict.mem_items.mp hmem⟩
  · rintro ⟨v, hv⟩
    exact ⟨(service, v), Dict.mem_items.mpr hv, rfl⟩

theorem mem_serviceRows {c : Cell} :
    (service, s, n, c) ∈ serviceRows db withDrafts ↔
      (db.services.lookup service).isSome ∧ s ∈ db.settings.all ∧
        db.servicesSettings.lookup (service, s.id, n) = some c := by
  rw [← mem_serviceList]
  unfold serviceRows
  simp only [wants_withDrafts, List.filter_true, List.mem_flatMap, List.mem_map, List.mem_filter]
  constructor
  · rintro ⟨sv, hsv, s', hs', ⟨⟨id, id', n'⟩, c'⟩, ⟨hitem, hid⟩, he⟩
    obtain ⟨rfl, rfl⟩ := of_decide_eq_true hid
    cases he
    exact ⟨⟨sv, hsv, rfl⟩, hs', Dict.mem_items.mp hitem⟩
  · rintro ⟨⟨sv, hsv, rfl⟩, hs, hl⟩
    exact ⟨sv, hsv, s, hs, ((sv.1, s.id, n), c), ⟨Dict.mem_items.mpr hl, by simp⟩, rfl⟩

/-! ## The rows -/

/-- The configuration with the global values over it. -/
def withGlobals (db : Database) (original : Dict String Entry) : Dict String Entry :=
  original.setAll ((globalRows db withDrafts).map fun r =>
    (valueKey r.1 r.2.1, globalEntry r.1 r.2.2))

/-- The configuration with the drafts over it. -/
def withDraftEntries (db : Database) (config : Dict String Entry) : Dict String Entry :=
  config.setAll ((serviceList db withDrafts).map fun s =>
    (joinKey s.1 "IS_DRAFT", draftEntry config s.2))

/-- The configuration in which each service has the values of the keys of `multisite`. -/
def withInherited (db : Database) (config : Dict String Entry) (multisite : List String) :
    Dict String Entry :=
  let defaults := multisite.filterMap fun key => (config.lookup key).map (key, ·)
  config.setDefaults ((serviceList db withDrafts).flatMap fun s =>
    defaults.map fun e => (joinKey s.1 e.1, e.2))

/-- The configuration with the values of the services over it. -/
def withRows (db : Database) (config : Dict String Entry) : Dict String Entry :=
  config.setAll ((serviceRows db withDrafts).map fun r =>
    (let key := joinKey r.1 r.2.1.id
     if r.2.1.multiple.isSome && r.2.2.1 != 0 then joinKey key (toString r.2.2.1) else key,
      serviceEntry config r.1 r.2.1 r.2.2.2))

/-- The keys that a service inherits, if those of `original` are among them. -/
def inheritedKeys (db : Database) (original : List String) : List String :=
  original ++ ((globalRows db withDrafts).filter fun r => r.1.context = .multisite).map fun r =>
    valueKey r.1 r.2.1

theorem getNonDefaultSettings_stages (original : Dict String Entry) (multisite : List String) :
    getNonDefaultSettings db withDrafts original multisite =
      (if !withDrafts.globalOnly &&
          (((withGlobals db original).lookup "MULTISITE").map Entry.value).getD "no" = "yes" then
        withRows db (withInherited db (withDraftEntries db (withGlobals db original))
          (inheritedKeys db multisite))
      else withGlobals db original).insert "SERVER_NAME"
        (serversEntry ((serviceList db withDrafts).map Prod.fst)) := by
  unfold getNonDefaultSettings
  rw [show withDrafts.update ["SERVER_NAME", "MULTISITE"] = withDrafts from rfl]
  rfl

theorem getNonDefaultSettings_eq {original : Dict String Entry} {multisite : List String}
    (hm : ((withGlobals db original).lookup "MULTISITE").map Entry.value = some "yes") :
    getNonDefaultSettings db withDrafts original multisite =
      (withRows db (withInherited db (withDraftEntries db (withGlobals db original))
        (inheritedKeys db multisite))).insert "SERVER_NAME"
        (serversEntry ((serviceList db withDrafts).map Prod.fst)) := by
  have hyes : (((withGlobals db original).lookup "MULTISITE").map Entry.value).getD "no" =
      "yes" := by
    rw [hm]; rfl
  rw [getNonDefaultSettings_stages, if_pos (by simp [hyes, withDrafts])]

variable {original config : Dict String Entry} {multisite : List String}

theorem Readable.valueKey_eq (h : Readable db) {c : Cell}
    (hr : (s, n, c) ∈ globalRows db withDrafts) : valueKey s n = suffixedKey s.id n := by
  obtain ⟨hs, hl⟩ := mem_globalRows.mp hr
  exact Db.valueKey_eq fun hpos => h.globals _ c hl hpos s hs rfl

/-- A global key after the global values. -/
theorem lookup_withGlobals (h : Readable db) (hs : s ∈ db.settings.all) (n : Nat) :
    (withGlobals db original).lookup (suffixedKey s.id n) =
      ((db.globalValues.lookup (s.id, n)).map (globalEntry s)).or
        (original.lookup (suffixedKey s.id n)) := by
  rw [withGlobals, Dict.lookup_setAll]
  congr 1
  refine Dict.lastOf_eq_of_iff fun e => ?_
  rw [List.mem_map, Option.map_eq_some_iff]
  constructor
  · rintro ⟨⟨s', n', c⟩, hrow, heq⟩
    obtain ⟨hkey, rfl⟩ := Prod.mk.inj heq
    rw [h.valueKey_eq hrow] at hkey
    obtain ⟨hs', hl⟩ := mem_globalRows.mp hrow
    obtain ⟨rfl, rfl⟩ := h.installed.suffixedKey_inj hs' hs hkey
    exact ⟨c, hl, rfl⟩
  · rintro ⟨c, hl, rfl⟩
    have hrow : (s, n, c) ∈ globalRows db withDrafts := mem_globalRows.mpr ⟨hs, hl⟩
    exact ⟨_, hrow, by rw [h.valueKey_eq hrow]⟩

/-- The global values bring no key of a service. -/
theorem lookup_withGlobals_joinKey (h : Readable db) (hservice : Separate db.settings service)
    (r : String) :
    (withGlobals db original).lookup (joinKey service r) = original.lookup (joinKey service r) := by
  rw [withGlobals, Dict.lookup_setAll, Dict.lastOf_eq_none.mpr]
  · rfl
  · intro e he hkey
    obtain ⟨⟨s', n', c'⟩, hrow', rfl⟩ := List.mem_map.mp he
    rw [h.valueKey_eq hrow'] at hkey
    exact hservice.ne_joinKey (mem_globalRows.mp hrow').1 _ _ hkey

theorem Readable.serviceKey_eq (h : Readable db) {c : Cell}
    (hr : (service, s, n, c) ∈ serviceRows db withDrafts) :
    (if s.multiple.isSome && n != 0 then joinKey (joinKey service s.id) (toString n)
      else joinKey service s.id) = joinKey service (suffixedKey s.id n) := by
  obtain ⟨-, hs, hl⟩ := mem_serviceRows.mp hr
  rcases Nat.eq_zero_or_pos n with rfl | hpos
  · simp
  · have hne : (n != 0) = true := by simp; omega
    rw [h.rows _ c hl hpos s hs rfl, hne, suffixedKey_of_pos _ hpos, joinKey_assoc]
    rfl

theorem lookup_withDraftEntries {key : String}
    (hkey : ∀ service, (db.services.lookup service).isSome → key ≠ joinKey service "IS_DRAFT") :
    (withDraftEntries db config).lookup key = config.lookup key := by
  rw [withDraftEntries, Dict.lookup_setAll, Dict.lastOf_eq_none.mpr]
  · rfl
  · intro e he
    obtain ⟨sv, hsv, rfl⟩ := List.mem_map.mp he
    exact (hkey sv.1 (mem_serviceList.mp (List.mem_map_of_mem hsv))).symm

/-- What a service inherits. -/
theorem lookup_withInherited (h : Readable db) (hservice : (db.services.lookup service).isSome)
    (r : String) :
    (withInherited db config multisite).lookup (joinKey service r) =
      (config.lookup (joinKey service r)).or
        (if r ∈ multisite then config.lookup r else none) := by
  have hdefaults : ∀ {key : String} {e : Entry},
      (key, e) ∈ multisite.filterMap (fun key => (config.lookup key).map (key, ·)) ↔
        key ∈ multisite ∧ config.lookup key = some e := by
    intro key e
    rw [List.mem_filterMap]
    constructor
    · rintro ⟨key', hmem, hmap⟩
      obtain ⟨e', he', hke⟩ := Option.map_eq_some_iff.mp hmap
      cases hke
      exact ⟨hmem, he'⟩
    · rintro ⟨hmem, he⟩
      exact ⟨key, hmem, by rw [he]; rfl⟩
  have hitems : ∀ {e : Entry}, (joinKey service r, e) ∈
      ((serviceList db withDrafts).flatMap fun s =>
        (multisite.filterMap fun key => (config.lookup key).map (key, ·)).map fun e =>
          (joinKey s.1 e.1, e.2)) ↔ r ∈ multisite ∧ config.lookup r = some e := by
    intro e
    rw [List.mem_flatMap, ← hdefaults]
    constructor
    · rintro ⟨sv, hsv, hmem⟩
      obtain ⟨⟨key, e'⟩, he', heq⟩ := List.mem_map.mp hmem
      obtain ⟨hkey, rfl⟩ := Prod.mk.inj heq
      have hsv' := mem_serviceList.mp (List.mem_map_of_mem hsv)
      obtain ⟨-, rfl⟩ := (h.services _ hsv').joinKey_inj (h.services _ hservice) hkey
      exact he'
    · intro he
      obtain ⟨sv, hsv, rfl⟩ := List.mem_map.mp (mem_serviceList.mpr hservice)
      exact ⟨sv, hsv, List.mem_map.mpr ⟨_, he, rfl⟩⟩
  rw [withInherited, Dict.lookup_setDefaults]
  congr 1
  refine Dict.firstOf_eq_of_iff fun e => ?_
  rw [hitems]
  by_cases hr : r ∈ multisite
  · rw [if_pos hr, and_iff_right hr]
  · rw [if_neg hr]
    exact iff_of_false (fun h => hr h.1) (by simp)

theorem lookup_withInherited_global {key : String}
    (hkey : ∀ service, (db.services.lookup service).isSome → ∀ r, key ≠ joinKey service r) :
    (withInherited db config multisite).lookup key = config.lookup key := by
  rw [withInherited, Dict.lookup_setDefaults, Dict.firstOf_eq_none.mpr]
  · simp
  · intro e he
    obtain ⟨sv, hsv, he⟩ := List.mem_flatMap.mp he
    obtain ⟨e', -, rfl⟩ := List.mem_map.mp he
    exact (hkey sv.1 (mem_serviceList.mp (List.mem_map_of_mem hsv)) _).symm

/-- A key of a service after the values of the services. -/
theorem lookup_withRows (h : Readable db) (hs : s ∈ db.settings.all)
    (hservice : (db.services.lookup service).isSome) (n : Nat) :
    (withRows db config).lookup (joinKey service (suffixedKey s.id n)) =
      ((db.servicesSettings.lookup (service, s.id, n)).map (serviceEntry config service s)).or
        (config.lookup (joinKey service (suffixedKey s.id n))) := by
  rw [withRows, Dict.lookup_setAll]
  congr 1
  refine Dict.lastOf_eq_of_iff fun e => ?_
  rw [List.mem_map, Option.map_eq_some_iff]
  constructor
  · rintro ⟨⟨service', s', n', c⟩, hrow, heq⟩
    simp only at heq
    rw [h.serviceKey_eq hrow] at heq
    obtain ⟨hkey, rfl⟩ := Prod.mk.inj heq
    obtain ⟨hservice', hs', hl⟩ := mem_serviceRows.mp hrow
    obtain ⟨rfl, hrest⟩ := (h.services _ hservice').joinKey_inj (h.services _ hservice) hkey
    obtain ⟨rfl, rfl⟩ := h.installed.suffixedKey_inj hs' hs hrest
    exact ⟨c, hl, rfl⟩
  · rintro ⟨c, hl, rfl⟩
    have hrow : (service, s, n, c) ∈ serviceRows db withDrafts :=
      mem_serviceRows.mpr ⟨hservice, hs, hl⟩
    refine ⟨_, hrow, ?_⟩
    simp only
    rw [h.serviceKey_eq hrow]

theorem lookup_withRows_global (h : Readable db) {key : String}
    (hkey : ∀ service, (db.services.lookup service).isSome → ∀ r, key ≠ joinKey service r) :
    (withRows db config).lookup key = config.lookup key := by
  rw [withRows, Dict.lookup_setAll, Dict.lastOf_eq_none.mpr]
  · rfl
  · intro e he
    obtain ⟨⟨service, s, n, c⟩, hr, rfl⟩ := List.mem_map.mp he
    simp only
    rw [h.serviceKey_eq hr]
    exact (hkey service (mem_serviceRows.mp hr).1 _).symm

/-! ## Before the templates -/

/-- The defaults of the settings. -/
def defaultEntries (db : Database) : Dict String Entry :=
  Dict.setAll ∅ (db.settings.all.map fun s => (s.id, defaultEntry s))

/-- The settings that a service has for itself. -/
def multisiteIds (db : Database) : List String :=
  (db.settings.all.filter fun s => s.context = .multisite).map Setting.id

theorem baseConfig_eq :
    baseConfig db withDrafts =
      getNonDefaultSettings db withDrafts (defaultEntries db) (multisiteIds db) := by
  unfold baseConfig defaultEntries multisiteIds
  simp only [wants_withDrafts, List.filter_true]

theorem lookup_defaultEntries (hs : s ∈ db.settings.all) :
    (defaultEntries db).lookup s.id = some (defaultEntry s) := by
  rw [defaultEntries, Dict.lookup_setAll, Dict.lastOf_eq_some (v := defaultEntry s)]
  · rfl
  · exact List.mem_map.mpr ⟨s, hs, rfl⟩
  · intro e he
    obtain ⟨s', hs', heq⟩ := List.mem_map.mp he
    obtain ⟨hid, rfl⟩ := Prod.mk.inj heq
    rw [db.settings.eq_of_id hs' hs hid]

theorem lookup_defaultEntries_none {key : String} (hkey : ∀ s ∈ db.settings.all, s.id ≠ key) :
    (defaultEntries db).lookup key = none := by
  rw [defaultEntries, Dict.lookup_setAll, Dict.lastOf_eq_none.mpr]
  · rfl
  · intro e he
    obtain ⟨s', hs', rfl⟩ := List.mem_map.mp he
    exact hkey s' hs'

/-- The entry of a global key before the templates. -/
def baseEntry (db : Database) (s : Setting) (n : Nat) : Option Entry :=
  ((db.globalValues.lookup (s.id, n)).map (globalEntry s)).or
    (if n = 0 then some (defaultEntry s) else none)

theorem baseEntry_value (db : Database) (s : Setting) (n : Nat) :
    (baseEntry db s n).map Entry.value = baseValue db s n := by
  unfold baseEntry baseValue
  cases db.globalValues.lookup (s.id, n) with
  | some c => rfl
  | none => split <;> rfl

theorem lookup_withGlobals_defaultEntries (h : Readable db) (hs : s ∈ db.settings.all) (n : Nat) :
    (withGlobals db (defaultEntries db)).lookup (suffixedKey s.id n) = baseEntry db s n := by
  rw [lookup_withGlobals h hs, baseEntry]
  congr 1
  split
  · rename_i hn
    rw [hn, suffixedKey_zero, lookup_defaultEntries hs]
  · rename_i hn
    refine lookup_defaultEntries_none fun s' hs' he => hn ?_
    exact (h.installed.suffixedKey_inj hs hs' he.symm).2

/-- A global key of the database is multisite. -/
def StoredMultisite (db : Database) : Prop :=
  (db.globalValues.lookup ("MULTISITE", 0)).map Cell.value = some "yes"

theorem StoredMultisite.entry (h : Readable db) (hm : StoredMultisite db) :
    ((withGlobals db (defaultEntries db)).lookup "MULTISITE").map Entry.value = some "yes" := by
  obtain ⟨s, hs, hid, -⟩ := h.installed.multisite
  have hl := lookup_withGlobals_defaultEntries h hs 0
  rw [suffixedKey_zero, hid] at hl
  obtain ⟨c, hc, hyes⟩ := Option.map_eq_some_iff.mp hm
  rw [hl, baseEntry, hid, hc, Option.map_some, Option.some_or, Option.map_some, globalEntry, hyes]

theorem baseConfig_stages (h : Readable db) (hm : StoredMultisite db) :
    baseConfig db withDrafts =
      (withRows db (withInherited db (withDraftEntries db (withGlobals db (defaultEntries db)))
        (inheritedKeys db (multisiteIds db)))).insert "SERVER_NAME"
        (serversEntry ((serviceList db withDrafts).map Prod.fst)) := by
  rw [baseConfig_eq, getNonDefaultSettings_eq (hm.entry h)]

theorem lookup_baseConfig_global (h : Readable db) (hm : StoredMultisite db)
    (hs : s ∈ db.settings.all) (hne : suffixedKey s.id n ≠ "SERVER_NAME") :
    (baseConfig db withDrafts).lookup (suffixedKey s.id n) = baseEntry db s n := by
  have hkey : ∀ service, (db.services.lookup service).isSome → ∀ r,
      suffixedKey s.id n ≠ joinKey service r := fun service hservice r =>
    (h.services service hservice).ne_joinKey hs n r
  rw [baseConfig_stages h hm, AList.lookup_insert_ne hne, lookup_withRows_global h hkey,
    lookup_withInherited_global hkey, lookup_withDraftEntries fun sv hsv => hkey sv hsv _,
    lookup_withGlobals_defaultEntries h hs]

theorem Readable.joinKey_ne_serverName (h : Readable db)
    (hservice : (db.services.lookup service).isSome) (r : String) :
    joinKey service r ≠ "SERVER_NAME" := by
  obtain ⟨s, hs, hid⟩ := h.installed.serverName
  rw [← hid]
  exact ((h.services service hservice).notPrefix s hs r).symm

/-- The key of a service before the templates: its row, or what the global key has if the setting is
one that services have for themselves. -/
theorem lookup_baseConfig_key (h : Readable db) (hm : StoredMultisite db)
    (hs : s ∈ db.settings.all) (hservice : (db.services.lookup service).isSome)
    (hdraft : suffixedKey s.id n ≠ "IS_DRAFT") :
    ∃ d, (baseConfig db withDrafts).lookup (joinKey service (suffixedKey s.id n)) =
      ((db.servicesSettings.lookup (service, s.id, n)).map (serviceEntry d service s)).or
        (if s.context = .multisite then baseEntry db s n else none) := by
  have hsep := h.services service hservice
  rw [baseConfig_stages h hm, AList.lookup_insert_ne (h.joinKey_ne_serverName hservice _),
    lookup_withRows h hs hservice, lookup_withInherited h hservice]
  refine ⟨_, congrArg _ ?_⟩
  -- The key of the service is not there before it inherits.
  rw [lookup_withDraftEntries fun sv hsv he => hdraft (hsep.joinKey_inj (h.services sv hsv) he).2,
    lookup_withGlobals_joinKey h hsep, lookup_defaultEntries_none fun s' hs' =>
      hsep.notPrefix s' hs' _, Option.none_or]
  rw [lookup_withDraftEntries fun sv hsv => (h.services sv hsv).ne_joinKey hs n _,
    lookup_withGlobals_defaultEntries h hs]
  have hrow : ∀ {c}, db.globalValues.lookup (s.id, n) = some c →
      (s, n, c) ∈ globalRows db withDrafts := fun hl => mem_globalRows.mpr ⟨hs, hl⟩
  by_cases hctx : s.context = .multisite
  · rw [if_pos hctx]
    by_cases hmem : suffixedKey s.id n ∈ inheritedKeys db (multisiteIds db)
    · rw [if_pos hmem]
    · rw [if_neg hmem]
      rw [inheritedKeys, List.mem_append, not_or] at hmem
      have hpos : n ≠ 0 := fun hn => hmem.1 (by
        rw [hn, suffixedKey_zero]
        exact List.mem_map_of_mem (List.mem_filter.mpr ⟨hs, by simpa using hctx⟩))
      rw [baseEntry, if_neg hpos, Option.or_none]
      cases hl : db.globalValues.lookup (s.id, n) with
      | none => rfl
      | some c =>
        refine absurd (List.mem_map.mpr
          ⟨_, List.mem_filter.mpr ⟨hrow hl, by simpa using hctx⟩, ?_⟩) hmem.2
        exact h.valueKey_eq (hrow hl)
  · rw [if_neg hctx, if_neg]
    intro hmem
    rcases List.mem_append.mp hmem with hmem | hmem
    · obtain ⟨s', hs', hid⟩ := List.mem_map.mp hmem
      obtain ⟨hin, hctx'⟩ := List.mem_filter.mp hs'
      obtain ⟨rfl, -⟩ := h.installed.suffixedKey_inj (n := 0) hin hs hid
      exact hctx (of_decide_eq_true hctx')
    · obtain ⟨⟨s', n', c⟩, hr, hkey⟩ := List.mem_map.mp hmem
      obtain ⟨hr, hctx'⟩ := List.mem_filter.mp hr
      rw [h.valueKey_eq hr] at hkey
      obtain ⟨rfl, -⟩ := h.installed.suffixedKey_inj (mem_globalRows.mp hr).1 hs hkey
      exact hctx (of_decide_eq_true hctx')

theorem lookup_baseConfig_service (h : Readable db) (hm : StoredMultisite db)
    (hs : s ∈ db.settings.all) (hservice : (db.services.lookup service).isSome)
    (hctx : s.context = .multisite) (hdraft : s.id ≠ "IS_DRAFT") (n : Nat) :
    ∃ d, (baseConfig db withDrafts).lookup (joinKey service (suffixedKey s.id n)) =
      ((db.servicesSettings.lookup (service, s.id, n)).map (serviceEntry d service s)).or
        (baseEntry db s n) := by
  have hne : suffixedKey s.id n ≠ "IS_DRAFT" := fun he =>
    hdraft (suffixedKey_eq (db.settings.ne_empty s hs) (h.installed.unnumbered s hs)
      (by decide) he).1
  obtain ⟨d, hd⟩ := lookup_baseConfig_key h hm hs hservice hne
  rw [if_pos hctx] at hd
  exact ⟨d, hd⟩

end

end BunkerWeb.Db
