import BunkerWeb.Db.Templates

/-!
# The global settings alone (`get_config(global_only=True)`)

Without the services, only the global layers of `get_config` are left, and no name of a service is
in their way: `getConfig_globalOnly` needs no more than that the tables are filled in order.
-/

namespace BunkerWeb.Db

open Lib

/-- `get_config(global_only=True)`. -/
def globalOnly : Query := ⟨true, false, []⟩

/-- The tables that the global settings are read from are filled in order: only a setting that may
be numbered is, and a template sets a key once. -/
structure GlobalsInOrder (db : Database) : Prop where
  installed : Installed db
  globals : ∀ k c, db.globalValues.lookup k = some c → 0 < k.2 →
    ∀ s ∈ db.settings.all, s.id = k.1 → s.multiple.isSome
  templates : ∀ t ∈ db.templateSettings, 0 < t.suffix →
    ∀ s ∈ db.settings.all, s.id = t.settingId → s.multiple.isSome
  once : (db.templateSettings.map fun t => (t.templateId, t.settingId, t.suffix)).Nodup

instance (db : Database) : Decidable (GlobalsInOrder db) :=
  decidable_of_iff (Installed db ∧
      (∀ r ∈ db.globalValues.items, 0 < r.1.2 →
        ∀ s ∈ db.settings.all, s.id = r.1.1 → s.multiple.isSome) ∧ _ ∧ _)
    ⟨fun ⟨hinst, hglobals, htemplates, honce⟩ => ⟨hinst,
        fun k c hk => hglobals (k, c) (Dict.mem_items.mpr hk), htemplates, honce⟩,
      fun h => ⟨h.installed, fun r hr => h.globals r.1 r.2 (Dict.mem_items.mp hr), h.templates,
        h.once⟩⟩

/-- A setting stands for its default where the configuration does not list its key. -/
def effective (db : Database) (s : Setting) (n : Nat) : String :=
  ((getConfig db globalOnly).lookup (suffixedKey s.id n)).getD s.default

section

variable {db : Database} {s : Setting} {n : Nat}

/-- The database without its services: the global layers are the same. -/
def withoutServices (db : Database) : Database := { db with services := ∅, servicesSettings := ∅ }

theorem GlobalsInOrder.readable (h : GlobalsInOrder db) : Readable (withoutServices db) where
  installed := ⟨h.installed.unnumbered, h.installed.serverName, h.installed.multisite,
    h.installed.useTemplate, h.installed.templates⟩
  services _ hid := by cases hid
  globals := h.globals
  rows _ _ hk := by cases hk

/-! ## The layers -/

/-- The names of the services that are no drafts, in the place of `SERVER_NAME`. -/
def globalServers (db : Database) : Entry :=
  serversEntry ((serviceList db globalOnly).map Prod.fst)

theorem getNonDefaultSettings_globalOnly (original : Dict String Entry) (multisite : List String) :
    getNonDefaultSettings db globalOnly original multisite =
      (withGlobals db original).insert "SERVER_NAME" (globalServers db) := rfl

theorem baseConfig_globalOnly :
    baseConfig db globalOnly =
      (withGlobals db (defaultEntries db)).insert "SERVER_NAME" (globalServers db) := by
  have hall : (db.settings.all.filter fun s => globalOnly.wants s.id) = db.settings.all := by
    rw [List.filter_eq_self]
    exact fun _ _ => rfl
  unfold baseConfig
  rw [hall, getNonDefaultSettings_globalOnly]
  rfl

theorem lookup_baseConfig_globalOnly (h : GlobalsInOrder db) (hs : s ∈ db.settings.all)
    (hkey : suffixedKey s.id n ≠ "SERVER_NAME") :
    (baseConfig db globalOnly).lookup (suffixedKey s.id n) = baseEntry db s n := by
  rw [baseConfig_globalOnly, AList.lookup_insert_ne hkey]
  exact lookup_withGlobals_defaultEntries h.readable hs n

theorem valueOf_globalOnly (h : GlobalsInOrder db) :
    valueOf (baseConfig db globalOnly) "USE_TEMPLATE" "" = templateUsed db := by
  obtain ⟨s, hs, hid, -, hdefault, -⟩ := h.installed.useTemplate
  have hl := lookup_baseConfig_globalOnly (n := 0) h hs (by rw [suffixedKey_zero, hid]; decide)
  rw [suffixedKey_zero, hid] at hl
  rw [valueOf, hl, baseEntry_value, baseValue, templateUsed, hid]
  cases db.globalValues.lookup ("USE_TEMPLATE", 0) with
  | some c => rfl
  | none => rw [if_pos rfl, hdefault]; rfl

/-- The configuration before the groups are filled. -/
def templatedGlobals (db : Database) : Dict String Entry :=
  withGlobalTemplate db (baseConfig db globalOnly)

theorem getConfigEntries_globalOnly (h : GlobalsInOrder db) :
    getConfigEntries db globalOnly = (templatedGlobals db).setDefaults
      (groupDefaults db withDrafts.wants (Dict.setAll ∅
        (if templateUsed db = "" then [] else [("global", templateUsed db)]))
        (templatedGlobals db)) := by
  have hstages : getConfigEntries db globalOnly =
      let template := valueOf (baseConfig db globalOnly) "USE_TEMPLATE" ""
      let config := if template = "" then baseConfig db globalOnly
        else (baseConfig db globalOnly).setAllUnless (fun e => e.method.isSome)
          ((templateRows db withDrafts.wants template).map fun t =>
            (suffixedKey t.settingId t.suffix, templateEntry true t))
      config.setDefaults (groupDefaults db withDrafts.wants (Dict.setAll ∅
        ((if template = "" then [] else [("global", template)]) ++ [])) config) := rfl
  rw [hstages, valueOf_globalOnly h]
  simp only [List.append_nil]
  rfl

/-! ## The groups -/

theorem unnumbered_serverName (h : Installed db) : suffixRx "SERVER_NAME" = none := by
  obtain ⟨s, hs, hid⟩ := h.serverName
  exact hid ▸ h.unnumbered s hs

/-- A numbered key of a setting is that of one that may be numbered. -/
theorem groupsOf_of_suffixRx (h : Installed db) (hs : s ∈ db.settings.all)
    (hmultiple : 0 < n → s.multiple.isSome) {setting digits : String}
    (hrx : suffixRx (suffixedKey s.id n) = some (setting, digits)) :
    (groupsOf db setting).isSome := by
  rcases Nat.eq_zero_or_pos n with rfl | hpos
  · rw [suffixedKey_zero, h.unnumbered s hs] at hrx
    cases hrx
  · have hown : suffixRx (suffixedKey s.id n) = some (s.id, toString n) := by
      rw [suffixedKey_of_pos _ hpos, suffixRx_eq_some]
      exact ⟨rfl, db.settings.ne_empty s hs, isNumber_toString n⟩
    rw [hown] at hrx
    cases hrx
    rw [groupsOf, Catalog.find_eq_some.mpr ⟨hs, rfl⟩]
    exact hmultiple hpos

/-- Each key of the configuration is `SERVER_NAME` or that of a setting, numbered only if it may
be. -/
theorem key_templatedGlobals (h : GlobalsInOrder db) {key : String} {e : Entry}
    (he : (templatedGlobals db).lookup key = some e) :
    key = "SERVER_NAME" ∨ ∃ s ∈ db.settings.all, ∃ n, key = suffixedKey s.id n ∧
      (0 < n → s.multiple.isSome) := by
  have hbase : ∀ {e}, (baseConfig db globalOnly).lookup key = some e →
      key = "SERVER_NAME" ∨ ∃ s ∈ db.settings.all, ∃ n, key = suffixedKey s.id n ∧
        (0 < n → s.multiple.isSome) := by
    intro e he
    rw [baseConfig_globalOnly] at he
    by_cases hkey : key = "SERVER_NAME"
    · exact .inl hkey
    · rw [AList.lookup_insert_ne hkey, withGlobals, Dict.lookup_setAll] at he
      rcases Option.or_eq_some_iff.mp he with hlast | ⟨-, hmem⟩
      · have hmem := Dict.mem_of_lastOf hlast
        obtain ⟨⟨s, n, c⟩, hrow, heq⟩ := List.mem_map.mp hmem
        obtain ⟨rfl, -⟩ := Prod.mk.inj heq
        obtain ⟨hs, hl⟩ := mem_globalRows.mp hrow
        have hmultiple := fun hpos => h.globals _ c hl hpos s hs rfl
        exact .inr ⟨s, hs, n, valueKey_eq hmultiple, hmultiple⟩
      · refine .inr ?_
        by_contra hno
        rw [lookup_defaultEntries_none] at hmem
        · cases hmem
        · intro s hs hid
          exact hno ⟨s, hs, 0, hid.symm, fun hpos => absurd hpos (Nat.lt_irrefl 0)⟩
  unfold templatedGlobals withGlobalTemplate at he
  split at he
  · exact hbase he
  · rw [Dict.lookup_setAllUnless _ (by rintro e he; obtain ⟨t, -, rfl⟩ := List.mem_map.mp he; rfl)]
      at he
    split at he
    · exact hbase he
    · rcases Option.or_eq_some_iff.mp he with hlast | ⟨-, he⟩
      · obtain ⟨t, ht, heq⟩ := List.mem_map.mp (Dict.mem_of_lastOf hlast)
        obtain ⟨rfl, -⟩ := Prod.mk.inj heq
        have hrow := mem_templateSettings ht
        obtain ⟨-, s, hs, hid⟩ := h.installed.templates t hrow
        exact .inr ⟨s, hs, t.suffix, by rw [hid], fun hpos => h.templates t hrow hpos s hs hid⟩
      · exact hbase he

/-- The groups are all those of the global settings. -/
theorem groupOf_templatedGlobals (h : GlobalsInOrder db) {services : List String} {key : String}
    {e : Entry} (he : (templatedGlobals db).lookup key = some e) {group window : String} {n : Nat}
    (hgroup : groupOf (groupsOf db) services key = some (group, window, n)) :
    window = "global" := by
  unfold groupOf at hgroup
  split at hgroup
  · cases hgroup
  · rename_i setting digits hrx
    have hsome : (groupsOf db setting).isSome := by
      rcases key_templatedGlobals h he with rfl | ⟨s, hs, n, rfl, hmultiple⟩
      · rw [unnumbered_serverName h.installed] at hrx
        cases hrx
      · exact groupsOf_of_suffixRx h.installed hs hmultiple hrx
    obtain ⟨group', hsome⟩ := Option.isSome_iff_exists.mp hsome
    rw [hsome] at hgroup
    cases hgroup
    rfl

theorem fillTemplate_global : fillTemplate (Dict.setAll ∅
    (if templateUsed db = "" then [] else [("global", templateUsed db)])) "global" =
      templateUsed db := by
  unfold fillTemplate
  rw [Dict.lookup_setAll, AList.lookup_empty, Option.or_none]
  by_cases hempty : templateUsed db = ""
  · simp [hempty]
  · simp [hempty, Dict.lastOf]

/-! ## The keys -/

theorem lookup_templatedGlobals (h : GlobalsInOrder db) (hs : s ∈ db.settings.all)
    (hkey : suffixedKey s.id n ≠ "SERVER_NAME") :
    ((templatedGlobals db).lookup (suffixedKey s.id n)).map Entry.value = globalValue db s n := by
  have hlayer := @lookup_withGlobalTemplate (withoutServices db) s h.readable hs n
    (baseConfig db globalOnly)
  show ((withGlobalTemplate (withoutServices db) (baseConfig db globalOnly)).lookup _).map _ = _
  rw [hlayer, lookup_baseConfig_globalOnly h hs hkey, globalValue, templateValue, baseEntry]
  cases db.globalValues.lookup (s.id, n) with
  | some c => rfl
  | none =>
    rw [Option.map_none, Option.none_or, if_neg, overlay_value]
    · have hdefault : ((if n = 0 then some (defaultEntry s) else none).map Entry.value) =
          if n = 0 then some s.default else none := by
        split <;> rfl
      rw [hdefault]
      rfl
    · split <;> simp [defaultEntry]

/-- **Global settings.** `get_config(global_only=True)` finds at each key of a setting what it
stands for, whatever the services are called. -/
theorem getConfig_globalOnly (h : GlobalsInOrder db) (hs : s ∈ db.settings.all)
    (hkey : suffixedKey s.id n ≠ "SERVER_NAME") :
    Found s.default (globalValue db s n)
      ((getConfig db globalOnly).lookup (suffixedKey s.id n)) := by
  rw [getConfig, Dict.lookup_mapValues, getConfigEntries_globalOnly h]
  refine Found.of_lookup (lookup_templatedGlobals h hs hkey) fun hnone e he => ?_
  rw [globalValue, Option.or_eq_none_iff, Option.or_eq_none_iff] at hnone
  obtain ⟨s', hs', n', window, ⟨item, hitem, group, -, hgroup⟩, hkey', hvalue⟩ :=
    mem_groupDefaults_window he
  obtain rfl := groupOf_templatedGlobals h (Dict.mem_items.mp hitem) hgroup
  rw [if_pos rfl] at hkey'
  obtain ⟨rfl, rfl⟩ := h.readable.numbered_inj hs hs' hkey'
  refine hvalue ?_
  rw [fillTemplate_global]
  exact hnone.2.1

theorem effective_eq (h : GlobalsInOrder db) (hs : s ∈ db.settings.all)
    (hkey : suffixedKey s.id n ≠ "SERVER_NAME") :
    effective db s n = (globalValue db s n).getD s.default := by
  have hfound := getConfig_globalOnly h hs hkey
  unfold effective
  cases hv : globalValue db s n with
  | some v =>
    rw [hv] at hfound
    rw [show (getConfig db globalOnly).lookup _ = some v from hfound]
  | none =>
    rw [hv] at hfound
    rcases hfound with hfound | hfound
    · rw [hfound]
    · rw [hfound, Option.getD_some, Option.getD_none]

/-- `SERVER_NAME` is the list of the services, whatever its row says. -/
theorem lookup_serverName_globalOnly (h : GlobalsInOrder db) :
    (getConfig db globalOnly).lookup "SERVER_NAME" =
      some (joinWords ((serviceList db globalOnly).map Prod.fst)) := by
  obtain ⟨s, hs, hid⟩ := h.installed.serverName
  have hbase : (baseConfig db globalOnly).lookup "SERVER_NAME" = some (globalServers db) := by
    rw [baseConfig_globalOnly, AList.lookup_insert]
  have hlayer := @lookup_withGlobalTemplate (withoutServices db) s h.readable hs 0
    (baseConfig db globalOnly)
  rw [suffixedKey_zero, hid, hbase] at hlayer
  have hentry : (templatedGlobals db).lookup "SERVER_NAME" = some (globalServers db) := hlayer
  rw [getConfig, Dict.lookup_mapValues, getConfigEntries_globalOnly h, Dict.lookup_setDefaults,
    hentry]
  rfl

end

end BunkerWeb.Db
