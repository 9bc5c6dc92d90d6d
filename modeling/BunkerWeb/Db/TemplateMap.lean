import BunkerWeb.Db.Read

/-!
# The templates that the services use

`get_non_default_settings(filtered_settings=("USE_TEMPLATE",))`, which lets `SERVER_NAME` and
`MULTISITE` through as well. Here a service may have any name: the keys of the map end with the
name of a setting or with `IS_DRAFT`, and so none of them is the key of two services.

`lookup_templateMap`: the map has the template that a service uses.
-/

namespace BunkerWeb.Db

open Lib

/-- `with_drafts=withDrafts, filtered_settings=("USE_TEMPLATE",)`. -/
def useTemplateOnly (withDrafts : Bool) : Query := ⟨false, withDrafts, ["USE_TEMPLATE"]⟩

/-- `get_non_default_settings`, with the values alone. -/
def templateMap (db : Database) (withDrafts : Bool) : Dict String String :=
  (getNonDefaultSettings db (useTemplateOnly withDrafts) ∅ []).mapValues Entry.value

/-- The template that a service uses: the value of its row, or else the global value. -/
def effectiveTemplate (db : Database) (service : String) : Option String :=
  ((db.servicesSettings.lookup (service, "USE_TEMPLATE", 0)).or
    (db.globalValues.lookup ("USE_TEMPLATE", 0))).map Cell.value

/-- The three settings are installed and have no numbered rows, and the database is multisite. -/
structure Multisite (db : Database) : Prop where
  useTemplate : ∃ s ∈ db.settings.all, s.id = "USE_TEMPLATE" ∧ s.context = .multisite
  multisite : ∃ s ∈ db.settings.all, s.id = "MULTISITE"
  single : ∀ s ∈ db.settings.all, s.id ∈ ["USE_TEMPLATE", "SERVER_NAME", "MULTISITE"] →
    s.multiple = none
  globals : ∀ k c, db.globalValues.lookup k = some c → 0 < k.2 →
    ∀ s ∈ db.settings.all, s.id = k.1 → s.multiple.isSome
  rows : ∀ k c, db.servicesSettings.lookup k = some c → 0 < k.2.2 →
    ∀ s ∈ db.settings.all, s.id = k.2.1 → s.multiple.isSome
  yes : (db.globalValues.lookup ("MULTISITE", 0)).map Cell.value = some "yes"

instance (db : Database) : Decidable (Multisite db) :=
  decidable_of_iff (_ ∧ _ ∧ _ ∧
      (∀ r ∈ db.globalValues.items, 0 < r.1.2 →
        ∀ s ∈ db.settings.all, s.id = r.1.1 → s.multiple.isSome) ∧
      (∀ r ∈ db.servicesSettings.items, 0 < r.1.2.2 →
        ∀ s ∈ db.settings.all, s.id = r.1.2.1 → s.multiple.isSome) ∧ _)
    ⟨fun ⟨htemplate, hmultisite, hsingle, hglobals, hrows, hyes⟩ =>
      ⟨htemplate, hmultisite, hsingle, fun k c hk => hglobals (k, c) (Dict.mem_items.mpr hk),
        fun k c hk => hrows (k, c) (Dict.mem_items.mpr hk), hyes⟩,
      fun h => ⟨h.useTemplate, h.multisite, h.single,
        fun r hr => h.globals r.1 r.2 (Dict.mem_items.mp hr),
        fun r hr => h.rows r.1 r.2 (Dict.mem_items.mp hr), h.yes⟩⟩

/-! ## Keys -/

/-- What stands behind the name of a service in a key. -/
def keyEnds : List String := ["IS_DRAFT", "USE_TEMPLATE", "SERVER_NAME", "MULTISITE"]

theorem eq_of_keyEnd_suffix : ∀ a ∈ keyEnds, ∀ b ∈ keyEnds,
    ('_' :: a.toList) <:+ ('_' :: b.toList) → a = b := by decide

/-- A key of a service tells its name and its end, whatever the name is. -/
theorem joinKey_inj_of_keyEnd {service service' a b : String} (ha : a ∈ keyEnds)
    (hb : b ∈ keyEnds) (h : joinKey service a = joinKey service' b) :
    service = service' ∧ a = b := by
  have htext : service.toList ++ '_' :: a.toList = service'.toList ++ '_' :: b.toList := by
    have := congrArg String.toList h
    simpa [joinKey] using this
  have hends : a = b := by
    rcases List.append_eq_append_iff.mp htext with ⟨c, -, hc⟩ | ⟨c, -, hc⟩
    · exact (eq_of_keyEnd_suffix b hb a ha ⟨c, hc.symm⟩).symm
    · exact eq_of_keyEnd_suffix a ha b hb ⟨c, hc.symm⟩
  subst hends
  exact ⟨String.toList_inj.mp (List.append_cancel_right htext), rfl⟩

/-- No global key is the key of a service. -/
theorem ne_joinKey_useTemplate {key : String}
    (hkey : key ∈ ["USE_TEMPLATE", "SERVER_NAME", "MULTISITE"]) (service : String) :
    key ≠ joinKey service "USE_TEMPLATE" := by
  rintro rfl
  have hlength : (joinKey service "USE_TEMPLATE").toList.length = service.toList.length + 13 := by
    simp [joinKey]
  simp only [List.mem_cons, List.not_mem_nil, or_false] at hkey
  rcases hkey with h | h | h <;> rw [h] at hlength <;> simp at hlength

/-! ## The rows that pass the filter -/

section

variable {db : Database} {d : Bool} {s : Setting} {n : Nat} {c : Cell} {service : String}

/-- The query, with the settings that are always wanted. -/
def filteredQuery (withDrafts : Bool) : Query :=
  (useTemplateOnly withDrafts).update ["SERVER_NAME", "MULTISITE"]

theorem wants_filteredQuery {id : String} :
    (filteredQuery d).wants id = true ↔ id ∈ ["USE_TEMPLATE", "SERVER_NAME", "MULTISITE"] := by
  simp [filteredQuery, useTemplateOnly, Query.update, Query.wants]

theorem mem_globalRows_filtered :
    (s, n, c) ∈ globalRows db (filteredQuery d) ↔
      (s ∈ db.settings.all ∧ s.id ∈ ["USE_TEMPLATE", "SERVER_NAME", "MULTISITE"]) ∧
        db.globalValues.lookup (s.id, n) = some c := by
  unfold globalRows
  simp only [List.mem_flatMap, List.mem_map, List.mem_filter, wants_filteredQuery]
  constructor
  · rintro ⟨s', hs', ⟨⟨id, n'⟩, c'⟩, ⟨hitem, hid⟩, he⟩
    obtain rfl : id = s'.id := of_decide_eq_true hid
    cases he
    exact ⟨hs', Dict.mem_items.mp hitem⟩
  · rintro ⟨hs, hl⟩
    exact ⟨s, hs, ((s.id, n), c), ⟨Dict.mem_items.mpr hl, by simp⟩, rfl⟩

theorem mem_serviceRows_filtered :
    (service, s, n, c) ∈ serviceRows db (filteredQuery d) ↔
      service ∈ (serviceList db (filteredQuery d)).map Prod.fst ∧
        (s ∈ db.settings.all ∧ s.id ∈ ["USE_TEMPLATE", "SERVER_NAME", "MULTISITE"]) ∧
          db.servicesSettings.lookup (service, s.id, n) = some c := by
  unfold serviceRows
  simp only [List.mem_flatMap, List.mem_map, List.mem_filter, wants_filteredQuery]
  constructor
  · rintro ⟨sv, hsv, s', hs', ⟨⟨id, id', n'⟩, c'⟩, ⟨hitem, hid⟩, he⟩
    obtain ⟨rfl, rfl⟩ := of_decide_eq_true hid
    cases he
    exact ⟨⟨sv, hsv, rfl⟩, hs', Dict.mem_items.mp hitem⟩
  · rintro ⟨⟨sv, hsv, rfl⟩, hs, hl⟩
    exact ⟨sv, hsv, s, hs, ((sv.1, s.id, n), c), ⟨Dict.mem_items.mpr hl, by simp⟩, rfl⟩

/-- The rows of the three settings have no suffix. -/
theorem Multisite.suffix_global (h : Multisite db)
    (hr : (s, n, c) ∈ globalRows db (filteredQuery d)) : n = 0 ∧ valueKey s n = s.id := by
  obtain ⟨⟨hs, hid⟩, hl⟩ := mem_globalRows_filtered.mp hr
  have hsingle := h.single s hs hid
  have hn : n = 0 := by
    by_contra hne
    have hmultiple := h.globals _ c hl (Nat.pos_of_ne_zero hne) s hs rfl
    rw [hsingle] at hmultiple
    cases hmultiple
  exact ⟨hn, by simp [valueKey, hsingle]⟩

theorem Multisite.suffix_row (h : Multisite db)
    (hr : (service, s, n, c) ∈ serviceRows db (filteredQuery d)) :
    n = 0 ∧ s.multiple = none := by
  obtain ⟨-, ⟨hs, hid⟩, hl⟩ := mem_serviceRows_filtered.mp hr
  have hsingle := h.single s hs hid
  refine ⟨?_, hsingle⟩
  by_contra hne
  have hmultiple := h.rows _ c hl (Nat.pos_of_ne_zero hne) s hs rfl
  rw [hsingle] at hmultiple
  cases hmultiple

/-! ## The look-up -/

/-- The global rows, as they are put into the map. -/
def globalItems (db : Database) (d : Bool) : List (String × Entry) :=
  (globalRows db (filteredQuery d)).map fun r => (valueKey r.1 r.2.1, globalEntry r.1 r.2.2)

theorem lookup_globalItems (h : Multisite db) (hs : s ∈ db.settings.all)
    (hid : s.id ∈ ["USE_TEMPLATE", "SERVER_NAME", "MULTISITE"]) :
    (Dict.setAll ∅ (globalItems db d)).lookup s.id =
      (db.globalValues.lookup (s.id, 0)).map (globalEntry s) := by
  rw [Dict.lookup_setAll, AList.lookup_empty, Option.or_none]
  refine Dict.lastOf_eq_of_iff fun e => ?_
  rw [globalItems, List.mem_map, Option.map_eq_some_iff]
  constructor
  · rintro ⟨⟨s', n, c⟩, hrow, heq⟩
    obtain ⟨hkey, rfl⟩ := Prod.mk.inj heq
    obtain ⟨rfl, hvalue⟩ := h.suffix_global hrow
    obtain ⟨⟨hs', -⟩, hl⟩ := mem_globalRows_filtered.mp hrow
    obtain rfl : s' = s := db.settings.eq_of_id hs' hs (hvalue.symm.trans hkey)
    exact ⟨c, hl, rfl⟩
  · rintro ⟨c, hl, rfl⟩
    have hrow : (s, 0, c) ∈ globalRows db (filteredQuery d) :=
      mem_globalRows_filtered.mpr ⟨⟨hs, hid⟩, hl⟩
    exact ⟨_, hrow, by rw [(h.suffix_global hrow).2]⟩

/-- The global values that a service inherits. -/
def inheritedItems (db : Database) (d : Bool) (config : Dict String Entry) :
    List (String × Entry) :=
  let multisite := ((globalRows db (filteredQuery d)).filter fun r => r.1.context = .multisite).map
    fun r => valueKey r.1 r.2.1
  let defaults := multisite.filterMap fun key => (config.lookup key).map (key, ·)
  (serviceList db (filteredQuery d)).flatMap fun s =>
    defaults.map fun e => (joinKey s.1 e.1, e.2)

/-- The rows of the services, as they are put into the map. -/
def rowItems (db : Database) (d : Bool) (config : Dict String Entry) : List (String × Entry) :=
  (serviceRows db (filteredQuery d)).map fun r =>
    (let key := joinKey r.1 r.2.1.id
     if r.2.1.multiple.isSome && r.2.2.1 != 0 then joinKey key (toString r.2.2.1) else key,
      serviceEntry config r.1 r.2.1 r.2.2.2)

def draftItems (db : Database) (d : Bool) (config : Dict String Entry) : List (String × Entry) :=
  (serviceList db (filteredQuery d)).map fun s => (joinKey s.1 "IS_DRAFT", draftEntry config s.2)

theorem Multisite.entry (h : Multisite db) :
    ((Dict.setAll ∅ (globalItems db d)).lookup "MULTISITE").map Entry.value = some "yes" := by
  obtain ⟨s, hs, hid⟩ := h.multisite
  have hlookup := lookup_globalItems (d := d) h hs (by simp [hid])
  obtain ⟨c, hc, hyes⟩ := Option.map_eq_some_iff.mp h.yes
  rw [hid] at hlookup
  rw [hlookup, hc, Option.map_some, Option.map_some, globalEntry, hyes]

/-- The map, in its layers. -/
theorem getNonDefaultSettings_filtered (h : Multisite db) :
    ∃ config, getNonDefaultSettings db (useTemplateOnly d) ∅ [] =
      ((config.setDefaults (inheritedItems db d config)).setAll
        (rowItems db d (config.setDefaults (inheritedItems db d config)))).insert "SERVER_NAME"
        (serversEntry ((serviceList db (filteredQuery d)).map Prod.fst)) ∧
      config = (Dict.setAll ∅ (globalItems db d)).setAll
        (draftItems db d (Dict.setAll ∅ (globalItems db d))) := by
  have hyes : (((Dict.setAll ∅ (globalItems db d)).lookup "MULTISITE").map Entry.value).getD "no" =
      "yes" := by
    rw [h.entry]
    rfl
  refine ⟨_, ?_, rfl⟩
  unfold getNonDefaultSettings
  rw [show (useTemplateOnly d).update ["SERVER_NAME", "MULTISITE"] = filteredQuery d from rfl]
  dsimp only
  rw [show (!(filteredQuery d).globalOnly) = true from rfl, Bool.true_and]
  unfold globalItems at hyes
  rw [if_pos (by simp [hyes])]
  rfl

/-- The keys of the three settings are ends. -/
theorem mem_keyEnds {id : String} (h : id ∈ ["USE_TEMPLATE", "SERVER_NAME", "MULTISITE"]) :
    id ∈ keyEnds := List.mem_cons_of_mem _ h

/-- The drafts and the global rows have no template of a service. -/
theorem Multisite.lookup_start (h : Multisite db) (service : String) :
    ((Dict.setAll ∅ (globalItems db d)).setAll
      (draftItems db d (Dict.setAll ∅ (globalItems db d)))).lookup
        (joinKey service "USE_TEMPLATE") = none := by
  rw [Dict.lookup_setAll, Dict.lookup_setAll, AList.lookup_empty, Option.or_none,
    Dict.lastOf_eq_none.mpr, Dict.lastOf_eq_none.mpr]
  · rfl
  · intro e he
    obtain ⟨⟨s, n, c⟩, hrow, rfl⟩ := List.mem_map.mp he
    show valueKey s n ≠ _
    rw [(h.suffix_global hrow).2]
    exact ne_joinKey_useTemplate (mem_globalRows_filtered.mp hrow).1.2 service
  · intro e he hkey
    obtain ⟨sv, -, rfl⟩ := List.mem_map.mp he
    have hends := (joinKey_inj_of_keyEnd (by simp [keyEnds]) (by simp [keyEnds]) hkey).2
    simp at hends

/-- They leave the global template as its row says. -/
theorem Multisite.lookup_global (h : Multisite db) {u : Setting} (hu : u ∈ db.settings.all)
    (hid : u.id = "USE_TEMPLATE") :
    ((Dict.setAll ∅ (globalItems db d)).setAll
      (draftItems db d (Dict.setAll ∅ (globalItems db d)))).lookup "USE_TEMPLATE" =
        (db.globalValues.lookup ("USE_TEMPLATE", 0)).map (globalEntry u) := by
  have hglobal := lookup_globalItems (d := d) h hu (by simp [hid])
  rw [hid] at hglobal
  rw [Dict.lookup_setAll, hglobal, Dict.lastOf_eq_none.mpr]
  · rfl
  · intro e he hkey
    obtain ⟨sv, -, rfl⟩ := List.mem_map.mp he
    have hunder : "USE_TEMPLATE".toList = sv.1.toList ++ "_IS_DRAFT".toList := by
      rw [← hkey]
      simp [joinKey]
    have hsuffix : "_IS_DRAFT".toList <:+ "USE_TEMPLATE".toList := ⟨_, hunder.symm⟩
    exact absurd hsuffix (by decide)

/-- A service inherits the global template. -/
theorem Multisite.firstOf_inherited (h : Multisite db)
    (hservice : service ∈ (serviceList db (filteredQuery d)).map Prod.fst) :
    Dict.firstOf (joinKey service "USE_TEMPLATE") (inheritedItems db d
      ((Dict.setAll ∅ (globalItems db d)).setAll
        (draftItems db d (Dict.setAll ∅ (globalItems db d))))) =
      ((Dict.setAll ∅ (globalItems db d)).setAll
        (draftItems db d (Dict.setAll ∅ (globalItems db d)))).lookup "USE_TEMPLATE" := by
  obtain ⟨u, hu, hid, hcontext⟩ := h.useTemplate
  refine Dict.firstOf_eq_of_iff fun v => ?_
  simp only [inheritedItems, List.mem_flatMap, List.mem_map, List.mem_filterMap, List.mem_filter,
    Option.map_eq_some_iff]
  constructor
  · rintro ⟨sv, -, ⟨key, value⟩, ⟨k, ⟨⟨s, n, c⟩, ⟨hrow, -⟩, rfl⟩, w, hw, he⟩, heq⟩
    cases he
    obtain ⟨hkey, rfl⟩ := Prod.mk.inj heq
    obtain ⟨⟨hs, hsid⟩, -⟩ := mem_globalRows_filtered.mp hrow
    rw [(h.suffix_global hrow).2] at hkey hw
    have hends := (joinKey_inj_of_keyEnd (mem_keyEnds hsid) (by simp [keyEnds]) hkey).2
    rw [← hends]
    exact hw
  · intro hv
    obtain ⟨c, hc, -⟩ := Option.map_eq_some_iff.mp ((h.lookup_global (d := d) hu hid).symm.trans hv)
    have hrow : (u, 0, c) ∈ globalRows db (filteredQuery d) :=
      mem_globalRows_filtered.mpr ⟨⟨hu, by simp [hid]⟩, by rw [hid]; exact hc⟩
    obtain ⟨sv, hsv, rfl⟩ := List.mem_map.mp hservice
    refine ⟨sv, hsv, ("USE_TEMPLATE", v),
      ⟨u.id, ⟨_, ⟨hrow, decide_eq_true hcontext⟩, ?_⟩, v, ?_, ?_⟩, rfl⟩
    · exact (h.suffix_global hrow).2
    · rw [hid]
      exact hv
    · rw [hid]

/-- The last row of a service for the setting is its only one. -/
theorem Multisite.lastOf_rows (h : Multisite db) {u : Setting} (hu : u ∈ db.settings.all)
    (hid : u.id = "USE_TEMPLATE")
    (hservice : service ∈ (serviceList db (filteredQuery d)).map Prod.fst)
    (config : Dict String Entry) :
    Dict.lastOf (joinKey service "USE_TEMPLATE") (rowItems db d config) =
      (db.servicesSettings.lookup (service, "USE_TEMPLATE", 0)).map
        (serviceEntry config service u) := by
  refine Dict.lastOf_eq_of_iff fun e => ?_
  rw [rowItems, List.mem_map, Option.map_eq_some_iff]
  constructor
  · rintro ⟨⟨sv, s, n, c⟩, hrow, heq⟩
    obtain ⟨hkey, rfl⟩ := Prod.mk.inj heq
    obtain ⟨rfl, hsingle⟩ := h.suffix_row hrow
    obtain ⟨-, ⟨hs, hsid⟩, hl⟩ := mem_serviceRows_filtered.mp hrow
    have hkey : joinKey sv s.id = joinKey service "USE_TEMPLATE" := by simpa [hsingle] using hkey
    obtain ⟨rfl, hends⟩ := joinKey_inj_of_keyEnd (mem_keyEnds hsid) (by simp [keyEnds]) hkey
    obtain rfl : s = u := db.settings.eq_of_id hs hu (hends.trans hid.symm)
    exact ⟨c, by rw [← hends]; exact hl, rfl⟩
  · rintro ⟨c, hl, rfl⟩
    have hrow : (service, u, 0, c) ∈ serviceRows db (filteredQuery d) :=
      mem_serviceRows_filtered.mpr ⟨hservice, ⟨hu, by simp [hid]⟩, by rw [hid]; exact hl⟩
    exact ⟨_, hrow, by simp [(h.suffix_row hrow).2, hid]⟩

/-- **The map has the template that a service uses**, whatever the names of the services are. -/
theorem lookup_templateMap (h : Multisite db)
    (hservice : service ∈ (serviceList db (filteredQuery d)).map Prod.fst) :
    (templateMap db d).lookup (joinKey service "USE_TEMPLATE") = effectiveTemplate db service := by
  obtain ⟨u, hu, hid, -⟩ := h.useTemplate
  obtain ⟨config, hmap, rfl⟩ := getNonDefaultSettings_filtered (d := d) h
  have hne : joinKey service "USE_TEMPLATE" ≠ "SERVER_NAME" :=
    (ne_joinKey_useTemplate (by simp) service).symm
  rw [templateMap, Dict.lookup_mapValues, hmap, AList.lookup_insert_ne hne, Dict.lookup_setAll,
    Dict.lookup_setDefaults, h.lookup_start, Option.none_or, h.firstOf_inherited hservice,
    h.lookup_global hu hid, h.lastOf_rows hu hid hservice, effectiveTemplate]
  cases db.servicesSettings.lookup (service, "USE_TEMPLATE", 0) with
  | some c => simp [serviceEntry, hid]
  | none => cases db.globalValues.lookup ("USE_TEMPLATE", 0) <;> simp [globalEntry]

end

end BunkerWeb.Db
