import BunkerWeb.Db.Stands

/-!
# The numbered settings that `get_config` completes

A numbered key asks for the other settings of its group, under the same number and in the same
scope.

- **What is filled** (`lookup_getConfig_filled`): each key of a setting is what it stands for, or
  filled if a key of its scope has asked for it.
-/

namespace BunkerWeb.Db

open Lib

/-- The window of a scope. -/
def windowOf (scope : Option String) : String := scope.getD "global"

/-- A key of the scope has asked for the group of the setting, with this number. -/
def Asked (db : Database) (scope : Option String) (s : Setting) (n : Nat) : Prop :=
  0 < n ∧ ∃ group, s.multiple = some group ∧
    ∃ s' ∈ db.settings.all, ∃ n', stands db scope s' n' ≠ none ∧
    groupOf (groupsOf db) (serviceIds db) (keyOf scope s' n') = some (group, windowOf scope, n)

/-- The template that fills the groups of a scope. -/
def scopeTemplate (db : Database) (scope : Option String) : String :=
  match scope with
  | none => templateUsed db
  | some service =>
    if serviceTemplateUsed db service = "" then templateUsed db else serviceTemplateUsed db service

/-- What a key is filled with. -/
def fillText (db : Database) (scope : Option String) (s : Setting) (n : Nat) : String :=
  if scopeTemplate db scope = "" then s.default
  else ((db.templateSettings.find? fun t =>
    t.templateId = scopeTemplate db scope && t.settingId = s.id && t.suffix = n).map
      (·.default)).getD s.default

section

variable {db : Database} {s : Setting} {n : Nat} {service : String} {scope : Option String}

/-! ## What is filled -/

theorem fillTemplate_windowOf (h : Readable db) (hm : StoredMultisite db)
    (hscope : KnownScope db scope) :
    fillTemplate (windowTemplates db) (windowOf scope) = scopeTemplate db scope := by
  cases scope with
  | none => rw [windowOf, Option.getD_none, fillTemplate_windowTemplates h hm (.inr rfl),
      if_pos (.inl rfl), scopeTemplate]
  | some service =>
    have hservice := hscope service rfl
    rw [windowOf, Option.getD_some, fillTemplate_windowTemplates h hm (.inl hservice),
      scopeTemplate]
    simp only [(h.services service hservice).notGlobal, false_or]

/-- The group that a key asks for is found in its own scope. -/
theorem window_of_groupOf (h : Readable db) (hs : s ∈ db.settings.all)
    (hscope : KnownScope db scope) {f : String × String × Nat}
    (hf : groupOf (groupsOf db) (serviceIds db) (keyOf scope s n) = some f) :
    f.2.1 = windowOf scope := by
  unfold groupOf at hf
  split at hf
  · cases hf
  · rename_i setting digits hrx
    obtain ⟨hkey, -, -⟩ := suffixRx_eq_some.mp hrx
    cases scope with
    | none =>
      split at hf
      · cases hf
        rfl
      · have hnone : firstService (serviceIds db) (keyOf none s n) = none :=
          firstService_eq_none.mpr fun sv hsv r =>
            (h.services sv (mem_serviceIds.mp hsv)).ne_joinKey hs n r
        rw [hnone] at hf
        cases hf
    | some service =>
      have hservice := hscope service rfl
      have hsep := h.services service hservice
      -- What is in front of the number is no setting, since it starts with the service.
      have hnone : groupsOf db setting = none := by
        rw [groupsOf, Catalog.find_eq_none.mpr fun s' hs' he => ?_]
        · rfl
        · rw [keyOf, ← he] at hkey
          exact joinKey_ne_joinKey hsep.noUnderscore (hsep.notSetting s' hs')
            (hsep.notPrefix s' hs') _ _ hkey.symm
      rw [hnone] at hf
      simp only at hf
      rw [keyOf, firstService_joinKey
        (fun id hid => h.services id (mem_serviceIds.mp hid)) (mem_serviceIds.mpr hservice)] at hf
      obtain ⟨group, -, rfl⟩ := Option.map_eq_some_iff.mp hf
      rfl

/-- What fills the groups. -/
theorem mem_groupDefaults_iff {config : Dict String Entry} {templates : Dict String String}
    {key : String} {e : Entry} :
    (key, e) ∈ groupDefaults db withDrafts.wants templates config ↔
      ∃ s ∈ db.settings.all, ∃ group, s.multiple = some group ∧ ∃ item ∈ config.items,
        ∃ window n, groupOf (groupsOf db) (words (valueOf config "SERVER_NAME" "")) item.1 =
            some (group, window, n) ∧
          (key = if window = "global" then joinKey s.id (toString n)
            else joinKey window (joinKey s.id (toString n))) ∧
          e = ⟨if fillTemplate templates window = "" then s.default
            else ((db.templateSettings.find? fun t => t.templateId = fillTemplate templates window &&
              t.settingId = s.id && t.suffix = n).map (·.default)).getD s.default,
            "", true, none, s.default, some (fillTemplate templates window)⟩ := by
  unfold groupDefaults
  simp only
  rw [List.mem_flatMap]
  constructor
  · rintro ⟨s, hs, he⟩
    split at he
    · cases he
    · rename_i group hmultiple
      obtain ⟨f, hf, heq⟩ := List.mem_map.mp he
      obtain ⟨rfl, rfl⟩ := Prod.mk.inj heq
      obtain ⟨hfound, hof⟩ := List.mem_filter.mp hf
      obtain ⟨item, hitem, hgroup⟩ := List.mem_filterMap.mp hfound
      obtain rfl : f.1 = group := of_decide_eq_true hof
      rw [Catalog.find_eq_some.mpr ⟨hs, rfl⟩] at hmultiple
      exact ⟨s, hs, f.1, hmultiple, item, hitem, f.2.1, f.2.2, hgroup, rfl, rfl⟩
  · rintro ⟨s, hs, group, hmultiple, item, hitem, window, k, hgroup, rfl, rfl⟩
    refine ⟨s, hs, ?_⟩
    have hgroups : ((db.settings.find s.id).bind fun s =>
        if withDrafts.wants s.id then s.multiple else none) = some group := by
      rw [Catalog.find_eq_some.mpr ⟨hs, rfl⟩]
      exact hmultiple
    rw [hgroups]
    exact List.mem_map.mpr ⟨(group, window, k), List.mem_filter.mpr
      ⟨List.mem_filterMap.mpr ⟨item, hitem, hgroup⟩, decide_eq_true rfl⟩, rfl⟩

/-- The key that is filled in a window. -/
theorem fillKey_eq (h : Readable db) (hscope : KnownScope db scope) (hn : 0 < n) :
    (if windowOf scope = "global" then joinKey s.id (toString n)
      else joinKey (windowOf scope) (joinKey s.id (toString n))) = keyOf scope s n := by
  cases scope with
  | none => rw [windowOf, Option.getD_none, if_pos rfl, keyOf, suffixedKey_of_pos _ hn]
  | some service =>
    rw [windowOf, Option.getD_some, if_neg (h.services service (hscope service rfl)).notGlobal,
      keyOf, suffixedKey_of_pos _ hn]

/-- A key that is filled in a window is that of one setting, scope and number. -/
theorem fillKey_inj (h : Readable db) {scope' : Option String} {s' : Setting} {k : Nat}
    (hs : s ∈ db.settings.all) (hs' : s' ∈ db.settings.all) (hscope : KnownScope db scope)
    (hscope' : KnownScope db scope')
    (he : keyOf scope s n = if windowOf scope' = "global" then joinKey s'.id (toString k)
      else joinKey (windowOf scope') (joinKey s'.id (toString k))) :
    scope' = scope ∧ s' = s ∧ k = n ∧ 0 < n := by
  have hnumbered : suffixedKey s.id n = joinKey s'.id (toString k) → s' = s ∧ k = n ∧ 0 < n := by
    intro hkey
    obtain ⟨rfl, rfl⟩ := h.numbered_inj hs hs' hkey
    refine ⟨rfl, rfl, Nat.pos_of_ne_zero fun hzero => ?_⟩
    subst hzero
    have hrx := h.installed.unnumbered s' hs'
    rw [suffixedKey_zero] at hkey
    rw [hkey, suffixRx_eq_some.mpr ⟨rfl, db.settings.ne_empty s' hs', isNumber_toString 0⟩] at hrx
    cases hrx
  cases scope' with
  | none =>
    rw [windowOf, Option.getD_none, if_pos rfl] at he
    cases scope with
    | none => exact ⟨rfl, hnumbered he⟩
    | some service =>
      have hsep := h.services service (hscope service rfl)
      exact absurd he.symm (joinKey_ne_joinKey hsep.noUnderscore (hsep.notSetting s' hs')
        (hsep.notPrefix s' hs') _ _)
  | some service' =>
    have hsep' := h.services service' (hscope' service' rfl)
    rw [windowOf, Option.getD_some, if_neg hsep'.notGlobal] at he
    cases scope with
    | none => exact absurd he (hsep'.ne_joinKey hs n _)
    | some service =>
      obtain ⟨rfl, hrest⟩ := (h.services service (hscope service rfl)).joinKey_inj hsep' he
      exact ⟨rfl, hnumbered hrest⟩

/-- What `get_config` has at a key of a setting. -/
def Shows (db : Database) (scope : Option String) (s : Setting) (n : Nat) (v : String) : Prop :=
  stands db scope s n = some v ∨
    (stands db scope s n = none ∧ Asked db scope s n ∧ v = fillText db scope s n)

/-- A key that asks for a group is no draft flag. -/
theorem proper_of_groupOf (hscope : KnownScope db scope) {services : List String}
    (hf : groupOf (groupsOf db) services (keyOf scope s n) ≠ none) : Proper db scope s n := by
  refine ⟨hscope, fun hsome he => hf ?_⟩
  obtain ⟨service, rfl⟩ := Option.isSome_iff_exists.mp hsome
  rw [keyOf, he]
  exact groupOf_draftKey _ _ service

/-- What fills a key of a setting. -/
theorem firstOf_groupDefaults (h : Readable db) (hm : StoredMultisite db)
    (hs : s ∈ db.settings.all) (hscope : KnownScope db scope) (v : String) :
    (Dict.firstOf (keyOf scope s n) (groupDefaults db withDrafts.wants (windowTemplates db)
      (templatedConfig db))).map Entry.value = some v ↔
      Asked db scope s n ∧ v = fillText db scope s n := by
  have hvalue : ∀ e, (keyOf scope s n, e) ∈ groupDefaults db withDrafts.wants (windowTemplates db)
      (templatedConfig db) → Asked db scope s n ∧ e.value = fillText db scope s n := by
    intro e he
    obtain ⟨s', hs', group, hgroup, item, hitem, window, k, hof, hkey, rfl⟩ :=
      mem_groupDefaults_iff.mp he
    rw [words_serverName h hm] at hof
    have hlookup := Dict.mem_items.mp hitem
    rcases keyForms_templatedConfig h hm item.1 (Dict.mem_iff_lookup.mpr ⟨_, hlookup⟩) with
      ⟨scope', hscope', s'', hs'', n'', hform⟩ | ⟨service, -, hform⟩
    · rw [hform] at hof hlookup
      obtain rfl : window = windowOf scope' := window_of_groupOf h hs'' hscope' hof
      obtain ⟨rfl, rfl, rfl, hpos⟩ := fillKey_inj h hs hs' hscope hscope' hkey
      have hproper := proper_of_groupOf hscope' (by rw [hof]; exact Option.some_ne_none _)
      refine ⟨⟨hpos, group, hgroup, s'', hs'', n'', fun hnone => ?_, hof⟩, ?_⟩
      · rw [← lookup_templatedConfig h hm hs'' hproper, hlookup] at hnone
        cases hnone
      · simp only [fillTemplate_windowOf h hm hscope']
        rfl
    · rw [hform, groupOf_draftKey] at hof
      cases hof
  constructor
  · intro hf
    obtain ⟨e, he, rfl⟩ := Option.map_eq_some_iff.mp hf
    exact hvalue e (Dict.mem_of_firstOf he)
  · rintro ⟨⟨hpos, group, hgroup, s'', hs'', n'', hstands, hof⟩, rfl⟩
    have hproper := proper_of_groupOf hscope (by rw [hof]; exact Option.some_ne_none _)
    obtain ⟨v'', hv''⟩ := Option.ne_none_iff_exists'.mp hstands
    rw [← lookup_templatedConfig h hm hs'' hproper] at hv''
    obtain ⟨e'', hitem, -⟩ := Option.map_eq_some_iff.mp hv''
    have hmem := (@mem_groupDefaults_iff db (templatedConfig db) (windowTemplates db) _ _).mpr
      ⟨s, hs, group, hgroup, _, Dict.mem_items.mpr hitem, windowOf scope, n,
        by rw [words_serverName h hm]; exact hof, (fillKey_eq h hscope hpos).symm, rfl⟩
    cases hf : Dict.firstOf (keyOf scope s n) (groupDefaults db withDrafts.wants
        (windowTemplates db) (templatedConfig db)) with
    | none => exact absurd rfl (Dict.firstOf_eq_none.mp hf _ hmem)
    | some e =>
      rw [Option.map_some, (hvalue e (Dict.mem_of_firstOf hf)).2]

/-- **What is filled.** `get_config` has at each key of a setting what it stands for, or what it is
filled with if its scope has asked for it. -/
theorem lookup_getConfig_filled (h : Readable db) (hm : StoredMultisite db)
    (hs : s ∈ db.settings.all) (hscope : Proper db scope s n) {v : String} :
    (getConfig db withDrafts).lookup (keyOf scope s n) = some v ↔ Shows db scope s n v := by
  have htemplated := lookup_templatedConfig h hm hs hscope
  rw [getConfig, Dict.lookup_mapValues, getConfigEntries_eq h hm, Dict.lookup_setDefaults, Shows,
    ← htemplated]
  cases hl : (templatedConfig db).lookup (keyOf scope s n) with
  | some e => simp
  | none =>
    rw [Option.none_or, firstOf_groupDefaults h hm hs hscope.1]
    simp

end

end BunkerWeb.Db
