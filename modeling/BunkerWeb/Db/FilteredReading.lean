import BunkerWeb.Db.Completion
import BunkerWeb.Db.GlobalReading
import BunkerWeb.Db.Groups

/-!
# Reading a few settings (`get_config(filtered_settings=…)`)

A filter narrows every query of `get_config` to the settings of a list, so that less is read.

- **The reduction** (`getConfigEntries_restrict`): a filter finds what the query without one finds in
  a database that has no other settings.
- **All scopes** (`filtered_agrees_iff`): the filter is completed by the settings that decide what is
  read, and a wanted setting is read as it is without the filter, unless a numbered key of it is only
  there since a setting that is not wanted has asked for its group.
- **The global settings** (`filtered_globals_iff`): here the filter is not completed, and without
  `USE_TEMPLATE` in it the global template is not seen.
-/

namespace BunkerWeb

variable {wants : String → Bool}

/-- The catalog of the settings that are wanted. -/
def Catalog.restrict (c : Catalog) (wants : String → Bool) : Catalog where
  targets := c.targets.map fun target => target.filter fun s => wants s.id
  nodup := by
    rw [← List.filter_flatten]
    exact c.nodup.sublist (List.filter_sublist.map _)
  ne_empty s hs := by
    rw [← List.filter_flatten] at hs
    exact c.ne_empty s (List.mem_filter.mp hs).1

theorem Catalog.all_restrict (c : Catalog) :
    (c.restrict wants).all = c.all.filter fun s => wants s.id := List.filter_flatten.symm

theorem Catalog.mem_restrict {c : Catalog} {s : Setting} :
    s ∈ (c.restrict wants).all ↔ s ∈ c.all ∧ wants s.id = true := by
  rw [Catalog.all_restrict, List.mem_filter]

theorem Catalog.find_restrict (c : Catalog) (id : String) :
    (c.restrict wants).find id = if wants id then c.find id else none := by
  unfold Catalog.find
  rw [Catalog.all_restrict, List.find?_filter]
  split
  next h =>
    congr 1
    funext s
    by_cases hid : s.id = id <;> simp [hid, h]
  next h =>
    refine List.find?_eq_none.mpr fun s _ hs => ?_
    obtain ⟨hwanted, hid⟩ := of_decide_eq_true hs
    exact h (of_decide_eq_true hid ▸ hwanted)

end BunkerWeb

namespace BunkerWeb.Db

open Lib

/-! ## The reduction -/

/-- The database without the settings that are not wanted. -/
def Database.restrict (db : Database) (wants : String → Bool) : Database :=
  { db with
    settings := db.settings.restrict wants
    templateSettings := db.templateSettings.filter fun t => wants t.settingId }

/-- The query without a filter. -/
def Query.plain (q : Query) : Query := { q with filtered := [] }

section

variable {db : Database} {q : Query} {wants : String → Bool}

@[simp] theorem wants_plain (id : String) : q.plain.wants id = true := rfl

@[simp] theorem update_plain (needed : List String) : q.plain.update needed = q.plain := rfl

theorem wants_update (needed : List String) (id : String) :
    (q.update needed).wants id =
      (q.wants id || (!q.globalOnly && needed.contains id)) := by
  unfold Query.update Query.wants
  cases hempty : q.filtered.isEmpty
  · cases hglobal : q.globalOnly
    · have hne : (q.filtered ++ needed).isEmpty = false := by
        cases hq : q.filtered with
        | nil => rw [hq] at hempty; cases hempty
        | cons => rfl
      simp only [Bool.or_self, Bool.false_eq_true, if_false, hne, Bool.false_or, Bool.not_false,
        Bool.true_and, List.contains_append]
    · simp [hempty]
  · simp [hempty]

/-- The settings that `get_non_default_settings` adds to the filter are there already. -/
theorem wants_full_update : (q.full.update ["SERVER_NAME", "MULTISITE"]).wants = q.full.wants := by
  have hglobal : q.full.globalOnly = q.globalOnly := by
    unfold Query.full Query.update
    split <;> rfl
  funext id
  rw [wants_update, hglobal, Query.full, wants_update, Bool.or_assoc, ← Bool.and_or_distrib_left]
  congr 2
  simp only [List.contains_cons, List.contains_nil, Bool.or_false]
  cases id == "SERVER_NAME" <;> cases id == "MULTISITE" <;> simp

theorem globalRows_restrict (h : q.wants = wants) :
    globalRows db q = globalRows (db.restrict wants) q.plain := by
  unfold globalRows Database.restrict
  simp only [Catalog.all_restrict, wants_plain, List.filter_true, h]

theorem serviceRows_restrict (h : q.wants = wants) :
    serviceRows db q = serviceRows (db.restrict wants) q.plain := by
  unfold serviceRows Database.restrict
  simp only [Catalog.all_restrict, wants_plain, List.filter_true, h]
  rfl

theorem templateRows_restrict (db : Database) (q : Query) (wants : String → Bool)
    (template : String) :
    templateRows db wants template = templateRows (db.restrict wants) q.plain.wants template := by
  unfold templateRows Database.restrict
  simp only [wants_plain, Bool.and_true, List.filter_filter]

/-- What comes of wanted elements alone. -/
theorem flatMap_filter_eq {α β : Type*} {f : α → List β} {p : α → Bool} {l : List α}
    (h : ∀ a ∈ l, p a = false → f a = []) : l.flatMap f = (l.filter p).flatMap f := by
  induction l with
  | nil => rfl
  | cons a l ih =>
    have htail := ih fun b hb => h b (List.mem_cons_of_mem _ hb)
    rw [List.flatMap_cons, List.filter_cons, htail]
    cases hp : p a
    · rw [h a List.mem_cons_self hp]
      rfl
    · rfl

/-- The first of the wanted elements, where only these are looked for. -/
theorem find?_filter_of_imp {α : Type*} {p f : α → Bool} {l : List α}
    (h : ∀ a, f a = true → p a = true) : (l.filter p).find? f = l.find? f := by
  rw [List.find?_filter]
  congr 1
  funext a
  by_cases hf : f a = true
  · simp [hf, h a hf]
  · simp [hf]

theorem groupDefaults_restrict (db : Database) (q : Query) (wants : String → Bool)
    (templates : Dict String String) (config : Dict String Entry) :
    groupDefaults db wants templates config =
      groupDefaults (db.restrict wants) q.plain.wants templates config := by
  have hgroups : (fun id => ((db.restrict wants).settings.find id).bind fun s =>
      if q.plain.wants s.id then s.multiple else none) =
        fun id => (db.settings.find id).bind fun s => if wants s.id then s.multiple else none := by
    funext id
    show (((db.settings.restrict wants).find id).bind fun s => s.multiple) = _
    rw [Catalog.find_restrict]
    split
    next h =>
      cases hfind : db.settings.find id with
      | none => rfl
      | some s =>
        rw [Option.bind_some, Option.bind_some, (Catalog.find_eq_some.mp hfind).2, if_pos h]
    next h =>
      cases hfind : db.settings.find id with
      | none => rfl
      | some s => rw [Option.bind_some, (Catalog.find_eq_some.mp hfind).2, if_neg h]; rfl
  unfold groupDefaults
  simp only [hgroups]
  show List.flatMap _ db.settings.all = List.flatMap _ (db.settings.restrict wants).all
  rw [Catalog.all_restrict, flatMap_filter_eq (p := fun s => wants s.id)]
  · refine List.flatMap_congr fun s hs => ?_
    obtain ⟨-, hwanted⟩ := List.mem_filter.mp hs
    have hrow (template : String) (n : Nat) :
        ((db.restrict wants).templateSettings.find? fun t =>
          t.templateId = template && t.settingId = s.id && t.suffix = n) =
            db.templateSettings.find? fun t =>
              t.templateId = template && t.settingId = s.id && t.suffix = n := by
      refine find?_filter_of_imp fun t ht => ?_
      simp only [Bool.and_eq_true, decide_eq_true_eq] at ht
      rw [ht.1.2]
      exact hwanted
    simp only [hrow, congrFun hgroups s.id]
  · intro s hs hwants
    rw [Catalog.find_eq_some.mpr ⟨hs, rfl⟩, Option.bind_some, hwants]
    rfl

theorem plain_update (needed : List String) : (q.update needed).plain = q.plain := by
  unfold Query.update Query.plain
  split <;> rfl

theorem serviceList_plain (wants : String → Bool) :
    serviceList (db.restrict wants) q.plain = serviceList db q := rfl

theorem getNonDefaultSettings_restrict (original : Dict String Entry) (multisite : List String) :
    getNonDefaultSettings db q.full original multisite =
      getNonDefaultSettings (db.restrict q.full.wants) q.plain original multisite := by
  let q' := q.full.update ["SERVER_NAME", "MULTISITE"]
  have hplain : q'.plain = q.plain :=
    (plain_update ["SERVER_NAME", "MULTISITE"]).trans (plain_update _)
  have hglobals : globalRows db q' = globalRows (db.restrict q.full.wants) q.plain :=
    hplain ▸ globalRows_restrict wants_full_update
  have hrows : serviceRows db q' = serviceRows (db.restrict q.full.wants) q.plain :=
    hplain ▸ serviceRows_restrict wants_full_update
  have hservices : serviceList db q' = serviceList (db.restrict q.full.wants) q.plain := by
    rw [← hplain, serviceList_plain]
  have hglobal : q'.globalOnly = q.plain.globalOnly := by rw [← hplain]; rfl
  unfold getNonDefaultSettings
  simp only [update_plain]
  rw [hglobals, hrows, hservices, hglobal]
  rfl

theorem baseConfig_restrict :
    baseConfig db q.full = baseConfig (db.restrict q.full.wants) q.plain := by
  unfold baseConfig
  simp only [getNonDefaultSettings_restrict, wants_plain, List.filter_true]
  rw [Database.restrict, Catalog.all_restrict]

/-- **A filter reads what a database without the other settings holds.** -/
theorem getConfigEntries_restrict (db : Database) (q : Query) :
    getConfigEntries db q = getConfigEntries (db.restrict q.full.wants) q.plain := by
  have hglobal : q.full.globalOnly = q.plain.globalOnly := by
    rw [← plain_update ["SERVER_NAME", "MULTISITE", "USE_TEMPLATE"], ← Query.full]
    rfl
  have hrows (template : String) := templateRows_restrict db q q.full.wants template
  have hgroups (templates : Dict String String) (config : Dict String Entry) :=
    groupDefaults_restrict db q q.full.wants templates config
  unfold getConfigEntries
  simp only [update_plain]
  rw [← Query.full, baseConfig_restrict, hglobal]
  simp only [hrows, hgroups]
  rfl

end

/-! ## The drafts -/

/-- The database with the services that a query sees. -/
def Database.seen (db : Database) (drafts : Bool) : Database :=
  { db with services := db.services.keepIf fun sv => drafts || !sv.isDraft }

section

variable {db : Database} {q : Query}

/-- The query that also sees drafts. -/
def Query.drafted (q : Query) : Query := { q with withDrafts := true }

theorem update_drafted (needed : List String) :
    q.drafted.update needed = (q.update needed).drafted := by
  unfold Query.update Query.drafted
  simp only
  split <;> rfl

theorem withDrafts_update (needed : List String) :
    (q.update needed).withDrafts = q.withDrafts := by
  unfold Query.update
  split <;> rfl

theorem serviceList_seen :
    serviceList db q = serviceList (db.seen q.withDrafts) q.drafted := by
  unfold serviceList Database.seen Query.drafted
  simp only [Dict.items_keepIf, Bool.true_or, List.filter_true]

theorem serviceRows_seen :
    serviceRows db q = serviceRows (db.seen q.withDrafts) q.drafted := by
  unfold serviceRows
  rw [serviceList_seen]
  rfl

theorem getNonDefaultSettings_seen (original : Dict String Entry) (multisite : List String) :
    getNonDefaultSettings db q original multisite =
      getNonDefaultSettings (db.seen q.withDrafts) q.drafted original multisite := by
  have hdrafts := withDrafts_update (q := q) ["SERVER_NAME", "MULTISITE"]
  have hservices := @serviceList_seen db (q.update ["SERVER_NAME", "MULTISITE"])
  have hrows := @serviceRows_seen db (q.update ["SERVER_NAME", "MULTISITE"])
  rw [hdrafts] at hservices hrows
  unfold getNonDefaultSettings
  rw [update_drafted]
  simp only
  rw [hservices, hrows]
  rfl

theorem getConfigEntries_seen (db : Database) (q : Query) :
    getConfigEntries db q = getConfigEntries (db.seen q.withDrafts) q.drafted := by
  have hdrafts := withDrafts_update (q := q) ["SERVER_NAME", "MULTISITE", "USE_TEMPLATE"]
  have hbase : baseConfig db q.full = baseConfig (db.seen q.withDrafts) q.full.drafted := by
    unfold baseConfig
    rw [getNonDefaultSettings_seen, Query.full, hdrafts]
    rfl
  unfold getConfigEntries
  rw [update_drafted, ← Query.full]
  simp only [hbase]
  rfl

end

/-! ## All scopes -/

section

variable {db : Database} {wants : String → Bool} {s : Setting} {n : Nat} {scope : Option String}

/-- The settings that decide what is read. -/
structure Decides (wants : String → Bool) : Prop where
  serverName : wants "SERVER_NAME" = true
  multisite : wants "MULTISITE" = true
  useTemplate : wants "USE_TEMPLATE" = true

theorem Readable.seen (h : Readable db) (drafts : Bool) : Readable (db.seen drafts) where
  installed := ⟨h.installed.unnumbered, h.installed.serverName, h.installed.multisite,
    h.installed.useTemplate, h.installed.templates⟩
  services id hid := by
    obtain ⟨sv, hsv⟩ := Option.isSome_iff_exists.mp hid
    exact h.services id (Option.isSome_iff_exists.mpr ⟨sv, (Dict.lookup_keepIf.mp hsv).1⟩)
  globals := h.globals
  rows := h.rows

theorem decides_full (drafts : Bool) (filtered : List String) :
    Decides (Query.full ⟨false, drafts, filtered⟩).wants := by
  constructor <;> simp [Query.full, wants_update]

theorem Separate.restrict {c : Catalog} {service : String} (h : Separate c service) :
    Separate (c.restrict wants) service where
  word := h.word
  noUnderscore := h.noUnderscore
  notSetting s hs := h.notSetting s (Catalog.mem_restrict.mp hs).1
  notPrefix s hs := h.notPrefix s (Catalog.mem_restrict.mp hs).1
  notGlobal := h.notGlobal

theorem Installed.restrict (h : Installed db) (hw : Decides wants) :
    Installed (db.restrict wants) where
  unnumbered s hs := h.unnumbered s (Catalog.mem_restrict.mp hs).1
  serverName := by
    obtain ⟨s, hs, hid⟩ := h.serverName
    exact ⟨s, Catalog.mem_restrict.mpr ⟨hs, hid ▸ hw.serverName⟩, hid⟩
  multisite := by
    obtain ⟨s, hs, hid, hdefault⟩ := h.multisite
    exact ⟨s, Catalog.mem_restrict.mpr ⟨hs, hid ▸ hw.multisite⟩, hid, hdefault⟩
  useTemplate := by
    obtain ⟨s, hs, hid, hrest⟩ := h.useTemplate
    exact ⟨s, Catalog.mem_restrict.mpr ⟨hs, hid ▸ hw.useTemplate⟩, hid, hrest⟩
  templates t ht := by
    obtain ⟨ht, hwanted⟩ := List.mem_filter.mp ht
    obtain ⟨hne, s, hs, hid⟩ := h.templates t ht
    exact ⟨hne, s, Catalog.mem_restrict.mpr ⟨hs, hid ▸ hwanted⟩, hid⟩

theorem Readable.restrict (h : Readable db) (hw : Decides wants) :
    Readable (db.restrict wants) where
  installed := h.installed.restrict hw
  services id hid := (h.services id hid).restrict
  globals k c hk hpos s hs := h.globals k c hk hpos s (Catalog.mem_restrict.mp hs).1
  rows k c hk hpos s hs := h.rows k c hk hpos s (Catalog.mem_restrict.mp hs).1

theorem templateRow_restrict (hwanted : wants s.id = true) (template : String) :
    templateRow (db.restrict wants) template s.id n = templateRow db template s.id n := by
  have hfilter : (db.restrict wants).templateSettings.filter (·.templateId = template) =
      (db.templateSettings.filter (·.templateId = template)).filter fun t => wants t.settingId := by
    rw [Database.restrict, List.filter_filter, List.filter_filter]
    congr 1
    funext t
    exact Bool.and_comm _ _
  unfold templateRow
  rw [hfilter, Dict.lastOf_map_filter]
  intro t _ ht
  rw [(Prod.mk.inj ht).1]
  exact hwanted

/-- A key of a wanted setting stands for the same. -/
theorem stands_restrict (hwanted : wants s.id = true) :
    stands (db.restrict wants) scope s n = stands db scope s n := by
  have htemplate (template : String) :
      templateValue (db.restrict wants) template s.id n = templateValue db template s.id n := by
    rw [templateValue, templateRow_restrict hwanted, templateValue]
  cases scope with
  | none => simp only [stands, globalValue, htemplate]; rfl
  | some service => simp only [stands, keyValue, htemplate]; rfl

theorem groupsOf_restrict (db : Database) (wants : String → Bool) (id : String) :
    groupsOf (db.restrict wants) id = if wants id then groupsOf db id else none := by
  show ((db.settings.restrict wants).find id).bind Setting.multiple = _
  rw [Catalog.find_restrict]
  split <;> rfl

/-- The group that the key of a wanted setting asks for. -/
theorem groupOf_restrict (h : Readable db) (hs : s ∈ db.settings.all) (hwanted : wants s.id = true)
    (hscope : KnownScope db scope) {f : String × String × Nat}
    (hf : groupOf (groupsOf (db.restrict wants)) (serviceIds db) (keyOf scope s n) = some f) :
    groupOf (groupsOf db) (serviceIds db) (keyOf scope s n) = some f := by
  unfold groupOf at hf ⊢
  cases hrx : suffixRx (keyOf scope s n) with
  | none => rw [hrx] at hf; cases hf
  | some r =>
    obtain ⟨setting, digits⟩ := r
    obtain ⟨hkey, -, hdigits⟩ := suffixRx_eq_some.mp hrx
    -- What is in front of the number is a wanted setting or starts with a service.
    have hsame : groupsOf (db.restrict wants) setting = groupsOf db setting := by
      rw [groupsOf_restrict]
      split
      · rfl
      next hunwanted =>
        cases scope with
        | none =>
          rcases Nat.eq_zero_or_pos n with rfl | hpos
          · rw [keyOf, suffixedKey_zero, h.installed.unnumbered s hs] at hrx
            cases hrx
          · rw [keyOf, suffixedKey_of_pos _ hpos] at hkey
            have hid := (joinKey_inj_of_last (not_underscore_of_isNumber hdigits)
              (not_underscore_of_isNumber (isNumber_toString n)) hkey.symm).1
            exact absurd hwanted (hid ▸ hunwanted)
        | some service =>
          have hsep := h.services service (hscope service rfl)
          rw [groupsOf, Catalog.find_eq_none.mpr fun s' hs' he => ?_]
          · rfl
          · rw [keyOf, ← he] at hkey
            exact joinKey_ne_joinKey hsep.noUnderscore (hsep.notSetting s' hs')
              (hsep.notPrefix s' hs') _ _ hkey.symm
    rw [hrx] at hf
    simp only [hsame] at hf ⊢
    split at hf
    · exact hf
    · split at hf
      · cases hf
      · obtain ⟨group, hgroup, rfl⟩ := Option.map_eq_some_iff.mp hf
        rw [groupsOf_restrict] at hgroup
        split at hgroup
        · rw [hgroup]; rfl
        · cases hgroup

/-- A key of the scope has asked for the group of the setting, with this number, and is that of a
wanted setting. -/
def AskedBy (db : Database) (wants : String → Bool) (scope : Option String) (s : Setting) (n : Nat) :
    Prop :=
  0 < n ∧ ∃ group, s.multiple = some group ∧ ∃ s' ∈ db.settings.all, wants s'.id = true ∧
    ∃ n', stands db scope s' n' ≠ none ∧
      groupOf (fun id => if wants id then groupsOf db id else none) (serviceIds db)
        (keyOf scope s' n') = some (group, windowOf scope, n)

theorem asked_restrict : Asked (db.restrict wants) scope s n ↔ AskedBy db wants scope s n := by
  unfold Asked AskedBy
  refine and_congr_right fun _ => exists_congr fun group => and_congr_right fun _ => ?_
  refine exists_congr fun s' => ?_
  show (s' ∈ (db.settings.restrict wants).all ∧ _) ↔ _
  rw [Catalog.mem_restrict, and_assoc]
  refine and_congr_right fun _ => and_congr_right fun hwanted => exists_congr fun n' => ?_
  rw [stands_restrict hwanted, funext (groupsOf_restrict db wants)]
  rfl

theorem AskedBy.asked (h : Readable db) (hscope : KnownScope db scope)
    (ha : AskedBy db wants scope s n) : Asked db scope s n := by
  obtain ⟨hpos, group, hgroup, s', hs', hwanted, n', hstands, hof⟩ := ha
  rw [← funext (groupsOf_restrict db wants)] at hof
  exact ⟨hpos, group, hgroup, s', hs', n', hstands, groupOf_restrict h hs' hwanted hscope hof⟩

theorem fillText_restrict (hwanted : wants s.id = true) :
    fillText (db.restrict wants) scope s n = fillText db scope s n := by
  have htemplate : scopeTemplate (db.restrict wants) scope = scopeTemplate db scope := rfl
  unfold fillText
  rw [htemplate, Database.restrict]
  simp only
  rw [find?_filter_of_imp fun t ht => ?_]
  simp only [Bool.and_eq_true, decide_eq_true_eq] at ht
  rw [ht.1.2]
  exact hwanted

/-- What a filter shows. -/
theorem shows_restrict (hwanted : wants s.id = true) {v : String} :
    Shows (db.restrict wants) scope s n v ↔ stands db scope s n = some v ∨
      (stands db scope s n = none ∧ AskedBy db wants scope s n ∧ v = fillText db scope s n) := by
  rw [Shows, stands_restrict hwanted, asked_restrict, fillText_restrict hwanted]

theorem keyOf_inj (h : Readable db) {scope' : Option String} {s' : Setting} {n' : Nat}
    (hs : s ∈ db.settings.all) (hs' : s' ∈ db.settings.all) (hscope : KnownScope db scope)
    (hscope' : KnownScope db scope') (he : keyOf scope s n = keyOf scope' s' n') : s = s' := by
  cases scope with
  | none =>
    cases scope' with
    | none => exact (h.installed.suffixedKey_inj hs hs' he).1
    | some service => exact absurd he ((h.services service (hscope' service rfl)).ne_joinKey hs n _)
  | some service =>
    have hsep := h.services service (hscope service rfl)
    cases scope' with
    | none => exact absurd he.symm (hsep.ne_joinKey hs' n' _)
    | some service' =>
      have hrest := (hsep.joinKey_inj (h.services service' (hscope' service' rfl)) he).2
      exact (h.installed.suffixedKey_inj hs hs' hrest).1

/-- A setting that is not wanted has no key. -/
theorem lookup_of_unwanted (h : Readable db) (hm : StoredMultisite db) (hw : Decides wants)
    (hs : s ∈ db.settings.all) (hunwanted : wants s.id = false) (hproper : Proper db scope s n) :
    (getConfig (db.restrict wants) withDrafts).lookup (keyOf scope s n) = none := by
  have h' := h.restrict hw
  have hother (s' : Setting) (hs' : s' ∈ (db.restrict wants).settings.all) : s' ≠ s := by
    rintro rfl
    exact Bool.false_ne_true (hunwanted.symm.trans (Catalog.mem_restrict.mp hs').2)
  rw [getConfig, Dict.lookup_mapValues, getConfigEntries_eq h' hm, Dict.lookup_setDefaults,
    Option.map_eq_none_iff, Option.or_eq_none_iff]
  constructor
  · by_contra hsome
    obtain ⟨e, he⟩ := Option.ne_none_iff_exists'.mp hsome
    rcases keyForms_templatedConfig h' hm _ (Dict.mem_iff_lookup.mpr ⟨e, he⟩) with
      ⟨scope', hscope', s', hs', n', hkey⟩ | ⟨service, hservice, hkey⟩
    · have hmem := (Catalog.mem_restrict.mp hs').1
      exact hother s' hs' (keyOf_inj h hs hmem hproper.1 hscope' hkey).symm
    · cases scope with
      | none => exact (h.services service hservice).ne_joinKey hs n _ hkey
      | some service' =>
        have hsep := h.services service' (hproper.1 service' rfl)
        exact hproper.2 rfl (hsep.joinKey_inj (h.services service hservice) hkey).2
  · refine Dict.firstOf_eq_none.mpr fun e he hkey => ?_
    obtain ⟨s', hs', k, window, hwindow, -⟩ :=
      mem_groupDefaults (fun sv => mem_serverName_templated h' hm) he
    have hmem := (Catalog.mem_restrict.mp hs').1
    have hfill : ∃ scope', KnownScope db scope' ∧ e.1 = if windowOf scope' = "global" then
        joinKey s'.id (toString k) else joinKey (windowOf scope') (joinKey s'.id (toString k)) := by
      rcases hwindow with ⟨-, hform⟩ | ⟨hservice, hne, hform⟩
      · exact ⟨none, knownScope_none, hform⟩
      · exact ⟨some window, knownScope_some hservice, hform.trans (if_neg hne).symm⟩
    obtain ⟨scope', hscope', hform⟩ := hfill
    exact hother s' hs' (fillKey_inj h hs hmem hproper.1 hscope' (hkey.symm.trans hform)).2.1

end

section

variable {db : Database} {q : Query} {s : Setting} {n : Nat}

theorem update_globals (hq : q.globalOnly = true) (needed : List String) : q.update needed = q := by
  rw [Query.update, hq, Bool.or_true, if_pos rfl]

theorem globalRows_filter :
    globalRows db q = (globalRows db withDrafts).filter fun r => q.wants r.1.id := by
  unfold globalRows
  simp only [wants_withDrafts, List.filter_true]
  symm
  rw [List.filter_flatMap, flatMap_filter_eq (p := fun s => q.wants s.id)]
  · refine List.flatMap_congr fun s hs => List.filter_eq_self.mpr fun r hr => ?_
    obtain ⟨-, -, rfl⟩ := List.mem_map.mp hr
    exact (List.mem_filter.mp hs).2
  · intro s _ hunwanted
    refine List.filter_eq_nil_iff.mpr fun r hr => ?_
    obtain ⟨-, -, rfl⟩ := List.mem_map.mp hr
    rw [hunwanted]
    exact Bool.false_ne_true

/-- The layers without the templates. -/
theorem baseConfig_globals (hq : q.globalOnly = true) :
    baseConfig db q =
      ((Dict.setAll ∅ ((db.settings.all.filter fun s => q.wants s.id).map
        fun s => (s.id, defaultEntry s))).setAll
          (((globalRows db withDrafts).filter fun r => q.wants r.1.id).map fun r =>
            (valueKey r.1 r.2.1, globalEntry r.1 r.2.2))).insert "SERVER_NAME"
        (serversEntry ((serviceList db q).map Prod.fst)) := by
  unfold baseConfig getNonDefaultSettings
  simp only [update_globals hq, globalRows_filter (q := q), hq, Bool.not_true, Bool.false_and,
    Bool.false_eq_true, if_false]

/-- A wanted setting has its row or its default. -/
theorem lookup_baseConfig_wanted (h : GlobalsInOrder db) (hq : q.globalOnly = true)
    (hs : s ∈ db.settings.all) (hwanted : q.wants s.id = true)
    (hkey : suffixedKey s.id n ≠ "SERVER_NAME") :
    (baseConfig db q).lookup (suffixedKey s.id n) = baseEntry db s n := by
  rw [← lookup_baseConfig_globalOnly h hs hkey, baseConfig_globals hq, baseConfig_globalOnly,
    AList.lookup_insert_ne hkey, AList.lookup_insert_ne hkey, withGlobals, defaultEntries,
    Dict.lookup_setAll, Dict.lookup_setAll, Dict.lookup_setAll, Dict.lookup_setAll,
    Dict.lastOf_map_filter fun r hr he => ?_, Dict.lastOf_map_filter fun s' hs' he => ?_]
  · have hid : s'.id = suffixedKey s.id n := he
    rw [← suffixedKey_zero s'.id] at hid
    rw [(h.installed.suffixedKey_inj hs' hs hid).1]
    exact hwanted
  · obtain ⟨hs', hl⟩ := mem_globalRows.mp hr
    have hid : valueKey r.1 r.2.1 = suffixedKey s.id n := he
    rw [valueKey_eq fun hpos => h.globals _ _ hl hpos _ hs' rfl] at hid
    rw [(h.installed.suffixedKey_inj hs' hs hid).1]
    exact hwanted

/-- Each key is `SERVER_NAME` or that of a wanted setting, numbered only if it may be. -/
theorem key_baseConfig (h : GlobalsInOrder db) (hq : q.globalOnly = true) {key : String}
    (hkey : key ∈ baseConfig db q) :
    key = "SERVER_NAME" ∨ ∃ s ∈ db.settings.all, q.wants s.id = true ∧ ∃ n,
      key = suffixedKey s.id n ∧ (0 < n → s.multiple.isSome) := by
  rw [baseConfig_globals hq, AList.mem_insert] at hkey
  refine hkey.imp_right fun hkey => ?_
  rcases Dict.mem_of_mem_setAll hkey with hkey | hkey
  · rcases Dict.mem_of_mem_setAll hkey with hkey | hkey
    · exact absurd hkey (AList.notMem_empty key)
    · obtain ⟨e, he, rfl⟩ := List.mem_map.mp hkey
      obtain ⟨s, hs, rfl⟩ := List.mem_map.mp he
      obtain ⟨hs, hwanted⟩ := List.mem_filter.mp hs
      exact ⟨s, hs, hwanted, 0, (suffixedKey_zero s.id).symm, fun hpos => absurd hpos (Nat.lt_irrefl 0)⟩
  · obtain ⟨e, he, rfl⟩ := List.mem_map.mp hkey
    obtain ⟨⟨s, n, c⟩, hr, rfl⟩ := List.mem_map.mp he
    obtain ⟨hr, hwanted⟩ := List.mem_filter.mp hr
    obtain ⟨hs, hl⟩ := mem_globalRows.mp hr
    have hmultiple := fun hpos => h.globals _ c hl hpos s hs rfl
    exact ⟨s, hs, hwanted, n, valueKey_eq hmultiple, hmultiple⟩

/-- Without `USE_TEMPLATE` in the filter no template is seen. -/
theorem usedTemplate_globals (h : GlobalsInOrder db) (hq : q.globalOnly = true) :
    usedTemplate db q = if q.wants "USE_TEMPLATE" then templateUsed db else "" := by
  obtain ⟨s, hs, hid, -, -⟩ := h.installed.useTemplate
  have hkey : suffixedKey s.id 0 = "USE_TEMPLATE" := by rw [suffixedKey_zero, hid]
  have hne : suffixedKey s.id 0 ≠ "SERVER_NAME" := by rw [hkey]; decide
  rw [usedTemplate, Query.full, update_globals hq]
  split
  next hwanted =>
    rw [← valueOf_globalOnly h, valueOf, valueOf, ← hkey,
      lookup_baseConfig_wanted h hq hs (hid ▸ hwanted) hne, lookup_baseConfig_globalOnly h hs hne]
  next hunwanted =>
    have hnone : (baseConfig db q).lookup "USE_TEMPLATE" = none := by
      rw [AList.lookup_eq_none]
      intro hmem
      rcases key_baseConfig h hq hmem with hserver | ⟨s', hs', hwanted, n, hform, -⟩
      · exact absurd hserver (by decide)
      · rw [← hkey] at hform
        obtain ⟨rfl, -⟩ := h.installed.suffixedKey_inj hs hs' hform
        exact hunwanted (hid ▸ hwanted)
    rw [valueOf, hnone]
    rfl

/-- A key before the groups are filled. -/
theorem lookup_withUsedTemplate (h : GlobalsInOrder db) (hq : q.globalOnly = true)
    (hs : s ∈ db.settings.all) (hwanted : q.wants s.id = true)
    (hkey : suffixedKey s.id n ≠ "SERVER_NAME") :
    ((withUsedTemplate db q).lookup (suffixedKey s.id n)).map Entry.value =
      ((db.globalValues.lookup (s.id, n)).map Cell.value).or
        ((templateValue db (usedTemplate db q) s.id n).or
          (if n = 0 then some s.default else none)) := by
  have hbase := lookup_baseConfig_wanted h hq hs hwanted hkey
  have hlookup : (withUsedTemplate db q).lookup (suffixedKey s.id n) =
      if (baseEntry db s n).any (fun e => e.method.isSome) then baseEntry db s n
      else (if usedTemplate db q = "" then none
        else (templateRow db (usedTemplate db q) s.id n).map (templateEntry true)).or
          (baseEntry db s n) := by
    rw [withUsedTemplate, Query.full, update_globals hq]
    split
    · rw [hbase, Option.none_or, ite_self]
    · have hrows : templateRows db q.wants (usedTemplate db q) =
          (templateRows db withDrafts.wants (usedTemplate db q)).filter
            fun t => q.wants t.settingId := by
        rw [templateRows_withDrafts, templateRows, List.filter_filter]
        congr 1
        funext t
        exact Bool.and_comm _ _
      have hall := @lastOf_templateRows (withoutServices db) s h.readable hs n (usedTemplate db q) id
        (fun _ he => he) true
      rw [Dict.lookup_setAllUnless _ (by
          rintro e he
          obtain ⟨t, -, rfl⟩ := List.mem_map.mp he
          rfl), hbase, hrows, Dict.lastOf_map_filter fun t ht he => ?_]
      · exact congrArg _ (congrArg (fun row => row.or (baseEntry db s n)) hall)
      · obtain ⟨-, s', hs', hid⟩ := h.installed.templates t (mem_templateSettings ht)
        have hform : suffixedKey s'.id t.suffix = suffixedKey s.id n := hid ▸ he
        rw [← hid, (h.installed.suffixedKey_inj hs' hs hform).1]
        exact hwanted
  rw [hlookup, baseEntry]
  cases db.globalValues.lookup (s.id, n) with
  | some c => rfl
  | none =>
    rw [Option.map_none, Option.none_or, if_neg, overlay_value, Option.map_none, Option.none_or,
      templateValue]
    · congr 1
      split <;> rfl
    · split <;> simp [defaultEntry]

theorem key_withUsedTemplate (h : GlobalsInOrder db) (hq : q.globalOnly = true) {key : String}
    (hkey : key ∈ withUsedTemplate db q) :
    key = "SERVER_NAME" ∨ ∃ s ∈ db.settings.all, q.wants s.id = true ∧ ∃ n,
      key = suffixedKey s.id n ∧ (0 < n → s.multiple.isSome) := by
  rw [withUsedTemplate, Query.full, update_globals hq] at hkey
  split at hkey
  · exact key_baseConfig h hq hkey
  · rcases Dict.mem_of_mem_setAllUnless hkey with hkey | hkey
    · exact key_baseConfig h hq hkey
    · obtain ⟨e, he, rfl⟩ := List.mem_map.mp hkey
      obtain ⟨t, ht, rfl⟩ := List.mem_map.mp he
      obtain ⟨hrow, hcond⟩ := List.mem_filter.mp ht
      obtain ⟨-, s, hs, hid⟩ := h.installed.templates t hrow
      rw [Bool.and_eq_true] at hcond
      exact .inr ⟨s, hs, hid ▸ hcond.2, t.suffix, by rw [hid],
        fun hpos => h.templates t hrow hpos s hs hid⟩

/-- A global group is asked for by global keys. -/
theorem window_withUsedTemplate (h : GlobalsInOrder db) (hq : q.globalOnly = true)
    {services : List String} {key : String} (hkey : key ∈ withUsedTemplate db q)
    {group window : String}
    (hgroup : groupOf (groupsOf (db.restrict q.wants)) services key = some (group, window, n)) :
    window = "global" := by
  unfold groupOf at hgroup
  split at hgroup
  · cases hgroup
  next setting digits hrx =>
    have hsome : (groupsOf (db.restrict q.wants) setting).isSome := by
      rcases key_withUsedTemplate h hq hkey with rfl | ⟨s, hs, hwanted, n, rfl, hmultiple⟩
      · rw [unnumbered_serverName h.installed] at hrx
        cases hrx
      · have hsome := groupsOf_of_suffixRx h.installed hs hmultiple hrx
        rcases Nat.eq_zero_or_pos n with rfl | hpos
        · rw [suffixedKey_zero, h.installed.unnumbered s hs] at hrx
          cases hrx
        · obtain ⟨hform, -, hdigits⟩ := suffixRx_eq_some.mp hrx
          rw [suffixedKey_of_pos _ hpos] at hform
          have hid := (joinKey_inj_of_last (not_underscore_of_isNumber (isNumber_toString n))
            (not_underscore_of_isNumber hdigits) hform).1
          rw [groupsOf_restrict, if_pos (hid ▸ hwanted)]
          exact hsome
    obtain ⟨group', hsome⟩ := Option.isSome_iff_exists.mp hsome
    rw [hsome] at hgroup
    cases hgroup
    rfl

/-- What a setting is read as. -/
def readAs (db : Database) (q : Query) (s : Setting) (n : Nat) : String :=
  ((getConfig db q).lookup (suffixedKey s.id n)).getD s.default

theorem readAs_eq (h : GlobalsInOrder db) (hq : q.globalOnly = true) (hs : s ∈ db.settings.all)
    (hwanted : q.wants s.id = true) (hkey : suffixedKey s.id n ≠ "SERVER_NAME") :
    readAs db q s n = (((db.globalValues.lookup (s.id, n)).map Cell.value).or
      (templateValue db (usedTemplate db q) s.id n)).getD s.default := by
  have hfull : q.full = q := update_globals hq _
  have hnone : usedTemplates db q = [] := by
    rw [usedTemplates, hfull, hq]
    rfl
  have hmerged : merged db q = withUsedTemplate db q := by
    rw [merged, hnone]
    rfl
  have hfound : Found s.default (((db.globalValues.lookup (s.id, n)).map Cell.value).or
      ((templateValue db (usedTemplate db q) s.id n).or (if n = 0 then some s.default else none)))
      ((getConfig db q).lookup (suffixedKey s.id n)) := by
    rw [getConfig, Dict.lookup_mapValues, getConfigEntries_merged, hmerged]
    refine Found.of_lookup (lookup_withUsedTemplate h hq hs hwanted hkey) fun hnothing e he => ?_
    rw [Option.or_eq_none_iff, Option.or_eq_none_iff] at hnothing
    rw [hfull, groupDefaults_restrict _ q] at he
    obtain ⟨s', hs', n', window, ⟨item, hitem, group, -, hgroup⟩, hform, hvalue⟩ :=
      @mem_groupDefaults_window (db.restrict q.wants) _ _ _ _ he
    have hmem := Dict.mem_iff_lookup.mpr ⟨_, Dict.mem_items.mp hitem⟩
    obtain rfl := window_withUsedTemplate h hq hmem hgroup
    obtain ⟨hs', hwanted'⟩ := Catalog.mem_restrict.mp hs'
    rw [if_pos rfl] at hform
    obtain ⟨rfl, rfl⟩ := h.readable.numbered_inj hs hs' hform
    refine hvalue ?_
    have htemplate : fillTemplate (usedWindows db q) "global" = usedTemplate db q := by
      rw [usedWindows, hnone, List.append_nil, fillTemplate, Dict.lookup_setAll, AList.lookup_empty,
        Option.or_none]
      by_cases hempty : usedTemplate db q = ""
      · simp [hempty]
      · simp [hempty, Dict.lastOf]
    rw [htemplate, templateValue, templateRow_restrict hwanted, ← templateValue]
    exact hnothing.2.1
  rw [← Option.or_assoc] at hfound
  rw [readAs]
  cases hvalue : ((db.globalValues.lookup (s.id, n)).map Cell.value).or
      (templateValue db (usedTemplate db q) s.id n) with
  | some v =>
    rw [hvalue] at hfound
    rw [show (getConfig db q).lookup (suffixedKey s.id n) = some v from hfound]
  | none =>
    rw [hvalue, Option.none_or] at hfound
    split at hfound
    · rw [show (getConfig db q).lookup (suffixedKey s.id n) = some s.default from hfound]
      rfl
    · rcases hfound with hl | hl
      · rw [hl]
      · rw [hl]; rfl

/-- **A filter on the global settings does not see the global template.** For a database whose tables
are filled in order, any filter and any setting that it wants: `get_config(global_only=True)` reads a
key of it (the setting stands for its default where it has none) as it does without the filter exactly
when the filter has `USE_TEMPLATE` too, or the key has a row of its own, or the global template gives it
nothing else than its default. -/
theorem filtered_globals_iff (h : GlobalsInOrder db) (drafts : Bool) (filtered : List String)
    (hs : s ∈ db.settings.all) (hkey : suffixedKey s.id n ≠ "SERVER_NAME") :
    let q : Query := ⟨true, drafts, filtered⟩
    let whole : Query := ⟨true, drafts, []⟩
    q.wants s.id = true →
      (readAs db q s n = readAs db whole s n ↔
        q.wants "USE_TEMPLATE" = true ∨ (db.globalValues.lookup (s.id, n)).isSome ∨
          ∀ v ∈ templateValue db (templateUsed db) s.id n, v = s.default) := by
  intro q whole hwanted
  have hwhole : usedTemplate db whole = templateUsed db := usedTemplate_globals h rfl
  rw [readAs_eq h rfl hs hwanted hkey, readAs_eq h rfl hs rfl hkey, hwhole,
    usedTemplate_globals h rfl]
  cases hrow : db.globalValues.lookup (s.id, n) with
  | some c => simp
  | none =>
    by_cases htemplate : q.wants "USE_TEMPLATE" = true
    · simp [htemplate]
    · rw [if_neg htemplate]
      cases hv : templateValue db (templateUsed db) s.id n with
      | none => simp [templateValue]
      | some v => simp [templateValue, htemplate, eq_comm]

end

/-- A site whose global template compresses. -/
def compressed : Database :=
  { site [] [(("USE_TEMPLATE", 0), ⟨"low", "", .ui⟩)] [] with
    settings := ⟨[[serverNameSetting, multisiteSetting, useTemplate, useGzip]], by decide, by decide⟩
    templateSettings := [⟨"low", "USE_GZIP", 0, "yes"⟩] }

theorem filtered_compressed :
    readAs compressed ⟨true, false, ["USE_GZIP"]⟩ useGzip 0 ≠
      readAs compressed ⟨true, false, []⟩ useGzip 0 := by
  intro heq
  have horder : GlobalsInOrder compressed := by decide +kernel
  have hcond := (filtered_globals_iff horder false ["USE_GZIP"]
    (by decide +kernel) (by decide +kernel) (by decide +kernel)).mp heq
  revert hcond
  decide +kernel

end BunkerWeb.Db
