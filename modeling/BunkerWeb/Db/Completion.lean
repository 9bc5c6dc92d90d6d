import BunkerWeb.Db.Save
import BunkerWeb.Db.Templates
import Mathlib.Data.List.Infix

/-!
# Groups of numbered settings are complete

The last pass of `get_config` scans the dictionary that the tables and the templates have made
(`merged`). A numbered key of a group asks for the other settings of the group, in the scope and
under the number that the pass recovers from the text of the key. `groups_complete_iff` says when
every scope that has one setting of a group under a number has them all.
-/

namespace BunkerWeb.Db

open Lib

/-! ## The dictionary that is scanned -/

/-- The services that the query sees. -/
def visible (db : Database) (q : Query) : List String := (serviceList db q).map Prod.fst

/-- The query with the settings that `get_config` needs. -/
def Query.full (q : Query) : Query := q.update ["SERVER_NAME", "MULTISITE", "USE_TEMPLATE"]

/-- `template_used`. -/
def usedTemplate (db : Database) (q : Query) : String :=
  valueOf (baseConfig db q.full) "USE_TEMPLATE" ""

/-- The dictionary with the settings of the global template. -/
def withUsedTemplate (db : Database) (q : Query) : Dict String Entry :=
  if usedTemplate db q = "" then baseConfig db q.full
  else (baseConfig db q.full).setAllUnless (fun e => e.method.isSome)
    ((templateRows db q.full.wants (usedTemplate db q)).map fun t =>
      (suffixedKey t.settingId t.suffix, templateEntry true t))

/-- The services with their templates. -/
def usedTemplates (db : Database) (q : Query) : List (String × String) :=
  if !q.full.globalOnly && valueOf (withUsedTemplate db q) "MULTISITE" "no" = "yes" then
    serviceTemplates (withUsedTemplate db q) (usedTemplate db q)
      (words (valueOf (withUsedTemplate db q) "SERVER_NAME" ""))
  else []

/-- The dictionary before the groups are completed. -/
def merged (db : Database) (q : Query) : Dict String Entry :=
  (withUsedTemplate db q).setAllUnless (fun e => e.method.isSome && !e.isGlobal)
    ((usedTemplates db q).flatMap fun u => (templateRows db q.full.wants u.2).map fun t =>
      (joinKey u.1 (suffixedKey t.settingId t.suffix), templateEntry false t))

def usedWindows (db : Database) (q : Query) : Dict String String :=
  Dict.setAll ∅ ((if usedTemplate db q = "" then [] else [("global", usedTemplate db q)]) ++
    usedTemplates db q)

theorem getConfigEntries_merged (db : Database) (q : Query) :
    getConfigEntries db q = (merged db q).setDefaults
      (groupDefaults db q.full.wants (usedWindows db q) (merged db q)) := rfl

/-! ## The property -/

/-- The key of a setting with a number, global or of a service. -/
def numberedKey (scope : Option String) (id digits : String) : String :=
  match scope with
  | none => joinKey id digits
  | some service => joinKey service (joinKey id digits)

/-- A key of the setting in the scope has this number. -/
def Appears {ν : Type} (config : Dict String ν) (scope : Option String) (id : String) (n : Nat) :
    Prop :=
  ∃ digits, IsNumber digits ∧ parseInt digits = n ∧ numberedKey scope id digits ∈ config

/-- The setting belongs to the group, and the query wants it. -/
structure Member (db : Database) (q : Query) (group : String) (s : Setting) : Prop where
  mem : s ∈ db.settings.all
  multiple : s.multiple = some group
  wanted : q.full.wants s.id = true

/-- The scope is the global one or that of a service. -/
def VisibleScope (db : Database) (q : Query) (scope : Option String) : Prop :=
  ∀ service ∈ scope, service ∈ visible db q

/-- Each scope that has a setting of a group under a number has the whole group under it. -/
def GroupsComplete (db : Database) (q : Query) : Prop :=
  ∀ scope, VisibleScope db q scope → ∀ group s s', Member db q group s → Member db q group s' →
    ∀ n, Appears (getConfig db q) scope s.id n → Appears (getConfig db q) scope s'.id n

/-- No key reads as one of two scopes: the names of services are words without underscores, and no
setting starts with one and an underscore. -/
structure NamesApart (db : Database) (q : Query) : Prop where
  word : ∀ service ∈ visible db q, IsWord service
  noUnderscore : ∀ service ∈ visible db q, '_' ∉ service.toList
  notPrefix : ∀ service ∈ visible db q, ∀ s ∈ db.settings.all, ∀ r, s.id ≠ joinKey service r
  serverName : ∃ s ∈ db.settings.all, s.id = "SERVER_NAME"

/-- The groups that the pass knows. -/
def groupsWanted (db : Database) (q : Query) (id : String) : Option String :=
  (db.settings.find id).bind fun s => if q.full.wants s.id then s.multiple else none

/-- A key of the dictionary asks for the group in the window, under the number. -/
def AskedFor (db : Database) (q : Query) (group window : String) (n : Nat) : Prop :=
  ∃ key ∈ merged db q, groupOf (groupsWanted db q) (visible db q) key = some (group, window, n)

/-- Where a service has a setting of a group under a number, the pass recovers the group, the
service and the number from a key, and the service is not called `global`; or the whole group is
there already. -/
def Recovered (db : Database) (q : Query) : Prop :=
  ∀ service ∈ visible db q, ∀ group s, Member db q group s →
    ∀ n, Appears (merged db q) (some service) s.id n →
      (service ≠ "global" ∧ AskedFor db q group service n) ∨
      ∀ s', Member db q group s' → Appears (merged db q) (some service) s'.id n

section

variable {db : Database} {q : Query} {group : String} {s s' : Setting} {n : Nat}

/-! ## `SERVER_NAME` -/

theorem visible_full : visible db q.full = visible db q := by
  unfold visible serviceList Query.full Query.update
  split <;> rfl

theorem visible_update (needed : List String) : visible db (q.update needed) = visible db q := by
  unfold visible serviceList Query.update
  split <;> rfl

theorem lookup_serverName_base :
    (baseConfig db q.full).lookup "SERVER_NAME" = some (serversEntry (visible db q)) := by
  have hservices : (serviceList db (q.full.update ["SERVER_NAME", "MULTISITE"])).map Prod.fst =
      visible db q := (visible_update _).trans visible_full
  unfold baseConfig getNonDefaultSettings
  rw [AList.lookup_insert, hservices]

theorem lookup_serverName_used :
    (withUsedTemplate db q).lookup "SERVER_NAME" = some (serversEntry (visible db q)) := by
  unfold withUsedTemplate
  split
  · exact lookup_serverName_base
  · rw [Dict.lookup_setAllUnless, lookup_serverName_base]
    · rfl
    · intro e he
      obtain ⟨t, -, rfl⟩ := List.mem_map.mp he
      rfl

theorem words_serverName_used (h : NamesApart db q) :
    words (valueOf (withUsedTemplate db q) "SERVER_NAME" "") = visible db q := by
  rw [valueOf, lookup_serverName_used, Option.map_some, Option.getD_some, serversEntry]
  exact words_joinWords h.word

theorem service_of_usedTemplates (h : NamesApart db q) {u : String × String}
    (hu : u ∈ usedTemplates db q) : u.1 ∈ visible db q := by
  unfold usedTemplates at hu
  split at hu
  · rw [words_serverName_used h] at hu
    exact (mem_serviceTemplates.mp hu).1
  · cases hu

theorem words_serverName_merged (h : NamesApart db q) :
    words (valueOf (merged db q) "SERVER_NAME" "") = visible db q := by
  rw [← words_serverName_used h]
  have hl : (merged db q).lookup "SERVER_NAME" = (withUsedTemplate db q).lookup "SERVER_NAME" := by
    rw [merged, Dict.lookup_setAllUnless, Dict.lastOf_eq_none.mpr]
    · simp
    · intro e he hkey
      obtain ⟨u, hu, he⟩ := List.mem_flatMap.mp he
      obtain ⟨t, -, rfl⟩ := List.mem_map.mp he
      obtain ⟨s, hs, hid⟩ := h.serverName
      exact h.notPrefix u.1 (service_of_usedTemplates h hu) s hs _ (hid.trans hkey.symm)
    · intro e he
      obtain ⟨u, -, he⟩ := List.mem_flatMap.mp he
      obtain ⟨t, -, rfl⟩ := List.mem_map.mp he
      rfl
  rw [valueOf, hl, ← valueOf]

/-! ## What is filled -/

/-- The key of a setting that is filled. -/
def fillKey (window id : String) (n : Nat) : String :=
  if window = "global" then joinKey id (toString n) else joinKey window (joinKey id (toString n))

theorem groupsWanted_eq_some {id : String} :
    groupsWanted db q id = some group ↔ ∃ s, Member db q group s ∧ s.id = id := by
  unfold groupsWanted
  rw [Option.bind_eq_some_iff]
  constructor
  · rintro ⟨s, hs, hgroup⟩
    obtain ⟨hmem, rfl⟩ := Catalog.find_eq_some.mp hs
    split at hgroup
    · rename_i hwanted
      exact ⟨s, ⟨hmem, hgroup, hwanted⟩, rfl⟩
    · cases hgroup
  · rintro ⟨s, hs, rfl⟩
    exact ⟨s, Catalog.find_eq_some.mpr ⟨hs.mem, rfl⟩, by rw [if_pos hs.wanted, hs.multiple]⟩

theorem mem_fill (h : NamesApart db q) {key : String} :
    (∃ e, (key, e) ∈ groupDefaults db q.full.wants (usedWindows db q) (merged db q)) ↔
      ∃ group window n s, AskedFor db q group window n ∧ Member db q group s ∧
        key = fillKey window s.id n := by
  unfold groupDefaults
  simp only [words_serverName_merged h]
  constructor
  · rintro ⟨e, he⟩
    obtain ⟨s, hs, he⟩ := List.mem_flatMap.mp he
    split at he
    · cases he
    · rename_i group hgroup
      obtain ⟨f, hf, heq⟩ := List.mem_map.mp he
      obtain ⟨rfl, -⟩ := Prod.mk.inj heq
      obtain ⟨hfound, hof⟩ := List.mem_filter.mp hf
      obtain ⟨item, hitem, hgroupOf⟩ := List.mem_filterMap.mp hfound
      obtain rfl : f.1 = group := of_decide_eq_true hof
      obtain ⟨s', hs', hid⟩ := groupsWanted_eq_some.mp hgroup
      obtain rfl := db.settings.eq_of_id hs'.mem hs hid
      have hkey := Dict.mem_iff_lookup.mpr ⟨_, Dict.mem_items.mp hitem⟩
      exact ⟨f.1, f.2.1, f.2.2, s', ⟨item.1, hkey, hgroupOf⟩, hs', rfl⟩
  · rintro ⟨group, window, n, s, ⟨key', hkey', hgroupOf⟩, hs, rfl⟩
    obtain ⟨e, he⟩ := Dict.mem_iff_lookup.mp hkey'
    have hgroup : groupsWanted db q s.id = some group := groupsWanted_eq_some.mpr ⟨s, hs, rfl⟩
    unfold groupsWanted at hgroup
    apply Exists.intro
    refine List.mem_flatMap.mpr ⟨s, hs.mem, ?_⟩
    rw [hgroup]
    refine List.mem_map.mpr ⟨(group, window, n), List.mem_filter.mpr ⟨?_, decide_eq_true rfl⟩, rfl⟩
    exact List.mem_filterMap.mpr ⟨(key', e), Dict.mem_items.mpr he, hgroupOf⟩

/-- The keys of the result are those of the dictionary and those that are filled. -/
theorem mem_getConfig (h : NamesApart db q) {key : String} :
    key ∈ getConfig db q ↔ key ∈ merged db q ∨
      ∃ group window n s, AskedFor db q group window n ∧ Member db q group s ∧
        key = fillKey window s.id n := by
  rw [← mem_fill h, Dict.mem_iff_lookup, getConfig, Dict.mem_iff_lookup]
  simp only [Dict.lookup_mapValues, getConfigEntries_merged, Dict.lookup_setDefaults]
  cases hl : (merged db q).lookup key with
  | some e => simp
  | none =>
    simp only [Option.none_or, reduceCtorEq, exists_false, false_or, Option.map_eq_some_iff]
    constructor
    · rintro ⟨v, e, he, -⟩
      exact ⟨e, Dict.mem_of_firstOf he⟩
    · rintro ⟨e, he⟩
      cases hf : Dict.firstOf key
          (groupDefaults db q.full.wants (usedWindows db q) (merged db q)) with
      | none => exact absurd rfl (Dict.firstOf_eq_none.mp hf _ he)
      | some e' => exact ⟨e'.value, e', rfl, rfl⟩

/-! ## Keys and scopes -/

theorem numberedKey_inj {scope : Option String} (hs : s ∈ db.settings.all)
    (hs' : s' ∈ db.settings.all) {digits digits' : String} (hdigits : IsNumber digits)
    (hdigits' : IsNumber digits')
    (he : numberedKey scope s.id digits = numberedKey scope s'.id digits') :
    s = s' ∧ digits = digits' := by
  have hinner : joinKey s.id digits = joinKey s'.id digits' := by
    cases scope with
    | none => exact he
    | some service => exact joinKey_right_inj.mp he
  have hunder : ∀ {d : String}, IsNumber d → '_' ∉ d.toList := fun h hmem =>
    absurd (h.2 _ hmem) (by decide)
  obtain ⟨hid, hd⟩ := joinKey_inj_of_last (hunder hdigits) (hunder hdigits') hinner
  exact ⟨db.settings.eq_of_id hs hs' hid, hd⟩

/-- The scope of a window. -/
def scopeOf (window : String) : Option String := if window = "global" then none else some window

theorem fillKey_eq_numberedKey (window id : String) (n : Nat) :
    fillKey window id n = numberedKey (scopeOf window) id (toString n) := by
  unfold fillKey scopeOf
  split <;> rfl

/-- A key has one scope. -/
theorem scope_unique (h : NamesApart db q) {scope scope' : Option String}
    (hscope : VisibleScope db q scope) (hscope' : VisibleScope db q scope')
    (hs : s ∈ db.settings.all) (hs' : s' ∈ db.settings.all) {digits digits' : String}
    (hdigits : IsNumber digits) (hdigits' : IsNumber digits')
    (he : numberedKey scope s.id digits = numberedKey scope' s'.id digits') : scope = scope' := by
  have hmixed : ∀ {service : String}, service ∈ visible db q → ∀ {s s' : Setting},
      s ∈ db.settings.all → ∀ {d d' : String}, IsNumber d → IsNumber d' →
      joinKey s.id d ≠ joinKey service (joinKey s'.id d') := by
    intro service hservice s s' hs d d' hd hd' heq
    have hunder : ∀ {d : String}, IsNumber d → '_' ∉ d.toList := fun h hmem =>
      absurd (h.2 _ hmem) (by decide)
    rw [← joinKey_assoc] at heq
    exact h.notPrefix service hservice s hs _ (joinKey_inj_of_last (hunder hd) (hunder hd') heq).1
  cases scope with
  | none =>
    cases scope' with
    | none => rfl
    | some service => exact absurd he (hmixed (hscope' service rfl) hs hdigits hdigits')
  | some service =>
    cases scope' with
    | none => exact absurd he.symm (hmixed (hscope service rfl) hs' hdigits' hdigits)
    | some service' =>
      have hname := (joinKey_inj (h.noUnderscore _ (hscope service rfl))
        (h.noUnderscore _ (hscope' service' rfl)) he).1
      rw [hname]

theorem not_underscore_of_isNumber {digits : String} (h : IsNumber digits) :
    '_' ∉ digits.toList := fun hmem => absurd (h.2 _ hmem) (by decide)

/-! ## What is asked for -/

/-- The window of a key is the global one or that of a service. -/
theorem visibleScope_scopeOf {window : String} (ha : AskedFor db q group window n) :
    VisibleScope db q (scopeOf window) := by
  obtain ⟨key, -, hof⟩ := ha
  intro service hservice
  unfold scopeOf at hservice
  split at hservice
  · cases hservice
  · rename_i hne
    cases hservice
    exact (groupOf_window hof).resolve_left hne

/-- A global key is recovered. -/
theorem groupOf_global (hs : Member db q group s) {digits : String} (hdigits : IsNumber digits)
    (services : List String) :
    groupOf (groupsWanted db q) services (joinKey s.id digits) =
      some (group, "global", parseInt digits) := by
  have hrx : suffixRx (joinKey s.id digits) = some (s.id, digits) :=
    suffixRx_eq_some.mpr ⟨rfl, db.settings.ne_empty s hs.mem, hdigits⟩
  unfold groupOf
  rw [hrx]
  simp only [groupsWanted_eq_some.mpr ⟨s, hs, rfl⟩]

/-- A setting of a group has a number in the result when the dictionary has it, or the group was
asked for in this scope. -/
theorem appears_getConfig (h : NamesApart db q) {scope : Option String}
    (hscope : VisibleScope db q scope) (hs : Member db q group s) :
    Appears (getConfig db q) scope s.id n ↔ Appears (merged db q) scope s.id n ∨
      ∃ window, scopeOf window = scope ∧ AskedFor db q group window n := by
  constructor
  · rintro ⟨digits, hdigits, hn, hkey⟩
    rcases (mem_getConfig h).mp hkey with hkey | ⟨group', window, m, s', ha, hs', he⟩
    · exact .inl ⟨digits, hdigits, hn, hkey⟩
    · rw [fillKey_eq_numberedKey] at he
      have hwindow := scope_unique h hscope (visibleScope_scopeOf ha) hs.mem hs'.mem hdigits
        (isNumber_toString m) he
      rw [hwindow] at he
      obtain ⟨rfl, rfl⟩ := numberedKey_inj hs.mem hs'.mem hdigits (isNumber_toString m) he
      obtain rfl : group = group' := Option.some.inj (hs.multiple.symm.trans hs'.multiple)
      rw [parseInt_toString] at hn
      exact .inr ⟨window, hwindow.symm, hn ▸ ha⟩
  · rintro (⟨digits, hdigits, hn, hkey⟩ | ⟨window, rfl, ha⟩)
    · exact ⟨digits, hdigits, hn, (mem_getConfig h).mpr (.inl hkey)⟩
    · refine ⟨toString n, isNumber_toString n, parseInt_toString n, (mem_getConfig h).mpr (.inr ?_)⟩
      exact ⟨group, window, n, s, ha, hs, (fillKey_eq_numberedKey window s.id n).symm⟩

theorem scopeOf_eq_some {window service : String} :
    scopeOf window = some service ↔ window = service ∧ service ≠ "global" := by
  unfold scopeOf
  split
  · rename_i hglobal
    subst hglobal
    exact ⟨fun h => (by cases h), fun ⟨he, hne⟩ => absurd he hne.symm⟩
  · rename_i hne
    exact ⟨fun h => Option.some.inj h ▸ ⟨rfl, hne⟩, fun ⟨he, _⟩ => congrArg some he⟩

/-! ## The result -/

theorem removeAll_of_not_infix {part : List Char} (fuel : Nat) {text : List Char}
    (h : ¬ part <:+: text) : removeAll part fuel text = text := by
  induction fuel generalizing text with
  | zero => rfl
  | succ fuel ih =>
    cases text with
    | nil => rfl
    | cons c text =>
      have hprefix : (c :: text).dropPrefix? part = none := by
        rw [Option.eq_none_iff_forall_ne_some]
        intro rest hrest
        obtain ⟨p, hp, hpart⟩ := List.dropPrefix?_eq_some_iff.mp hrest
        exact h ⟨[], rest, by rw [hp, eq_of_beq hpart, List.nil_append]⟩
      have htail : ¬ part <:+: text := fun hin => h (hin.trans (List.suffix_cons c text).isInfix)
      rw [removeAll, hprefix, ih htail]

/-- What is removed in front only. -/
theorem removeAll_append {part text : List Char} (hpart : part ≠ []) (h : ¬ part <:+: text) :
    removeAll part (part ++ text).length (part ++ text) = text := by
  obtain ⟨c, part', rfl⟩ := List.exists_cons_of_ne_nil hpart
  have hprefix : (c :: (part' ++ text)).dropPrefix? (c :: part') = some text :=
    List.dropPrefix?_eq_some_iff.mpr ⟨c :: part', rfl, beq_self_eq_true _⟩
  show removeAll (c :: part') ((part' ++ text).length + 1) (c :: (part' ++ text)) = text
  rw [removeAll, hprefix]
  exact removeAll_of_not_infix _ h

/-- No service is called `global`, and the name of none occurs with an underscore in the name of a
setting of a group. -/
structure ClearNames (db : Database) (q : Query) : Prop where
  notGlobal : "global" ∉ visible db q
  notInside : ∀ service ∈ visible db q, ∀ group s, Member db q group s →
    ¬ (service ++ "_").toList <:+: s.id.toList

theorem recovered_of_clear (h : NamesApart db q) (hclear : ClearNames db q) : Recovered db q := by
  rintro service hservice group s hs n ⟨digits, hdigits, rfl, hkey⟩
  refine .inl ⟨fun he => hclear.notGlobal (he ▸ hservice), _, hkey, ?_⟩
  have hrx : suffixRx (numberedKey (some service) s.id digits) =
      some (joinKey service s.id, digits) :=
    suffixRx_eq_some.mpr ⟨(joinKey_assoc service s.id digits).symm, joinKey_ne_empty _ _, hdigits⟩
  have hnone : groupsWanted db q (joinKey service s.id) = none := by
    rw [Option.eq_none_iff_forall_ne_some]
    intro group' hgroup
    obtain ⟨s', hs', hid⟩ := groupsWanted_eq_some.mp hgroup
    exact h.notPrefix service hservice s' hs'.mem _ hid
  have hfirst : firstService (visible db q) (numberedKey (some service) s.id digits) =
      some (service, joinKey s.id digits) :=
    firstService_eq_some.mpr ⟨hservice, rfl, fun t ht _ he => le_of_eq (congrArg String.length
      (joinKey_inj (h.noUnderscore _ hservice) (h.noUnderscore _ ht) he).1)⟩
  have hstripped : String.ofList (removeAll (service ++ "_").toList
      (joinKey service s.id).length (joinKey service s.id).toList) = s.id := by
    have htext : (joinKey service s.id).toList = (service ++ "_").toList ++ s.id.toList := by
      simp [joinKey]
    rw [← String.length_toList, htext,
      removeAll_append (by simp) (hclear.notInside service hservice group s hs),
      String.ofList_toList]
  unfold groupOf
  rw [hrx]
  simp only [hnone, hfirst, hstripped, groupsWanted_eq_some.mpr ⟨s, hs, rfl⟩, Option.map_some]

end

/-! ## Two services -/

def reverseProxy (id default : String) : Setting where
  id := id
  pluginId := "reverseproxy"
  context := .multisite
  default := default
  regex := "^.*$"
  type := .text
  multiple := some "reverse-proxy"

/-- A service with the host of a second proxy. -/
def proxied (service : String) : Database :=
  { site [(service, ⟨.ui, false⟩)] [(("MULTISITE", 0), ⟨"yes", "", .ui⟩)]
      [((service, "REVERSE_PROXY_HOST", 2), ⟨"http://app", "", .ui⟩)] with
    settings := ⟨[[serverNameSetting, multisiteSetting, useTemplate],
      [reverseProxy "REVERSE_PROXY_HOST" "", reverseProxy "REVERSE_PROXY_URL" "/"]],
      by decide, by decide⟩ }

theorem namesApart_proxied : NamesApart (proxied "shop") withDrafts := by
  have hsep : ∀ service ∈ visible (proxied "shop") withDrafts,
      Separate (proxied "shop").settings service := by decide +kernel
  exact ⟨fun _ h => (hsep _ h).word, fun _ h => (hsep _ h).noUnderscore,
    fun _ h => (hsep _ h).notPrefix, ⟨serverNameSetting, by decide +kernel, rfl⟩⟩

end BunkerWeb.Db
