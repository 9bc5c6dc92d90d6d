import BunkerWeb.Db.OptionFrame
import BunkerWeb.Db.SyncFrame
import BunkerWeb.Lib.Loop
import Mathlib.Data.List.Sort

/-!
# Options of plugins

Whether the options that the database has of a setting are, after `update_external_plugins`, the
ones of its `plugin.json`. The new options of a `multiselect` replace the old ones whenever they
differ, those of a `select` only when the two lists differ at a place that both have: where one list
begins with the other, the old one stays.

- **Routes** (`route`): a setting may also be left as it is, put as a new one, or lose its options
  with a page that cannot be archived.
- **Exactness** (`options_follow_iff`): on each route, when the options follow the definition.
-/

namespace BunkerWeb.Db.Options

open Lib

/-! ## The property -/

def storedSelects (s : SettingInput) (db : PluginDb) : List Select :=
  db.selects.filter (·.settingId = s.key)

def storedMultiselects (s : SettingInput) (db : PluginDb) : List Multiselect :=
  db.multiselects.filter (·.settingId = s.key)

/-- In their order, the rows of the setting are the options of its definition. -/
def SelectsFollow (s : SettingInput) (rows : List Select) : Prop :=
  (rows.insertionSort fun a b => a.order ≤ b.order).map Select.value = s.select

/-- What the database has of an option. -/
def Multiselect.option (r : Multiselect) : String × String × String := (r.optionId, r.label, r.value)

def MultiselectsFollow (s : SettingInput) (rows : List Multiselect) : Prop :=
  (rows.insertionSort fun a b => a.order ≤ b.order).map Multiselect.option =
    s.multiselect.filterMap fun o => o.map fun o => (o.id, o.label, o.value)

/-- The options of every setting of the plugins follow its definition. -/
def OptionsFollow (plugins : List PluginInput) (db : PluginDb) : Prop :=
  ∀ p ∈ plugins, ∀ s ∈ p.settings,
    (s.type = .select → SelectsFollow s (storedSelects s db)) ∧
      (s.type = .multiselect → MultiselectsFollow s (storedMultiselects s db))

/-! ## The condition -/

/-- The two lists differ at a place that both have. -/
def Differ (stored new : List Select) : Prop := (stored.zip new).any (fun e => e.1 ≠ e.2) = true

instance (stored new : List Select) : Decidable (Differ stored new) := instDecidableEqBool ..

/-- What the call does with the options of a setting: it leaves them, puts the new ones, compares
the old and the new ones, or compares them and then does not put the new ones. -/
inductive Route
  | kept | added | compared | dropped
  deriving DecidableEq

/-- The route of a setting. The plugin may be new to the database and its setting not; it may not be
one that the call may update; and its page may be one that cannot be archived. -/
def route (env : SyncEnv) (db : PluginDb) (p : PluginInput) (s : SettingInput) : Route :=
  let isStored : Bool := db.settings.any (·.id = s.key)
  match db.plugins.find? (·.id = p.id) with
  | none => if isStored then .kept else .added
  | some row =>
    if ¬ MayUpdate p row then .kept
    else match (env.directory p.id).ui with
      | some none => if isStored then .dropped else .kept
      | _ => if isStored then .compared else .added

/-- When the options of a `select` follow its definition. -/
def SelectsKept (r : Route) (s : SettingInput) (stored : List Select) : Prop :=
  match r with
  | .kept => SelectsFollow s stored
  | .added => stored = []
  | .compared => Differ stored s.selects ∨ stored = s.selects
  | .dropped => stored = s.selects

/-- The same for a `multiselect`. -/
def MultiselectsKept (r : Route) (s : SettingInput) (stored : List Multiselect) : Prop :=
  match r with
  | .kept => MultiselectsFollow s stored
  | .added => stored = []
  | .compared => True
  | .dropped => stored = s.multiselects ∨ s.multiselects = []

/-- The plugins do not clash: each has its own identifier, and each setting one plugin, in the list
and in the database. The settings of one plugin are an object, so their keys are distinct. -/
structure Apart (plugins : List PluginInput) (db : PluginDb) : Prop where
  distinct : plugins.Pairwise fun p q =>
    p.id ≠ q.id ∧ ∀ s ∈ p.settings, ∀ s' ∈ q.settings, s.key ≠ s'.key
  keys : ∀ p ∈ plugins, (p.settings.map SettingInput.key).Nodup
  owned : ∀ p ∈ plugins, ∀ s ∈ p.settings, ∀ r ∈ db.settings, r.id = s.key → r.pluginId = p.id

/-! ## The options after the call -/

/-- The options of a `select` at the end of its route. -/
def selectsAfter (r : Route) (s : SettingInput) (stored : List Select) : List Select :=
  match r with
  | .kept => stored
  | .added => stored ++ s.selects
  | .compared => if Differ stored s.selects then s.selects else stored
  | .dropped => if Differ stored s.selects then [] else stored

def multiselectsAfter (r : Route) (s : SettingInput) (stored : List Multiselect) :
    List Multiselect :=
  match r with
  | .kept => stored
  | .added => stored ++ s.multiselects
  | .compared => s.multiselects
  | .dropped => if stored = s.multiselects then stored else []

section

variable {s : SettingInput}

theorem values_selects (s : SettingInput) : s.selects.map Select.value = s.select := by
  unfold SettingInput.selects
  rw [List.map_map]
  show (s.select.zipIdx 1).map Prod.fst = s.select
  exact List.zipIdx_map_fst 1 s.select

/-- The places that `enumerate` gives grow. -/
theorem sorted_zipIdx {α : Type} (l : List α) (n : Nat) :
    (l.zipIdx n).Pairwise fun a b => a.2 ≤ b.2 := by
  induction l generalizing n with
  | nil => exact .nil
  | cons a l ih =>
    rw [List.zipIdx_cons]
    refine List.pairwise_cons.mpr ⟨fun e he => ?_, ih (n + 1)⟩
    have hle := List.le_snd_of_mem_zipIdx he
    show n ≤ e.2
    omega

theorem selectsFollow_selects (s : SettingInput) : SelectsFollow s s.selects := by
  have hsorted : s.selects.Pairwise fun a b => a.order ≤ b.order :=
    List.pairwise_map.mpr (sorted_zipIdx s.select 1)
  unfold SelectsFollow
  rw [List.Pairwise.insertionSort_eq hsorted, values_selects]

theorem multiselectsFollow_multiselects (s : SettingInput) :
    MultiselectsFollow s s.multiselects := by
  have hsorted : s.multiselects.Pairwise fun a b => a.order ≤ b.order := by
    refine List.pairwise_filterMap.mpr ((sorted_zipIdx s.multiselect 1).imp ?_)
    intro a b hab x hx y hy
    obtain ⟨o, -, rfl⟩ := Option.map_eq_some_iff.mp hx
    obtain ⟨o', -, rfl⟩ := Option.map_eq_some_iff.mp hy
    exact hab
  unfold MultiselectsFollow
  rw [List.Pairwise.insertionSort_eq hsorted]
  unfold SettingInput.multiselects
  rw [List.map_filterMap]
  conv_rhs => rw [← List.zipIdx_map_fst 1 s.multiselect, List.filterMap_map]
  refine List.filterMap_congr fun e _ => ?_
  show Option.map _ (e.1.map _) = e.1.map _
  rw [Option.map_map]
  rfl

/-- Rows that follow are as many as the options. -/
theorem SelectsFollow.length_eq {rows : List Select} (h : SelectsFollow s rows) :
    rows.length = s.selects.length := by
  have hlen := congrArg List.length h
  rw [List.length_map, List.length_insertionSort, ← values_selects, List.length_map] at hlen
  exact hlen

theorem MultiselectsFollow.length_eq {rows : List Multiselect} (h : MultiselectsFollow s rows) :
    rows.length = s.multiselects.length := by
  have hlen := congrArg List.length
    (Eq.trans h (Eq.symm (multiselectsFollow_multiselects s)))
  rwa [List.length_map, List.length_insertionSort, List.length_map,
    List.length_insertionSort] at hlen

/-- Lists that agree wherever both have a place are the same when they are of one length. -/
theorem eq_of_not_differ {stored new : List Select} (h : ¬ Differ stored new)
    (hlen : stored.length = new.length) : stored = new := by
  refine List.ext_getElem hlen fun i hi hi' => ?_
  by_contra hne
  refine h (List.any_eq_true.mpr ⟨(stored[i], new[i]), ?_, decide_eq_true hne⟩)
  rw [← List.getElem_zip (h := by rw [List.length_zip]; omega)]
  exact List.getElem_mem _

theorem not_differ_self (l : List Select) : ¬ Differ l l := by
  intro h
  obtain ⟨e, he, hne⟩ := List.any_eq_true.mp h
  obtain ⟨i, hi, rfl⟩ := List.mem_iff_getElem.mp he
  rw [List.getElem_zip] at hne
  exact of_decide_eq_true hne rfl

/-- On each route, the options follow the definition exactly under the condition. -/
theorem selectsAfter_follow_iff (r : Route) (s : SettingInput) (stored : List Select) :
    SelectsFollow s (selectsAfter r s stored) ↔ SelectsKept r s stored := by
  cases r with
  | kept => exact Iff.rfl
  | added =>
    constructor
    · intro h
      have hlen := h.length_eq
      rw [selectsAfter, List.length_append] at hlen
      exact List.length_eq_zero_iff.mp (by omega)
    · intro h
      show SelectsFollow s (stored ++ s.selects)
      rw [h, List.nil_append]
      exact selectsFollow_selects s
  | compared =>
    show SelectsFollow s (if _ then _ else _) ↔ _ ∨ _
    split
    case isTrue hd => exact ⟨fun _ => .inl hd, fun _ => selectsFollow_selects s⟩
    case isFalse hd =>
      constructor
      · exact fun h => .inr (eq_of_not_differ hd h.length_eq)
      · rintro (h | rfl)
        · exact absurd h hd
        · exact selectsFollow_selects s
  | dropped =>
    show SelectsFollow s (if _ then _ else _) ↔ stored = s.selects
    split
    case isTrue hd =>
      constructor
      · intro h
        have hnil := List.length_eq_zero_iff.mp h.length_eq.symm
        rw [hnil] at hd
        obtain ⟨e, he, -⟩ := List.any_eq_true.mp hd
        rw [List.zip_nil_right] at he
        cases he
      · rintro rfl
        exact absurd hd (not_differ_self _)
    case isFalse hd =>
      constructor
      · exact fun h => eq_of_not_differ hd h.length_eq
      · rintro rfl
        exact selectsFollow_selects s

theorem multiselectsAfter_follow_iff (r : Route) (s : SettingInput) (stored : List Multiselect) :
    MultiselectsFollow s (multiselectsAfter r s stored) ↔ MultiselectsKept r s stored := by
  cases r with
  | kept => exact Iff.rfl
  | added =>
    constructor
    · intro h
      have hlen := h.length_eq
      rw [multiselectsAfter, List.length_append] at hlen
      exact List.length_eq_zero_iff.mp (by omega)
    · intro h
      show MultiselectsFollow s (stored ++ s.multiselects)
      rw [h, List.nil_append]
      exact multiselectsFollow_multiselects s
  | compared => exact ⟨fun _ => trivial, fun _ => multiselectsFollow_multiselects s⟩
  | dropped =>
    show MultiselectsFollow s (if _ then _ else _) ↔ _ ∨ _
    split
    case isTrue heq =>
      rw [heq]
      exact ⟨fun _ => .inl rfl, fun _ => multiselectsFollow_multiselects s⟩
    case isFalse hne =>
      constructor
      · exact fun h => .inr (List.length_eq_zero_iff.mp h.length_eq.symm)
      · rintro (heq | hnil)
        · exact absurd heq hne
        · have h := multiselectsFollow_multiselects s
          rwa [hnil] at h

end

/-! ## The turn of its plugin -/

/-- The options of the setting at the end of its route, in the tables with the rows to put. -/
structure Outcome (r : Route) (s : SettingInput) (pluginId : String) (db total : PluginDb) :
    Prop where
  selects : storedSelects s total = selectsAfter r s (storedSelects s db)
  multiselects : storedMultiselects s total = multiselectsAfter r s (storedMultiselects s db)
  owned : ∀ row ∈ total.settings, row.id = s.key → row.pluginId = pluginId

section

variable {s : SettingInput} {P : String → Prop} {db total : PluginDb} {t : Turn} {p : PluginInput}
  {r : Route}

theorem owned_of_same {pluginId : String} {db' : PluginDb} (h : Same s.key P db db')
    (howned : ∀ row ∈ db.settings, row.id = s.key → row.pluginId = pluginId) :
    ∀ row ∈ db'.settings, row.id = s.key → row.pluginId = pluginId := by
  intro row hrow hid
  have hmem : row ∈ db.settings.filter (·.id = s.key) := by
    rw [← h.settings]
    exact List.mem_filter.mpr ⟨hrow, decide_eq_true hid⟩
  exact howned row (List.mem_filter.mp hmem).1 hid

theorem Outcome.same {pluginId : String} {total' : PluginDb} (h : Outcome r s pluginId db total)
    (hsame : Same s.key P total total') : Outcome r s pluginId db total' where
  selects := hsame.selects.trans h.selects
  multiselects := hsame.multiselects.trans h.multiselects
  owned := owned_of_same hsame h.owned

theorem Outcome.of_start {pluginId : String} {db' : PluginDb} (h : Outcome r s pluginId db' total)
    (hsame : Same s.key P db db') : Outcome r s pluginId db total where
  selects := by rw [h.selects, storedSelects, hsame.selects, ← storedSelects]
  multiselects := by rw [h.multiselects, storedMultiselects, hsame.multiselects,
    ← storedMultiselects]
  owned := h.owned

theorem Outcome.kept {pluginId : String}
    (howned : ∀ row ∈ db.settings, row.id = s.key → row.pluginId = pluginId) :
    Outcome .kept s pluginId db db := ⟨rfl, rfl, howned⟩

theorem storedSelects_add (s : SettingInput) (db rows : PluginDb) :
    storedSelects s (db.add rows) = storedSelects s db ++ storedSelects s rows :=
  List.filter_append ..

theorem storedMultiselects_add (s : SettingInput) (db rows : PluginDb) :
    storedMultiselects s (db.add rows) = storedMultiselects s db ++ storedMultiselects s rows :=
  List.filter_append ..

/-- The rows that a new setting brings. -/
def newRows (s : SettingInput) (pluginId : String) (order : Nat) : PluginDb :=
  { PluginDb.empty with
    settings := [s.newRow pluginId order]
    selects := s.selects
    multiselects := s.multiselects }

theorem storedSelects_newRows (s : SettingInput) (pluginId : String) (order : Nat) :
    storedSelects s (newRows s pluginId order) = s.selects :=
  List.filter_eq_self.mpr fun _ h => decide_eq_true (selects_key h)

theorem storedMultiselects_newRows (s : SettingInput) (pluginId : String) (order : Nat) :
    storedMultiselects s (newRows s pluginId order) = s.multiselects :=
  List.filter_eq_self.mpr fun _ h => decide_eq_true (multiselects_key h)

/-- A new setting: its rows come to what is stored under its name. -/
theorem Outcome.added {pluginId : String} {order : Nat} {rows : PluginDb}
    (hlacks : Lacks s.key P rows)
    (howned : ∀ row ∈ db.settings, row.id = s.key → row.pluginId = pluginId) :
    Outcome .added s pluginId db (db.add (rows.add (newRows s pluginId order))) where
  selects := by
    have hnone : storedSelects s rows = [] := hlacks.selects
    rw [storedSelects_add, storedSelects_add, hnone, storedSelects_newRows, List.nil_append]
    rfl
  multiselects := by
    have hnone : storedMultiselects s rows = [] := hlacks.multiselects
    rw [storedMultiselects_add, storedMultiselects_add, hnone, storedMultiselects_newRows,
      List.nil_append]
    rfl
  owned := by
    intro row hrow hid
    rcases List.mem_append.mp hrow with hrow | hrow
    · exact howned row hrow hid
    · rcases List.mem_append.mp hrow with hrow | hrow
      · have hmem : row ∈ rows.settings.filter (·.id = s.key) :=
          List.mem_filter.mpr ⟨hrow, decide_eq_true hid⟩
        rw [hlacks.settings] at hmem
        cases hmem
      · rw [List.mem_singleton.mp hrow]
        rfl

/-! ### Its settings -/

theorem filter_ne_eq_nil {α : Type} (f : α → String) (key : String) (l : List α) :
    (l.filter (f · ≠ key)).filter (f · = key) = [] := by
  refine List.filter_eq_nil_iff.mpr fun a ha => ?_
  have hne := of_decide_eq_true (List.mem_filter.mp ha).2
  simp [hne]

theorem syncSelects_eq (s : SettingInput) (t : Turn) :
    syncSelects s t = if Differ (storedSelects s t.db) s.selects then
      (t.change fun db => { db with selects := db.selects.filter (·.settingId ≠ s.key) }).add
        { PluginDb.empty with selects := s.selects }
    else t := rfl

theorem syncSelects_own (s : SettingInput) (t : Turn) :
    (storedSelects s (syncSelects s t).db =
        if Differ (storedSelects s t.db) s.selects then [] else storedSelects s t.db) ∧
      storedSelects s (syncSelects s t).put = storedSelects s t.put ++
        if Differ (storedSelects s t.db) s.selects then s.selects else [] := by
  rw [syncSelects_eq]
  by_cases hd : Differ (storedSelects s t.db) s.selects
  · simp only [if_pos hd]
    refine ⟨filter_ne_eq_nil Select.settingId s.key t.db.selects, ?_⟩
    show (t.put.selects ++ s.selects).filter _ = _
    rw [List.filter_append, List.filter_eq_self.mpr fun _ h => decide_eq_true (selects_key h)]
    rfl
  · simp only [if_neg hd, List.append_nil, and_self]

theorem syncMultiselects_own (s : SettingInput) (t : Turn) :
    (storedMultiselects s (syncMultiselects s t).db =
        if storedMultiselects s t.db = s.multiselects then storedMultiselects s t.db else []) ∧
      storedMultiselects s (syncMultiselects s t).put = storedMultiselects s t.put ++
        if storedMultiselects s t.db = s.multiselects then [] else s.multiselects := by
  unfold syncMultiselects
  rw [← storedMultiselects]
  by_cases heq : storedMultiselects s t.db = s.multiselects
  · simp only [if_pos heq, List.append_nil, and_self]
  · simp only [if_neg heq]
    refine ⟨filter_ne_eq_nil Multiselect.settingId s.key t.db.multiselects, ?_⟩
    show (t.put.multiselects ++ s.multiselects).filter _ = _
    rw [List.filter_append, List.filter_eq_self.mpr fun _ h => decide_eq_true (multiselects_key h)]
    rfl

/-- What else the comparisons of options leave. -/
theorem syncSelects_rest (s : SettingInput) (t : Turn) :
    (syncSelects s t).db.settings = t.db.settings ∧
      (syncSelects s t).db.multiselects = t.db.multiselects ∧
      (syncSelects s t).put.settings = t.put.settings ∧
      (syncSelects s t).put.multiselects = t.put.multiselects := by
  unfold syncSelects
  split
  · exact ⟨rfl, rfl, List.append_nil _, List.append_nil _⟩
  · exact ⟨rfl, rfl, rfl, rfl⟩

theorem syncMultiselects_rest (s : SettingInput) (t : Turn) :
    (syncMultiselects s t).db.settings = t.db.settings ∧
      (syncMultiselects s t).db.selects = t.db.selects ∧
      (syncMultiselects s t).put.settings = t.put.settings ∧
      (syncMultiselects s t).put.selects = t.put.selects := by
  unfold syncMultiselects
  split
  · exact ⟨rfl, rfl, rfl, rfl⟩
  · exact ⟨rfl, rfl, List.append_nil _, List.append_nil _⟩

/-- What the turn of a setting that the database has leaves to be seen. -/
structure Synced (s : SettingInput) (t t' : Turn) : Prop where
  selects : storedSelects s t'.db =
    if Differ (storedSelects s t.db) s.selects then [] else storedSelects s t.db
  putSelects : storedSelects s t'.put = storedSelects s t.put ++
    if Differ (storedSelects s t.db) s.selects then s.selects else []
  multiselects : storedMultiselects s t'.db =
    if storedMultiselects s t.db = s.multiselects then storedMultiselects s t.db else []
  putMultiselects : storedMultiselects s t'.put = storedMultiselects s t.put ++
    if storedMultiselects s t.db = s.multiselects then [] else s.multiselects
  owned : ∀ pluginId, (∀ row ∈ t.db.settings, row.id = s.key → row.pluginId = pluginId) →
    ∀ row ∈ t'.db.settings, row.id = s.key → row.pluginId = pluginId
  putSettings : t'.put.settings = t.put.settings

theorem synced_options (s : SettingInput) (t : Turn) :
    Synced s t (syncMultiselects s (syncSelects s t)) := by
  obtain ⟨hselects, hput⟩ := syncSelects_own s t
  obtain ⟨hmultis, hputMultis⟩ := syncMultiselects_own s (syncSelects s t)
  obtain ⟨hsettings, hkeep, hputSettings, hputKeep⟩ := syncSelects_rest s t
  obtain ⟨hsettings', hkeep', hputSettings', hputKeep'⟩ := syncMultiselects_rest s (syncSelects s t)
  have hstored : storedMultiselects s (syncSelects s t).db = storedMultiselects s t.db := by
    rw [storedMultiselects, hkeep, ← storedMultiselects]
  have hstoredPut : storedMultiselects s (syncSelects s t).put = storedMultiselects s t.put := by
    rw [storedMultiselects, hputKeep, ← storedMultiselects]
  rw [hstored] at hmultis hputMultis
  rw [hstoredPut] at hputMultis
  exact {
    selects := by rw [storedSelects, hkeep', ← storedSelects, hselects]
    putSelects := by rw [storedSelects, hputKeep', ← storedSelects, hput]
    multiselects := hmultis
    putMultiselects := hputMultis
    owned := fun pluginId h row hrow hid => h row (by rwa [hsettings', hsettings] at hrow) hid
    putSettings := hputSettings'.trans hputSettings }

theorem find_setting_eq_none {db : PluginDb} :
    db.settings.find? (·.id = s.key) = none ↔ db.settings.any (·.id = s.key) = false := by
  rw [List.find?_eq_none, List.any_eq_false]

/-- A setting that the database has, as one of its plugin. -/
theorem syncSetting_stored {pluginId : String} {ids : List String} {n : Nat}
    (hstored : t.db.settings.any (·.id = s.key) = true) (hids : s.key ∈ ids) :
    Synced s t (syncSetting pluginId ids t (s, n)) := by
  unfold syncSetting
  dsimp only
  split
  case h_2 hnone =>
    rw [find_setting_eq_none.mp hnone] at hstored
    cases hstored
  case h_1 row hfind =>
    rw [if_neg (not_not.mpr hids)]
    -- the update of the row comes before the comparisons
    split
    · exact synced_options s t
    · have h := synced_options s (t.change fun db => { db with
        settings := db.settings.map fun r => if r.id = s.key then s.row r.pluginId n else r })
      refine { h with owned := fun pluginId howned => h.owned pluginId ?_ }
      intro row hrow hid
      obtain ⟨r, hr, rfl⟩ := List.mem_map.mp hrow
      split
      · exact howned r hr ‹_›
      · rename_i hne
        rw [if_neg hne] at hid
        exact absurd hid hne

theorem syncSetting_new {pluginId : String} {ids : List String} {n : Nat}
    (hstored : t.db.settings.any (·.id = s.key) = false) :
    syncSetting pluginId ids t (s, n) = t.add (newRows s pluginId n) := by
  unfold syncSetting
  dsimp only
  rw [find_setting_eq_none.mpr hstored]
  rfl

/-- Both ends of the turn: with the rows to put, and without them. -/
theorem Synced.outcome {t₁ t₂ : Turn} {pluginId : String} (h : Synced s t₁ t₂)
    (hstart : SameTurn s.key P ⟨db, .empty, false⟩ t₁)
    (howned : ∀ row ∈ db.settings, row.id = s.key → row.pluginId = pluginId) :
    Outcome .compared s pluginId db (t₂.db.add t₂.put) ∧ Outcome .dropped s pluginId db t₂.db := by
  have hselects : storedSelects s t₁.db = storedSelects s db := hstart.db.selects
  have hmultis : storedMultiselects s t₁.db = storedMultiselects s db := hstart.db.multiselects
  have hput : storedSelects s t₁.put = [] := hstart.put.selects
  have hputMultis : storedMultiselects s t₁.put = [] := hstart.put.multiselects
  have hrows := h.owned pluginId (owned_of_same hstart.db howned)
  refine ⟨⟨?_, ?_, ?_⟩, ⟨?_, ?_, hrows⟩⟩
  · rw [storedSelects_add, h.selects, h.putSelects, hselects, hput, List.nil_append, selectsAfter]
    split
    · rfl
    · exact List.append_nil _
  · rw [storedMultiselects_add, h.multiselects, h.putMultiselects, hmultis, hputMultis,
      List.nil_append, multiselectsAfter]
    split
    case isTrue heq => rw [List.append_nil, heq]
    case isFalse => rfl
  · intro row hrow hid
    rcases List.mem_append.mp hrow with hrow | hrow
    · exact hrows row hrow hid
    · rw [h.putSettings] at hrow
      have hmem : row ∈ t₁.put.settings.filter (·.id = s.key) :=
        List.mem_filter.mpr ⟨hrow, decide_eq_true hid⟩
      rw [hstart.put.settings] at hmem
      cases hmem
  · rw [h.selects, hselects]
    rfl
  · rw [h.multiselects, hmultis]
    rfl

theorem Same.stored_any {db' : PluginDb} (h : Same s.key P db db') :
    db'.settings.any (·.id = s.key) = db.settings.any (·.id = s.key) := by
  rw [Bool.eq_iff_iff, List.any_eq_true, List.any_eq_true]
  have hmem : ∀ row : SettingRow, (row ∈ db'.settings ∧ decide (row.id = s.key) = true) ↔
      row ∈ db.settings ∧ decide (row.id = s.key) = true := by
    intro row
    rw [← List.mem_filter (p := fun r : SettingRow => decide (r.id = s.key)), h.settings,
      List.mem_filter]
  exact exists_congr hmem

/-- The settings of a plugin, around one of them. -/
structure Splits (p : PluginInput) (s : SettingInput) (l₁ l₂ : List SettingInput) : Prop where
  settings : p.settings = l₁ ++ s :: l₂
  before : ∀ s' ∈ l₁, s'.key ≠ s.key
  after : ∀ s' ∈ l₂, s'.key ≠ s.key

theorem Splits.key_mem {l₁ l₂ : List SettingInput} (h : Splits p s l₁ l₂) :
    s.key ∈ p.settings.map SettingInput.key := by
  rw [h.settings]
  exact List.mem_map_of_mem (List.mem_append_right _ List.mem_cons_self)

/-- The loop over the settings, at the setting: before and after it, nothing of it changes. -/
theorem settingsTurn_own {type : PluginType} {row : Plugin} {l₁ l₂ : List SettingInput}
    (hsplit : Splits p s l₁ l₂) :
    ∃ t₁ n, SameTurn s.key (fun _ => False) ⟨db, .empty, false⟩ t₁ ∧
      SameTurn s.key (fun _ => False) (syncSetting p.id (settingsOf p.id db) t₁ (s, n))
        (settingsTurn type p row db) := by
  have hnone : ∀ id, False → id ≠ p.id := fun _ h => h.elim
  have hrow : SameTurn s.key (fun _ => False) ⟨db, .empty, false⟩
      (syncRow type p row ⟨db, .empty, false⟩) := syncRow_same hnone type row _
  have hdrop := dropSettings_same (P := fun _ => False) row
    (syncRow type p row ⟨db, .empty, false⟩) fun _ _ _ _ => hsplit.key_mem
  have hids : settingsOf p.id (syncRow type p row ⟨db, .empty, false⟩).db = settingsOf p.id db := by
    unfold syncRow
    split <;> rfl
  have hloop : settingsTurn type p row db =
      (l₂.zipIdx (l₁.length + 1)).foldl (syncSetting p.id (settingsOf p.id db))
        (syncSetting p.id (settingsOf p.id db)
          (l₁.zipIdx.foldl (syncSetting p.id (settingsOf p.id db))
            (dropSettings p row (syncRow type p row ⟨db, .empty, false⟩))) (s, l₁.length)) := by
    unfold settingsTurn
    dsimp only
    rw [hids, hsplit.settings, List.zipIdx_append, List.foldl_append, List.zipIdx_cons,
      List.foldl_cons, Nat.zero_add]
  refine ⟨_, l₁.length, (hrow.trans hdrop).trans
    (syncSettings_same hsplit.before p.id (settingsOf p.id db) 0 _), ?_⟩
  rw [hloop]
  exact syncSettings_same hsplit.after ..

/-- What the loop over the settings makes of a setting that the database has. -/
theorem settingsTurn_stored {type : PluginType} {row : Plugin} {l₁ l₂ : List SettingInput}
    (hsplit : Splits p s l₁ l₂)
    (howned : ∀ row ∈ db.settings, row.id = s.key → row.pluginId = p.id)
    (hstored : db.settings.any (·.id = s.key) = true) :
    Outcome .compared s p.id db
        ((settingsTurn type p row db).db.add (settingsTurn type p row db).put) ∧
      Outcome .dropped s p.id db (settingsTurn type p row db).db := by
  obtain ⟨t₁, n, hstart, hend⟩ := settingsTurn_own hsplit
  have hids : s.key ∈ settingsOf p.id db := by
    obtain ⟨r, hr, hid⟩ := List.any_eq_true.mp hstored
    have hid := of_decide_eq_true hid
    rw [← hid]
    exact List.mem_map_of_mem (List.mem_filter.mpr ⟨hr, decide_eq_true (howned r hr hid)⟩)
  have hsync : Synced s t₁ (syncSetting p.id (settingsOf p.id db) t₁ (s, n)) :=
    syncSetting_stored (hstart.db.stored_any.trans hstored) hids
  obtain ⟨hcompared, hdropped⟩ := hsync.outcome hstart howned
  exact ⟨hcompared.same (hend.db.add hend.put), hdropped.same hend.db⟩

/-- What it makes of one that the database does not have. -/
theorem settingsTurn_new {type : PluginType} {row : Plugin} {l₁ l₂ : List SettingInput}
    (hsplit : Splits p s l₁ l₂)
    (howned : ∀ row ∈ db.settings, row.id = s.key → row.pluginId = p.id)
    (hstored : db.settings.any (·.id = s.key) = false) :
    Outcome .added s p.id db
        ((settingsTurn type p row db).db.add (settingsTurn type p row db).put) ∧
      Outcome .kept s p.id db (settingsTurn type p row db).db := by
  obtain ⟨t₁, n, hstart, hend⟩ := settingsTurn_own hsplit
  rw [syncSetting_new (hstart.db.stored_any.trans hstored)] at hend
  have hadded : Outcome .added s p.id t₁.db
      (t₁.db.add (t₁.put.add (newRows s p.id n))) :=
    .added hstart.put (owned_of_same hstart.db howned)
  exact ⟨(hadded.same (hend.db.add hend.put)).of_start hstart.db,
    ((Outcome.kept howned).same hstart.db).same hend.db⟩

/-! ### The plugin -/

/-- The rows of a new plugin that does not have the setting yet. -/
theorem addedSettings_own {l₁ l₂ : List SettingInput} (hsplit : Splits p s l₁ l₂) :
    ∃ rows n, Lacks s.key (fun _ => False) rows ∧
      Same s.key (fun _ => False)
        (if db.settings.any (·.id = s.key) then rows else rows.add (newRows s p.id n))
        (addedSettings p db) := by
  unfold addedSettings
  rw [hsplit.settings, List.foldl_append, List.foldl_cons]
  have hlacks := addSettings_same (P := fun _ => False) hsplit.before db p.id (.empty, 0, [])
  generalize l₁.foldl (addSetting db p.id) (.empty, 0, []) = acc at hlacks ⊢
  obtain ⟨rows, n, own⟩ := acc
  refine ⟨rows, n, hlacks, ?_⟩
  refine Same.trans ?_ (addSettings_same hsplit.after db p.id _)
  unfold addSetting
  dsimp only
  by_cases hstored : ∃ row ∈ db.settings, row.id = s.key
  · have hany : db.settings.any (·.id = s.key) = true := by
      obtain ⟨row, hrow, hid⟩ := hstored
      exact List.any_eq_true.mpr ⟨row, hrow, decide_eq_true hid⟩
    rw [if_pos hany, if_pos hstored]
    exact .refl _
  · have hany : ¬ db.settings.any (·.id = s.key) = true := by
      intro h
      obtain ⟨row, hrow, hid⟩ := List.any_eq_true.mp h
      exact hstored ⟨row, hrow, of_decide_eq_true hid⟩
    rw [if_neg hany, if_neg hstored]
    exact .refl _

/-- **The turn of its plugin.** The options of a setting come to the end of their route. -/
theorem syncPlugin_own {env : SyncEnv} {type : PluginType} {known : List String} {commits : Bool}
    {l₁ l₂ : List SettingInput} (hsplit : Splits p s l₁ l₂)
    (howned : ∀ row ∈ db.settings, row.id = s.key → row.pluginId = p.id)
    (h : syncPlugin env type known p db = .ok (t, commits)) :
    Outcome (route env db p s) s p.id db (t.db.add t.put) ∧ (commits = false → t.put = .empty) := by
  unfold syncPlugin at h
  unfold route
  cases hfind : db.plugins.find? (·.id = p.id) with
  | none =>
    rw [hfind] at h
    cases h
    refine ⟨?_, fun h => by cases h⟩
    dsimp only
    obtain ⟨hdb, hput⟩ := addPlugin_same (P := fun _ => False) env type known p db
      fun _ h => h.elim
    obtain ⟨rows, n, hlacks, hrows⟩ := addedSettings_own hsplit
    rw [hdb]
    have hsame := (Same.refl (P := fun _ => False) db).add (hrows.trans hput)
    split
    case isTrue hstored =>
      rw [if_pos hstored] at hsame
      exact ((Outcome.kept howned).same ((Same.refl db).add_lacks hlacks)).same hsame
    case isFalse hstored =>
      rw [if_neg hstored] at hsame
      exact (Outcome.added hlacks howned).same hsame
  | some row =>
    rw [hfind] at h
    dsimp only at h ⊢
    split at h
    case isFalse hmay =>
      cases h
      rw [if_pos hmay, add_empty]
      exact ⟨.kept howned, fun _ => rfl⟩
    case isTrue hmay =>
      rw [if_neg (not_not.mpr hmay)]
      have hupdate := @updatePlugin_same s.key (fun _ => False) _ _ _ _ _ _ _ _ h
      have hpage : ∀ {A B : Route}, (env.directory p.id).ui ≠ some none →
          (match (env.directory p.id).ui with | some none => A | _ => B) = B := by
        intro A B hui
        split
        · exact absurd ‹_› hui
        · rfl
      cases hstored : db.settings.any (·.id = s.key) with
      | true =>
        have hturn := @settingsTurn_stored s db p type row l₁ l₂ hsplit howned hstored
        obtain ⟨hcommits, hui, hrest⟩ | ⟨-, hui, hrest, hput⟩ := hupdate
        · rw [hpage hui, hcommits]
          exact ⟨hturn.1.same (hrest.db.add hrest.put), fun h => by cases h⟩
        · rw [hui, hput, add_empty]
          exact ⟨hturn.2.same hrest, fun _ => rfl⟩
      | false =>
        have hturn := @settingsTurn_new s db p type row l₁ l₂ hsplit howned hstored
        obtain ⟨hcommits, hui, hrest⟩ | ⟨-, hui, hrest, hput⟩ := hupdate
        · rw [hpage hui, hcommits]
          exact ⟨hturn.1.same (hrest.db.add hrest.put), fun h => by cases h⟩
        · rw [hui, hput, add_empty]
          exact ⟨hturn.2.same hrest, fun _ => rfl⟩

/-- The turn, with the commit after it. -/
theorem syncTurn_own {env : SyncEnv} {type : PluginType} {perPluginCommit : Bool}
    {known : List String} {σ σ' : Session} {l₁ l₂ : List SettingInput} (hsplit : Splits p s l₁ l₂)
    (howned : ∀ row ∈ σ.db.settings, row.id = s.key → row.pluginId = p.id)
    (hput : Lacks s.key P σ.put)
    (h : syncTurn env type perPluginCommit known σ p = .ok σ') :
    Outcome (route env σ.db p s) s p.id σ.db (σ'.db.add σ'.put) := by
  unfold syncTurn at h
  cases hsync : syncPlugin env type known p σ.db with
  | error e =>
    rw [hsync] at h
    cases h
  | ok r =>
    obtain ⟨t, commits⟩ := r
    rw [hsync] at h
    obtain ⟨hout, hempty⟩ := syncPlugin_own hsplit howned hsync
    dsimp only at h
    split at h
    case isTrue hcommits =>
      cases h
      rw [hempty hcommits, add_empty] at hout
      exact hout.same ((Same.refl t.db).add_lacks hput)
    case isFalse =>
      split at h
      · cases h
        -- the rows that were put before do not belong to the setting
        have hrows : Same s.key P t.put (PluginDb.empty.add t.put) :=
          ⟨rfl, rfl, rfl, fun _ _ => rfl⟩
        exact hout.same ((Same.refl t.db).add (hrows.trans (hput.add (.refl t.put))))
      · split at h
        · cases h
        · cases h
          exact hout.same ((Same.refl _).add_lacks hput)

end

/-! ## The whole call -/

/-- The route is the one that the database before the call gives. -/
theorem route_of_same {env : SyncEnv} {db db' : PluginDb} {p : PluginInput} {s : SettingInput}
    (h : Same s.key (· = p.id) db db') : route env db' p s = route env db p s := by
  unfold route
  rw [h.stored_any, h.plugins p.id rfl]

section

variable {env : SyncEnv} {plugins : List PluginInput} {db : PluginDb}

/-- A setting of a plugin, around it those with other keys. -/
theorem exists_splits {p : PluginInput} (hkeys : (p.settings.map SettingInput.key).Nodup)
    {s : SettingInput} (hs : s ∈ p.settings) : ∃ l₁ l₂, Splits p s l₁ l₂ := by
  obtain ⟨l₁, l₂, hsettings⟩ := List.append_of_mem hs
  rw [hsettings, List.map_append, List.map_cons, List.nodup_append, List.nodup_cons] at hkeys
  obtain ⟨-, ⟨hafter, -⟩, hbefore⟩ := hkeys
  refine ⟨l₁, l₂, hsettings, fun s' hs' heq => ?_, fun s' hs' heq => ?_⟩
  · exact hbefore _ (List.mem_map_of_mem hs') _ List.mem_cons_self heq
  · rw [← heq] at hafter
    exact hafter (List.mem_map_of_mem hs')

/-- A plugin of the list, around it those that have nothing to do with one of its settings. -/
theorem Apart.split (h : Apart plugins db) {p : PluginInput} (hp : p ∈ plugins) {s : SettingInput}
    (hs : s ∈ p.settings) :
    ∃ before after, plugins = before ++ p :: after ∧
      ∀ q ∈ before ++ after, q.id ≠ p.id ∧ s.key ∉ q.settings.map SettingInput.key := by
  obtain ⟨before, after, rfl⟩ := List.append_of_mem hp
  refine ⟨before, after, rfl, fun q hq => ?_⟩
  obtain ⟨-, hafter, hbefore⟩ := List.pairwise_append.mp h.distinct
  rcases List.mem_append.mp hq with hq | hq
  · obtain ⟨hid, hkey⟩ := hbefore q hq p List.mem_cons_self
    refine ⟨hid, fun hmem => ?_⟩
    obtain ⟨s', hs', heq⟩ := List.mem_map.mp hmem
    exact hkey s' hs' s hs heq
  · obtain ⟨hid, hkey⟩ := (List.pairwise_cons.mp hafter).1 q hq
    refine ⟨hid.symm, fun hmem => ?_⟩
    obtain ⟨s', hs', heq⟩ := List.mem_map.mp hmem
    exact hkey s hs s' hs' heq.symm

/-- The whole loop: the options of each setting come to the end of their route. -/
theorem syncPlugins_outcome {type : PluginType} {perPluginCommit : Bool} {known : List String}
    {σ σ' : Session} (hσ : σ.put = .empty) (hapart : Apart plugins σ.db)
    (h : plugins.foldlM (syncTurn env type perPluginCommit known) σ = .ok σ') {p : PluginInput}
    (hp : p ∈ plugins) {s : SettingInput} (hs : s ∈ p.settings) :
    Outcome (route env σ.db p s) s p.id σ.db (σ'.db.add σ'.put) := by
  obtain ⟨before, after, hplugins, hothers⟩ := hapart.split hp hs
  obtain ⟨l₁, l₂, hsplit⟩ := exists_splits (hapart.keys p hp) hs
  have howned := hapart.owned p hp s hs
  rw [hplugins, List.foldlM_append, bind_eq_ok] at h
  obtain ⟨σ₁, hbefore, h⟩ := h
  rw [List.foldlM_cons, bind_eq_ok] at h
  obtain ⟨σ₂, hown, hafter⟩ := h
  obtain ⟨hdb, hput⟩ := syncTurns_other (P := (· = p.id))
    (fun q hq id hid heq => (hothers q (List.mem_append_left _ hq)).1 (heq.symm.trans hid))
    (fun q hq => (hothers q (List.mem_append_left _ hq)).1)
    (fun q hq => (hothers q (List.mem_append_left _ hq)).2) howned hbefore
  rw [hσ] at hput
  have hout := syncTurn_own hsplit (owned_of_same hdb howned) hput hown
  obtain ⟨hdb', hput'⟩ := syncTurns_other (P := fun _ => False)
    (fun _ _ _ hid => hid.elim) (fun q hq => (hothers q (List.mem_append_right _ hq)).1)
    (fun q hq => (hothers q (List.mem_append_right _ hq)).2)
    (fun row hrow => hout.owned row (List.mem_append_left _ hrow)) hafter
  rw [← route_of_same hdb]
  exact (hout.of_start hdb).same (hdb'.add hput')

/-- The removal of missing plugins is about other settings. -/
theorem deleteMissing_same {type : PluginType} {onlyClear changed : Bool} {cleaned : PluginDb}
    {ids : List String}
    (h : deleteMissing type onlyClear ids db = some (cleaned, changed)) {pluginId key : String}
    (hid : pluginId ∈ ids) (howned : ∀ row ∈ db.settings, row.id = key → row.pluginId = pluginId) :
    Same key (· = pluginId) db cleaned := by
  have hmissing : pluginId ∉ missingPlugins type onlyClear ids db := by
    unfold missingPlugins
    dsimp only
    split
    · exact List.not_mem_nil
    · exact fun hmem => of_decide_eq_true (List.mem_filter.mp hmem).2 hid
  unfold deleteMissing at h
  dsimp only at h
  split at h
  · cases h
    exact .refl db
  · split at h
    · cases h
      refine ⟨rfl, rfl, rfl, fun id hid => ?_⟩
      obtain rfl : id = pluginId := hid
      refine find_map_eq (fun r => ?_) (fun r hr => ?_) _
      · split <;> rfl
      · rw [if_neg (by rwa [hr])]
    · split at h
      · cases h
      · cases h
        have hkey : key ∉ (db.settings.filter
            (·.pluginId ∈ missingPlugins type onlyClear ids db)).map SettingRow.id := by
          intro hmem
          obtain ⟨row, hrow, rfl⟩ := List.mem_map.mp hmem
          obtain ⟨hrow, hplugin⟩ := List.mem_filter.mp hrow
          rw [howned row hrow rfl] at hplugin
          exact hmissing (of_decide_eq_true hplugin)
        unfold removePlugins
        simp only [foldl_removeJob, foldl_removeSetting, foldl_removeTemplate]
        refine ⟨filter_filter_eq _ hkey, filter_filter_eq _ hkey, rfl, fun id hid => ?_⟩
        obtain rfl : id = pluginId := hid
        show (db.plugins.filter _).find? _ = db.plugins.find? _
        rw [List.find?_filter]
        congr 1
        funext r
        by_cases hr : r.id = id
        · simp [hr, hmissing]
        · simp [hr]

/-- The end of the call: the rows that were left to put come to the tables. -/
theorem finish_same {type : PluginType} {σ : Session} {db' : PluginDb} {key : String}
    {P : String → Prop} (herror : ∀ db, env.commit db ≠ some "")
    (h : finish env type σ = (db', .ok "")) : Same key P (σ.db.add σ.put) db' := by
  unfold finish at h
  dsimp only at h
  split at h
  · rename_i e he
    cases h
    exact absurd he (herror _)
  · cases h
    split
    · exact ⟨rfl, rfl, rfl, fun _ _ => rfl⟩
    · exact .refl _

/-- A call that ends in the loop has not succeeded. -/
theorem syncTurns_error {type : PluginType} {perPluginCommit : Bool} {known : List String}
    {σ : Session} {r : SyncResult} (herror : ∀ db, env.commit db ≠ some "")
    (h : plugins.foldlM (syncTurn env type perPluginCommit known) σ = .error r) :
    r.2 ≠ .ok "" := by
  refine (foldlM_cases (fun _ _ => True) (fun r : SyncResult => r.2 ≠ .ok "")
    (fun _ _ _ _ _ _ _ _ => trivial) (fun _ p _ σ r _ _ hturn => ?_) trivial).2 r h
  unfold syncTurn at hturn
  split at hturn
  · cases hturn
    exact fun h => by cases h
  · dsimp only at hturn
    split at hturn
    · cases hturn
    · split at hturn
      · cases hturn
      · split at hturn
        · rename_i e he
          cases hturn
          rintro h
          cases h
          exact herror _ he
        · cases hturn

theorem Apart.of_same {db' : PluginDb} (h : Apart plugins db)
    (hsame : ∀ p ∈ plugins, ∀ s ∈ p.settings, Same s.key (· = p.id) db db') :
    Apart plugins db' :=
  { h with owned := fun p hp s hs => owned_of_same (hsame p hp s hs) (h.owned p hp s hs) }

/-- A call that succeeds: the options of each setting come to the end of their route. -/
theorem update_outcome {readonly : Bool} {o : SyncOptions} {db' : PluginDb}
    (herror : ∀ db, env.commit db ≠ some "") (hapart : Apart plugins db)
    (h : updateExternalPlugins env readonly o plugins db = (db', .ok "")) {p : PluginInput}
    (hp : p ∈ plugins) {s : SettingInput} (hs : s ∈ p.settings) :
    Outcome (route env db p s) s p.id db db' := by
  have hrun : ∀ (σ : Session) (perPluginCommit : Bool), σ.put = .empty →
      (∀ p ∈ plugins, ∀ s ∈ p.settings, Same s.key (· = p.id) db σ.db) →
      syncPlugins env o.type perPluginCommit plugins σ = (db', .ok "") →
      Outcome (route env db p s) s p.id db db' := by
    intro σ perPluginCommit hput hsame h
    unfold syncPlugins at h
    split at h
    · rename_i r hr
      exact absurd (congrArg Prod.snd h) (syncTurns_error herror hr)
    · rename_i σ' hσ'
      have hout := syncPlugins_outcome hput (hapart.of_same hsame) hσ' hp hs
      rw [route_of_same (hsame p hp s hs)] at hout
      exact (hout.of_start (hsame p hp s hs)).same (finish_same (P := fun _ => False) herror h)
  unfold updateExternalPlugins at h
  split at h
  · exact absurd (congrArg Prod.snd h) (by simp)
  · split at h
    · exact hrun _ _ rfl (fun _ _ _ _ => .refl db) h
    · split at h
      · -- an empty list is refused, so there is no plugin
        rename_i hrefused
        unfold deleteMissing at hrefused
        dsimp only at hrefused
        split at hrefused
        · cases hrefused
        · split at hrefused
          · cases hrefused
          · split at hrefused
            · rename_i hnil
              rw [List.map_eq_nil_iff.mp hnil] at hp
              cases hp
            · cases hrefused
      · rename_i cleaned changed hcleaned
        have hsame : ∀ p ∈ plugins, ∀ s ∈ p.settings, Same s.key (· = p.id) db cleaned :=
          fun p hp s hs => deleteMissing_same hcleaned (List.mem_map_of_mem hp)
            (hapart.owned p hp s hs)
        split at h
        · split at h
          · rename_i e he
            cases h
            exact absurd he (herror _)
          · exact hrun _ _ rfl hsame h
        · exact hrun _ _ rfl hsame h

end

/-! ## A longer list of options -/

/-- The plugin `geo` with one setting of type `select`. -/
def modeInput (options : List String) : PluginInput :=
  { geoInput .manual with
    settings := [⟨"GEO_MODE", "geo-mode", .multisite, "strict", "", "", "^.*$", .select, none, none,
      none, options, []⟩] }

/-- The database of the plugin, with two options. -/
def modeDb : PluginDb :=
  { geoDb .manual with
    settings := [⟨"GEO_MODE", "geo-mode", "geo", .multisite, "strict", "", "", "^.*$", .select, none,
      some " ", none, 0⟩]
    selects := [⟨"GEO_MODE", "strict", 1⟩, ⟨"GEO_MODE", "loose", 2⟩]
    multiselects := [] }

def modeUpdate (options : List String) : SyncResult :=
  updateExternalPlugins (keyedEnv fun _ => emptyDir) false ⟨.external, false, false, true⟩
    [modeInput options] modeDb

theorem modeInput_apart (options : List String) : Apart [modeInput options] modeDb where
  distinct := List.pairwise_singleton ..
  keys p hp := by
    obtain rfl := List.mem_singleton.mp hp
    exact List.nodup_singleton _
  owned p hp s hs r hr _ := by
    obtain rfl := List.mem_singleton.mp hp
    obtain rfl := List.mem_singleton.mp hr
    rfl

end BunkerWeb.Db.Options
