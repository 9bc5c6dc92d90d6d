import BunkerWeb.Db.GlobalReading
import BunkerWeb.Db.RoundTrip
import BunkerWeb.Db.Unmanaged
import BunkerWeb.Db.Written
import Mathlib.Data.List.Infix

/-!
# `PATCH /global_settings` (`api/app/routers/global_settings.py`)

The handler takes the global values that belong to `api`, lays the payload over them and saves the
result without service management. The authorization of the request and the logs are left out; a
value of the payload is `none` (`None`) or the text that `str` makes of it.
-/

namespace BunkerWeb.Api

open Db Lib

/-- `to_set`. -/
def toSet (payload : Dict String (Option String)) : Dict String String :=
  payload.mapValues fun v => v.getD ""

/-- `_current_api_global_overrides`. -/
def currentApiGlobalOverrides (db : Database) : Dict String String :=
  Dict.setAll ∅ ((getNonDefaultSettings db globalOnly ∅ []).items.filterMap fun e =>
    if e.2.method = some .api then some (e.1, e.2.value) else none)

/-- What the handler calls `save_config` with. -/
def patchCall (payload : Dict String (Option String)) (db : Database) : Call where
  config := (currentApiGlobalOverrides db).setAll (toSet payload).items
  method := .api
  changed := true
  fileNames := ∅
  skipServiceManagement := true
  disableCleanup := false
  explicitKeys := []

/-- The answer: a status and the message of an error. -/
inductive Reply where
  | success
  | error (code : Nat) (message : String)
  deriving DecidableEq, Repr

/-- `part in text`. -/
def isIn (part text : String) : Bool := decide (part.toList <:+: text.toList)

/-- The answer to what `save_config` returns; an exception is answered by the handler of the
application. -/
def Reply.of : Db.Outcome → Reply
  | .plugins _ => .success
  | .raised _ => .error 500 "internal error"
  | .error message =>
    if message ≠ "" ∧ (isIn "read-only" message ∨ isIn "already exists" message ∨
        isIn "doesn't exist" message) then .error 400 message
    else if message = "" then .success
    else .error 500 message

/-- `update_global_settings`. -/
def updateGlobalSettings (env : Env) (payload : Dict String (Option String)) (db : Database) :
    Reply × Database :=
  let result := saveConfig env (patchCall payload db) db
  (Reply.of result.1, result.2)

end BunkerWeb.Api

/-!
## What `PATCH /global_settings` leaves

- **The configuration that is saved** (`lookup_patchCall`): the payload over the values of `api`.
- **The rows** (`holds_payload`, `row_of_unnamed`): a key of the payload leaves its value in its row,
  or no row if the value is the default that the call sees, and any other row stays.
- **Result** (`patch_keeps`): what the keys stand for afterwards.
-/

namespace BunkerWeb.Api

open Db Lib

section

variable {env : Env} {payload : Dict String (Option String)} {db db' : Database} {plan : Plan}
  {s : Setting} {n : Nat} {v : String}

/-- The payload names known settings, and `api` may write over their rows. -/
structure Acceptable (payload : Dict String (Option String)) (db : Database) : Prop where
  known : ∀ e ∈ payload.items, ∃ s ∈ db.settings.all, e.1 = suffixedKey s.id (splitKey e.1).2 ∧
    (0 < (splitKey e.1).2 → s.multiple.isSome)
  mayWrite : ∀ e ∈ payload.items, ∀ c ∈ db.globalValues.lookup (splitKey e.1),
    methodsAreCompatible .api c.method false = true

instance (payload : Dict String (Option String)) (db : Database) :
    Decidable (Acceptable payload db) :=
  decidable_of_iff (_ ∧ _) ⟨fun ⟨h1, h2⟩ => ⟨h1, h2⟩, fun h => ⟨h.known, h.mayWrite⟩⟩

/-- The update is one of the keys of the payload only: each stands for its value, any other global
setting for what it stood for, and no service is touched. -/
structure Frame (payload : Dict String (Option String)) (db db' : Database) : Prop where
  set : ∀ s ∈ db.settings.all, ∀ n v, (toSet payload).lookup (suffixedKey s.id n) = some v →
    effective db' s n = v
  others : ∀ s ∈ db.settings.all, ∀ n, (toSet payload).lookup (suffixedKey s.id n) = none →
    effective db' s n = effective db s n
  services : db'.services = db.services
  servicesSettings : db'.servicesSettings = db.servicesSettings

/-! ## The configuration that is saved -/

theorem lookup_currentApiGlobalOverrides (db : Database) (key : String) :
    (currentApiGlobalOverrides db).lookup key =
      (((getNonDefaultSettings db globalOnly ∅ []).lookup key).filter
        (·.method = some .api)).map Db.Entry.value := by
  rw [currentApiGlobalOverrides, Dict.lookup_setAll, AList.lookup_empty, Option.or_none]
  refine Dict.lastOf_eq_of_iff fun v => ?_
  rw [List.mem_filterMap, Option.map_eq_some_iff]
  constructor
  · rintro ⟨⟨key', e⟩, hmem, hif⟩
    obtain ⟨hmethod, heq⟩ := Option.ite_none_right_eq_some.mp hif
    cases heq
    exact ⟨e, Option.filter_eq_some_iff.mpr ⟨Dict.mem_items.mp hmem, decide_eq_true hmethod⟩, rfl⟩
  · rintro ⟨e, he, rfl⟩
    obtain ⟨hl, hmethod⟩ := Option.filter_eq_some_iff.mp he
    exact ⟨(key, e), Dict.mem_items.mpr hl, if_pos (of_decide_eq_true hmethod)⟩

/-- The overrides are the values of the rows of `api`. -/
theorem lookup_overrides (h : GlobalsInOrder db) (hs : s ∈ db.settings.all)
    (hkey : suffixedKey s.id n ≠ "SERVER_NAME") :
    (currentApiGlobalOverrides db).lookup (suffixedKey s.id n) =
      ((db.globalValues.lookup (s.id, n)).filter (·.method = .api)).map Cell.value := by
  have hlayer : (withGlobals db ∅).lookup (suffixedKey s.id n) = _ :=
    @lookup_withGlobals (withoutServices db) s ∅ h.readable hs n
  rw [lookup_currentApiGlobalOverrides, getNonDefaultSettings_globalOnly,
    AList.lookup_insert_ne hkey, hlayer, AList.lookup_empty, Option.or_none]
  show (Option.filter _ ((db.globalValues.lookup (s.id, n)).map (globalEntry s))).map _ = _
  cases db.globalValues.lookup (s.id, n) with
  | none => rfl
  | some c =>
    by_cases hmethod : c.method = .api
    · simp [Option.filter, globalEntry, hmethod]
    · simp [Option.filter, globalEntry, hmethod]

/-- A key of the overrides is that of a row. -/
theorem key_of_override (h : GlobalsInOrder db) {key : String}
    (hl : (currentApiGlobalOverrides db).lookup key = some v) :
    ∃ s ∈ db.settings.all, ∃ n, key = suffixedKey s.id n ∧ (0 < n → s.multiple.isSome) := by
  rw [lookup_currentApiGlobalOverrides, getNonDefaultSettings_globalOnly] at hl
  obtain ⟨e, he, -⟩ := Option.map_eq_some_iff.mp hl
  obtain ⟨he, hmethod⟩ := Option.filter_eq_some_iff.mp he
  by_cases hkey : key = "SERVER_NAME"
  · -- The list of the services is none of `api`.
    rw [hkey, AList.lookup_insert] at he
    cases he
    cases of_decide_eq_true hmethod
  · rw [AList.lookup_insert_ne hkey, withGlobals] at he
    obtain ⟨⟨s, n, c⟩, hrow, heq⟩ := List.mem_map.mp (Dict.mem_of_lookup_setAll he)
    obtain ⟨hs, hc⟩ := mem_globalRows.mp hrow
    have hmultiple := fun hpos => h.globals _ c hc hpos s hs rfl
    exact ⟨s, hs, n, (Prod.mk.inj heq).1.symm.trans (valueKey_eq hmultiple), hmultiple⟩

theorem lookup_patchCall (payload : Dict String (Option String)) (db : Database) (key : String) :
    (patchCall payload db).config.lookup key =
      ((toSet payload).lookup key).or ((currentApiGlobalOverrides db).lookup key) := by
  show ((currentApiGlobalOverrides db).setAll (toSet payload).items).lookup key = _
  rw [Dict.lookup_setAll, Dict.lastOf_items]

theorem lookup_popped_patchCall (key : String) :
    (popped (patchCall payload db)).lookup key = if key = "DATABASE_URI" then none
      else ((toSet payload).lookup key).or ((currentApiGlobalOverrides db).lookup key) := by
  rw [lookup_popped, ← lookup_patchCall]
  show (if key ∈ ["DATABASE_URI"] then none else _) = _
  simp only [List.mem_singleton]

/-- Every line that is saved is well written. -/
theorem wellWritten_patchCall (h : GlobalsInOrder db) (hp : Acceptable payload db) :
    ∀ l ∈ lines db.settings (popped (patchCall payload db)).items, l.WellWritten := by
  intro l hl
  obtain ⟨hmem, hfind, hsplit⟩ := mem_lines.mp hl
  have hlookup := Dict.mem_items.mp hmem
  rw [lookup_popped_patchCall] at hlookup
  have hkey : ∃ s ∈ db.settings.all, ∃ n, l.originalKey = suffixedKey s.id n ∧
      (0 < n → s.multiple.isSome) := by
    split at hlookup
    · cases hlookup
    · rcases Option.or_eq_some_iff.mp hlookup with hset | ⟨-, hover⟩
      · rw [toSet, Dict.lookup_mapValues] at hset
        obtain ⟨o, ho, -⟩ := Option.map_eq_some_iff.mp hset
        obtain ⟨s, hs, hkey, hmultiple⟩ := hp.known _ (Dict.mem_items.mpr ho)
        exact ⟨s, hs, _, hkey, hmultiple⟩
      · exact key_of_override h hover
  obtain ⟨s, hs, n, hkey, hmultiple⟩ := hkey
  rw [hkey, splitKey_suffixedKey (db.settings.ne_empty s hs) (h.installed.unnumbered s hs)]
    at hsplit
  obtain ⟨hid, rfl⟩ := Prod.mk.inj hsplit
  obtain rfl := db.settings.eq_of_id hs (Catalog.find_eq_some.mp hfind).1 hid
  exact ⟨hkey, hmultiple⟩

/-- The changes of the request. -/
def patchChanges (payload : Dict String (Option String)) (db : Database) :
    List (GlobalKey × RowChange) :=
  (lines db.settings (popped (patchCall payload db)).items).filterMap fun l =>
    (plainChange (plainWork (patchCall payload db) db noServicePlan) l).1.map fun c =>
      ((l.setting.id, l.suffix), c)

/-- The changes of a row are those of the line that its key makes. -/
theorem mem_patchChanges (h : GlobalsInOrder db) (hp : Acceptable payload db)
    (hs : s ∈ db.settings.all) {ch : RowChange} :
    ((s.id, n), ch) ∈ patchChanges payload db ↔
      ∃ v, (popped (patchCall payload db)).lookup (suffixedKey s.id n) = some v ∧
        (plainChange (plainWork (patchCall payload db) db noServicePlan)
          ⟨suffixedKey s.id n, v, s, n⟩).1 = some ch := by
  rw [patchChanges, List.mem_filterMap]
  constructor
  · rintro ⟨l, hl, hch⟩
    obtain ⟨c, hc, heq⟩ := Option.map_eq_some_iff.mp hch
    obtain ⟨hk, rfl⟩ := Prod.mk.inj heq
    obtain ⟨v, hv, rfl⟩ := (line_iff (wellWritten_patchCall h hp) hs h.installed).mp ⟨hl, hk⟩
    exact ⟨v, Dict.mem_items.mp hv, hc⟩
  · rintro ⟨v, hv, hch⟩
    obtain ⟨hl, -⟩ := (line_iff (n := n) (wellWritten_patchCall h hp) hs h.installed).mpr
      ⟨v, Dict.mem_items.mpr hv, rfl⟩
    exact ⟨_, hl, by rw [hch]; rfl⟩

/-! ## The rows -/

/-- The template that the call sees: that of the payload or of a row of `api`. -/
def templateSeen (payload : Dict String (Option String)) (db : Database) : String :=
  templateOf (patchCall payload db)

/-- The template in effect afterwards. -/
def templateInEffect (payload : Dict String (Option String)) (db : Database) : String :=
  ((toSet payload).lookup "USE_TEMPLATE").getD (templateUsed db)

/-- The call sees no template and drops the value as the default of the setting, but the template in
effect sets another one. -/
def Overlooked (payload : Dict String (Option String)) (db : Database) (s : Setting) (n : Nat)
    (value : String) : Prop :=
  value = s.default ∧ templateSeen payload db = "" ∧
    ∃ t, templateValue db (templateInEffect payload db) s.id n = some t ∧ t ≠ value

/-- The row that the loop finds for a key is the one that a reader finds. -/
theorem find_templateRow (h : GlobalsInOrder db) (template id : String) (n : Nat) :
    (db.templateSettings.find? fun t => TemplateVar.name template == .name t.templateId &&
      t.settingId = id && t.suffix = n) = templateRow db template id n := by
  have hrow : ∀ t : TemplateSetting, (TemplateVar.name template == .name t.templateId &&
      decide (t.settingId = id) && decide (t.suffix = n)) = true ↔
      t.templateId = template ∧ t.settingId = id ∧ t.suffix = n := by
    intro t
    simp only [Bool.and_eq_true, decide_eq_true_eq, beq_iff_eq, TemplateVar.name.injEq, and_assoc,
      eq_comm (a := template)]
  refine (Dict.lastOf_eq_of_iff fun t => ?_).symm
  constructor
  · intro hmem
    obtain ⟨t', ht', heq⟩ := List.mem_map.mp hmem
    obtain ⟨htemplate, hin⟩ : t'.templateId = template ∧ t' ∈ db.templateSettings := by
      obtain ⟨hin, hdec⟩ := List.mem_filter.mp ht'
      exact ⟨of_decide_eq_true hdec, hin⟩
    obtain ⟨hkey, rfl⟩ := Prod.mk.inj heq
    obtain ⟨hid, hn⟩ := Prod.mk.inj hkey
    cases hfind : db.templateSettings.find? _ with
    | none => exact absurd ((hrow t').mpr ⟨htemplate, hid, hn⟩) (List.find?_eq_none.mp hfind t' hin)
    | some u =>
      have hdec := List.find?_some hfind
      obtain ⟨hu, hui, hun⟩ := (hrow u).mp hdec
      refine congrArg some (List.inj_on_of_nodup_map h.once (List.mem_of_find?_eq_some hfind) hin ?_)
      rw [hu, hui, hun, htemplate, hid, hn]
  · intro hfind
    have hdec := List.find?_some hfind
    obtain ⟨htemplate, hid, hn⟩ := (hrow t).mp hdec
    exact List.mem_map.mpr ⟨t, List.mem_filter.mpr ⟨List.mem_of_find?_eq_some hfind,
      decide_eq_true htemplate⟩, by rw [hid, hn]⟩

/-- What the loop compares a value with. -/
theorem plainChange_eq (h : GlobalsInOrder db) :
    plainChange (plainWork (patchCall payload db) db noServicePlan)
        ⟨suffixedKey s.id n, v, s, n⟩ =
      rowChange (patchCall payload db) (db.globalValues.lookup (s.id, n))
        ⟨suffixedKey s.id n, v, s, n⟩
        ((db.globalValues.lookup (s.id, n)).any
          (plainShouldUpdate (patchCall payload db) (suffixedKey s.id n) v))
        (v == (templateValue db (templateSeen payload db) s.id n).getD s.default) := by
  have hdefault : (templateValue db (templateSeen payload db) s.id n).getD s.default =
      if (TemplateVar.name (templateSeen payload db)).truthy then
        ((db.templateSettings.find? fun t =>
          TemplateVar.name (templateSeen payload db) == .name t.templateId &&
            t.settingId = s.id && t.suffix = n).map (·.default)).getD s.default
      else s.default := by
    rw [find_templateRow h, templateValue]
    by_cases hempty : templateSeen payload db = ""
    · simp [hempty, TemplateVar.truthy]
    · simp [hempty, TemplateVar.truthy]
  rw [hdefault]
  rfl

/-- A value that is saved as it is changes nothing. -/
theorem plainChange_of_same (h : GlobalsInOrder db) {c : Cell}
    (hc : db.globalValues.lookup (s.id, n) = some c) (hv : c.value = v) :
    (plainChange (plainWork (patchCall payload db) db noServicePlan)
      ⟨suffixedKey s.id n, v, s, n⟩).1 = none := by
  have hupdate : plainShouldUpdate (patchCall payload db) (suffixedKey s.id n) v c = false := by
    simp [plainShouldUpdate, hv]
  have hfile : (settingFileName (patchCall payload db).fileNames s.type (suffixedKey s.id n)
      (c.value != v) c.fileName).2 = false := by
    unfold settingFileName
    split
    · rfl
    · rw [show (patchCall payload db).fileNames.lookup _ = none from AList.lookup_empty _]
      simp [hv]
  rw [plainChange_eq h, hc, Option.any_some, hupdate]
  simp only [rowChange, Bool.false_or, Bool.false_and, hfile, Bool.false_eq_true, if_false]

variable (hcommit : Commits env (patchCall payload db) db plan db')

include hcommit

/-- A key of the payload leaves its value in its row, or no row if it is the default that the call
sees. -/
theorem holds_payload (h : GlobalsInOrder db) (hp : Acceptable payload db)
    (hs : s ∈ db.settings.all) (huri : suffixedKey s.id n ≠ "DATABASE_URI")
    (hv : (toSet payload).lookup (suffixedKey s.id n) = some v) :
    Holds (db'.globalValues.lookup (s.id, n)) v
      (v == (templateValue db (templateSeen payload db) s.id n).getD s.default) := by
  have hpopped : (popped (patchCall payload db)).lookup (suffixedKey s.id n) = some v := by
    rw [lookup_popped_patchCall, if_neg huri, hv, Option.some_or]
  have hgiven := lookup_of_popped hpopped
  have hchanges : ∀ ch, ((s.id, n), ch) ∈ patchChanges payload db ↔
      (plainChange (plainWork (patchCall payload db) db noServicePlan)
        ⟨suffixedKey s.id n, v, s, n⟩).1 = some ch := fun ch => by
    rw [mem_patchChanges h hp hs]
    constructor
    · rintro ⟨v', hv', hch⟩
      rw [hpopped] at hv'
      cases hv'
      exact hch
    · exact fun hch => ⟨v, hpopped, hch⟩
  rw [plainChange_eq h] at hchanges
  refine holds_of_line (patchCall payload db) (l := ⟨suffixedKey s.id n, v, s, n⟩)
    (hcommit.unmanaged rfl).1 (fun hmem => ?_) hchanges fun c hc hnot => ?_
  · have hvanished := (mem_globalsToDelete.mp hmem).2
    rw [vanished, hgiven] at hvanished
    cases hvanished
  · -- The call may write over the row, so that only its value can be in the way of an update.
    rw [toSet, Dict.lookup_mapValues] at hv
    obtain ⟨o, ho, -⟩ := Option.map_eq_some_iff.mp hv
    have hmay := hp.mayWrite _ (Dict.mem_items.mpr ho) c (by
      rw [splitKey_suffixedKey (db.settings.ne_empty s hs) (h.installed.unnumbered s hs), hc]
      rfl)
    have hcompat : methodsAreCompatible (patchCall payload db).method c.method
        (schedulerCanOverride (patchCall payload db).explicitKeys (suffixedKey s.id n) v) = true :=
      methodsAreCompatible_mono hmay
    rw [plainShouldUpdate, hcompat, Bool.true_and] at hnot
    simpa using hnot

/-- The row of a key that the payload does not set stays. -/
theorem row_of_unnamed (h : GlobalsInOrder db) (hp : Acceptable payload db)
    (hs : s ∈ db.settings.all) (hkey : suffixedKey s.id n ≠ "SERVER_NAME")
    (hnone : (toSet payload).lookup (suffixedKey s.id n) = none ∨
      suffixedKey s.id n = "DATABASE_URI") :
    db'.globalValues.lookup (s.id, n) = db.globalValues.lookup (s.id, n) := by
  refine Table.lookup_commit_of_untouched _ (hcommit.unmanaged rfl).1 (fun ch hch => ?_)
    fun hmem => ?_
  · obtain ⟨v, hv, hch⟩ := (mem_patchChanges h hp hs).mp hch
    rw [lookup_popped_patchCall] at hv
    split at hv
    · cases hv
    · rename_i huri
      -- The key is that of a row of `api`, and its value the one of the row.
      rw [hnone.resolve_right huri, Option.none_or, lookup_overrides h hs hkey] at hv
      obtain ⟨c, hc, hcv⟩ := Option.map_eq_some_iff.mp hv
      rw [plainChange_of_same h (Option.filter_eq_some_iff.mp hc).1 hcv] at hch
      cases hch
  · obtain ⟨⟨c, hc, hmethod⟩, hvanished⟩ := mem_globalsToDelete.mp hmem
    have hover : (currentApiGlobalOverrides db).lookup (suffixedKey s.id n) = some c.value := by
      have hfilter : (some c).filter (·.method = .api) = some c :=
        Option.filter_eq_some_iff.mpr ⟨rfl, decide_eq_true hmethod⟩
      rw [lookup_overrides h hs hkey, hc, hfilter]
      rfl
    have hgiven : ((patchCall payload db).config.lookup (suffixedKey s.id n)).isNone = false := by
      rw [lookup_patchCall, hover]
      cases (toSet payload).lookup (suffixedKey s.id n) <;> rfl
    rw [vanished, hgiven] at hvanished
    cases hvanished

/-- The tables stay in order. -/
theorem globalsInOrder_patched (h : GlobalsInOrder db) (hp : Acceptable payload db) :
    GlobalsInOrder db' := by
  obtain ⟨hglobals, -, -, hsettings, htemplates⟩ := hcommit.unmanaged rfl
  refine ⟨?_, fun k c hk hpos s hs hid => ?_, ?_, ?_⟩
  · obtain ⟨h1, h2, h3, h4, h5⟩ := h.installed
    exact ⟨hsettings ▸ h1, hsettings ▸ h2, hsettings ▸ h3, hsettings ▸ h4,
      htemplates ▸ hsettings ▸ h5⟩
  · rw [hsettings] at hs
    obtain ⟨id, n⟩ := k
    obtain rfl : s.id = id := hid
    rcases Table.isSome_or_put_of_commit _ hglobals hk with hold | ⟨w, hput⟩
    · obtain ⟨c', hc'⟩ := Option.isSome_iff_exists.mp hold
      exact h.globals _ c' hc' hpos s hs rfl
    · obtain ⟨v, hv, -⟩ := (mem_patchChanges h hp hs).mp hput
      obtain ⟨hl, -⟩ := (line_iff (wellWritten_patchCall h hp) hs h.installed).mpr
        ⟨v, Dict.mem_items.mpr hv, rfl⟩
      exact (wellWritten_patchCall h hp _ hl).numbered hpos
  · rw [htemplates, hsettings]
    exact h.templates
  · rw [htemplates]
    exact h.once

/-! ## What the keys stand for -/

variable (payload) in
omit hcommit in
theorem templateSeen_eq (h : GlobalsInOrder db) :
    templateSeen payload db = templateInEffect payload db ∨ templateSeen payload db = "" := by
  obtain ⟨u, hu, hid, -⟩ := h.installed.useTemplate
  have hover := lookup_overrides (n := 0) h hu (by rw [suffixedKey_zero, hid]; decide)
  rw [suffixedKey_zero, hid] at hover
  rw [templateSeen, templateOf, lookup_patchCall, hover, templateInEffect, templateUsed]
  cases (toSet payload).lookup "USE_TEMPLATE" with
  | some t => exact .inl rfl
  | none =>
    cases db.globalValues.lookup ("USE_TEMPLATE", 0) with
    | none => exact .inr rfl
    | some c =>
      by_cases hmethod : c.method = .api
      · exact .inl (by simp [Option.filter, hmethod])
      · exact .inr (by simp [Option.filter, hmethod])

/-- The template in effect afterwards is that of the payload, or stays. -/
theorem templateUsed_patched (h : GlobalsInOrder db) (hp : Acceptable payload db) :
    templateUsed db' = templateInEffect payload db := by
  obtain ⟨u, hu, hid, -, hdefault, -⟩ := h.installed.useTemplate
  have hkey : suffixedKey u.id 0 = "USE_TEMPLATE" := by rw [suffixedKey_zero, hid]
  unfold templateInEffect
  cases hv : (toSet payload).lookup "USE_TEMPLATE" with
  | none =>
    have hrow := row_of_unnamed (n := 0) hcommit h hp hu (by rw [hkey]; decide)
      (.inl (by rw [hkey, hv]))
    rw [hid] at hrow
    rw [templateUsed, hrow]
    rfl
  | some t =>
    have hnone : templateValue db (templateSeen payload db) u.id 0 = none := by
      rw [templateValue, templateRow]
      split
      · rfl
      · rw [Option.map_eq_none_iff, Dict.lastOf_eq_none]
        rintro e he hek
        obtain ⟨row, hrow, rfl⟩ := List.mem_map.mp he
        exact (h.installed.templates row (List.mem_filter.mp hrow).1).1
          ((Prod.mk.inj hek).1.trans hid)
    have hholds := holds_payload (n := 0) hcommit h hp hu (by rw [hkey]; decide) (by rw [hkey, hv])
    rw [hnone, hid, hdefault] at hholds
    rcases hholds with ⟨c, hc, hct⟩ | ⟨hnoRow, hempty⟩
    · rw [templateUsed, hc, ← hct]
      rfl
    · rw [templateUsed, hnoRow, eq_of_beq hempty]
      rfl

theorem templateValue_patched (template id : String) (n : Nat) :
    templateValue db' template id n = templateValue db template id n := by
  rw [templateValue, templateValue, templateRow, templateRow, (hcommit.unmanaged rfl).2.2.2.2]

/-- A key of the payload stands for its value. -/
theorem effective_payload (h : GlobalsInOrder db) (hp : Acceptable payload db)
    (hs : s ∈ db.settings.all) (hkey : suffixedKey s.id n ≠ "SERVER_NAME")
    (huri : suffixedKey s.id n ≠ "DATABASE_URI")
    (hv : (toSet payload).lookup (suffixedKey s.id n) = some v)
    (hseen : ¬ Overlooked payload db s n v) : effective db' s n = v := by
  have horder := globalsInOrder_patched hcommit h hp
  have hs' : s ∈ db'.settings.all := by rw [(hcommit.unmanaged rfl).2.2.2.1]; exact hs
  rw [effective_eq horder hs' hkey, globalValue]
  rcases holds_payload hcommit h hp hs huri hv with ⟨c, hc, rfl⟩ | ⟨hnone, helided⟩
  · rw [hc]
    rfl
  · have hdefault := eq_of_beq helided
    rw [hnone, Option.map_none, Option.none_or, templateUsed_patched hcommit h hp,
      templateValue_patched hcommit]
    have hread : ((templateValue db (templateInEffect payload db) s.id n).or
        (if n = 0 then some s.default else none)).getD s.default =
        (templateValue db (templateInEffect payload db) s.id n).getD s.default := by
      cases templateValue db (templateInEffect payload db) s.id n with
      | some t => rfl
      | none => split <;> rfl
    rw [hread]
    rcases templateSeen_eq payload h with hsame | hempty
    · rw [← hsame, hdefault]
    · rw [hempty, templateValue, if_pos rfl, Option.getD_none] at hdefault
      by_contra hne
      cases ht : templateValue db (templateInEffect payload db) s.id n with
      | none =>
        rw [ht] at hne
        exact hne hdefault.symm
      | some t =>
        rw [ht] at hne
        exact hseen ⟨hdefault, hempty, t, ht, hne⟩

/-- A key that the payload does not set stands for what it stood for. -/
theorem effective_unnamed (h : GlobalsInOrder db) (hp : Acceptable payload db)
    (hs : s ∈ db.settings.all)
    (hnone : (toSet payload).lookup (suffixedKey s.id n) = none ∨
      suffixedKey s.id n = "DATABASE_URI" ∨ suffixedKey s.id n = "SERVER_NAME")
    (htemplate : templateValue db (templateInEffect payload db) s.id n =
      templateValue db (templateUsed db) s.id n) : effective db' s n = effective db s n := by
  have horder := globalsInOrder_patched hcommit h hp
  obtain ⟨-, hservices, -, hsettings, -⟩ := hcommit.unmanaged rfl
  by_cases hkey : suffixedKey s.id n = "SERVER_NAME"
  · rw [effective, effective, hkey, lookup_serverName_globalOnly horder,
      lookup_serverName_globalOnly h, serviceList, serviceList, hservices]
  · rw [effective_eq horder (by rw [hsettings]; exact hs) hkey, effective_eq h hs hkey, globalValue,
      globalValue, row_of_unnamed hcommit h hp hs hkey (by tauto),
      templateUsed_patched hcommit h hp, templateValue_patched hcommit, htemplate]

end

/-- A commit that is refused says why. -/
structure Speaks (env : Env) : Prop where
  commitError : env.commitError ≠ some ""
  integrityError : env.integrityError ≠ ""

/-- A request that succeeds has committed. -/
theorem commits_of_success {env : Env} {payload : Dict String (Option String)} {db : Database}
    (hspeaks : Speaks env) (h : (updateGlobalSettings env payload db).1 = .success) :
    ∃ plan db', Commits env (patchCall payload db) db plan db' ∧
      ∃ plugins flag, (updateGlobalSettings env payload db).2 =
        setFlags (patchCall payload db) plugins flag db' := by
  rcases saveConfig_cases env (patchCall payload db) db with
    ⟨plan, db', plugins, flag, hcom, heq⟩ | ⟨-, hno⟩
  · exact ⟨plan, db', hcom, plugins, flag, by rw [updateGlobalSettings, heq]⟩
  · exfalso
    have hof : Reply.of (saveConfig env (patchCall payload db) db).1 = .success := h
    cases hout : (saveConfig env (patchCall payload db) db).1 with
    | plugins ids =>
      obtain ⟨plan, db', hcom⟩ := commits_of_plugins rfl rfl hout
      exact hno plan db' hcom
    | raised message =>
      rw [hout] at hof
      cases hof
    | error message =>
      have hne : message ≠ "" := by
        rintro rfl
        rcases message_of_error hout with hro | hcommit | hintegrity
        · exact absurd hro (by decide)
        · exact hspeaks.commitError hcommit
        · exact hspeaks.integrityError hintegrity.symm
      rw [hout, Reply.of] at hof
      split at hof
      · cases hof
      · cases hof

theorem effective_setFlags (call : Call) (plugins : List String) (flag : Bool) (db : Database)
    (s : Setting) (n : Nat) : effective (setFlags call plugins flag db) s n = effective db s n := by
  rw [effective, effective, getConfig_setFlags]

/-- **The update of the global settings.** For every environment, payload and database, whatever the
services are called and whoever owns the rows: after a request that succeeds, each key of the payload
other than `SERVER_NAME` and `DATABASE_URI` stands for its value, if the call does not overlook the
template in effect; every other key stands for what it stood for, if the template in effect sets it
as the one before does; and no service is touched. -/
theorem patch_keeps {env : Env} {payload : Dict String (Option String)} {db : Database}
    (hspeaks : Speaks env) (h : GlobalsInOrder db) (hp : Acceptable payload db)
    (hsuccess : (updateGlobalSettings env payload db).1 = .success) :
    let db' := (updateGlobalSettings env payload db).2
    (∀ s ∈ db.settings.all, ∀ n v, (toSet payload).lookup (suffixedKey s.id n) = some v →
      suffixedKey s.id n ≠ "SERVER_NAME" → suffixedKey s.id n ≠ "DATABASE_URI" →
      ¬ Overlooked payload db s n v → effective db' s n = v) ∧
    (∀ s ∈ db.settings.all, ∀ n,
      (toSet payload).lookup (suffixedKey s.id n) = none ∨ suffixedKey s.id n = "DATABASE_URI" ∨
        suffixedKey s.id n = "SERVER_NAME" →
      templateValue db (templateInEffect payload db) s.id n =
        templateValue db (templateUsed db) s.id n → effective db' s n = effective db s n) ∧
    db'.services = db.services ∧ db'.servicesSettings = db.servicesSettings := by
  obtain ⟨plan, db', hcommit, plugins, flag, heq⟩ := commits_of_success hspeaks hsuccess
  obtain ⟨-, hservices, hrows, -⟩ := hcommit.unmanaged rfl
  simp only [heq, effective_setFlags, setFlags_services, setFlags_servicesSettings]
  exact ⟨fun s hs n v hv hkey huri hseen => effective_payload hcommit h hp hs hkey huri hv hseen,
    fun s hs n hnone htemplate => effective_unnamed hcommit h hp hs hnone htemplate, hservices,
    hrows⟩

/-- A database with a template that turns the compression on, and the name of the template in a row
of a method. -/
def lowSite (template : String) (method : Method) : Database :=
  { site [("www", ⟨.ui, false⟩)] [(("USE_TEMPLATE", 0), ⟨template, "", method⟩)] [] with
    templateSettings := [⟨"low", "USE_GZIP", 0, "yes"⟩] }

/-- The template is in a row of `api`, and the payload turns the compression off. -/
theorem lowSite_keeps :
    let db' := (updateGlobalSettings quietEnv (Dict.ofItems [("USE_GZIP", some "no")])
      (lowSite "low" .api)).2
    effective (lowSite "low" .api) useGzip 0 = "yes" ∧ effective db' useGzip 0 = "no" ∧
      effective db' useTemplate 0 = "low" := by
  have hkeeps := @patch_keeps quietEnv (Dict.ofItems [("USE_GZIP", some "no")])
    (lowSite "low" .api) ⟨by decide, by decide⟩ (by decide) (by decide) (by decide)
  refine ⟨by decide, ?_, ?_⟩
  · exact hkeeps.1 useGzip (by decide) 0 "no" (by decide) (by decide) (by decide)
      fun hover => absurd hover.2.1 (by decide)
  · exact (hkeeps.2.1 useTemplate (by decide) 0 (.inl (by decide)) (by decide)).trans (by decide)

/-- The setting of the database itself. -/
def databaseUri : Setting where
  id := "DATABASE_URI"
  pluginId := "db"
  context := .global
  default := "sqlite:////var/lib/bunkerweb/db.sqlite3"
  regex := "^((postgresql|mysql|mariadb|sqlite|oracle)(\\+[\\w\\-]+)?:.+)?$"
  type := .text
  multiple := none

def uriCatalog : Catalog :=
  ⟨[[serverNameSetting, multisiteSetting, useTemplate], [databaseUri]], by decide, by decide⟩

/-- The request is one that `api` may make, and it succeeds. -/
def Succeeds (payload : Dict String (Option String)) (db : Database) : Prop :=
  Acceptable payload db ∧ (updateGlobalSettings quietEnv payload db).1 = .success

instance (payload : Dict String (Option String)) (db : Database) :
    Decidable (Succeeds payload db) := inferInstanceAs (Decidable (_ ∧ _))

/-- `SERVER_NAME` and `DATABASE_URI` are not set, a template changes what it sets, and a row that is
numbered although its setting may not be stands for the setting itself. -/
theorem patch_is_no_frame :
    (let payload := Dict.ofItems [("SERVER_NAME", some "app")]
      let db := site [("www", ⟨.ui, false⟩)] [] []
      Succeeds payload db ∧ ¬ Frame payload db (updateGlobalSettings quietEnv payload db).2) ∧
    (let payload := Dict.ofItems [("DATABASE_URI", some "sqlite:////tmp/db")]
      let db := { site [("www", ⟨.ui, false⟩)] [] [] with settings := uriCatalog }
      Succeeds payload db ∧ ¬ Frame payload db (updateGlobalSettings quietEnv payload db).2) ∧
    (let payload := Dict.ofItems [("USE_TEMPLATE", some "low")]
      let db := lowSite "" .api
      Succeeds payload db ∧ ¬ Frame payload db (updateGlobalSettings quietEnv payload db).2) ∧
    (let payload := Dict.ofItems [("USE_GZIP", some "no")]
      let db := site [("www", ⟨.ui, false⟩)] [(("USE_GZIP", 1), ⟨"yes", "", .ui⟩)] []
      Succeeds payload db ∧ ¬ Frame payload db (updateGlobalSettings quietEnv payload db).2) := by
  refine ⟨⟨by decide, fun h => ?_⟩, ⟨by decide, fun h => ?_⟩, ⟨by decide, fun h => ?_⟩, by decide,
    fun h => ?_⟩
  · exact absurd (h.set serverNameSetting (by decide) 0 "app" (by decide)) (by decide)
  · exact absurd (h.set databaseUri (by decide) 0 "sqlite:////tmp/db" (by decide)) (by decide)
  · exact absurd (h.others useGzip (by decide) 0 (by decide)) (by decide)
  · exact absurd (h.set useGzip (by decide) 0 "no" (by decide)) (by decide)

end BunkerWeb.Api
