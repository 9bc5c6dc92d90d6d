import BunkerWeb.Db.Written

/-!
# What is saved is read back

A value that is written and a value that is elided both come back, if what `get_config` falls back
on is what the elision compares with. `Inherits` says that of the global value, and `Reconstructs`
of the global value and the templates together. It is not always so: the elision looks at the
configuration of the call, and `get_config` at what the database makes of it.
-/

namespace BunkerWeb.Db

open Lib

/-- The key of a setting, of a service (`some`) or global (`none`). -/
def keyOf (scope : Option String) (s : Setting) (n : Nat) : String :=
  match scope with
  | none => suffixedKey s.id n
  | some service => joinKey service (suffixedKey s.id n)

/-- The row of a key. -/
def rowOf (db : Database) (scope : Option String) (s : Setting) (n : Nat) : Option Cell :=
  match scope with
  | none => db.globalValues.lookup (s.id, n)
  | some service => db.servicesSettings.lookup (service, s.id, n)

/-- If the configuration has the key, its row may be written over. -/
def MayWriteKey (call : Call) (db : Database) (scope : Option String) (s : Setting) (n : Nat) :
    Prop :=
  ∀ w, (popped call).lookup (keyOf scope s n) = some w →
    MayWrite call (keyOf scope s n) w (rowOf db scope s n)

/-- The global value is that of the configuration: its row may be written over, another method has
no row that the configuration does not name, a numbered key comes with its setting or agrees with the
value, and the value is no old one of the database that the configuration replaces. -/
structure Inherits (call : Call) (db : Database) (s : Setting) (n : Nat) (value : String) :
    Prop where
  named : MayWriteKey call db none s n
  unnamed : (popped call).lookup (suffixedKey s.id n) = none →
    ∀ c ∈ db.globalValues.lookup (s.id, n), c.method = call.method
  numbered : 0 < n → (popped call).lookup s.id = none →
    ∀ w, (popped call).lookup (suffixedKey s.id n) = some w → w = value
  fresh : (dbConfigOf call db).lookup (suffixedKey s.id n) = some value →
    (popped call).lookup (suffixedKey s.id n) = some value

/-- The value that a row of another method keeps. -/
def keptValue (call : Call) (row : Option Cell) : Option String :=
  (row.filter (·.method ≠ call.method)).map Cell.value

/-- The global template after the call. -/
def templateAfter (call : Call) (db : Database) : String :=
  match (popped call).lookup "USE_TEMPLATE", db.globalValues.lookup ("USE_TEMPLATE", 0) with
  | some t, some c =>
    if methodsAreCompatible call.method c.method
      (schedulerCanOverride call.explicitKeys "USE_TEMPLATE" t) then t else c.value
  | some t, none => t
  | none, row => (keptValue call row).getD ""

/-- The template of a service after the call. -/
def serviceTemplateAfter (call : Call) (db : Database) (service : String) : String :=
  match (popped call).lookup (joinKey service "USE_TEMPLATE") with
  | some t => t
  | none =>
    (keptValue call (db.servicesSettings.lookup (service, "USE_TEMPLATE", 0))).getD
      (templateAfter call db)

/-- What a service falls back on without a row is what the elision compares with: the global value,
and what its template sets if the configuration does not name that. -/
structure Reconstructs (call : Call) (db : Database) (service : String) (s : Setting) (n : Nat)
    (value : String) : Prop where
  inherits : Inherits call db s n value
  template : ∀ u ∈ db.settings.all, u.id = "USE_TEMPLATE" →
    ∀ t, (popped call).lookup (joinKey service "USE_TEMPLATE") = some t →
      MayWriteKey call db (some service) u 0 ∧ Inherits call db u 0 t
  unnamed : (popped call).lookup (joinKey service "USE_TEMPLATE") = none →
    ∀ t, templateValue db (serviceTemplateAfter call db service) s.id n = some t → t = value
  fill : 0 < n → serviceTemplateAfter call db service = "" →
    templateValue db (templateAfter call db) s.id n = none

/-- The value is read back; a numbered key with its default may be left out. -/
def ReadsBack (db : Database) (key : String) (s : Setting) (n : Nat) (value : String) : Prop :=
  (getConfig db withDrafts).lookup key = some value ∨
    0 < n ∧ value = s.default ∧ (getConfig db withDrafts).lookup key = none

section

variable {env : Env} {call : Call} {db db' : Database} {plan : Plan} {s : Setting} {n : Nat}
  {v service : String}

theorem ReadsBack.of_default {db : Database} {key : String} (hpos : 0 < n) (hv : v = s.default)
    (h : Found s.default none ((getConfig db withDrafts).lookup key)) : ReadsBack db key s n v := by
  rcases h with hnone | hfill
  · exact .inr ⟨hpos, hv, hnone⟩
  · exact .inl (hv ▸ hfill)

/-! ## Elision -/

theorem globalIsDefault_iff (hid : s.id ≠ "SERVER_NAME") :
    globalIsDefault call db s n v = true ↔
      v = s.default ∧ (n = 0 ∨ (popped call).lookup s.id = none ∧
        (dbConfigOf call db).lookup s.id = none) := by
  unfold globalIsDefault checkValue isDefaultValue
  rw [if_neg hid]
  by_cases hn : n = 0
  · simp [hn]
  · cases (popped call).lookup s.id <;> cases (dbConfigOf call db).lookup s.id <;> simp [hn]

theorem rowIsDefault_iff (hid : s.id ≠ "SERVER_NAME")
    (htemplate : namedTemplateValue call db service s n = none) :
    rowIsDefault call db service s n v = true ↔
      ((popped call).lookup s.id = none ∧ (dbConfigOf call db).lookup s.id = none ∧
        v = s.default) ∨
      (¬ ((popped call).lookup s.id = none ∧ (dbConfigOf call db).lookup s.id = none) ∧
        ((popped call).lookup (suffixedKey s.id n) = some v ∨
          (dbConfigOf call db).lookup (suffixedKey s.id n) = some v)) := by
  unfold rowIsDefault checkValue isDefaultValue
  rw [if_neg hid, htemplate]
  cases (popped call).lookup s.id <;> cases (dbConfigOf call db).lookup s.id <;> simp

theorem rowIsDefault_of_template (hid : s.id ≠ "SERVER_NAME") {t : String}
    (htemplate : namedTemplateValue call db service s n = some t) :
    rowIsDefault call db service s n v = true ↔ v = t := by
  unfold rowIsDefault checkValue isDefaultValue
  rw [if_neg hid, htemplate]
  simp

/-! ## What is inherited -/

/-- A value that is elided as the one of the global scope is what a service inherits. -/
theorem Commits.base_of_inherits (h : Commits env call db plan db') (hm : IsMultisite call)
    (hraise : env.raises none = false) (hw : WellNamed call db) (hinst : Installed db)
    (hs : s ∈ db.settings.all) (hid : s.id ≠ "SERVER_NAME") (huri : s.id ≠ "DATABASE_URI")
    (hinh : Inherits call db s n v)
    (htemplate : namedTemplateValue call db service s n = none)
    (hdefault : rowIsDefault call db service s n v = true) :
    baseValue db' s n = some v ∨ 0 < n ∧ v = s.default ∧ baseValue db' s n = none := by
  rw [rowIsDefault_iff hid htemplate] at hdefault
  cases hK : (popped call).lookup (suffixedKey s.id n) with
  | some w =>
    have hholds := h.holds_global hm hraise hw hinst hs hK (hinh.named w hK)
    -- The value is that of the configuration.
    obtain rfl : w = v := by
      rcases hdefault with ⟨hnone, hnoneDb, hv⟩ | ⟨-, hsame | hold⟩
      · rcases Nat.eq_zero_or_pos n with rfl | hpos
        · rw [suffixedKey_zero, hnone] at hK
          cases hK
        · exact hinh.numbered hpos hnone w hK
      · rw [hK] at hsame
        exact Option.some.inj hsame
      · have := hinh.fresh hold
        rw [hK] at this
        exact Option.some.inj this
    rcases hholds with ⟨c, hc, hcw⟩ | ⟨hnoRow, helided⟩
    · exact .inl (by rw [baseValue, hc, ← hcw])
    · obtain ⟨hwd, hcase⟩ := (globalIsDefault_iff hid).mp helided
      rcases Nat.eq_zero_or_pos n with rfl | hpos
      · exact .inl (by rw [baseValue, hnoRow, hwd]; rfl)
      · exact .inr ⟨hpos, hwd, by rw [baseValue, hnoRow]; simp [Nat.ne_of_gt hpos]⟩
  | none =>
    have hrow := h.global_of_unnamed hm hw hinst hs huri hK
    have hnoRow : db'.globalValues.lookup (s.id, n) = none := by
      rw [hrow]
      cases hl : db.globalValues.lookup (s.id, n) with
      | none => rfl
      | some c => simp [Option.filter, hinh.unnamed hK c (by rw [hl]; rfl)]
    have hv : v = s.default := by
      rcases hdefault with ⟨-, -, hv⟩ | ⟨-, hsame | hold⟩
      · exact hv
      · rw [hK] at hsame
        cases hsame
      · have := hinh.fresh hold
        rw [hK] at this
        cases this
    rcases Nat.eq_zero_or_pos n with rfl | hpos
    · exact .inl (by rw [baseValue, hnoRow, hv]; rfl)
    · exact .inr ⟨hpos, hv, by rw [baseValue, hnoRow]; simp [Nat.ne_of_gt hpos]⟩

/-! ## The templates -/

theorem Commits.templateValue_eq (h : Commits env call db plan db') (hm : IsMultisite call)
    (template id : String) (n : Nat) :
    templateValue db' template id n = templateValue db template id n := by
  rw [templateValue, templateValue, templateRow, templateRow, h.templateSettings_eq hm]

theorem Commits.templateUsed_eq (h : Commits env call db plan db') (hm : IsMultisite call)
    (hraise : env.raises none = false) (hw : WellNamed call db) (hinst : Installed db) :
    templateUsed db' = templateAfter call db := by
  obtain ⟨s, hs, hid, -, hdefault, hfile⟩ := hinst.useTemplate
  have hne : s.id ≠ "SERVER_NAME" := by rw [hid]; decide
  -- The key is that of the setting, not numbered.
  have hkey : suffixedKey s.id 0 = "USE_TEMPLATE" := by rw [suffixedKey_zero, hid]
  have hholds : ∀ t, (popped call).lookup "USE_TEMPLATE" = some t →
      MayWrite call "USE_TEMPLATE" t (db.globalValues.lookup ("USE_TEMPLATE", 0)) →
      templateUsed db' = t := by
    intro t ht hmay
    have hrow := h.holds_global (n := 0) (v := t) hm hraise hw hinst hs (by rw [hkey, ht])
      (by rw [hkey, hid]; exact hmay)
    rw [hid] at hrow
    rcases hrow with ⟨c, hc, hct⟩ | ⟨hnone, helided⟩
    · rw [templateUsed, hc, ← hct]
      rfl
    · rw [templateUsed, hnone, ((globalIsDefault_iff hne).mp helided).1, hdefault]
      rfl
  unfold templateAfter
  split
  · rename_i t c ht hc
    split
    · rename_i hcompat
      refine hholds t ht fun c' hc' => .inr ?_
      rw [hc] at hc'
      cases hc'
      exact hcompat
    · rename_i hnot
      have hrow := h.keeps_global (n := 0) (v := t) (c := c) hm hraise hw hinst hs hfile
        (by rw [hkey, ht]) (by rw [hid, hc]) (by rw [hkey]; simpa using hnot)
      rw [hid] at hrow
      rw [templateUsed, hrow]
      rfl
  · rename_i t ht hc
    refine hholds t ht fun c' hc' => ?_
    rw [hc] at hc'
    cases hc'
  · rename_i row ht
    have hrow := h.global_of_unnamed (n := 0) hm hw hinst hs (by rw [hid]; decide)
      (by rw [hkey, ht])
    rw [hid] at hrow
    rw [templateUsed, hrow]
    rfl

/-- A key with a zero at its end is not that of a setting of a service. -/
theorem WellNamed.lookup_service_zero (hw : WellNamed call db) (hs : s ∈ db.settings.all)
    (hservice : service ∈ servicesSet call db) :
    (popped call).lookup (joinKey service (joinKey s.id "0")) = none :=
  Option.eq_none_iff_forall_ne_some.mpr fun _ hl => notMem_of_zero (hw.rows service hservice) hs
    (mem_serviceConfig.mpr ⟨hl, hw.firstService_joinKey hservice _⟩)

theorem WellNamed.notMem_poppedKeys_service (hw : WellNamed call db)
    (hsep : Separate db.settings service) {rest : String} (hdraft : rest ≠ "IS_DRAFT")
    (huri : rest ≠ "URI") : joinKey service rest ∉ poppedKeys call := by
  refine hw.notMem_poppedKeys (fun he => huri ?_) fun sv hsv he =>
    hdraft (hsep.joinKey_inj hsv he).2
  rw [show "DATABASE_URI" = joinKey "DATABASE" "URI" by decide] at he
  exact (joinKey_inj hsep.noUnderscore (by decide) he).2

/-- No template sets the template of a service. -/
theorem namedTemplateValue_useTemplate (hinst : Installed db) (hid : s.id = "USE_TEMPLATE")
    (n : Nat) : namedTemplateValue call db service s n = none := by
  rw [namedTemplateValue, Option.bind_eq_none_iff]
  intro template _
  rw [templateValue]
  split
  · rfl
  · rw [templateRow, Option.map_eq_none_iff, Dict.lastOf_eq_none]
    rintro e he hek
    obtain ⟨row, hrow, rfl⟩ := List.mem_map.mp he
    exact (hinst.templates row (List.mem_filter.mp hrow).1).1 ((Prod.mk.inj hek).1.trans hid)

theorem Commits.serviceTemplateUsed_eq (h : Commits env call db plan db') (hm : IsMultisite call)
    (hraise : ∀ t, env.raises t = false) (hw : WellNamed call db) (hinst : Installed db)
    (hservice : KeptService call db service)
    (hstands : ∀ u ∈ db.settings.all, u.id = "USE_TEMPLATE" →
      ∀ t, (popped call).lookup (joinKey service "USE_TEMPLATE") = some t →
        MayWriteKey call db (some service) u 0 ∧ Inherits call db u 0 t) :
    serviceTemplateUsed db' service = serviceTemplateAfter call db service := by
  obtain ⟨s, hs, hid, -, hdefault, -⟩ := hinst.useTemplate
  have hne : s.id ≠ "SERVER_NAME" := by rw [hid]; decide
  have hset := hservice.known
  have hsep := hw.separate hset
  have hkey : suffixedKey s.id 0 = "USE_TEMPLATE" := by rw [suffixedKey_zero, hid]
  have hused := h.templateUsed_eq hm (hraise none) hw hinst
  unfold serviceTemplateAfter serviceTemplateUsed
  cases ht : (popped call).lookup (joinKey service "USE_TEMPLATE") with
  | some t =>
    obtain ⟨hmay, hinh⟩ := hstands s hs hid t ht
    have ht' : (popped call).lookup (keyOf (some service) s 0) = some t := by
      rw [keyOf, hkey, ht]
    have hrow := h.holds_row hm (hraise _) hw hinst hs hservice ht' (hmay t ht')
    rw [hid] at hrow
    rcases hrow with ⟨c, hc, hct⟩ | ⟨hnone, helided⟩
    · rw [hc, ← hct]
      rfl
    · have hbase := h.base_of_inherits hm (hraise none) hw hinst hs hne (by rw [hid]; decide) hinh
        (namedTemplateValue_useTemplate hinst hid 0) helided
      rcases hbase with hbase | ⟨hpos, -⟩
      · rw [hnone, templateUsed]
        rw [baseValue, hid, if_pos rfl, hdefault] at hbase
        cases hl : db'.globalValues.lookup ("USE_TEMPLATE", 0) with
        | some c => rw [hl] at hbase; exact Option.some.inj hbase
        | none => rw [hl] at hbase; exact Option.some.inj hbase
      · exact absurd hpos (Nat.lt_irrefl 0)
  | none =>
    have hnone : call.config.lookup (joinKey service s.id) = none :=
      lookup_eq_none_of_popped (by rw [hid, ht]) (hw.notMem_poppedKeys_service hsep
        (by rw [hid]; decide) (by rw [hid]; decide))
    have hzero : call.config.lookup (joinKey service (joinKey s.id "0")) = none :=
      lookup_eq_none_of_popped (hw.lookup_service_zero hs hset) (hw.notMem_poppedKeys_service hsep
        (by rw [hid]; decide) (by rw [hid]; decide))
    have hrow := h.row_of_unnamed hm hw hinst hs hservice hnone hzero
    rw [hid] at hrow
    rw [hrow, hused]
    rfl

/-! ## The keys -/

/-- A global key is read back, unless its value is elided and a template sets another one. -/
theorem Commits.reads_global (h : Commits env call db plan db') (hm : IsMultisite call)
    (hraise : env.raises none = false) (hw : WellNamed call db) (hr : Readable db)
    (hyes : MayWrite call "MULTISITE" "yes" (db.globalValues.lookup ("MULTISITE", 0)))
    (hs : s ∈ db.settings.all) (hid : s.id ≠ "SERVER_NAME")
    (hv : (popped call).lookup (suffixedKey s.id n) = some v)
    (hmay : MayWrite call (suffixedKey s.id n) v (db.globalValues.lookup (s.id, n)))
    (htemplate : globalIsDefault call db s n v = true →
      ∀ t, templateValue db (templateAfter call db) s.id n = some t → t = v) :
    ReadsBack db' (suffixedKey s.id n) s n v := by
  have hfound := getConfig_global (h.readable hm hw hr) (h.storedMultisite hm hraise hw hr hyes)
    (by rw [h.settings_eq hm]; exact hs) hid n
  rcases h.holds_global hm hraise hw hr.installed hs hv hmay with ⟨c, hc, hcv⟩ | ⟨hnone, helided⟩
  · rw [globalValue, hc, Option.map_some, Option.some_or, hcv] at hfound
    exact .inl hfound
  · obtain ⟨hdefault, -⟩ := (globalIsDefault_iff hid).mp helided
    rw [globalValue, hnone, Option.map_none, Option.none_or, h.templateValue_eq hm,
      h.templateUsed_eq hm hraise hw hr.installed] at hfound
    cases ht : templateValue db (templateAfter call db) s.id n with
    | some t =>
      rw [ht, htemplate helided t ht] at hfound
      exact .inl hfound
    | none =>
      rw [ht, Option.none_or] at hfound
      rcases Nat.eq_zero_or_pos n with rfl | hpos
      · rw [if_pos rfl, ← hdefault] at hfound
        exact .inl hfound
      · rw [if_neg (Nat.ne_of_gt hpos)] at hfound
        exact .of_default hpos hdefault hfound

/-- A key of a service is read back, if what the service falls back on is what the elision compares
with. -/
theorem Commits.reads_service (h : Commits env call db plan db') (hm : IsMultisite call)
    (hraise : ∀ t, env.raises t = false) (hw : WellNamed call db) (hr : Readable db)
    (hyes : MayWrite call "MULTISITE" "yes" (db.globalValues.lookup ("MULTISITE", 0)))
    (hs : s ∈ db.settings.all) (hctx : s.context = .multisite)
    (hid : s.id ≠ "SERVER_NAME" ∧ s.id ≠ "IS_DRAFT" ∧ s.id ≠ "DATABASE_URI")
    (hservice : KeptService call db service)
    (hv : (popped call).lookup (joinKey service (suffixedKey s.id n)) = some v)
    (hmay : MayWrite call (joinKey service (suffixedKey s.id n)) v
      (db.servicesSettings.lookup (service, s.id, n)))
    (hrec : rowIsDefault call db service s n v = true → Reconstructs call db service s n v) :
    ReadsBack db' (joinKey service (suffixedKey s.id n)) s n v := by
  have hfound := fun hfill => getConfig_service (h.readable hm hw hr)
    (h.storedMultisite hm (hraise none) hw hr hyes) (by rw [h.settings_eq hm]; exact hs)
    (h.service_isSome hm (hraise _) hw hr.installed hs hservice hv) hctx hid.1 hid.2.1 n hfill
  rcases h.holds_row hm (hraise _) hw hr.installed hs hservice hv hmay with
    ⟨c, hc, hcv⟩ | ⟨hnone, helided⟩
  · rw [serviceValue, hc, Option.map_some, Option.some_or, hcv] at hfound
    exact .inl (hfound fun he => by cases he)
  · have hrec := hrec helided
    have hused := h.serviceTemplateUsed_eq hm hraise hw hr.installed hservice hrec.template
    have hfill : n = 0 ∨ serviceTemplateUsed db' service ≠ "" ∨
        templateValue db' (templateUsed db') s.id n = none := by
      rw [hused, h.templateUsed_eq hm (hraise none) hw hr.installed, h.templateValue_eq hm]
      by_cases hn : n = 0
      · exact .inl hn
      · by_cases hempty : serviceTemplateAfter call db service = ""
        · exact .inr (.inr (hrec.fill (Nat.pos_of_ne_zero hn) hempty))
        · exact .inr (.inl hempty)
    have hfound := hfound fun _ => hfill
    rw [serviceValue, hnone, Option.map_none, Option.none_or, h.templateValue_eq hm, hused]
      at hfound
    cases hnamed : namedTemplateValue call db service s n with
    | some t =>
      -- The template that the configuration names sets the value.
      obtain rfl := (rowIsDefault_of_template hid.1 hnamed).mp helided
      obtain ⟨template, hget, ht⟩ := Option.bind_eq_some_iff.mp hnamed
      have hafter : serviceTemplateAfter call db service = template := by
        rw [serviceTemplateAfter, hget]
      rw [hafter, ht] at hfound
      exact .inl hfound
    | none =>
      cases ht : templateValue db (serviceTemplateAfter call db service) s.id n with
      | some t =>
        have hunnamed : (popped call).lookup (joinKey service "USE_TEMPLATE") = none := by
          cases hl : (popped call).lookup (joinKey service "USE_TEMPLATE") with
          | none => rfl
          | some template =>
            rw [namedTemplateValue, hl, Option.bind_some] at hnamed
            rw [serviceTemplateAfter, hl, hnamed] at ht
            cases ht
        rw [ht, hrec.unnamed hunnamed t ht] at hfound
        exact .inl hfound
      | none =>
        rw [ht, Option.none_or] at hfound
        rcases h.base_of_inherits hm (hraise none) hw hr.installed hs hid.1 hid.2.2
          hrec.inherits hnamed helided with hbase | ⟨hpos, hdefault, hbase⟩
        · rw [hbase] at hfound
          exact .inl hfound
        · rw [hbase] at hfound
          exact .of_default hpos hdefault hfound

/-- The configuration has the key of a setting, and of a service that the call keeps if it is of one;
the settings that `save_config` treats in a way of their own are left out. -/
structure Names (call : Call) (db : Database) (scope : Option String) (s : Setting) (n : Nat)
    (value : String) : Prop where
  known : s ∈ db.settings.all
  given : call.config.lookup (keyOf scope s n) = some value
  service : ∀ service ∈ scope, KeptService call db service ∧ s.context = .multisite
  plain : s.id ≠ "SERVER_NAME" ∧ s.id ≠ "IS_DRAFT" ∧ s.id ≠ "DATABASE_URI"
  notUri : keyOf scope s n ≠ "DATABASE_URI"

/-- If the value of the key is elided, it is what `get_config` falls back on. -/
def Agrees (call : Call) (db : Database) (scope : Option String) (s : Setting) (n : Nat)
    (value : String) : Prop :=
  match scope with
  | none => globalIsDefault call db s n value = true →
    ∀ t, templateValue db (templateAfter call db) s.id n = some t → t = value
  | some service => rowIsDefault call db service s n value = true →
    Reconstructs call db service s n value

variable {scope : Option String}

theorem Names.popped (h : Names call db scope s n v) (hw : WellNamed call db)
    (hinst : Installed db) : (popped call).lookup (keyOf scope s n) = some v := by
  have hnot : keyOf scope s n ∉ poppedKeys call := by
    refine hw.notMem_poppedKeys h.notUri fun sv hsv => ?_
    cases scope with
    | none => exact hsv.ne_joinKey h.known n _
    | some service =>
      intro he
      have hsep := hw.separate (h.service service rfl).1.known
      exact h.plain.2.1 (suffixedKey_eq (db.settings.ne_empty s h.known)
        (hinst.unnumbered s h.known) (by decide) (hsep.joinKey_inj hsv he).2).1
  rw [lookup_popped, if_neg hnot]
  exact h.given

/-- The flags that a call sets are not part of the configuration. -/
theorem getConfig_setFlags (plugins : List String) (b : Bool) (q : Query) :
    getConfig (setFlags call plugins b db) q = getConfig db q := by
  unfold setFlags
  split <;> rfl

theorem Commits.reads_key (h : Commits env call db plan db') (hm : IsMultisite call)
    (hraise : ∀ t, env.raises t = false) (hw : WellNamed call db) (hr : Readable db)
    (hyes : ∀ u ∈ db.settings.all, u.id = "MULTISITE" → MayWriteKey call db none u 0)
    (hk : Names call db scope s n v) (hmay : MayWriteKey call db scope s n)
    (hagrees : Agrees call db scope s n v) :
    ReadsBack (saveConfig env call db).2 (keyOf scope s n) s n v := by
  have hsaved : (getConfig (saveConfig env call db).2 withDrafts) = getConfig db' withDrafts := by
    rcases saveConfig_cases env call db with ⟨plan', db'', plugins, flag, hcom, heq⟩ | ⟨-, hno⟩
    · obtain ⟨-, rfl⟩ := h.unique hcom
      rw [heq, getConfig_setFlags]
    · exact absurd h (hno plan db')
  have hmultisite : MayWrite call "MULTISITE" "yes" (db.globalValues.lookup ("MULTISITE", 0)) := by
    obtain ⟨u, hu, hid, -⟩ := hr.installed.multisite
    have hget : (popped call).lookup (keyOf none u 0) = some "yes" := by
      rw [keyOf, suffixedKey_zero, hid]
      exact hm.lookup_multisite
    have hmay := hyes u hu hid "yes" hget
    rw [keyOf, rowOf, suffixedKey_zero, hid] at hmay
    exact hmay
  have hv := hk.popped hw hr.installed
  unfold ReadsBack
  rw [hsaved]
  cases scope with
  | none =>
    exact h.reads_global hm (hraise none) hw hr hmultisite hk.known hk.plain.1 hv (hmay v hv) hagrees
  | some service =>
    obtain ⟨hservice, hctx⟩ := hk.service service rfl
    exact h.reads_service hm hraise hw hr hmultisite hk.known hctx hk.plain hservice hv (hmay v hv)
      hagrees

end

/-- **The round trip.** For every environment in which no task raises, every database and every
multisite call of any method that commits: each key of the configuration whose row may be written
over is read back with its value, if a value that is elided is what `get_config` falls back on. -/
theorem saved_is_read {env : Env} {call : Call} {db : Database} (hr : Readable db)
    (hw : WellNamed call db) (hm : IsMultisite call) (hraise : ∀ t, env.raises t = false)
    (hcommit : ∃ plan db', Commits env call db plan db')
    (hyes : ∀ u ∈ db.settings.all, u.id = "MULTISITE" → MayWriteKey call db none u 0)
    {scope : Option String} {s : Setting} {n : Nat} {v : String} (hk : Names call db scope s n v)
    (hmay : MayWriteKey call db scope s n) (hagrees : Agrees call db scope s n v) :
    ReadsBack (saveConfig env call db).2 (keyOf scope s n) s n v := by
  obtain ⟨plan, db', h⟩ := hcommit
  exact h.reads_key hm hraise hw hr hyes hk hmay hagrees

/-- A call of `ui` with a service that has the same value as the global scope. -/
def gzipCall : Call :=
  multisiteCall .ui [("SERVER_NAME", "www"), ("USE_GZIP", "yes"), ("www_USE_GZIP", "yes")]

theorem commits_of_changed {env : Env} {call : Call} {db : Database} {k : GlobalKey}
    (h : (saveConfig env call db).2.globalValues.lookup k ≠ db.globalValues.lookup k) :
    ∃ plan db', Commits env call db plan db' := by
  rcases saveConfig_cases env call db with ⟨plan, db', -, -, hcom, -⟩ | ⟨hsame, -⟩
  · exact ⟨plan, db', hcom⟩
  · exact absurd (by rw [hsame]) h

/-- Every row of the database may be written over if there is none. -/
theorem mayWriteKey_site (call : Call) (services : List (String × Service))
    (scope : Option String) (s : Setting) (n : Nat) :
    MayWriteKey call (site services [] []) scope s n := by
  intro w _ c hc
  cases scope <;> cases hc

/-- The value of the service gets no row, and is read back from the global one. -/
theorem saved_is_read_elided :
    rowIsDefault gzipCall (site [] [] []) "www" useGzip 0 "yes" = true ∧
      ReadsBack (saveConfig quietEnv gzipCall (site [] [] [])).2 (keyOf (some "www") useGzip 0)
        useGzip 0 "yes" := by
  have hchanged : (saveConfig quietEnv gzipCall (site [] [] [])).2.globalValues.lookup
      ("USE_GZIP", 0) ≠ (site [] [] []).globalValues.lookup ("USE_GZIP", 0) := by decide
  have hkept : KeptService gzipCall (site [] [] []) "www" := keptService_of_mem (by decide)
  refine ⟨by decide, saved_is_read (by decide) (by decide) (by decide) (fun _ => rfl)
    (commits_of_changed hchanged) (fun u _ _ => mayWriteKey_site _ _ _ u 0)
    ⟨by decide, by decide, fun service hs => ?_, by decide, by decide⟩
    (mayWriteKey_site _ _ _ _ _) fun _ => ?_⟩
  · obtain rfl : "www" = service := Option.some.inj hs
    exact ⟨hkept, rfl⟩
  · have hnoTemplate : (popped gzipCall).lookup (joinKey "www" "USE_TEMPLATE") = none := by decide
    refine ⟨⟨mayWriteKey_site _ _ _ _ _, by decide, fun h => absurd h (by decide), by decide⟩,
      fun u _ _ t ht => ?_, fun _ t ht => ?_, fun h => absurd h (by decide)⟩
    · rw [hnoTemplate] at ht
      cases ht
    · have hnone : templateValue (site [] [] [])
          (serviceTemplateAfter gzipCall (site [] [] []) "www") useGzip.id 0 = none := by decide
      rw [hnone] at ht
      cases ht

/-- A call of the scheduler that would delete all the global values of the scheduler is refused
without an error, and nothing of it is read back. -/
theorem refused_call_is_not_read :
    let call := multisiteCall .scheduler [("SERVER_NAME", "www"), ("www_USE_GZIP", "yes")]
    let db := site [("www", ⟨.scheduler, false⟩)]
      [(("USE_GZIP", 0), ⟨"yes", "", .scheduler⟩)] []
    (IsMultisite call ∧ Readable db ∧ WellNamed call db ∧
      ∀ scope, ∀ s ∈ db.settings.all, ∀ n, MayWriteKey call db scope s n) ∧
    (saveConfig quietEnv call db).1 = .plugins ["gzip"] ∧
    ¬ ∀ scope s n v, Names call db scope s n v →
      (getConfig (saveConfig quietEnv call db).2 withDrafts).lookup (keyOf scope s n) = some v := by
  intro call db
  refine ⟨⟨by decide, by decide, by decide, fun scope s _ n w _ c hc => .inr ?_⟩, by decide,
    fun h => ?_⟩
  · cases scope with
    | none =>
      have howned : ∀ r ∈ db.globalValues.items, r.2.method = .scheduler := by decide
      rw [howned _ (Dict.mem_items.mpr hc)]
      rfl
    | some service => cases hc
  · have hread := h none multisiteSetting 0 "yes"
      ⟨by decide, by decide, fun _ hs => (by cases hs), by decide, by decide⟩
    exact absurd hread (by decide)

/-- **Explicit keys.** For every environment in which no task raises, every database and every
multisite call of the scheduler that commits: each explicit key whose row belongs to the scheduler,
`ui` or `api`, or is not there, is read back with its value, if a value that is elided is what
`get_config` falls back on. -/
theorem explicit_key_wins {env : Env} {call : Call} {db : Database} (hr : Readable db)
    (hw : WellNamed call db) (hm : IsMultisite call) (hraise : ∀ t, env.raises t = false)
    (hcommit : ∃ plan db', Commits env call db plan db') (hmethod : call.method = .scheduler)
    (hyes : ∀ u ∈ db.settings.all, u.id = "MULTISITE" → MayWriteKey call db none u 0)
    {scope : Option String} {s : Setting} {n : Nat} {v : String} (hk : Names call db scope s n v)
    (hexplicit : keyOf scope s n ∈ call.explicitKeys)
    (howner : ∀ c ∈ rowOf db scope s n, c.method = .scheduler ∨ c.method.isUi = true)
    (hagrees : Agrees call db scope s n v) :
    ReadsBack (saveConfig env call db).2 (keyOf scope s n) s n v := by
  obtain ⟨plan, db', h⟩ := hcommit
  refine h.reads_key hm hraise hw hr hyes hk (fun w hget c hc => .inr ?_) hagrees
  have hname : keyOf scope s n ≠ "SERVER_NAME" := by
    cases scope with
    | none =>
      exact fun he => hk.plain.1 (suffixedKey_eq (db.settings.ne_empty s hk.known)
        (hr.installed.unnumbered s hk.known) (by decide) he).1
    | some service =>
      obtain ⟨u, hu, hid⟩ := hr.installed.serverName
      exact hid ▸ ((hw.separate (hk.service service rfl).1.known).notPrefix u hu _).symm
  have hover : schedulerCanOverride call.explicitKeys (keyOf scope s n) w = true := by
    rw [schedulerCanOverride, List.contains_iff_mem.mpr hexplicit]
    simp [hname]
  rw [hover, hmethod]
  rcases howner c hc with hown | hui
  · rw [hown]
    rfl
  · cases hcm : c.method <;> rw [hcm] at hui <;> first | rfl | cases hui

/-- A call of the scheduler with an explicit key. -/
def explicitCall : Call :=
  { multisiteCall .scheduler [("SERVER_NAME", "www"), ("www_USE_GZIP", "yes")] with
    explicitKeys := ["www_USE_GZIP"] }

/-- An explicit key takes a row of `ui` over. -/
theorem explicit_key_wins_over_ui :
    ReadsBack (saveConfig quietEnv explicitCall (site [("www", ⟨.ui, false⟩)] []
      [(("www", "USE_GZIP", 0), ⟨"no", "", .ui⟩)])).2 (keyOf (some "www") useGzip 0) useGzip 0
        "yes" := by
  have hchanged : (saveConfig quietEnv explicitCall (site [("www", ⟨.ui, false⟩)] []
      [(("www", "USE_GZIP", 0), ⟨"no", "", .ui⟩)])).2.globalValues.lookup ("MULTISITE", 0) ≠
      (site [("www", ⟨.ui, false⟩)] []
        [(("www", "USE_GZIP", 0), ⟨"no", "", .ui⟩)]).globalValues.lookup ("MULTISITE", 0) := by
    decide
  refine explicit_key_wins (by decide) (by decide) (by decide) (fun _ => rfl)
    (commits_of_changed hchanged) rfl (fun u _ _ _ _ c hc => (by cases hc))
    ⟨by decide, by decide, fun service hs => ?_, by decide, by decide⟩ (by decide)
    (fun c hc => ?_) fun helided => absurd helided (by decide)
  · obtain rfl : "www" = service := Option.some.inj hs
    exact ⟨keptService_of_mem (by decide), rfl⟩
  · have howned : ∀ r ∈ (site [("www", ⟨.ui, false⟩)] []
        [(("www", "USE_GZIP", 0), ⟨"no", "", .ui⟩)]).servicesSettings.items,
        r.2.method = .scheduler ∨ r.2.method.isUi = true := by decide
    exact howned _ (Dict.mem_items.mpr hc)

/-- An explicit key does not take a row of `autoconf` over. -/
theorem autoconf_row_stays :
    let db := site [("www", ⟨.autoconf, false⟩)] []
      [(("www", "USE_GZIP", 0), ⟨"no", "", .autoconf⟩)]
    (IsMultisite explicitCall ∧ Readable db ∧ WellNamed explicitCall db) ∧
    (∃ ids, (saveConfig quietEnv explicitCall db).1 = .plugins ids) ∧
    ¬ ∀ key ∈ explicitCall.explicitKeys,
      (getConfig (saveConfig quietEnv explicitCall db).2 withDrafts).lookup key =
        explicitCall.config.lookup key := by
  intro db
  exact ⟨⟨by decide, by decide, by decide⟩, ⟨["general", "general"], by decide⟩, by decide⟩

end BunkerWeb.Db
