import BunkerWeb.Autoconf.Saving

/-!
# Saving a configuration again

After a save the tables fit the configuration (`Settled`): the rows that it has values for have
them, and those of `autoconf` that it has none for are gone, except for services that are drafts
because it does not name them. A later save of the configuration, or of one that leaves a service of
it out (`Leaves`), keeps every row, and puts one only where there is none.

- **The first save** (`settled_of_save`).
- **A later one** (`Settled.row_stays`, `Settled.row_missing`, `Settled.save`).
-/

namespace BunkerWeb.Autoconf.Saving

open Lib Db

/-- The key is neither that of the list of services nor one of the service `away`. -/
def Apart (away : Option String) (key : String) : Prop :=
  key ≠ "SERVER_NAME" ∧ ∀ t ∈ away, ∀ r, key ≠ joinKey t r

/-- `config'` is `config` without the service `away`. -/
structure Leaves (away : Option String) (config config' : Dict String String) : Prop where
  names : ∀ t, t ∈ serverNames config' ↔ t ∈ serverNames config ∧ t ∉ away
  left : ∀ t ∈ away, ∀ r, config'.lookup (joinKey t r) = none
  others : ∀ key, Apart away key → config'.lookup key = config.lookup key

theorem Leaves.refl (config : Dict String String) : Leaves none config config :=
  ⟨fun _ => (and_iff_left nofun).symm, nofun, fun _ _ => rfl⟩

/-- The tables fit the configuration. -/
structure Settled (config : Dict String String) (db : Database) : Prop where
  readable : Readable db
  named : WellNamed (autoconfCall config) db
  gone : ∀ t, Gone config db t → ∀ sv, db.services.lookup t = some sv → sv.isDraft = true
  rows : ∀ k v c, given config db k = some v → db.servicesSettings.lookup k = some c → Written v c
  kept : ∀ k c, db.servicesSettings.lookup k = some c → c.method = .autoconf →
    ¬ Gone config db k.1 → vanished config (serviceRowKey k) k.2.2 = false
  globals : ∀ s ∈ db.settings.all, s.id ≠ "SERVER_NAME" → ∀ n v,
    (popped (autoconfCall config)).lookup (suffixedKey s.id n) = some v →
      (∃ c, db.globalValues.lookup (s.id, n) = some c ∧ Written v c) ∨
        db.globalValues.lookup (s.id, n) = none ∧
          globalIsDefault (autoconfCall config) db s n v = true
  keptGlobals : ∀ s ∈ db.settings.all, s.id ≠ "SERVER_NAME" → ∀ n c,
    db.globalValues.lookup (s.id, n) = some c → c.method = .autoconf →
      vanished config (suffixedKey s.id n) n = false

section

variable {env : Env} {config config' : Dict String String} {db db' : Database} {plan : Plan}
  {away : Option String} {k : ServiceKey} {c : Cell} {s : Setting} {n : Nat} {v t r key : String}

/-! ## The services of a save -/

/-- A service of `autoconf` stays one. -/
theorem own_after (h : Commits env (autoconfCall config) db plan db')
    (hm : IsMultisite (autoconfCall config)) (hown : Own db t) : Own db' t :=
  ⟨_, service_own h hm hown, rfl⟩

/-- What a service after a save was before: one of `autoconf`, one of another method, or new. -/
theorem service_cases (h : Commits env (autoconfCall config) db plan db')
    (hm : IsMultisite (autoconfCall config)) {sv : Db.Service}
    (hsv : db'.services.lookup t = some sv) :
    sv = saved config t ∧ (Own db t ∨ db.services.lookup t = none ∧ t ∈ serverNames config) ∨
      db.services.lookup t = some sv ∧ sv.method ≠ .autoconf := by
  cases hold : db.services.lookup t with
  | none =>
    obtain ⟨hnamed, rfl⟩ := service_new h hm hold hsv
    exact .inl ⟨rfl, .inr ⟨rfl, hnamed⟩⟩
  | some sv₀ =>
    by_cases hown : sv₀.method = .autoconf
    · rw [service_own h hm ⟨sv₀, hold, hown⟩] at hsv
      exact .inl ⟨(Option.some.inj hsv).symm, .inl ⟨sv₀, hold, hown⟩⟩
    · rw [service_other h hm hold hown] at hsv
      obtain rfl := Option.some.inj hsv
      exact .inr ⟨rfl, hown⟩

/-- A service of `autoconf` that the configuration does not name was there before. -/
theorem own_of_after (h : Commits env (autoconfCall config) db plan db')
    (hm : IsMultisite (autoconfCall config)) (hown : Own db' t) (hnot : t ∉ serverNames config) :
    Own db t := by
  obtain ⟨sv, hsv, hmethod⟩ := hown
  rcases service_cases h hm hsv with ⟨-, hown | ⟨-, hnamed⟩⟩ | ⟨-, hother⟩
  · exact hown
  · exact absurd hnamed hnot
  · exact absurd hmethod hother

/-- Beside those that the configuration names, the services that a later save has keys for are ones
of other methods that are no drafts. -/
theorem known_before (h : Commits env (autoconfCall config) db plan db')
    (hm : IsMultisite (autoconfCall config)) (ht : t ∈ servicesSet (autoconfCall config) db') :
    t ∈ servicesSet (autoconfCall config) db ∧ ¬ Gone config db t := by
  rw [mem_servicesSet_iff] at ht ⊢
  by_cases hnamed : t ∈ serverNames config
  · exact ⟨.inl hnamed, fun hgone => hgone.2 hnamed⟩
  · obtain ⟨sv, hsv, hdraft⟩ := ht.resolve_left hnamed
    rcases service_cases h hm hsv with ⟨rfl, -⟩ | ⟨hold, hother⟩
    · simp [saved, hnamed] at hdraft
    · refine ⟨.inr ⟨sv, hold, hdraft⟩, ?_⟩
      rintro ⟨⟨sv', hsv', hown⟩, -⟩
      refine hother ?_
      rwa [Option.some.inj (hold.symm.trans hsv')]

/-! ## Two configurations -/

theorem apart_row (hinst : Installed db) (haway : ∀ t ∈ away, Separate db.settings t)
    (hsep : Separate db.settings t) (ht : t ∉ away) (r : String) : Apart away (joinKey t r) := by
  refine ⟨fun he => ?_, fun u hu r' he => ?_⟩
  · obtain ⟨s, hs, hid⟩ := hinst.serverName
    refine hsep.ne_joinKey hs 0 r ?_
    rw [suffixedKey_zero, hid, he]
  · obtain ⟨rfl, -⟩ := hsep.joinKey_inj (haway u hu) he
    exact ht hu

theorem apart_setting (hinst : Installed db) (haway : ∀ t ∈ away, Separate db.settings t)
    (hs : s ∈ db.settings.all) (hne : s.id ≠ "SERVER_NAME") (n : Nat) :
    Apart away (suffixedKey s.id n) :=
  ⟨serverName_ne hinst hs hne n, fun t ht r => (haway t ht).ne_joinKey hs n r⟩

theorem apart_zero (haway : ∀ t ∈ away, Separate db.settings t) (hs : s ∈ db.settings.all) :
    Apart away (joinKey s.id "0") := by
  refine ⟨fun he => ?_, fun t ht r => joinKey_ne_joinKey (haway t ht).noUnderscore
    ((haway t ht).notSetting s hs) ((haway t ht).notPrefix s hs) _ r⟩
  have hsplit := congrArg splitKey he
  rw [show "0" = toString 0 from rfl, splitKey_toString (db.settings.ne_empty s hs),
    splitKey_of_none (by decide)] at hsplit
  have hid : s.id = "SERVER_NAME" := (Prod.mk.inj hsplit).1
  rw [hid] at he
  exact absurd he (by decide)

theorem Leaves.popped (hl : Leaves away config config') (hkey : Apart away key) :
    (Db.popped (autoconfCall config')).lookup key =
      (Db.popped (autoconfCall config)).lookup key := by
  have hkeys : key ∈ poppedKeys (autoconfCall config') ↔
      key ∈ poppedKeys (autoconfCall config) := by
    show key ∈ "DATABASE_URI" :: (serverNames config').map (joinKey · "IS_DRAFT") ↔
      key ∈ "DATABASE_URI" :: (serverNames config).map (joinKey · "IS_DRAFT")
    rw [List.mem_cons, List.mem_cons, List.mem_map, List.mem_map]
    refine or_congr_right ⟨?_, ?_⟩
    · rintro ⟨t, ht, rfl⟩
      exact ⟨t, ((hl.names t).mp ht).1, rfl⟩
    · rintro ⟨t, ht, rfl⟩
      exact ⟨t, (hl.names t).mpr ⟨ht, fun hmem => hkey.2 t hmem _ rfl⟩, rfl⟩
  rw [lookup_popped, lookup_popped]
  simp only [hkeys]
  split
  · rfl
  · exact hl.others key hkey

theorem Leaves.popped_away (hl : Leaves away config config') (ht : t ∈ away) :
    (Db.popped (autoconfCall config')).lookup (joinKey t r) = none := by
  rw [lookup_popped]
  split
  · rfl
  · exact hl.left t ht r

theorem Leaves.vanished (hl : Leaves away config config') (hkey : Apart away key)
    (hzero : Apart away (joinKey key "0")) (n : Nat) :
    vanished config' key n = Db.vanished config key n := by
  rw [Db.vanished, Db.vanished, hl.others key hkey, hl.others _ hzero]

theorem Leaves.vanished_row (hl : Leaves away config config') (hinst : Installed db)
    (haway : ∀ t ∈ away, Separate db.settings t) (hsep : Separate db.settings k.1)
    (hk : k.1 ∉ away) :
    Db.vanished config' (serviceRowKey k) k.2.2 = Db.vanished config (serviceRowKey k) k.2.2 := by
  refine hl.vanished (apart_row hinst haway hsep hk _) ?_ _
  show Apart away (joinKey (joinKey k.1 _) "0")
  rw [joinKey_assoc]
  exact apart_row hinst haway hsep hk _

theorem Leaves.vanished_global (hl : Leaves away config config') (hinst : Installed db)
    (haway : ∀ t ∈ away, Separate db.settings t) (hs : s ∈ db.settings.all)
    (hne : s.id ≠ "SERVER_NAME") (n : Nat) :
    Db.vanished config' (suffixedKey s.id n) n = Db.vanished config (suffixedKey s.id n) n := by
  rcases Nat.eq_zero_or_pos n with rfl | hpos
  · rw [suffixedKey_zero]
    refine hl.vanished ?_ (apart_zero haway hs) 0
    rw [← suffixedKey_zero s.id]
    exact apart_setting hinst haway hs hne 0
  · have hn : (n != 0) = true := by simpa using Nat.ne_of_gt hpos
    rw [Db.vanished, Db.vanished, hn, hl.others _ (apart_setting hinst haway hs hne n)]
    rfl

/-- A key that names a setting is not one of a service. -/
theorem not_line_of_separate {l : Line} {config : List (String × String)}
    (hsep : Separate db.settings t) (hl : l ∈ lines db.settings config)
    (hkey : l.originalKey = joinKey t r) : False := by
  obtain ⟨-, hfind, hsplit⟩ := mem_lines.mp hl
  have hs := (Catalog.find_eq_some.mp hfind).1
  have hid : (splitKey (joinKey t r)).1 = l.setting.id := by rw [← hkey, hsplit]
  rcases splitKey_fst_joinKey hsep.noUnderscore r with he | ⟨rest, he⟩
  · exact hsep.notSetting _ hs (hid.symm.trans he)
  · exact hsep.notPrefix _ hs rest (hid.symm.trans he)

/-- Names and keys stay in order where the later save knows no other services. -/
theorem Leaves.wellNamed (hl : Leaves away config config') (hinst : Installed db)
    (hw : WellNamed (autoconfCall config) db) (haway : ∀ t ∈ away, Separate db.settings t)
    (hsettings : db'.settings = db.settings)
    (hservices : ∀ t, (db'.services.lookup t).isSome →
      t ∈ serverNames config ∨ (db.services.lookup t).isSome)
    (hset : ∀ t ∈ servicesSet (autoconfCall config') db',
      t ∈ servicesSet (autoconfCall config) db) : WellNamed (autoconfCall config') db' := by
  have hnone : ∀ t ∈ away, ∀ r v, (Db.popped (autoconfCall config')).lookup (joinKey t r) ≠ some v :=
    fun t ht r v h => by
      rw [hl.popped_away ht] at h
      cases h
  constructor
  · intro id hid
    rw [hsettings]
    refine hw.services id ?_
    rcases hid with hid | hid
    · exact .inl ((hl.names id).mp hid).1
    · exact hservices id hid
  · rw [hsettings]
    intro l hline
    obtain ⟨hitem, hfind, hsplit⟩ := mem_lines.mp hline
    obtain ⟨hlookup, -⟩ := mem_globalConfig.mp hitem
    by_cases hserver : l.originalKey = "SERVER_NAME"
    · rw [hserver, splitKey_of_none (by decide)] at hsplit
      obtain ⟨hid, hsuffix⟩ := Prod.mk.inj hsplit
      exact ⟨by rw [hserver, ← hid, ← hsuffix, suffixedKey_zero], fun hpos => by omega⟩
    · have hapart : Apart away l.originalKey := ⟨hserver, fun t ht r he =>
        hnone t ht r l.value (he ▸ hlookup)⟩
      rw [hl.popped hapart] at hlookup
      refine hw.globals l (mem_lines.mpr ⟨mem_globalConfig.mpr ⟨hlookup, ?_⟩, hfind, hsplit⟩)
      exact firstService_eq_none.mpr fun t ht r he =>
        not_line_of_separate (hw.separate ht) hline he
  · rw [hsettings]
    intro t ht l hline
    obtain ⟨hitem, hfind, hsplit⟩ := mem_lines.mp hline
    obtain ⟨hlookup, -⟩ := mem_serviceConfig.mp hitem
    have hknown := hset t ht
    have hout : t ∉ away := fun hmem => hnone t hmem _ l.value hlookup
    rw [hl.popped (apart_row hinst haway (hw.separate hknown) hout _)] at hlookup
    exact hw.rows t hknown l (mem_lines.mpr
      ⟨mem_serviceConfig.mpr ⟨hlookup, hw.firstService_joinKey hknown _⟩, hfind, hsplit⟩)

/-- The two configurations have the same values for the rows of the other services. -/
theorem Leaves.given (hl : Leaves away config config') (hinst : Installed db)
    (hw : WellNamed (autoconfCall config) db) (haway : ∀ t ∈ away, Separate db.settings t)
    (hk : k.1 ∉ away) : given config' db k = Saving.given config db k := by
  have hset : k.1 ∈ servicesSet (autoconfCall config') db ↔
      k.1 ∈ servicesSet (autoconfCall config) db := by
    rw [mem_servicesSet_iff, mem_servicesSet_iff, hl.names, and_iff_left hk]
  unfold Saving.given
  simp only [hset]
  split
  next h =>
    exact hl.popped (apart_row hinst haway (hw.separate h.1) hk _)
  next => rfl

theorem Leaves.given_away (hl : Leaves away config config') (hk : k.1 ∈ away) :
    Saving.given config' db k = none := by
  unfold Saving.given
  split
  · exact hl.popped_away hk
  · rfl

theorem Leaves.rowIsDefault (hl : Leaves away config config') (hinst : Installed db)
    (haway : ∀ t ∈ away, Separate db.settings t) (hs : s ∈ db.settings.all)
    (hsep : Separate db.settings t) (ht : t ∉ away) :
    rowIsDefault (autoconfCall config') db t s n v =
      Db.rowIsDefault (autoconfCall config) db t s n v := by
  have htemplate : namedTemplateValue (autoconfCall config') db t s n =
      namedTemplateValue (autoconfCall config) db t s n := by
    unfold namedTemplateValue
    rw [hl.popped (apart_row hinst haway hsep ht _)]
  unfold Db.rowIsDefault
  rw [htemplate]
  exact checkValue_congr fun hne m => ⟨hl.popped (apart_setting hinst haway hs hne m), rfl⟩

theorem Leaves.globalIsDefault (hl : Leaves away config config') (hinst : Installed db)
    (haway : ∀ t ∈ away, Separate db.settings t) (hs : s ∈ db.settings.all) :
    globalIsDefault (autoconfCall config') db s n v =
      Db.globalIsDefault (autoconfCall config) db s n v :=
  checkValue_congr fun hne m => ⟨hl.popped (apart_setting hinst haway hs hne m), rfl⟩

/-- A configuration that leaves a service out stays multisite. -/
theorem Leaves.isMultisite (hl : Leaves away config config') (hinst : Installed db)
    (haway : ∀ t ∈ away, Separate db.settings t) (hm : IsMultisite (autoconfCall config)) :
    IsMultisite (autoconfCall config') := by
  obtain ⟨s, hs, hid, -⟩ := hinst.multisite
  have hapart := apart_setting hinst haway hs (by rw [hid]; decide) 0
  rw [suffixedKey_zero, hid] at hapart
  have hyes := (hl.popped hapart).trans hm.lookup_multisite
  refine ⟨?_, rfl, by rw [hyes]; rfl⟩
  have hmem := Dict.mem_items.mpr (lookup_of_popped hyes)
  exact List.isEmpty_eq_false_iff.mpr (List.ne_nil_of_mem hmem)

/-! ## The first save -/

theorem mem_of_known_after (hl : Leaves away config config')
    (h : Commits env (autoconfCall config') db plan db') (hm : IsMultisite (autoconfCall config'))
    (ht : t ∈ servicesSet (autoconfCall config) db') :
    t ∈ servicesSet (autoconfCall config) db := by
  rw [mem_servicesSet_iff] at ht ⊢
  refine or_iff_not_imp_left.mpr fun hnot => ?_
  obtain ⟨sv, hsv, hdraft⟩ := ht.resolve_left hnot
  rcases service_cases h hm hsv with ⟨rfl, -⟩ | ⟨hold, -⟩
  · have hnot' : t ∉ serverNames config' := fun hmem => hnot ((hl.names t).mp hmem).1
    simp [saved, hnot'] at hdraft
  · exact ⟨sv, hold, hdraft⟩

/-- Names and keys stay in order. -/
theorem Leaves.wellNamed_after (hl : Leaves away config config')
    (h : Commits env (autoconfCall config') db plan db') (hm : IsMultisite (autoconfCall config'))
    (hinst : Installed db) (hw : WellNamed (autoconfCall config) db) :
    WellNamed (autoconfCall config) db' := by
  refine (Leaves.refl config).wellNamed hinst hw nofun (h.settings_eq hm) (fun t ht => ?_)
    fun t ht => mem_of_known_after hl h hm ht
  obtain ⟨sv, hsv⟩ := Option.isSome_iff_exists.mp ht
  rcases service_cases h hm hsv with ⟨-, ⟨sv', hsv', -⟩ | ⟨-, hnamed⟩⟩ | ⟨hold, -⟩
  · exact .inr (by rw [hsv']; rfl)
  · exact .inl ((hl.names t).mp hnamed).1
  · exact .inr (by rw [hold]; rfl)

/-- A global value counts as a default in the same way before and after a save that leaves the
unnumbered one alone. -/
theorem globalIsDefault_after (hr : Readable db) (hr' : Readable db')
    (hsettings : db'.settings = db.settings) (hs : s ∈ db.settings.all)
    (h : globalIsDefault (autoconfCall config) db s n v = true)
    (hzero : (popped (autoconfCall config)).lookup s.id = none →
      db.globalValues.lookup (s.id, 0) = none → db'.globalValues.lookup (s.id, 0) = none) :
    globalIsDefault (autoconfCall config) db' s n v = true := by
  unfold globalIsDefault checkValue at h ⊢
  split at h
  · cases h
  · rename_i hne
    have hold := lookup_dbConfigOf config hr hs hne 0
    have hnew := lookup_dbConfigOf config hr' (hsettings ▸ hs) hne 0
    rw [suffixedKey_zero] at hold hnew
    rw [if_neg hne]
    simp only [isDefaultValue, Bool.true_and, hold] at h
    simp only [isDefaultValue, Bool.true_and, hnew]
    split at h
    next hcond =>
      rw [if_pos ?_]
      · exact h
      · rcases Bool.or_eq_true_iff.mp hcond with hn | hnone
        · rw [hn, Bool.true_or]
        · obtain ⟨hc, hd⟩ := Bool.and_eq_true_iff.mp hnone
          rw [Option.isNone_map, Option.isNone_iff_eq_none] at hd
          rw [hc, hzero (Option.isNone_iff_eq_none.mp hc) hd]
          simp
    next => cases h

/-- The services that no configuration names are drafts. -/
theorem draft_of_gone (h : Commits env (autoconfCall config') db plan db')
    (hm : IsMultisite (autoconfCall config')) (hown : Own db' t) (hnot : t ∉ serverNames config')
    {sv : Db.Service} (hsv : db'.services.lookup t = some sv) : sv.isDraft = true := by
  rw [service_own h hm (own_of_after h hm hown hnot)] at hsv
  rw [← Option.some.inj hsv]
  exact decide_eq_true (.inl hnot)

theorem gone_after (h : Commits env (autoconfCall config') db plan db')
    (hm : IsMultisite (autoconfCall config')) (hgone : Gone config db t) : Gone config db' t :=
  ⟨own_after h hm hgone.1, hgone.2⟩

/-- A row that no line is about is one that was there and that the clean-up leaves. -/
theorem row_of_not_given (h : Commits env (autoconfCall config) db plan db')
    (hm : IsMultisite (autoconfCall config)) (hw : WellNamed (autoconfCall config) db)
    (hnone : given config db k = none) :
    db'.servicesSettings.lookup k =
      if k ∈ serviceRowsToDelete (autoconfCall config) db then none
      else db.servicesSettings.lookup k := by
  refine row_of_unchanged h hm fun ch hch => ?_
  obtain ⟨v, hv⟩ := given_of_change h hm hw hch
  rw [hnone] at hv
  cases hv

/-- The tables fit a configuration that has been saved. -/
theorem settled_of_save (h : Commits env (autoconfCall config) db plan db')
    (hm : IsMultisite (autoconfCall config)) (hsm : Smooth env) (hr : Readable db)
    (hw : WellNamed (autoconfCall config) db) : Settled config db' := by
  have hinst := hr.installed
  have hsettings : db'.settings = db.settings := h.settings_eq hm
  have hr' : Readable db' := h.readable hm hw hr
  refine
    { readable := hr'
      named := (Leaves.refl config).wellNamed_after h hm hinst hw
      gone := fun t hgone sv hsv => draft_of_gone h hm hgone.1 hgone.2 hsv
      rows := ?_
      kept := ?_
      globals := ?_
      keptGlobals := ?_ }
  · rintro ⟨t, id, n⟩ v c hv hc
    obtain ⟨hset, s, hs, rfl⟩ := setting_of_given hv
    obtain ⟨hset, hgone⟩ := known_before h hm hset
    rw [hsettings] at hs
    have hv : given config db (t, s.id, n) = some v :=
      (given_eq_some hs).mpr ⟨hset, ((given_eq_some (hsettings ▸ hs)).mp hv).2⟩
    rcases row_of_given h hm hsm hw hinst hs hv hgone with ⟨c', hc', hwritten⟩ | ⟨hnone, -⟩
    · rw [hc] at hc'
      rwa [Option.some.inj hc']
    · rw [hc] at hnone
      cases hnone
  · intro k c hc hmethod hgone
    cases hv : given config db k with
    | some v => exact not_vanished (lookup_of_given hv)
    | none =>
      rw [row_of_not_given h hm hw hv] at hc
      split at hc
      · cases hc
      · rename_i hkept
        have hstays : ¬ Gone config db k.1 := fun hg => hgone (gone_after h hm hg)
        exact Bool.eq_false_iff.mpr fun hvanished =>
          hkept (mem_rowsToDelete.mpr ⟨⟨c, hc, hmethod⟩, hstays, hvanished⟩)
  · intro s hs hne n v hv
    rw [hsettings] at hs
    rcases global_of_given h hm hsm hw hinst hs hv with hwritten | ⟨hnone, hdefault⟩
    · exact .inl hwritten
    · refine .inr ⟨hnone, globalIsDefault_after hr hr' hsettings hs hdefault fun hzero hold => ?_⟩
      rw [← suffixedKey_zero s.id] at hzero
      rw [global_of_unnamed h hm hw hinst hs hzero, hold, ite_self]
  · intro s hs hne n c hc hmethod
    rw [hsettings] at hs
    cases hv : (popped (autoconfCall config)).lookup (suffixedKey s.id n) with
    | some v =>
      have hgiven : config.lookup (suffixedKey s.id n) = some v := lookup_of_popped hv
      rw [vanished, hgiven]
      rfl
    | none =>
      rw [global_of_unnamed h hm hw hinst hs hv] at hc
      split at hc
      · cases hc
      · rename_i hkept
        exact Bool.eq_false_iff.mpr fun hvanished =>
          hkept (mem_globalsToDelete.mpr ⟨⟨c, hc, hmethod⟩, hvanished⟩)

/-! ## A later save -/

section

variable (hl : Leaves away config config') (h : Commits env (autoconfCall config') db plan db')
  (hm : IsMultisite (autoconfCall config)) (hsm : Smooth env) (hset : Settled config db)
  (haway : ∀ t ∈ away, t ∈ serverNames config)

include hset haway in
theorem Settled.separate : ∀ t ∈ away, Separate db.settings t :=
  fun t ht => hset.named.services t (.inl (haway t ht))

include hl hset haway in
theorem Settled.wellNamed : WellNamed (autoconfCall config') db := by
  refine hl.wellNamed hset.readable.installed hset.named (hset.separate haway) rfl
    (fun t ht => .inr ht) fun t ht => ?_
  rw [mem_servicesSet_iff] at ht ⊢
  exact ht.imp_left fun hnamed => ((hl.names t).mp hnamed).1

include hl hm hset haway in
theorem Settled.isMultisite : IsMultisite (autoconfCall config') :=
  hl.isMultisite hset.readable.installed (hset.separate haway) hm

/-- A service that is gone has no keys. -/
theorem Settled.given_of_gone (hset : Settled config db) (hgone : Gone config db k.1) :
    given config db k = none := by
  refine Option.eq_none_iff_forall_ne_some.mpr fun v hv => ?_
  obtain ⟨hknown, -⟩ := setting_of_given hv
  rw [mem_servicesSet_iff] at hknown
  obtain ⟨sv, hsv, hdraft⟩ := hknown.resolve_left hgone.2
  rw [hset.gone k.1 hgone sv hsv] at hdraft
  cases hdraft

theorem Leaves.gone_iff (hl : Leaves away config config') (ht : t ∉ away) :
    Gone config' db t ↔ Gone config db t :=
  and_congr_right fun _ => not_congr ((hl.names t).trans (and_iff_left ht))

include hl h hm hsm hset haway in
/-- No global value changes. -/
theorem Settled.global_same (hs : s ∈ db.settings.all) (hne : s.id ≠ "SERVER_NAME") :
    db'.globalValues.lookup (s.id, n) = db.globalValues.lookup (s.id, n) := by
  have hinst := hset.readable.installed
  have hsep := hset.separate haway
  have hm' := hset.isMultisite hl hm haway
  have hw' := hset.wellNamed hl haway
  have hsame := hl.popped (apart_setting hinst hsep hs hne n)
  cases hv : (popped (autoconfCall config)).lookup (suffixedKey s.id n) with
  | some v =>
    refine global_of_settled h hm' hsm hw' hinst hs (hsame.trans hv) ?_
    rw [hl.globalIsDefault hinst hsep hs]
    exact hset.globals s hs hne n v hv
  | none =>
    rw [global_of_unnamed h hm' hw' hinst hs (hsame.trans hv), if_neg fun hmem => ?_]
    obtain ⟨⟨c, hc, hmethod⟩, hvanished⟩ := mem_globalsToDelete.mp hmem
    have hkept := hset.keptGlobals s hs hne n c hc hmethod
    rw [← hl.vanished_global hinst hsep hs hne n] at hkept
    rw [show vanished config' (suffixedKey s.id n) n = true from hvanished] at hkept
    cases hkept

include hl h hm hset haway in
/-- A row of a service that is left out stays, since its service becomes a draft. -/
theorem Settled.row_away (hk : k.1 ∈ away) (hown : Own db k.1) :
    db'.servicesSettings.lookup k = db.servicesSettings.lookup k := by
  have hgone : Gone config' db k.1 := ⟨hown, fun hmem => ((hl.names k.1).mp hmem).2 hk⟩
  rw [row_of_not_given h (hset.isMultisite hl hm haway) (hset.wellNamed hl haway)
    (hl.given_away hk), if_neg fun hmem => (mem_rowsToDelete.mp hmem).2.1 hgone]

include hl h hm hsm hset haway in
/-- A row stays. -/
theorem Settled.row_stays (hk : k.1 ∉ away) (hsep : Separate db.settings k.1)
    (hc : db.servicesSettings.lookup k = some c) : db'.servicesSettings.lookup k = some c := by
  have hinst := hset.readable.installed
  have hm' := hset.isMultisite hl hm haway
  have hw' := hset.wellNamed hl haway
  have hsame := hl.given hinst hset.named (hset.separate haway) hk
  cases hv : given config db k with
  | some v =>
    obtain ⟨t, id, n⟩ := k
    obtain ⟨-, s, hs, rfl⟩ := setting_of_given hv
    refine row_of_written h hm' hsm hw' hinst hs (hsame.trans hv) (fun hgone => ?_) hc
      (hset.rows _ v c hv hc)
    rw [hset.given_of_gone ((hl.gone_iff hk).mp hgone)] at hv
    cases hv
  | none =>
    rw [row_of_not_given h hm' hw' (hsame.trans hv), if_neg fun hmem => ?_]
    · exact hc
    · obtain ⟨⟨c', hc', hmethod⟩, hgone, hvanished⟩ := mem_rowsToDelete.mp hmem
      have hkept := hset.kept k c' hc' hmethod fun hg => hgone ((hl.gone_iff hk).mpr hg)
      rw [← hl.vanished_row hinst (hset.separate haway) hsep hk, hvanished] at hkept
      cases hkept

include hl h hm hsm hset haway in
/-- A row that is not there is put only if the value is no default. -/
theorem Settled.row_missing (hk : k.1 ∉ away) (hc : db.servicesSettings.lookup k = none) :
    db'.servicesSettings.lookup k = none ↔ ∀ s ∈ db.settings.all, s.id = k.2.1 → ∀ v,
      given config db k = some v →
        rowIsDefault (autoconfCall config) db k.1 s k.2.2 v = true := by
  have hinst := hset.readable.installed
  have hm' := hset.isMultisite hl hm haway
  have hw' := hset.wellNamed hl haway
  have hsame := hl.given hinst hset.named (hset.separate haway) hk
  cases hv : given config db k with
  | none =>
    rw [row_of_not_given h hm' hw' (hsame.trans hv), hc, ite_self]
    refine ⟨fun _ _ _ _ v hv => ?_, fun _ => rfl⟩
    cases hv
  | some v =>
    obtain ⟨t, id, n⟩ := k
    obtain ⟨hknown, s, hs, rfl⟩ := setting_of_given hv
    have hgone : ¬ Gone config' db t := fun hgone => by
      rw [hset.given_of_gone ((hl.gone_iff hk).mp hgone)] at hv
      cases hv
    rw [row_of_missing h hm' hsm hw' hinst hs (hsame.trans hv) hgone hc,
      hl.rowIsDefault hinst (hset.separate haway) hs (hset.named.separate hknown) hk]
    constructor
    · intro hdefault s' hs' hid v' hv'
      obtain rfl := db.settings.eq_of_id hs' hs hid
      obtain rfl := Option.some.inj hv'
      exact hdefault
    · exact fun hall => hall s hs rfl v rfl

include hl h hm hsm hset haway in
/-- The tables still fit. -/
theorem Settled.save (hown : ∀ t ∈ away, Own db t) : Settled config db' := by
  have hinst := hset.readable.installed
  have hm' := hset.isMultisite hl hm haway
  have hw' := hset.wellNamed hl haway
  have hsettings : db'.settings = db.settings := h.settings_eq hm'
  have hr' : Readable db' := h.readable hm' hw' hset.readable
  refine
    { readable := hr'
      named := hl.wellNamed_after h hm' hinst hset.named
      gone := fun t hgone sv hsv =>
        draft_of_gone h hm' hgone.1 (fun hmem => hgone.2 ((hl.names t).mp hmem).1) hsv
      rows := ?_
      kept := ?_
      globals := ?_
      keptGlobals := ?_ }
  · rintro ⟨t, id, n⟩ v c hv hc
    obtain ⟨hknown, s, hs, rfl⟩ := setting_of_given hv
    rw [hsettings] at hs
    have hv : given config db (t, s.id, n) = some v :=
      (given_eq_some hs).mpr ⟨mem_of_known_after hl h hm' hknown,
        ((given_eq_some (hsettings ▸ hs)).mp hv).2⟩
    by_cases ht : t ∈ away
    · rw [hset.row_away hl h hm haway ht (hown t ht)] at hc
      exact hset.rows _ v c hv hc
    · have hgiven : given config' db (t, s.id, n) = some v :=
        (hl.given hinst hset.named (hset.separate haway) ht).trans hv
      have hgone : ¬ Gone config' db t := fun hgone => by
        rw [hset.given_of_gone ((hl.gone_iff ht).mp hgone)] at hv
        cases hv
      cases hold : db.servicesSettings.lookup (t, s.id, n) with
      | some c₀ =>
        have hsep : Separate db.settings t := hset.named.separate (setting_of_given hv).1
        rw [hset.row_stays hl h hm hsm haway ht hsep hold] at hc
        exact hset.rows _ v c hv (hold.trans hc)
      | none =>
        rcases row_of_given h hm' hsm hw' hinst hs hgiven hgone with ⟨c', hc', hwritten⟩ | ⟨hnone, -⟩
        · rw [hc] at hc'
          rwa [Option.some.inj hc']
        · rw [hc] at hnone
          cases hnone
  · intro k c hc hmethod hgone
    have hbefore : ¬ Gone config db k.1 := fun hg => hgone (gone_after h hm' hg)
    by_cases hk : k.1 ∈ away
    · rw [hset.row_away hl h hm haway hk (hown k.1 hk)] at hc
      exact hset.kept k c hc hmethod hbefore
    · cases hv : given config' db k with
      | some v =>
        rw [hl.given hinst hset.named (hset.separate haway) hk] at hv
        exact not_vanished (lookup_of_given hv)
      | none =>
        rw [row_of_not_given h hm' hw' hv] at hc
        split at hc
        · cases hc
        · exact hset.kept k c hc hmethod hbefore
  · intro s hs hne n v hv
    rw [hsettings] at hs
    have hsame : ∀ n, db'.globalValues.lookup (s.id, n) = db.globalValues.lookup (s.id, n) :=
      fun n => hset.global_same hl h hm hsm haway hs hne
    rw [hsame]
    refine (hset.globals s hs hne n v hv).imp_right fun ⟨hnone, hdefault⟩ => ⟨hnone, ?_⟩
    exact globalIsDefault_after hset.readable hr' hsettings hs hdefault fun _ hold =>
      (hsame 0).trans hold
  · intro s hs hne n c hc hmethod
    rw [hsettings] at hs
    rw [hset.global_same hl h hm hsm haway hs hne] at hc
    exact hset.keptGlobals s hs hne n c hc hmethod

end

end

end BunkerWeb.Autoconf.Saving
