import BunkerWeb.Db.Stands

/-!
# What a save of `autoconf` leaves

With `disable_cleanup` a save deletes no service: those of `autoconf` that the configuration does not
name become drafts (`Gone`), and keep their rows.

- **The services** (`service_own`, `service_other`, `service_new`).
- **The rows** (`row_of_unchanged`, `row_of_given`, `row_of_written`, `row_of_missing`): what a save
  makes of a row by the value that its configuration has for it (`given`).
- **The global values** (`global_of_unnamed`, `global_of_given`, `global_of_settled`).
- **The defaults** (`checkValue_congr`, `lookup_dbConfigOf`): what the comparison with a default
  depends on.
-/

namespace BunkerWeb.Autoconf.Saving

open Lib Db

/-- `save_config(config, "autoconf", changed=False, disable_cleanup=True)`. -/
def autoconfCall (config : Dict String String) : Call where
  config
  method := .autoconf
  changed := false
  fileNames := ∅
  skipServiceManagement := false
  disableCleanup := true
  explicitKeys := []

/-- The service belongs to `autoconf`. -/
def Own (db : Database) (id : String) : Prop :=
  ∃ sv, db.services.lookup id = some sv ∧ sv.method = .autoconf

/-- A service of `autoconf` that the configuration does not name. -/
def Gone (config : Dict String String) (db : Database) (id : String) : Prop :=
  Own db id ∧ id ∉ serverNames config

/-- The configuration asks for the service as a draft. -/
def Flagged (config : Dict String String) (id : String) : Prop :=
  (config.lookup (joinKey id "IS_DRAFT")).getD "no" = "yes"

instance (config : Dict String String) (id : String) : Decidable (Flagged config id) :=
  inferInstanceAs (Decidable (_ = _))

/-- A service of `autoconf` after a save. -/
def saved (config : Dict String String) (id : String) : Db.Service :=
  ⟨.autoconf, decide (id ∉ serverNames config ∨ Flagged config id)⟩

section

variable {env : Env} {config : Dict String String} {db db' : Database} {plan : Plan}
  {missing : List String} {id : String} {sv : Db.Service}

theorem owns_autoconf {m : Method} : owns .autoconf m = true ↔ m = .autoconf := by
  cases m <;> decide

theorem mem_owned :
    id ∈ (db.services.items.filter fun s => owns .autoconf s.2.method).map Prod.fst ↔
      Own db id := by
  rw [List.mem_map]
  constructor
  · rintro ⟨⟨id', sv⟩, hmem, rfl⟩
    obtain ⟨hitem, howns⟩ := List.mem_filter.mp hmem
    exact ⟨sv, Dict.mem_items.mp hitem, owns_autoconf.mp howns⟩
  · rintro ⟨sv, hsv, hown⟩
    exact ⟨(id, sv), List.mem_filter.mpr ⟨Dict.mem_items.mpr hsv, owns_autoconf.mpr hown⟩, rfl⟩

/-! ## The plan for the services -/

theorem mem_missing (h : missingIds (autoconfCall config) db = some missing) :
    id ∈ missing ↔ Gone config db id := by
  unfold missingIds at h
  simp only at h
  split at h
  · rename_i hempty
    split at h
    · cases h
      have hnames : serverNames config = [] := hempty.1
      rw [Gone, hnames]
      exact mem_owned.trans (and_iff_left List.not_mem_nil).symm
    · cases h
  · cases h
    rw [List.mem_filter, Bool.not_eq_true', List.contains_eq_mem, decide_eq_false_iff_not]
    exact and_congr_left fun _ => mem_owned

theorem mem_draftable (h : missingIds (autoconfCall config) db = some missing) :
    id ∈ (servicePlan (autoconfCall config) db missing).draftable ↔ Gone config db id := by
  have hdraftable : (servicePlan (autoconfCall config) db missing).draftable =
      missing.filter fun id => (db.services.lookup id).any (·.method = .autoconf) := by
    have hcleanup : (autoconfCall config).disableCleanup = true ∧
        (autoconfCall config).method = .autoconf := ⟨rfl, rfl⟩
    simp only [servicePlan]
    rw [if_pos hcleanup]
  rw [hdraftable, List.mem_filter, mem_missing h, and_iff_left_iff_imp]
  rintro ⟨⟨sv, hsv, hown⟩, -⟩
  simp [hsv, hown]

theorem hardDelete_eq_nil (h : missingIds (autoconfCall config) db = some missing) :
    (servicePlan (autoconfCall config) db missing).hardDelete = [] := by
  refine List.filter_eq_nil_iff.mpr fun id hid => ?_
  have hmem := (mem_draftable h).mpr ((mem_missing h).mp hid)
  show ¬ (!(servicePlan (autoconfCall config) db missing).draftable.contains id) = true
  rw [List.contains_iff_mem.mpr hmem]
  exact Bool.false_ne_true

theorem mem_draftedServiceIds :
    id ∈ draftedServiceIds (autoconfCall config) db ↔ Gone config db id := by
  have hdrafted : draftedServiceIds (autoconfCall config) db =
      ((db.services.items.filter (·.2.method = .autoconf)).map Prod.fst).filter
        fun id => !(serverNames config).contains id := if_pos ⟨rfl, rfl, by simp [autoconfCall]⟩
  rw [hdrafted, List.mem_filter, Bool.not_eq_true', List.contains_eq_mem, decide_eq_false_iff_not,
    Gone, List.mem_map]
  refine and_congr_left fun _ => ?_
  constructor
  · rintro ⟨⟨id', sv⟩, hmem, rfl⟩
    obtain ⟨hitem, hown⟩ := List.mem_filter.mp hmem
    exact ⟨sv, Dict.mem_items.mp hitem, of_decide_eq_true hown⟩
  · rintro ⟨sv, hsv, hown⟩
    exact ⟨(id, sv), List.mem_filter.mpr ⟨Dict.mem_items.mpr hsv, decide_eq_true hown⟩, rfl⟩

/-- The services that the configuration asks for as drafts. -/
theorem mem_drafts_iff :
    id ∈ (servicePlan (autoconfCall config) db missing).drafts ↔
      id ∈ serverNames config ∧ Flagged config id :=
  mem_drafts missing

theorem mem_dbDrafts :
    id ∈ (db.services.items.filter (·.2.isDraft)).map Prod.fst ↔
      ∃ sv, db.services.lookup id = some sv ∧ sv.isDraft = true := by
  rw [List.mem_map]
  constructor
  · rintro ⟨⟨id', sv⟩, hmem, rfl⟩
    obtain ⟨hitem, hdraft⟩ := List.mem_filter.mp hmem
    exact ⟨sv, Dict.mem_items.mp hitem, hdraft⟩
  · rintro ⟨sv, hsv, hdraft⟩
    exact ⟨(id, sv), List.mem_filter.mpr ⟨Dict.mem_items.mpr hsv, hdraft⟩, rfl⟩

/-- Without a draft in the database no flag is taken away. -/
theorem mem_missingDrafts (h : missingIds (autoconfCall config) db = some missing) :
    id ∈ (servicePlan (autoconfCall config) db missing).missingDrafts ↔
      (db.services.items.filter (·.2.isDraft)).map Prod.fst ≠ [] ∧
        Own db id ∧ id ∈ serverNames config ∧ ¬ Flagged config id := by
  show (id ∈ if (db.services.items.filter (·.2.isDraft)).map Prod.fst = [] then []
    else ((db.services.items.filter fun s => owns .autoconf s.2.method).map Prod.fst).filter
      fun id => !(servicePlan (autoconfCall config) db missing).drafts.contains id &&
        !missing.contains id) ↔ _
  by_cases hnil : (db.services.items.filter (·.2.isDraft)).map Prod.fst = []
  · rw [if_pos hnil]
    simp [hnil]
  · rw [if_neg hnil, and_iff_right hnil, List.mem_filter, Bool.and_eq_true, Bool.not_eq_true',
      Bool.not_eq_true', List.contains_eq_mem, List.contains_eq_mem, decide_eq_false_iff_not,
      decide_eq_false_iff_not, mem_drafts_iff, mem_missing h, mem_owned, Gone]
    tauto

theorem mem_updatedDrafts :
    id ∈ (servicePlan (autoconfCall config) db missing).updatedDrafts ↔
      (id ∈ serverNames config ∧ Flagged config id) ∧
        ∃ sv, db.services.lookup id = some sv ∧ sv.method = .autoconf ∧ sv.isDraft = false := by
  show (id ∈ (servicePlan (autoconfCall config) db missing).drafts.filter fun id =>
    !((db.services.items.filter (·.2.isDraft)).map Prod.fst).contains id &&
      (db.services.lookup id).any fun s => owns .autoconf s.method) ↔ _
  rw [List.mem_filter, Bool.and_eq_true, Bool.not_eq_true', List.contains_eq_mem,
    decide_eq_false_iff_not, mem_dbDrafts]
  refine and_congr mem_drafts_iff ?_
  cases hsv : db.services.lookup id with
  | none => simp
  | some sv =>
    rw [Option.any_some, owns_autoconf]
    simp [and_comm]

/-! ## The services -/

/-- Updates of the flag leave the rest of a service. -/
theorem updateFor_isDraft (us : List (String × Bool)) (id : String) (sv : Db.Service) :
    Table.updateFor (fun isDraft s => { s with isDraft := isDraft }) us id sv =
      { sv with isDraft := Table.updateFor (fun isDraft _ => isDraft) us id sv.isDraft } := by
  unfold Table.updateFor
  induction us generalizing sv with
  | nil => rfl
  | cons u us ih =>
    rw [List.foldl_cons, List.foldl_cons, ih]
    split
    · rfl
    · rfl

/-- A service of the database after the commit. -/
theorem lookup_services (h : Commits env (autoconfCall config) db plan db')
    (hm : IsMultisite (autoconfCall config)) (hsv : db.services.lookup id = some sv) :
    ∃ missing, missingIds (autoconfCall config) db = some missing ∧
      db'.services.lookup id = some ⟨sv.method, Table.updateFor (fun isDraft _ => isDraft)
        ((servicePlan (autoconfCall config) db missing).updatedDrafts.map (·, true)) id
        (Table.updateFor (fun isDraft _ => isDraft)
          ((servicePlan (autoconfCall config) db missing).draftable.map (·, true) ++
            (servicePlan (autoconfCall config) db missing).missingDrafts.map (·, false)) id
          sv.isDraft)⟩ := by
  obtain ⟨missing, hmissing, hsession, hupdated⟩ := h.services_plan hm
  refine ⟨missing, hmissing, ?_⟩
  have hservices := (commitTables_eq_some h.tables).2.2.1
  rw [hupdated, hsession] at hservices
  have hkeep : (sessionOf db (servicePlan (autoconfCall config) db missing)).services.lookup id =
      some ⟨sv.method, Table.updateFor (fun isDraft _ => isDraft)
        ((servicePlan (autoconfCall config) db missing).draftable.map (·, true) ++
          (servicePlan (autoconfCall config) db missing).missingDrafts.map (·, false)) id
        sv.isDraft⟩ := by
    show (Table.deleteAll (Table.updateAll _ db.services _) _).lookup id = _
    rw [hardDelete_eq_nil hmissing, Table.lookup_deleteAll, if_neg List.not_mem_nil,
      Table.lookup_updateAll, hsv, Option.map_some, updateFor_isDraft]
  rw [(Table.lookup_putAll hservices id).1, Table.lookup_updateAll, hkeep, Option.map_some,
    Option.some_or, updateFor_isDraft]

theorem mem_map_flag {l : List String} {b b' : Bool} :
    (id, b) ∈ l.map (·, b') ↔ id ∈ l ∧ b = b' := by
  simp [eq_comm]

/-- Updates of a flag that all set it to `b'`. -/
theorem updateFor_flag {us : List (String × Bool)} {b b' : Bool} (h : ∀ u, (id, u) ∈ us → u = b')
    (hor : b = b' ∨ (id, b') ∈ us) :
    Table.updateFor (fun isDraft _ => isDraft) us id b = b' := by
  rcases hor with rfl | hmem
  · exact Table.updateFor_of_fixed _ h
  · exact Table.updateFor_prop (P := (· = b')) _ (fun u hu _ => h u hu) ⟨b', hmem⟩ b

/-- A service of `autoconf` is a draft if the configuration does not name it or asks for it. -/
theorem service_own (h : Commits env (autoconfCall config) db plan db')
    (hm : IsMultisite (autoconfCall config)) (hid : Own db id) :
    db'.services.lookup id = some (saved config id) := by
  obtain ⟨sv, hsv, hown⟩ := hid
  obtain ⟨missing, hmissing, hafter⟩ := lookup_services h hm hsv
  rw [hafter, saved, hown]
  congr 2
  by_cases hnamed : id ∈ serverNames config
  · have hdraftable : ∀ b, (id, b) ∉
        (servicePlan (autoconfCall config) db missing).draftable.map (·, true) := fun b hb =>
      ((mem_draftable hmissing).mp (mem_map_flag.mp hb).1).2 hnamed
    by_cases hflag : Flagged config id
    · rw [decide_eq_true (.inr hflag)]
      refine updateFor_flag (fun b hb => (mem_map_flag.mp hb).2) ?_
      rw [Table.updateFor_of_notMem _ fun b hb => ?_]
      · cases hdraft : sv.isDraft with
        | true => exact .inl rfl
        | false =>
          exact .inr (mem_map_flag.mpr
            ⟨mem_updatedDrafts.mpr ⟨⟨hnamed, hflag⟩, sv, hsv, hown, hdraft⟩, rfl⟩)
      · rcases List.mem_append.mp hb with hb | hb
        · exact hdraftable b hb
        · exact ((mem_missingDrafts hmissing).mp (mem_map_flag.mp hb).1).2.2.2 hflag
    · rw [decide_eq_false (not_or.mpr ⟨not_not.mpr hnamed, hflag⟩),
        Table.updateFor_of_notMem _ fun b hb =>
          hflag (mem_updatedDrafts.mp (mem_map_flag.mp hb).1).1.2]
      refine updateFor_flag (fun b hb => ?_) ?_
      · rcases List.mem_append.mp hb with hb | hb
        · exact absurd hb (hdraftable b)
        · exact (mem_map_flag.mp hb).2
      · cases hdraft : sv.isDraft with
        | false => exact .inl rfl
        | true =>
          have hdb := mem_dbDrafts.mpr ⟨sv, hsv, hdraft⟩
          refine .inr (List.mem_append_right _ (mem_map_flag.mpr
            ⟨(mem_missingDrafts hmissing).mpr ⟨?_, ⟨sv, hsv, hown⟩, hnamed, hflag⟩, rfl⟩))
          exact List.ne_nil_of_mem hdb
  · rw [decide_eq_true (.inl hnamed), Table.updateFor_of_notMem _ fun b hb =>
      hnamed (mem_updatedDrafts.mp (mem_map_flag.mp hb).1).1.1]
    refine updateFor_flag (fun b hb => ?_) ?_
    · rcases List.mem_append.mp hb with hb | hb
      · exact (mem_map_flag.mp hb).2
      · exact absurd ((mem_missingDrafts hmissing).mp (mem_map_flag.mp hb).1).2.2.1 hnamed
    · exact .inr (List.mem_append_left _ (mem_map_flag.mpr
        ⟨(mem_draftable hmissing).mpr ⟨⟨sv, hsv, hown⟩, hnamed⟩, rfl⟩))

/-- A service of another method stays as it is. -/
theorem service_other (h : Commits env (autoconfCall config) db plan db')
    (hm : IsMultisite (autoconfCall config)) (hsv : db.services.lookup id = some sv)
    (hother : sv.method ≠ .autoconf) : db'.services.lookup id = some sv := by
  have hnot : ¬ Own db id := fun ⟨sv', hsv', hown⟩ => by
    obtain rfl := Option.some.inj (hsv.symm.trans hsv')
    exact hother hown
  obtain ⟨missing, hmissing, hafter⟩ := lookup_services h hm hsv
  rw [hafter, Table.updateFor_of_notMem _ fun b hb => ?_,
    Table.updateFor_of_notMem _ fun b hb => ?_]
  · rcases List.mem_append.mp hb with hb | hb
    · exact hnot ((mem_draftable hmissing).mp (mem_map_flag.mp hb).1).1
    · exact hnot ((mem_missingDrafts hmissing).mp (mem_map_flag.mp hb).1).2.1
  · obtain ⟨-, sv', hsv', hown, -⟩ := mem_updatedDrafts.mp (mem_map_flag.mp hb).1
    exact hnot ⟨sv', hsv', hown⟩

/-- A new service is one that the configuration names. -/
theorem service_new (h : Commits env (autoconfCall config) db plan db')
    (hm : IsMultisite (autoconfCall config)) (hnone : db.services.lookup id = none)
    (hsv : db'.services.lookup id = some sv) :
    id ∈ serverNames config ∧ sv = saved config id := by
  obtain ⟨missing, hmissing, hsession, -, -, hnew⟩ := h.multisite hm
  have hservices := (commitTables_eq_some h.tables).2.2.1
  rw [(Table.lookup_putAll hservices id).1, Table.lookup_updateAll, hsession] at hsv
  have hgone : (sessionOf db (servicePlan (autoconfCall config) db missing)).services.lookup id =
      none := by
    rw [← Option.not_isSome_iff_eq_none, lookup_sessionOf_services_isSome, hnone]
    simp
  rw [hgone, Option.map_none, Option.none_or, hnew] at hsv
  have hput := Dict.mem_of_firstOf hsv
  have hnamed : id ∈ serverNames config := by
    rcases mem_newServices hput with hnamed | hold
    · exact hnamed
    · rw [hnone] at hold
      cases hold
  have hsaved : saved config id = ⟨.autoconf, decide (Flagged config id)⟩ :=
    congrArg (Db.Service.mk .autoconf) (decide_eq_decide.mpr (or_iff_right (not_not.mpr hnamed)))
  refine ⟨hnamed, ?_⟩
  rw [hsaved]
  rcases List.mem_append.mp hput with hput | hput
  · obtain ⟨id', hid', he⟩ := List.mem_map.mp hput
    obtain ⟨rfl, rfl⟩ := Prod.mk.inj he
    have hdraft : id' ∈ (servicePlan (autoconfCall config) db missing).drafts :=
      (List.mem_filter.mp hid').1
    rw [decide_eq_true (mem_drafts_iff.mp hdraft).2]
    rfl
  · obtain ⟨r, hr, hmem⟩ := List.mem_flatMap.mp hput
    rcases mem_poolResults.mp hr with ⟨server, -, -, rfl⟩ | ⟨-, rfl⟩
    · simp only [processService] at hmem
      split at hmem
      · obtain ⟨rfl, rfl⟩ := Prod.mk.inj (List.mem_singleton.mp hmem)
        have hdraft : id ∈ (servicePlan (autoconfCall config) db missing).drafts ↔
            Flagged config id := mem_drafts_iff.trans (and_iff_right hnamed)
        congr 1
        rw [List.contains_eq_mem, decide_eq_decide]
        exact hdraft
      · cases hmem
    · cases hmem

end

/-! ## The rows -/

/-- No task of the pool raises. -/
def Smooth (env : Env) : Prop := ∀ task, env.raises task = false

/-- The value that the configuration has for a row. -/
def given (config : Dict String String) (db : Database) (k : ServiceKey) : Option String :=
  if k.1 ∈ servicesSet (autoconfCall config) db ∧ (db.settings.find k.2.1).isSome then
    (popped (autoconfCall config)).lookup (serviceRowKey k)
  else none

/-- The row of a line after a save. -/
def Written (value : String) (c : Cell) : Prop := c.value = value ∧ c.method = .autoconf

section

variable {env : Env} {config : Dict String String} {db db' : Database} {plan : Plan} {k : ServiceKey}
  {c : Cell} {s : Setting} {n : Nat} {v t : String}

/-! ## What a save has keys for -/

theorem given_eq_some (hs : s ∈ db.settings.all) :
    given config db (t, s.id, n) = some v ↔
      t ∈ servicesSet (autoconfCall config) db ∧
        (popped (autoconfCall config)).lookup (joinKey t (suffixedKey s.id n)) = some v := by
  have hfind : (db.settings.find s.id).isSome = true := by
    rw [Catalog.find_eq_some.mpr ⟨hs, rfl⟩]
    rfl
  unfold given
  simp only [hfind, and_true]
  split
  next hset => exact (and_iff_right hset).symm
  next hset => exact ⟨nofun, fun h => absurd h.1 hset⟩

theorem setting_of_given (h : given config db k = some v) :
    k.1 ∈ servicesSet (autoconfCall config) db ∧ ∃ s ∈ db.settings.all, s.id = k.2.1 := by
  unfold given at h
  split at h
  next hset =>
    obtain ⟨s, hs⟩ := Option.isSome_iff_exists.mp hset.2
    obtain ⟨hmem, hid⟩ := Catalog.find_eq_some.mp hs
    exact ⟨hset.1, s, hmem, hid⟩
  next => cases h

theorem lookup_of_given (h : given config db k = some v) :
    config.lookup (serviceRowKey k) = some v := by
  unfold given at h
  split at h
  · exact lookup_of_popped h
  · cases h

theorem not_vanished (h : config.lookup (serviceRowKey k) = some v) :
    vanished config (serviceRowKey k) k.2.2 = false := by
  rw [vanished, h]
  rfl

theorem mem_servicesSet_iff :
    t ∈ servicesSet (autoconfCall config) db ↔
      t ∈ serverNames config ∨ ∃ sv, db.services.lookup t = some sv ∧ sv.isDraft = false := by
  show t ∈ serverNames config ++ _ ↔ _
  rw [List.mem_append, List.mem_map]
  refine or_congr_right ⟨?_, ?_⟩
  · rintro ⟨⟨t', sv⟩, hmem, rfl⟩
    obtain ⟨hitem, hdraft⟩ := List.mem_filter.mp hmem
    exact ⟨sv, Dict.mem_items.mp hitem, by simpa using hdraft⟩
  · rintro ⟨sv, hsv, hdraft⟩
    exact ⟨(t, sv), List.mem_filter.mpr ⟨Dict.mem_items.mpr hsv, by simpa using hdraft⟩, rfl⟩

theorem removedIds_eq_nil : removedIds (autoconfCall config) db = [] := by
  unfold removedIds
  split
  · rfl
  · split
    · rfl
    · rename_i hmissing
      exact hardDelete_eq_nil hmissing

theorem keptService (hset : t ∈ servicesSet (autoconfCall config) db)
    (hgone : ¬ Gone config db t) : KeptService (autoconfCall config) db t where
  known := hset
  notRemoved := by
    rw [removedIds_eq_nil]
    exact List.not_mem_nil
  notDrafted := fun hmem => hgone (mem_draftedServiceIds.mp hmem)

theorem mem_rowsToDelete :
    k ∈ serviceRowsToDelete (autoconfCall config) db ↔
      (∃ c, db.servicesSettings.lookup k = some c ∧ c.method = .autoconf) ∧
        ¬ Gone config db k.1 ∧ vanished config (serviceRowKey k) k.2.2 = true := by
  rw [mem_serviceRowsToDelete, mem_draftedServiceIds]
  exact and_congr_right fun _ => and_congr_left fun _ => and_iff_right rfl

/-! ## One save -/

/-- A row that no line is about goes with its key, and stays otherwise. -/
theorem row_of_unchanged (h : Commits env (autoconfCall config) db plan db')
    (hm : IsMultisite (autoconfCall config)) (hno : ∀ ch, (k, ch) ∉ plan.serviceChanges) :
    db'.servicesSettings.lookup k =
      if k ∈ serviceRowsToDelete (autoconfCall config) db then none
      else db.servicesSettings.lookup k := by
  obtain ⟨missing, hmissing, hsession, -⟩ := h.multisite hm
  have hcommit := (commitTables_eq_some h.tables).2.1
  rw [Table.lookup_commit_of_unchanged _ hcommit hno, hsession,
    lookup_sessionOf_servicesSettings, hardDelete_eq_nil hmissing, if_neg List.not_mem_nil]
  congr

/-- A line is about a row that the configuration has a value for. -/
theorem given_of_change (h : Commits env (autoconfCall config) db plan db')
    (hm : IsMultisite (autoconfCall config)) (hw : WellNamed (autoconfCall config) db)
    {ch : RowChange} (hch : (k, ch) ∈ plan.serviceChanges) :
    ∃ v, given config db k = some v := by
  obtain ⟨missing, -, -, -, hchanges, -⟩ := h.multisite hm
  obtain ⟨t, key⟩ := k
  rw [hchanges, mem_serviceChanges] at hch
  obtain ⟨-, -, l, hl, rfl, -⟩ := hch
  obtain ⟨hitem, hfind, -⟩ := mem_lines.mp hl
  obtain ⟨hlookup, hfirst⟩ := mem_serviceConfig.mp hitem
  have hset := (firstService_eq_some.mp hfirst).1
  refine ⟨l.value, (given_eq_some (Catalog.find_eq_some.mp hfind).1).mpr ⟨hset, ?_⟩⟩
  rw [← (hw.rows t hset l hl).key]
  exact hlookup

/-- A row that the configuration has a value for is written, or there is none for a default. -/
theorem row_of_given (h : Commits env (autoconfCall config) db plan db')
    (hm : IsMultisite (autoconfCall config)) (hsm : Smooth env)
    (hw : WellNamed (autoconfCall config) db) (hinst : Installed db) (hs : s ∈ db.settings.all)
    (hv : given config db (t, s.id, n) = some v) (hgone : ¬ Gone config db t) :
    (∃ c, db'.servicesSettings.lookup (t, s.id, n) = some c ∧ Written v c) ∨
      db'.servicesSettings.lookup (t, s.id, n) = none ∧
        rowIsDefault (autoconfCall config) db t s n v = true := by
  obtain ⟨hset, hlookup⟩ := (given_eq_some hs).mp hv
  obtain ⟨d, hrow, hcommit, hclean, hcs⟩ :=
    h.row_changes hm (hsm _) hw hinst hs (keptService hset hgone) hlookup
  rw [← hrow] at hcs
  refine stored_of_line (l := ⟨suffixedKey s.id n, v, s, n⟩) _ hcommit hclean hcs
    (fun c hvalue hmethod => ⟨hvalue, hmethod⟩) fun c _ hsame => ?_
  simpa [shouldUpdate, autoconfCall, Written] using hsame

/-- A row that has the value of the configuration stays. -/
theorem row_of_written (h : Commits env (autoconfCall config) db plan db')
    (hm : IsMultisite (autoconfCall config)) (hsm : Smooth env)
    (hw : WellNamed (autoconfCall config) db) (hinst : Installed db) (hs : s ∈ db.settings.all)
    (hv : given config db (t, s.id, n) = some v) (hgone : ¬ Gone config db t)
    (hc : db.servicesSettings.lookup (t, s.id, n) = some c) (hwritten : Written v c) :
    db'.servicesSettings.lookup (t, s.id, n) = some c := by
  obtain ⟨rfl, hmethod⟩ := hwritten
  obtain ⟨hset, hlookup⟩ := (given_eq_some hs).mp hv
  obtain ⟨d, hrow, hcommit, hclean, hcs⟩ :=
    h.row_changes hm (hsm _) hw hinst hs (keptService hset hgone) hlookup
  refine (Table.lookup_commit_of_untouched _ hcommit (fun ch hch => ?_) hclean).trans
    (hrow.trans hc)
  have hsame : shouldUpdate (autoconfCall config) (joinKey t (suffixedKey s.id n)) c.value c =
      false := by
    simp [shouldUpdate, hmethod]
  rw [hcs, hc, Option.any_some, hsame, rowChange_of_value _ rfl (AList.lookup_empty _)] at hch
  cases hch

/-- A row that is not there is put unless the value is a default. -/
theorem row_of_missing (h : Commits env (autoconfCall config) db plan db')
    (hm : IsMultisite (autoconfCall config)) (hsm : Smooth env)
    (hw : WellNamed (autoconfCall config) db) (hinst : Installed db) (hs : s ∈ db.settings.all)
    (hv : given config db (t, s.id, n) = some v) (hgone : ¬ Gone config db t)
    (hc : db.servicesSettings.lookup (t, s.id, n) = none) :
    db'.servicesSettings.lookup (t, s.id, n) = none ↔
      rowIsDefault (autoconfCall config) db t s n v = true := by
  constructor
  · intro hnone
    rcases row_of_given h hm hsm hw hinst hs hv hgone with ⟨c, hsome, -⟩ | ⟨-, hdefault⟩
    · rw [hnone] at hsome
      cases hsome
    · exact hdefault
  · intro hdefault
    obtain ⟨hset, hlookup⟩ := (given_eq_some hs).mp hv
    obtain ⟨d, hrow, hcommit, hclean, hcs⟩ :=
      h.row_changes hm (hsm _) hw hinst hs (keptService hset hgone) hlookup
    refine (Table.lookup_commit_of_untouched _ hcommit (fun ch hch => ?_) hclean).trans
      (hrow.trans hc)
    rw [hcs, hc, hdefault] at hch
    cases hch

/-! ### The global values -/

/-- A global value that no line is about goes with its key, and stays otherwise. -/
theorem global_of_unnamed (h : Commits env (autoconfCall config) db plan db')
    (hm : IsMultisite (autoconfCall config)) (hw : WellNamed (autoconfCall config) db)
    (hinst : Installed db) (hs : s ∈ db.settings.all)
    (hv : (popped (autoconfCall config)).lookup (suffixedKey s.id n) = none) :
    db'.globalValues.lookup (s.id, n) =
      if (s.id, n) ∈ globalsToDelete (autoconfCall config) db then none
      else db.globalValues.lookup (s.id, n) := by
  obtain ⟨missing, -, hsession, hchanges, -, -⟩ := h.multisite hm
  have hcommit := (commitTables_eq_some h.tables).1
  rw [hsession, sessionOf_globalValues] at hcommit
  refine (Table.lookup_commit_of_unchanged _ hcommit fun ch hch => ?_).trans (by congr)
  rw [hchanges, mem_globalChanges] at hch
  obtain ⟨-, l, hl, hk, -⟩ := hch
  obtain ⟨v', hv', -⟩ := (hw.global_line hinst hs).mp ⟨hl, hk.symm⟩
  rw [hv] at hv'
  cases hv'

/-- A global value of the configuration is written, or there is none for a default. -/
theorem global_of_given (h : Commits env (autoconfCall config) db plan db')
    (hm : IsMultisite (autoconfCall config)) (hsm : Smooth env)
    (hw : WellNamed (autoconfCall config) db) (hinst : Installed db) (hs : s ∈ db.settings.all)
    (hv : (popped (autoconfCall config)).lookup (suffixedKey s.id n) = some v) :
    (∃ c, db'.globalValues.lookup (s.id, n) = some c ∧ Written v c) ∨
      db'.globalValues.lookup (s.id, n) = none ∧
        globalIsDefault (autoconfCall config) db s n v = true := by
  obtain ⟨hcommit, hclean, hcs⟩ := h.global_changes hm (hsm _) hw hinst hs hv
  refine stored_of_line (l := ⟨suffixedKey s.id n, v, s, n⟩) _ hcommit hclean hcs
    (fun c hvalue hmethod => ⟨hvalue, hmethod⟩) fun c _ hsame => ?_
  simpa [shouldUpdate, autoconfCall, Written] using hsame

/-- A global value that is as the configuration has it stays, and a default that has no row gets
none. -/
theorem global_of_settled (h : Commits env (autoconfCall config) db plan db')
    (hm : IsMultisite (autoconfCall config)) (hsm : Smooth env)
    (hw : WellNamed (autoconfCall config) db) (hinst : Installed db) (hs : s ∈ db.settings.all)
    (hv : (popped (autoconfCall config)).lookup (suffixedKey s.id n) = some v)
    (hset : (∃ c, db.globalValues.lookup (s.id, n) = some c ∧ Written v c) ∨
      db.globalValues.lookup (s.id, n) = none ∧
        globalIsDefault (autoconfCall config) db s n v = true) :
    db'.globalValues.lookup (s.id, n) = db.globalValues.lookup (s.id, n) := by
  obtain ⟨hcommit, hclean, hcs⟩ := h.global_changes hm (hsm _) hw hinst hs hv
  refine Table.lookup_commit_of_untouched _ hcommit (fun ch hch => ?_) hclean
  rw [hcs] at hch
  rcases hset with ⟨c, hc, rfl, hmethod⟩ | ⟨hnone, hdefault⟩
  · have hsame : shouldUpdate (autoconfCall config) (suffixedKey s.id n) c.value c = false := by
      simp [shouldUpdate, hmethod]
    rw [hc, Option.any_some, hsame, rowChange_of_value _ rfl (AList.lookup_empty _)] at hch
    cases hch
  · rw [hnone, hdefault] at hch
    cases hch

/-! ## What counts as a default -/

/-- A value is a default of the same sort where the two configurations agree on its key. -/
theorem checkValue_congr {d d' e e' : Dict String String} {default value : String}
    {template : Option String} {isGlobal : Bool} (hs : s.id ≠ "SERVER_NAME" →
      ∀ m, d.lookup (suffixedKey s.id m) = d'.lookup (suffixedKey s.id m) ∧
        e.lookup (suffixedKey s.id m) = e'.lookup (suffixedKey s.id m)) :
    checkValue d e s.id value default template n isGlobal =
      checkValue d' e' s.id value default template n isGlobal := by
  unfold checkValue
  split
  · rfl
  · rename_i hne
    obtain ⟨hd, he⟩ := hs hne 0
    rw [suffixedKey_zero] at hd he
    unfold isDefaultValue
    rw [hd, he, (hs hne n).1, (hs hne n).2]

theorem serverName_ne (hinst : Installed db) (hs : s ∈ db.settings.all)
    (hne : s.id ≠ "SERVER_NAME") (n : Nat) : suffixedKey s.id n ≠ "SERVER_NAME" := fun he =>
  hne (suffixedKey_eq (db.settings.ne_empty s hs) (hinst.unnumbered s hs) (by decide) he).1

/-- The stored values that `autoconf` compares with. -/
theorem lookup_dbConfigOf (config : Dict String String) (hr : Readable db)
    (hs : s ∈ db.settings.all) (hne : s.id ≠ "SERVER_NAME") (n : Nat) :
    (dbConfigOf (autoconfCall config) db).lookup (suffixedKey s.id n) =
      (db.globalValues.lookup (s.id, n)).map Cell.value := by
  have hlisted : (nonDefault db).lookup (suffixedKey s.id n) = _ := lookup_nonDefault_global hr hs
  rw [listed, if_neg (serverName_ne hr.installed hs hne n)] at hlisted
  exact hlisted

end

end BunkerWeb.Autoconf.Saving
