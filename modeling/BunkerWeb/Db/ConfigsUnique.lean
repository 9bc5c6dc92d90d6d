import BunkerWeb.Db.CustomConfigs

/-!
# One row for each custom configuration

`foldl_put` says what the loop of `save_custom_configs` leaves, `savedRows_unique_iff` and
`upserted_unique_iff` which calls keep the keys of the table different, and `configs_unique` puts
the calls of a run together.
-/

namespace BunkerWeb.Db.CustomConfigs

open Lib

section

variable {Data Digest : Type} {rows : List (Row Data Digest)}

/-! ## Keys -/

/-- Different keys are those of the rows with a service and of those without one. -/
theorem unique_iff_split :
    Unique rows ↔ Unique (ofServices rows) ∧ Unique (rows.filter (·.key.1.isNone)) := by
  have hperm := List.filter_append_perm (fun r : Row Data Digest => r.key.1.isSome) rows
  unfold Unique
  rw [← (hperm.map Row.key).nodup_iff, List.map_append, List.nodup_append]
  have hnone : (rows.filter fun r => !r.key.1.isSome) = rows.filter (·.key.1.isNone) :=
    List.filter_congr fun r _ => Option.not_isSome _
  rw [hnone]
  refine and_congr_right fun _ => and_iff_left ?_
  intro k hk k' hk' heq
  obtain ⟨r, hr, rfl⟩ := List.mem_map.mp hk
  obtain ⟨r', hr', rfl⟩ := List.mem_map.mp hk'
  have hsome : r.key.1.isSome = true := (List.mem_filter.mp hr).2
  have hno : r'.key.1.isNone = true := (List.mem_filter.mp hr').2
  rw [← heq, Option.isNone_iff_eq_none] at hno
  rw [hno] at hsome
  cases hsome

theorem Unique.sublist {rows' : List (Row Data Digest)} (h : Unique rows)
    (hs : List.Sublist rows' rows) : Unique rows' := List.Nodup.sublist (hs.map Row.key) h

theorem Unique.eq_of_key {r r' : Row Data Digest} (h : Unique rows) (hr : r ∈ rows)
    (hr' : r' ∈ rows) (hkey : r.key = r'.key) : r = r' := List.inj_on_of_nodup_map h hr hr' hkey

theorem filters_of_none {k : Key} (h : k.1 = none) : filters k = k := by
  obtain ⟨service, rest⟩ := k
  obtain rfl : service = none := h
  rfl

variable {method : Method} {disableCleanup : Bool}

theorem kept_unique (h : Unique rows) : Unique (kept rows method disableCleanup) := by
  unfold kept
  split
  · exact h
  · exact h.sublist List.filter_sublist

theorem mem_of_mem_kept {r : Row Data Digest} (h : r ∈ kept rows method disableCleanup) :
    r ∈ rows := by
  unfold kept at h
  split at h
  · exact h
  · exact (List.mem_filter.mp h).1

/-! ## The loop -/

variable [DecidableEq Digest]

/-- What is stored of the contents, by the checksums. -/
theorem overwrite_of_may {c r : Row Data Digest} (h : mayOverwrite method r.method = true) :
    overwrite method c r =
      { key := r.key
        data := if c.checksum = r.checksum then r.data else c.data
        checksum := c.checksum
        method := (overwrite method c r).method
        isDraft := c.isDraft } := by
  unfold mayOverwrite at h
  unfold overwrite
  by_cases hc : c.checksum = r.checksum
  · by_cases hmanual : method = .manual ∧ (r.method = .manual ∨ r.method.isUi)
    · simp only [hmanual, hc, ne_eq, not_true, if_false, and_self, if_true]
    · have hcompat : methodsAreCompatible method r.method true = true := by simpa [hmanual] using h
      simp only [hmanual, hc, hcompat, ne_eq, not_true, if_false, if_true]
  · by_cases hmanual : method = .manual ∧ (r.method = .manual ∨ r.method.isUi)
    · simp only [hmanual, hc, ne_eq, not_false_eq_true, if_false, and_self, if_true]
    · have hcompat : methodsAreCompatible method r.method true = true := by simpa [hmanual] using h
      simp only [hmanual, hc, hcompat, ne_eq, not_false_eq_true, if_false, if_true]

theorem overwrite_of_not {c r : Row Data Digest} (h : mayOverwrite method r.method = false) :
    overwrite method c r = r := by
  unfold mayOverwrite at h
  obtain ⟨hmanual, hcompat⟩ := Bool.or_eq_false_iff.mp h
  unfold overwrite
  rw [if_neg (by simpa using hmanual), if_neg (by simpa using hcompat)]

@[simp] theorem key_overwrite (c r : Row Data Digest) : (overwrite method c r).key = r.key := by
  cases h : mayOverwrite method r.method with
  | true => rw [overwrite_of_may h]
  | false => rw [overwrite_of_not h]

theorem method_overwrite (c r : Row Data Digest) :
    (overwrite method c r).method = r.method ∨ (overwrite method c r).method = method := by
  unfold overwrite
  grind

theorem mayOverwrite_overwrite {c r : Row Data Digest} (h : mayOverwrite method r.method = true) :
    mayOverwrite method (overwrite method c r).method = true := by
  have hmethod : (overwrite method c r).method = r.method ∨ (overwrite method c r).method = method :=
    method_overwrite c r
  obtain hm | hm := hmethod
  · rw [hm]
    exact h
  · rw [hm]
    simp [mayOverwrite]

/-- A row that may be changed has the data of the configuration, unless the checksums agree. -/
theorem data_overwrite {c r : Row Data Digest} (h : mayOverwrite method r.method = true)
    (hsame : r.checksum = c.checksum → r.data = c.data) :
    (overwrite method c r).data = c.data := by
  rw [overwrite_of_may h]
  dsimp only
  split
  next heq => exact hsame heq.symm
  next => rfl

/-- The row after all configurations with its key. -/
def settled (method : Method) (entries : List (Row Data Digest)) (r : Row Data Digest) :
    Row Data Digest :=
  (entries.filter (filters ·.key = r.key)).foldl (fun r c => overwrite method c r) r

@[simp] theorem key_settled (entries : List (Row Data Digest)) (r : Row Data Digest) :
    (settled method entries r).key = r.key := by
  unfold settled
  generalize entries.filter _ = same
  induction same generalizing r with
  | nil => rfl
  | cons c same ih => rw [List.foldl_cons, ih, key_overwrite]

/-- The configurations without a row. -/
def newOnes (rows entries : List (Row Data Digest)) : List (Row Data Digest) :=
  entries.filter fun c => !rows.any (·.key = filters c.key)

/-- Each row is changed by the configurations with its key, in order, and the others are put, as
often as they are given. -/
theorem foldl_put (h : Unique rows) (entries toPut : List (Row Data Digest)) :
    entries.foldl (put method) (rows, toPut) =
      (rows.map (settled method entries), toPut ++ newOnes rows entries) := by
  induction entries generalizing rows toPut with
  | nil =>
    have hid : rows.map (settled method []) = rows := List.map_id rows
    rw [List.foldl_nil, hid, newOnes, List.filter_nil, List.append_nil]
  | cons c entries ih =>
    rw [List.foldl_cons, put]
    by_cases hc : rows.any (·.key = filters c.key) = true
    · rw [if_pos hc]
      have hmap : Scheduler.modifyFirst (·.key = filters c.key) (overwrite method c) rows =
          rows.map fun r => if r.key = filters c.key then overwrite method c r else r :=
        Scheduler.modifyFirst_eq_map h _ _
      have hkey : ∀ r : Row Data Digest,
          (if r.key = filters c.key then overwrite method c r else r).key = r.key := fun r => by
        split
        next => exact key_overwrite c r
        next => rfl
      have hkeys : (rows.map fun r => if r.key = filters c.key then overwrite method c r else r).map
          Row.key = rows.map Row.key := by
        rw [List.map_map]
        exact List.map_congr_left fun r _ => hkey r
      rw [hmap, ih (show List.Nodup _ from hkeys ▸ h)]
      have hany : ∀ k : Key, (rows.map fun r =>
          if r.key = filters c.key then overwrite method c r else r).any (·.key = k) =
            rows.any (·.key = k) := fun k => by
        rw [List.any_map]
        exact congrArg rows.any (funext fun r => by simp only [Function.comp_apply, hkey r])
      refine Prod.ext ?_ ?_
      · show List.map _ _ = List.map _ _
        rw [List.map_map]
        refine List.map_congr_left fun r _ => ?_
        rw [Function.comp_apply, settled, settled, hkey r]
        by_cases hr : r.key = filters c.key
        · rw [if_pos hr, List.filter_cons_of_pos (by simpa using hr.symm), List.foldl_cons]
        · rw [if_neg hr, List.filter_cons_of_neg (by simpa using Ne.symm hr)]
      · show toPut ++ _ = toPut ++ _
        rw [newOnes, newOnes, List.filter_cons_of_neg (by simpa using hc)]
        simp only [hany]
    · rw [if_neg hc, ih h, newOnes, newOnes, List.filter_cons_of_pos (by simpa using hc),
        List.append_assoc, List.singleton_append]
      refine Prod.ext (List.map_congr_left fun r hr => ?_) rfl
      have hne : filters c.key ≠ r.key := fun heq =>
        hc (List.any_eq_true.mpr ⟨r, hr, by simpa using heq.symm⟩)
      rw [settled, settled, List.filter_cons_of_neg (by simpa using hne)]

/-! ## The rows that are committed -/

variable {entries : List (Row Data Digest)}

theorem savedRows_eq (h : Unique rows) :
    savedRows rows entries method disableCleanup =
      (let changed := (kept rows method disableCleanup).map (settled method entries)
        if keeps method disableCleanup then draftOrphans (entries.map (filters ·.key)) changed
        else changed) ++ newOnes (kept rows method disableCleanup) entries := by
  unfold savedRows
  rw [foldl_put (kept_unique h), List.nil_append]

/-- The keys are those of the rows that are kept and of what is put. -/
theorem keys_savedRows (h : Unique rows) :
    (savedRows rows entries method disableCleanup).map Row.key =
      (kept rows method disableCleanup).map Row.key ++
        (newOnes (kept rows method disableCleanup) entries).map Row.key := by
  rw [savedRows_eq h, List.map_append]
  refine congrArg (· ++ _) ?_
  dsimp only
  split
  · rw [draftOrphans, List.map_map, List.map_map]
    refine List.map_congr_left fun r _ => ?_
    rw [Function.comp_apply, Function.comp_apply]
    split
    · exact key_settled entries r
    · exact key_settled entries r
  · rw [List.map_map]
    exact List.map_congr_left fun r _ => key_settled entries r

/-- The configurations without a service and without a row are given once. -/
def GivenOnce (kept entries : List (Row Data Digest)) : Prop :=
  Unique ((newOnes kept entries).filter (·.key.1.isNone))

/-- Where the database takes the rows, the keys stay different exactly for such lists. -/
theorem savedRows_unique_iff (h : Unique rows)
    (htaken : Unique (ofServices (savedRows rows entries method disableCleanup))) :
    Unique (savedRows rows entries method disableCleanup) ↔
      GivenOnce (kept rows method disableCleanup) entries := by
  rw [unique_iff_split, and_iff_right htaken, GivenOnce]
  unfold Unique
  have hfilter : ∀ l : List (Row Data Digest), (l.filter (·.key.1.isNone)).map Row.key =
      (l.map Row.key).filter (·.1.isNone) := fun l => by
    rw [List.filter_map]
    rfl
  rw [hfilter, hfilter, keys_savedRows h, List.filter_append, List.nodup_append]
  have hkept : (((kept rows method disableCleanup).map Row.key).filter (·.1.isNone)).Nodup :=
    (kept_unique h).filter _
  rw [and_iff_right hkept]
  refine and_iff_left fun k hk k' hk' heq => ?_
  obtain ⟨hk, -⟩ := List.mem_filter.mp hk
  obtain ⟨hk', hnone⟩ := List.mem_filter.mp hk'
  obtain ⟨r, hr, rfl⟩ := List.mem_map.mp hk
  obtain ⟨c, hc, rfl⟩ := List.mem_map.mp hk'
  have hnot := (List.mem_filter.mp hc).2
  rw [filters_of_none (Option.isNone_iff_eq_none.mp hnone), ← heq] at hnot
  simp only [Bool.not_eq_true', List.any_eq_false, decide_eq_true_eq] at hnot
  exact hnot r hr rfl

/-! ## The contents -/

/-- `c` is the last configuration that is given for its key. -/
def Last (entries : List (Row Data Digest)) (c : Row Data Digest) : Prop :=
  ∃ pre post, entries = pre ++ c :: post ∧ ∀ x ∈ post, filters x.key ≠ filters c.key

/-- Among a row that may be changed and what is given for it, the checksum of the last
configuration stands for its contents. -/
def ToldApart (method : Method) (kept entries : List (Row Data Digest)) : Prop :=
  ∀ r ∈ kept, mayOverwrite method r.method = true → ∀ c, Last entries c → filters c.key = r.key →
    ∀ x ∈ r :: entries.filter (filters ·.key = r.key), x.checksum = c.checksum → x.data = c.data

/-- After some configurations the row has the contents of one of them, or its own. -/
theorem foldl_overwrite {r : Row Data Digest} (h : mayOverwrite method r.method = true)
    (l : List (Row Data Digest)) :
    mayOverwrite method (l.foldl (fun r c => overwrite method c r) r).method = true ∧
      ∃ x ∈ r :: l, (l.foldl (fun r c => overwrite method c r) r).checksum = x.checksum ∧
        (l.foldl (fun r c => overwrite method c r) r).data = x.data := by
  induction l generalizing r with
  | nil => exact ⟨h, r, List.mem_cons_self, rfl, rfl⟩
  | cons c l ih =>
    obtain ⟨hmay, x, hx, hsum, hdata⟩ := ih (mayOverwrite_overwrite (c := c) h)
    refine ⟨hmay, ?_⟩
    rw [List.foldl_cons, hsum, hdata]
    rcases List.mem_cons.mp hx with rfl | hx
    · -- The contents of the row after the first configuration.
      rw [overwrite_of_may h]
      dsimp only
      by_cases hc : c.checksum = r.checksum
      · exact ⟨r, List.mem_cons_self, hc, if_pos hc⟩
      · exact ⟨c, List.mem_cons_of_mem _ List.mem_cons_self, rfl, if_neg hc⟩
    · exact ⟨x, List.mem_cons_of_mem _ (List.mem_cons_of_mem _ hx), rfl, rfl⟩

theorem data_settled {kept : List (Row Data Digest)} (h : ToldApart method kept entries)
    {r c : Row Data Digest} (hr : r ∈ kept) (hmay : mayOverwrite method r.method = true)
    (hc : Last entries c) (hkey : filters c.key = r.key) :
    (settled method entries r).data = c.data := by
  have hsame := h r hr hmay c hc hkey
  obtain ⟨pre, post, rfl, hpost⟩ := hc
  have hsplit : (pre ++ c :: post).filter (filters ·.key = r.key) =
      pre.filter (filters ·.key = r.key) ++ [c] := by
    rw [List.filter_append, List.filter_cons_of_pos (by simpa using hkey)]
    congr 2
    rw [List.filter_eq_nil_iff]
    intro x hx
    rw [← hkey]
    simpa using hpost x hx
  rw [hsplit] at hsame
  rw [settled, hsplit, List.foldl_append, List.foldl_cons, List.foldl_nil]
  obtain ⟨hmay', x, hx, hsum, hdata⟩ := foldl_overwrite hmay (pre.filter (filters ·.key = r.key))
  apply data_overwrite hmay'
  rw [hsum, hdata]
  refine hsame x ?_
  rcases List.mem_cons.mp hx with rfl | hx
  · exact List.mem_cons_self
  · exact List.mem_cons_of_mem _ (List.mem_append_left _ hx)

/-- A row that is kept is there in the end, with its key and what was stored in it. -/
theorem exists_savedRows_of_kept (h : Unique rows) {r : Row Data Digest}
    (hr : r ∈ kept rows method disableCleanup) :
    ∃ r' ∈ savedRows rows entries method disableCleanup,
      r'.key = r.key ∧ r'.data = (settled method entries r).data := by
  rw [savedRows_eq h]
  dsimp only
  have hmem := List.mem_map_of_mem (f := settled method entries) hr
  split
  · refine ⟨_, List.mem_append_left _ (List.mem_map_of_mem hmem), ?_⟩
    split
    · exact ⟨key_settled entries r, rfl⟩
    · exact ⟨key_settled entries r, rfl⟩
  · exact ⟨_, List.mem_append_left _ hmem, key_settled entries r, rfl⟩

/-- The last configuration of a key is stored, unless the row of another method has its key. -/
theorem stored_savedRows (h : Unique rows)
    (htold : ToldApart method (kept rows method disableCleanup) entries) {c : Row Data Digest}
    (hc : Last entries c) :
    (∃ r ∈ rows, r.key = filters c.key ∧ mayOverwrite method r.method = false) ∨
      ∃ r ∈ savedRows rows entries method disableCleanup,
        (r.key = c.key ∨ r.key = filters c.key) ∧ r.data = c.data := by
  by_cases hrow : ∃ r ∈ kept rows method disableCleanup, r.key = filters c.key
  · obtain ⟨r, hr, hkey⟩ := hrow
    cases hmay : mayOverwrite method r.method with
    | false => exact .inl ⟨r, mem_of_mem_kept hr, hkey, hmay⟩
    | true =>
      obtain ⟨r', hr', hkey', hdata⟩ : ∃ r' ∈ savedRows rows entries method disableCleanup,
          r'.key = r.key ∧ r'.data = (settled method entries r).data :=
        exists_savedRows_of_kept h hr
      refine .inr ⟨r', hr', .inr (hkey'.trans hkey), hdata.trans ?_⟩
      exact data_settled htold hr hmay hc hkey.symm
  · have hmem : c ∈ entries := by
      obtain ⟨pre, post, rfl, -⟩ := hc
      simp
    have hnew : c ∈ newOnes (kept rows method disableCleanup) entries :=
      List.mem_filter.mpr ⟨hmem, by simpa using hrow⟩
    refine .inr ⟨c, ?_, .inl rfl, rfl⟩
    rw [savedRows_eq h]
    exact List.mem_append_right _ hnew

/-- A call leaves the table alone, or the database has taken the rows. -/
inductive Saved (env : Env Data Digest) (rows : List (Row Data Digest))
    (given : List (Given Data Digest)) (rows' : List (Row Data Digest)) :
    Outcome × List (Row Data Digest) → Prop where
  | refused {outcome : Outcome} (h : outcome = .returned "" → given = []) :
      Saved env rows given rows' (outcome, rows)
  | taken {outcome : Outcome} (h : env.commitError rows' = none) :
      Saved env rows given rows' (outcome, rows')

theorem addLine_ne_empty {message line : String} (h : line ≠ "") : addLine message line ≠ "" := by
  intro he
  have hlist := congrArg String.toList he
  rw [addLine, String.toList_append] at hlist
  exact h (String.toList_eq_nil_iff.mp (List.append_eq_nil_iff.mp hlist).2)

theorem saveCustomConfigs_cases (hash : Data → Digest) (env : Env Data Digest)
    (given : List (Given Data Digest)) :
    Saved env rows given (savedRows rows (given.map (Given.row hash method)) method disableCleanup)
      (saveCustomConfigs hash env rows given method disableCleanup) := by
  unfold saveCustomConfigs
  split
  · exact .refused fun h => by simp [readonlyMessage] at h
  split
  · exact .refused nofun
  split
  next hguard => exact .refused fun _ => List.isEmpty_iff.mp hguard.2.2.1
  next =>
    dsimp only
    split
    next error herror =>
      refine .refused fun h => absurd (Outcome.returned.inj h) ?_
      exact addLine_ne_empty (env.text _ _ herror)
    next htaken => exact .taken htaken

end

/-! ## A key that changes -/

/-- In a list of different keys one key becomes another. -/
def rekey (looked target k : Key) : Key := if k = looked then target else k

theorem nodup_map_rekey {keys : List Key} (h : keys.Nodup) {looked target : Key}
    (hfree : target ∈ keys → target = looked) : (keys.map (rekey looked target)).Nodup := by
  refine h.map_on fun k hk k' hk' heq => ?_
  unfold rekey at heq
  grind

theorem two_le_count_rekey {keys : List Key} {looked target : Key} (hl : looked ∈ keys)
    (ht : target ∈ keys) (hne : target ≠ looked) :
    2 ≤ (keys.map (rekey looked target)).count target := by
  have hsub : List.Subperm [looked, target] keys := by
    apply List.subperm_of_subset
    · simpa using hne.symm
    · intro k hk
      rcases List.mem_cons.mp hk with rfl | hk
      · exact hl
      · rwa [List.mem_singleton.mp hk]
  obtain ⟨l, hperm, hsub⟩ := hsub
  have hcount := (hsub.map (rekey looked target)).count_le target
  have hcount' := (hperm.map (rekey looked target)).count_eq target
  have htwo : ([looked, target].map (rekey looked target)).count target = 2 := by
    simp [rekey, hne]
  omega

/-! ## A call of `upsert_custom_config` -/

section

variable {Data Digest : Type} {rows : List (Row Data Digest)} {hash : Data → Digest} {looked : Key}

/-- The key of the row that is left. -/
def Config.target (looked : Key) (c : Config Data Digest) : Key :=
  (c.service, c.type.getD looked.2.1, c.name.getD looked.2.2)

/-- A call either leaves the table alone and says so, or has its row in the table, with the keys of
the others as they were. -/
inductive Upserted (env : Env Data Digest) (rows : List (Row Data Digest)) (looked : Key)
    (c : Config Data Digest) : Outcome × List (Row Data Digest) → Prop where
  | refused {outcome : Outcome} (h : outcome ≠ .returned "") :
      Upserted env rows looked c (outcome, rows)
  | added {rows' : List (Row Data Digest)} (htaken : env.commitError rows' = none)
      (hkeys : rows'.map Row.key = rows.map Row.key ++ [c.target looked])
      (hnew : ∀ r ∈ rows, r.key ≠ filters looked)
      (hstored : ∃ r ∈ rows', r.key = c.target looked ∧ r.data = c.data) :
      Upserted env rows looked c (.returned "", rows')
  | changed {rows' : List (Row Data Digest)} (htaken : env.commitError rows' = none)
      (hkeys : rows'.map Row.key =
        (rows.map Row.key).map (rekey (filters looked) (c.target looked)))
      (hold : filters looked ∈ rows.map Row.key)
      (hstored : ∃ r ∈ rows', r.key = c.target looked ∧ r.data = c.data) :
      Upserted env rows looked c (.returned "", rows')

theorem upsertCustomConfig_cases (env : Env Data Digest) (h : Unique rows)
    (c : Config Data Digest) (new : Bool) :
    Upserted env rows looked c (upsertCustomConfig hash env rows looked c new) := by
  unfold upsertCustomConfig
  split
  · exact .refused (by simp [readonlyMessage])
  split
  · exact .refused (by simp)
  split
  next hnone =>
    have hnew : ∀ r ∈ rows, r.key ≠ filters looked := by
      simpa using List.find?_eq_none.mp hnone
    split
    next type name method htype hname hmethod =>
      unfold commit
      split
      next error herror => exact .refused (by simpa using env.text _ _ herror)
      next htaken =>
        have hkey : c.target looked = (c.service, type, name) := by
          simp [Config.target, htype, hname]
        refine .added htaken (by rw [List.map_append, hkey]; rfl) hnew ?_
        exact ⟨_, List.mem_append_right _ (List.mem_singleton_self _), hkey.symm, rfl⟩
    next => exact .refused (by simp)
  next r hfind =>
    split
    · exact .refused (by simp)
    · unfold commit
      split
      next error herror => exact .refused (by simpa using env.text _ _ herror)
      next htaken =>
        have hr := List.mem_of_find?_eq_some hfind
        have hkey : r.key = filters looked := by simpa using List.find?_some hfind
        have htarget : (c.update hash r).key = c.target looked := by
          simp [Config.update, Config.target, hkey, filters]
        have hmap : Scheduler.modifyFirst (·.key = filters looked) (c.update hash) rows =
            rows.map fun r => if r.key = filters looked then c.update hash r else r :=
          Scheduler.modifyFirst_eq_map h _ _
        refine .changed htaken ?_ (hkey ▸ List.mem_map_of_mem hr) ?_
        · rw [hmap, List.map_map, List.map_map]
          refine List.map_congr_left fun r' hr' => ?_
          rw [Function.comp_apply, Function.comp_apply, rekey]
          split
          next hr'key =>
            rw [← htarget, h.eq_of_key hr' hr (hr'key.trans hkey.symm)]
          next => rfl
        · refine ⟨c.update hash r, ?_, htarget, rfl⟩
          rw [hmap]
          exact List.mem_map.mpr ⟨r, hr, if_pos hkey⟩

/-- A configuration without a service gets the key that it is looked up under, or a new one. -/
def Config.Moves (rows : List (Row Data Digest)) (looked : Key) (c : Config Data Digest) : Prop :=
  c.service = none → ∀ r ∈ rows, r.key = c.target looked → r.key = filters looked

/-- The database takes no key of a service twice. -/
theorem count_le_one {env : Env Data Digest} (h : env.commitError rows = none) {k : Key}
    (hk : k.1.isSome = true) : (rows.map Row.key).count k ≤ 1 := by
  have hunique : ((rows.map Row.key).filter (·.1.isSome)).Nodup := by
    rw [List.filter_map]
    exact env.unique rows h
  have hcount := List.nodup_iff_count_le_one.mp hunique k
  rwa [List.count_filter (by simpa using hk)] at hcount

theorem upserted_unique {env : Env Data Digest} (h : Unique rows) {c : Config Data Digest}
    {result : Outcome × List (Row Data Digest)} (hu : Upserted env rows looked c result)
    (hmoves : c.Moves rows looked) : Unique result.2 := by
  cases hu with
  | refused => exact h
  | @added rows' htaken hkeys hnew hstored =>
    have hfree : c.target looked ∉ rows.map Row.key := by
      intro hmem
      cases hservice : c.service with
      | none =>
        obtain ⟨r, hr, hkey⟩ := List.mem_map.mp hmem
        exact hnew r hr (hmoves hservice r hr hkey)
      | some service =>
        have hone := count_le_one htaken (k := c.target looked) (by simp [Config.target, hservice])
        have hpos := List.count_pos_iff.mpr hmem
        rw [hkeys, List.count_append, List.count_singleton_self] at hone
        omega
    show List.Nodup _
    rw [hkeys]
    exact List.Nodup.append h (List.nodup_singleton _) (by simpa using hfree)
  | @changed rows' htaken hkeys hold hstored =>
    show List.Nodup _
    rw [hkeys]
    apply nodup_map_rekey h
    intro hmem
    by_contra hne
    cases hservice : c.service with
    | none =>
      obtain ⟨r, hr, hkey⟩ := List.mem_map.mp hmem
      exact hne (hkey.symm.trans (hmoves hservice r hr hkey))
    | some service =>
      have hone := count_le_one htaken (k := c.target looked) (by simp [Config.target, hservice])
      have htwo := two_le_count_rekey hold hmem hne
      rw [hkeys] at hone
      omega

end

/-! ## Runs -/

section

variable {Data Digest : Type} [DecidableEq Digest] {rows : List (Row Data Digest)}
  {hash : Data → Digest}

/-- A call of either function. -/
inductive Call (Data Digest : Type) where
  | save (env : Env Data Digest) (given : List (Given Data Digest)) (method : Method)
      (disableCleanup : Bool)
  | upsert (env : Env Data Digest) (looked : Key) (config : Config Data Digest) (new : Bool)

namespace Call

def run (hash : Data → Digest) (rows : List (Row Data Digest)) :
    Call Data Digest → Outcome × List (Row Data Digest)
  | save env given method disableCleanup =>
    saveCustomConfigs hash env rows given method disableCleanup
  | upsert env looked config new => upsertCustomConfig hash env rows looked config new

def step (hash : Data → Digest) (rows : List (Row Data Digest)) (call : Call Data Digest) :
    List (Row Data Digest) := (call.run hash rows).2

/-- A call that returns without error has stored what it was given last for each key, unless a row
that its method may not change has the key. -/
def Stores (hash : Data → Digest) (rows : List (Row Data Digest)) (call : Call Data Digest) :
    Prop :=
  (call.run hash rows).1 = .returned "" →
    match call with
    | save _ given method _ => ∀ c, Last (given.map (Given.row hash method)) c →
      (∃ r ∈ rows, r.key = filters c.key ∧ mayOverwrite method r.method = false) ∨
        ∃ r ∈ call.step hash rows, (r.key = c.key ∨ r.key = filters c.key) ∧ r.data = c.data
    | upsert _ looked config _ =>
      ∃ r ∈ call.step hash rows, r.key = config.target looked ∧ r.data = config.data

/-- Nothing without a service is given twice or moved to the key of another row, and checksums stand
for contents. -/
def Plain (hash : Data → Digest) (rows : List (Row Data Digest)) : Call Data Digest → Prop
  | save _ given method disableCleanup =>
    GivenOnce (kept rows method disableCleanup) (given.map (Given.row hash method)) ∧
      ToldApart method (kept rows method disableCleanup) (given.map (Given.row hash method))
  | upsert _ looked config _ => config.Moves rows looked

end Call

theorem step_unique (h : Unique rows) {call : Call Data Digest} (hplain : call.Plain hash rows) :
    Unique (call.step hash rows) := by
  cases call with
  | save env given method disableCleanup =>
    have hs : Saved env rows given _ (saveCustomConfigs hash env rows given method disableCleanup) :=
      saveCustomConfigs_cases hash env given
    show Unique (saveCustomConfigs hash env rows given method disableCleanup).2
    generalize saveCustomConfigs hash env rows given method disableCleanup = result at hs ⊢
    cases hs with
    | refused => exact h
    | taken htaken => exact (savedRows_unique_iff h (env.unique _ htaken)).mpr hplain.1
  | upsert env looked config new =>
    exact upserted_unique h (upsertCustomConfig_cases env h config new) hplain

theorem step_stores (h : Unique rows) {call : Call Data Digest} (hplain : call.Plain hash rows) :
    call.Stores hash rows := by
  cases call with
  | save env given method disableCleanup =>
    have hs : Saved env rows given _ (saveCustomConfigs hash env rows given method disableCleanup) :=
      saveCustomConfigs_cases hash env given
    show (saveCustomConfigs hash env rows given method disableCleanup).1 = .returned "" →
      ∀ c, Last (given.map (Given.row hash method)) c →
        (∃ r ∈ rows, r.key = filters c.key ∧ mayOverwrite method r.method = false) ∨
          ∃ r ∈ (saveCustomConfigs hash env rows given method disableCleanup).2,
            (r.key = c.key ∨ r.key = filters c.key) ∧ r.data = c.data
    generalize saveCustomConfigs hash env rows given method disableCleanup = result at hs ⊢
    intro hok c hc
    cases hs with
    | refused hempty =>
      obtain ⟨pre, post, hsplit, -⟩ := hc
      rw [hempty hok] at hsplit
      simp at hsplit
    | taken => exact stored_savedRows h hplain.2 hc
  | upsert env looked config new =>
    have hu : Upserted env rows looked config (upsertCustomConfig hash env rows looked config new) :=
      upsertCustomConfig_cases env h config new
    show (upsertCustomConfig hash env rows looked config new).1 = .returned "" →
      ∃ r ∈ (upsertCustomConfig hash env rows looked config new).2,
        r.key = config.target looked ∧ r.data = config.data
    generalize upsertCustomConfig hash env rows looked config new = result at hu ⊢
    intro hok
    cases hu with
    | refused hno => exact absurd hok hno
    | added _ _ _ hstored => exact hstored
    | changed _ _ _ hstored => exact hstored

/-- **Custom configurations.** In every run of calls that give nothing without a service twice, move
nothing without a service to the key of another row, and whose checksums stand for contents, each
key has one row at most in every state, and each call stores what it is given. -/
theorem configs_unique (hash : Data → Digest) {rows : List (Row Data Digest)} (h : Unique rows)
    {calls : List (Call Data Digest)}
    (hplain : Run.Meets (Call.step hash) (Call.Plain hash) rows calls)
    {before after : List (Call Data Digest)} (hsplit : calls = before ++ after) :
    Unique (Run.run (Call.step hash) rows before) ∧
      ∀ call ∈ after.head?, call.Stores hash
        (Run.run (Call.step hash) rows before) := by
  subst hsplit
  have hstep : ∀ rows call, Unique rows → Call.Plain hash rows call →
      Unique (Call.step hash rows call) := fun _ _ hs hp => step_unique hs hp
  have hunique := Run.invariant_of_append hstep h hplain
  refine ⟨hunique, fun call hcall => ?_⟩
  cases after with
  | nil => cases hcall
  | cons call' after =>
    obtain rfl : call' = call := by simpa using hcall
    exact step_stores hunique (Run.meets_append.mp hplain).2.1

end

/-! ## Two variables for one configuration -/

/-- A database that only has the unique constraint. -/
def sqlite : Env String String where
  readonly := false
  hasService := fun _ => true
  raises := false
  commitError := fun rows =>
    if Unique (ofServices rows) then none else some "UNIQUE constraint failed"
  unique := fun rows h => by
    split at h
    · assumption
    · cases h
  text := fun rows error h => by
    split at h
    · cases h
    · cases h
      decide

def allowAll : String := "# CREATED BY ENV\nallow all;"

def denyAll : String := "# CREATED BY ENV\ndeny all;"

/-- SHA-256 of the two texts. -/
def sha256 (text : String) : String :=
  if text = allowAll then "803fcccdaa57658f30ca03c1db4213420b3ffa268b19fb10dbbc7bc0fbb5f923"
  else if text = denyAll then "0e61c5389775b2f2fcbffe0ae2c72d573df7022f98ecab1430de71c628ace7f0"
  else ""

/-- `CUSTOM_CONF_HTTP_access` and `CUSTOM_CONF_HTTP_access.conf`, as the scheduler reads them. -/
def twoVariables : List (Given String String) :=
  [.exploded allowAll (some "") "HTTP" "access" false,
    .exploded denyAll (some "") "HTTP" "access" false]

theorem global_config_twice :
    (saveCustomConfigs sha256 sqlite [] twoVariables .scheduler false).1 = .returned "" ∧
      ¬ Unique (Run.run (Call.step sha256) [] [.save sqlite twoVariables .scheduler false]) := by
  decide +kernel

/-- One variable, and a change in the web interface. -/
def storedOnce : Call String String :=
  .save sqlite [.exploded allowAll (some "") "HTTP" "access" false] .scheduler false

def changedLater : Call String String :=
  .upsert sqlite (none, "http", "access")
    ⟨none, some "http", some "access", denyAll, none, some .ui, false⟩ false

theorem configs_unique_access :
    Unique (Run.run (Call.step sha256) [] [storedOnce]) ∧
      ∀ call ∈ [changedLater].head?, call.Stores sha256
        (Run.run (Call.step sha256) [] [storedOnce]) := by
  have hplain : Run.Meets (Call.step sha256) (Call.Plain sha256) [] [storedOnce, changedLater] := by
    refine ⟨⟨?_, nofun⟩, fun _ => ?_, trivial⟩
    · show Unique _
      decide +kernel
    · decide +kernel
  have hsplit : [storedOnce, changedLater] = [storedOnce] ++ [changedLater] := rfl
  exact configs_unique sha256 (show Unique [] from List.nodup_nil) hplain hsplit

end BunkerWeb.Db.CustomConfigs
