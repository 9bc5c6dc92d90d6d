import BunkerWeb.Lib.Dict

/-!
# Tables that follow definitions

A table is compared with a dictionary of definitions: rows whose key has no definition are deleted,
definitions whose key has no row are put as new rows, and rows that are not as their definition
says are updated. The comparison reads a part of the table only (those rows that are in scope), and
the statements that apply it may look at less than the key (`index`).

`mem_apply` says which rows a table has afterwards, and `diff_isEmpty_iff` when there is nothing to
do.
-/

namespace Lib

structure Reconcile (κ ν ρ ι : Type) where
  key : ρ → κ
  /-- What the statements look at to find the rows of a key. -/
  index : κ → ι
  fresh : κ → ν → ρ
  /-- The row after an update. -/
  merge : κ → ν → ρ → ρ
  removable : ρ → Bool

/-- The changes that a comparison asks for. -/
structure Diff (κ ν ρ ι : Type) where
  delete : List ι
  put : List ρ
  update : List (κ × ν)

variable {κ ν ρ ι : Type}

namespace Diff

def isEmpty (d : Diff κ ν ρ ι) : Bool := d.delete.isEmpty && d.put.isEmpty && d.update.isEmpty

theorem isEmpty_iff {d : Diff κ ν ρ ι} : d.isEmpty = true ↔ d = ⟨[], [], []⟩ := by
  obtain ⟨delete, put, update⟩ := d
  simp [isEmpty, and_assoc]

end Diff

namespace Reconcile

variable {c : Reconcile κ ν ρ ι} {desired : Dict κ ν} {table old : List ρ} {r : ρ} {k : κ} {v : ν}

/-- The rows that are made have their keys, and an update that was made has nothing to do. -/
structure Lawful (c : Reconcile κ ν ρ ι) : Prop where
  key_fresh : ∀ k v, c.key (c.fresh k v) = k
  key_merge : ∀ k v r, c.index (c.key r) = c.index k → c.key (c.merge k v r) = c.key r
  merge_merge : ∀ k v r, c.key r = k → c.merge k v (c.merge k v r) = c.merge k v r
  merge_fresh : ∀ k v, c.merge k v (c.fresh k v) = c.fresh k v

/-- A row of a definition, after the comparison with the rows that are in scope. -/
def Made (c : Reconcile κ ν ρ ι) (table : List ρ) (scope : ρ → Bool) (k : κ) (v : ν) (r : ρ) :
    Prop :=
  (∃ r₀ ∈ table, scope r₀ = true ∧ c.key r₀ = k ∧ r = c.merge k v r₀) ∨
    ((∀ r₀ ∈ table, scope r₀ = true → c.key r₀ ≠ k) ∧ r = c.fresh k v)

theorem Made.key_eq (hc : c.Lawful) {scope : ρ → Bool} (h : Made c table scope k v r) :
    c.key r = k := by
  rcases h with ⟨r₀, -, -, hkey, rfl⟩ | ⟨-, rfl⟩
  · rw [hc.key_merge _ _ _ (by rw [hkey]), hkey]
  · exact hc.key_fresh k v

theorem Made.merge_eq (hc : c.Lawful) {scope : ρ → Bool} (h : Made c table scope k v r) :
    c.merge k v r = r := by
  rcases h with ⟨r₀, -, -, hkey, rfl⟩ | ⟨-, rfl⟩
  · exact hc.merge_merge k v r₀ hkey
  · exact hc.merge_fresh k v

theorem exists_made (c : Reconcile κ ν ρ ι) (table : List ρ) (scope : ρ → Bool) (k : κ) (v : ν) :
    ∃ r, Made c table scope k v r := by
  by_cases h : ∃ r₀ ∈ table, scope r₀ = true ∧ c.key r₀ = k
  · obtain ⟨r₀, hr₀, hscope, hkey⟩ := h
    exact ⟨_, .inl ⟨r₀, hr₀, hscope, hkey, rfl⟩⟩
  · exact ⟨_, .inr ⟨fun r₀ hr₀ hscope hkey => h ⟨r₀, hr₀, hscope, hkey⟩, rfl⟩⟩

/-- A definition makes one row, when no two rows of the table have the same index. -/
theorem Made.unique {scope : ρ → Bool} {r' : ρ}
    (hnodup : (table.map fun r => c.index (c.key r)).Nodup) (h : Made c table scope k v r)
    (h' : Made c table scope k v r') : r = r' := by
  rcases h with ⟨r₀, hr₀, hscope, hkey, rfl⟩ | ⟨hnew, rfl⟩ <;>
    rcases h' with ⟨r₁, hr₁, hscope', hkey', rfl⟩ | ⟨hnew', rfl⟩
  · obtain rfl := List.inj_on_of_nodup_map hnodup hr₀ hr₁ (by rw [hkey, hkey'])
    rfl
  · exact absurd hkey (hnew' r₀ hr₀ hscope)
  · exact absurd hkey' (hnew r₁ hr₁ hscope')
  · rfl

/-! ## The comparison -/

section

variable [DecidableEq κ] [DecidableEq ρ]

/-- The comparison of the rows `old` with the definitions. -/
def diff (c : Reconcile κ ν ρ ι) (desired : Dict κ ν) (old : List ρ) : Diff κ ν ρ ι where
  delete := (old.filter fun r => c.removable r && (desired.lookup (c.key r)).isNone).map
    fun r => c.index (c.key r)
  put := (desired.items.filter fun e => e.1 ∉ old.map c.key).map fun e => c.fresh e.1 e.2
  update := desired.items.filter fun e => ∃ r ∈ old, c.key r = e.1 ∧ c.merge e.1 e.2 r ≠ r

/-- Nothing is to be done: no row is to be deleted, each definition has a row, and the rows are as
their definitions say. -/
theorem diff_isEmpty_iff : (c.diff desired old).isEmpty = true ↔
    (∀ r ∈ old, c.removable r = true → ∃ v, desired.lookup (c.key r) = some v) ∧
    (∀ k v, desired.lookup k = some v → ∃ r ∈ old, c.key r = k) ∧
    ∀ k v, desired.lookup k = some v → ∀ r ∈ old, c.key r = k → c.merge k v r = r := by
  have hdelete : (c.diff desired old).delete = [] ↔
      ∀ r ∈ old, c.removable r = true → ∃ v, desired.lookup (c.key r) = some v := by
    rw [diff, List.map_eq_nil_iff, List.filter_eq_nil_iff]
    refine forall₂_congr fun r _ => ?_
    rw [← Option.isSome_iff_exists, Bool.and_eq_true, not_and, Option.isNone_iff_eq_none,
      Option.isSome_iff_ne_none]
  have hput : (c.diff desired old).put = [] ↔
      ∀ k v, desired.lookup k = some v → ∃ r ∈ old, c.key r = k := by
    rw [diff, List.map_eq_nil_iff, List.filter_eq_nil_iff, Prod.forall]
    refine forall₂_congr fun k v => ?_
    rw [Dict.mem_items, decide_eq_true_eq, not_not, List.mem_map]
  have hupdate : (c.diff desired old).update = [] ↔
      ∀ k v, desired.lookup k = some v → ∀ r ∈ old, c.key r = k → c.merge k v r = r := by
    rw [diff, List.filter_eq_nil_iff, Prod.forall]
    refine forall₂_congr fun k v => ?_
    rw [Dict.mem_items, decide_eq_true_eq]
    simp only [not_exists, not_and, not_not]
  rw [← hdelete, ← hput, ← hupdate, Diff.isEmpty, Bool.and_eq_true, Bool.and_eq_true,
    List.isEmpty_iff, List.isEmpty_iff, List.isEmpty_iff, and_assoc]

theorem mem_diff_delete {scope : ρ → Bool}
    (hnodup : (table.map fun r => c.index (c.key r)).Nodup) (hr : r ∈ table) :
    c.index (c.key r) ∈ (c.diff desired (table.filter scope)).delete ↔
      scope r = true ∧ c.removable r = true ∧ desired.lookup (c.key r) = none := by
  rw [diff, List.mem_map]
  constructor
  · rintro ⟨r₀, hr₀, hindex⟩
    obtain ⟨hold, hcond⟩ := List.mem_filter.mp hr₀
    obtain ⟨hmem, hscope⟩ := List.mem_filter.mp hold
    obtain rfl := List.inj_on_of_nodup_map hnodup hmem hr hindex
    obtain ⟨hremovable, hnone⟩ := (Bool.and_eq_true _ _).mp hcond
    exact ⟨hscope, hremovable, Option.isNone_iff_eq_none.mp hnone⟩
  · rintro ⟨hscope, hremovable, hnone⟩
    refine ⟨r, List.mem_filter.mpr ⟨List.mem_filter.mpr ⟨hr, hscope⟩, ?_⟩, rfl⟩
    rw [hremovable, hnone]
    rfl

/-- The updates that look for a row of the table are those of its key. -/
theorem mem_diff_update {scope : ρ → Bool} {e : κ × ν}
    (hnodup : (table.map fun r => c.index (c.key r)).Nodup) (hr : r ∈ table) :
    (e ∈ (c.diff desired (table.filter scope)).update ∧ c.index e.1 = c.index (c.key r)) ↔
      scope r = true ∧ e.1 = c.key r ∧ desired.lookup (c.key r) = some e.2 ∧
        c.merge e.1 e.2 r ≠ r := by
  rw [diff, List.mem_filter, decide_eq_true_eq]
  constructor
  · rintro ⟨⟨he, r₀, hold, hkey, hne⟩, hindex⟩
    obtain ⟨hmem, hscope⟩ := List.mem_filter.mp hold
    obtain rfl := List.inj_on_of_nodup_map hnodup hmem hr (by rw [hkey, hindex])
    exact ⟨hscope, hkey.symm, by rw [hkey]; exact Dict.mem_items.mp he, hne⟩
  · rintro ⟨hscope, hkey, hlookup, hne⟩
    refine ⟨⟨Dict.mem_items.mpr (hkey ▸ hlookup), r, List.mem_filter.mpr ⟨hr, hscope⟩, hkey.symm,
      hne⟩, by rw [hkey]⟩

end

/-! ## The statements -/

section

variable [DecidableEq ι]

/-- The deletions and the new rows. -/
def put (c : Reconcile κ ν ρ ι) (d : Diff κ ν ρ ι) (table : List ρ) : List ρ :=
  table.filter (fun r => c.index (c.key r) ∉ d.delete) ++ d.put

def mergeOne (c : Reconcile κ ν ρ ι) (r : ρ) (e : κ × ν) : ρ :=
  if c.index (c.key r) = c.index e.1 then c.merge e.1 e.2 r else r

/-- The updates, one after the other. -/
def update (c : Reconcile κ ν ρ ι) (d : Diff κ ν ρ ι) (table : List ρ) : List ρ :=
  d.update.foldl (fun rows e => rows.map fun r => c.mergeOne r e) table

def apply (c : Reconcile κ ν ρ ι) (d : Diff κ ν ρ ι) (table : List ρ) : List ρ :=
  c.update d (c.put d table)

theorem put_of_isEmpty {d : Diff κ ν ρ ι} (h : d.isEmpty = true) : c.put d table = table := by
  rw [Diff.isEmpty_iff.mp h]
  simp [put]

theorem update_of_isEmpty {d : Diff κ ν ρ ι} (h : d.isEmpty = true) :
    c.update d table = table := by
  rw [Diff.isEmpty_iff.mp h]
  rfl

theorem update_eq_map (d : Diff κ ν ρ ι) (table : List ρ) :
    c.update d table = table.map fun r => d.update.foldl c.mergeOne r := by
  rw [update]
  induction d.update generalizing table with
  | nil => simp
  | cons e l ih => rw [List.foldl_cons, ih, List.map_map]; rfl

/-- A row that no update looks for. -/
theorem foldl_mergeOne_of_miss {l : List (κ × ν)} (h : ∀ e ∈ l, c.index e.1 ≠ c.index (c.key r)) :
    l.foldl c.mergeOne r = r := by
  induction l with
  | nil => rfl
  | cons e l ih =>
    rw [List.foldl_cons, mergeOne, if_neg (h e List.mem_cons_self).symm]
    exact ih fun e he => h e (List.mem_cons_of_mem _ he)

section

variable (hc : c.Lawful)

include hc

/-- A row that one update looks for. -/
theorem foldl_mergeOne_of_hit {l : List (κ × ν)} (hl : l.Nodup) {e : κ × ν} (he : e ∈ l)
    (hindex : c.index e.1 = c.index (c.key r))
    (honly : ∀ e' ∈ l, c.index e'.1 = c.index (c.key r) → e' = e) :
    l.foldl c.mergeOne r = c.merge e.1 e.2 r := by
  induction l with
  | nil => cases he
  | cons a l ih =>
    have honly' : ∀ e' ∈ l, c.index e'.1 = c.index (c.key r) → e' = e :=
      fun e' he' => honly e' (List.mem_cons_of_mem _ he')
    obtain ⟨hnot, hl⟩ := List.nodup_cons.mp hl
    rw [List.foldl_cons, mergeOne]
    by_cases ha : c.index (c.key r) = c.index a.1
    · obtain rfl := honly a List.mem_cons_self ha.symm
      rw [if_pos ha]
      refine foldl_mergeOne_of_miss fun e' he' hhit => hnot ?_
      rw [hc.key_merge _ _ _ ha] at hhit
      rwa [← honly' e' he' hhit]
    · rw [if_neg ha]
      refine ih hl ((List.mem_cons.mp he).resolve_left fun h => ha ?_) honly'
      rw [← h, hindex]

end

end

/-! ## The table afterwards -/

section

variable [DecidableEq κ] [DecidableEq ρ] [DecidableEq ι] (hc : c.Lawful) {scope : ρ → Bool}
  (hnodup : (table.map fun r => c.index (c.key r)).Nodup)

include hc hnodup

omit hc in
theorem updated_of_undefined (hr : r ∈ table)
    (h : scope r = true → desired.lookup (c.key r) = none) :
    (c.diff desired (table.filter scope)).update.foldl c.mergeOne r = r := by
  refine foldl_mergeOne_of_miss fun e he hindex => ?_
  obtain ⟨hscope, -, hlookup, -⟩ := (mem_diff_update hnodup hr).mp ⟨he, hindex⟩
  rw [h hscope] at hlookup
  cases hlookup

theorem updated_of_defined (hr : r ∈ table) (hscope : scope r = true)
    (hlookup : desired.lookup (c.key r) = some v) :
    (c.diff desired (table.filter scope)).update.foldl c.mergeOne r = c.merge (c.key r) v r := by
  have hvalue : ∀ e : κ × ν, e.1 = c.key r → desired.lookup (c.key r) = some e.2 →
      e = (c.key r, v) := fun e hkey h => Prod.ext hkey (Option.some.inj (h.symm.trans hlookup))
  by_cases hne : c.merge (c.key r) v r = r
  · rw [hne]
    refine foldl_mergeOne_of_miss fun e he hindex => ?_
    obtain ⟨-, hkey, hlookup', hne'⟩ := (mem_diff_update hnodup hr).mp ⟨he, hindex⟩
    rw [hvalue e hkey hlookup'] at hne'
    exact hne' hne
  · obtain ⟨he, -⟩ := (mem_diff_update (e := (c.key r, v)) hnodup hr).mpr ⟨hscope, rfl, hlookup, hne⟩
    refine foldl_mergeOne_of_hit hc ((Dict.items_nodup _).filter _) he rfl fun e' he' hindex => ?_
    obtain ⟨-, hkey, hlookup', -⟩ := (mem_diff_update hnodup hr).mp ⟨he', hindex⟩
    exact hvalue e' hkey hlookup'

omit hc in
/-- No update looks for a new row: the row that the update is for would have the same index. -/
theorem updated_of_fresh (hputs : ((c.put (c.diff desired (table.filter scope)) table).map
      fun r => c.index (c.key r)).Nodup)
    (hlookup : desired.lookup k = some v) (hnew : k ∉ (table.filter scope).map c.key) :
    (c.diff desired (table.filter scope)).update.foldl c.mergeOne (c.fresh k v) = c.fresh k v := by
  refine foldl_mergeOne_of_miss fun e he hindex => ?_
  obtain ⟨hitem, hcond⟩ := List.mem_filter.mp he
  obtain ⟨r₀, hold, hr₀, -⟩ := of_decide_eq_true hcond
  obtain ⟨hmem, -⟩ := List.mem_filter.mp hold
  rw [put, List.map_append] at hputs
  refine List.disjoint_of_nodup_append hputs (a := c.index (c.key r₀))
    (List.mem_map_of_mem (List.mem_filter.mpr ⟨hmem, decide_eq_true fun hdel => ?_⟩)) ?_
  · have hdefined := Dict.mem_items.mp hitem
    rw [← hr₀, ((mem_diff_delete hnodup hmem).mp hdel).2.2] at hdefined
    cases hdefined
  · refine List.mem_map.mpr ⟨c.fresh k v, ?_, by rw [hr₀, hindex]⟩
    refine List.mem_map.mpr ⟨(k, v), List.mem_filter.mpr ⟨?_, decide_eq_true hnew⟩, rfl⟩
    exact Dict.mem_items.mpr hlookup

omit hc in
/-- A row that no definition has the key of stays when it is not removable or not in scope. -/
theorem mem_apply_of_undefined (hr : r ∈ table)
    (hno : scope r = true → c.removable r = false ∧ desired.lookup (c.key r) = none) :
    r ∈ c.apply (c.diff desired (table.filter scope)) table := by
  rw [apply, update_eq_map, List.mem_map, put]
  refine ⟨r, List.mem_append_left _
    (List.mem_filter.mpr ⟨hr, decide_eq_true fun hdel => ?_⟩), ?_⟩
  · obtain ⟨hscope, hrem, -⟩ := (mem_diff_delete hnodup hr).mp hdel
    rw [(hno hscope).1] at hrem
    cases hrem
  · exact updated_of_undefined hnodup hr fun hscope => (hno hscope).2

omit [DecidableEq κ] [DecidableEq ρ] hnodup in
theorem key_foldl_mergeOne (l : List (κ × ν)) : c.key (l.foldl c.mergeOne r) = c.key r := by
  induction l generalizing r with
  | nil => rfl
  | cons e l ih =>
    rw [List.foldl_cons, ih, mergeOne]
    split
    · exact hc.key_merge _ _ _ ‹_›
    · rfl

omit hnodup in
/-- A row that is in scope, removable and without a definition goes, and none has its key. -/
theorem key_ne_of_mem_apply (hr : r ∈ table) (hscope : scope r = true)
    (hremovable : c.removable r = true) (hnone : desired.lookup (c.key r) = none) {r' : ρ}
    (hr' : r' ∈ c.apply (c.diff desired (table.filter scope)) table) : c.key r' ≠ c.key r := by
  rw [apply, update_eq_map, List.mem_map, put] at hr'
  obtain ⟨r₁, hr₁, rfl⟩ := hr'
  rw [key_foldl_mergeOne hc]
  intro hkey
  rcases List.mem_append.mp hr₁ with hr₁ | hr₁
  · refine of_decide_eq_true (List.mem_filter.mp hr₁).2 ?_
    rw [hkey]
    refine List.mem_map.mpr ⟨r, List.mem_filter.mpr ⟨List.mem_filter.mpr ⟨hr, hscope⟩, ?_⟩, rfl⟩
    rw [hremovable, hnone]
    rfl
  · obtain ⟨e, he, rfl⟩ := List.mem_map.mp hr₁
    have hlookup := Dict.mem_items.mp (List.mem_filter.mp he).1
    rw [hc.key_fresh] at hkey
    rw [hkey, hnone] at hlookup
    cases hlookup

/-- The rows of the table afterwards, when no two rows have the same index before the updates. -/
theorem mem_apply (hputs : ((c.put (c.diff desired (table.filter scope)) table).map
      fun r => c.index (c.key r)).Nodup) :
    r ∈ c.apply (c.diff desired (table.filter scope)) table ↔
      (r ∈ table ∧ (scope r = true → c.removable r = false ∧ desired.lookup (c.key r) = none)) ∨
      ∃ k v, desired.lookup k = some v ∧ Made c table scope k v r := by
  constructor
  · intro hr
    rw [apply, update_eq_map, List.mem_map, put] at hr
    obtain ⟨r₁, hr₁, rfl⟩ := hr
    rcases List.mem_append.mp hr₁ with hr₁ | hr₁
    · obtain ⟨hr₁, hkept⟩ := List.mem_filter.mp hr₁
      have hkept := (mem_diff_delete hnodup hr₁).not.mp (of_decide_eq_true hkept)
      by_cases hdefined : ∃ v, scope r₁ = true ∧ desired.lookup (c.key r₁) = some v
      · obtain ⟨v, hscope, hlookup⟩ := hdefined
        rw [updated_of_defined hc hnodup hr₁ hscope hlookup]
        exact .inr ⟨c.key r₁, v, hlookup, .inl ⟨r₁, hr₁, hscope, rfl, rfl⟩⟩
      · have hnone : scope r₁ = true → desired.lookup (c.key r₁) = none := fun hscope =>
          Option.eq_none_iff_forall_ne_some.mpr fun v hv => hdefined ⟨v, hscope, hv⟩
        rw [updated_of_undefined hnodup hr₁ hnone]
        exact .inl ⟨hr₁, fun hscope => ⟨Bool.eq_false_iff.mpr fun hrem =>
          hkept ⟨hscope, hrem, hnone hscope⟩, hnone hscope⟩⟩
    · obtain ⟨e, he, rfl⟩ := List.mem_map.mp hr₁
      obtain ⟨he, hnew⟩ := List.mem_filter.mp he
      have hnew := of_decide_eq_true hnew
      have hlookup := Dict.mem_items.mp he
      rw [updated_of_fresh hnodup hputs hlookup hnew]
      refine .inr ⟨e.1, e.2, hlookup, .inr ⟨fun r₀ hr₀ hscope hkey => hnew ?_, rfl⟩⟩
      exact List.mem_map.mpr ⟨r₀, List.mem_filter.mpr ⟨hr₀, hscope⟩, hkey⟩
  · rintro (⟨hr, hno⟩ | ⟨k, v, hlookup, hmade⟩)
    · exact mem_apply_of_undefined hnodup hr hno
    rw [apply, update_eq_map, List.mem_map, put]
    rcases hmade with ⟨r₀, hr₀, hscope, rfl, rfl⟩ | ⟨hnew, rfl⟩
    · refine ⟨r₀, List.mem_append_left _
        (List.mem_filter.mpr ⟨hr₀, decide_eq_true fun hdel => ?_⟩), ?_⟩
      · rw [((mem_diff_delete hnodup hr₀).mp hdel).2.2] at hlookup
        cases hlookup
      · exact updated_of_defined hc hnodup hr₀ hscope hlookup
    · have hitem : (k, v) ∈ desired.items := Dict.mem_items.mpr hlookup
      have hnew' : k ∉ (table.filter scope).map c.key := fun hmem => by
        obtain ⟨r₀, hr₀, hkey⟩ := List.mem_map.mp hmem
        obtain ⟨hr₀, hscope⟩ := List.mem_filter.mp hr₀
        exact hnew r₀ hr₀ hscope hkey
      refine ⟨c.fresh k v, List.mem_append_right _ ?_,
        updated_of_fresh hnodup hputs hlookup hnew'⟩
      exact List.mem_map.mpr ⟨(k, v), List.mem_filter.mpr ⟨hitem, decide_eq_true hnew'⟩, rfl⟩

end

/-! ## The next comparison -/

section

variable [DecidableEq κ] [DecidableEq ρ] [DecidableEq ι] (hc : c.Lawful) {scope : ρ → Bool}
  (hnodup : (table.map fun r => c.index (c.key r)).Nodup)
  (hputs : ((c.put (c.diff desired (table.filter scope)) table).map
    fun r => c.index (c.key r)).Nodup)

include hc hnodup hputs

/-- A row that was not in scope and that a definition has the key of would have stood in the way of
the new row. -/
theorem not_defined_of_not_scope (hr : r ∈ table) (hscope : scope r = false) :
    desired.lookup (c.key r) = none := by
  refine Option.eq_none_iff_forall_ne_some.mpr fun v hlookup => ?_
  rw [put, List.map_append] at hputs
  refine List.disjoint_of_nodup_append hputs (a := c.index (c.key r)) ?_ ?_
  · refine List.mem_map_of_mem (List.mem_filter.mpr ⟨hr, decide_eq_true fun hdel => ?_⟩)
    rw [((mem_diff_delete hnodup hr).mp hdel).1] at hscope
    cases hscope
  · refine List.mem_map.mpr ⟨c.fresh (c.key r) v, ?_, by rw [hc.key_fresh]⟩
    refine List.mem_map.mpr ⟨(c.key r, v), List.mem_filter.mpr ⟨Dict.mem_items.mpr hlookup, ?_⟩, rfl⟩
    refine decide_eq_true fun hmem => ?_
    obtain ⟨r₀, hr₀, hkey⟩ := List.mem_map.mp hmem
    obtain ⟨hr₀, hscope₀⟩ := List.mem_filter.mp hr₀
    obtain rfl := List.inj_on_of_nodup_map hnodup hr₀ hr (by rw [hkey])
    rw [hscope₀] at hscope
    cases hscope

/-- The rows of a definition, among the rows that the table has afterwards. -/
theorem made_of_mem_apply (hlookup : desired.lookup (c.key r) = some v)
    (hr : r ∈ c.apply (c.diff desired (table.filter scope)) table) :
    Made c table scope (c.key r) v r := by
  rcases (mem_apply hc hnodup hputs).mp hr with ⟨hr, hno⟩ | ⟨k, v', hlookup', hmade⟩
  · cases hscope : scope r with
    | true => rw [(hno hscope).2] at hlookup; cases hlookup
    | false => rw [not_defined_of_not_scope hc hnodup hputs hr hscope] at hlookup; cases hlookup
  · rw [hmade.key_eq hc] at hlookup ⊢
    rw [hlookup'] at hlookup
    cases hlookup
    exact hmade

/-- When the next comparison has nothing to do, if between the two the rows that are not valid have
been removed and other rows may have come into scope. -/
theorem diff_apply_isEmpty_iff {valid scope' : ρ → Bool}
    (hscope' : ∀ r v, desired.lookup (c.key r) = some v → scope' r = true)
    (hremovable : ∀ r, scope r = false → scope' r = true → c.removable r = true) :
    (c.diff desired (((c.apply (c.diff desired (table.filter scope)) table).filter valid).filter
      scope')).isEmpty = true ↔
    (∀ k v r, desired.lookup k = some v → Made c table scope k v r → valid r = true) ∧
    ∀ r ∈ table, scope r = false → scope' r = true → valid r = false := by
  have happly {r : ρ} := mem_apply (r := r) hc hnodup hputs
  have hold : ∀ r, r ∈ ((c.apply (c.diff desired (table.filter scope)) table).filter valid).filter
      scope' ↔ (r ∈ c.apply (c.diff desired (table.filter scope)) table ∧ valid r = true) ∧
        scope' r = true := fun r => by rw [List.mem_filter, List.mem_filter]
  rw [diff_isEmpty_iff]
  constructor
  · rintro ⟨hdelete, hput, -⟩
    refine ⟨fun k v r hlookup hmade => ?_, fun r hr hscope hscope' => ?_⟩
    · obtain ⟨r', hr', rfl⟩ := hput k v hlookup
      obtain ⟨⟨hr', hvalid⟩, -⟩ := (hold r').mp hr'
      rwa [hmade.unique hnodup (made_of_mem_apply hc hnodup hputs hlookup hr')]
    · refine Bool.eq_false_iff.mpr fun hvalid => ?_
      have hkept := happly.mpr (.inl ⟨hr, fun h => by rw [hscope] at h; cases h⟩)
      obtain ⟨v, hlookup⟩ :=
        hdelete r ((hold r).mpr ⟨⟨hkept, hvalid⟩, hscope'⟩) (hremovable r hscope hscope')
      rw [not_defined_of_not_scope hc hnodup hputs hr hscope] at hlookup
      cases hlookup
  · rintro ⟨hvalid, hlost⟩
    refine ⟨fun r hr hrem => ?_, fun k v hlookup => ?_, fun k v hlookup r hr hkey => ?_⟩
    · obtain ⟨⟨hr, hok⟩, hs⟩ := (hold r).mp hr
      rcases happly.mp hr with ⟨hr, hno⟩ | ⟨k, v, hlookup, hmade⟩
      · cases hscope : scope r with
        | true => rw [(hno hscope).1] at hrem; cases hrem
        | false => rw [hlost r hr hscope hs] at hok; cases hok
      · exact ⟨v, by rw [hmade.key_eq hc, hlookup]⟩
    · obtain ⟨r, hmade⟩ := exists_made c table scope k v
      have hkey := hmade.key_eq hc
      exact ⟨r, (hold r).mpr ⟨⟨happly.mpr (.inr ⟨k, v, hlookup, hmade⟩),
        hvalid k v r hlookup hmade⟩, hscope' r v (by rw [hkey, hlookup])⟩, hkey⟩
    · subst hkey
      exact (made_of_mem_apply hc hnodup hputs hlookup ((hold r).mp hr).1.1).merge_eq hc

/-- The next comparison of the same part of the table has nothing to do. -/
theorem diff_apply_isEmpty (hscope : ∀ r v, desired.lookup (c.key r) = some v → scope r = true) :
    (c.diff desired ((c.apply (c.diff desired (table.filter scope)) table).filter
      scope)).isEmpty = true := by
  have hno : ∀ r, scope r = false → scope r = true → False := fun r h h' => by
    rw [h] at h'
    cases h'
  have h := (diff_apply_isEmpty_iff hc hnodup hputs hscope fun r h h' => (hno r h h').elim).mpr
    ⟨fun _ _ _ _ _ => rfl, fun r _ h h' => (hno r h h').elim⟩
  rwa [List.filter_true] at h

end

/-! ## Definitions of several owners -/

section

variable {γ α : Type} [DecidableEq κ] [DecidableEq ρ] [DecidableEq ι] (hc : c.Lawful)
  {given : List γ} {name : γ → α} {keep : γ → Bool} {items : γ → List (κ × ν)} {owner : κ → α}

/-- The rows that are made for definitions when nothing is there. -/
def rows (c : Reconcile κ ν ρ ι) (l : List (κ × ν)) : List ρ := l.map fun e => c.fresh e.1 e.2

omit [DecidableEq κ] [DecidableEq ρ] [DecidableEq ι] in
theorem mem_rows {l : List (κ × ν)} {e : κ × ν} (he : e ∈ l) : c.fresh e.1 e.2 ∈ c.rows l :=
  List.mem_map.mpr ⟨e, he, rfl⟩

/-- The owners do not contradict each other: those of one name define the same rows, none defines
two rows of one key, and those that are not kept define nothing. -/
structure Consistent (c : Reconcile κ ν ρ ι) (given : List γ) (name : γ → α) (keep : γ → Bool)
    (items : γ → List (κ × ν)) : Prop where
  alike : ∀ g ∈ given, ∀ g' ∈ given, name g = name g' →
    ∀ r, r ∈ c.rows (items g) → r ∈ c.rows (items g')
  distinct : ∀ g ∈ given, ∀ r ∈ c.rows (items g), ∀ r' ∈ c.rows (items g),
    c.key r = c.key r' → r = r'
  dropped : ∀ g ∈ given, keep g = false → items g = []

section

variable (howner : ∀ g, ∀ e ∈ items g, owner e.1 = name g)
  (hdesired : desired = Dict.setAll ∅ ((given.filter keep).flatMap items))

include howner hdesired

omit [DecidableEq ρ] [DecidableEq ι] in
/-- Each definition that stays is one of an owner of its name. -/
theorem exists_owner (h : desired.lookup k = some v) :
    ∃ g ∈ given, keep g = true ∧ name g = owner k ∧ c.fresh k v ∈ c.rows (items g) := by
  rw [hdesired] at h
  obtain ⟨g, hg, he⟩ := List.mem_flatMap.mp (Dict.mem_of_lookup_setAll h)
  obtain ⟨hg, hk⟩ := List.mem_filter.mp hg
  exact ⟨g, hg, hk, (howner g _ he).symm, mem_rows he⟩

include hc

omit [DecidableEq ρ] [DecidableEq ι] howner in
/-- Each row that an owner defines has a definition that stays. -/
theorem exists_definition {g : γ} (hg : g ∈ given) (hk : keep g = true)
    (hr : r ∈ c.rows (items g)) : ∃ v, desired.lookup (c.key r) = some v := by
  obtain ⟨e, he, rfl⟩ := List.mem_map.mp hr
  rw [hc.key_fresh, hdesired]
  exact Dict.exists_lookup_setAll (List.mem_flatMap.mpr ⟨g, List.mem_filter.mpr ⟨hg, hk⟩, he⟩)

omit [DecidableEq ρ] [DecidableEq ι] in
/-- The rows of the owner of a name are the rows of the definitions that stay. -/
theorem consistent_iff (hkeep : ∀ g g', name g = name g' → keep g = keep g') :
    Consistent c given name keep items ↔
      ∀ g ∈ given, ∀ r, owner (c.key r) = name g →
        (r ∈ c.rows (items g) ↔ ∃ k v, desired.lookup k = some v ∧ r = c.fresh k v) := by
  constructor
  · rintro ⟨halike, hdistinct, hdropped⟩ g hg r hname
    constructor
    · intro hr
      have hk : keep g = true := by
        by_contra hk
        rw [hdropped g hg (Bool.eq_false_iff.mpr hk)] at hr
        cases hr
      obtain ⟨v, h⟩ := exists_definition hc hdesired hg hk hr
      obtain ⟨g', hg', -, hname', hfresh⟩ := exists_owner howner hdesired h
      refine ⟨c.key r, v, h, hdistinct g hg r hr _ ?_ (hc.key_fresh _ v).symm⟩
      exact halike g' hg' g hg (by rw [hname', hname]) _ hfresh
    · rintro ⟨k, v, h, rfl⟩
      obtain ⟨g', hg', -, hname', hfresh⟩ := exists_owner howner hdesired h
      rw [hc.key_fresh] at hname
      exact halike g' hg' g hg (by rw [hname', hname]) _ hfresh
  · intro hrows
    have hown : ∀ g, ∀ r ∈ c.rows (items g), owner (c.key r) = name g := by
      intro g r hr
      obtain ⟨e, he, rfl⟩ := List.mem_map.mp hr
      rw [hc.key_fresh, howner g e he]
    refine ⟨fun g hg g' hg' hname r hr => ?_, fun g hg r hr r' hr' hkey => ?_, fun g hg hk => ?_⟩
    · have ho := hown g r hr
      exact (hrows g' hg' r (by rw [ho, hname])).mpr ((hrows g hg r ho).mp hr)
    · obtain ⟨k, v, h, rfl⟩ := (hrows g hg r (hown g r hr)).mp hr
      obtain ⟨k', v', h', rfl⟩ := (hrows g hg r' (hown g r' hr')).mp hr'
      rw [hc.key_fresh, hc.key_fresh] at hkey
      subst hkey
      rw [h] at h'
      cases h'
      rfl
    · refine List.eq_nil_iff_forall_not_mem.mpr fun e he => ?_
      have hr : c.fresh e.1 e.2 ∈ c.rows (items g) := mem_rows he
      obtain ⟨k, v, h, hr'⟩ := (hrows g hg _ (hown g _ hr)).mp hr
      obtain ⟨g', -, hk', hname', -⟩ := exists_owner (c := c) howner hdesired h
      rw [hkeep g g' (by rw [hname', ← hown g _ hr, hr', hc.key_fresh]), hk'] at hk
      cases hk

end

section

variable (hremovable : ∀ r, c.removable r = true)
  (hnodup : (table.map fun r => c.index (c.key r)).Nodup)
  (hputs : ((c.put (c.diff desired (table.filter fun _ => true)) table).map
    fun r => c.index (c.key r)).Nodup)

include hc hremovable hnodup hputs

/-- When the whole table is compared and the updates make rows like new ones, the table has the new
row of each definition. -/
theorem mem_apply_of_merge_eq (hmerge : ∀ k v, desired.lookup k = some v →
      ∀ r ∈ table, c.key r = k → c.merge k v r = c.fresh k v) :
    r ∈ c.apply (c.diff desired (table.filter fun _ => true)) table ↔
      ∃ k v, desired.lookup k = some v ∧ r = c.fresh k v := by
  have hkept : ¬ (r ∈ table ∧
      (true = true → c.removable r = false ∧ desired.lookup (c.key r) = none)) := by
    rintro ⟨-, hno⟩
    rw [hremovable r] at hno
    cases (hno rfl).1
  rw [mem_apply hc hnodup hputs, or_iff_right hkept]
  refine exists₂_congr fun k v => and_congr_right fun hlookup => ?_
  have hmade : ∀ r, Made c table (fun _ => true) k v r → r = c.fresh k v := by
    rintro r (⟨r₀, hr₀, -, hkey, rfl⟩ | ⟨-, rfl⟩)
    · exact hmerge k v hlookup r₀ hr₀ hkey
    · rfl
  refine ⟨hmade r, ?_⟩
  rintro rfl
  obtain ⟨r, hr⟩ := exists_made c table (fun _ => true) k v
  rwa [← hmade r hr]

/-- When the whole table is compared, the rows of each owner are exactly those that it defines if
and only if the owners do not contradict each other and the updates make rows like new ones. -/
theorem described_iff (howner : ∀ g, ∀ e ∈ items g, owner e.1 = name g)
    (hkeep : ∀ g g', name g = name g' → keep g = keep g')
    (hdesired : desired = Dict.setAll ∅ ((given.filter keep).flatMap items)) :
    (∀ g ∈ given, ∀ r, owner (c.key r) = name g →
      (r ∈ c.apply (c.diff desired (table.filter fun _ => true)) table ↔ r ∈ c.rows (items g))) ↔
    Consistent c given name keep items ∧
      ∀ k v, desired.lookup k = some v → ∀ r ∈ table, c.key r = k →
        c.merge k v r = c.fresh k v := by
  have hfresh {r : ρ} := mem_apply_of_merge_eq (r := r) hc hremovable hnodup hputs
  rw [consistent_iff hc howner hdesired hkeep]
  constructor
  · intro h
    have hmerge : ∀ k v, desired.lookup k = some v → ∀ r ∈ table, c.key r = k →
        c.merge k v r = c.fresh k v := by
      intro k v hlookup r hr hkey
      obtain ⟨g, hg, -, hname, hrow⟩ := exists_owner (c := c) howner hdesired hlookup
      -- the row that the owner describes is there, and it is the one that the definition makes
      have hmem := (h g hg _ (by rw [hc.key_fresh, hname])).mpr hrow
      have hmade := made_of_mem_apply hc hnodup hputs (by rw [hc.key_fresh, hlookup]) hmem
      rw [hc.key_fresh] at hmade
      exact Made.unique hnodup (.inl ⟨r, hr, rfl, hkey, rfl⟩) hmade
    exact ⟨fun g hg r howner => by rw [← h g hg r howner, hfresh hmerge], hmerge⟩
  · rintro ⟨h, hmerge⟩ g hg r howner
    rw [h g hg r howner, hfresh hmerge]

end

end

end Reconcile

end Lib
