import Mathlib.Data.List.Nodup

/-!
# Dictionaries that keep their order

The keys stand in the order in which they came: a key that is there keeps its place when it gets
another value, and a key that was deleted comes last when it is put again.

`filter_keys_put` and `filter_keys_del` are the frame rules for the order: writing to a key leaves
the order of all others.
-/

namespace Lib

/-- Keys with their values, no key twice. -/
structure Ordered (κ ν : Type*) where
  items : List (κ × ν)
  nodup : (items.map Prod.fst).Nodup

namespace Ordered

variable {κ ν : Type*}

def keys (d : Ordered κ ν) : List κ := d.items.map Prod.fst

theorem keys_nodup (d : Ordered κ ν) : d.keys.Nodup := d.nodup

def empty : Ordered κ ν := ⟨[], List.nodup_nil⟩

variable [DecidableEq κ]

/-- The value of a key. -/
def get (d : Ordered κ ν) (k : κ) : Option ν := (d.items.find? (·.1 = k)).map Prod.snd

/-- The items without a key. -/
def del (d : Ordered κ ν) (k : κ) : Ordered κ ν :=
  ⟨d.items.filter (·.1 ≠ k), d.nodup.sublist (List.filter_sublist.map _)⟩

private theorem map_fst_update (l : List (κ × ν)) (k : κ) (v : ν) :
    (l.map fun e => if e.1 = k then (k, v) else e).map Prod.fst = l.map Prod.fst := by
  rw [List.map_map]
  refine List.map_congr_left fun e _ => ?_
  rw [Function.comp_apply]
  split
  next h => exact h.symm
  next => rfl

/-- The key with the value, in its place or at the end. -/
def put (d : Ordered κ ν) (k : κ) (v : ν) : Ordered κ ν :=
  if h : k ∈ d.keys then
    ⟨d.items.map fun e => if e.1 = k then (k, v) else e,
      (map_fst_update d.items k v).symm ▸ d.nodup⟩
  else
    ⟨d.items ++ [(k, v)], by
      rw [List.map_append]
      exact List.Nodup.append d.nodup (List.nodup_singleton k) (by simpa [keys] using h)⟩

variable (d : Ordered κ ν) (k k' : κ) (v : ν)

theorem get_eq_some : d.get k = some v ↔ (k, v) ∈ d.items := by
  unfold get
  constructor
  · intro h
    obtain ⟨e, he, rfl⟩ := Option.map_eq_some_iff.mp h
    obtain rfl : e.1 = k := by simpa using List.find?_some he
    exact List.mem_of_find?_eq_some he
  · intro h
    cases hfind : d.items.find? (·.1 = k) with
    | none =>
      have hno := List.find?_eq_none.mp hfind (k, v) h
      simp at hno
    | some e =>
      have hkey : e.1 = k := by simpa using List.find?_some hfind
      have he := List.inj_on_of_nodup_map d.nodup (List.mem_of_find?_eq_some hfind) h hkey
      rw [he, Option.map_some]

theorem mem_keys : k ∈ d.keys ↔ ∃ v, d.get k = some v := by
  simp only [get_eq_some, keys, List.mem_map, Prod.exists, exists_and_right, exists_eq_right]

theorem get_eq_none : d.get k = none ↔ k ∉ d.keys := by
  rw [mem_keys]
  cases d.get k <;> simp

theorem get_del : (d.del k).get k' = if k' = k then none else d.get k' := by
  refine Option.ext fun w => ?_
  rw [get_eq_some, del, List.mem_filter]
  split
  next h => simp [h]
  next h => simp [h, get_eq_some]

theorem get_put : (d.put k v).get k' = if k' = k then some v else d.get k' := by
  refine Option.ext fun w => ?_
  rw [get_eq_some]
  unfold put
  split
  next hmem =>
    obtain ⟨e, he, rfl⟩ := List.mem_map.mp hmem
    rw [List.mem_map]
    split
    next h =>
      subst h
      constructor
      · rintro ⟨e', -, heq⟩
        split at heq
        next => rw [← (Prod.mk.inj heq).2]
        next hne => exact absurd (congrArg Prod.fst heq) hne
      · rintro ⟨⟩
        exact ⟨e, he, if_pos rfl⟩
    next h =>
      rw [get_eq_some]
      constructor
      · rintro ⟨e', he', heq⟩
        split at heq
        next => exact absurd (Prod.mk.inj heq).1.symm h
        next => exact heq ▸ he'
      · exact fun hw => ⟨_, hw, if_neg h⟩
  next hmem =>
    rw [List.mem_append, List.mem_singleton]
    split
    next h =>
      subst h
      have hno : (k', w) ∉ d.items := fun hw => hmem (List.mem_map.mpr ⟨_, hw, rfl⟩)
      simp [hno, eq_comm]
    next h => simp [h, get_eq_some]

theorem keys_put : (d.put k v).keys = if k ∈ d.keys then d.keys else d.keys ++ [k] := by
  unfold put
  split
  · exact map_fst_update _ _ _
  · rw [keys, List.map_append]
    rfl

theorem keys_del : (d.del k).keys = d.keys.filter (· ≠ k) := by
  rw [keys, del, keys, List.filter_map]
  rfl

theorem filter_keys_put {p : κ → Bool} (h : p k = false) :
    (d.put k v).keys.filter p = d.keys.filter p := by
  rw [keys_put]
  split
  · rfl
  · rw [List.filter_append, List.filter_cons_of_neg (by simp [h]), List.filter_nil, List.append_nil]

theorem filter_keys_del {p : κ → Bool} (h : p k = false) :
    (d.del k).keys.filter p = d.keys.filter p := by
  rw [keys_del, List.filter_filter]
  refine List.filter_congr fun k' _ => ?_
  by_cases hk : k' = k
  · simp [hk, h]
  · simp [hk]

end Ordered

end Lib
