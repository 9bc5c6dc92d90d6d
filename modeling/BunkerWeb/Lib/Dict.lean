import Mathlib.Data.List.AList

/-!
# Dictionaries

A dictionary is a list of keys and values without duplicate keys (Mathlib's `AList`). A dictionary
that is given keeps the order of its items; one that is written to does not keep the order in which
its keys were inserted, so nothing may depend on that order.

`setAll` writes a list of items one by one, `setAllUnless` those whose key does not hold a value
that the writer leaves alone, and `setDefaults` those whose key holds nothing yet. Each has a
lemma that says what a key holds afterwards. `setAllIn` does the same in a dictionary of dictionaries.
-/

namespace Lib

abbrev Dict (κ ν : Type*) := AList fun _ : κ => ν

namespace Dict

variable {κ ν μ : Type*}

/-- The keys with their values. -/
def items (d : Dict κ ν) : List (κ × ν) := d.entries.map fun e => (e.1, e.2)

theorem items_keys_nodup (d : Dict κ ν) : (d.items.map Prod.fst).Nodup := by
  have h := d.keys_nodup
  simpa [items, AList.keys, List.keys, Function.comp_def] using h

theorem items_nodup (d : Dict κ ν) : d.items.Nodup := (items_keys_nodup d).of_map _

/-- The dictionary of the values under a function. -/
def mapValues (f : ν → μ) (d : Dict κ ν) : Dict κ μ :=
  ⟨d.entries.map fun e => ⟨e.1, f e.2⟩, by
    have h := d.keys_nodup
    rw [List.NodupKeys, List.keys, List.map_map]
    simpa [AList.keys, List.keys, Function.comp_def] using h⟩

/-- The items whose value satisfies a predicate. -/
def keepIf (p : ν → Bool) (d : Dict κ ν) : Dict κ ν :=
  ⟨d.entries.filter fun e => p e.2, d.nodupKeys.sublist List.filter_sublist⟩

theorem items_keepIf (p : ν → Bool) (d : Dict κ ν) :
    (d.keepIf p).items = d.items.filter fun e => p e.2 := by
  rw [items, keepIf, items, List.filter_map]
  rfl

variable [DecidableEq κ]

/-- A list of items as a dictionary; of two items with one key the first is kept. -/
def ofItems (l : List (κ × ν)) : Dict κ ν := (l.map fun e => (⟨e.1, e.2⟩ : Σ _ : κ, ν)).toAList

/-- Writes the items in order, so that the last item of a key is the one that stays. -/
def setAll (d : Dict κ ν) (l : List (κ × ν)) : Dict κ ν :=
  l.foldl (fun d e => d.insert e.1 e.2) d

/-- Writes the items in order, but leaves a key alone while its value satisfies `keep`. -/
def setAllUnless (keep : ν → Bool) (d : Dict κ ν) (l : List (κ × ν)) : Dict κ ν :=
  l.foldl (fun d e => if (d.lookup e.1).any keep then d else d.insert e.1 e.2) d

/-- Writes the items whose key is not there yet. -/
def setDefaults (d : Dict κ ν) (l : List (κ × ν)) : Dict κ ν := d.setAllUnless (fun _ => true) l

/-- The last value that `l` has for `k`. -/
def lastOf (k : κ) (l : List (κ × ν)) : Option ν :=
  l.foldl (fun r e => if e.1 = k then some e.2 else r) none

theorem mem_items {d : Dict κ ν} {k : κ} {v : ν} : (k, v) ∈ d.items ↔ d.lookup k = some v := by
  rw [items, List.mem_map]
  constructor
  · rintro ⟨⟨k', v'⟩, he, hkv⟩
    cases hkv
    exact Option.mem_def.mp (AList.mem_lookup_iff.mpr he)
  · intro h
    exact ⟨⟨k, v⟩, AList.mem_lookup_iff.mp (Option.mem_def.mpr h), rfl⟩

theorem lookup_keepIf {p : ν → Bool} {d : Dict κ ν} {k : κ} {v : ν} :
    (d.keepIf p).lookup k = some v ↔ d.lookup k = some v ∧ p v = true := by
  rw [← mem_items, items_keepIf, List.mem_filter, mem_items]

private theorem lastOf_foldl (k : κ) (l : List (κ × ν)) (r : Option ν) :
    l.foldl (fun r e => if e.1 = k then some e.2 else r) r = (lastOf k l).or r := by
  induction l generalizing r with
  | nil => simp [lastOf]
  | cons e l ih =>
    have h := ih (if e.1 = k then some e.2 else none)
    rw [lastOf, List.foldl_cons, List.foldl_cons, ih, h, Option.or_assoc]
    by_cases he : e.1 = k <;> simp [he]

@[simp] theorem lastOf_nil (k : κ) : lastOf k ([] : List (κ × ν)) = none := rfl

theorem lastOf_cons (k : κ) (e : κ × ν) (l : List (κ × ν)) :
    lastOf k (e :: l) = (lastOf k l).or (if e.1 = k then some e.2 else none) :=
  lastOf_foldl k l _

theorem lastOf_append (k : κ) (l l' : List (κ × ν)) :
    lastOf k (l ++ l') = (lastOf k l').or (lastOf k l) := by
  rw [lastOf, List.foldl_append, lastOf_foldl]; rfl

theorem lastOf_eq_none {k : κ} {l : List (κ × ν)} : lastOf k l = none ↔ ∀ e ∈ l, e.1 ≠ k := by
  induction l with
  | nil => exact iff_of_true rfl fun _ he => absurd he List.not_mem_nil
  | cons e l ih =>
    rw [lastOf_cons, Option.or_eq_none_iff, ih, List.forall_mem_cons, and_comm, ite_eq_right_iff]
    exact and_congr_left' ⟨fun h he => Option.some_ne_none _ (h he), fun h he => absurd he h⟩

theorem mem_of_lastOf {k : κ} {v : ν} {l : List (κ × ν)} (h : lastOf k l = some v) :
    (k, v) ∈ l := by
  induction l with
  | nil => simp at h
  | cons e l ih =>
    rw [lastOf_cons] at h
    cases hl : lastOf k l with
    | some w => rw [hl] at h; exact List.mem_cons_of_mem _ (ih (by rw [hl]; simpa using h))
    | none =>
      rw [hl, Option.none_or] at h
      by_cases he : e.1 = k
      · rw [if_pos he] at h; cases h; exact List.mem_cons.mpr (.inl (by rw [← he]))
      · simp [he] at h

/-- The value of a key that has one value only. -/
theorem lastOf_eq_some {k : κ} {v : ν} {l : List (κ × ν)} (hmem : (k, v) ∈ l)
    (huniq : ∀ w, (k, w) ∈ l → w = v) : lastOf k l = some v := by
  cases h : lastOf k l with
  | none => exact absurd rfl (lastOf_eq_none.mp h _ hmem)
  | some w => rw [huniq w (mem_of_lastOf h)]

/-- The value of a key whose values are known. -/
theorem lastOf_eq_of_iff {k : κ} {l : List (κ × ν)} {r : Option ν}
    (h : ∀ v, (k, v) ∈ l ↔ r = some v) : lastOf k l = r := by
  cases r with
  | none =>
    refine lastOf_eq_none.mpr ?_
    rintro ⟨k', v⟩ he rfl
    cases (h v).mp he
  | some v =>
    exact lastOf_eq_some ((h v).mpr rfl) fun w hw => (Option.some.inj ((h w).mp hw)).symm

@[simp] theorem lastOf_items (k : κ) (d : Dict κ ν) : lastOf k d.items = d.lookup k :=
  lastOf_eq_of_iff fun _ => mem_items

/-- The last value of a key among items whose keys and values are those of others. -/
theorem lastOf_map {κ' ν' : Type*} [DecidableEq κ'] {k : κ} {l : List (κ × ν)} {f : κ → κ'}
    (g : ν → ν') (hf : ∀ e ∈ l, f e.1 = f k → e.1 = k) :
    lastOf (f k) (l.map fun e => (f e.1, g e.2)) = (lastOf k l).map g := by
  induction l with
  | nil => rfl
  | cons e l ih =>
    rw [List.map_cons, lastOf_cons, lastOf_cons, ih fun e he => hf e (List.mem_cons_of_mem _ he),
      Option.map_or]
    congr 1
    by_cases he : e.1 = k
    · simp [he]
    · rw [if_neg he, if_neg fun h => he (hf e List.mem_cons_self h)]
      rfl

/-- What makes items of other keys may be left out. -/
theorem lastOf_map_filter {α : Type*} {k : κ} {l : List α} {p : α → Bool} {f : α → κ × ν}
    (h : ∀ a ∈ l, (f a).1 = k → p a = true) :
    lastOf k ((l.filter p).map f) = lastOf k (l.map f) := by
  induction l with
  | nil => rfl
  | cons a l ih =>
    have htail := ih fun b hb => h b (List.mem_cons_of_mem _ hb)
    rw [List.map_cons, lastOf_cons, List.filter_cons]
    split
    · rw [List.map_cons, lastOf_cons, htail]
    next hp =>
      have hne : (f a).1 ≠ k := fun hk => hp (h a List.mem_cons_self hk)
      rw [htail, if_neg hne, Option.or_none]

/-- The last value of a key that only the lists of one member bring. -/
theorem lastOf_flatMap {α : Type*} {k : κ} {l : List α} {f : α → List (κ × ν)} {a : α} (ha : a ∈ l)
    (hother : ∀ b ∈ l, b ≠ a → lastOf k (f b) = none) :
    lastOf k (l.flatMap f) = lastOf k (f a) := by
  classical
  induction l with
  | nil => cases ha
  | cons b l ih =>
    have hother' : ∀ b ∈ l, b ≠ a → lastOf k (f b) = none := fun b hb =>
      hother b (List.mem_cons_of_mem _ hb)
    rw [List.flatMap_cons, lastOf_append]
    by_cases hmem : a ∈ l
    · rw [ih hmem hother']
      by_cases hb : b = a
      · rw [hb, Option.or_self]
      · rw [hother b List.mem_cons_self hb, Option.or_none]
    · obtain rfl : a = b := (List.mem_cons.mp ha).resolve_right hmem
      have hrest : lastOf k (l.flatMap f) = none := lastOf_eq_none.mpr fun e he => by
        obtain ⟨b, hb, he⟩ := List.mem_flatMap.mp he
        exact lastOf_eq_none.mp (hother' b hb fun hba => hmem (hba ▸ hb)) e he
      rw [hrest, Option.none_or]

theorem lookup_setAll (d : Dict κ ν) (l : List (κ × ν)) (k : κ) :
    (d.setAll l).lookup k = (lastOf k l).or (d.lookup k) := by
  induction l generalizing d with
  | nil => simp [setAll]
  | cons e l ih =>
    have h := ih (d.insert e.1 e.2)
    rw [setAll] at h ⊢
    rw [List.foldl_cons, h, lastOf_cons, Option.or_assoc]
    by_cases he : e.1 = k
    · subst he; simp
    · rw [AList.lookup_insert_ne (Ne.symm he)]; simp [he]

theorem mem_of_lookup_setAll {l : List (κ × ν)} {k : κ} {v : ν}
    (h : (setAll ∅ l).lookup k = some v) : (k, v) ∈ l := by
  rw [lookup_setAll, AList.lookup_empty, Option.or_none] at h
  exact mem_of_lastOf h

theorem exists_lookup_setAll {l : List (κ × ν)} {e : κ × ν} (he : e ∈ l) :
    ∃ v, (setAll ∅ l).lookup e.1 = some v := by
  rw [lookup_setAll, AList.lookup_empty, Option.or_none, ← Option.isSome_iff_exists,
    Option.isSome_iff_ne_none]
  exact fun h => lastOf_eq_none.mp h e he rfl

/-- A dictionary of items with keys of their own holds these items. -/
theorem items_setAll_perm {l : List (κ × ν)} (hl : (l.map Prod.fst).Nodup) :
    ((∅ : Dict κ ν).setAll l).items.Perm l := by
  refine (List.perm_ext_iff_of_nodup (items_nodup _) hl.of_map).mpr fun ⟨k, v⟩ => ?_
  rw [mem_items, lookup_setAll, AList.lookup_empty, Option.or_none]
  refine ⟨mem_of_lastOf, fun hmem => lastOf_eq_some hmem fun w hw => ?_⟩
  exact congrArg Prod.snd (List.inj_on_of_nodup_map hl hw hmem rfl)

/-- What a key holds after `setAllUnless`, when no item brings a value that is left alone. -/
theorem lookup_setAllUnless {keep : ν → Bool} (d : Dict κ ν) {l : List (κ × ν)}
    (hl : ∀ e ∈ l, keep e.2 = false) (k : κ) :
    (d.setAllUnless keep l).lookup k =
      if (d.lookup k).any keep then d.lookup k else (lastOf k l).or (d.lookup k) := by
  induction l generalizing d with
  | nil => simp [setAllUnless]
  | cons e l ih =>
    have hl' : ∀ e ∈ l, keep e.2 = false := fun e he => hl e (List.mem_cons_of_mem _ he)
    rw [setAllUnless, List.foldl_cons]
    by_cases hk : (d.lookup e.1).any keep
    · have h := ih d hl'
      rw [setAllUnless] at h
      rw [if_pos hk, h, lastOf_cons, Option.or_assoc]
      by_cases he : e.1 = k
      · subst he; simp [hk]
      · simp [he]
    · have h := ih (d.insert e.1 e.2) hl'
      rw [setAllUnless] at h
      rw [if_neg hk, h, lastOf_cons, Option.or_assoc]
      by_cases he : e.1 = k
      · subst he
        simp [hk, hl e List.mem_cons_self]
      · rw [AList.lookup_insert_ne (Ne.symm he)]; simp [he]

/-- The first value that `l` has for `k`. -/
def firstOf (k : κ) (l : List (κ × ν)) : Option ν := (l.find? (·.1 = k)).map Prod.snd

theorem firstOf_eq_none {k : κ} {l : List (κ × ν)} : firstOf k l = none ↔ ∀ e ∈ l, e.1 ≠ k := by
  rw [firstOf, Option.map_eq_none_iff, List.find?_eq_none]
  exact forall₂_congr fun _ _ => not_congr decide_eq_true_iff

theorem mem_of_firstOf {k : κ} {v : ν} {l : List (κ × ν)} (h : firstOf k l = some v) :
    (k, v) ∈ l := by
  obtain ⟨⟨k', v'⟩, hf, rfl⟩ := Option.map_eq_some_iff.mp h
  obtain rfl : k' = k := by simpa using List.find?_some hf
  exact List.mem_of_find?_eq_some hf

/-- The value of a key that has one value only. -/
theorem firstOf_eq_some {k : κ} {v : ν} {l : List (κ × ν)} (hmem : (k, v) ∈ l)
    (huniq : ∀ w, (k, w) ∈ l → w = v) : firstOf k l = some v := by
  cases h : firstOf k l with
  | none => exact absurd rfl (firstOf_eq_none.mp h _ hmem)
  | some w => rw [huniq w (mem_of_firstOf h)]

/-- The value of a key whose values are known. -/
theorem firstOf_eq_of_iff {k : κ} {l : List (κ × ν)} {r : Option ν}
    (h : ∀ v, (k, v) ∈ l ↔ r = some v) : firstOf k l = r := by
  cases r with
  | none =>
    refine firstOf_eq_none.mpr ?_
    rintro ⟨k', v⟩ he rfl
    cases (h v).mp he
  | some v =>
    exact firstOf_eq_some ((h v).mpr rfl) fun w hw => (Option.some.inj ((h w).mp hw)).symm

theorem lookup_setDefaults (d : Dict κ ν) (l : List (κ × ν)) (k : κ) :
    (d.setDefaults l).lookup k = (d.lookup k).or (firstOf k l) := by
  induction l generalizing d with
  | nil => simp [setDefaults, setAllUnless, firstOf]
  | cons e l ih =>
    rw [setDefaults, setAllUnless, List.foldl_cons]
    have h := ih (if (d.lookup e.1).any (fun _ => true) then d else d.insert e.1 e.2)
    rw [setDefaults, setAllUnless] at h
    rw [h, firstOf, firstOf, List.find?_cons]
    by_cases he : e.1 = k
    · subst he
      cases hd : d.lookup e.1 <;> simp [hd]
    · cases hd : d.lookup e.1 with
      | some v => simp [he]
      | none => simp [he, AList.lookup_insert_ne (Ne.symm he)]

/-- Where a key of a written dictionary comes from. -/
theorem mem_of_mem_setAll {d : Dict κ ν} {l : List (κ × ν)} {k : κ} (h : k ∈ d.setAll l) :
    k ∈ d ∨ k ∈ l.map Prod.fst := by
  induction l generalizing d with
  | nil => exact .inl h
  | cons e l ih =>
    rcases ih (d := d.insert e.1 e.2) h with hd | hl
    · rcases (AList.mem_insert _).mp hd with rfl | hd
      · exact .inr List.mem_cons_self
      · exact .inl hd
    · exact .inr (List.mem_cons_of_mem _ hl)

theorem mem_of_mem_setAllUnless {keep : ν → Bool} {d : Dict κ ν} {l : List (κ × ν)} {k : κ}
    (h : k ∈ d.setAllUnless keep l) : k ∈ d ∨ k ∈ l.map Prod.fst := by
  induction l generalizing d with
  | nil => exact .inl h
  | cons e l ih =>
    rcases ih (d := if (d.lookup e.1).any keep then d else d.insert e.1 e.2) h with hd | hl
    · split at hd
      · exact .inl hd
      · rcases (AList.mem_insert _).mp hd with rfl | hd
        · exact .inr List.mem_cons_self
        · exact .inl hd
    · exact .inr (List.mem_cons_of_mem _ hl)

theorem mem_iff_lookup {d : Dict κ ν} {k : κ} : k ∈ d ↔ ∃ v, d.lookup k = some v := by
  rw [← AList.lookup_isSome, Option.isSome_iff_exists]

theorem lookup_mapValues (f : ν → μ) (d : Dict κ ν) (k : κ) :
    (d.mapValues f).lookup k = (d.lookup k).map f := by
  cases h : d.lookup k with
  | none =>
    rw [AList.lookup_eq_none] at h
    rw [Option.map_none, AList.lookup_eq_none, AList.mem_keys]
    rw [AList.mem_keys] at h
    simpa [mapValues, AList.keys, List.keys, Function.comp_def] using h
  | some v =>
    have hmem := mem_items.mpr h
    refine Option.mem_def.mp (AList.mem_lookup_iff.mpr ?_)
    obtain ⟨e, he, hkv⟩ := List.mem_map.mp hmem
    cases hkv
    exact List.mem_map.mpr ⟨e, he, rfl⟩

/-- Keys that are set one after the other, each to what belongs to it. -/
theorem lookup_foldl_insert (f : κ → ν) (keys : List κ) (d : Dict κ ν) (k : κ) :
    (keys.foldl (fun d key => d.insert key (f key)) d).lookup k =
      if k ∈ keys then some (f k) else d.lookup k := by
  induction keys generalizing d with
  | nil => rfl
  | cons key keys ih =>
    rw [List.foldl_cons, ih]
    by_cases hmem : k ∈ keys
    · rw [if_pos hmem, if_pos (List.mem_cons_of_mem key hmem)]
    · rw [if_neg hmem]
      by_cases hk : k = key
      · subst hk
        rw [AList.lookup_insert, if_pos List.mem_cons_self]
      · rw [AList.lookup_insert_ne hk, if_neg (by simp [hk, hmem])]

theorem lookup_foldl_erase (keys : List κ) (d : Dict κ ν) (k : κ) :
    (keys.foldl (fun d key => d.erase key) d).lookup k = if k ∈ keys then none else d.lookup k := by
  induction keys generalizing d with
  | nil => rfl
  | cons key keys ih =>
    rw [List.foldl_cons, ih]
    by_cases hk : k = key
    · subst hk
      simp [AList.lookup_erase]
    · rw [AList.lookup_erase_ne hk]
      simp [hk]

/-! ## Dictionaries of dictionaries -/

section

variable {κ' : Type*} [DecidableEq κ']

/-- What a key holds in the dictionary of another key. -/
def lookupIn (d : Dict κ (Dict κ' ν)) (k : κ) (k' : κ') : Option ν :=
  (d.lookup k).bind fun inner => inner.lookup k'

/-- Writes into the dictionary of a key. -/
def insertIn (d : Dict κ (Dict κ' ν)) (k : κ) (k' : κ') (v : ν) : Dict κ (Dict κ' ν) :=
  d.insert k (((d.lookup k).getD ∅).insert k' v)

/-- Writes the items in order, each into the dictionary of its first key. -/
def setAllIn (d : Dict κ (Dict κ' ν)) (l : List ((κ × κ') × ν)) : Dict κ (Dict κ' ν) :=
  l.foldl (fun d e => d.insertIn e.1.1 e.1.2 e.2) d

theorem lookupIn_insertIn (d : Dict κ (Dict κ' ν)) (k j : κ) (k' j' : κ') (v : ν) :
    (d.insertIn k k' v).lookupIn j j' = if (k, k') = (j, j') then some v else d.lookupIn j j' := by
  unfold lookupIn insertIn
  by_cases hk : k = j
  · subst hk
    rw [AList.lookup_insert, Option.bind_some]
    by_cases hk' : k' = j'
    · subst hk'
      rw [AList.lookup_insert, if_pos rfl]
    · rw [AList.lookup_insert_ne (Ne.symm hk'), if_neg fun h => hk' (Prod.mk.inj h).2]
      cases d.lookup k <;> simp
  · rw [AList.lookup_insert_ne (Ne.symm hk), if_neg fun h => hk (Prod.mk.inj h).1]

theorem lookupIn_setAllIn (d : Dict κ (Dict κ' ν)) (l : List ((κ × κ') × ν)) (k : κ) (k' : κ') :
    (d.setAllIn l).lookupIn k k' = (lastOf (k, k') l).or (d.lookupIn k k') := by
  induction l generalizing d with
  | nil => simp [setAllIn]
  | cons e l ih =>
    have h := ih (d.insertIn e.1.1 e.1.2 e.2)
    rw [setAllIn] at h ⊢
    rw [List.foldl_cons, h, lastOf_cons, lookupIn_insertIn, Option.or_assoc]
    split <;> simp

/-- Only the dictionaries that are written to are new. -/
theorem mem_setAllIn {d : Dict κ (Dict κ' ν)} {l : List ((κ × κ') × ν)} {k : κ} :
    k ∈ d.setAllIn l ↔ (∃ e ∈ l, e.1.1 = k) ∨ k ∈ d := by
  induction l generalizing d with
  | nil => simp [setAllIn]
  | cons e l ih =>
    have h := @ih (d.insertIn e.1.1 e.1.2 e.2)
    rw [setAllIn] at h ⊢
    rw [List.foldl_cons, h, insertIn, AList.mem_insert, List.exists_mem_cons_iff, or_assoc,
      or_left_comm, eq_comm (a := k)]

end

end Dict

end Lib
