import BunkerWeb.Lib.Dict
import Mathlib.Data.List.Perm.Subperm

/-!
# A cache of a bounded size

Keys with values, the key that was used last first. A new key for which there is no room takes the
place of the last one; as long as there is room (`Roomy`), the cache is a dictionary.
-/

namespace Lib

structure Recent (κ ν : Type*) where
  dict : Dict κ ν
  cap : Nat
  pos : 0 < cap
  fits : dict.keys.length ≤ cap

namespace Recent

variable {κ ν : Type*} [DecidableEq κ] {c : Recent κ ν} {k k' : κ} {v : ν}

def empty (cap : Nat) (pos : 0 < cap) : Recent κ ν := ⟨∅, cap, pos, by simp⟩

def find (c : Recent κ ν) (k : κ) : Option ν := c.dict.lookup k

def keys (c : Recent κ ν) : List κ := c.dict.keys

theorem length_keys_insert_of_mem {d : Dict κ ν} (h : k ∈ d) :
    (d.insert k v).keys.length = d.keys.length := by
  have hmem : k ∈ d.keys := AList.mem_keys.mp h
  rw [AList.keys_insert, List.length_cons, List.length_erase_of_mem hmem]
  have hpos := List.length_pos_of_mem hmem
  omega

theorem length_keys_insert_of_notMem {d : Dict κ ν} (h : k ∉ d) :
    (d.insert k v).keys.length = d.keys.length + 1 := by
  have hmem : k ∉ d.keys := fun hk => h (AList.mem_keys.mpr hk)
  rw [AList.keys_insert, List.length_cons, List.erase_of_not_mem hmem]

/-- A key that is read is the last used. -/
def touch (c : Recent κ ν) (k : κ) : Recent κ ν :=
  match h : c.dict.lookup k with
  | none => c
  | some v =>
    { c with
      dict := c.dict.insert k v
      fits := by
        rw [length_keys_insert_of_mem (Dict.mem_iff_lookup.mpr ⟨v, h⟩)]
        exact c.fits }

/-- The key is there, or a new one has a place. -/
def Roomy (c : Recent κ ν) (k : κ) : Prop := k ∈ c.dict ∨ c.dict.keys.length < c.cap

instance (c : Recent κ ν) (k : κ) : Decidable (c.Roomy k) :=
  inferInstanceAs (Decidable (_ ∨ _))

/-- Without its last key. -/
def evicted (c : Recent κ ν) : Dict κ ν :=
  match c.dict.keys.getLast? with
  | none => c.dict
  | some last => c.dict.erase last

theorem length_keys_evicted : c.evicted.keys.length ≤ c.cap - 1 := by
  unfold evicted
  have hfits := c.fits
  cases hlast : c.dict.keys.getLast? with
  | none =>
    rw [List.getLast?_eq_none_iff.mp hlast]
    simp
  | some last =>
    show (c.dict.erase last).keys.length ≤ _
    rw [AList.keys_erase, List.length_erase_of_mem (List.mem_of_getLast? hlast)]
    omega

def put (c : Recent κ ν) (k : κ) (v : ν) : Recent κ ν :=
  if h : c.Roomy k then
    { c with
      dict := c.dict.insert k v
      fits := by
        by_cases hk : k ∈ c.dict
        · rw [length_keys_insert_of_mem hk]
          exact c.fits
        · rw [length_keys_insert_of_notMem hk]
          exact h.resolve_left hk }
  else
    { c with
      dict := c.evicted.insert k v
      fits := by
        have hlen := length_keys_evicted (c := c)
        have hpos := c.pos
        by_cases hk : k ∈ c.evicted
        · rw [length_keys_insert_of_mem hk]
          omega
        · rw [length_keys_insert_of_notMem hk]
          omega }

def remove (c : Recent κ ν) (k : κ) : Recent κ ν :=
  { c with
    dict := c.dict.erase k
    fits := by
      rw [AList.keys_erase]
      exact le_trans List.length_erase_le c.fits }

@[simp] theorem find_empty {cap : Nat} {pos : 0 < cap} :
    (empty cap pos : Recent κ ν).find k = none := rfl

@[simp] theorem find_touch : (c.touch k).find k' = c.find k' := by
  unfold touch find
  split
  · rfl
  next v h =>
    by_cases hk : k' = k
    · rw [hk, AList.lookup_insert, h]
    · rw [AList.lookup_insert_ne hk]

@[simp] theorem cap_put : (c.put k v).cap = c.cap := by
  unfold put
  split <;> rfl

theorem find_put (h : c.Roomy k) : (c.put k v).find k' = if k' = k then some v else c.find k' := by
  unfold put find
  rw [dif_pos h]
  split
  next hk => rw [hk, AList.lookup_insert]
  next hk => rw [AList.lookup_insert_ne hk]

theorem mem_keys_iff : k ∈ c.keys ↔ (c.find k).isSome := by
  rw [keys, ← AList.mem_keys, find, AList.lookup_isSome]

theorem mem_keys_put (h : c.Roomy k) : k' ∈ (c.put k v).keys ↔ k' = k ∨ k' ∈ c.keys := by
  rw [mem_keys_iff, mem_keys_iff, find_put h]
  by_cases hk : k' = k <;> simp [hk]

/-- There is room for the keys of a list that is no longer than the cache. -/
theorem roomy_of_subset {names : List κ} (hsub : ∀ k ∈ c.keys, k ∈ names)
    (hlen : names.length ≤ c.cap) (hk : k ∈ names) : c.Roomy k := by
  by_cases hmem : k ∈ c.keys
  · exact .inl (AList.mem_keys.mpr hmem)
  · have hnodup : (k :: c.keys).Nodup := List.nodup_cons.mpr ⟨hmem, c.dict.keys_nodup⟩
    have hcons : k :: c.keys ⊆ names := List.cons_subset.mpr ⟨hk, hsub⟩
    have hle := (List.subperm_of_subset hnodup hcons).length_le
    rw [List.length_cons] at hle
    exact .inr (show c.keys.length < c.cap by omega)

/-- Writes one after the other. -/
def putAll (c : Recent κ ν) (items : List (κ × ν)) : Recent κ ν :=
  items.foldl (fun c e => c.put e.1 e.2) c

@[simp] theorem cap_putAll {items : List (κ × ν)} : (c.putAll items).cap = c.cap := by
  induction items generalizing c with
  | nil => rfl
  | cons e items ih => exact ih.trans cap_put

theorem find_putAll (items : List (κ × ν)) {names : List κ} (hsub : ∀ k ∈ c.keys, k ∈ names)
    (hlen : names.length ≤ c.cap) (hitems : ∀ e ∈ items, e.1 ∈ names) :
    (c.putAll items).find k = (Dict.lastOf k items).or (c.find k) ∧
      ∀ k ∈ (c.putAll items).keys, k ∈ names := by
  induction items generalizing c with
  | nil => exact ⟨by simp [putAll], hsub⟩
  | cons e items ih =>
    have hroomy := roomy_of_subset hsub hlen (hitems e List.mem_cons_self)
    have hsub' : ∀ k ∈ (c.put e.1 e.2).keys, k ∈ names := fun k hk => by
      rcases (mem_keys_put hroomy).mp hk with rfl | hk
      · exact hitems e List.mem_cons_self
      · exact hsub k hk
    obtain ⟨hfind, hkeys⟩ := ih hsub' (by rwa [cap_put])
      fun e' he' => hitems e' (List.mem_cons_of_mem _ he')
    refine ⟨?_, hkeys⟩
    show ((c.put e.1 e.2).putAll items).find k = _
    rw [hfind, find_put hroomy, Dict.lastOf_cons, Option.or_assoc]
    by_cases hk : k = e.1
    · simp [hk]
    · simp [hk, Ne.symm hk]

end Recent

end Lib
