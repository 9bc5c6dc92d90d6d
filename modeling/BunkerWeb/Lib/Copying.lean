import Mathlib.Data.Finmap

/-!
# Copies that are made key by key

A store is copied one key after another while others may go on writing to it. `Copying` relates the
content that the copy is to have, the store, the copy so far, and the keys that are still to be
read. A write to a key that is not to be read any more is harmless (`Copying.put`), a key at which
there is nothing need not be read (`Copying.drop`), and when nothing is left to read the copy is the
content (`Copying.target_eq_content`).
-/

namespace Lib

variable {K V : Type*} [DecidableEq K]

/-- A finite map from keys to values. -/
abbrev FiniteMap (K V : Type*) := Finmap fun _ : K => V

/-- The value at `k` becomes `v`; nothing stays there when `v` is `none`. -/
def FiniteMap.put (map : FiniteMap K V) (k : K) : Option V → FiniteMap K V
  | some v => map.insert k v
  | none => map.erase k

theorem FiniteMap.lookup_put_of_ne {map : FiniteMap K V} {k k' : K} (h : k' ≠ k) (v : Option V) :
    (map.put k v).lookup k' = map.lookup k' := by
  cases v with
  | none => exact Finmap.lookup_erase_ne h
  | some v => exact Finmap.lookup_insert_of_ne _ h

/-- `target` is on its way to `content`: the keys that satisfy `unread` are still to be read in
`source`. -/
structure Copying (content source target : FiniteMap K V) (unread : K → Prop) : Prop where
  source_eq : ∀ k, unread k → source.lookup k = content.lookup k
  unread_target : ∀ k, unread k → target.lookup k = none ∨ target.lookup k = content.lookup k
  target_eq : ∀ k, ¬ unread k → target.lookup k = content.lookup k

namespace Copying

variable {content source target : FiniteMap K V} {unread unread' : K → Prop}

theorem start (content : FiniteMap K V) : Copying content content ∅ fun _ => True where
  source_eq _ _ := rfl
  unread_target _ _ := .inl (Finmap.lookup_empty _)
  target_eq _ h := absurd trivial h

/-- A write where the copy has nothing left to read. -/
theorem put (h : Copying content source target unread) {k : K} (hk : ¬ unread k) (v : Option V) :
    Copying content (source.put k v) target unread where
  source_eq k' hk' := by
    have hne : k' ≠ k := by
      rintro rfl
      exact hk hk'
    rw [FiniteMap.lookup_put_of_ne hne, h.source_eq k' hk']
  unread_target := h.unread_target
  target_eq := h.target_eq

/-- The keys that need no reading any more: nothing is there, or it has been copied. -/
theorem drop (h : Copying content source target unread) (hle : ∀ k, unread' k → unread k)
    (hdrop : ∀ k, unread k → ¬ unread' k →
      source.lookup k = none ∨ target.lookup k = source.lookup k) :
    Copying content source target unread' where
  source_eq k hk := h.source_eq k (hle k hk)
  unread_target k hk := h.unread_target k (hle k hk)
  target_eq k hk := by
    by_cases hu : unread k
    · have hsource := h.source_eq k hu
      rcases hdrop k hu hk with hnone | hcopied
      · rcases h.unread_target k hu with ht | ht
        · rw [ht, ← hsource, hnone]
        · exact ht
      · rw [hcopied, hsource]
    · exact h.target_eq k hu

/-- One value is read and written to the copy. -/
theorem read (h : Copying content source target unread) {k : K} (hk : unread k) {v : V}
    (hv : source.lookup k = some v) : Copying content source (target.insert k v) unread where
  source_eq := h.source_eq
  unread_target k' hk' := by
    by_cases hne : k' = k
    · subst hne
      exact .inr (by rw [Finmap.lookup_insert, ← hv, h.source_eq k' hk])
    · rw [Finmap.lookup_insert_of_ne _ hne]
      exact h.unread_target k' hk'
  target_eq k' hk' := by
    have hne : k' ≠ k := by
      rintro rfl
      exact hk' hk
    rw [Finmap.lookup_insert_of_ne _ hne, h.target_eq k' hk']

theorem target_eq_content (h : Copying content source target unread) (hdone : ∀ k, ¬ unread k) :
    target = content :=
  Finmap.ext_lookup fun k => h.target_eq k (hdone k)

end Copying

end Lib
