import Mathlib.Logic.Function.Basic

/-!
# A key-value store whose entries expire

An entry is stored with an optional expiry instant; it is readable at every instant before that
one. Reading never changes the store, so an expired entry stays in it until it is overwritten or
deleted: `get` is what a reader sees, `s k` is what is stored.
-/

namespace Lib

/-- A stored value; `expires = none` never expires. -/
structure Entry (β : Type*) where
  value : β
  expires : Option Nat
  deriving DecidableEq, Repr

namespace Entry

variable {β : Type*}

/-- The entry can still be read at `now`. -/
def Live (e : Entry β) (now : Nat) : Prop := ∀ t ∈ e.expires, now < t

instance (e : Entry β) (now : Nat) : Decidable (e.Live now) :=
  inferInstanceAs (Decidable (∀ t ∈ e.expires, now < t))

theorem live_none (v : β) (now : Nat) : Entry.Live ⟨v, none⟩ now := by simp [Live]

theorem live_some {v : β} {t now : Nat} : Entry.Live ⟨v, some t⟩ now ↔ now < t := by simp [Live]

/-- An entry that is live at `now` was so before. -/
theorem Live.mono {e : Entry β} {now now' : Nat} (h : e.Live now) (hle : now' ≤ now) :
    e.Live now' := fun t ht => Nat.lt_of_le_of_lt hle (h t ht)

end Entry

/-- A store: what is kept under each key. -/
abbrev Store (κ β : Type*) := κ → Option (Entry β)

namespace Store

variable {κ β : Type*}

def empty : Store κ β := fun _ => none

/-- The value that a reader finds at `now`. -/
def get (s : Store κ β) (now : Nat) (k : κ) : Option β :=
  match s k with
  | none => none
  | some e => if e.Live now then some e.value else none

/-- Deletes every key that satisfies `p`. -/
def deleteAll (s : Store κ β) (p : κ → Bool) : Store κ β := fun k => if p k then none else s k

@[simp] theorem deleteAll_apply (s : Store κ β) (p : κ → Bool) (k : κ) :
    s.deleteAll p k = if p k then none else s k := rfl

theorem get_of_none {s : Store κ β} {now : Nat} {k : κ} (h : s k = none) : s.get now k = none := by
  simp [get, h]

theorem get_of_live {s : Store κ β} {now : Nat} {k : κ} {e : Entry β} (h : s k = some e)
    (hl : e.Live now) : s.get now k = some e.value := by
  simp [get, h, hl]

theorem get_of_dead {s : Store κ β} {now : Nat} {k : κ} {e : Entry β} (h : s k = some e)
    (hl : ¬ e.Live now) : s.get now k = none := by
  simp [get, h, hl]

/-- A value that is read is stored, unexpired. -/
theorem get_eq_some {s : Store κ β} {now : Nat} {k : κ} {v : β} :
    s.get now k = some v ↔ ∃ e, s k = some e ∧ e.Live now ∧ e.value = v := by
  unfold get
  split
  · simp_all
  · rename_i e he
    by_cases hl : e.Live now <;> simp [he, hl]

/-- What cannot be read now cannot be read later. -/
theorem get_none_mono {s : Store κ β} {now now' : Nat} {k : κ} (h : s.get now k = none)
    (hle : now ≤ now') : s.get now' k = none := by
  cases hk : s k with
  | none => exact get_of_none hk
  | some e =>
    refine get_of_dead hk fun hl => ?_
    rw [get_of_live hk (hl.mono hle)] at h
    cases h

theorem get_congr {s t : Store κ β} {k : κ} (h : s k = t k) (now : Nat) :
    s.get now k = t.get now k := by
  simp [get, h]

theorem get_deleteAll (s : Store κ β) (p : κ → Bool) (now : Nat) (k : κ) :
    (s.deleteAll p).get now k = if p k then none else s.get now k := by
  by_cases h : p k
  · rw [if_pos h, get_of_none (by simp [h])]
  · rw [if_neg h, get_congr (t := s) (by simp [h])]

variable [DecidableEq κ]

def put (s : Store κ β) (k : κ) (e : Entry β) : Store κ β := Function.update s k (some e)

def delete (s : Store κ β) (k : κ) : Store κ β := Function.update s k none

@[simp] theorem put_same (s : Store κ β) (k : κ) (e : Entry β) : s.put k e k = some e := by
  simp [put]

@[simp] theorem put_of_ne (s : Store κ β) {k k' : κ} (e : Entry β) (h : k' ≠ k) :
    s.put k e k' = s k' := by
  simp [put, h]

@[simp] theorem delete_same (s : Store κ β) (k : κ) : s.delete k k = none := by simp [delete]

@[simp] theorem delete_of_ne (s : Store κ β) {k k' : κ} (h : k' ≠ k) : s.delete k k' = s k' := by
  simp [delete, h]

@[simp] theorem get_delete_same (s : Store κ β) (now : Nat) (k : κ) :
    (s.delete k).get now k = none := get_of_none (delete_same s k)

theorem get_delete_of_ne (s : Store κ β) (now : Nat) {k k' : κ} (h : k' ≠ k) :
    (s.delete k).get now k' = s.get now k' :=
  get_congr (delete_of_ne s h) now

end Store

end Lib
