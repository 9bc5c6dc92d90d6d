import Mathlib.Data.List.Nodup
import Mathlib.Data.List.Sort

/-!
# Merging by key

`merge key acc l` appends to `acc` those elements of `l` whose key is not there yet: of the elements
with one key, the first one stays. If `l` is sorted, that is a least one (`le_of_mem_merge`).
-/

namespace Lib

variable {α κ : Type*} [DecidableEq κ]

def merge (key : α → κ) (acc l : List α) : List α :=
  l.foldl (fun acc a => if acc.any (key · = key a) then acc else acc ++ [a]) acc

variable {key : α → κ} {acc l : List α} {a : α}

theorem merge_cons (key : α → κ) (acc : List α) (a : α) (l : List α) :
    merge key acc (a :: l) =
      if key a ∈ acc.map key then merge key acc l else merge key (acc ++ [a]) l := by
  have hany : (acc.any (key · = key a)) = true ↔ key a ∈ acc.map key := by
    simp [List.any_eq_true]
  unfold merge
  rw [List.foldl_cons]
  split
  next h => rw [if_pos (hany.mp h)]
  next h => rw [if_neg (mt hany.mpr h)]

/-- What was there stays, and what is new is the first element of `l` with its key. -/
theorem mem_merge : a ∈ merge key acc l ↔
    a ∈ acc ∨ key a ∉ acc.map key ∧ ∃ l₁ l₂, l = l₁ ++ a :: l₂ ∧ key a ∉ l₁.map key := by
  induction l generalizing acc with
  | nil => simp [merge]
  | cons b l ih =>
    rw [merge_cons]
    split
    next hb =>
      rw [ih]
      refine or_congr_right (and_congr_right fun ha => ?_)
      constructor
      · rintro ⟨l₁, l₂, rfl, h₁⟩
        refine ⟨b :: l₁, l₂, rfl, ?_⟩
        rw [List.map_cons, List.mem_cons, not_or]
        exact ⟨fun h => ha (h ▸ hb), h₁⟩
      · rintro ⟨l₁, l₂, hl, h₁⟩
        cases l₁ with
        | nil =>
          obtain ⟨rfl, rfl⟩ := List.cons.inj hl
          exact absurd hb ha
        | cons c l₁ =>
          obtain ⟨rfl, rfl⟩ := List.cons.inj hl
          exact ⟨l₁, l₂, rfl, fun h => h₁ (List.mem_cons_of_mem _ h)⟩
    next hb =>
      rw [ih, List.mem_append, List.mem_singleton, List.map_append, List.mem_append, not_or,
        List.map_singleton, List.mem_singleton, or_assoc]
      refine or_congr_right ?_
      constructor
      · rintro (rfl | ⟨⟨ha, hne⟩, l₁, l₂, rfl, h₁⟩)
        · exact ⟨hb, [], l, rfl, List.not_mem_nil⟩
        · refine ⟨ha, b :: l₁, l₂, rfl, ?_⟩
          rw [List.map_cons, List.mem_cons, not_or]
          exact ⟨hne, h₁⟩
      · rintro ⟨ha, l₁, l₂, hl, h₁⟩
        cases l₁ with
        | nil => exact Or.inl (List.cons.inj hl).1.symm
        | cons c l₁ =>
          obtain ⟨rfl, rfl⟩ := List.cons.inj hl
          rw [List.map_cons, List.mem_cons, not_or] at h₁
          exact Or.inr ⟨⟨ha, h₁.1⟩, l₁, l₂, rfl, h₁.2⟩

theorem mem_of_mem_merge (h : a ∈ merge key acc l) : a ∈ acc ∨ a ∈ l := by
  rcases mem_merge.mp h with h | ⟨-, l₁, l₂, rfl, -⟩
  · exact Or.inl h
  · exact Or.inr (List.mem_append_right _ List.mem_cons_self)

/-- Each key of `l` is there. -/
theorem exists_mem_merge (key : α → κ) (acc : List α) (ha : a ∈ l) :
    ∃ b ∈ merge key acc l, key b = key a := by
  induction l generalizing acc with
  | nil => cases ha
  | cons b l ih =>
    rw [merge_cons]
    rcases List.mem_cons.mp ha with rfl | ha
    · split
      next hmem =>
        obtain ⟨c, hc, heq⟩ := List.mem_map.mp hmem
        exact ⟨c, mem_merge.mpr (Or.inl hc), heq⟩
      next => exact ⟨a, mem_merge.mpr (Or.inl (List.mem_append_right _ (by simp))), rfl⟩
    · split
      · exact ih _ ha
      · exact ih _ ha

theorem nodup_merge (h : (acc.map key).Nodup) : ((merge key acc l).map key).Nodup := by
  induction l generalizing acc with
  | nil => exact h
  | cons b l ih =>
    rw [merge_cons]
    split
    next => exact ih h
    next hb =>
      refine ih ?_
      rw [List.map_append, List.map_singleton]
      exact List.nodup_append.mpr ⟨h, List.nodup_singleton _, fun k hk k' hk' heq =>
        hb (List.mem_singleton.mp hk' ▸ heq ▸ hk)⟩

/-- `acc` comes first. -/
theorem prefix_merge : acc <+: merge key acc l := by
  induction l generalizing acc with
  | nil => exact List.prefix_rfl
  | cons b l ih =>
    rw [merge_cons]
    split
    · exact ih
    · exact (List.prefix_append acc [b]).trans ih

theorem merge_append (key : α → κ) (acc l l' : List α) :
    merge key acc (l ++ l') = merge key (merge key acc l) l' := List.foldl_append

/-- The keys are those of `acc` and of `l`. -/
theorem mem_keys_merge {k : κ} :
    k ∈ (merge key acc l).map key ↔ k ∈ acc.map key ∨ k ∈ l.map key := by
  constructor
  · intro h
    obtain ⟨a, ha, rfl⟩ := List.mem_map.mp h
    exact (mem_of_mem_merge ha).imp List.mem_map_of_mem List.mem_map_of_mem
  · rintro (h | h)
    · obtain ⟨a, ha, rfl⟩ := List.mem_map.mp h
      exact List.mem_map_of_mem (prefix_merge.subset ha)
    · obtain ⟨a, ha, rfl⟩ := List.mem_map.mp h
      obtain ⟨b, hb, heq⟩ := exists_mem_merge key acc ha
      exact heq ▸ List.mem_map_of_mem hb

/-- Keys of one kind are merged on their own. -/
theorem filter_merge (key : α → κ) (acc l : List α) (q : κ → Bool) :
    (merge key acc l).filter (fun a => q (key a)) =
      merge key (acc.filter fun a => q (key a)) (l.filter fun a => q (key a)) := by
  induction l generalizing acc with
  | nil => rfl
  | cons a l ih =>
    have hmem : q (key a) = true →
        (key a ∈ (acc.filter fun a => q (key a)).map key ↔ key a ∈ acc.map key) := by
      intro hq
      simp only [List.mem_map, List.mem_filter]
      constructor
      · rintro ⟨b, ⟨hb, -⟩, heq⟩
        exact ⟨b, hb, heq⟩
      · rintro ⟨b, hb, heq⟩
        exact ⟨b, ⟨hb, heq ▸ hq⟩, heq⟩
    rw [merge_cons]
    by_cases hq : q (key a) = true
    · have hone : [a].filter (fun a => q (key a)) = [a] := by simp [hq]
      rw [List.filter_cons, if_pos hq, merge_cons]
      by_cases hkey : key a ∈ acc.map key
      · rw [if_pos hkey, if_pos ((hmem hq).mpr hkey), ih]
      · rw [if_neg hkey, if_neg (mt (hmem hq).mp hkey), ih, List.filter_append,
          hone]
    · have hone : [a].filter (fun a => q (key a)) = [] := by simp [hq]
      rw [List.filter_cons, if_neg hq]
      split
      · exact ih _
      · rw [ih, List.filter_append, hone, List.append_nil]

/-- What is new comes from the first group that has its key, and is the first there. -/
theorem mem_merge_flatMap {β : Type*} {f : β → List α} {l : List β}
    (h : a ∈ merge key acc (l.flatMap f)) :
    a ∈ acc ∨ key a ∉ acc.map key ∧ ∃ before b after before' after',
      l = before ++ b :: after ∧ key a ∉ (before.flatMap f).map key ∧
        f b = before' ++ a :: after' ∧ key a ∉ before'.map key := by
  induction l generalizing acc with
  | nil => exact .inl h
  | cons b l ih =>
    rw [List.flatMap_cons, merge_append] at h
    rcases ih h with hacc | ⟨hnew, before, c, after, before', after', rfl, hbefore, hgroup⟩
    · rcases mem_merge.mp hacc with hacc | ⟨hnew, before', after', hb, hbefore'⟩
      · exact .inl hacc
      · exact .inr ⟨hnew, [], b, l, before', after', rfl, List.not_mem_nil, hb, hbefore'⟩
    · rw [mem_keys_merge, not_or] at hnew
      refine .inr ⟨hnew.1, b :: before, c, after, before', after', rfl, ?_, hgroup⟩
      rw [List.flatMap_cons, List.map_append, List.mem_append, not_or]
      exact ⟨hnew.2, hbefore⟩

/-- Of the elements of a sorted list with one key, a least one stays. -/
theorem le_of_mem_merge {r : α → α → Prop} (hl : l.Pairwise r) (hr : ∀ b, r b b)
    (ha : a ∈ merge key [] l) {b : α} (hb : b ∈ l) (hkey : key b = key a) : r a b := by
  rcases mem_merge.mp ha with h | ⟨-, l₁, l₂, rfl, h₁⟩
  · cases h
  · rcases List.mem_append.mp hb with hb | hb
    · exact absurd (hkey ▸ List.mem_map_of_mem hb) h₁
    · rcases List.mem_cons.mp hb with rfl | hb
      · exact hr b
      · exact List.rel_of_pairwise_cons (List.pairwise_append.mp hl).2.1 hb

end Lib
