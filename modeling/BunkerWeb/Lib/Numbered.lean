import BunkerWeb.Lib.Loop
import Mathlib.Data.List.Sort

/-!
# Rows that are numbered again

A table keeps the place of each row in a column. Rows that are read in the order of the column and
written with the numbers from `n` on are the rows that were there exactly when, in that order, each
row is made as it was (`numbered_perm_iff`). Rows that are read group by group come in the order of
the table when the groups are in that order (`flatMap_filter_eq_self`).
-/

namespace Lib.Numbered

variable {α β : Type}

/-- The places that `enumerate` gives grow. -/
theorem pairwise_lt_zipIdx (l : List α) (n : Nat) : (l.zipIdx n).Pairwise fun a b => a.2 < b.2 := by
  induction l generalizing n with
  | nil => exact .nil
  | cons a l ih =>
    rw [List.zipIdx_cons]
    refine List.pairwise_cons.mpr ⟨fun e he => ?_, ih (n + 1)⟩
    have hle := List.le_snd_of_mem_zipIdx he
    show n < e.2
    omega

/-- The rows made of an enumerated list are the list itself. -/
theorem map_zipIdx_eq_self_iff {f : α × Nat → α} {l : List α} {n : Nat} :
    (l.zipIdx n).map f = l ↔ ∀ e ∈ l.zipIdx n, f e = e.1 := by
  conv_lhs => rhs; rw [← List.zipIdx_map_fst n l]
  exact List.map_inj_left

/-- Rows in the strict order of a column are the rows of a table when they are those of the table in
that order. -/
theorem perm_iff_eq_insertionSort (order : α → Nat) {l table : List α}
    (hl : l.Pairwise fun a b => order a < order b) :
    l.Perm table ↔ l = table.insertionSort (order · ≤ order ·) := by
  constructor
  · intro h
    have hperm := h.trans (List.perm_insertionSort (order · ≤ order ·) table).symm
    have htotal : Std.Total fun a b : α => order a ≤ order b :=
      ⟨fun a b => Nat.le_total (order a) (order b)⟩
    have htrans : IsTrans α fun a b => order a ≤ order b := ⟨fun _ _ _ => Nat.le_trans⟩
    have hsorted := List.pairwise_insertionSort (fun a b => order a ≤ order b) table
    have hnodup : ((table.insertionSort (order · ≤ order ·)).map order).Nodup :=
      (hperm.map order).nodup_iff.mp (List.pairwise_map.mpr (hl.imp fun h => h.ne))
    have hstrict : (table.insertionSort (order · ≤ order ·)).Pairwise fun a b =>
        order a < order b := by
      refine List.Pairwise.imp₂ (fun a b hle hne => lt_of_le_of_ne hle hne) hsorted ?_
      exact List.pairwise_map.mp hnodup
    exact hperm.eq_of_pairwise (fun a b _ _ hab hba => absurd hab hba.not_gt) hl hstrict
  · intro h
    rw [h]
    exact List.perm_insertionSort _ table

/-- The rows that are written, each with its number in the column. -/
theorem numbered_perm_iff (order : α → Nat) {f : β × Nat → α} {l : List β} {n : Nat}
    {table : List α} (horder : ∀ e, order (f e) = e.2) :
    ((l.zipIdx n).map f).Perm table ↔
      (l.zipIdx n).map f = table.insertionSort (order · ≤ order ·) := by
  refine perm_iff_eq_insertionSort order (List.pairwise_map.mpr ?_)
  refine (pairwise_lt_zipIdx l n).imp fun {a b} hab => ?_
  rwa [horder, horder]

/-! ## Groups -/

theorem filter_append_filter {key : α → Nat} {i : Nat} {l : List α}
    (hl : l.Pairwise fun a b => key a ≤ key b) (hi : ∀ a ∈ l, i ≤ key a) :
    l.filter (key · = i) ++ l.filter (key · ≠ i) = l := by
  induction l with
  | nil => rfl
  | cons a l ih =>
    obtain ⟨ha, hl⟩ := List.pairwise_cons.mp hl
    have ih := ih hl fun b hb => hi b (List.mem_cons_of_mem a hb)
    by_cases hkey : key a = i
    · rw [List.filter_cons_of_pos (by simpa using hkey),
        List.filter_cons_of_neg (by simpa using hkey), List.cons_append, ih]
    · have hnone : l.filter (key · = i) = [] := by
        refine List.filter_eq_nil_iff.mpr fun b hb => ?_
        have hia := hi a List.mem_cons_self
        have hab := ha b hb
        simp only [decide_eq_true_eq]
        omega
      rw [hnone, List.nil_append] at ih
      rw [List.filter_cons_of_neg (by simpa using hkey), hnone, List.nil_append,
        List.filter_cons_of_pos (by simpa using hkey), ih]

/-- A list in the order of its groups is what is read of it group by group. -/
theorem flatMap_filter_eq_self {key : α → Nat} {ids : List Nat} {l : List α}
    (hids : ids.Pairwise (· < ·)) (hl : l.Pairwise fun a b => key a ≤ key b)
    (hkeys : ∀ a ∈ l, key a ∈ ids) : (ids.flatMap fun i => l.filter (key · = i)) = l := by
  induction ids generalizing l with
  | nil =>
    cases l with
    | nil => rfl
    | cons a l => cases hkeys a List.mem_cons_self
  | cons i ids ih =>
    obtain ⟨hi, hids⟩ := List.pairwise_cons.mp hids
    have hle : ∀ a ∈ l, i ≤ key a := by
      intro a ha
      rcases List.mem_cons.mp (hkeys a ha) with h | h
      · exact h.ge
      · exact (hi _ h).le
    have hrest : (ids.flatMap fun j => l.filter (key · = j)) = l.filter (key · ≠ i) := by
      rw [← ih hids (hl.filter _) fun a ha => ?_]
      · refine List.flatMap_congr fun j hj => ?_
        rw [List.filter_filter]
        refine List.filter_congr fun a _ => ?_
        by_cases ha : key a = j
        · simp [ha, (hi j hj).ne']
        · simp [ha]
      · obtain ⟨ha, hne⟩ := List.mem_filter.mp ha
        exact (List.mem_cons.mp (hkeys a ha)).resolve_left (of_decide_eq_true hne)
    rw [List.flatMap_cons, hrest, filter_append_filter hl hle]

/-- What is read group by group is in the order of the groups. -/
theorem pairwise_flatMap_filter {key : α → Nat} {ids : List Nat} (l : List α)
    (hids : ids.Pairwise (· < ·)) :
    (ids.flatMap fun i => l.filter (key · = i)).Pairwise fun a b => key a ≤ key b := by
  refine List.pairwise_flatMap.mpr ⟨fun i _ => ?_, hids.imp fun {i j} hij a ha b hb => ?_⟩
  · refine List.pairwise_of_forall_mem_list fun a ha b hb => ?_
    rw [of_decide_eq_true (List.mem_filter.mp ha).2, of_decide_eq_true (List.mem_filter.mp hb).2]
  · rw [of_decide_eq_true (List.mem_filter.mp ha).2, of_decide_eq_true (List.mem_filter.mp hb).2]
    exact hij.le

end Lib.Numbered
