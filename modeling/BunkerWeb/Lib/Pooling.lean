import Mathlib.Data.List.Enum
import Mathlib.Data.List.Nodup
import Mathlib.Data.List.Sort
import Mathlib.Data.Set.Basic

/-!
# Pooling what several sources have numbered

Every source gives contents to some numbers. The pool of the sources has all of these contents, one
after the other from a first number on (`Pooled`). To build it, the contents are collected and
sorted by a key (`sortBy`), and then their places are their numbers (`pooled_of_sortBy`). What the
key says of the sorted contents does not depend on the order in which they were collected
(`map_sortBy_eq_of_perm`).
-/

namespace Lib

variable {α β κ σ τ : Type*} {cmp : κ → κ → Ordering}

/-- `l.sort(key=key)`, which is stable. -/
def sortBy (cmp : κ → κ → Ordering) (key : α → κ) (l : List α) : List α :=
  l.insertionSort fun a b => (cmp (key a) (key b)).isLE = true

/-- First by the first component. -/
def pairCmp [Ord α] [Ord β] : α × β → α × β → Ordering :=
  compareLex (compareOn Prod.fst) (compareOn Prod.snd)

instance transCmp_pairCmp [Ord α] [Ord β] [Std.TransOrd α] [Std.TransOrd β] :
    Std.TransCmp (pairCmp : α × β → α × β → Ordering) :=
  inferInstanceAs (Std.TransCmp (compareLex _ _))

instance lawfulEqCmp_pairCmp [Ord α] [Ord β] [Std.TransOrd α] [Std.TransOrd β]
    [Std.LawfulEqOrd α] [Std.LawfulEqOrd β] :
    Std.LawfulEqCmp (pairCmp : α × β → α × β → Ordering) where
  eq_of_compare {a b} h := by
    obtain ⟨h1, h2⟩ := compareLex_eq_eq.mp h
    exact Prod.ext (Std.LawfulEqOrd.eq_of_compare h1) (Std.LawfulEqOrd.eq_of_compare h2)

theorem sortBy_perm (key : α → κ) (l : List α) : (sortBy cmp key l).Perm l :=
  List.perm_insertionSort _ l

theorem mem_sortBy {key : α → κ} {l : List α} {a : α} : a ∈ sortBy cmp key l ↔ a ∈ l :=
  (sortBy_perm key l).mem_iff

/-- Sorting by what a function leaves is sorting what it leaves. -/
theorem map_sortBy (f : α → β) (key : β → κ) (l : List α) :
    (sortBy cmp (fun a => key (f a)) l).map f = sortBy cmp key (l.map f) :=
  List.map_insertionSort _ _ f l fun _ _ _ _ => Iff.rfl

/-- The keys of the sorted list are those of any list of the same elements. -/
theorem map_sortBy_eq_of_perm [Std.TransCmp cmp] [Std.LawfulEqCmp cmp] (key : α → κ)
    {l l' : List α} (h : l.Perm l') : (sortBy cmp key l).map key = (sortBy cmp key l').map key := by
  rw [map_sortBy key (fun a => a), map_sortBy key (fun a => a)]
  let r : κ → κ → Prop := fun a b => (cmp a b).isLE = true
  have htotal : Std.Total r := ⟨fun a b => by
    rcases hab : cmp a b with _ | _ | _
    · exact .inl (by simp [r, hab])
    · exact .inl (by simp [r, hab])
    · exact .inr (by simp [r, Std.OrientedCmp.lt_of_gt hab])⟩
  have htrans : IsTrans κ r := ⟨fun a b c => Std.TransCmp.isLE_trans⟩
  have hanti : Std.Antisymm r := ⟨fun a b hab hba =>
    Std.LawfulEqCmp.eq_of_compare (Std.OrientedCmp.isLE_antisymm hab hba)⟩
  have hperm : (sortBy cmp (fun a => a) (l.map key)).Perm (sortBy cmp (fun a => a) (l'.map key)) :=
    (sortBy_perm _ _).trans ((h.map key).trans (sortBy_perm _ _).symm)
  exact List.Perm.eq_of_pairwise' (List.pairwise_insertionSort r _)
    (List.pairwise_insertionSort r _) hperm

/-- Every content that a source has under a number is in the target under a number of its own, and
these numbers are the first ones from `start` on. -/
def Pooled (start : Nat) (sources : List (Nat → Set σ)) (target : Nat → Set σ) : Prop :=
  ∃ order : List (Nat × Nat), order.Nodup ∧
    (∀ i n, (i, n) ∈ order ↔ ∃ f, sources[i]? = some f ∧ (f n).Nonempty) ∧
    (∀ j i n, order[j]? = some (i, n) → ∃ f, sources[i]? = some f ∧ target (start + j) = f n) ∧
    ∀ n, (∀ j < order.length, n ≠ start + j) → target n = ∅

/-- What a list of contents, one after the other from `start` on, has under a number. -/
def placed (content : τ → Set σ) (start : Nat) (l : List τ) (n : Nat) : Set σ :=
  {e | ∃ t, start ≤ n ∧ l[n - start]? = some t ∧ e ∈ content t}

/-- What a source with parts under numbers has under a number. -/
def numbered (content : τ → Set σ) (parts : List (Nat × τ)) (n : Nat) : Set σ :=
  {e | ∃ t, (n, t) ∈ parts ∧ e ∈ content t}

theorem placed_add {content : τ → Set σ} {start j : Nat} {l : List τ} {t : τ}
    (h : l[j]? = some t) : placed content start l (start + j) = content t := by
  ext e
  simp [placed, h]

theorem placed_eq_empty {content : τ → Set σ} {start n : Nat} {l : List τ}
    (h : ∀ j < l.length, n ≠ start + j) : placed content start l n = ∅ := by
  refine Set.eq_empty_iff_forall_notMem.mpr ?_
  rintro e ⟨t, hle, ht, -⟩
  obtain ⟨hlt, -⟩ := List.getElem?_eq_some_iff.mp ht
  exact h _ hlt (by omega)

theorem numbered_eq {content : τ → Set σ} {parts : List (Nat × τ)} {n : Nat} {t : τ}
    (hkeys : (parts.map Prod.fst).Nodup) (h : (n, t) ∈ parts) :
    numbered content parts n = content t := by
  ext e
  constructor
  · rintro ⟨t', ht', he⟩
    obtain rfl : t' = t := congrArg Prod.snd (List.inj_on_of_nodup_map hkeys ht' h rfl)
    exact he
  · exact fun he => ⟨t, h, he⟩

/-- What is placed depends on the contents alone. -/
theorem placed_map (f : α → β) (c : β → Set σ) (start : Nat) (l : List α) (n : Nat) :
    placed (fun a => c (f a)) start l n = placed c start (l.map f) n := by
  ext e
  simp only [placed, Set.mem_ofPred_eq, List.getElem?_map, Option.map_eq_some_iff]
  constructor
  · rintro ⟨a, hle, ha, he⟩
    exact ⟨f a, hle, ⟨a, ha, rfl⟩, he⟩
  · rintro ⟨_, hle, ⟨a, ha, rfl⟩, he⟩
    exact ⟨a, hle, ha, he⟩

/-- Nothing that a source gives is missing in the target. -/
theorem Pooled.exists_mem {start : Nat} {sources : List (Nat → Set σ)} {target : Nat → Set σ}
    (h : Pooled start sources target) {f : Nat → Set σ} (hf : f ∈ sources) {n : Nat} {e : σ}
    (he : e ∈ f n) : ∃ m, e ∈ target m := by
  obtain ⟨order, -, hall, htarget, -⟩ := h
  obtain ⟨i, hi⟩ := List.mem_iff_getElem?.mp hf
  obtain ⟨j, hj⟩ := List.mem_iff_getElem?.mp ((hall i n).mpr ⟨f, hi, e, he⟩)
  obtain ⟨f', hf', heq⟩ := htarget j i n hj
  obtain rfl : f' = f := Option.some.inj (hf'.symm.trans hi)
  exact ⟨start + j, heq ▸ he⟩

/-- The parts of all sources, sorted by a key and numbered by their places, pool the sources. -/
theorem pooled_of_sortBy (content : τ → Set σ) (key : τ → κ) (start : Nat)
    {parts : List (List (Nat × τ))} (hkeys : ∀ l ∈ parts, (l.map Prod.fst).Nodup)
    (hne : ∀ l ∈ parts, ∀ p ∈ l, (content p.2).Nonempty) :
    Pooled start (parts.map (numbered content))
      (placed content start (sortBy cmp key (parts.flatMap (·.map Prod.snd)))) := by
  -- Every part with its source and its number, sorted the same way.
  let tagged : List ((Nat × Nat) × τ) := parts.zipIdx.flatMap fun l =>
    l.1.map fun p => ((l.2, p.1), p.2)
  have hmem : ∀ i n t, ((i, n), t) ∈ tagged ↔ ∃ l, parts[i]? = some l ∧ (n, t) ∈ l := by
    intro i n t
    simp only [tagged, List.mem_flatMap, List.mem_map, Prod.exists, List.mem_zipIdx_iff_getElem?]
    constructor
    · rintro ⟨l, i', hl, n', t', hp, he⟩
      cases he
      exact ⟨l, hl, hp⟩
    · rintro ⟨l, hl, hp⟩
      exact ⟨l, i, hl, n, t, hp, rfl⟩
  have hsnd : tagged.map Prod.snd = parts.flatMap (·.map Prod.snd) := by
    have hfst : parts.flatMap (·.map Prod.snd) =
        (parts.zipIdx.map Prod.fst).flatMap (·.map Prod.snd) := by
      rw [List.zipIdx_map_fst]
    rw [hfst, List.flatMap_map, List.map_flatMap]
    simp [Function.comp_def]
  let sorted := sortBy cmp (fun t => key t.2) tagged
  have hsorted : sorted.map Prod.snd = sortBy cmp key (parts.flatMap (·.map Prod.snd)) := by
    rw [← hsnd]
    exact map_sortBy Prod.snd key tagged
  have hnodup : (tagged.map Prod.fst).Nodup := by
    rw [List.map_flatMap, List.nodup_flatMap]
    constructor
    · intro l hl
      have hl' : l.1 ∈ parts := List.fst_mem_of_mem_zipIdx hl
      rw [List.map_map, show Prod.fst ∘ (fun p : Nat × τ => ((l.2, p.1), p.2)) =
        Prod.mk l.2 ∘ Prod.fst from rfl, ← List.map_map]
      exact (hkeys l.1 hl').map fun _ _ h => congrArg Prod.snd h
    · have hidx : parts.zipIdx.Pairwise fun l l' => l.2 ≠ l'.2 :=
        List.pairwise_map.mp (by rw [List.zipIdx_map_snd]; exact List.nodup_range')
      refine hidx.imp fun hne => List.disjoint_left.mpr ?_
      intro p hp hp'
      simp only [List.map_map, List.mem_map] at hp hp'
      obtain ⟨_, -, rfl⟩ := hp
      obtain ⟨_, -, he⟩ := hp'
      exact hne (congrArg Prod.fst he).symm
  have hsource : ∀ (i : Nat) f, (parts.map (numbered content))[i]? = some f ↔
      ∃ l, parts[i]? = some l ∧ f = numbered content l := by
    intro i f
    rw [List.getElem?_map, Option.map_eq_some_iff]
    exact exists_congr fun l => and_congr_right fun _ => eq_comm
  have hperm : sorted.Perm tagged := sortBy_perm _ _
  refine ⟨sorted.map Prod.fst, ((hperm.map _).nodup_iff).mpr hnodup, ?_, ?_, ?_⟩
  · intro i n
    rw [List.mem_map]
    constructor
    · rintro ⟨⟨_, t⟩, hp, rfl⟩
      obtain ⟨l, hl, ht⟩ := (hmem i n t).mp (hperm.mem_iff.mp hp)
      have hlp : l ∈ parts := List.mem_of_getElem? hl
      refine ⟨_, (hsource i _).mpr ⟨l, hl, rfl⟩, ?_⟩
      rw [numbered_eq (hkeys l hlp) ht]
      exact hne l hlp _ ht
    · rintro ⟨f, hf, e, he⟩
      obtain ⟨l, hl, rfl⟩ := (hsource i f).mp hf
      obtain ⟨t, ht, -⟩ := he
      exact ⟨_, hperm.mem_iff.mpr ((hmem i n t).mpr ⟨l, hl, ht⟩), rfl⟩
  · intro j i n hj
    obtain ⟨⟨_, t⟩, hp, he⟩ := Option.map_eq_some_iff.mp (List.getElem?_map ▸ hj)
    obtain rfl := he
    obtain ⟨l, hl, ht⟩ := (hmem i n t).mp (hperm.mem_iff.mp (List.mem_of_getElem? hp))
    refine ⟨_, (hsource i _).mpr ⟨l, hl, rfl⟩, ?_⟩
    have hplace : (sortBy cmp key (parts.flatMap (·.map Prod.snd)))[j]? = some t := by
      rw [← hsorted, List.getElem?_map, hp]
      rfl
    rw [placed_add hplace, numbered_eq (hkeys l (List.mem_of_getElem? hl)) ht]
  · intro n hn
    refine placed_eq_empty fun j hj => hn j ?_
    rwa [List.length_map, ← List.length_map Prod.snd, hsorted]

end Lib
