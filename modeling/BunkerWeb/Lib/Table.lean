import BunkerWeb.Lib.Dict

/-!
# The changes of a transaction

A table is a dictionary: its unique constraint is that a key is in it once. A transaction collects
changes to single keys and applies them at its commit: first the deletions, then the updates, then
the new rows, and last a clean-up of keys. An update of a key that is not there does nothing; a new
row for a key that is there breaks the constraint, and the commit fails.

`lookup_commit` says what a key holds after a commit that succeeds.
-/

namespace Lib

/-- A change to one key; an update is a description `υ` that an `apply` turns into a function. -/
inductive Change (υ ν : Type*) where
  | put (v : ν)
  | update (u : υ)
  | delete
  deriving DecidableEq, Repr

namespace Table

variable {κ ν υ : Type*}

def deletesOf (cs : List (κ × Change υ ν)) : List κ :=
  cs.filterMap fun e => match e.2 with | .delete => some e.1 | _ => none

def updatesOf (cs : List (κ × Change υ ν)) : List (κ × υ) :=
  cs.filterMap fun e => match e.2 with | .update u => some (e.1, u) | _ => none

def putsOf (cs : List (κ × Change υ ν)) : List (κ × ν) :=
  cs.filterMap fun e => match e.2 with | .put v => some (e.1, v) | _ => none

theorem mem_deletesOf {cs : List (κ × Change υ ν)} {k : κ} :
    k ∈ deletesOf cs ↔ (k, Change.delete) ∈ cs := by
  rw [deletesOf, List.mem_filterMap]
  constructor
  · rintro ⟨⟨k', c⟩, he, hk⟩
    cases c <;> simp at hk
    rwa [← hk]
  · exact fun h => ⟨_, h, rfl⟩

theorem mem_updatesOf {cs : List (κ × Change υ ν)} {k : κ} {u : υ} :
    (k, u) ∈ updatesOf cs ↔ (k, Change.update u) ∈ cs := by
  rw [updatesOf, List.mem_filterMap]
  constructor
  · rintro ⟨⟨k', c⟩, he, hk⟩
    cases c <;> simp at hk
    obtain ⟨rfl, rfl⟩ := hk
    exact he
  · exact fun h => ⟨_, h, rfl⟩

theorem mem_putsOf {cs : List (κ × Change υ ν)} {k : κ} {v : ν} :
    (k, v) ∈ putsOf cs ↔ (k, Change.put v) ∈ cs := by
  rw [putsOf, List.mem_filterMap]
  constructor
  · rintro ⟨⟨k', c⟩, he, hk⟩
    cases c <;> simp at hk
    obtain ⟨rfl, rfl⟩ := hk
    exact he
  · exact fun h => ⟨_, h, rfl⟩

variable [DecidableEq κ] (apply : υ → ν → ν)

def deleteAll (d : Dict κ ν) (ks : List κ) : Dict κ ν := ks.foldl (fun d k => d.erase k) d

def updateAll (d : Dict κ ν) (us : List (κ × υ)) : Dict κ ν :=
  us.foldl (fun d e =>
    match d.lookup e.1 with
    | some v => d.insert e.1 (apply e.2 v)
    | none => d) d

/-- Adds the rows; `none` if a key is there already. -/
def putAll (d : Dict κ ν) (ps : List (κ × ν)) : Option (Dict κ ν) :=
  ps.foldlM (fun d e => if (d.lookup e.1).isSome then none else some (d.insert e.1 e.2)) d

/-- The table after the changes and the clean-up, if no constraint is broken. -/
def commit (d : Dict κ ν) (cs : List (κ × Change υ ν)) (cleanup : List κ) :
    Option (Dict κ ν) :=
  (putAll (updateAll apply (deleteAll d (deletesOf cs)) (updatesOf cs)) (putsOf cs)).map
    (deleteAll · cleanup)

theorem lookup_deleteAll (d : Dict κ ν) (ks : List κ) (k : κ) :
    (deleteAll d ks).lookup k = if k ∈ ks then none else d.lookup k := by
  induction ks generalizing d with
  | nil => simp [deleteAll]
  | cons k' ks ih =>
    have h := ih (d.erase k')
    rw [deleteAll] at h ⊢
    rw [List.foldl_cons, h]
    by_cases hk : k = k'
    · subst hk; simp
    · simp [hk, AList.lookup_erase_ne hk]

/-- The updates of one key, in order. -/
def updateFor (us : List (κ × υ)) (k : κ) (v : ν) : ν :=
  us.foldl (fun v e => if e.1 = k then apply e.2 v else v) v

theorem lookup_updateAll (d : Dict κ ν) (us : List (κ × υ)) (k : κ) :
    (updateAll apply d us).lookup k = (d.lookup k).map (updateFor apply us k) := by
  induction us generalizing d with
  | nil => simp [updateAll, show updateFor apply [] k = id from rfl]
  | cons e us ih =>
    rw [updateAll, List.foldl_cons]
    cases he : d.lookup e.1 with
    | none =>
      have h := ih d
      rw [updateAll] at h
      simp only
      rw [h]
      cases hd : d.lookup k with
      | none => rfl
      | some v =>
        have hne : e.1 ≠ k := fun hk => by rw [← hk, he] at hd; cases hd
        simp [updateFor, hne]
    | some w =>
      have h := ih (d.insert e.1 (apply e.2 w))
      rw [updateAll] at h
      simp only
      rw [h]
      by_cases hk : e.1 = k
      · subst hk; simp [he, updateFor]
      · rw [AList.lookup_insert_ne (Ne.symm hk)]
        refine Option.map_congr fun v _ => ?_
        simp [updateFor, hk]

/-- Updates that leave a value as it is. -/
theorem updateFor_of_fixed {us : List (κ × υ)} {k : κ} {v : ν}
    (h : ∀ u, (k, u) ∈ us → apply u v = v) : updateFor apply us k v = v := by
  induction us with
  | nil => rfl
  | cons e us ih =>
    have htail := ih fun u hu => h u (List.mem_cons_of_mem _ hu)
    rw [updateFor] at htail ⊢
    rw [List.foldl_cons]
    split
    · rename_i hk
      rw [h e.2 (by rw [← hk]; exact List.mem_cons_self), htail]
    · exact htail

theorem updateFor_of_notMem {us : List (κ × υ)} {k : κ} (h : ∀ u, (k, u) ∉ us) (v : ν) :
    updateFor apply us k v = v :=
  updateFor_of_fixed apply fun u hu => absurd hu (h u)

/-- What every update of a key establishes holds of the key as soon as it has one. -/
theorem updateFor_prop {us : List (κ × υ)} {k : κ} {P : ν → Prop}
    (hP : ∀ u, (k, u) ∈ us → ∀ v, P (apply u v)) (hex : ∃ u, (k, u) ∈ us) (v : ν) :
    P (updateFor apply us k v) := by
  induction us generalizing v with
  | nil => obtain ⟨u, hu⟩ := hex; cases hu
  | cons e us ih =>
    have hP' : ∀ u, (k, u) ∈ us → ∀ v, P (apply u v) := fun u hu =>
      hP u (List.mem_cons_of_mem _ hu)
    rw [updateFor, List.foldl_cons]
    by_cases hex' : ∃ u', (k, u') ∈ us
    · exact ih hP' hex' _
    · obtain ⟨u, hu⟩ := hex
      rcases List.mem_cons.mp hu with rfl | hu
      · rw [if_pos rfl]
        show P (updateFor apply us k _)
        rw [updateFor_of_notMem apply (fun u' hu' => hex' ⟨u', hu'⟩)]
        exact hP u List.mem_cons_self v
      · exact absurd ⟨u, hu⟩ hex'

theorem lookup_putAll {d d' : Dict κ ν} {ps : List (κ × ν)} (h : putAll d ps = some d') (k : κ) :
    d'.lookup k = (d.lookup k).or (Dict.firstOf k ps) ∧
      (d.lookup k ≠ none → ∀ v, (k, v) ∉ ps) := by
  induction ps generalizing d with
  | nil =>
    cases h
    simp [Dict.firstOf]
  | cons e ps ih =>
    rw [putAll, List.foldlM_cons] at h
    cases he : d.lookup e.1 with
    | some v => simp [he] at h
    | none =>
      simp only [he, Option.isSome_none, Bool.false_eq_true, if_false] at h
      obtain ⟨h1, h2⟩ := ih h
      by_cases hk : e.1 = k
      · subst hk
        rw [AList.lookup_insert] at h1
        refine ⟨by rw [h1, he]; simp [Dict.firstOf], fun hne => absurd he hne⟩
      · rw [AList.lookup_insert_ne (Ne.symm hk)] at h1 h2
        refine ⟨by rw [h1]; simp [Dict.firstOf, hk], fun hne v hv => ?_⟩
        rcases List.mem_cons.mp hv with rfl | hv
        · exact hk rfl
        · exact h2 hne v hv

/-- What a key holds after a commit: nothing if the clean-up takes it, else what it held with its
updates, unless it was deleted, else the row that is put there. -/
theorem lookup_commit {d d' : Dict κ ν} {cs : List (κ × Change υ ν)} {cleanup : List κ}
    (h : commit apply d cs cleanup = some d') (k : κ) :
    d'.lookup k =
      if k ∈ cleanup then none
      else ((if k ∈ deletesOf cs then none else d.lookup k).map
        (updateFor apply (updatesOf cs) k)).or (Dict.firstOf k (putsOf cs)) := by
  obtain ⟨d₁, hput, rfl⟩ := Option.map_eq_some_iff.mp h
  rw [lookup_deleteAll, (lookup_putAll hput k).1, lookup_updateAll, lookup_deleteAll]

/-- A key that no change names keeps what it holds, unless the clean-up takes it. -/
theorem lookup_commit_of_unchanged {d d' : Dict κ ν} {cs : List (κ × Change υ ν)}
    {cleanup : List κ} (h : commit apply d cs cleanup = some d') {k : κ}
    (hcs : ∀ c, (k, c) ∉ cs) : d'.lookup k = if k ∈ cleanup then none else d.lookup k := by
  have hput : Dict.firstOf k (putsOf cs) = none := Dict.firstOf_eq_none.mpr fun e he hk =>
    hcs (Change.put e.2) (hk ▸ mem_putsOf.mp he)
  rw [lookup_commit apply h, if_neg (fun hd => hcs _ (mem_deletesOf.mp hd)), hput,
    Option.or_none]
  congr 1
  cases d.lookup k with
  | none => rfl
  | some v =>
    rw [Option.map_some, updateFor_of_notMem apply fun u hu => hcs _ (mem_updatesOf.mp hu)]

theorem lookup_commit_of_untouched {d d' : Dict κ ν} {cs : List (κ × Change υ ν)}
    {cleanup : List κ} (h : commit apply d cs cleanup = some d') {k : κ}
    (hcs : ∀ c, (k, c) ∉ cs) (hk : k ∉ cleanup) : d'.lookup k = d.lookup k := by
  rw [lookup_commit_of_unchanged apply h hcs, if_neg hk]

/-- A key that is deleted and not put again holds nothing. -/
theorem lookup_commit_of_deleted {d d' : Dict κ ν} {cs : List (κ × Change υ ν)} {cleanup : List κ}
    (h : commit apply d cs cleanup = some d') {k : κ} (hdel : (k, Change.delete) ∈ cs)
    (hput : ∀ v, (k, Change.put v) ∉ cs) : d'.lookup k = none := by
  have hfirst : Dict.firstOf k (putsOf cs) = none := Dict.firstOf_eq_none.mpr fun e he hk =>
    hput e.2 (hk ▸ mem_putsOf.mp he)
  rw [lookup_commit apply h, if_pos (mem_deletesOf.mpr hdel), hfirst]
  simp

/-- A key that held nothing holds the row that is put there. -/
theorem lookup_commit_of_put {d d' : Dict κ ν} {cs : List (κ × Change υ ν)} {cleanup : List κ}
    (h : commit apply d cs cleanup = some d') {k : κ} (hk : k ∉ cleanup)
    (hd : d.lookup k = none) {v : ν} (hput : ∀ w, (k, Change.put w) ∈ cs ↔ w = v) :
    d'.lookup k = some v := by
  have hfirst : Dict.firstOf k (putsOf cs) = some v := Dict.firstOf_eq_of_iff fun w => by
    rw [mem_putsOf, hput w, Option.some.injEq, eq_comm]
  rw [lookup_commit apply h, if_neg hk, hd, ite_self, hfirst]
  rfl

/-- A key that is updated holds what the updates establish. -/
theorem lookup_commit_of_updated {d d' : Dict κ ν} {cs : List (κ × Change υ ν)}
    {cleanup : List κ} (h : commit apply d cs cleanup = some d') {k : κ} (hk : k ∉ cleanup)
    {v : ν} (hd : d.lookup k = some v) (hdel : (k, Change.delete) ∉ cs) {P : ν → Prop}
    (hex : ∃ u, (k, Change.update u) ∈ cs)
    (hP : ∀ u, (k, Change.update u) ∈ cs → ∀ v, P (apply u v)) :
    ∃ w, d'.lookup k = some w ∧ P w := by
  refine ⟨updateFor apply (updatesOf cs) k v, ?_, ?_⟩
  · rw [lookup_commit apply h, if_neg hk, if_neg fun hmem => hdel (mem_deletesOf.mp hmem), hd]
    rfl
  · obtain ⟨u, hu⟩ := hex
    exact updateFor_prop apply (fun u hu => hP u (mem_updatesOf.mp hu)) ⟨u, mem_updatesOf.mpr hu⟩ v

/-- A row after a commit was there before or is put. -/
theorem isSome_or_put_of_commit {d d' : Dict κ ν} {cs : List (κ × Change υ ν)} {cleanup : List κ}
    (h : commit apply d cs cleanup = some d') {k : κ} {v : ν} (hk : d'.lookup k = some v) :
    (d.lookup k).isSome ∨ ∃ w, (k, Change.put w) ∈ cs := by
  rw [lookup_commit apply h] at hk
  split at hk
  · cases hk
  · cases hd : d.lookup k with
    | some w => exact .inl rfl
    | none =>
      rw [hd, ite_self, Option.map_none, Option.none_or] at hk
      exact .inr ⟨v, mem_putsOf.mp (Dict.mem_of_firstOf hk)⟩

end Table

end Lib
