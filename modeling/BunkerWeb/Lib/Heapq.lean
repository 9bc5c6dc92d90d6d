import Mathlib.Data.List.Sort

/-!
# Binary heaps in lists (`heapq`)

The children of position `i` are `2 * i + 1` and `2 * i + 2`, and no element is above its children.
`heappush` and `heapreplace` move a hole until the new element fits. `offer` keeps the greatest
elements of what it is given, at most `k` of them (`foldl_offer`).
-/

namespace Lib.Heapq

variable {α κ ρ : Type*} [LinearOrder κ] [LinearOrder ρ]

/-- `_siftdown`, from a position with at most `steps` positions above it: the parents that are above
`newitem` move down. -/
def siftdown (key : α → κ) (newitem : α) : Nat → List α → Nat → List α
  | 0, heap, pos => heap.set pos newitem
  | steps + 1, heap, pos =>
    if h : 0 < pos ∧ pos < heap.length then
      let parent := heap[(pos - 1) / 2]
      if key newitem < key parent then
        siftdown key newitem steps (heap.set pos parent) ((pos - 1) / 2)
      else heap.set pos newitem
    else heap.set pos newitem

/-- The child that is not above the other one. -/
def smallerChild (key : α → κ) (heap : List α) (pos : Nat) : Nat :=
  if h : 2 * pos + 2 < heap.length then
    if key heap[2 * pos + 1] < key heap[2 * pos + 2] then 2 * pos + 1 else 2 * pos + 2
  else 2 * pos + 1

theorem smallerChild_lt (key : α → κ) {heap : List α} {pos : Nat} (h : 2 * pos + 1 < heap.length) :
    smallerChild key heap pos < heap.length := by
  unfold smallerChild
  split
  · split <;> omega
  · exact h

/-- `_siftup`: the smaller children move up until a leaf is free, and `newitem` goes up from there. -/
def siftup (key : α → κ) (newitem : α) : Nat → List α → Nat → List α
  | 0, heap, pos => siftdown key newitem pos heap pos
  | steps + 1, heap, pos =>
    if h : 2 * pos + 1 < heap.length then
      let childpos := smallerChild key heap pos
      have hlt : childpos < heap.length := smallerChild_lt key h
      siftup key newitem steps (heap.set pos heap[childpos]) childpos
    else siftdown key newitem pos heap pos

def heappush (key : α → κ) (heap : List α) (item : α) : List α :=
  siftdown key item heap.length (heap ++ [item]) heap.length

def heapreplace (key : α → κ) (heap : List α) (item : α) : List α :=
  siftup key item heap.length (heap.set 0 item) 0

/-- `if len(heap) < k: heappush(…) elif … > heap[0]: heapreplace(…)`, where the elements are compared
by `rank`. -/
def offer (key : α → κ) (rank : α → ρ) (k : Nat) (heap : List α) (item : α) : List α :=
  if heap.length < k then heappush key heap item
  else
    match heap with
    | [] => []
    | top :: heap =>
      if rank top < rank item then heapreplace key (top :: heap) item else top :: heap

/-! ## The elements -/

section

variable {key : α → κ} {newitem : α} {heap : List α} {pos steps : Nat}

/-- The hole moves to a position whose element fills it. -/
theorem set_set_perm {i j : Nat} (hi : i < heap.length) (hj : j < heap.length) (hne : i ≠ j) (x : α) :
    ((heap.set i heap[j]).set j x).Perm (heap.set i x) := by
  have h := @List.set_set_perm _ (heap.set i x) i j (by simpa using hi) (by simpa using hj)
  simpa [List.getElem_set, hne] using h

theorem siftdown_perm (hpos : pos < heap.length) :
    (siftdown key newitem steps heap pos).Perm (heap.set pos newitem) := by
  induction steps generalizing heap pos with
  | zero => exact .refl _
  | succ steps ih =>
    rw [siftdown]
    split
    next h =>
      dsimp only
      split
      · refine (ih (by rw [List.length_set]; omega)).trans ?_
        exact set_set_perm hpos (by omega) (by omega) newitem
      · exact .refl _
    next => exact .refl _

theorem siftup_perm (hpos : pos < heap.length) :
    (siftup key newitem steps heap pos).Perm (heap.set pos newitem) := by
  induction steps generalizing heap pos with
  | zero => exact siftdown_perm hpos
  | succ steps ih =>
    rw [siftup]
    split
    next h =>
      have hlt := smallerChild_lt key h
      have hne : pos ≠ smallerChild key heap pos := by
        unfold smallerChild
        split
        · split <;> omega
        · omega
      refine (ih (by simpa using hlt)).trans ?_
      exact set_set_perm hpos hlt hne newitem
    next => exact siftdown_perm hpos

/-! ## The order -/

/-- No element is above its children. -/
def IsHeap (key : α → κ) (heap : List α) : Prop :=
  ∀ i (hi : i < heap.length), key heap[(i - 1) / 2] ≤ key heap[i]

/-- What has to hold before an element goes up from `pos`. -/
structure UpHeap (key : α → κ) (heap : List α) (pos : Nat) : Prop where
  except : ∀ i (hi : i < heap.length), i ≠ pos → key heap[(i - 1) / 2] ≤ key heap[i]
  grand (hpos : 0 < pos ∧ pos < heap.length) : ∀ i (hi : i < heap.length), (i - 1) / 2 = pos →
    key heap[(pos - 1) / 2] ≤ key heap[i]

/-- What has to hold before a hole at `pos` goes down. -/
structure DownHeap (key : α → κ) (heap : List α) (pos : Nat) : Prop where
  except : ∀ i (hi : i < heap.length), i ≠ pos → (i - 1) / 2 ≠ pos →
    key heap[(i - 1) / 2] ≤ key heap[i]
  grand (hpos : 0 < pos ∧ pos < heap.length) : ∀ i (hi : i < heap.length), (i - 1) / 2 = pos →
    key heap[(pos - 1) / 2] ≤ key heap[i]

theorem IsHeap.root_le (h : IsHeap key heap) {i : Nat} (hi : i < heap.length) :
    key heap[0] ≤ key heap[i] := by
  induction i using Nat.strongRecOn with
  | ind i ih =>
    by_cases hzero : i = 0
    · subst hzero
      exact le_refl _
    · exact (ih ((i - 1) / 2) (by omega) (by omega)).trans (h i hi)

theorem IsHeap.root_le_mem {top : α} (h : IsHeap key (top :: heap)) {a : α} (ha : a ∈ top :: heap) :
    key top ≤ key a := by
  obtain ⟨i, hi, rfl⟩ := List.mem_iff_getElem.mp ha
  exact h.root_le hi

/-- An element whose parent is not above it stays there. -/
theorem UpHeap.isHeap (h : UpHeap key heap pos) (hpos : pos < heap.length)
    (hparent : key heap[(pos - 1) / 2] ≤ key heap[pos]) : IsHeap key heap := by
  intro i hi
  by_cases heq : i = pos
  · subst heq
    exact hparent
  · exact h.except i hi heq

/-- An element and its parent, which is above it, change places. -/
theorem UpHeap.move {x : α} (h : UpHeap key (heap.set pos x) pos) (hpos : pos < heap.length)
    (hzero : 0 < pos) (hlt : key x < key heap[(pos - 1) / 2]) :
    UpHeap key ((heap.set pos heap[(pos - 1) / 2]).set ((pos - 1) / 2) x) ((pos - 1) / 2) := by
  have hne : (pos - 1) / 2 ≠ pos := by omega
  -- Below the parent, elements are above it or are the parent itself.
  have hbelow : ∀ i (hi : i < heap.length), i ≠ pos → (i - 1) / 2 = (pos - 1) / 2 →
      key heap[(pos - 1) / 2] ≤ key heap[i] := by
    intro i hi hipos hparent
    have hexcept := h.except i (by simpa using hi) hipos
    simpa [List.getElem_set, hparent, hne.symm, Ne.symm hipos] using hexcept
  constructor
  · intro i hi hip
    simp only [List.length_set] at hi
    by_cases hipos : i = pos
    · subst hipos
      simpa [List.getElem_set, hne, hne.symm] using hlt.le
    · by_cases hparent : (i - 1) / 2 = (pos - 1) / 2
      · have hle := hlt.le.trans (hbelow i hi hipos hparent)
        simpa [List.getElem_set, hparent, Ne.symm hip, Ne.symm hipos] using hle
      · by_cases hchild : (i - 1) / 2 = pos
        · have hgrand := h.grand ⟨hzero, by simpa using hpos⟩ i (by simpa using hi) hchild
          simpa [List.getElem_set, hchild, hne, hne.symm, Ne.symm hip, Ne.symm hipos] using hgrand
        · have hexcept := h.except i (by simpa using hi) hipos
          simpa [List.getElem_set, Ne.symm hparent, Ne.symm hchild, Ne.symm hip, Ne.symm hipos]
            using hexcept
  · rintro ⟨hpzero, -⟩ i hi hparent
    simp only [List.length_set] at hi
    have hgne : ((pos - 1) / 2 - 1) / 2 ≠ (pos - 1) / 2 := by omega
    have hgpos : ((pos - 1) / 2 - 1) / 2 ≠ pos := by omega
    have htop := h.except ((pos - 1) / 2) (by simp only [List.length_set]; omega) hne
    have htop : key heap[((pos - 1) / 2 - 1) / 2] ≤ key heap[(pos - 1) / 2] := by
      simpa [List.getElem_set, hgpos.symm, hne.symm] using htop
    have hip : i ≠ (pos - 1) / 2 := by omega
    by_cases hipos : i = pos
    · subst hipos
      simpa [List.getElem_set, hgne.symm, hgpos.symm, hne] using htop
    · have hle := htop.trans (hbelow i hi hipos hparent)
      simpa [List.getElem_set, hgne.symm, hgpos.symm, Ne.symm hip, Ne.symm hipos] using hle

/-- An element that is not below its parent, or is the root, stays there. -/
theorem UpHeap.stay {x : α} (h : UpHeap key (heap.set pos x) pos) (hpos : pos < heap.length)
    (hstay : 0 < pos → ¬key x < key heap[(pos - 1) / 2]) : IsHeap key (heap.set pos x) := by
  refine h.isHeap (by simpa using hpos) ?_
  by_cases hzero : 0 < pos
  · have hne : pos ≠ (pos - 1) / 2 := by omega
    simpa [List.getElem_set, hne] using not_lt.mp (hstay hzero)
  · obtain rfl : pos = 0 := by omega
    exact le_refl _

theorem siftdown_isHeap (hpos : pos < heap.length) (hsteps : pos ≤ steps)
    (h : UpHeap key (heap.set pos newitem) pos) : IsHeap key (siftdown key newitem steps heap pos) := by
  induction steps generalizing heap pos with
  | zero => exact h.stay hpos (by omega)
  | succ steps ih =>
    rw [siftdown]
    split
    next hinside =>
      dsimp only
      split
      next hlt =>
        exact ih (by rw [List.length_set]; omega) (by omega) (h.move hpos hinside.1 hlt)
      next hge => exact h.stay hpos fun _ => hge
    next houtside => exact h.stay hpos (by omega)

theorem smallerChild_child (key : α → κ) (heap : List α) (pos : Nat) :
    (smallerChild key heap pos - 1) / 2 = pos ∧ pos < smallerChild key heap pos := by
  unfold smallerChild
  split
  · split <;> omega
  · omega

/-- The child that is chosen is not above any child. -/
theorem smallerChild_le (hlt : smallerChild key heap pos < heap.length) {i : Nat}
    (hi : i < heap.length) (hzero : 0 < i) (hchild : (i - 1) / 2 = pos) :
    key heap[smallerChild key heap pos] ≤ key heap[i] := by
  by_cases hright : 2 * pos + 2 < heap.length
  · by_cases hleft : key heap[2 * pos + 1] < key heap[2 * pos + 2]
    · have hchosen : smallerChild key heap pos = 2 * pos + 1 := by simp [smallerChild, hright, hleft]
      obtain rfl | rfl : i = 2 * pos + 1 ∨ i = 2 * pos + 2 := by omega
      · simp only [hchosen, le_refl]
      · simpa only [hchosen] using hleft.le
    · have hchosen : smallerChild key heap pos = 2 * pos + 2 := by simp [smallerChild, hright, hleft]
      obtain rfl | rfl : i = 2 * pos + 1 ∨ i = 2 * pos + 2 := by omega
      · simpa only [hchosen] using not_lt.mp hleft
      · simp only [hchosen, le_refl]
  · have hchosen : smallerChild key heap pos = 2 * pos + 1 := dif_neg hright
    obtain rfl : i = 2 * pos + 1 := by omega
    simp only [hchosen, le_refl]

/-- The least child fills the hole, and leaves one. -/
theorem DownHeap.move (h : DownHeap key heap pos) {c : Nat} (hc : c < heap.length) (hlt : pos < c)
    (hparent : (c - 1) / 2 = pos) (hmin : ∀ i (hi : i < heap.length), 0 < i → (i - 1) / 2 = pos →
      key heap[c] ≤ key heap[i]) : DownHeap key (heap.set pos heap[c]) c := by
  have hne : c ≠ pos := by omega
  constructor
  · intro i hi hic hpc
    simp only [List.length_set] at hi
    by_cases hipos : i = pos
    · subst hipos
      by_cases hzero : i = 0
      · subst hzero
        exact le_refl _
      · have hup : (i - 1) / 2 ≠ i := by omega
        have hgrand := h.grand ⟨by omega, by omega⟩ c hc hparent
        simpa [List.getElem_set, hup.symm] using hgrand
    · by_cases hchild : (i - 1) / 2 = pos
      · have hle := hmin i hi (by omega) hchild
        simpa [List.getElem_set, hchild, Ne.symm hipos] using hle
      · have hexcept := h.except i hi hipos hchild
        simpa [List.getElem_set, Ne.symm hchild, Ne.symm hipos] using hexcept
  · rintro - i hi hchild
    simp only [List.length_set] at hi
    have hipos : i ≠ pos := by omega
    have hexcept := h.except i hi hipos (by omega)
    simpa [List.getElem_set, hchild, hparent, Ne.symm hipos] using hexcept

/-- A leaf can be filled with an element that goes up from there. -/
theorem DownHeap.upHeap (h : DownHeap key heap pos) (hleaf : heap.length ≤ 2 * pos + 1) (x : α) :
    UpHeap key (heap.set pos x) pos := by
  constructor
  · intro i hi hipos
    simp only [List.length_set] at hi
    have hchild : (i - 1) / 2 ≠ pos := by omega
    have hexcept := h.except i hi hipos hchild
    simpa [List.getElem_set, Ne.symm hchild, Ne.symm hipos] using hexcept
  · rintro ⟨hzero, -⟩ i hi hchild
    simp only [List.length_set] at hi
    omega

theorem siftup_isHeap (hpos : pos < heap.length) (hsteps : heap.length ≤ pos + steps)
    (h : DownHeap key heap pos) : IsHeap key (siftup key newitem steps heap pos) := by
  induction steps generalizing heap pos with
  | zero => omega
  | succ steps ih =>
    rw [siftup]
    split
    next hinside =>
      have hlt := smallerChild_lt key hinside
      obtain ⟨hparent, hgt⟩ := smallerChild_child key heap pos
      refine ih (by rwa [List.length_set]) (by rw [List.length_set]; omega) ?_
      exact h.move hlt hgt hparent fun i hi => smallerChild_le hlt hi
    next hleaf =>
      exact siftdown_isHeap hpos (Nat.le_refl _) (h.upHeap (by omega) newitem)

/-! ## The operations -/

theorem heappush_perm (key : α → κ) (heap : List α) (item : α) :
    (heappush key heap item).Perm (item :: heap) := by
  refine (siftdown_perm (by simp)).trans ?_
  simp

theorem heappush_isHeap (h : IsHeap key heap) (item : α) : IsHeap key (heappush key heap item) := by
  refine siftdown_isHeap (by simp) (Nat.le_refl _) ⟨fun i hi hne => ?_, fun hpos i hi hchild => ?_⟩
  · simp only [List.length_set, List.length_append, List.length_singleton] at hi
    have hi : i < heap.length := by omega
    have hparent : (i - 1) / 2 < heap.length := by omega
    simpa [List.getElem_append, hi, hparent] using h i hi
  · simp only [List.length_set, List.length_append, List.length_singleton] at hi
    omega

theorem heapreplace_perm (key : α → κ) (top : α) (heap : List α) (item : α) :
    (heapreplace key (top :: heap) item).Perm (item :: heap) :=
  siftup_perm (by simp)

theorem heapreplace_isHeap {top : α} (h : IsHeap key (top :: heap)) (item : α) :
    IsHeap key (heapreplace key (top :: heap) item) := by
  refine siftup_isHeap (by simp) (by simp) ⟨fun i hi hne hparent => ?_, fun hpos => ?_⟩
  · rw [List.getElem_set_ne (Ne.symm hne), List.getElem_set_ne (Ne.symm hparent)]
    exact h i (by simpa using hi)
  · omega

end

/-! ## The greatest elements -/

/-- What has been kept of `l`: at most `k` elements in a heap, and none that was left out is above
them. -/
structure Kept (key : α → κ) (rank : α → ρ) (k : Nat) (l heap : List α) : Prop where
  isHeap : IsHeap key heap
  exists_rest : ∃ rest, (heap ++ rest).Perm l ∧ (∀ a ∈ heap, ∀ b ∈ rest, rank b ≤ rank a) ∧
    (heap.length = k ∨ heap.length < k ∧ rest = [])

variable {key : α → κ} {rank : α → ρ} {k : Nat} {l heap : List α}

theorem Kept.offer (hrank : ∀ a b, key a ≤ key b → rank a ≤ rank b) (h : Kept key rank k l heap)
    (item : α) : Kept key rank k (l ++ [item]) (offer key rank k heap item) := by
  obtain ⟨hheap, rest, hperm, hle, hlength⟩ := h
  have hmore : (l ++ [item]).Perm (item :: l) := List.perm_append_singleton item l
  unfold Heapq.offer
  split
  next hroom =>
    obtain ⟨-, rfl⟩ := hlength.resolve_left (by omega)
    refine ⟨heappush_isHeap hheap item, [], ?_, fun _ _ => nofun, ?_⟩
    · rw [List.append_nil] at hperm ⊢
      exact (heappush_perm key heap item).trans ((hperm.cons item).trans hmore.symm)
    · have hpushed := (heappush_perm key heap item).length_eq
      rw [List.length_cons] at hpushed
      obtain heq | hlt : heap.length + 1 = k ∨ heap.length + 1 < k := by omega
      · exact .inl (hpushed.trans heq)
      · exact .inr ⟨by omega, rfl⟩
  next hfull =>
    have hfull : heap.length = k := hlength.resolve_right fun h => hfull h.1
    cases heap with
    | nil =>
      refine ⟨hheap, item :: rest, ?_, fun _ h => absurd h List.not_mem_nil, .inl hfull⟩
      exact (hperm.cons item).trans hmore.symm
    | cons top heap =>
      dsimp only
      split
      next hlt =>
        have hreplaced := heapreplace_perm key top heap item
        refine ⟨heapreplace_isHeap hheap item, top :: rest, ?_, fun a ha b hb => ?_, ?_⟩
        · refine (hreplaced.append_right _).trans (.trans ?_ hmore.symm)
          refine .cons item (.trans ?_ hperm)
          exact List.perm_middle
        · have hle_top : ∀ b ∈ top :: rest, rank b ≤ rank top := by
            intro b hb
            obtain rfl | hb := List.mem_cons.mp hb
            · exact le_refl _
            · exact hle top List.mem_cons_self b hb
          obtain rfl | ha := List.mem_cons.mp (hreplaced.subset ha)
          · exact (hle_top b hb).trans hlt.le
          · exact (hle_top b hb).trans (hrank _ _ (hheap.root_le_mem (List.mem_cons_of_mem _ ha)))
        · exact .inl (hreplaced.length_eq.trans hfull)
      next hge =>
        refine ⟨hheap, item :: rest, ?_, fun a ha b hb => ?_, .inl hfull⟩
        · exact List.perm_middle.trans ((hperm.cons item).trans hmore.symm)
        · obtain rfl | hb := List.mem_cons.mp hb
          · exact (not_lt.mp hge).trans (hrank _ _ (hheap.root_le_mem ha))
          · exact hle a ha b hb

theorem kept_nil (key : α → κ) (rank : α → ρ) (k : Nat) : Kept key rank k ([] : List α) [] :=
  ⟨fun i hi => absurd hi (Nat.not_lt_zero i), [], .refl _, fun _ h => absurd h List.not_mem_nil, by
    simp [eq_comm, Nat.eq_zero_or_pos]⟩

/-- What is left of a list whose elements were offered one by one. -/
theorem foldl_offer (hrank : ∀ a b, key a ≤ key b → rank a ≤ rank b) (k : Nat) (l : List α) :
    Kept key rank k l (l.foldl (offer key rank k) []) := by
  have hgo : ∀ (l done heap : List α), Kept key rank k done heap →
      Kept key rank k (done ++ l) (l.foldl (offer key rank k) heap) := by
    intro l
    induction l with
    | nil => simp
    | cons a l ih =>
      intro done heap h
      simpa using ih (done ++ [a]) _ (h.offer hrank a)
  exact hgo l [] [] (kept_nil key rank k)

/-- Of elements with different ranks, those are kept that have less than `k` above them. -/
theorem Kept.mem_iff (h : Kept key rank k l heap) (hnodup : (l.map rank).Nodup) {a : α}
    (ha : a ∈ l) : a ∈ heap ↔ (l.filter fun b => rank a < rank b).length < k := by
  obtain ⟨-, rest, hperm, hle, hlength⟩ := h
  have hcount : (l.filter fun b => rank a < rank b).length =
      (heap.filter fun b => rank a < rank b).length +
        (rest.filter fun b => rank a < rank b).length := by
    rw [← (hperm.filter _).length_eq, List.filter_append, List.length_append]
  rw [hcount]
  constructor
  · intro hmem
    have hrest : rest.filter (fun b => rank a < rank b) = [] := by
      rw [List.filter_eq_nil_iff]
      intro b hb
      simpa using hle a hmem b hb
    have hself : (heap.filter fun b => rank a < rank b).length < heap.length :=
      List.length_filter_lt_length_iff_exists.mpr ⟨a, hmem, by simp⟩
    rw [hrest, List.length_nil]
    omega
  · intro hlt
    by_contra hmem
    have hrest : a ∈ rest :=
      (List.mem_append.mp (hperm.mem_iff.mpr ha)).resolve_left hmem
    have hfull : heap.length = k :=
      hlength.resolve_right fun h => List.not_mem_nil (h.2 ▸ hrest)
    have hall : heap.filter (fun b => rank a < rank b) = heap := by
      rw [List.filter_eq_self]
      intro b hb
      have hne : rank a ≠ rank b := by
        rw [← (hperm.map rank).nodup_iff, List.map_append, List.nodup_append] at hnodup
        exact fun heq => hnodup.2.2 _ (List.mem_map_of_mem hb) _ (List.mem_map_of_mem hrest) heq.symm
      simpa using lt_of_le_of_ne (hle b hb a hrest) hne
    rw [hall] at hlt
    omega

/-- Sorted downwards, what is kept is the beginning of the whole list, if elements of one rank look
the same. -/
theorem Kept.insertionSort_eq {β : Type*} {f : α → β} {r : β → β → Prop} [DecidableRel r]
    (h : Kept key rank k l heap) (order : β → ρ) (horder : ∀ a ∈ l, order (f a) = rank a)
    (hr : ∀ x y, r x y ↔ order y ≤ order x)
    (hsame : ∀ x ∈ l.map f, ∀ y ∈ l.map f, order x = order y → x = y) :
    (heap.map f).insertionSort r = ((l.map f).insertionSort r).take k := by
  obtain ⟨-, rest, hperm, hle, hlength⟩ := h
  have htotal : Std.Total r := ⟨fun x y => by rw [hr, hr]; exact le_total _ _⟩
  have htrans : IsTrans β r := ⟨fun x y z hxy hyz => by
    rw [hr] at hxy hyz ⊢
    exact hyz.trans hxy⟩
  have hsplit : (l.map f).insertionSort r =
      (heap.map f).insertionSort r ++ (rest.map f).insertionSort r := by
    have hsorted := (List.perm_insertionSort r (heap.map f)).append
      (List.perm_insertionSort r (rest.map f))
    rw [← List.map_append] at hsorted
    have hparts := hsorted.trans (hperm.map f)
    refine ((List.perm_insertionSort r (l.map f)).trans hparts.symm).eq_of_pairwise
      (fun x y hx hy hxy hyx => ?_) (List.pairwise_insertionSort r _) ?_
    · have hx := (List.perm_insertionSort r _).subset hx
      have hy := hparts.subset hy
      exact hsame x hx y hy (le_antisymm ((hr y x).mp hyx) ((hr x y).mp hxy))
    · rw [List.pairwise_append]
      refine ⟨List.pairwise_insertionSort r _, List.pairwise_insertionSort r _, ?_⟩
      intro x hx y hy
      obtain ⟨a, ha, rfl⟩ := List.mem_map.mp ((List.perm_insertionSort r _).subset hx)
      obtain ⟨b, hb, rfl⟩ := List.mem_map.mp ((List.perm_insertionSort r _).subset hy)
      rw [hr, horder a (hperm.subset (List.mem_append_left _ ha)),
        horder b (hperm.subset (List.mem_append_right _ hb))]
      exact hle a ha b hb
  rw [hsplit]
  obtain hfull | ⟨hshort, rfl⟩ := hlength
  · rw [List.take_left' (by rw [List.length_insertionSort, List.length_map, hfull])]
  · rw [List.take_of_length_le]
    · simp
    · simp only [List.length_append, List.length_insertionSort, List.length_map, List.map_nil,
        List.length_nil]
      omega

end Lib.Heapq
