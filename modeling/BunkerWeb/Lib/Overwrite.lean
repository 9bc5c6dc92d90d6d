import Mathlib.Data.List.Basic

/-!
# What a run leaves at one place

The steps of a run write to several places of a state. If a step's effect on one place is known,
`effect a` for what step `a` writes there, the run leaves what the last step with an effect wrote
(`read_foldl`). `read_foldl_own` is the case in which one step writes there.
-/

namespace Lib

variable {σ α β : Type*} {step : σ → α → σ} (read : σ → Option β) {effect : α → Option β}

/-- The last effect counts, and without one the place is as before. -/
theorem read_foldl (effect : α → Option β)
    (h : ∀ s a, read (step s a) = (effect a).or (read s)) (s : σ) (l : List α) :
    read (l.foldl step s) = (l.reverse.findSome? effect).or (read s) := by
  induction l generalizing s with
  | nil => rfl
  | cons a l ih =>
    rw [List.foldl_cons, ih, h, List.reverse_cons, List.findSome?_append, Option.or_assoc]
    congr 1
    cases he : effect a <;> simp [List.findSome?, he]

/-- The same for a run that has gone well, where what is left at the end is known only of steps that
go well. -/
theorem read_foldl_of_ok {γ : Type*} (ok : σ → Prop) (read : σ → γ) (effect : α → Option γ)
    (h : ∀ s a, ok (step s a) → ok s ∧ read (step s a) = (effect a).getD (read s)) {s : σ}
    {l : List α} (hok : ok (l.foldl step s)) :
    ok s ∧ read (l.foldl step s) = (l.reverse.findSome? effect).getD (read s) := by
  induction l generalizing s with
  | nil => exact ⟨hok, rfl⟩
  | cons a l ih =>
    obtain ⟨ha, hread⟩ := ih hok
    obtain ⟨hs, hstep⟩ := h s a ha
    refine ⟨hs, ?_⟩
    rw [List.foldl_cons, hread, hstep, List.reverse_cons, List.findSome?_append]
    cases l.reverse.findSome? effect with
    | some b => rfl
    | none => cases he : effect a <;> simp [he]

/-- What no step of the run changes. -/
theorem foldl_iff {P : σ → Prop} {s : σ} {l : List α}
    (h : ∀ s, ∀ a ∈ l, (P (step s a) ↔ P s)) : P (l.foldl step s) ↔ P s := by
  induction l generalizing s with
  | nil => exact Iff.rfl
  | cons a l ih =>
    rw [List.foldl_cons, ih fun s b hb => h s b (List.mem_cons_of_mem _ hb)]
    exact h s a List.mem_cons_self

/-- Steps that are left out have no effect. -/
theorem findSome?_reverse_filter (p : α → Bool) (effect : α → Option β) (l : List α) :
    (l.filter p).reverse.findSome? effect =
      l.reverse.findSome? fun a => if p a then effect a else none := by
  rw [← List.filter_reverse]
  induction l.reverse with
  | nil => rfl
  | cons a l ih => cases hp : p a <;> simp [hp, ih, List.findSome?_cons]

/-- The last step of all has an effect. -/
theorem findSome?_reverse_append_singleton {l : List α} {a : α} {b : β} (h : effect a = some b) :
    ((l ++ [a]).reverse.findSome? effect) = some b := by
  rw [List.reverse_append]
  simp [h]

/-- Every effect is one of the steps'. -/
theorem exists_of_findSome?_reverse {l : List α} {b : β}
    (h : l.reverse.findSome? effect = some b) : ∃ a ∈ l, effect a = some b := by
  obtain ⟨a, ha, hb⟩ := List.exists_of_findSome?_eq_some h
  exact ⟨a, List.mem_reverse.mp ha, hb⟩

/-- Some step has an effect. -/
theorem exists_findSome?_reverse {l : List α} {a : α} {b : β} (ha : a ∈ l) (h : effect a = some b) :
    ∃ b', l.reverse.findSome? effect = some b' := by
  rw [← Option.isSome_iff_exists, List.findSome?_isSome_iff]
  exact ⟨a, List.mem_reverse.mpr ha, by rw [h]; rfl⟩

/-- One step writes to the place, and always the same. -/
theorem read_foldl_own [DecidableEq α] {l : List α} {a : α} {v : Option β}
    (hother : ∀ s a', a' ≠ a → read (step s a') = read s)
    (hself : ∀ s, read (step s a) = v.or (read s)) (ha : a ∈ l) (s : σ) :
    read (l.foldl step s) = v.or (read s) := by
  have heffect : ∀ s a', read (step s a') = (if a' = a then v else none).or (read s) := by
    intro s a'
    by_cases h : a' = a
    · rw [if_pos h, h, hself]
    · rw [if_neg h, hother s a' h, Option.none_or]
  rw [read_foldl read _ heffect]
  congr 1
  cases v with
  | none => simp
  | some b =>
    obtain ⟨b', hb'⟩ := @exists_findSome?_reverse _ _
      (fun a' => if a' = a then some b else none) l a b ha (if_pos rfl)
    obtain ⟨a', -, ha'⟩ := exists_of_findSome?_reverse hb'
    split at ha'
    · exact hb'.trans ha'.symm
    · cases ha'

end Lib
