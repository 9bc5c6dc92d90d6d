import Mathlib.Data.List.Basic

/-!
# Systems of independent keys

A step answers an input and changes the state. In a keyed system the answer depends on what is kept
under the key of the input, and nothing is changed under another key. `outputs_filter` is the rule
for such systems: the answers to some of the inputs are those of a run without the others, provided
that the others have other keys.
-/

namespace Lib.Keyed

variable {σ ι κ α ω : Type*} (key : ι → κ) (slot : σ → κ → α) (step : σ → ι → ω × σ)

structure IsKeyed : Prop where
  own : ∀ s s' i, slot s (key i) = slot s' (key i) →
    (step s i).1 = (step s' i).1 ∧ slot (step s i).2 (key i) = slot (step s' i).2 (key i)
  frame : ∀ s i k, k ≠ key i → slot (step s i).2 k = slot s k

/-- The inputs with their answers. -/
def outputs (s : σ) : List ι → List (ι × ω)
  | [] => []
  | i :: is => (i, (step s i).1) :: outputs (step s i).2 is

variable {key slot step}

/-- A step for a key changes two states alike. -/
theorem IsKeyed.slot_eq (h : IsKeyed key slot step) {s s' : σ} {i : ι} {k : κ}
    (hown : slot s (key i) = slot s' (key i)) (hk : slot s k = slot s' k) :
    slot (step s i).2 k = slot (step s' i).2 k := by
  by_cases hki : k = key i
  · rw [hki]
    exact (h.own s s' i hown).2
  · rw [h.frame s i k hki, h.frame s' i k hki, hk]

/-- The inputs that `p` selects are answered as if they were the only ones, when no other input has
a key of theirs. -/
theorem IsKeyed.outputs_filter (h : IsKeyed key slot step) {p : ι → Bool} {s s' : σ} {is : List ι}
    (hkeys : ∀ i ∈ is, p i = true → ∀ j ∈ is, p j = false → key i ≠ key j)
    (hs : ∀ i ∈ is, p i = true → slot s (key i) = slot s' (key i)) :
    (outputs step s is).filter (fun o => p o.1) = outputs step s' (is.filter p) := by
  induction is generalizing s s' with
  | nil => rfl
  | cons i is ih =>
    have hkeys' : ∀ i ∈ is, p i = true → ∀ j ∈ is, p j = false → key i ≠ key j :=
      fun a ha hpa b hb => hkeys a (List.mem_cons_of_mem _ ha) hpa b (List.mem_cons_of_mem _ hb)
    cases hp : p i with
    | true =>
      have hown := hs i List.mem_cons_self hp
      rw [outputs, List.filter_cons_of_pos (by simpa using hp),
        List.filter_cons_of_pos (by simpa using hp), outputs, (h.own s s' i hown).1]
      congr 1
      exact ih hkeys' fun a ha hpa => h.slot_eq hown (hs a (List.mem_cons_of_mem _ ha) hpa)
    | false =>
      rw [outputs, List.filter_cons_of_neg (by simp [hp]), List.filter_cons_of_neg (by simp [hp])]
      refine ih hkeys' fun a ha hpa => ?_
      have ha' := List.mem_cons_of_mem i ha
      rw [h.frame s i _ (hkeys a ha' hpa i List.mem_cons_self hp)]
      exact hs a ha' hpa

end Lib.Keyed
