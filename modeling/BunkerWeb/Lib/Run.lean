import Mathlib.Data.List.Basic

/-!
# Runs of a step function

A system is a total step function `step : σ → ι → σ` that takes one input at a time. `run` is the
state after a list of inputs, and `Meets ok` says that every input satisfies `ok` in the state
that receives it. `invariant` is the one induction of every safety proof over runs: what a step
that meets `ok` preserves holds after a run that meets `ok`.
-/

namespace Lib.Run

variable {σ ι : Type*} (step : σ → ι → σ)

/-- The state after the inputs `is`, in order. -/
def run (s : σ) (is : List ι) : σ := is.foldl step s

/-- Every input satisfies `ok` in the state it is given to. -/
def Meets (ok : σ → ι → Prop) : σ → List ι → Prop
  | _, [] => True
  | s, i :: is => ok s i ∧ Meets ok (step s i) is

@[simp] theorem run_nil (s : σ) : run step s [] = s := rfl

@[simp] theorem run_cons (s : σ) (i : ι) (is : List ι) :
    run step s (i :: is) = run step (step s i) is := rfl

theorem run_append (s : σ) (is js : List ι) :
    run step s (is ++ js) = run step (run step s is) js := List.foldl_append

variable {step}

@[simp] theorem meets_nil {ok : σ → ι → Prop} {s : σ} : Meets step ok s [] := trivial

@[simp] theorem meets_cons {ok : σ → ι → Prop} {s : σ} {i : ι} {is : List ι} :
    Meets step ok s (i :: is) ↔ ok s i ∧ Meets step ok (step s i) is := Iff.rfl

instance Meets.decidable {ok : σ → ι → Prop} [∀ s i, Decidable (ok s i)] :
    ∀ (s : σ) (is : List ι), Decidable (Meets step ok s is)
  | _, [] => .isTrue trivial
  | s, i :: is => @instDecidableAnd (ok s i) _ inferInstance (Meets.decidable (step s i) is)

theorem meets_append {ok : σ → ι → Prop} {s : σ} {is js : List ι} :
    Meets step ok s (is ++ js) ↔ Meets step ok s is ∧ Meets step ok (run step s is) js := by
  induction is generalizing s with
  | nil => simp
  | cons i is ih => simp [ih, and_assoc]

/-- A condition on the inputs alone. -/
theorem meets_of_forall {ok : ι → Prop} {s : σ} {is : List ι} (h : ∀ i ∈ is, ok i) :
    Meets step (fun _ => ok) s is := by
  induction is generalizing s with
  | nil => trivial
  | cons i is ih =>
    exact ⟨h i List.mem_cons_self, ih fun j hj => h j (List.mem_cons_of_mem _ hj)⟩

theorem Meets.mono {ok ok' : σ → ι → Prop} (h : ∀ s i, ok s i → ok' s i) {s : σ} {is : List ι}
    (hm : Meets step ok s is) : Meets step ok' s is := by
  induction is generalizing s with
  | nil => trivial
  | cons i is ih => exact ⟨h _ _ hm.1, ih hm.2⟩

theorem Meets.and {ok ok' : σ → ι → Prop} {s : σ} {is : List ι} (h : Meets step ok s is)
    (h' : Meets step ok' s is) : Meets step (fun s i => ok s i ∧ ok' s i) s is := by
  induction is generalizing s with
  | nil => trivial
  | cons i is ih => exact ⟨⟨h.1, h'.1⟩, ih h.2 h'.2⟩

/-- What every admitted step preserves holds at the end of an admitted run. -/
theorem invariant {Inv : σ → Prop} {ok : σ → ι → Prop}
    (hstep : ∀ s i, Inv s → ok s i → Inv (step s i)) {s : σ} {is : List ι} (h0 : Inv s)
    (hm : Meets step ok s is) : Inv (run step s is) := by
  induction is generalizing s with
  | nil => exact h0
  | cons i is ih => exact ih (hstep _ _ h0 hm.1) hm.2

/-- What every step preserves holds at the end of every run. -/
theorem always {Inv : σ → Prop} (hstep : ∀ s i, Inv s → Inv (step s i)) {s : σ} (h0 : Inv s)
    (is : List ι) : Inv (run step s is) :=
  invariant (fun s i hs _ => hstep s i hs) h0 (meets_of_forall fun _ _ => trivial)

/-- Under what admitted steps preserve, one condition on the inputs gives another. -/
theorem Meets.of_invariant {Inv : σ → Prop} {ok ok' : σ → ι → Prop}
    (hstep : ∀ s i, Inv s → ok s i → Inv (step s i)) (h : ∀ s i, Inv s → ok s i → ok' s i) {s : σ}
    {is : List ι} (h0 : Inv s) (hm : Meets step ok s is) : Meets step ok' s is := by
  induction is generalizing s with
  | nil => trivial
  | cons i is ih => exact ⟨h s i h0 hm.1, ih (hstep s i h0 hm.1) hm.2⟩

/-- The same at every state on the way. -/
theorem invariant_of_append {Inv : σ → Prop} {ok : σ → ι → Prop}
    (hstep : ∀ s i, Inv s → ok s i → Inv (step s i)) {s : σ} {is js : List ι} (h0 : Inv s)
    (hm : Meets step ok s (is ++ js)) : Inv (run step s is) :=
  invariant hstep h0 (meets_append.mp hm).1

end Lib.Run
