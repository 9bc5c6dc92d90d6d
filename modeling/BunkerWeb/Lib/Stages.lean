import Mathlib.Data.List.Basic

/-!
# Chains of stages

The stages of a list are called in order on a state, until one of them stops the chain with an
answer. Some items of the list have no stage.

- `run_append`: the second part of a list is run when the first part does not stop.
- `run_cons_silent`, `run_cons_stops`: a stage that leaves the state alone, and goes on or stops.
- `ran_eq_nil`: nothing is called exactly when no item has a stage.
-/

namespace Lib.Stages

variable {α σ β : Type*}

/-- The state at the end, the items whose stages were called, and the answer. -/
structure Outcome (α σ β : Type*) where
  state : σ
  ran : List α
  stop : Option β

variable (call : α → Option (σ → σ × Option β))

/-- The stages of the list, in order, up to the first that stops. -/
def run : List α → σ → Outcome α σ β
  | [], s => ⟨s, [], none⟩
  | a :: l, s =>
    match call a with
    | none => run l s
    | some f =>
      match f s with
      | (s', some b) => ⟨s', [a], some b⟩
      | (s', none) =>
        let rest := run l s'
        { rest with ran := a :: rest.ran }

/-- The first part goes through, then comes the second. -/
def Outcome.andThen (o : Outcome α σ β) (next : σ → Outcome α σ β) : Outcome α σ β :=
  match o.stop with
  | some _ => o
  | none =>
    let rest := next o.state
    { rest with ran := o.ran ++ rest.ran }

variable {call} {a : α} {l l' : List α} {s s' : σ} {b : β}

theorem run_append : run call (l ++ l') s = (run call l s).andThen (run call l') := by
  induction l generalizing s with
  | nil => rfl
  | cons a l ih =>
    rw [List.cons_append, run, run]
    cases call a with
    | none => exact ih
    | some f =>
      simp only
      rcases f s with ⟨s', _ | b⟩
      · simp only [ih]
        generalize run call l s' = o
        rcases o with ⟨t, ran, _ | b⟩ <;> rfl
      · rfl

theorem andThen_of_stop {o : Outcome α σ β} {next : σ → Outcome α σ β} (h : o.stop = some b) :
    o.andThen next = o := by
  rw [Outcome.andThen, h]

theorem andThen_of_none {o : Outcome α σ β} {next : σ → Outcome α σ β} (h : o.stop = none) :
    o.andThen next = { next o.state with ran := o.ran ++ (next o.state).ran } := by
  rw [Outcome.andThen, h]

theorem run_cons_silent (h : call a = some fun s => (s, none)) :
    run call (a :: l) s = { run call l s with ran := a :: (run call l s).ran } := by
  rw [run, h]

theorem run_cons_stops (h : call a = some fun s => (s, some b)) :
    run call (a :: l) s = ⟨s, [a], some b⟩ := by
  rw [run, h]

theorem ran_subset : ∀ c ∈ (run call l s).ran, c ∈ l := by
  induction l generalizing s with
  | nil => simp [run]
  | cons a l ih =>
    intro c hc
    rw [run] at hc
    cases hcall : call a with
    | none =>
      rw [hcall] at hc
      exact List.mem_cons_of_mem a (ih c hc)
    | some f =>
      rw [hcall] at hc
      rcases hf : f s with ⟨s', _ | b⟩
      · simp only [hf, List.mem_cons] at hc
        exact List.mem_cons.2 (hc.imp_right (ih c))
      · simp only [hf, List.mem_singleton] at hc
        exact hc ▸ List.mem_cons_self

/-- Nothing is called exactly when no item has a stage. -/
theorem ran_eq_nil : (run call l s).ran = [] ↔ ∀ c ∈ l, call c = none := by
  induction l generalizing s with
  | nil => simp [run]
  | cons a l ih =>
    rw [run, List.forall_mem_cons]
    cases hcall : call a with
    | none => simp [ih]
    | some f => rcases hf : f s with ⟨s', _ | b⟩ <;> simp [hf]

/-- Without a call the chain does not stop. -/
theorem stop_of_ran_nil (h : (run call l s).ran = []) : (run call l s).stop = none := by
  induction l generalizing s with
  | nil => rfl
  | cons a l ih =>
    rw [run] at h ⊢
    cases hcall : call a with
    | none =>
      rw [hcall] at h
      exact ih h
    | some f =>
      rw [hcall] at h
      rcases hf : f s with ⟨s', _ | b⟩ <;> simp [hf] at h

variable [DecidableEq α]

/-- The list without an item that it has once, split where the item was. -/
theorem filter_ne_of_nodup (h : (l ++ a :: l').Nodup) :
    (l ++ a :: l').filter (· ≠ a) = l ++ l' := by
  rw [List.nodup_append, List.nodup_cons] at h
  obtain ⟨-, ⟨hl', -⟩, hdis⟩ := h
  have hl : ∀ c ∈ l, decide (c ≠ a) = true := fun c hc => by
    simpa using hdis c hc a List.mem_cons_self
  have hl'' : ∀ c ∈ l', decide (c ≠ a) = true := fun c hc => by
    simpa using fun he : c = a => hl' (he ▸ hc)
  rw [List.filter_append, List.filter_cons_of_neg (by simp), List.filter_eq_self.2 hl,
    List.filter_eq_self.2 hl'']

end Lib.Stages
