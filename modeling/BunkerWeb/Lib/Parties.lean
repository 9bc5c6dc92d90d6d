import BunkerWeb.Lib.Run
import Mathlib.Algebra.BigOperators.Group.Finset.Basic
import Mathlib.Data.Fintype.Basic
import Mathlib.Logic.Relation

/-!
# Systems of parties

A shared state and, for each party, where it is in its program. A step moves one party. What a
property of the system says about the parties is a sum over them or the existence of one, and these
lemmas say how such a statement changes when a single party moves.

Where each step changes a sum by what it adds and what it takes, `balance` is the account of a run.
Where each party has a list of steps to make, and the steps of different parties are independent,
every interleaving comes to what the parties come to one after the other (`Interleaves.view_eq`).
-/

namespace Lib.Parties

variable {ι : Type*} [DecidableEq ι]

/-- A sum in which only the term of one party changes. -/
theorem sum_change {M : Type*} [AddCommMonoid M] [Fintype ι] {f g : ι → M} {i : ι}
    (h : ∀ j, j ≠ i → g j = f j) : ∑ j, g j + f i = ∑ j, f j + g i := by
  rw [← Finset.add_sum_erase _ g (Finset.mem_univ i),
    ← Finset.add_sum_erase _ f (Finset.mem_univ i),
    Finset.sum_congr rfl fun j hj => h j (Finset.ne_of_mem_erase hj)]
  ac_rfl

/-- The sum over the other parties. -/
theorem sum_erase_eq {M : Type*} [AddCommMonoid M] [Fintype ι] {f g : ι → M} {i : ι}
    (h : ∀ j, j ≠ i → g j = f j) : ∑ j, g j = g i + ∑ j ∈ Finset.univ.erase i, f j := by
  rw [← Finset.add_sum_erase _ g (Finset.mem_univ i),
    Finset.sum_congr rfl fun j hj => h j (Finset.ne_of_mem_erase hj)]

/-- A sum in which the terms of some parties become zero. -/
theorem sum_clear {M : Type*} [AddCommMonoid M] [Fintype ι] {f g : ι → M} {l : List ι} (hl : l.Nodup)
    (hmem : ∀ j ∈ l, g j = 0) (h : ∀ j ∉ l, g j = f j) : ∑ j, g j + (l.map f).sum = ∑ j, f j := by
  rw [← List.sum_toFinset f hl, ← Finset.sum_add_sum_compl l.toFinset g,
    ← Finset.sum_add_sum_compl l.toFinset f,
    Finset.sum_eq_zero fun j hj => hmem j (List.mem_toFinset.mp hj), zero_add, add_comm,
    Finset.sum_congr rfl fun j hj => h j fun hmem =>
      Finset.mem_compl.mp hj (List.mem_toFinset.mpr hmem)]

/-- A fact `r` of the shared state or `P` of some party, of which `new` comes about by the move. -/
theorem or_exists_update {α : Type*} {P : α → Prop} (f : ι → α) (i : ι) (a : α) {r r' new : Prop}
    (h : r' ∨ P a ↔ (r ∨ P (f i)) ∨ new) :
    (r' ∨ ∃ j, P (Function.update f i a j)) ↔ (r ∨ ∃ j, P (f j)) ∨ new := by
  have hold : (∃ j, P (f j)) ↔ P (f i) ∨ ∃ j, j ≠ i ∧ P (f j) := by
    have := Function.exists_update_iff f (a := i) (b := f i) (fun _ a => P a)
    rwa [Function.update_eq_self] at this
  rw [Function.exists_update_iff f (fun _ a => P a), hold, ← or_assoc, h, ← or_assoc,
    or_right_comm]

/-- What holds of every party, when it holds of the one that has moved. -/
theorem forall_update {α : Type*} {P : α → Prop} {f : ι → α} {i : ι} {a : α} (ha : P a)
    (h : ∀ j, P (f j)) : ∀ j, P (Function.update f i a j) :=
  (Function.forall_update_iff f (fun _ a => P a)).mpr ⟨ha, fun j _ => h j⟩

/-! ## Accounts -/

open Run

variable {σ α M : Type*} [AddCommMonoid M] {step : σ → α → σ}

/-- What the steps of a run add up to, each in the state that it is taken in. -/
def along (step : σ → α → σ) (f : σ → α → M) : σ → List α → M
  | _, [] => 0
  | s, a :: as => f s a + along step f (step s a) as

/-- What is there at the end and what was taken on the way is what was there and what was added. -/
theorem balance {measure : σ → M} {gain loss : σ → α → M} {ok : σ → α → Prop}
    (hstep : ∀ s a, ok s a → measure (step s a) + loss s a = measure s + gain s a) {s : σ}
    {as : List α} (hm : Meets step ok s as) :
    measure (run step s as) + along step loss s as = measure s + along step gain s as := by
  induction as generalizing s with
  | nil => rfl
  | cons a as ih =>
    calc measure (run step (step s a) as) + (loss s a + along step loss (step s a) as)
        = loss s a + (measure (run step (step s a) as) + along step loss (step s a) as) := by
          rw [add_left_comm]
      _ = (measure (step s a) + loss s a) + along step gain (step s a) as := by
          rw [ih hm.2, ← add_assoc, add_comm (loss s a)]
      _ = measure s + (gain s a + along step gain (step s a) as) := by
          rw [hstep s a hm.1, add_assoc]

/-! ## Interleavings -/

section

variable {σ α τ : Type*} (step : σ → α → σ)

/-- One of the parties makes its next step. -/
inductive Moves : σ × List (List α) → σ × List (List α) → Prop
  | move (s : σ) (before : List (List α)) (a : α) (as : List α) (after : List (List α)) :
      Moves (s, before ++ (a :: as) :: after) (step s a, before ++ as :: after)

/-- The programs are run to their ends, in any order of their steps. -/
def Interleaves (s : σ) (programs : List (List α)) (s' : σ) : Prop :=
  ∃ ends, Relation.ReflTransGen (Moves step) (s, programs) (s', ends) ∧ ∀ p ∈ ends, p = []

/-- The two steps can be made in either order, as far as can be seen of the state. -/
def Independent (view : σ → τ) (a b : α) : Prop :=
  ∀ s, view (step (step s a) b) = view (step (step s b) a)

def Independents (view : σ → τ) (as bs : List α) : Prop :=
  ∀ a ∈ as, ∀ b ∈ bs, Independent step view a b

variable {step} {view : σ → τ} {s s' : σ} {as bs : List α}

theorem Independent.symm {a b : α} (h : Independent step view a b) : Independent step view b a :=
  fun s => (h s).symm

-- What can be seen of a state decides what can be seen of the next.
variable (hview : ∀ s s' a, view s = view s' → view (step s a) = view (step s' a))
include hview

theorem view_run (h : view s = view s') (as : List α) :
    view (run step s as) = view (run step s' as) := by
  induction as generalizing s s' with
  | nil => exact h
  | cons a as ih => exact ih (hview _ _ _ h)

/-- A step can be made before others that it is independent of. -/
theorem view_run_cons {a : α} (h : ∀ b ∈ bs, Independent step view a b) (s : σ) :
    view (run step s (bs ++ [a])) = view (run step s (a :: bs)) := by
  induction bs generalizing s with
  | nil => rfl
  | cons b bs ih =>
    calc view (run step (step s b) (bs ++ [a]))
        = view (run step (step (step s b) a) bs) :=
          ih (fun b' hb' => h b' (List.mem_cons_of_mem _ hb')) _
      _ = view (run step (step (step s a) b) bs) :=
          view_run hview (h b List.mem_cons_self s).symm bs

theorem view_run_swap (h : Independents step view as bs) (s : σ) :
    view (run step s (as ++ bs)) = view (run step s (bs ++ as)) := by
  induction as generalizing s with
  | nil => simp
  | cons a as ih =>
    calc view (run step (step s a) (as ++ bs))
        = view (run step (step s a) (bs ++ as)) :=
          ih (fun a' ha' => h a' (List.mem_cons_of_mem _ ha')) _
      _ = view (run step (run step s (a :: bs)) as) := by rw [← run_append]; rfl
      _ = view (run step (run step s (bs ++ [a])) as) :=
          view_run hview (view_run_cons hview (h a List.mem_cons_self) s).symm as
      _ = view (run step s (bs ++ a :: as)) := by
          rw [← run_append, List.append_assoc, List.singleton_append]

/-- A move is as good as a step of the parties one after the other. -/
theorem Moves.view_eq {x y : σ × List (List α)} (h : Moves step x y)
    (hind : x.2.Pairwise (Independents step view)) :
    view (run step y.1 y.2.flatten) = view (run step x.1 x.2.flatten) ∧
      y.2.Pairwise (Independents step view) := by
  obtain ⟨s, before, a, as, after⟩ := h
  obtain ⟨hbefore, hrest, hcross⟩ := List.pairwise_append.mp hind
  obtain ⟨hfirst, hafter⟩ := List.pairwise_cons.mp hrest
  constructor
  · have hahead : ∀ b ∈ before.flatten, Independent step view a b := fun b hb => by
      obtain ⟨p, hp, hb⟩ := List.mem_flatten.mp hb
      exact (hcross p hp _ List.mem_cons_self b hb a List.mem_cons_self).symm
    calc view (run step (step s a) (before ++ as :: after).flatten)
        = view (run step (run step s (a :: before.flatten)) (as ++ after.flatten)) := by
          rw [← run_append, List.flatten_append, List.flatten_cons]
          rfl
      _ = view (run step (run step s (before.flatten ++ [a])) (as ++ after.flatten)) :=
          view_run hview (view_run_cons hview hahead s).symm _
      _ = view (run step s (before ++ (a :: as) :: after).flatten) := by
          rw [← run_append, List.flatten_append, List.flatten_cons, List.append_assoc]
          rfl
  · refine List.pairwise_append.mpr ⟨hbefore, List.pairwise_cons.mpr ⟨?_, hafter⟩, ?_⟩
    · exact fun q hq a' ha' => hfirst q hq a' (List.mem_cons_of_mem _ ha')
    · intro p hp q hq
      rcases List.mem_cons.mp hq with rfl | hq
      · exact fun b hb a' ha' =>
          hcross p hp _ List.mem_cons_self b hb a' (List.mem_cons_of_mem _ ha')
      · exact hcross p hp q (List.mem_cons_of_mem _ hq)

theorem view_eq_of_moves {x y : σ × List (List α)} (h : Relation.ReflTransGen (Moves step) x y)
    (hind : x.2.Pairwise (Independents step view)) :
    view (run step y.1 y.2.flatten) = view (run step x.1 x.2.flatten) ∧
      y.2.Pairwise (Independents step view) := by
  induction h with
  | refl => exact ⟨rfl, hind⟩
  | tail _ hmove ih =>
    have hstep := hmove.view_eq hview ih.2
    exact ⟨hstep.1.trans ih.1, hstep.2⟩

/-- **Every interleaving comes to the same.** -/
theorem Interleaves.view_eq {programs : List (List α)} (h : Interleaves step s programs s')
    (hind : programs.Pairwise (Independents step view)) :
    view s' = view (run step s programs.flatten) := by
  obtain ⟨ends, hmoves, hends⟩ := h
  rw [← (view_eq_of_moves hview hmoves hind).1, List.flatten_eq_nil_iff.mpr hends]
  rfl

omit hview

theorem moves_program (before : List (List α)) (as : List α) (after : List (List α)) (s : σ) :
    Relation.ReflTransGen (Moves step) (s, before ++ as :: after)
      (run step s as, before ++ [] :: after) := by
  induction as generalizing s with
  | nil => exact .refl
  | cons a as ih => exact .head (.move s before a as after) (ih (step s a))

/-- The parties one after the other. -/
theorem Interleaves.sequential (step : σ → α → σ) (s : σ) (programs : List (List α)) :
    Interleaves step s programs (run step s programs.flatten) := by
  suffices h : ∀ before : List (List α), Relation.ReflTransGen (Moves step)
      (s, before ++ programs)
      (run step s programs.flatten, before ++ List.replicate programs.length []) from
    ⟨_, h [], fun p hp => List.eq_of_mem_replicate hp⟩
  induction programs generalizing s with
  | nil => exact fun _ => .refl
  | cons as programs ih =>
    intro before
    have hrest := ih (run step s as) (before ++ [[]])
    rw [List.append_assoc, List.append_assoc, ← run_append] at hrest
    exact (moves_program before as programs s).trans hrest

end

end Lib.Parties
