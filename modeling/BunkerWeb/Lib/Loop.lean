import Mathlib.Data.List.Basic
import Mathlib.Data.List.Forall2

/-!
# Loops that may fail

A loop whose body returns an error at once is `List.foldlM` in `Except`. `foldlM_cases` is its
invariant rule: the invariant speaks of the items that are done.

A loop over `enumerate(l)` reads `List.zipIdx`: the items with their places.
-/

namespace Lib

variable {α β ε : Type}

theorem bind_eq_ok {x : Except ε α} {f : α → Except ε β} {b : β} :
    (x >>= f) = .ok b ↔ ∃ a, x = .ok a ∧ f a = .ok b := by
  cases x with
  | error e => exact ⟨fun h => (by cases h), fun ⟨_, h, _⟩ => (by cases h)⟩
  | ok a => exact ⟨fun h => ⟨a, rfl, h⟩, fun ⟨_, h, h'⟩ => by cases h; exact h'⟩

/-- What succeeds has a value. -/
theorem eq_ok_of_isOk {x : Except ε α} (h : x.isOk = true) (a : α) :
    x = .ok (x.toOption.getD a) := by
  cases x with
  | error e => cases h
  | ok a' => rfl

/-- The invariant rule: the loop ends with the invariant, or stops at an error with `Q`. -/
theorem foldlM_cases {f : β → α → Except ε β} {l : List α} (P : List α → β → Prop) (Q : ε → Prop)
    (hok : ∀ done a todo acc acc', l = done ++ a :: todo → P done acc → f acc a = .ok acc' →
      P (done ++ [a]) acc')
    (herror : ∀ done a todo acc e, l = done ++ a :: todo → P done acc → f acc a = .error e → Q e)
    {acc : β} (h0 : P [] acc) :
    (∀ acc', l.foldlM f acc = .ok acc' → P l acc') ∧ ∀ e, l.foldlM f acc = .error e → Q e := by
  have hgen : ∀ (todo done : List α) (acc : β), l = done ++ todo → P done acc →
      (∀ acc', todo.foldlM f acc = .ok acc' → P l acc') ∧
        ∀ e, todo.foldlM f acc = .error e → Q e := by
    intro todo
    induction todo with
    | nil =>
      rintro done acc hl hP
      rw [List.append_nil] at hl
      exact ⟨fun acc' h => (by cases h; rwa [hl]), fun e h => (by cases h)⟩
    | cons a todo ih =>
      intro done acc hl hP
      rw [List.foldlM_cons]
      cases ha : f acc a with
      | error e =>
        exact ⟨fun _ h => (by cases h), fun _ h => (by cases h; exact herror _ _ _ _ _ hl hP ha)⟩
      | ok acc₁ =>
        exact ih (done ++ [a]) acc₁ (by rw [hl, List.append_assoc]; rfl) (hok _ _ _ _ _ hl hP ha)
  exact hgen l [] acc rfl h0

/-- The invariant rule for a loop that ends. -/
theorem foldlM_ok {f : β → α → Except ε β} (P : List α → β → Prop) {l : List α}
    (hstep : ∀ done a acc acc', a ∈ l → P done acc → f acc a = .ok acc' → P (done ++ [a]) acc')
    {acc acc' : β} (h0 : P [] acc) (h : l.foldlM f acc = .ok acc') : P l acc' := by
  refine (foldlM_cases P (fun _ => True) ?_ (fun _ _ _ _ _ _ _ _ => trivial) h0).1 acc' h
  rintro done a todo acc acc' hl hP ha
  exact hstep done a acc acc' (by rw [hl]; simp) hP ha

/-- A loop in which no turn fails under the invariant. -/
theorem foldlM_total {f : β → α → Except ε β} (P : β → Prop) {l : List α}
    (hstep : ∀ a ∈ l, ∀ acc, P acc → ∃ acc', f acc a = .ok acc' ∧ P acc') {acc : β} (h0 : P acc) :
    ∃ acc', l.foldlM f acc = .ok acc' ∧ P acc' := by
  induction l generalizing acc with
  | nil => exact ⟨acc, rfl, h0⟩
  | cons a l ih =>
    obtain ⟨acc', ha, hP⟩ := hstep a List.mem_cons_self acc h0
    rw [List.foldlM_cons, ha]
    exact ih (fun b hb => hstep b (List.mem_cons_of_mem a hb)) hP

/-- `mapM` gives the results of all the items. -/
theorem mapM_ok {f : α → Except ε β} {g : α → β} {l : List α}
    (hf : ∀ a ∈ l, ∀ b, f a = .ok b → b = g a) {l' : List β} (h : l.mapM f = .ok l') :
    l' = l.map g := by
  induction l generalizing l' with
  | nil => cases h; rfl
  | cons a l ih =>
    rw [List.mapM_cons] at h
    obtain ⟨b, hb, h⟩ := bind_eq_ok.mp h
    obtain ⟨bs, hbs, h⟩ := bind_eq_ok.mp h
    cases h
    rw [List.map_cons, hf a List.mem_cons_self b hb,
      ih (fun a ha => hf a (List.mem_cons_of_mem _ ha)) hbs]

/-! ## Enumerated lists -/

/-- What the items bring is found again by their places. -/
theorem filter_flatMap_zipIdx {f : α × Nat → List (β × Nat)} (hf : ∀ e, ∀ x ∈ f e, x.2 = e.2)
    {l : List α} {n : Nat} {e : α × Nat} (h : e ∈ l.zipIdx n) :
    ((l.zipIdx n).flatMap f).filter (·.2 = e.2) = f e := by
  have hother : ∀ (l : List α) (m : Nat), e.2 < m →
      ((l.zipIdx m).flatMap f).filter (·.2 = e.2) = [] := by
    intro l m hm
    refine List.filter_eq_nil_iff.mpr fun x hx => ?_
    obtain ⟨e', he', hx⟩ := List.mem_flatMap.mp hx
    have hle := List.le_snd_of_mem_zipIdx he'
    have hx2 := hf e' x hx
    simp only [decide_eq_true_eq]
    omega
  induction l generalizing n with
  | nil => cases h
  | cons a l ih =>
    rw [List.zipIdx_cons] at h ⊢
    rw [List.flatMap_cons, List.filter_append]
    rcases List.mem_cons.mp h with rfl | h
    · rw [hother l (n + 1) (Nat.lt_succ_self n), List.append_nil]
      exact List.filter_eq_self.mpr fun x hx => by simpa using hf _ x hx
    · have hlt : n < e.2 := List.le_snd_of_mem_zipIdx h
      have hnone : (f (a, n)).filter (·.2 = e.2) = [] :=
        List.filter_eq_nil_iff.mpr fun x hx => by
          have hx2 := hf _ x hx
          simp only [decide_eq_true_eq]
          omega
      rw [hnone, List.nil_append, ih h]

theorem forall₂_zipIdx {R : α → β → Prop} {g : α × Nat → β} {l : List α} {n : Nat}
    (h : ∀ e ∈ l.zipIdx n, R e.1 (g e)) : List.Forall₂ R l ((l.zipIdx n).map g) := by
  induction l generalizing n with
  | nil => exact .nil
  | cons a l ih =>
    rw [List.zipIdx_cons] at h ⊢
    exact .cons (h _ List.mem_cons_self) (ih fun e he => h e (List.mem_cons_of_mem _ he))

/-- Places do not matter to what looks at the items only. -/
theorem filter_map_zipIdx {p : α → Bool} {g : α → β} (l : List α) (n : Nat) :
    ((l.zipIdx n).filter fun e => p e.1).map (fun e => g e.1) = (l.filter p).map g := by
  conv_rhs => rw [← List.zipIdx_map_fst n l, List.filter_map, List.map_map]
  rfl

theorem pairwise_zipIdx (l : List α) (n : Nat) : (l.zipIdx n).Pairwise fun a b => a.2 ≤ b.2 := by
  induction l generalizing n with
  | nil => exact .nil
  | cons a l ih =>
    rw [List.zipIdx_cons]
    refine List.pairwise_cons.mpr ⟨fun e he => ?_, ih (n + 1)⟩
    have := List.le_snd_of_mem_zipIdx he
    dsimp only
    omega

end Lib
