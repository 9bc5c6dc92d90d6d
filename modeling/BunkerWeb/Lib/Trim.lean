import Mathlib.Data.List.DropRight

/-!
# Trimming

`trim p l` is `l` without the elements at its two ends that satisfy `p`. It is the only part of `l`
between such ends that neither starts nor ends with one (`exists_trim`, `trim_append`).
-/

namespace Lib

variable {α : Type*} {p : α → Bool} {l a b t : List α}

def trim (p : α → Bool) (l : List α) : List α := (l.dropWhile p).rdropWhile p

@[simp] theorem trim_nil (p : α → Bool) : trim p [] = [] := rfl

theorem trim_eq_nil (h : ∀ x ∈ l, p x = true) : trim p l = [] := by
  rw [trim, List.dropWhile_eq_nil_iff.mpr h, List.rdropWhile_nil]

theorem exists_trim (p : α → Bool) (l : List α) :
    ∃ a b, l = a ++ trim p l ++ b ∧ (∀ x ∈ a, p x = true) ∧ ∀ x ∈ b, p x = true := by
  refine ⟨l.takeWhile p, (l.dropWhile p).rtakeWhile p, ?_, fun x hx => List.mem_takeWhile_imp hx,
    fun x hx => List.mem_rtakeWhile_imp hx⟩
  rw [List.append_assoc, trim, List.rdropWhile_append_rtakeWhile, List.takeWhile_append_dropWhile]

theorem head_of_dropWhile : ∀ x ∈ (l.dropWhile p).head?, p x = false := by
  intro x hx
  have h := List.head?_dropWhile_not p l
  rw [show (l.dropWhile p).head? = some x from hx] at h
  exact h

/-- What does not start with an element that satisfies `p`. -/
theorem dropWhile_eq_self (h : ∀ x ∈ l.head?, p x = false) : l.dropWhile p = l := by
  cases l with
  | nil => rfl
  | cons x l => rw [List.dropWhile_cons_of_neg (by simpa using h x rfl)]

theorem head_trim : ∀ x ∈ (trim p l).head?, p x = false := by
  intro x hx
  obtain ⟨s, hs⟩ := List.rdropWhile_prefix p (l.dropWhile p)
  apply head_of_dropWhile (l := l)
  rw [← hs, List.head?_append, show (List.rdropWhile p _).head? = some x from hx]
  rfl

theorem head_of_trim (h : trim p t = t) : ∀ x ∈ t.head?, p x = false := by
  rw [← h]
  exact head_trim

theorem trim_trim (p : α → Bool) (l : List α) : trim p (trim p l) = trim p l := by
  rw [trim, dropWhile_eq_self head_trim, trim, List.rdropWhile_idempotent]

theorem dropWhile_append_head (ha : ∀ x ∈ a, p x = true) (hl : ∀ x ∈ l.head?, p x = false) :
    (a ++ l).dropWhile p = l := by
  rw [List.dropWhile_append_of_pos ha, dropWhile_eq_self hl]

theorem takeWhile_append_head (ha : ∀ x ∈ a, p x = true) (hl : ∀ x ∈ l.head?, p x = false) :
    (a ++ l).takeWhile p = a := by
  rw [List.takeWhile_append_of_pos ha]
  cases l with
  | nil => exact List.append_nil a
  | cons x l => rw [List.takeWhile_cons_of_neg (by simpa using hl x rfl), List.append_nil]

theorem rdropWhile_append (h : ∀ x ∈ b, p x = true) (l : List α) :
    (l ++ b).rdropWhile p = l.rdropWhile p := by
  induction b using List.reverseRecOn with
  | nil => rw [List.append_nil]
  | append_singleton b x ih =>
    rw [← List.append_assoc, List.rdropWhile_concat_pos _ _ _ (h x (by simp))]
    exact ih fun y hy => h y (List.mem_append_left _ hy)

/-- A trimmed list between ends that are dropped. -/
theorem trim_append (ha : ∀ x ∈ a, p x = true) (hb : ∀ x ∈ b, p x = true) (ht : trim p t = t) :
    trim p (a ++ t ++ b) = t := by
  rcases t.eq_nil_or_concat with rfl | ⟨s, x, hs⟩
  · apply trim_eq_nil
    intro x hx
    rw [List.append_nil] at hx
    exact (List.mem_append.mp hx).elim (ha x) (hb x)
  · have hhead : ∀ y ∈ (t ++ b).head?, p y = false := by
      intro y hy
      apply head_of_trim ht
      rw [hs] at hy ⊢
      cases s <;> simpa using hy
    rw [trim, List.append_assoc, dropWhile_append_head ha hhead, rdropWhile_append hb]
    calc t.rdropWhile p = (t.dropWhile p).rdropWhile p := by
          rw [dropWhile_eq_self (head_of_trim ht)]
      _ = t := ht

end Lib
