import Mathlib.Data.List.Induction
import Mathlib.Data.List.Nodup
import Mathlib.Order.Basic

/-!
# Placing elements one after the other

A pass over a list appends those of its elements that may be placed and are not placed yet. What it
appends stands in the order in which the list first names it (`place_eq`), and passes over several
lists, the last of them sorted, give an order of precedence (`InPrecedence`).
-/

namespace Lib

variable {α : Type*} [DecidableEq α]

/-- The pass over `l`, behind what is placed already. -/
def place (may : α → Bool) (placed l : List α) : List α :=
  l.foldl (fun placed a => if may a ∧ a ∉ placed then placed ++ [a] else placed) placed

/-- `new` has the elements that satisfy `p`, each once, in the order in which `l` first names
them. -/
structure FirstNamed (p : α → Prop) (l new : List α) : Prop where
  mem : ∀ a, a ∈ new ↔ a ∈ l ∧ p a
  order : new.Pairwise fun a b => l.idxOf a < l.idxOf b

theorem FirstNamed.nodup {p : α → Prop} {l new : List α} (h : FirstNamed p l new) : new.Nodup := by
  refine h.order.imp fun {a b} hlt he => ?_
  subst he
  exact Nat.lt_irrefl _ hlt

/-- What a pass appends. -/
theorem place_eq (may : α → Bool) (placed l : List α) :
    ∃ new, place may placed l = placed ++ new ∧
      FirstNamed (fun a => may a = true ∧ a ∉ placed) l new := by
  induction l using List.reverseRecOn with
  | nil => exact ⟨[], (List.append_nil placed).symm, fun a => by simp, List.Pairwise.nil⟩
  | append_singleton l a ih =>
    obtain ⟨new, hnew, hfirst⟩ := ih
    have hidx : ∀ b ∈ l, (l ++ [a]).idxOf b = l.idxOf b := fun b hb => List.idxOf_append_of_mem hb
    have horder : new.Pairwise fun x y => (l ++ [a]).idxOf x < (l ++ [a]).idxOf y := by
      refine hfirst.order.imp_of_mem fun hx hy hlt => ?_
      rw [hidx _ ((hfirst.mem _).mp hx).1, hidx _ ((hfirst.mem _).mp hy).1]
      exact hlt
    have hstep : place may placed (l ++ [a]) =
        if may a ∧ a ∉ placed ++ new then placed ++ new ++ [a] else placed ++ new := by
      rw [← hnew]
      exact List.foldl_append
    by_cases ha : may a = true ∧ a ∉ placed ++ new
    · have hl : a ∉ l := fun hmem => ha.2 (by
        by_cases hp : a ∈ placed
        · exact List.mem_append_left _ hp
        · exact List.mem_append_right _ ((hfirst.mem a).mpr ⟨hmem, ha.1, hp⟩))
      have hplaced : a ∉ placed := fun hp => ha.2 (List.mem_append_left _ hp)
      refine ⟨new ++ [a], by rw [hstep, if_pos ha, List.append_assoc], fun b => ?_, ?_⟩
      · rw [List.mem_append, List.mem_append, hfirst.mem, List.mem_singleton]
        constructor
        · rintro (⟨hb, h⟩ | rfl)
          · exact ⟨.inl hb, h⟩
          · exact ⟨.inr rfl, ha.1, hplaced⟩
        · rintro ⟨hb | rfl, h⟩
          · exact .inl ⟨hb, h⟩
          · exact .inr rfl
      · refine List.pairwise_append.mpr ⟨horder, List.pairwise_singleton _ a, fun x hx y hy => ?_⟩
        obtain rfl := List.mem_singleton.mp hy
        have hxl := ((hfirst.mem x).mp hx).1
        rw [hidx x hxl, List.idxOf_append_of_notMem hl]
        exact Nat.lt_of_lt_of_le (List.idxOf_lt_length_of_mem hxl) (Nat.le_add_right _ _)
    · refine ⟨new, by rw [hstep, if_neg ha], fun b => ?_, horder⟩
      rw [hfirst.mem, List.mem_append, List.mem_singleton]
      refine ⟨fun h => ⟨.inl h.1, h.2⟩, ?_⟩
      rintro ⟨hb | rfl, h⟩
      · exact ⟨hb, h⟩
      · refine (hfirst.mem b).mp ?_
        rw [not_and, not_not] at ha
        exact (List.mem_append.mp (ha h.1)).resolve_left h.2

/-- First what `l` names, then what `l'` names, then the rest in ascending order. -/
structure InPrecedence [Preorder α] (p : α → Prop) (l l' r : List α) : Prop where
  split : ∃ first second rest, r = first ++ second ++ rest ∧ FirstNamed p l first ∧
    FirstNamed (fun a => p a ∧ a ∉ l) l' second ∧
    (∀ a, a ∈ rest ↔ p a ∧ a ∉ l ∧ a ∉ l') ∧ rest.Pairwise (· < ·)

section

variable [Preorder α] {p : α → Prop} {l l' r : List α}

/-- The elements that satisfy `p`, and no others. -/
theorem InPrecedence.mem_iff (h : InPrecedence p l l' r) {a : α} : a ∈ r ↔ p a := by
  obtain ⟨first, second, rest, rfl, hfirst, hsecond, hrest, -⟩ := h.split
  rw [List.mem_append, List.mem_append, hfirst.mem, hsecond.mem, hrest]
  constructor
  · rintro ((h | h) | h)
    · exact h.2
    · exact h.2.1
    · exact h.1
  · intro hp
    by_cases hl : a ∈ l
    · exact .inl (.inl ⟨hl, hp⟩)
    · by_cases hl' : a ∈ l'
      · exact .inl (.inr ⟨hl', hp, hl⟩)
      · exact .inr ⟨hp, hl, hl'⟩

/-- Each of them once. -/
theorem InPrecedence.nodup (h : InPrecedence p l l' r) : r.Nodup := by
  obtain ⟨first, second, rest, rfl, hfirst, hsecond, hrest, hsorted⟩ := h.split
  have hdisjoint : first.Disjoint second := fun a ha ha' =>
    ((hsecond.mem a).mp ha').2.2 ((hfirst.mem a).mp ha).1
  have hdisjoint' : (first ++ second).Disjoint rest := by
    intro a ha hr
    have hr := (hrest a).mp hr
    rcases List.mem_append.mp ha with ha | ha
    · exact hr.2.1 ((hfirst.mem a).mp ha).1
    · exact hr.2.2 ((hsecond.mem a).mp ha).1
  have hrestNodup : rest.Nodup := hsorted.imp ne_of_lt
  exact (hfirst.nodup.append hsecond.nodup hdisjoint).append hrestNodup hdisjoint'

end

end Lib
