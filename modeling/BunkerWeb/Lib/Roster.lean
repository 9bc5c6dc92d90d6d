import Mathlib.Data.List.Basic
import Mathlib.Data.List.Nodup

/-!
# A list that is kept as a set

Members enter at the end when they are absent, and leave by the removal of their first occurrence.
In a list without duplicates the last operation that concerns a member decides about it
(`mem_applyAll`).
-/

namespace Lib.Roster

variable {α : Type*} [DecidableEq α]

inductive Op (α : Type*)
  | enter (a : α)
  | leave (a : α)
  | stay
  deriving DecidableEq, Repr

/-- The list after an operation. -/
def Op.apply (l : List α) : Op α → List α
  | enter a => if a ∈ l then l else l ++ [a]
  | leave a => l.erase a
  | stay => l

/-- What an operation makes of `a`: a member, no member, or what it was. -/
def Op.effect (a : α) : Op α → Option Bool
  | enter b => if a = b then some true else none
  | leave b => if a = b then some false else none
  | stay => none

/-- The effect on `a` of the last operation that has one. -/
def lastEffect (a : α) : List (Op α) → Option Bool
  | [] => none
  | op :: ops => (lastEffect a ops).or (op.effect a)

def applyAll (l : List α) (ops : List (Op α)) : List α := ops.foldl Op.apply l

@[simp] theorem applyAll_nil (l : List α) : applyAll l [] = l := rfl

@[simp] theorem applyAll_cons (l : List α) (op : Op α) (ops : List (Op α)) :
    applyAll l (op :: ops) = applyAll (op.apply l) ops := rfl

theorem nodup_apply {l : List α} (h : l.Nodup) (op : Op α) : (op.apply l).Nodup := by
  cases op with
  | enter a =>
    show (if a ∈ l then l else l ++ [a]).Nodup
    split
    · exact h
    · rename_i ha
      exact h.append (List.nodup_singleton a) (by simpa using ha)
  | leave a => exact h.erase a
  | stay => exact h

theorem nodup_applyAll {l : List α} (h : l.Nodup) (ops : List (Op α)) :
    (applyAll l ops).Nodup := by
  induction ops generalizing l with
  | nil => exact h
  | cons op ops ih => exact ih (nodup_apply h op)

theorem mem_apply {l : List α} (h : l.Nodup) (a : α) (op : Op α) :
    a ∈ op.apply l ↔ op.effect a = some true ∨ op.effect a = none ∧ a ∈ l := by
  cases op with
  | enter b =>
    simp only [Op.apply, Op.effect]
    by_cases hab : a = b
    · subst hab
      split <;> simp_all
    · split <;> simp [hab]
  | leave b =>
    simp only [Op.apply, Op.effect, h.mem_erase_iff]
    by_cases hab : a = b <;> simp [hab]
  | stay => simp [Op.apply, Op.effect]

/-- The last operation that concerns `a` decides; without one, it is as it was. -/
theorem mem_applyAll {l : List α} (h : l.Nodup) (a : α) (ops : List (Op α)) :
    a ∈ applyAll l ops ↔
      lastEffect a ops = some true ∨ lastEffect a ops = none ∧ a ∈ l := by
  induction ops generalizing l with
  | nil => simp [lastEffect]
  | cons op ops ih =>
    rw [applyAll_cons, ih (nodup_apply h op), mem_apply h]
    simp only [lastEffect]
    cases lastEffect a ops with
    | none => simp
    | some b => simp

theorem notMem_applyAll {l : List α} (h : l.Nodup) (a : α) (ops : List (Op α)) :
    a ∉ applyAll l ops ↔
      lastEffect a ops = some false ∨ lastEffect a ops = none ∧ a ∉ l := by
  rw [mem_applyAll h]
  cases lastEffect a ops with
  | none => simp
  | some b => simp

end Lib.Roster
