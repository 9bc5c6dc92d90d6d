import Mathlib.Data.List.Forall2
import Mathlib.Data.List.Basic

/-!
# Rules about the end of a list of labels

A rule is a list of labels, in which `star` stands for any label. It matches the lists that end with
labels it covers one by one. Of the rules that match, the longest prevails; exceptions prevail over
all rules, and their first label does not count. So rules divide a list of labels in two: the part
in front, and the part behind, which the prevailing rule covers.
-/

namespace Lib

variable {α : Type*} {star : α} {rule labels : List α}

/-- One label of the rule for each label. -/
def Covers (star : α) (rule labels : List α) : Prop :=
  List.Forall₂ (fun r a => r = star ∨ r = a) rule labels

instance [DecidableEq α] : Decidable (Covers star rule labels) :=
  inferInstanceAs (Decidable (List.Forall₂ _ _ _))

/-- The rule covers the labels at the end. -/
def Matches (star : α) (rule labels : List α) : Prop :=
  Covers star rule (labels.drop (labels.length - rule.length))

instance [DecidableEq α] : Decidable (Matches star rule labels) :=
  inferInstanceAs (Decidable (Covers _ _ _))

theorem Covers.length_eq (h : Covers star rule labels) : rule.length = labels.length :=
  List.Forall₂.length_eq h

theorem Covers.refl (labels : List α) : Covers star labels labels := by
  unfold Covers
  exact List.forall₂_same.mpr fun _ _ => .inr rfl

theorem Covers.cons_star (label : α) (h : Covers star rule labels) :
    Covers star (star :: rule) (label :: labels) := .cons (.inl rfl) h

theorem Matches.length_le (h : Matches star rule labels) : rule.length ≤ labels.length := by
  have hlen := h.length_eq
  rw [List.length_drop] at hlen
  omega

/-- A rule with as many labels matches if it covers them all. -/
theorem matches_iff_covers (hlen : rule.length = labels.length) :
    Matches star rule labels ↔ Covers star rule labels := by
  rw [Matches, hlen, Nat.sub_self, List.drop_zero]

theorem Covers.matches (h : Covers star rule labels) : Matches star rule labels :=
  (matches_iff_covers h.length_eq).mpr h

section

variable [DecidableEq α] {rules exceptions : List (List α)}

/-- The number of labels of the longest rule that matches. -/
def longestMatch (star : α) (rules : List (List α)) (labels : List α) : Option Nat :=
  ((rules.filter fun rule => Matches star rule labels).map List.length).max?

/-- The number of labels that the prevailing rule covers. -/
def suffixLength (star : α) (rules exceptions : List (List α)) (labels : List α) : Option Nat :=
  match longestMatch star exceptions labels with
  | some n => some (n - 1)
  | none => longestMatch star rules labels

theorem longestMatch_eq_none :
    longestMatch star rules labels = none ↔ ∀ rule ∈ rules, ¬ Matches star rule labels := by
  simp [longestMatch, List.max?_eq_none_iff, List.filter_eq_nil_iff]

theorem exists_of_longestMatch {n : Nat}
    (h : longestMatch star rules labels = some n) :
    ∃ rule ∈ rules, Matches star rule labels ∧ rule.length = n := by
  obtain ⟨rule, hrule, hn⟩ := List.mem_map.mp (List.max?_mem h)
  obtain ⟨hmem, hmatch⟩ := List.mem_filter.mp hrule
  exact ⟨rule, hmem, by simpa using hmatch, hn⟩

/-- The longest match is a match of all labels when some rule covers them all. -/
theorem longestMatch_eq_length :
    longestMatch star rules labels = some labels.length ↔
      ∃ rule ∈ rules, Covers star rule labels := by
  constructor
  · intro h
    obtain ⟨rule, hmem, hmatch, hlen⟩ := exists_of_longestMatch h
    exact ⟨rule, hmem, (matches_iff_covers hlen).mp hmatch⟩
  · rintro ⟨rule, hmem, hcovers⟩
    refine List.max?_eq_some_iff.mpr ⟨?_, fun n hn => ?_⟩
    · exact List.mem_map.mpr ⟨rule, List.mem_filter.mpr ⟨hmem, by simpa using hcovers.matches⟩,
        hcovers.length_eq⟩
    · obtain ⟨rule', hrule', rfl⟩ := List.mem_map.mp hn
      have hmatch := (List.mem_filter.mp hrule').2
      exact Matches.length_le (by simpa using hmatch)

/-- The prevailing rule covers all labels: a rule does, and no exception matches. -/
theorem suffixLength_eq_length (hne : ∀ e ∈ exceptions, e ≠ []) :
    suffixLength star rules exceptions labels = some labels.length ↔
      (∃ rule ∈ rules, Covers star rule labels) ∧
        ∀ e ∈ exceptions, ¬ Matches star e labels := by
  unfold suffixLength
  cases h : longestMatch star exceptions labels with
  | none =>
    rw [longestMatch_eq_none] at h
    rw [longestMatch_eq_length]
    exact ⟨fun hrule => ⟨hrule, h⟩, And.left⟩
  | some n =>
    obtain ⟨exception, hmem, hmatch, rfl⟩ := exists_of_longestMatch h
    refine iff_of_false (fun heq => ?_) fun hall => hall.2 exception hmem hmatch
    have hpos := List.length_pos_of_ne_nil (hne exception hmem)
    have hle := hmatch.length_le
    have hlen : exception.length - 1 = labels.length := by simpa using heq
    omega

end

end Lib
