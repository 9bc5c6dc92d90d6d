import Mathlib.Data.List.Infix

/-!
# Two parts around a marker

A text is `left ++ marker ++ right` with a right part that is not empty, and is taken apart at the
first place where that is possible. The parts come back exactly if the marker does not already
begin inside the left part (`splitMarker_append`).

At the last place where it stands, the parts come back if it does not begin once more (`rsplit_append`).
`removeAll` takes all markers away; what is left is the text if there is none (`removeAll_eq_self`), and
a shorter one otherwise.
-/

namespace Lib.Marker

variable {α : Type} {marker left right : List α}

/-- The parts around the first occurrence of the marker that has something behind it. -/
def splitMarker [DecidableEq α] (marker : List α) : List α → Option (List α × List α)
  | [] => none
  | c :: text =>
    if marker <+: c :: text ∧ marker.length < (c :: text).length then
      some ([], (c :: text).drop marker.length)
    else (splitMarker marker text).map fun parts => (c :: parts.1, parts.2)

/-- The marker begins inside the left part. -/
def BeginsEarlier (marker left : List α) : Prop := marker <:+: left ++ marker.dropLast

instance [DecidableEq α] : Decidable (BeginsEarlier marker left) := inferInstanceAs (Decidable (_ <:+: _))

theorem not_beginsEarlier_nil (hmarker : marker ≠ []) : ¬ BeginsEarlier marker [] := by
  intro h
  have hlen := h.length_le
  rw [List.nil_append, List.length_dropLast] at hlen
  have hpos := List.length_pos_iff.mpr hmarker
  omega

/-- A marker in front of all three parts lies before the end of the second one. -/
theorem prefix_append_iff {c : α} :
    marker <+: c :: (left ++ (marker ++ right)) ↔ marker <+: c :: (left ++ marker.dropLast) := by
  cases hmarker : marker with
  | nil => simp
  | cons m ms =>
    rw [← hmarker]
    have hne : marker ≠ [] := by rw [hmarker]; exact List.cons_ne_nil m ms
    have hwhole : c :: (left ++ (marker ++ right)) =
        c :: (left ++ marker.dropLast) ++ (marker.getLast hne :: right) := by
      conv_lhs => rw [← List.dropLast_append_getLast hne]
      simp
    have hpos := List.length_pos_iff.mpr hne
    rw [hwhole]
    refine ⟨fun h => List.prefix_of_prefix_length_le h (List.prefix_append _ _) ?_,
      fun h => h.trans (List.prefix_append _ _)⟩
    rw [List.length_cons, List.length_append, List.length_dropLast]
    omega

theorem splitMarker_append [DecidableEq α] (hmarker : marker ≠ []) (hright : right ≠ []) :
    splitMarker marker (left ++ (marker ++ right)) = some (left, right) ↔
      ¬ BeginsEarlier marker left := by
  have hpos := List.length_pos_iff.mpr hright
  induction left with
  | nil =>
    refine iff_of_true ?_ (not_beginsEarlier_nil hmarker)
    obtain ⟨m, ms, hm⟩ := List.exists_cons_of_ne_nil hmarker
    have hhere : marker <+: m :: (ms ++ right) ∧ marker.length < (m :: (ms ++ right)).length := by
      rw [hm]
      exact ⟨⟨right, rfl⟩, by simp; omega⟩
    have htext : marker ++ right = m :: (ms ++ right) := by rw [hm]; rfl
    rw [List.nil_append, htext, splitMarker, if_pos hhere, ← htext, List.drop_left]
  | cons c left ih =>
    rw [List.cons_append, splitMarker]
    by_cases hhere : marker <+: c :: (left ++ (marker ++ right))
    · have hlen : marker.length < (c :: (left ++ (marker ++ right))).length := by simp; omega
      rw [if_pos ⟨hhere, hlen⟩]
      refine iff_of_false (fun h => by cases h) (not_not_intro ?_)
      exact (prefix_append_iff.mp hhere).isInfix
    · rw [if_neg fun h => hhere h.1]
      have hstep : BeginsEarlier marker (c :: left) ↔ BeginsEarlier marker left := by
        rw [BeginsEarlier, List.cons_append, List.infix_cons_iff]
        exact or_iff_right fun h => hhere (prefix_append_iff.mpr h)
      rw [hstep]
      refine Iff.trans ?_ ih
      cases splitMarker marker (left ++ (marker ++ right)) with
      | none => exact iff_of_false (fun h => by cases h) fun h => by cases h
      | some parts => simp [Prod.ext_iff]

/-! ## The last marker -/

/-- The parts around the last occurrence of the marker. -/
def rsplit [DecidableEq α] (marker : List α) : List α → Option (List α × List α)
  | [] => none
  | c :: text =>
    match rsplit marker text with
    | some parts => some (c :: parts.1, parts.2)
    | none =>
      if marker <+: c :: text then some ([], (c :: text).drop marker.length) else none

theorem rsplit_eq_none [DecidableEq α] {text : List α} (h : ¬ marker <:+: text) :
    rsplit marker text = none := by
  induction text with
  | nil => rfl
  | cons c text ih =>
    rw [List.infix_cons_iff, not_or] at h
    rw [rsplit, ih h.2, if_neg h.1]

theorem rsplit_append [DecidableEq α] (hmarker : marker ≠ [])
    (h : ¬ marker <:+: marker.tail ++ right) :
    rsplit marker (left ++ (marker ++ right)) = some (left, right) := by
  induction left with
  | nil =>
    obtain ⟨m, ms, rfl⟩ := List.exists_cons_of_ne_nil hmarker
    have hnone : rsplit (m :: ms) (ms ++ right) = none := rsplit_eq_none h
    rw [List.nil_append, List.cons_append, rsplit, hnone, ← List.cons_append]
    dsimp only
    rw [if_pos (List.prefix_append _ _), List.drop_left]
  | cons c left ih => rw [List.cons_append, rsplit, ih]

theorem eq_of_rsplit [DecidableEq α] {text : List α} {parts : List α × List α}
    (h : rsplit marker text = some parts) : text = parts.1 ++ (marker ++ parts.2) := by
  induction text generalizing parts with
  | nil => cases h
  | cons c text ih =>
    rw [rsplit] at h
    cases hrest : rsplit marker text with
    | some rest =>
      rw [hrest] at h
      obtain rfl := Option.some.inj h
      rw [ih hrest]
      rfl
    | none =>
      rw [hrest] at h
      dsimp only at h
      split at h
      next hprefix =>
        obtain rfl := Option.some.inj h
        obtain ⟨rest, hrest⟩ := hprefix
        rw [← hrest, List.drop_left]
        rfl
      next => cases h

/-! ## No marker -/

/-- The text without its markers; `skip` is what is left of one. -/
def removeAll [DecidableEq α] (marker : List α) : Nat → List α → List α
  | _, [] => []
  | skip + 1, _ :: text => removeAll marker skip text
  | 0, c :: text =>
    if marker <+: c :: text then removeAll marker (marker.length - 1) text
    else c :: removeAll marker 0 text

theorem removeAll_eq_drop [DecidableEq α] (skip : Nat) (text : List α) :
    removeAll marker skip text = removeAll marker 0 (text.drop skip) := by
  induction skip generalizing text with
  | zero => rfl
  | succ skip ih =>
    cases text with
    | nil => rfl
    | cons c text => exact ih text

theorem removeAll_append [DecidableEq α] (hmarker : marker ≠ []) (text : List α) :
    removeAll marker 0 (marker ++ text) = removeAll marker 0 text := by
  obtain ⟨m, ms, rfl⟩ := List.exists_cons_of_ne_nil hmarker
  rw [List.cons_append, removeAll, ← List.cons_append, if_pos (List.prefix_append _ _),
    removeAll_eq_drop, List.length_cons, Nat.add_sub_cancel, List.drop_left]

theorem removeAll_eq_self [DecidableEq α] {text : List α} (h : ¬ marker <:+: text) :
    removeAll marker 0 text = text := by
  induction text with
  | nil => rfl
  | cons c text ih =>
    rw [List.infix_cons_iff, not_or] at h
    rw [removeAll, if_neg h.1, ih h.2]

theorem length_removeAll_le [DecidableEq α] (skip : Nat) (text : List α) :
    (removeAll marker skip text).length ≤ text.length := by
  induction text generalizing skip with
  | nil => exact Nat.le_of_eq (by simp [removeAll])
  | cons c text ih =>
    cases skip with
    | succ skip => exact (ih skip).trans (Nat.le_succ _)
    | zero =>
      rw [removeAll]
      split
      · exact (ih _).trans (Nat.le_succ _)
      · exact Nat.succ_le_succ (ih 0)

theorem length_removeAll_lt [DecidableEq α] {text : List α} (hmarker : marker ≠ [])
    (h : marker <:+: text) : (removeAll marker 0 text).length < text.length := by
  induction text with
  | nil => exact absurd (List.infix_nil.mp h) hmarker
  | cons c text ih =>
    rw [removeAll]
    split
    next => exact Nat.lt_succ_of_le (length_removeAll_le _ text)
    next hprefix =>
      exact Nat.succ_lt_succ (ih ((List.infix_cons_iff.mp h).resolve_left hprefix))

end Lib.Marker
