import Mathlib.Data.List.Basic
import Mathlib.Data.List.TakeWhile

/-!
# Patterns of paths

A pattern is a list of places, each a fixed word or a parameter. A path of the pattern has one word
a place, each behind a separator; a parameter takes any word that is not empty.

- `accepts` reads a path along the pattern, `begins` reads a text that may stop anywhere.
- `begins_iff`: a text begins a pattern exactly when it is a prefix of a path of it.
-/

namespace Lib

variable {α : Type*} [DecidableEq α]

/-- A place of a pattern. -/
inductive Place (α : Type*) where
  | lit (w : List α)
  | param
deriving DecidableEq

/-- The word of a path at a place. -/
def Place.accepts : Place α → List α → Bool
  | .lit w, v => v = w
  | .param, v => v ≠ []

/-- The first letters of a word at a place. -/
def Place.begins : Place α → List α → Bool
  | .lit w, v => v <+: w
  | .param, _ => true

/-- The separator is not in the word of the place. -/
def Place.free (sep : α) : Place α → Bool
  | .lit w => sep ∉ w
  | .param => true

namespace Pattern

/-- Whether the path is one of the pattern. -/
def accepts (sep : α) : List (Place α) → List α → Bool
  | [], q => q.isEmpty
  | _ :: _, [] => false
  | s :: ss, a :: q =>
    a = sep && s.accepts (q.takeWhile (· ≠ sep)) && accepts sep ss (q.dropWhile (· ≠ sep))

/-- Whether the text is the beginning of a path of the pattern. -/
def begins (sep : α) : List (Place α) → List α → Bool
  | _, [] => true
  | [], _ :: _ => false
  | s :: ss, a :: u =>
    a = sep &&
      if u.dropWhile (· ≠ sep) = [] then s.begins (u.takeWhile (· ≠ sep))
      else s.accepts (u.takeWhile (· ≠ sep)) && begins sep ss (u.dropWhile (· ≠ sep))

/-- The separator is in none of the fixed words. -/
def Separated (sep : α) (ss : List (Place α)) : Prop := ∀ s ∈ ss, s.free sep = true

variable {sep : α} {s : Place α} {ss : List (Place α)}

/-! ## Words in front of a path -/

theorem takeWhile_word {w t : List α} (hw : sep ∉ w) (ht : ∀ a ∈ t.head?, a = sep) :
    (w ++ t).takeWhile (· ≠ sep) = w := by
  have hall : ∀ a ∈ w, decide (a ≠ sep) = true := by
    intro a ha
    simpa using fun he : a = sep => hw (he ▸ ha)
  rw [List.takeWhile_append_of_pos hall]
  cases t with
  | nil => simp
  | cons a t => rw [List.takeWhile_cons_of_neg (by simpa using ht a rfl), List.append_nil]

theorem dropWhile_word {w t : List α} (hw : sep ∉ w) (ht : ∀ a ∈ t.head?, a = sep) :
    (w ++ t).dropWhile (· ≠ sep) = t := by
  have h := List.takeWhile_append_dropWhile (p := (· ≠ sep)) (l := w ++ t)
  rw [takeWhile_word hw ht] at h
  exact List.append_cancel_left h

theorem notMem_takeWhile (u : List α) : sep ∉ u.takeWhile (· ≠ sep) := by
  intro h
  simpa using List.mem_takeWhile_imp h

theorem head_dropWhile (u : List α) : ∀ a ∈ (u.dropWhile (· ≠ sep)).head?, a = sep := by
  intro a ha
  have h := List.head?_dropWhile_not (· ≠ sep) u
  rw [show (u.dropWhile (· ≠ sep)).head? = some a from ha] at h
  simpa using h

theorem head_of_accepts {q : List α} (h : accepts sep ss q = true) : ∀ a ∈ q.head?, a = sep := by
  cases ss with
  | nil => simp_all [accepts]
  | cons s ss =>
    cases q with
    | nil => simp
    | cons a q =>
      rw [accepts, Bool.and_eq_true, Bool.and_eq_true, decide_eq_true_iff] at h
      simpa using h.1.1

theorem accepts_word {w t : List α} (hw : sep ∉ w) (ht : ∀ a ∈ t.head?, a = sep) :
    accepts sep (s :: ss) (sep :: (w ++ t)) = (s.accepts w && accepts sep ss t) := by
  rw [accepts, takeWhile_word hw ht, dropWhile_word hw ht, decide_eq_true rfl, Bool.true_and]

/-- A path behind another word of its pattern. -/
theorem accepts_cons {w t : List α} (hw : sep ∉ w) (hs : s.accepts w = true)
    (ht : accepts sep ss t = true) : accepts sep (s :: ss) (sep :: (w ++ t)) = true := by
  rw [accepts_word hw (head_of_accepts ht), hs, ht]
  rfl

/-! ## Beginnings -/

/-- A separated pattern has a path. -/
theorem exists_accepts {x : α} (hx : x ≠ sep) (h : Separated sep ss) :
    ∃ q, accepts sep ss q = true := by
  induction ss with
  | nil => exact ⟨[], rfl⟩
  | cons s ss ih =>
    obtain ⟨hs, hss⟩ := List.forall_mem_cons.1 h
    obtain ⟨t, ht⟩ := ih hss
    cases s with
    | lit w =>
      have hw : sep ∉ w := by simpa [Place.free] using hs
      exact ⟨_, accepts_cons hw (by simp [Place.accepts]) ht⟩
    | param =>
      have hw : sep ∉ [x] := by simpa using hx.symm
      exact ⟨_, accepts_cons hw (by simp [Place.accepts]) ht⟩

/-- The first letters of a word, of a place that takes them, become a whole word. -/
theorem exists_word {x : α} (hx : x ≠ sep) {v : List α} (hv : sep ∉ v)
    (hs : s.free sep = true) (h : s.begins v = true) :
    ∃ w, v <+: w ∧ sep ∉ w ∧ s.accepts w = true := by
  cases s with
  | lit w =>
    exact ⟨w, by simpa [Place.begins] using h, by simpa [Place.free] using hs,
      by simp [Place.accepts]⟩
  | param =>
    refine ⟨v ++ [x], List.prefix_append v [x], ?_, by simp [Place.accepts]⟩
    simp [hv, hx.symm]

theorem takeWhile_of_prefix {u q : List α} (h : u <+: q) (hu : u.dropWhile (· ≠ sep) ≠ []) :
    u.takeWhile (· ≠ sep) = q.takeWhile (· ≠ sep) ∧
      u.dropWhile (· ≠ sep) <+: q.dropWhile (· ≠ sep) := by
  obtain ⟨r, rfl⟩ := h
  have hsplit : u ++ r = u.takeWhile (· ≠ sep) ++ (u.dropWhile (· ≠ sep) ++ r) := by
    rw [← List.append_assoc, List.takeWhile_append_dropWhile]
  have hhead : ∀ a ∈ (u.dropWhile (· ≠ sep) ++ r).head?, a = sep := by
    rw [List.head?_append_of_ne_nil _ hu]
    exact head_dropWhile u
  rw [hsplit, takeWhile_word (notMem_takeWhile u) hhead, dropWhile_word (notMem_takeWhile u) hhead]
  exact ⟨rfl, List.prefix_append _ r⟩

theorem prefix_takeWhile {u q : List α} (h : u <+: q) (hu : u.dropWhile (· ≠ sep) = []) :
    u.takeWhile (· ≠ sep) <+: q.takeWhile (· ≠ sep) := by
  have hall : ∀ a ∈ u, decide (a ≠ sep) = true := List.dropWhile_eq_nil_iff.1 hu
  obtain ⟨r, rfl⟩ := h
  rw [List.takeWhile_eq_self_iff.2 hall, List.takeWhile_append_of_pos hall]
  exact List.prefix_append u _

/-- The beginnings of a pattern are the prefixes of its paths. -/
theorem begins_iff {x : α} (hx : x ≠ sep) (hsep : Separated sep ss) {u : List α} :
    begins sep ss u = true ↔ ∃ q, accepts sep ss q = true ∧ u <+: q := by
  induction ss generalizing u with
  | nil =>
    cases u with
    | nil => simp [begins, accepts]
    | cons a u => simp [begins, accepts]
  | cons s ss ih =>
    obtain ⟨hfree, hsep'⟩ := List.forall_mem_cons.1 hsep
    cases u with
    | nil =>
      obtain ⟨q, hq⟩ := exists_accepts hx hsep
      simpa [begins] using ⟨q, hq⟩
    | cons a u =>
      by_cases hu : u.dropWhile (· ≠ sep) = []
      · -- the text stops inside this word
        rw [begins, if_pos hu, Bool.and_eq_true, decide_eq_true_iff]
        constructor
        · rintro ⟨rfl, hs⟩
          obtain ⟨w, hvw, hw, hsw⟩ := exists_word hx (notMem_takeWhile u) hfree hs
          obtain ⟨t, ht⟩ := exists_accepts hx hsep'
          refine ⟨_, accepts_cons hw hsw ht, (List.prefix_cons_inj a).2 ?_⟩
          rw [List.takeWhile_eq_self_iff.2 (List.dropWhile_eq_nil_iff.1 hu)] at hvw
          exact hvw.trans (List.prefix_append w t)
        · rintro ⟨q, hq, hp⟩
          obtain ⟨b, q, rfl⟩ : ∃ b r, q = b :: r := by
            cases q with
            | nil => simp at hp
            | cons b q => exact ⟨b, q, rfl⟩
          obtain ⟨rfl, hpre⟩ := List.cons_prefix_cons.1 hp
          rw [accepts, Bool.and_eq_true, Bool.and_eq_true, decide_eq_true_iff] at hq
          refine ⟨hq.1.1, ?_⟩
          cases s with
          | lit w =>
            have hw : q.takeWhile (· ≠ sep) = w := by simpa [Place.accepts] using hq.1.2
            rw [Place.begins, decide_eq_true_iff, ← hw]
            exact prefix_takeWhile hpre hu
          | param => rfl
      · -- the word is complete
        rw [begins, if_neg hu, Bool.and_eq_true, Bool.and_eq_true, decide_eq_true_iff, ih hsep']
        constructor
        · rintro ⟨rfl, hs, q, hq, hp⟩
          refine ⟨_, accepts_cons (notMem_takeWhile u) hs hq, (List.prefix_cons_inj a).2 ?_⟩
          conv_lhs => rw [← List.takeWhile_append_dropWhile (p := (· ≠ a)) (l := u)]
          exact (List.prefix_append_right_inj _).2 hp
        · rintro ⟨q, hq, hp⟩
          obtain ⟨b, q, rfl⟩ : ∃ b r, q = b :: r := by
            cases q with
            | nil => simp at hp
            | cons b q => exact ⟨b, q, rfl⟩
          obtain ⟨rfl, hpre⟩ := List.cons_prefix_cons.1 hp
          rw [accepts, Bool.and_eq_true, Bool.and_eq_true, decide_eq_true_iff] at hq
          obtain ⟨htake, hdrop⟩ := takeWhile_of_prefix hpre hu
          exact ⟨hq.1.1, htake ▸ hq.1.2, _, hq.2, hdrop⟩

end Pattern

end Lib
