import Mathlib.Data.List.Basic

/-!
# The longest common suffix

A scan from the end, one place after the other, stops where the lists differ. What it has passed is
a suffix of all lists, and every common suffix is a suffix of it; so it depends on which lists there
are, but neither on their order nor on how often each of them is there.
-/

namespace Lib

variable {α : Type*} [DecidableEq α]

/-- The elements of `rest`, which starts at place `i` of one of the lists, up to the first place
where not all lists agree with it. -/
def agreeing (ls : List (List α)) : Nat → List α → List α
  | _, [] => []
  | i, a :: rest => if ∀ l ∈ ls, l[i]? = some a then a :: agreeing ls (i + 1) rest else []

/-- The longest common suffix, by a scan of at most `n` places from the end of the first list. -/
def commonSuffix (n : Nat) (ls : List (List α)) : List α :=
  (agreeing (ls.map List.reverse) 0 ((ls.headD []).reverse.take n)).reverse

variable {ls ls' : List (List α)}

omit [DecidableEq α] in
private theorem concat_prefix {p l : List α} {a : α} (h : p <+: l) (ha : l[p.length]? = some a) :
    p ++ [a] <+: l := by
  obtain ⟨t, rfl⟩ := h
  rw [List.getElem?_append_right (Nat.le_refl _), Nat.sub_self] at ha
  cases t with
  | nil => cases ha
  | cons b t =>
    cases ha
    exact ⟨t, by simp⟩

theorem agreeing_prefix (rest : List α) {p : List α} (h : ∀ l ∈ ls, p <+: l) :
    ∀ l ∈ ls, p ++ agreeing ls p.length rest <+: l := by
  induction rest generalizing p with
  | nil => simpa [agreeing] using h
  | cons a rest ih =>
    rw [agreeing]
    split
    next ha =>
      have hconcat : ∀ l ∈ ls, p ++ [a] <+: l := fun l hl => concat_prefix (h l hl) (ha l hl)
      simpa using ih hconcat
    next => simpa using h

theorem prefix_agreeing {p t rest : List α} (h : ∀ l ∈ ls, p ++ t <+: l) (ht : t <+: rest) :
    t <+: agreeing ls p.length rest := by
  induction t generalizing p rest with
  | nil => exact List.nil_prefix
  | cons a t ih =>
    obtain ⟨u, rfl⟩ := ht
    have ha : ∀ l ∈ ls, l[p.length]? = some a := by
      intro l hl
      obtain ⟨v, rfl⟩ := h l hl
      simp
    rw [List.cons_append, agreeing, if_pos ha]
    refine (List.prefix_cons_inj a).mpr ?_
    have hrest := ih (p := p ++ [a]) (by simpa using h) (List.prefix_append t u)
    simpa using hrest

theorem commonSuffix_suffix (n : Nat) {l : List α} (hl : l ∈ ls) : commonSuffix n ls <:+ l := by
  have hmem : l.reverse ∈ ls.map List.reverse := List.mem_map_of_mem hl
  have hscan := agreeing_prefix ((ls.headD []).reverse.take n) (fun _ _ => List.nil_prefix) _ hmem
  simpa [commonSuffix] using List.reverse_suffix.mpr hscan

theorem suffix_commonSuffix {n : Nat} (hne : ls ≠ []) {t : List α} (hn : t.length ≤ n)
    (ht : ∀ l ∈ ls, t <:+ l) : t <:+ commonSuffix n ls := by
  obtain ⟨l, rest, rfl⟩ := List.exists_cons_of_ne_nil hne
  have hreverse : ∀ r ∈ (l :: rest).map List.reverse, [] ++ t.reverse <+: r := by
    intro r hr
    obtain ⟨l', hl', rfl⟩ := List.mem_map.mp hr
    exact List.reverse_prefix.mpr (ht l' hl')
  have htake : t.reverse <+: l.reverse.take n :=
    List.prefix_take_iff.mpr
      ⟨List.reverse_prefix.mpr (ht l List.mem_cons_self), by simpa using hn⟩
  have hagree := prefix_agreeing hreverse htake
  rw [← List.reverse_prefix]
  simpa [commonSuffix] using hagree

theorem agreeing_prefix_rest (ls : List (List α)) (i : Nat) (rest : List α) :
    agreeing ls i rest <+: rest := by
  induction rest generalizing i with
  | nil => exact List.prefix_rfl
  | cons a rest ih =>
    rw [agreeing]
    split
    · exact (List.prefix_cons_inj a).mpr (ih (i + 1))
    · exact List.nil_prefix

theorem length_commonSuffix_le (n : Nat) (ls : List (List α)) : (commonSuffix n ls).length ≤ n := by
  have h := (agreeing_prefix_rest (ls.map List.reverse) 0
    ((ls.headD []).reverse.take n)).length_le
  rw [commonSuffix, List.length_reverse]
  exact Nat.le_trans h (List.length_take_le _ _)

/-- A common suffix that is one of the longest. -/
theorem commonSuffix_eq {n : Nat} (hne : ls ≠ []) {t : List α} (hn : t.length ≤ n)
    (ht : ∀ l ∈ ls, t <:+ l) (hmax : commonSuffix n ls <:+ t) : commonSuffix n ls = t :=
  (suffix_commonSuffix hne hn ht).eq_of_length_le hmax.length_le |>.symm

/-- The longest common suffix of the same lists, in another order or with repetitions. -/
theorem commonSuffix_congr {n : Nat} (hne : ls ≠ []) (hmem : ∀ l, l ∈ ls ↔ l ∈ ls') :
    commonSuffix n ls = commonSuffix n ls' := by
  have hne' : ls' ≠ [] := by
    obtain ⟨l, hl⟩ := List.exists_mem_of_ne_nil ls hne
    exact List.ne_nil_of_mem ((hmem l).mp hl)
  refine commonSuffix_eq hne (length_commonSuffix_le n ls') (fun l hl => ?_) ?_
  · exact commonSuffix_suffix n ((hmem l).mp hl)
  · exact suffix_commonSuffix hne' (length_commonSuffix_le n ls) fun l hl =>
      commonSuffix_suffix n ((hmem l).mpr hl)

end Lib
