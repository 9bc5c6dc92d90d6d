import Mathlib.Data.List.Infix

/-!
# Nested dictionaries

A tree is a leaf, or a dictionary of trees. `get` reads what a path of keys leads to, `set` puts a
tree there and makes the dictionaries on the way that are missing; a leaf on the way is an error.
What was put at a path is read there (`get_set_same`), and everything at a path that neither goes on
from it nor leads to it is left alone (`get_set_of_apart`).
-/

namespace Lib

inductive Nested (κ α : Type) where
  | leaf (a : α)
  | dict (entries : List (κ × Nested κ α))

namespace Nested

variable {κ α : Type} [DecidableEq κ]

/-- `entries[key] = value`. -/
def put {ν : Type} (key : κ) (value : ν) : List (κ × ν) → List (κ × ν)
  | [] => [(key, value)]
  | e :: es => if e.1 = key then (key, value) :: es else e :: put key value es

def get : List κ → Nested κ α → Option (Nested κ α)
  | [], t => some t
  | key :: path, .dict entries => (entries.lookup key).bind (get path)
  | _ :: _, .leaf _ => none

def set : List κ → Nested κ α → Nested κ α → Option (Nested κ α)
  | [], v, _ => some v
  | key :: path, v, .dict entries =>
    (set path v ((entries.lookup key).getD (.dict []))).map fun t => .dict (put key t entries)
  | _ :: _, _, .leaf _ => none

theorem lookup_put {ν : Type} (key key' : κ) (value : ν) (entries : List (κ × ν)) :
    (put key value entries).lookup key' =
      if key' = key then some value else entries.lookup key' := by
  induction entries with
  | nil => by_cases h : key' = key <;> simp [put, List.lookup_cons, beq_eq_decide, h]
  | cons e entries ih =>
    unfold put
    by_cases he : e.1 = key
    · rw [if_pos he, List.lookup_cons, List.lookup_cons, he]
      by_cases h : key' = key <;> simp [beq_eq_decide, h]
    · rw [if_neg he, List.lookup_cons, List.lookup_cons, ih]
      by_cases h : key' = key
      · simp [beq_eq_decide, h, Ne.symm he]
      · simp [h]

variable {path : List κ} {v t t' : Nested κ α}

theorem get_set_same (h : set path v t = some t') : get path t' = some v := by
  induction path generalizing t t' with
  | nil => exact (Option.some.inj h) ▸ rfl
  | cons key path ih =>
    cases t with
    | leaf a => cases h
    | dict entries =>
      obtain ⟨u, hu, rfl⟩ := Option.map_eq_some_iff.mp h
      rw [get, lookup_put, if_pos rfl, Option.bind_some]
      exact ih hu

/-- An empty dictionary in the place of a missing tree says the same below it. -/
theorem get_getD_of_ne_nil {t : Option (Nested κ α)} (hne : path ≠ []) :
    get path (t.getD (.dict [])) = t.bind (get path) := by
  cases t with
  | some t => rfl
  | none =>
    cases path with
    | nil => exact absurd rfl hne
    | cons key path => rfl

theorem get_set_of_apart {path' : List κ} (h : set path v t = some t') (hp : ¬ path <+: path')
    (hp' : ¬ path' <+: path) : get path' t' = get path' t := by
  induction path generalizing t t' path' with
  | nil => exact absurd List.nil_prefix hp
  | cons key path ih =>
    cases path' with
    | nil => exact absurd List.nil_prefix hp'
    | cons key' path' =>
      cases t with
      | leaf a => cases h
      | dict entries =>
        obtain ⟨u, hu, rfl⟩ := Option.map_eq_some_iff.mp h
        rw [get, get, lookup_put]
        by_cases hk : key' = key
        · subst hk
          rw [List.cons_prefix_cons, not_and] at hp hp'
          rw [if_pos rfl, Option.bind_some, ih hu (hp rfl) (hp' rfl)]
          exact get_getD_of_ne_nil fun he => hp' rfl (he ▸ List.nil_prefix)
        · rw [if_neg hk]

end Nested

end Lib
