import BunkerWeb.Lib.Dict
import Mathlib.Data.List.TakeDrop

/-!
# Files of lines

A file of lines, each of them a key and a value with a separator between the two, as it is written
item by item and read line by line. `load_write_iff` is the rule for such a pair of a writer and a
reader: if the reader yields the items themselves whenever all of them are good, and good items only
from whatever file, then it reads back the dictionary exactly when all its items are good.
-/

namespace Lib

namespace Lines

variable {α κ ν : Type*}

/-- The lines of a text that goes on after `cur`. What follows the last break is a line unless it
is empty. -/
def splitLines (isBreak : α → Bool) : List α → List α → List (List α)
  | cur, [] => if cur.isEmpty then [] else [cur]
  | cur, c :: s =>
    if isBreak c then cur :: splitLines isBreak [] s else splitLines isBreak (cur ++ [c]) s

/-- The parts of a line in front of its first separator and behind it. -/
def splitFirst [DecidableEq α] (sep : α) : List α → Option (List α × List α)
  | [] => none
  | c :: s => if c = sep then some ([], s) else (splitFirst sep s).map fun (k, v) => (c :: k, v)

section

variable {isBreak : α → Bool}

theorem splitLines_append {l : List α} (h : ∀ c ∈ l, isBreak c = false) (cur s : List α) :
    splitLines isBreak cur (l ++ s) = splitLines isBreak (cur ++ l) s := by
  induction l generalizing cur with
  | nil => simp
  | cons c l ih =>
    obtain ⟨hc, hl⟩ := List.forall_mem_cons.mp h
    simp [splitLines, hc, ih hl]

/-- Lines that are ended by a break each are read back. -/
theorem splitLines_flatMap {e : α} (he : isBreak e = true) {ls : List (List α)}
    (h : ∀ l ∈ ls, ∀ c ∈ l, isBreak c = false) :
    splitLines isBreak [] (ls.flatMap fun l => l ++ [e]) = ls := by
  induction ls with
  | nil => rfl
  | cons l ls ih =>
    obtain ⟨hl, hls⟩ := List.forall_mem_cons.mp h
    rw [List.flatMap_cons, List.append_assoc, splitLines_append hl, List.nil_append,
      List.singleton_append, splitLines, if_pos he, ih hls]

/-- A line has characters of the text, and no breaks. -/
theorem mem_of_mem_splitLines {s cur l : List α} (h : l ∈ splitLines isBreak cur s)
    (hcur : ∀ c ∈ cur, isBreak c = false) :
    ∀ c ∈ l, isBreak c = false ∧ (c ∈ cur ∨ c ∈ s) := by
  induction s generalizing cur with
  | nil =>
    rw [splitLines] at h
    split at h
    · cases h
    · obtain rfl := List.mem_singleton.mp h
      exact fun c hc => ⟨hcur c hc, .inl hc⟩
  | cons b s ih =>
    rw [splitLines] at h
    split at h
    · rcases List.mem_cons.mp h with rfl | h
      · exact fun c hc => ⟨hcur c hc, .inl hc⟩
      · intro c hc
        obtain ⟨hbreak, hmem⟩ := ih h (by simp) c hc
        exact ⟨hbreak, .inr (List.mem_cons_of_mem _ (by simpa using hmem))⟩
    · rename_i hb
      have hcur' : ∀ c ∈ cur ++ [b], isBreak c = false :=
        List.forall_mem_append.mpr ⟨hcur, by simpa using hb⟩
      intro c hc
      obtain ⟨hbreak, hmem⟩ := ih h hcur' c hc
      refine ⟨hbreak, ?_⟩
      rcases hmem with hmem | hmem
      · rcases List.mem_append.mp hmem with hmem | hmem
        · exact .inl hmem
        · exact .inr (List.mem_cons.mpr (.inl (List.mem_singleton.mp hmem)))
      · exact .inr (List.mem_cons_of_mem _ hmem)

end

theorem splitFirst_eq_some [DecidableEq α] {sep : α} {l k v : List α} :
    splitFirst sep l = some (k, v) ↔ l = k ++ sep :: v ∧ sep ∉ k := by
  induction l generalizing k with
  | nil => simp [splitFirst]
  | cons c l ih =>
    rw [splitFirst]
    by_cases hc : c = sep
    · subst hc
      cases k with
      | nil => simp [eq_comm]
      | cons d k => simp +contextual [eq_comm]
    · rw [if_neg hc, Option.map_eq_some_iff]
      constructor
      · rintro ⟨⟨k', v'⟩, h, heq⟩
        cases heq
        obtain ⟨rfl, hk⟩ := ih.mp h
        exact ⟨rfl, by simp [Ne.symm hc, hk]⟩
      · rintro ⟨h, hk⟩
        cases k with
        | nil => exact absurd (List.head_eq_of_cons_eq h) hc
        | cons d k =>
          obtain ⟨rfl, rfl⟩ := List.cons.inj h
          exact ⟨(k, v), ih.mpr ⟨rfl, fun hmem => hk (List.mem_cons_of_mem _ hmem)⟩, rfl⟩

/-- Items whose lines are parsed to them come back from the lines. -/
theorem parse_lines {isBreak : α → Bool} {e : α} (he : isBreak e = true) {line : κ × ν → List α}
    {parse : List α → Option (κ × ν)} {items : List (κ × ν)}
    (hclean : ∀ x ∈ items, ∀ c ∈ line x, isBreak c = false)
    (hparse : ∀ x ∈ items, parse (line x) = some x) :
    (splitLines isBreak [] ((items.map line).flatMap fun l => l ++ [e])).filterMap parse =
      items := by
  rw [splitLines_flatMap he (List.forall_mem_map.mpr hclean), List.filterMap_map]
  induction items with
  | nil => rfl
  | cons x items ih =>
    obtain ⟨hx, hitems⟩ := List.forall_mem_cons.mp hparse
    have hx' : (parse ∘ line) x = some x := hx
    rw [List.filterMap_cons_some hx', ih (List.forall_mem_cons.mp hclean).2 hitems]

/-- The rule for a dictionary that is written and loaded: `out` are the items the reader yields. -/
theorem load_write_iff [DecidableEq κ] {good : κ × ν → Prop} {d : Dict κ ν} {out : List (κ × ν)}
    (hall : (∀ e ∈ d.items, good e) → out = d.items) (hgood : ∀ e ∈ out, good e) :
    (∀ k, ((∅ : Dict κ ν).setAll out).lookup k = d.lookup k) ↔ ∀ e ∈ d.items, good e := by
  constructor
  · rintro h ⟨k, v⟩ he
    have hk := h k
    rw [Dict.mem_items.mp he, Dict.lookup_setAll, AList.lookup_empty, Option.or_none] at hk
    exact hgood _ (Dict.mem_of_lastOf hk)
  · intro h k
    rw [hall h, Dict.lookup_setAll, AList.lookup_empty, Option.or_none, Dict.lastOf_items]

end Lines

end Lib
