import BunkerWeb.Lib.Dict
import Mathlib.Data.Finset.Card
import Mathlib.Logic.Relation

/-!
# Gathering the results of tasks

Tasks run at the same time, one under each key of a table. A loop waits for the tasks of the table.
The one that ends first hands out its result, and the loop deletes the key that the result names. A
result that is a hit ends the loop, and so does a wait that finds a task whose result was handed out
before.

`Turn` is one turn of the loop, for any order in which the tasks end; every loop ends (`turn_wf`).
When each result names the key of its task (`Named`), no wait is in vain, and the loop ends with a
hit if and only if some task has one (`Runs.hit_iff`).
-/

namespace Lib.Gathering

variable {κ ρ : Type*}

structure Task (ρ : Type*) where
  result : ρ
  taken : Bool

inductive Ending (ρ : Type*) where
  | hit (r : ρ)
  | failed

structure Loop (κ ρ : Type*) where
  tasks : Dict κ (Task ρ)
  /-- The results so far, in order, each with the key of its task. -/
  taken : List (κ × ρ)
  ending : Option (Ending ρ)

def Loop.start (tasks : Dict κ ρ) : Loop κ ρ := ⟨tasks.mapValues (⟨·, false⟩), [], none⟩

variable [DecidableEq κ] {name : ρ → κ} {hit : ρ → Bool}

/-- The task of a key ends, and its result is handled. -/
def Loop.take (name : ρ → κ) (hit : ρ → Bool) (l : Loop κ ρ) (k : κ) (r : ρ) : Loop κ ρ where
  tasks := (l.tasks.insert k ⟨r, true⟩).erase (name r)
  taken := l.taken ++ [(k, r)]
  ending := if hit r then some (.hit r) else none

inductive Turn (name : ρ → κ) (hit : ρ → Bool) : Loop κ ρ → Loop κ ρ → Prop
  | take {l : Loop κ ρ} {k : κ} {r : ρ} (hgoing : l.ending = none)
      (hk : l.tasks.lookup k = some ⟨r, false⟩) : Turn name hit l (l.take name hit k r)
  | fail {l : Loop κ ρ} {k : κ} {r : ρ} (hgoing : l.ending = none)
      (hk : l.tasks.lookup k = some ⟨r, true⟩) :
      Turn name hit l { l with ending := some .failed }

/-- The loop is over. -/
def Loop.Done (l : Loop κ ρ) : Prop := l.ending ≠ none ∨ ∀ k, l.tasks.lookup k = none

/-- The loop over some tasks may end so. -/
def Runs (name : ρ → κ) (hit : ρ → Bool) (tasks : Dict κ ρ) (f : Loop κ ρ) : Prop :=
  Relation.ReflTransGen (Turn name hit) (.start tasks) f ∧ f.Done

theorem lookup_start (tasks : Dict κ ρ) (k : κ) :
    (Loop.start tasks).tasks.lookup k = (tasks.lookup k).map (⟨·, false⟩) :=
  Dict.lookup_mapValues _ tasks k

theorem lookup_take (l : Loop κ ρ) (k k' : κ) (r : ρ) :
    (l.take name hit k r).tasks.lookup k' =
      if k' = name r then none else if k' = k then some ⟨r, true⟩ else l.tasks.lookup k' := by
  show ((l.tasks.insert k ⟨r, true⟩).erase (name r)).lookup k' = _
  by_cases h : k' = name r
  · rw [h, AList.lookup_erase, if_pos rfl]
  · rw [AList.lookup_erase_ne h, if_neg h]
    split
    next h => rw [h, AList.lookup_insert]
    next h => rw [AList.lookup_insert_ne h]

/-! ## Every loop ends -/

/-- The keys whose tasks have not handed out their results. -/
def Loop.running (l : Loop κ ρ) : Finset κ :=
  (l.tasks.keys.filter fun k => (l.tasks.lookup k).any fun t => !t.taken).toFinset

theorem mem_running {l : Loop κ ρ} {k : κ} :
    k ∈ l.running ↔ ∃ r, l.tasks.lookup k = some ⟨r, false⟩ := by
  rw [Loop.running, List.mem_toFinset, List.mem_filter, ← AList.mem_keys, Dict.mem_iff_lookup]
  constructor
  · rintro ⟨⟨⟨r, taken⟩, hk⟩, hany⟩
    rw [hk, Option.any_some, Bool.not_eq_true'] at hany
    obtain rfl : taken = false := hany
    exact ⟨r, hk⟩
  · rintro ⟨r, hk⟩
    exact ⟨⟨_, hk⟩, by rw [hk]; rfl⟩

theorem running_take (name : ρ → κ) (hit : ρ → Bool) {l : Loop κ ρ} {k : κ} {r : ρ} (hk : l.tasks.lookup k = some ⟨r, false⟩) :
    (l.take name hit k r).running ⊂ l.running := by
  rw [Finset.ssubset_iff_of_subset]
  · refine ⟨k, mem_running.mpr ⟨r, hk⟩, fun hmem => ?_⟩
    obtain ⟨r', hr'⟩ := mem_running.mp hmem
    rw [lookup_take] at hr'
    split at hr'
    next => cases hr'
    next => rw [if_pos rfl] at hr'; cases hr'
  · intro k' hmem
    obtain ⟨r', hr'⟩ := mem_running.mp hmem
    rw [lookup_take] at hr'
    split at hr'
    next => cases hr'
    next =>
      split at hr'
      next => cases hr'
      next => exact mem_running.mpr ⟨r', hr'⟩

/-- The turns that are left at most. -/
def Loop.fuel (l : Loop κ ρ) : Nat := l.running.card + if l.ending.isNone then 1 else 0

theorem fuel_turn {l l' : Loop κ ρ} (h : Turn name hit l l') : l'.fuel < l.fuel := by
  cases h with
  | @take k r hgoing hk =>
    have hcard := Finset.card_lt_card (running_take name hit hk)
    unfold Loop.fuel
    rw [hgoing]
    show _ + _ < _ + 1
    split <;> omega
  | fail hgoing hk =>
    show _ + 0 < _ + _
    rw [hgoing]
    exact Nat.lt_succ_self _

theorem turn_wf (name : ρ → κ) (hit : ρ → Bool) : WellFounded fun l' l : Loop κ ρ => Turn name hit l l' :=
  Subrelation.wf fuel_turn (measure Loop.fuel).wf

theorem exists_turn {l : Loop κ ρ} (h : ¬ l.Done) : ∃ l', Turn name hit l l' := by
  rw [Loop.Done, not_or, not_not, not_forall] at h
  obtain ⟨hgoing, k, hk⟩ := h
  obtain ⟨⟨r, taken⟩, hk⟩ := Option.ne_none_iff_exists'.mp hk
  cases taken with
  | false => exact ⟨_, .take hgoing hk⟩
  | true => exact ⟨_, .fail hgoing hk⟩

theorem exists_done (name : ρ → κ) (hit : ρ → Bool) (l : Loop κ ρ) :
    ∃ f, Relation.ReflTransGen (Turn name hit) l f ∧ f.Done := by
  induction l using (turn_wf name hit).induction with
  | _ l ih =>
    by_cases hdone : l.Done
    · exact ⟨l, .refl, hdone⟩
    · obtain ⟨l', hturn⟩ := exists_turn hdone
      obtain ⟨f, hrun, hf⟩ := ih l' hturn
      exact ⟨f, .head hturn hrun, hf⟩

/-! ## What is taken -/

theorem taken_turn {l l' : Loop κ ρ} (h : Turn name hit l l') : l.taken ⊆ l'.taken := by
  cases h with
  | take => exact List.subset_append_left _ _
  | fail => exact List.Subset.refl _

theorem taken_run {l f : Loop κ ρ} (h : Relation.ReflTransGen (Turn name hit) l f) :
    l.taken ⊆ f.taken := by
  induction h with
  | refl => exact List.Subset.refl _
  | tail _ hturn ih => exact List.Subset.trans ih (taken_turn hturn)

/-- Any task may be the first one to end. -/
theorem exists_runs_taking (name : ρ → κ) (hit : ρ → Bool) {tasks : Dict κ ρ} {k : κ} {r : ρ} (hk : tasks.lookup k = some r) :
    ∃ f, Runs name hit tasks f ∧ (k, r) ∈ f.taken := by
  have hturn : Turn name hit (.start tasks) ((Loop.start tasks).take name hit k r) :=
    .take rfl (by rw [lookup_start, hk]; rfl)
  obtain ⟨f, hrun, hf⟩ := exists_done name hit ((Loop.start tasks).take name hit k r)
  exact ⟨f, ⟨.head hturn hrun, hf⟩, taken_run hrun List.mem_cons_self⟩

theorem exists_runs (name : ρ → κ) (hit : ρ → Bool) (tasks : Dict κ ρ) :
    ∃ f, Runs name hit tasks f :=
  exists_done name hit _

/-! ## Results that name their keys -/

/-- Each result names the key of its task. -/
def Named (name : ρ → κ) (tasks : Dict κ ρ) : Prop := ∀ k r, tasks.lookup k = some r → name r = k

/-- What holds at each turn: the tasks are those that were not taken, and only a hit ends the loop. -/
structure Kept (hit : ρ → Bool) (tasks : Dict κ ρ) (l : Loop κ ρ) : Prop where
  left : ∀ k, l.tasks.lookup k =
    if k ∈ l.taken.map Prod.fst then none else (tasks.lookup k).map (⟨·, false⟩)
  taken : ∀ e ∈ l.taken, tasks.lookup e.1 = some e.2
  hits : ∀ e ∈ l.taken, hit e.2 = true → l.ending = some (.hit e.2)
  ended : ∀ e, l.ending = some e → ∃ k r, (k, r) ∈ l.taken ∧ hit r = true ∧ e = .hit r

theorem kept_start (tasks : Dict κ ρ) : Kept hit tasks (.start tasks) where
  left k := lookup_start tasks k
  taken _ he := absurd he List.not_mem_nil
  hits _ he := absurd he List.not_mem_nil
  ended _ he := nomatch he

theorem Kept.turn {tasks : Dict κ ρ} {l l' : Loop κ ρ} (hnamed : Named name tasks)
    (h : Kept hit tasks l) (hturn : Turn name hit l l') : Kept hit tasks l' := by
  cases hturn with
  | @take k r hgoing hk =>
    have hfrom := h.left k
    rw [hk] at hfrom
    split at hfrom
    next => cases hfrom
    next =>
      obtain ⟨r', hr', heq⟩ := Option.map_eq_some_iff.mp hfrom.symm
      obtain rfl := congrArg Task.result heq
      have hname := hnamed k r' hr'
      -- an earlier hit would have ended the loop
      have hno : ∀ e ∈ l.taken, hit e.2 ≠ true := by
        intro e he hhit
        rw [h.hits e he hhit] at hgoing
        cases hgoing
      constructor
      · intro k'
        rw [lookup_take, h.left k', hname]
        have hiff : k' ∈ (l.taken ++ [(k, r')]).map Prod.fst ↔
            k' ∈ l.taken.map Prod.fst ∨ k' = k := by
          rw [List.map_append, List.mem_append, List.map_singleton, List.mem_singleton]
        show _ = if k' ∈ (l.taken ++ [(k, r')]).map Prod.fst then none else _
        by_cases hk' : k' = k
        · rw [if_pos hk', if_pos (hiff.mpr (.inr hk'))]
        · rw [if_neg hk', if_neg hk']
          exact if_congr (hiff.trans (or_iff_left hk')).symm rfl rfl
      · intro e he
        rcases List.mem_append.mp he with he | he
        · exact h.taken e he
        · rw [List.mem_singleton.mp he]
          exact hr'
      · intro e he hhit
        rcases List.mem_append.mp he with he | he
        · exact absurd hhit (hno e he)
        · obtain rfl := List.mem_singleton.mp he
          exact if_pos hhit
      · intro e he
        obtain ⟨hhit, he⟩ := Option.ite_none_right_eq_some.mp he
        exact ⟨k, r', List.mem_append_right _ (List.mem_singleton_self _), hhit,
          (Option.some.inj he).symm⟩
  | @fail k r hgoing hk =>
    have hfrom := h.left k
    rw [hk] at hfrom
    split at hfrom
    next => cases hfrom
    next =>
      obtain ⟨r', -, heq⟩ := Option.map_eq_some_iff.mp hfrom.symm
      cases heq

theorem kept_run {tasks : Dict κ ρ} {f : Loop κ ρ} (hnamed : Named name tasks)
    (h : Relation.ReflTransGen (Turn name hit) (.start tasks) f) : Kept hit tasks f := by
  induction h with
  | refl => exact kept_start tasks
  | tail _ hturn ih => exact ih.turn hnamed hturn

namespace Runs

variable {tasks : Dict κ ρ} {f : Loop κ ρ} (h : Runs name hit tasks f)
include h

theorem kept (hnamed : Named name tasks) : Kept hit tasks f := kept_run hnamed h.1

/-- A loop that ends without a hit has taken all results. -/
theorem mem_taken (hnamed : Named name tasks) (hnone : f.ending = none) {k : κ} {r : ρ}
    (hk : tasks.lookup k = some r) : (k, r) ∈ f.taken := by
  have hkept := h.kept hnamed
  have hleft := hkept.left k
  rw [h.2.resolve_left (not_not_intro hnone) k] at hleft
  split at hleft
  next hmem =>
    obtain ⟨e, he, rfl⟩ := List.mem_map.mp hmem
    have heq := hkept.taken e he
    rw [hk] at heq
    cases heq
    exact he
  next =>
    rw [hk] at hleft
    cases hleft

theorem exists_of_ending (hnamed : Named name tasks) {e : Ending ρ} (he : f.ending = some e) :
    ∃ k r, tasks.lookup k = some r ∧ hit r = true ∧ e = .hit r := by
  have hkept := h.kept hnamed
  obtain ⟨k, r, hmem, hhit, heq⟩ := hkept.ended e he
  exact ⟨k, r, hkept.taken _ hmem, hhit, heq⟩

/-- The loop ends with a hit if and only if some task has one. -/
theorem hit_iff (hnamed : Named name tasks) :
    f.ending ≠ none ↔ ∃ k r, tasks.lookup k = some r ∧ hit r = true := by
  constructor
  · intro hne
    obtain ⟨e, he⟩ := Option.ne_none_iff_exists'.mp hne
    obtain ⟨k, r, hk, hhit, -⟩ := h.exists_of_ending hnamed he
    exact ⟨k, r, hk, hhit⟩
  · rintro ⟨k, r, hk, hhit⟩ hnone
    have hend := (h.kept hnamed).hits _ (h.mem_taken hnamed hnone hk) hhit
    rw [hnone] at hend
    cases hend

end Runs

end Lib.Gathering
