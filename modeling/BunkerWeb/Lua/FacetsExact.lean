import BunkerWeb.Lib.Parties
import BunkerWeb.Lua.Facets

/-!
# When the facets are exact

- **The balance** (`Balanced`): what a counter holds and what all workers owe it make up the number
  of the entries of the list.
- **The condition** (`Ordered`): what no command may meet. A command that does not keeps the balance
  (`balanced_step`), and so do cycles that do not overlap (`ordered_of_sequential`).
- **The result** (`facets_exact`): in every run whose commands meet the condition, the facets are
  exact whenever no cycle is in progress, and the list is no longer than its cap.
-/

namespace BunkerWeb.Lua.Facets

open Lib

section

variable {W : Type*} [DecidableEq W] {cap : Nat} {s : State W} {m : W × List Request}

theorem phases_step_self : (step cap s m).phases m.1 = (advance cap s.redis m.2 (s.phases m.1)).2 :=
  Function.update_self _ _ _

theorem phases_step_of_ne {w : W} (h : w ≠ m.1) : (step cap s m).phases w = s.phases w :=
  Function.update_of_ne h _ _

variable [Fintype W]

/-- What the next command of a worker may not meet: a worker that has still to read the list that it
changes, or to delete the facet that it changes; a count that another worker has changed after the
worker found it not to be positive; a worker that owes the facets something, if they are to be
counted anew. -/
structure Ordered (s : State W) (m : W × List Request) : Prop where
  list : (s.phases m.1).changesList s.redis = true →
    ∀ w, w ≠ m.1 → (s.phases w).reads = false
  facet : ∀ f, (s.phases m.1).Changes s.redis f → ∀ w, w ≠ m.1 → f ∉ (s.phases w).clears
  hdel : ∀ c todo left, s.phases m.1 = .trimHdel c todo left → s.redis.stored c = 0
  anew : s.phases m.1 = .idle ∧ s.redis.initialized = false ∨ s.phases m.1 = .capDel →
    ∀ c, ∑ w ∈ Finset.univ.erase m.1, debt s.redis (s.phases w) c = 0

/-- The counters and what the workers owe them make up the number of the entries. -/
def Balanced (s : State W) : Prop :=
  ∀ c, s.redis.stored c + ∑ w, debt s.redis (s.phases w) c = countOf s.redis.requests c

/-- A command that meets the condition leaves what the other workers owe as it is. -/
theorem debt_step_of_ne (h : Ordered s m) (c : Counter) {w : W} (hw : w ≠ m.1) :
    debt (step cap s m).redis ((step cap s m).phases w) c = debt s.redis (s.phases w) c := by
  rw [phases_step_of_ne hw]
  have hlist : (s.phases w).reads = true → (step cap s m).redis.requests = s.redis.requests :=
    fun hr => requests_advance (Bool.eq_false_iff.mpr fun hl => by
      rw [h.list hl w hw] at hr; cases hr)
  have hfacet : c.1 ∈ (s.phases w).clears → (step cap s m).redis.stored c = s.redis.stored c :=
    fun hc => stored_advance h.hdel fun hf => h.facet c.1 hf w hw hc
  unfold debt
  congr 1
  · congr 2
    split_ifs with hr
    · rw [hlist hr]
    · rfl
  · split_ifs with hc
    · exact hfacet hc
    · rfl

theorem balanced_step (hb : Balanced s ∨ s.phases m.1 = .idle ∧ s.redis.initialized = false)
    (hok : (s.phases m.1).Ok s.redis) (h : Ordered s m) : Balanced (step cap s m) := by
  intro c
  have hsum := Parties.sum_erase_eq (f := fun w => debt s.redis (s.phases w) c)
    (g := fun w => debt (step cap s m).redis ((step cap s m).phases w) c) (i := m.1)
    fun w hw => debt_step_of_ne h c hw
  rw [hsum, phases_step_self]
  by_cases hanew : s.phases m.1 = .idle ∧ s.redis.initialized = false ∨ s.phases m.1 = .capDel
  · rw [h.anew hanew c, add_zero]
    rcases hanew with ⟨hidle, hinit⟩ | hdel
    · simp [step, advance, hidle, hinit, mem_requestFacetFields]
    · simp [step, advance, hdel, mem_requestFacetFields]
  · rw [not_or, not_and] at hanew
    have hbal := hb.resolve_right fun hi => hanew.1 hi.1 hi.2
    have hown := advance_balanced cap m.2 hok
      (fun hi => by simpa using hanew.1 hi) hanew.2 h.hdel c
    have hold := hbal c
    rw [← Finset.add_sum_erase _ _ (Finset.mem_univ m.1)] at hold
    simp only [step] at hown ⊢
    omega

/-! ## Runs -/

/-- No cycle has begun since `s₀`, in which the facets have never been counted. -/
structure Untouched (s₀ s : State W) : Prop where
  idle : s.Idle
  initialized : s.redis.initialized = false
  requests : s.redis.requests = s₀.redis.requests
  facets : s.redis.facets = s₀.redis.facets

/-- What holds all the time in a run from `s₀`. -/
structure Inv (cap : Nat) (s₀ s : State W) : Prop where
  balanced : Balanced s ∨ Untouched s₀ s
  ok : ∀ w, (s.phases w).Ok s.redis
  positive : ∀ c, s.redis.NotPositive c → (∃ w, (s.phases w).Covers c) ∨ Untouched s₀ s
  short : s.redis.requests.length ≤ cap ∨
    (∃ w, (s.phases w).Trims cap s.redis.requests.length) ∨ Untouched s₀ s

omit [DecidableEq W] [Fintype W] in
theorem Untouched.entry {s₀ : State W} (h : Untouched s₀ s) :
    s.phases m.1 = .idle ∧ s.redis.initialized = false := ⟨h.idle m.1, h.initialized⟩

theorem inv_step (s₀ s : State W) (m : W × List Request) (hi : Inv cap s₀ s) (h : Ordered s m) :
    Inv cap s₀ (step cap s m) := by
  refine ⟨.inl (balanced_step (hi.balanced.imp_right Untouched.entry) (hi.ok m.1) h), ?_, ?_, ?_⟩
  · intro w
    by_cases hw : w = m.1
    · subst hw
      rw [phases_step_self]
      exact advance_ok (hi.ok m.1)
    · rw [phases_step_of_ne hw]
      have hlist : (s.phases w).reads = true →
          (step cap s m).redis.requests = s.redis.requests := fun hr =>
        requests_advance (Bool.eq_false_iff.mpr fun hl => by
          rw [h.list hl w hw] at hr; cases hr)
      have hok := hi.ok w
      cases hp : s.phases w with
      | initRange start n q =>
        rw [hp] at hok hlist
        exact fun hlt => by rw [hlist (decide_eq_true hlt)]; exact hok hlt
      | initIncr todo start n q =>
        rw [hp] at hok hlist
        exact fun hlt => by rw [hlist (decide_eq_true hlt)]; exact hok hlt
      | _ => trivial
  · intro c hc
    rcases advance_covers hc with hcov | ⟨hold, hncov, hnidle⟩
    · exact .inl ⟨m.1, by rwa [phases_step_self]⟩
    · rcases hi.positive c hold with ⟨w, hw⟩ | hun
      · have hne : w ≠ m.1 := fun hwm => hncov (hwm ▸ hw)
        exact .inl ⟨w, by rwa [phases_step_of_ne hne]⟩
      · exact absurd hun.entry hnidle
  · rcases advance_trims cap s.redis m.2 (s.phases m.1) with
      hle | htrims | ⟨hle, hntrims, hnidle⟩
    · exact .inl hle
    · exact .inr (.inl ⟨m.1, by rwa [phases_step_self]⟩)
    · rcases hi.short with hold | ⟨w, hw⟩ | hun
      · exact .inl (hle.trans hold)
      · have hne : w ≠ m.1 := fun hwm => hntrims (hwm ▸ hw)
        exact .inr (.inl ⟨w, by rw [phases_step_of_ne hne]; exact hw.mono hle⟩)
      · exact absurd hun.entry hnidle

/-- Nobody is in a cycle; the facets are exact and the list short enough, or the facets have never
been counted. -/
structure Start (cap : Nat) (s : State W) : Prop where
  idle : s.Idle
  exact : s.redis.initialized = true → s.redis.Exact ∧ s.redis.requests.length ≤ cap

theorem stored_of_exact {redis : Redis} (h : redis.Exact) (c : Counter) :
    redis.stored c = countOf redis.requests c := by
  rw [Redis.stored, h c]
  split_ifs with hz
  · rw [hz]; rfl
  · rfl

omit [DecidableEq W] in
theorem sum_debt_of_idle (h : s.Idle) (c : Counter) :
    ∑ w, debt s.redis (s.phases w) c = 0 :=
  Finset.sum_eq_zero fun w _ => by rw [h w, debt_idle]

omit [DecidableEq W] in
theorem inv_start {s₀ : State W} (h : Start cap s₀) : Inv cap s₀ s₀ := by
  have hun : s₀.redis.initialized = false → Untouched s₀ s₀ := fun hf => ⟨h.idle, hf, rfl, rfl⟩
  have hok (w : W) : (s₀.phases w).Ok s₀.redis := by rw [h.idle w]; trivial
  cases hinit : s₀.redis.initialized with
  | false => exact ⟨.inr (hun hinit), hok, fun _ _ => .inr (hun hinit), .inr (.inr (hun hinit))⟩
  | true =>
    obtain ⟨hexact, hshort⟩ := h.exact hinit
    refine ⟨.inl fun c => ?_, hok, fun c ⟨x, hx, hle⟩ => ?_, .inl hshort⟩
    · rw [sum_debt_of_idle h.idle, add_zero, stored_of_exact hexact]
    · rw [hexact c] at hx
      split_ifs at hx with hz
      cases hx
      omega

/-- In every run in which every command meets the condition, whenever no cycle is in progress the
facets are exact and the list is no longer than its cap (or no cycle has begun yet, and the facets
were never counted before). -/
theorem facets_exact {s₀ : State W} {moves : List (W × List Request)} (h₀ : Start cap s₀)
    (hm : Run.Meets (step cap) Ordered s₀ moves) (hidle : (Run.run (step cap) s₀ moves).Idle) :
    Untouched s₀ (Run.run (step cap) s₀ moves) ∨
      (Run.run (step cap) s₀ moves).redis.Exact ∧
        (Run.run (step cap) s₀ moves).redis.requests.length ≤ cap := by
  have hinv := Run.invariant (inv_step s₀) (inv_start h₀) hm
  by_cases hun : Untouched s₀ (Run.run (step cap) s₀ moves)
  · exact .inl hun
  refine .inr ⟨fun c => ?_, ?_⟩
  · have hbal := hinv.balanced.resolve_right hun c
    rw [sum_debt_of_idle hidle, add_zero, Redis.stored] at hbal
    have hpos : ¬ (Run.run (step cap) s₀ moves).redis.NotPositive c := fun hnp => by
      obtain ⟨w, hw⟩ := (hinv.positive c hnp).resolve_right hun
      rw [hidle w] at hw
      exact hw
    cases hx : (Run.run (step cap) s₀ moves).redis.facets c.1 c.2 with
    | none =>
      rw [hx, Option.getD_none] at hbal
      rw [if_pos (by omega)]
    | some x =>
      rw [hx, Option.getD_some] at hbal
      have hlt : 0 < x := by
        by_contra hle
        exact hpos ⟨x, hx, by omega⟩
      rw [if_neg (by omega), hbal]
  · refine hinv.short.resolve_right ?_
    rintro (⟨w, hw⟩ | h)
    · rw [hidle w] at hw
      exact hw
    · exact hun h

/-! ## Cycles one after another -/

/-- The other workers are idle. -/
def Alone (s : State W) (m : W × List Request) : Prop := ∀ w, w ≠ m.1 → s.phases w = .idle

/-- Nobody but the worker has moved since it found the count. -/
def Fresh (s : State W) : Prop :=
  ∀ w c todo left, s.phases w = .trimHdel c todo left → s.redis.stored c ≤ 0

theorem ordered_of_alone {s₀ : State W} (hi : Inv cap s₀ s) (hf : Fresh s) (h : Alone s m) :
    Ordered s m := by
  refine ⟨fun _ w hw => by rw [h w hw]; rfl, fun f _ w hw => by rw [h w hw]; simp [Phase.clears],
    fun c todo left hp => ?_, fun _ c => Finset.sum_eq_zero fun w hw => by
      rw [h w (Finset.ne_of_mem_erase hw), debt_idle]⟩
  have hbal := hi.balanced.resolve_right (fun hun => by rw [hun.idle m.1] at hp; cases hp) c
  rw [← Finset.add_sum_erase _ _ (Finset.mem_univ m.1), hp, debt_trimHdel,
    Finset.sum_eq_zero fun w hw => by rw [h w (Finset.ne_of_mem_erase hw), debt_idle]] at hbal
  have := hf m.1 c todo left hp
  omega

omit [Fintype W] in
theorem fresh_step (h : Alone s m) : Fresh (step cap s m) := by
  intro w c todo left hp
  by_cases hw : w = m.1
  · subst hw
    rw [phases_step_self] at hp
    exact advance_fresh hp
  · rw [phases_step_of_ne hw, h w hw] at hp
    cases hp

/-- Workers whose cycles do not overlap always meet the condition. -/
theorem ordered_of_sequential {s₀ : State W} {moves : List (W × List Request)} (h₀ : Start cap s₀)
    (hm : Run.Meets (step cap) Alone s₀ moves) : Run.Meets (step cap) Ordered s₀ moves := by
  have hmeets {s : State W} {moves : List (W × List Request)} (hi : Inv cap s₀ s) (hf : Fresh s)
      (hm : Run.Meets (step cap) Alone s moves) : Run.Meets (step cap) Ordered s moves := by
    induction moves generalizing s with
    | nil => trivial
    | cons m moves ih =>
      have hord := ordered_of_alone hi hf hm.1
      exact ⟨hord, ih (inv_step s₀ s m hi hord) (fresh_step hm.1) hm.2⟩
  exact hmeets (inv_start h₀) (fun w c todo left hp => by rw [h₀.idle w] at hp; cases hp) hm

omit [Fintype W] in
theorem alone_of_forall {i : W} {moves : List (W × List Request)} (hmoves : ∀ m ∈ moves, m.1 = i)
    (hs : ∀ w, w ≠ i → s.phases w = .idle) : Run.Meets (step cap) Alone s moves := by
  induction moves generalizing s with
  | nil => trivial
  | cons m moves ih =>
    obtain rfl := hmoves m List.mem_cons_self
    refine ⟨hs, ih (fun m hm => hmoves m (List.mem_cons_of_mem _ hm)) fun w hw => ?_⟩
    rw [phases_step_of_ne hw, hs w hw]

end

/-! Two workers, and a list that is as long as its cap. -/

/-- A request of which the address alone is known. -/
def request : Request := fun field => if field = .ip then some "192.0.2.7" else none

/-- The list has one entry, and the facets count it. -/
def full : State (Fin 2) where
  redis :=
    { requests := [some request]
      facets := fun f v => if v = getRequestFacetValue request f then some 1 else none
      initialized := true }
  phases _ := .idle

theorem full_start : Start 1 full := by
  refine ⟨fun w => rfl, fun _ => ⟨fun ⟨f, v⟩ => ?_, le_rfl⟩⟩
  have hcount : countOf full.redis.requests (f, v) =
      if getRequestFacetValue request f = v then 1 else 0 := by
    rw [countOf_eq]
    simpa [full, Entry.counters] using count_countersOf request (f, v)
  rw [hcount]
  by_cases hv : getRequestFacetValue request f = v
  · simp [full, hv]
  · simp [full, hv, Ne.symm hv]

def moves (n : Nat) (w : Fin 2) (queue : List Request) : List (Fin 2 × List Request) :=
  List.replicate n (w, queue)

/-- The whole cycle of a worker that pushes a request and takes the old entry off the list. -/
theorem facets_exact_one_cycle :
    let s := Run.run (step 1) full (moves 23 0 [request])
    s.redis.Exact ∧ s.redis.requests.length ≤ 1 := by
  have hm : Run.Meets (step 1) Ordered full (moves 23 0 [request]) :=
    ordered_of_sequential full_start
      (alone_of_forall (i := 0) (fun m hm => by rw [List.eq_of_mem_replicate hm]) fun w _ => rfl)
  have hidle : (Run.run (step 1) full (moves 23 0 [request])).Idle := fun
    | 0 => rfl
    | 1 => rfl
  exact (facets_exact full_start hm hidle).resolve_left fun h => by cases h.initialized

/-- The first worker pushes a request from the same address, the second one takes the old entry off
the list and finds the count to be 0; the first one counts its request, and the second one removes
the counter. -/
theorem counted_then_removed :
    let s := Run.run (step 1) full
      (moves 2 0 [request] ++ moves 4 1 [] ++ moves 1 0 [] ++ moves 17 1 [] ++ moves 9 0 [])
    Start 1 full ∧ s.Idle ∧ countOf s.redis.requests (.ip, "192.0.2.7") = 1 ∧
      s.redis.facets .ip "192.0.2.7" = none ∧ ¬ s.redis.Exact := by
  intro s
  have hidle : s.Idle := fun
    | 0 => rfl
    | 1 => rfl
  have hcount : countOf s.redis.requests (.ip, "192.0.2.7") = 1 := by decide
  have hgone : s.redis.facets .ip "192.0.2.7" = none := by decide
  refine ⟨full_start, hidle, hcount, hgone, fun h => ?_⟩
  have := h (.ip, "192.0.2.7")
  rw [hcount, hgone] at this
  cases this

end BunkerWeb.Lua.Facets
