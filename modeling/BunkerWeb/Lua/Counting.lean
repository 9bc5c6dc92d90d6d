import BunkerWeb.Lib.Run
import BunkerWeb.Lua.BadBehavior

/-!
# What the bad-behavior counters remember

A run is a list of ticks, each with the requests recorded before it. The ledger of a run keeps,
next to the state, every increment that a tick counted and when. `Remembers` says that a counter
covers the increments of its key that are less than their `count_time` old.

The counter of a key and its pending decreases have to go together: each counted increment adds
one to both, and each decrease that is due takes one from both. They come apart when the counter
expires while a decrease is still to come: an increment that another service counts for longer is
forgotten with it, and the next increment starts from one and loses it to the old decrease.
`Timely` excludes exactly these two of a tick; `counted_in_window` shows that nothing else can go
wrong, and `expired_counter_forgets` that this does.
-/

namespace BunkerWeb.Lua.BadBehavior

open Lib

/-- A run so far: the state, the increments counted with their instants, the last tick. -/
structure Ledger where
  sys : State
  history : List (Nat × Counted)
  last : Nat

/-- One tick of the timer, and what was recorded since the one before. -/
structure Tick where
  env : TickEnv
  now : Nat
  batch : List Incr

def tick (s : Ledger) (t : Tick) : Ledger :=
  let (st, counted, _) := timer t.env t.now (record t.batch s.sys)
  ⟨st, s.history ++ counted.map (t.now, ·), t.now⟩

/-- What a reader of a counter finds; an absent counter is zero. -/
def counterAt (counts : Store String Nat) (now : Nat) (key : String) : Nat :=
  (counts.get now (countKey key)).getD 0

/-- The increments of `key` that are less than their own `count_time` old at the last tick. -/
def inWindow (s : Ledger) (key : String) : List (Nat × Counted) :=
  s.history.filter fun e =>
    decide (e.2.incr.key = key ∧ s.last < e.1 + 1000 * e.2.incr.countTime)

/-- No increment inside its counting window is forgotten. -/
def Remembers (s : Ledger) : Prop :=
  ∀ key, (inWindow s key).length ≤ counterAt s.sys.counts s.last key

/-- The increment is skipped: its address is banned already. -/
def Skipped (env : TickEnv) (now : Nat) (bans : BanStores) (i : Incr) : Prop :=
  (isBanned env.toBanEnv now i.ip (some i.serverName) bans).1 = some true

instance (env : TickEnv) (now : Nat) (bans : BanStores) (i : Incr) :
    Decidable (Skipped env now bans i) := inferInstanceAs (Decidable (_ = _))

/-- If the tick finds a counter gone that still has a decrease to come, then no increment of its
key is inside its window any more, and the tick counts no new one. -/
def Timely (s : Ledger) (t : Tick) : Prop :=
  ∀ d ∈ s.sys.decrs, ¬ d.Due t.now → counterAt s.sys.counts t.now d.key = 0 →
    (∀ e ∈ s.history, e.2.incr.key = d.key → e.1 + 1000 * e.2.incr.countTime ≤ t.now) ∧
    ∀ i ∈ t.batch, i.key = d.key → Skipped t.env t.now s.sys.bans i

instance (s : Ledger) (t : Tick) : Decidable (Timely s t) :=
  inferInstanceAs (Decidable (∀ d ∈ s.sys.decrs, ¬ d.Due t.now →
    counterAt s.sys.counts t.now d.key = 0 →
    (∀ e ∈ s.history, e.2.incr.key = d.key → e.1 + 1000 * e.2.incr.countTime ≤ t.now) ∧
    ∀ i ∈ t.batch, i.key = d.key → Skipped t.env t.now s.sys.bans i))

/-- The instance runs without Redis, and its clock does not go back. -/
structure Local (s : Ledger) (t : Tick) : Prop where
  clock : s.last ≤ t.now
  noRedis : t.env.useRedis = false
  incrs : ∀ i ∈ t.batch, i.useRedis = false

/-! ## One decrease, one increment -/

theorem countKey_injective : Function.Injective countKey := fun _ _ h =>
  (String.append_right_inj _).mp h

/-- What a decrease does to the counters. -/
def lowered (now : Nat) (d : Decr) (counts : Store String Nat) : Store String Nat :=
  if counterAt counts now d.key - 1 = 0 then counts.delete (countKey d.key)
  else setWithRetries counts now (countKey d.key) (counterAt counts now d.key - 1)
    (some d.countTime)

/-- What an increase does to the counters. -/
def raised (now : Nat) (i : Incr) (counts : Store String Nat) : Store String Nat :=
  setWithRetries counts now (countKey i.key) (counterAt counts now i.key + 1) (some i.countTime)

section

variable {env : TickEnv} {now : Nat}

theorem decrease_eq {d : Decr} (hd : d.useRedis = false) (st : State) :
    decrease env now d st = { st with counts := lowered now d st.counts } := by
  simp only [decrease, hd, Bool.false_and]
  rfl

theorem increase_eq {i : Incr} (hi : i.useRedis = false) (st : State) :
    increase env now i st =
      (counterAt st.counts now i.key + 1, { st with counts := raised now i st.counts }) := by
  simp only [increase, hi, Bool.false_and]
  rfl

theorem lowered_same (d : Decr) (counts : Store String Nat) :
    counterAt (lowered now d counts) now d.key = counterAt counts now d.key - 1 := by
  rw [lowered]
  split
  · rename_i h; rw [h]; simp [counterAt]
  · simp [counterAt]

theorem lowered_of_ne {d : Decr} (counts : Store String Nat) {key : String} (h : key ≠ d.key) :
    counterAt (lowered now d counts) now key = counterAt counts now key := by
  have hk : countKey key ≠ countKey d.key := fun e => h (countKey_injective e)
  rw [lowered]
  split
  · simp only [counterAt, Store.get_delete_of_ne _ _ hk]
  · simp only [counterAt, Store.get_congr (setWithRetries_of_ne _ _ _ _ hk)]

theorem raised_same (i : Incr) (counts : Store String Nat) :
    counterAt (raised now i counts) now i.key = counterAt counts now i.key + 1 := by
  simp [raised, counterAt]

theorem raised_of_ne {i : Incr} (counts : Store String Nat) {key : String} (h : key ≠ i.key) :
    counterAt (raised now i counts) now key = counterAt counts now key := by
  have hk : countKey key ≠ countKey i.key := fun e => h (countKey_injective e)
  simp only [raised, counterAt, Store.get_congr (setWithRetries_of_ne _ _ _ _ hk)]

@[simp] theorem Counted.decr_key (c : Counted) : (c.decr now).key = c.incr.key := rfl

/-- A decrease is not due in the tick that queued it. -/
theorem Counted.decr_not_due (c : Counted) : ¬ (c.decr now).Due now :=
  Nat.not_lt.mpr (Nat.le_add_right _ _)

theorem Decr.Due.mono {d : Decr} {now now' : Nat} (h : d.Due now) (hle : now ≤ now') :
    d.Due now' := Nat.lt_of_lt_of_le h (timestamp_mono hle)

/-! ## The two loops -/

/-- The decreases of `key` in a list. -/
def ofKey (key : String) (l : List Decr) : List Decr := l.filter (·.key = key)

@[simp] theorem ofKey_cons_same (d : Decr) (l : List Decr) :
    ofKey d.key (d :: l) = d :: ofKey d.key l := by simp [ofKey]

theorem ofKey_cons_of_ne {d : Decr} {key : String} (h : d.key ≠ key) (l : List Decr) :
    ofKey key (d :: l) = ofKey key l := by simp [ofKey, h]

/-- The loop on decreases: what is not due stays, in order; no counter goes up; and a counter that
was not below the number of its decreases is not below the number of those that stay. -/
theorem decrTurn_foldl {l : List Decr} (hl : ∀ d ∈ l, d.useRedis = false) (st : State) :
    ∃ counts, l.foldl (decrTurn env now) st =
        { st with counts := counts, decrs := st.decrs ++ l.filter (¬ ·.Due now) } ∧
      (∀ key, counterAt counts now key ≤ counterAt st.counts now key) ∧
      ∀ key n, n + (ofKey key l).length ≤ counterAt st.counts now key →
        n + (ofKey key (l.filter (¬ ·.Due now))).length ≤ counterAt counts now key := by
  induction l generalizing st with
  | nil => exact ⟨st.counts, by simp, fun _ => Nat.le_refl _, fun _ _ h => h⟩
  | cons d l ih =>
    have hd : d.useRedis = false := hl d List.mem_cons_self
    have hl' : ∀ d ∈ l, d.useRedis = false := fun x hx => hl x (List.mem_cons_of_mem _ hx)
    rw [List.foldl_cons]
    by_cases hdue : d.Due now
    · -- Taken: one less in the list, one less in the counter.
      have hst : decrTurn env now st d = { st with counts := lowered now d st.counts } := by
        rw [decrTurn, if_pos hdue, decrease_eq hd]
      have hf : (d :: l).filter (¬ ·.Due now) = l.filter (¬ ·.Due now) := by simp [hdue]
      obtain ⟨counts, ih1, ih2, ih3⟩ := ih hl' { st with counts := lowered now d st.counts }
      rw [hst, hf]
      refine ⟨counts, ih1, fun key => Nat.le_trans (ih2 key) ?_, fun key n h => ih3 key n ?_⟩
      · show counterAt (lowered now d st.counts) now key ≤ _
        by_cases hk : d.key = key
        · subst hk; rw [lowered_same]; exact Nat.sub_le _ _
        · rw [lowered_of_ne _ (Ne.symm hk)]
      · show n + (ofKey key l).length ≤ counterAt (lowered now d st.counts) now key
        by_cases hk : d.key = key
        · subst hk
          rw [ofKey_cons_same, List.length_cons] at h
          rw [lowered_same]
          omega
        · rw [lowered_of_ne _ (Ne.symm hk)]
          rwa [ofKey_cons_of_ne hk] at h
    · -- Put back: it moves from the list to those that stay.
      have hst : decrTurn env now st d = { st with decrs := st.decrs ++ [d] } := by
        rw [decrTurn, if_neg hdue]
      have hf : (d :: l).filter (¬ ·.Due now) = d :: l.filter (¬ ·.Due now) := by simp [hdue]
      obtain ⟨counts, ih1, ih2, ih3⟩ := ih hl' { st with decrs := st.decrs ++ [d] }
      rw [hst, hf]
      refine ⟨counts, by rw [ih1]; simp, ih2, fun key n h => ?_⟩
      by_cases hk : d.key = key
      · subst hk
        rw [ofKey_cons_same, List.length_cons] at h ⊢
        have := ih3 d.key (n + 1) (by rw [Nat.add_right_comm]; exact h)
        omega
      · rw [ofKey_cons_of_ne hk] at h ⊢
        exact ih3 key n h

private theorem incrTurn_of_skipped (henv : env.useRedis = false) {i : Incr}
    {acc : State × List Counted} (hb : Skipped env now acc.1.bans i) :
    incrTurn env now acc i = acc := by
  have hbans := congrArg Prod.snd
    (@isBanned_of_no_redis env.toBanEnv now i.ip acc.1.bans henv i.serverName)
  unfold Skipped at hb
  unfold incrTurn
  simp only [hb, hbans, if_true]

private theorem incrTurn_of_not_skipped (henv : env.useRedis = false) {i : Incr}
    (hi : i.useRedis = false) {acc : State × List Counted}
    (hb : ¬ Skipped env now acc.1.bans i) :
    ∃ c : Counted, c.incr = i ∧ incrTurn env now acc i =
      ({ acc.1 with counts := raised now i acc.1.counts, decrs := acc.1.decrs ++ [c.decr now] },
        acc.2 ++ [c]) := by
  have hbans := congrArg Prod.snd
    (@isBanned_of_no_redis env.toBanEnv now i.ip acc.1.bans henv i.serverName)
  refine ⟨⟨i, counterAt acc.1.counts now i.key + 1⟩, rfl, ?_⟩
  unfold Skipped at hb
  unfold incrTurn
  simp only [hb, hbans, if_false, increase_eq hi]

/-- The loop on increases: each increment that is not skipped queues its decrease and adds one to
its counter. -/
theorem incrTurn_foldl (henv : env.useRedis = false) {l : List Incr}
    (hl : ∀ i ∈ l, i.useRedis = false) (acc : State × List Counted) :
    ∃ new counts, l.foldl (incrTurn env now) acc =
        ({ acc.1 with counts := counts, decrs := acc.1.decrs ++ new.map (·.decr now) },
          acc.2 ++ new) ∧
      (∀ c ∈ new, c.incr ∈ l ∧ ¬ Skipped env now acc.1.bans c.incr) ∧
      ∀ key, counterAt counts now key =
        counterAt acc.1.counts now key + (ofKey key (new.map (·.decr now))).length := by
  induction l generalizing acc with
  | nil => exact ⟨[], acc.1.counts, by simp, by simp, by simp [ofKey]⟩
  | cons i l ih =>
    have hi : i.useRedis = false := hl i List.mem_cons_self
    have hl' : ∀ i ∈ l, i.useRedis = false := fun x hx => hl x (List.mem_cons_of_mem _ hx)
    rw [List.foldl_cons]
    by_cases hb : Skipped env now acc.1.bans i
    · obtain ⟨new, counts, h1, h2, h3⟩ := ih hl' acc
      rw [incrTurn_of_skipped henv hb]
      exact ⟨new, counts, h1, fun c hc => ⟨List.mem_cons_of_mem _ (h2 c hc).1, (h2 c hc).2⟩, h3⟩
    · obtain ⟨c, hci, hacc⟩ := incrTurn_of_not_skipped henv hi hb
      obtain ⟨new, counts, h1, h2, h3⟩ := ih hl' (incrTurn env now acc i)
      rw [hacc] at h1 h2 h3
      rw [hacc]
      refine ⟨c :: new, counts, by rw [h1]; simp, ?_, fun key => ?_⟩
      · rintro x (_ | ⟨_, hx⟩)
        · rw [hci]; exact ⟨List.mem_cons_self, hb⟩
        · exact ⟨List.mem_cons_of_mem _ (h2 x hx).1, (h2 x hx).2⟩
      · have hck : (c.decr now).key = i.key := by rw [Counted.decr_key, hci]
        rw [h3, List.map_cons]
        show counterAt (raised now i acc.1.counts) now key + _ = _
        by_cases hk : i.key = key
        · subst hk
          rw [raised_same, ← hck, ofKey_cons_same, List.length_cons]
          omega
        · rw [raised_of_ne _ (Ne.symm hk), ofKey_cons_of_ne (by rwa [hck])]

end

/-! ## The invariant of a run -/

/-- The decreases of the counted increments, in the order they were counted. -/
def owed (s : Ledger) : List Decr := s.history.map fun e => e.2.decr e.1

/-- No increment of `key` is inside its window at `now`. -/
def Past (history : List (Nat × Counted)) (now : Nat) (key : String) : Prop :=
  ∀ e ∈ history, e.2.incr.key = key → e.1 + 1000 * e.2.incr.countTime ≤ now

/-- The counter of `key` is not below the number of its pending decreases, or it is gone together
with its windows. -/
def Kept (s : Ledger) (key : String) : Prop :=
  (ofKey key s.sys.decrs).length ≤ counterAt s.sys.counts s.last key ∨
    counterAt s.sys.counts s.last key = 0 ∧ Past s.history s.last key

/-- Between two ticks: the pending decreases are those owed that are not due yet, and each key has
its counter kept. -/
structure Balanced (s : Ledger) : Prop where
  incrs : s.sys.incrs = []
  noRedis : ∀ d ∈ s.sys.decrs, d.useRedis = false
  pending : s.sys.decrs = (owed s).filter (¬ ·.Due s.last)
  kept : ∀ key, Kept s key

/-- A counter that is there at `now` was the same before. -/
private theorem counterAt_later {counts : Store String Nat} {last now : Nat} (hle : last ≤ now)
    {key : String} (h : counterAt counts now key ≠ 0) :
    counterAt counts now key = counterAt counts last key := by
  unfold counterAt at h ⊢
  cases hv : counts.get now (countKey key) with
  | none => rw [hv] at h; exact absurd rfl h
  | some v =>
    obtain ⟨e, he, hlive, rfl⟩ := Store.get_eq_some.mp hv
    rw [Store.get_of_live he (hlive.mono hle)]

/-- What a tick without Redis does: the decreases that are due are taken, which leaves `counts`, and
then the increments of `new` are counted. -/
structure Ticked (s : Ledger) (t : Tick) (counts : Store String Nat) (new : List Counted) :
    Prop where
  notRaised : ∀ key, counterAt counts t.now key ≤ counterAt s.sys.counts t.now key
  covers : ∀ key n, n + (ofKey key s.sys.decrs).length ≤ counterAt s.sys.counts t.now key →
    n + (ofKey key (s.sys.decrs.filter (¬ ·.Due t.now))).length ≤ counterAt counts t.now key
  counted : ∀ c ∈ new, c.incr ∈ t.batch ∧ ¬ Skipped t.env t.now s.sys.bans c.incr
  counts : ∀ key, counterAt (tick s t).sys.counts t.now key =
    counterAt counts t.now key + (ofKey key (new.map (·.decr t.now))).length
  incrs : (tick s t).sys.incrs = []
  decrs : (tick s t).sys.decrs =
    s.sys.decrs.filter (¬ ·.Due t.now) ++ new.map (·.decr t.now)
  history : (tick s t).history = s.history ++ new.map (t.now, ·)
  last : (tick s t).last = t.now

theorem tick_spec {s : Ledger} {t : Tick} (h : Balanced s) (hl : Local s t) :
    ∃ counts new, Ticked s t counts new := by
  obtain ⟨counts, hd1, hd2, hd3⟩ := @decrTurn_foldl t.env t.now _ h.noRedis
    ⟨s.sys.counts, s.sys.redisCounts, s.sys.bans, s.sys.incrs ++ t.batch, []⟩
  obtain ⟨new, counts', hn1, hn2, hn3⟩ := @incrTurn_foldl t.env t.now hl.noRedis
    _ hl.incrs (⟨counts, s.sys.redisCounts, s.sys.bans, [],
      s.sys.decrs.filter (¬ ·.Due t.now)⟩, [])
  have hdecr : takeDecreases t.env t.now (record t.batch s.sys) = ⟨counts, s.sys.redisCounts,
      s.sys.bans, t.batch, s.sys.decrs.filter (¬ ·.Due t.now)⟩ := by
    refine hd1.trans ?_
    rw [h.incrs, List.nil_append, List.nil_append]
  obtain ⟨bans, htick⟩ : ∃ bans, tick s t = ⟨⟨counts', s.sys.redisCounts, bans, [],
      s.sys.decrs.filter (¬ ·.Due t.now) ++ new.map (·.decr t.now)⟩,
      s.history ++ new.map (t.now, ·), t.now⟩ := by
    unfold tick timer
    simp only [hdecr, takeIncreases]
    rw [hn1]
    exact ⟨_, rfl⟩
  exact ⟨counts, new, hd2, hd3, hn2, by rw [htick]; exact hn3, by rw [htick], by rw [htick],
    by rw [htick], by rw [htick]⟩

section

variable {s : Ledger} {t : Tick} {counts : Store String Nat} {new : List Counted}

/-- One key over the loop on decreases of a tick. -/
private theorem kept_of_decreases (h : Balanced s) (hl : Local s t) (hc : Timely s t)
    (ht : Ticked s t counts new) (key : String) :
    (ofKey key (s.sys.decrs.filter (¬ ·.Due t.now))).length ≤ counterAt counts t.now key ∨
      counterAt counts t.now key = 0 ∧ Past s.history t.now key ∧
        ∀ i ∈ t.batch, i.key = key → Skipped t.env t.now s.sys.bans i := by
  by_cases hex : ∃ d ∈ s.sys.decrs, d.key = key ∧ ¬ d.Due t.now
  · obtain ⟨d, hd, rfl, hdue⟩ := hex
    by_cases h0 : counterAt s.sys.counts t.now d.key = 0
    · obtain ⟨hpast, hskip⟩ := hc d hd hdue h0
      exact .inr ⟨Nat.le_zero.mp (h0 ▸ ht.notRaised d.key), hpast, hskip⟩
    · have hsame := counterAt_later hl.clock h0
      rcases h.kept d.key with hk | ⟨hk, -⟩
      · have := ht.covers d.key 0 (by rw [Nat.zero_add, hsame]; exact hk)
        rw [Nat.zero_add] at this
        exact .inl this
      · exact absurd (hsame.trans hk) h0
  · -- No decrease of the key stays.
    have hnil : ofKey key (s.sys.decrs.filter (¬ ·.Due t.now)) = [] := by
      rw [ofKey, List.filter_eq_nil_iff]
      intro d hd hk
      obtain ⟨hd, hdue⟩ := List.mem_filter.mp hd
      exact hex ⟨d, hd, by simpa using hk, by simpa using hdue⟩
    exact .inl (by rw [hnil]; exact Nat.zero_le _)

/-- The decreases that a tick leaves are those owed that are not due yet: the ones of the increments
that it has counted are not. -/
private theorem Ticked.pending (ht : Ticked s t counts new) (h : Balanced s) (hl : Local s t) :
    (tick s t).sys.decrs = (owed (tick s t)).filter (¬ ·.Due t.now) := by
  have hnew : (new.map (·.decr t.now)).filter (¬ ·.Due t.now) = new.map (·.decr t.now) := by
    rw [List.filter_eq_self]
    intro d hd
    obtain ⟨c, -, rfl⟩ := List.mem_map.mp hd
    simpa using c.decr_not_due
  have hold : (s.sys.decrs).filter (¬ ·.Due t.now) = (owed s).filter (¬ ·.Due t.now) := by
    rw [h.pending, List.filter_filter]
    refine List.filter_congr fun d _ => ?_
    have : d.Due s.last → d.Due t.now := fun hd => hd.mono hl.clock
    by_cases hdue : d.Due t.now
    · simp [hdue]
    · simp [hdue, mt this hdue]
  have howed : owed (tick s t) = owed s ++ new.map (·.decr t.now) := by
    rw [owed, ht.history, List.map_append, List.map_map]; rfl
  rw [howed, List.filter_append, ht.decrs, hnew, hold]

private theorem Ticked.kept (ht : Ticked s t counts new) (h : Balanced s) (hl : Local s t)
    (hc : Timely s t) (key : String) : Kept (tick s t) key := by
  rw [Kept, ht.last, ht.decrs, ht.history, ht.counts]
  rcases kept_of_decreases h hl hc ht key with hk | ⟨h0, hpast, hskip⟩
  · refine .inl ?_
    rw [ofKey, List.filter_append, List.length_append]
    exact Nat.add_le_add_right hk _
  · -- The tick counted no increment of the key.
    have hne : ∀ c ∈ new, c.incr.key ≠ key := fun c hc hk =>
      (ht.counted c hc).2 (hskip _ (ht.counted c hc).1 hk)
    have hnil : ofKey key (new.map (·.decr t.now)) = [] := by
      rw [ofKey, List.filter_eq_nil_iff]
      intro d hd hk
      obtain ⟨c, hc', rfl⟩ := List.mem_map.mp hd
      exact hne c hc' (of_decide_eq_true hk)
    refine .inr ⟨by rw [hnil, h0, List.length_nil], fun e he hk => ?_⟩
    rcases List.mem_append.mp he with he | he
    · exact hpast e he hk
    · obtain ⟨c, hc', rfl⟩ := List.mem_map.mp he
      exact absurd hk (hne c hc')

theorem tick_balanced (h : Balanced s) (hl : Local s t) (hc : Timely s t) :
    Balanced (tick s t) := by
  obtain ⟨counts, new, ht⟩ := tick_spec h hl
  refine ⟨ht.incrs, fun d hd => ?_, ?_, ht.kept h hl hc⟩
  · rw [ht.decrs] at hd
    rcases List.mem_append.mp hd with hd | hd
    · exact h.noRedis d (List.mem_filter.mp hd).1
    · obtain ⟨c, hc', rfl⟩ := List.mem_map.mp hd
      exact hl.incrs _ (ht.counted c hc').1
  · rw [ht.last]
    exact ht.pending h hl

end

/-- An increment inside its window has its decrease still pending. -/
theorem Balanced.remembers {s : Ledger} (h : Balanced s) : Remembers s := by
  intro key
  rcases h.kept key with hk | ⟨-, hpast⟩
  · refine Nat.le_trans ?_ hk
    rw [h.pending, owed, ofKey, List.filter_map, List.filter_map, List.length_map, inWindow,
      List.filter_filter]
    refine List.Sublist.length_le (List.monotone_filter_right _ fun e he => ?_)
    simp only [decide_eq_true_eq] at he
    obtain ⟨hk, hw⟩ := he
    have hdue : ¬ (e.2.decr e.1).Due s.last := by
      refine Nat.not_lt.mpr ?_
      show Lua.timestamp s.last ≤ Lua.timestamp e.1 + e.2.incr.countTime
      unfold Lua.timestamp
      omega
    simp [hk, hdue]
  · have hnil : inWindow s key = [] := by
      rw [inWindow, List.filter_eq_nil_iff]
      intro e he hw
      obtain ⟨hk, hw⟩ := of_decide_eq_true hw
      exact Nat.not_lt.mpr (hpast e he hk) hw
    rw [hnil]
    exact Nat.zero_le _

/-- The state of an instance that has not counted anything yet. -/
def Unused (s : Ledger) : Prop := s.sys.incrs = [] ∧ s.sys.decrs = [] ∧ s.history = []

theorem Unused.balanced {s : Ledger} (h : Unused s) : Balanced s where
  incrs := h.1
  noRedis := by simp [h.2.1]
  pending := by simp [owed, h.2.1, h.2.2]
  kept := fun _ => .inl (by simp [ofKey, h.2.1])

/-- **The counting window.** In every run without Redis whose ticks are `Timely`, after every tick
each counter is at least the number of increments of its key that are less than their `count_time`
old. -/
theorem counted_in_window {s : Ledger} (h0 : Unused s) {ts : List Tick}
    (hl : Run.Meets tick Local s ts) (hc : Run.Meets tick Timely s ts) :
    ∀ pre post, ts = pre ++ post → Remembers (Run.run tick s pre) := by
  rintro pre post rfl
  exact (Run.invariant_of_append (fun _ _ h hok => tick_balanced h hok.1 hok.2) h0.balanced
    (hl.and hc)).remembers

/-! ## A counter that expires before its decreases -/

/-- A bad request for one service that counts for ten seconds. -/
def badRequest : Incr where
  ip := "1.2.3.4"
  countTime := 10
  banTime := 86400
  threshold := 5
  useRedis := false
  serverName := "www"
  securityMode := .block
  country := "XX"
  timestamp := 0
  status := "404"
  banScope := .service

def unusedLedger : Ledger := ⟨⟨Store.empty, Store.empty,
  ⟨Store.empty, Store.empty, Store.empty⟩, [], []⟩, [], 0⟩

/-- Ticks five seconds apart; a bad request before the first and before the third. The counter of
the first expires at the instant of the third tick, whose clock does not yet take its decrease;
the fourth tick takes it from the counter of the second. -/
def expiringTicks : List Tick :=
  [⟨plainEnv, 500, [badRequest]⟩, ⟨plainEnv, 5500, []⟩, ⟨plainEnv, 10500, [badRequest]⟩,
    ⟨plainEnv, 15500, []⟩]

private theorem local_of_checked (ts : List Tick) (s : Ledger)
    (hc : List.Pairwise (· ≤ ·) (s.last :: ts.map (·.now)))
    (hn : ∀ t ∈ ts, t.env.useRedis = false ∧ ∀ i ∈ t.batch, i.useRedis = false) :
    Run.Meets tick Local s ts := by
  induction ts generalizing s with
  | nil => trivial
  | cons t ts ih =>
    obtain ⟨h1, h2⟩ := hn t List.mem_cons_self
    exact ⟨⟨List.rel_of_pairwise_cons hc List.mem_cons_self, h1, h2⟩,
      ih _ hc.of_cons fun x hx => hn x (List.mem_cons_of_mem _ hx)⟩

theorem expired_counter_forgets :
    Unused unusedLedger ∧ Run.Meets tick Local unusedLedger expiringTicks ∧
      ¬ Remembers (Run.run tick unusedLedger expiringTicks) := by
  refine ⟨⟨rfl, rfl, rfl⟩, local_of_checked _ _ (by decide) (by decide), fun h => ?_⟩
  exact absurd (h "www_1.2.3.4") (by decide)

/-- Requests one tick apart, and then none until their counter is gone. -/
def fourTicks : List Tick :=
  [⟨plainEnv, 500, [badRequest]⟩, ⟨plainEnv, 5500, [badRequest]⟩, ⟨plainEnv, 10500, []⟩,
    ⟨plainEnv, 15500, []⟩]

theorem counted_in_window_four_ticks : Remembers (Run.run tick unusedLedger fourTicks) :=
  counted_in_window ⟨rfl, rfl, rfl⟩ (local_of_checked fourTicks _ (by decide) (by decide))
    ⟨by decide, by decide, by decide, by decide, trivial⟩ _ [] (List.append_nil _).symm

end BunkerWeb.Lua.BadBehavior
