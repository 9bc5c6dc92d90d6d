import BunkerWeb.Lib.Run
import BunkerWeb.Lua.Limit
import Mathlib.Data.List.Sort

/-!
# The local limiter is a sliding window

A run feeds `limitReqLocal` with requests for one key, at instants that never go back, and logs
for each whether it was refused and whether its timestamp was recorded. The invariant (`Tracks`)
relates the list in the dictionary to the log: at every later instant the readable list is made of
recorded requests, and it has every one of them that is less than `delay` seconds old. An entry
that expires loses nothing of the window, since its expiry is `delay` seconds after the last
request it recorded.

`sliding_window` is the result: what is let through in any `delay` seconds, why a request is
refused, and how long the list gets.
-/

namespace BunkerWeb.Lua.Limit

open Lib

/-- One request, as the limiter answered it. -/
structure Logged where
  now : Nat
  refused : Bool
  recorded : Bool
  deriving DecidableEq, Repr

/-- The dictionary and the answers so far, the oldest first. -/
structure Traced where
  datastore : Store String (List Nat)
  log : List Logged

/-- The timestamps of the window that a request at `now` finds. -/
def windowOf (rate : Rate) (key : String) (now : Nat) (datastore : Store String (List Nat)) :
    List Nat :=
  ((datastore.get now key).getD []).filter (InWindow (delayOf rate.time) (timestamp now) ·)

/-- One request through the local path. -/
def serve (rate : Rate) (key : String) (st : Traced) (now : Nat) : Traced :=
  let (new, datastore) := limitReqLocal rate key now st.datastore
  ⟨datastore, st.log ++ [{
    now
    refused := limited rate new
    recorded := decide ((windowOf rate key now st.datastore).length ≤ rate.max) }]⟩

/-- The instants of the recorded requests. -/
def recordedTimes (log : List Logged) : List Nat := (log.filter (·.recorded)).map (·.now)

/-- The requests let through in the window `[a, a + 1000 * delay)`. -/
def letThrough (log : List Logged) (delay a : Nat) : List Logged :=
  log.filter fun e => !e.refused && decide (a ≤ e.now ∧ e.now < a + 1000 * delay)

section Step

variable (rate : Rate) (key : String) (now : Nat) (datastore : Store String (List Nat))

/-- The list of a call, by what its window holds. -/
theorem limitReqLocal_fst :
    (limitReqLocal rate key now datastore).1 =
      if (windowOf rate key now datastore).length ≤ rate.max then
        windowOf rate key now datastore ++ [timestamp now]
      else windowOf rate key now datastore := by
  rcases Nat.lt_or_ge rate.max (windowOf rate key now datastore).length with h | h
  · rw [limitReqLocal, limitReqTimestamps_of_lt h, if_neg (Nat.not_le.mpr h)]; rfl
  · rw [limitReqLocal, limitReqTimestamps_of_le h, if_pos h]; rfl

/-- A request is refused exactly when its window already holds `max` timestamps. -/
theorem limited_limitReqLocal :
    limited rate (limitReqLocal rate key now datastore).1 =
      decide (rate.max ≤ (windowOf rate key now datastore).length) := by
  rw [limitReqLocal_fst]
  simp only [limited, decide_eq_decide]
  split
  · simp only [List.length_append, List.length_singleton]; omega
  · omega

/-- The dictionary after a call: it is written when the list changed, and what a call leaves
alone is the list that it read. -/
theorem limitReqLocal_snd :
    (limitReqLocal rate key now datastore).2 =
        setWithRetries datastore now key (limitReqLocal rate key now datastore).1
          (some (delayOf rate.time)) ∨
      (limitReqLocal rate key now datastore).2 = datastore ∧
        rate.max < (windowOf rate key now datastore).length := by
  rcases Nat.lt_or_ge rate.max (windowOf rate key now datastore).length with h | h
  · rw [limitReqLocal, limitReqTimestamps_of_lt h]
    cases hd : ((datastore.get now key).getD []).any
        (¬ InWindow (delayOf rate.time) (timestamp now) ·)
    · exact .inr ⟨by simp, h⟩
    · exact .inl (by simp)
  · rw [limitReqLocal, limitReqTimestamps_of_le h]; exact .inl (by simp)

/-- Only the entry of the key changes. -/
theorem limitReqLocal_of_ne {key' : String} (h : key' ≠ key) :
    (limitReqLocal rate key now datastore).2 key' = datastore key' := by
  rcases limitReqLocal_snd rate key now datastore with h' | ⟨h', -⟩
  · rw [h', setWithRetries_of_ne _ _ _ _ h]
  · rw [h']

end Step

/-! ## The invariant -/

/-- At every instant from the last request on, the list that is read consists of recorded
requests, in order, and holds those that are less than `delay` seconds old. -/
def Tracks (rate : Rate) (key : String) (st : Traced) : Prop :=
  ∀ now, (∀ e ∈ st.log, e.now ≤ now) → ∃ g : List Nat,
    (st.datastore.get now key).getD [] = g.map timestamp ∧
    g.Sublist (recordedTimes st.log) ∧
    ((recordedTimes st.log).filter fun t => now < t + 1000 * delayOf rate.time).Sublist g

/-- The window of a request, as a part of the recorded requests. -/
theorem Tracks.window {rate : Rate} {key : String} {st : Traced} (h : Tracks rate key st)
    {now : Nat} (hnow : ∀ e ∈ st.log, e.now ≤ now) :
    ∃ g : List Nat, windowOf rate key now st.datastore = g.map timestamp ∧
      g.Sublist ((recordedTimes st.log).filter fun t =>
        decide (InWindow (delayOf rate.time) (timestamp now) (timestamp t))) ∧
      ((recordedTimes st.log).filter fun t => now < t + 1000 * delayOf rate.time).Sublist g := by
  obtain ⟨g, hg, hsub, hsup⟩ := h now hnow
  refine ⟨g.filter fun t => decide (InWindow (delayOf rate.time) (timestamp now) (timestamp t)),
    ?_, hsub.filter _, ?_⟩
  · rw [windowOf, hg, List.filter_map]; rfl
  · have := hsup.filter fun t => decide (InWindow (delayOf rate.time) (timestamp now) (timestamp t))
    rwa [List.filter_filter, List.filter_congr fun t _ => ?_] at this
    by_cases ht : now < t + 1000 * delayOf rate.time
    · simp [ht, show InWindow (delayOf rate.time) (timestamp now) (timestamp t) from
        timestamp_sub_le ht]
    · simp [ht]

theorem recordedTimes_append (log : List Logged) (e : Logged) :
    recordedTimes (log ++ [e]) = recordedTimes log ++ if e.recorded then [e.now] else [] := by
  cases h : e.recorded <;> simp [recordedTimes, List.filter_append, h]

theorem mem_recordedTimes {log : List Logged} {t : Nat} (h : t ∈ recordedTimes log) :
    ∃ e ∈ log, e.now = t := by
  obtain ⟨e, he, rfl⟩ := List.mem_map.mp h
  exact ⟨e, (List.mem_filter.mp he).1, rfl⟩

theorem serve_log (rate : Rate) (key : String) (st : Traced) (now : Nat) :
    (serve rate key st now).log = st.log ++ [{
      now
      refused := decide (rate.max ≤ (windowOf rate key now st.datastore).length)
      recorded := decide ((windowOf rate key now st.datastore).length ≤ rate.max) }] := by
  simp only [serve, limited_limitReqLocal]

theorem serve_datastore (rate : Rate) (key : String) (st : Traced) (now : Nat) :
    (serve rate key st now).datastore = (limitReqLocal rate key now st.datastore).2 := rfl

/-- The requests that are young at `now'` were young at `now ≤ now'`. -/
private theorem young_sublist (l : List Nat) {now now' D : Nat} (h : now ≤ now') :
    (l.filter fun t => now' < t + D).Sublist (l.filter fun t => now < t + D) := by
  have e : (l.filter fun t => now' < t + D) =
      (l.filter fun t => now < t + D).filter fun t => now' < t + D := by
    rw [List.filter_filter]
    refine List.filter_congr fun t _ => ?_
    by_cases ht : now' < t + D
    · simp [ht, show now < t + D by omega]
    · simp [ht]
  rw [e]; exact List.filter_sublist

theorem serve_tracks {rate : Rate} {key : String} {st : Traced} {now : Nat}
    (h : Tracks rate key st) (hnow : ∀ e ∈ st.log, e.now ≤ now) :
    Tracks rate key (serve rate key st now) := by
  intro now' hnow'
  rw [serve_log] at hnow' ⊢
  rw [serve_datastore]
  have hle : now ≤ now' := hnow' _ (List.mem_append_right _ (List.mem_singleton_self _))
  have hold : ∀ e ∈ st.log, e.now ≤ now' := fun e he => hnow' e (List.mem_append_left _ he)
  rw [recordedTimes_append]
  simp only [decide_eq_true_eq]
  rcases limitReqLocal_snd rate key now st.datastore with hset | ⟨hsame, hfull⟩
  · -- The list was written: it is the window, with the request itself when there was room.
    obtain ⟨g, hg, hsub, hsup⟩ := h.window hnow
    rw [hset]
    have hlist : (limitReqLocal rate key now st.datastore).1 =
        (g ++ if (windowOf rate key now st.datastore).length ≤ rate.max then [now] else []).map
          timestamp := by
      rw [limitReqLocal_fst]; simp only [hg]; split <;> simp
    by_cases hl : Entry.Live ⟨(limitReqLocal rate key now st.datastore).1,
        expiry now (some (delayOf rate.time))⟩ now'
    · refine ⟨_, ?_, (hsub.trans List.filter_sublist).append (List.Sublist.refl _), ?_⟩
      · rw [Store.get_of_live (setWithRetries_same _ _ _ _) hl, Option.getD_some, hlist]
      · rw [List.filter_append]
        exact ((young_sublist _ hle).trans hsup).append List.filter_sublist
    · -- The entry has expired: everything recorded is older than the window.
      refine ⟨[], ?_, List.nil_sublist _, ?_⟩
      · rw [Store.get_of_dead (setWithRetries_same _ _ _ _) hl]; rfl
      · have hend := le_of_not_expiry_live _ _ hl
        rw [List.filter_eq_nil_iff.mpr]
        intro t ht
        have : t ≤ now := by
          rcases List.mem_append.mp ht with ht | ht
          · obtain ⟨e, he, rfl⟩ := mem_recordedTimes ht; exact hnow e he
          · split at ht
            · simp at ht; omega
            · simp at ht
        simp; omega
  · -- Nothing was written, and nothing recorded: the window was full.
    rw [hsame, if_neg (by omega), List.append_nil]
    exact h now' hold

/-! ## The three bounds -/

/-- The list in the dictionary holds at most `max + 1` timestamps. -/
def Short (rate : Rate) (key : String) (st : Traced) : Prop :=
  ∀ e, st.datastore key = some e → e.value.length ≤ rate.max + 1

theorem serve_short {rate : Rate} {key : String} {st : Traced} (now : Nat)
    (h : Short rate key st) : Short rate key (serve rate key st now) := by
  intro e he
  rw [serve_datastore] at he
  rcases limitReqLocal_snd rate key now st.datastore with hset | ⟨hsame, -⟩
  · rw [hset, setWithRetries_same] at he
    cases he
    simp only [limitReqLocal_fst]
    split
    · simp; omega
    · -- The window is a part of the list that was stored, which was short.
      simp only [windowOf, Store.get]
      cases hst : st.datastore key with
      | none => simp
      | some e' =>
        simp only
        split
        · exact Nat.le_trans (List.length_filter_le _ _) (h e' hst)
        · simp
  · rw [hsame] at he; exact h e he

/-- At most `max` requests are let through in any `delay` seconds. -/
def Bounded (rate : Rate) (st : Traced) : Prop :=
  ∀ a, (letThrough st.log (delayOf rate.time) a).length ≤ rate.max

/-- What is let through is recorded. -/
def Honest (st : Traced) : Prop := ∀ e ∈ st.log, e.refused = false → e.recorded

theorem letThrough_length_le {log : List Logged} (hh : ∀ e ∈ log, e.refused = false → e.recorded)
    {delay a now : Nat} (hnow : now < a + 1000 * delay) :
    (letThrough log delay a).length ≤
      ((recordedTimes log).filter fun t => now < t + 1000 * delay).length := by
  rw [recordedTimes, List.filter_map, List.length_map, List.filter_filter, letThrough]
  refine List.Sublist.length_le ?_
  have e : (log.filter fun e => !e.refused && decide (a ≤ e.now ∧ e.now < a + 1000 * delay)) =
      (log.filter fun e => (fun t => decide (now < t + 1000 * delay)) e.now && e.recorded).filter
        fun e => !e.refused && decide (a ≤ e.now ∧ e.now < a + 1000 * delay) := by
    rw [List.filter_filter]
    refine List.filter_congr fun e he => ?_
    by_cases hr : e.refused = false
    · by_cases hw : a ≤ e.now ∧ e.now < a + 1000 * delay
      · simp [hr, hw, hh e he hr]; omega
      · simp [hw]
    · simp [hr]
  rw [e]; exact List.filter_sublist

theorem serve_honest {rate : Rate} {key : String} {st : Traced} (now : Nat) (h : Honest st) :
    Honest (serve rate key st now) := by
  intro e he
  rw [serve_log] at he
  rcases List.mem_append.mp he with he | he
  · exact h e he
  · rw [List.mem_singleton.mp he]
    simp only [decide_eq_false_iff_not, decide_eq_true_eq]
    omega

theorem serve_bounded {rate : Rate} {key : String} {st : Traced} {now : Nat}
    (h : Bounded rate st) (ht : Tracks rate key st) (hh : Honest st)
    (hnow : ∀ e ∈ st.log, e.now ≤ now) : Bounded rate (serve rate key st now) := by
  intro a
  rw [serve_log, letThrough, List.filter_append, List.length_append]
  have hold := h a
  rw [letThrough] at hold
  by_cases hpass : rate.max ≤ (windowOf rate key now st.datastore).length ∨
      ¬(a ≤ now ∧ now < a + 1000 * delayOf rate.time)
  · -- Refused, or outside: nothing is added to the window.
    rw [List.filter_singleton, Bool.cond_eq_ite, if_neg (by simp; omega)]
    simpa using hold
  · simp only [not_or, not_le, not_not] at hpass
    obtain ⟨hlt, ha, hb⟩ := hpass
    obtain ⟨g, hg, -, hsup⟩ := ht.window hnow
    have hcount := letThrough_length_le hh hb
    rw [letThrough] at hcount
    have hlen : (windowOf rate key now st.datastore).length = g.length := by rw [hg]; simp
    have := hsup.length_le
    have hone := List.length_filter_le
      (fun e => !e.refused && decide (a ≤ e.now ∧ e.now < a + 1000 * delayOf rate.time))
      [(⟨now, decide (rate.max ≤ (windowOf rate key now st.datastore).length),
        decide ((windowOf rate key now st.datastore).length ≤ rate.max)⟩ : Logged)]
    rw [List.length_singleton] at hone
    omega

/-- A refused request had `max` recorded requests in its window. -/
def Justified (rate : Rate) (st : Traced) : Prop :=
  ∀ pre e post, st.log = pre ++ e :: post → e.refused = true →
    rate.max ≤ (pre.filter fun r => r.recorded &&
      decide (InWindow (delayOf rate.time) (timestamp e.now) (timestamp r.now))).length

theorem serve_justified {rate : Rate} {key : String} {st : Traced} {now : Nat}
    (h : Justified rate st) (ht : Tracks rate key st) (hnow : ∀ e ∈ st.log, e.now ≤ now) :
    Justified rate (serve rate key st now) := by
  intro pre e post hlog hr
  rw [serve_log] at hlog
  rcases List.eq_nil_or_concat post with rfl | ⟨post', x, rfl⟩
  · obtain ⟨rfl, he⟩ := List.append_inj' hlog rfl
    simp only [List.cons.injEq, and_true] at he
    subst he
    simp only [decide_eq_true_eq] at hr
    obtain ⟨g, hg, hsub, -⟩ := ht.window hnow
    have hlen : (windowOf rate key now st.datastore).length = g.length := by rw [hg]; simp
    have := hsub.length_le
    rw [recordedTimes, List.filter_map, List.length_map, List.filter_filter] at this
    simp only [Bool.and_comm, Function.comp_def] at this ⊢
    omega
  · rw [List.concat_eq_append, ← List.cons_append, ← List.append_assoc] at hlog
    exact h pre e post' (List.append_inj' hlog rfl).1 hr

/-! ## Runs -/

/-- Everything that holds of every state of a run. -/
structure Good (rate : Rate) (key : String) (st : Traced) : Prop where
  tracks : Tracks rate key st
  honest : Honest st
  short : Short rate key st
  bounded : Bounded rate st
  justified : Justified rate st

/-- The clock does not go back. -/
def Clock (st : Traced) (now : Nat) : Prop := ∀ e ∈ st.log, e.now ≤ now

theorem serve_good {rate : Rate} {key : String} {st : Traced} {now : Nat} (h : Good rate key st)
    (hc : Clock st now) : Good rate key (serve rate key st now) where
  tracks := serve_tracks h.tracks hc
  honest := serve_honest now h.honest
  short := serve_short now h.short
  bounded := serve_bounded h.bounded h.tracks h.honest hc
  justified := serve_justified h.justified h.tracks hc

theorem good_init {rate : Rate} {key : String} {datastore : Store String (List Nat)}
    (h : datastore key = none) : Good rate key ⟨datastore, []⟩ where
  tracks := fun now _ => ⟨[], by simp [Store.get_of_none h], by simp, by simp [recordedTimes]⟩
  honest := by simp [Honest]
  short := by simp [Short, h]
  bounded := by simp [Bounded, letThrough]
  justified := by simp [Justified]

/-- Instants in order are a run whose clock does not go back. -/
theorem meets_clock {rate : Rate} {key : String} {st : Traced} {times : List Nat}
    (hs : times.Pairwise (· ≤ ·)) (h : ∀ t ∈ times, Clock st t) :
    Run.Meets (serve rate key) Clock st times := by
  induction times generalizing st with
  | nil => trivial
  | cons t ts ih =>
    refine ⟨h t List.mem_cons_self, ih hs.of_cons fun t' ht' e he => ?_⟩
    rw [serve_log] at he
    rcases List.mem_append.mp he with he | he
    · exact h t' (List.mem_cons_of_mem _ ht') e he
    · rw [List.mem_singleton.mp he]; exact List.rel_of_pairwise_cons hs ht'

/-- **The local limiter.** For every rate and every sequence of requests for one key at instants
that never go back: in every window of `delay` seconds at most `max` requests are let through; a
request is refused only if `max` earlier recorded requests lie in its window; and the stored list
never holds more than `max + 1` timestamps. -/
theorem sliding_window (rate : Rate) (key : String) (datastore : Store String (List Nat))
    (hnew : datastore key = none) (times : List Nat) (hclock : times.Pairwise (· ≤ ·)) :
    let st := Run.run (serve rate key) ⟨datastore, []⟩ times
    (∀ a, (letThrough st.log (delayOf rate.time) a).length ≤ rate.max) ∧
    (∀ pre e post, st.log = pre ++ e :: post → e.refused = true →
      rate.max ≤ (pre.filter fun r => r.recorded &&
        decide (InWindow (delayOf rate.time) (timestamp e.now) (timestamp r.now))).length) ∧
    (∀ e, st.datastore key = some e → e.value.length ≤ rate.max + 1) := by
  have hg : Good rate key (Run.run (serve rate key) ⟨datastore, []⟩ times) :=
    Run.invariant (fun _ _ h hc => serve_good h hc) (good_init hnew)
      (meets_clock hclock (by simp [Clock]))
  exact ⟨hg.bounded, hg.justified, hg.short⟩

/-- Two requests a second, three in the same second and one after the entry has expired. -/
theorem sliding_window_two_per_second :
    let st := Run.run (serve ⟨2, 's'⟩ "plugin_limit_a1.2.3.4/") ⟨Store.empty, []⟩
      [0, 400, 900, 1950]
    (∀ a, (letThrough st.log 1 a).length ≤ 2) ∧
    (∀ pre e post, st.log = pre ++ e :: post → e.refused = true →
      2 ≤ (pre.filter fun r => r.recorded &&
        decide (InWindow 1 (timestamp e.now) (timestamp r.now))).length) ∧
    (∀ e, st.datastore "plugin_limit_a1.2.3.4/" = some e → e.value.length ≤ 3) :=
  sliding_window ⟨2, 's'⟩ _ _ rfl _ (by decide)

end BunkerWeb.Lua.Limit
