import BunkerWeb.Keys
import BunkerWeb.Lib.Keyed
import BunkerWeb.Lib.Run
import BunkerWeb.Lua.Limit

/-!
# The counter of a whole service (`limit:limit_req_global`)

All requests to a service are counted together, in a counter for each window of the rate's unit.
With Redis the counter is one `INCR`; without, a worker of nginx reads it from the dictionary that
all workers share and then writes it back.

- **The system** (`step`): any number of workers, each in the middle of a request or not; the clock
  may move between any two accesses to the dictionary.
- **The invariant** (`Exact`): the entry of every window is the number of the requests counted in
  it, for as long as the window lasts.
- **The result** (`exact_run`): the invariant, and with it the limit, holds in every run in which no
  worker reads a counter that another one is about to write.
- **Redis** (`redis_eq_local`): the script counts as the local path does when nobody else reads in
  between.
-/

namespace BunkerWeb.Lua.LimitGlobal

open Lib Limit

/-- `limit_global_delay`. -/
def limitGlobalDelay : Char → Nat
  | 's' => 1
  | 'm' => 60
  | 'h' => 3600
  | 'd' => 86400
  | _ => 1

/-- `math.floor(time(date("!*t")) / delay)`. -/
def windowAt (rateTime : Char) (now : Nat) : Nat := timestamp now / limitGlobalDelay rateTime

/-- The key of a window, in the dictionary and in Redis. -/
def windowKey (serverName : String) (window : Nat) : String :=
  joinKey ("plugin_limit_global_" ++ serverName) (toString window)

/-- The first half of `limit:limit_req_global_local`: the count that a reader makes of what it
finds. -/
def readCount (serverName : String) (window now : Nat) (datastore : Store String Nat) : Nat :=
  match datastore.get now (windowKey serverName window) with
  | some value => value + 1
  | none => 1

/-- The second half: the counter is written back, to live for one more window. -/
def writeCount (rateTime : Char) (serverName : String) (window count now : Nat)
    (datastore : Store String Nat) : Store String Nat :=
  setWithRetries datastore now (windowKey serverName window) count
    (some (limitGlobalDelay rateTime))

/-- `limit:limit_req_global_local` of a worker that is alone: the count, and the dictionary. -/
def limitReqGlobalLocal (rateTime : Char) (serverName : String) (now : Nat)
    (datastore : Store String Nat) : Nat × Store String Nat :=
  let window := windowAt rateTime now
  let count := readCount serverName window now datastore
  (count, writeCount rateTime serverName window count now datastore)

/-- The script of `limit:limit_req_global_redis`: `INCR`, and `EXPIRE` of a new counter. -/
def limitReqGlobalRedis (rateTime : Char) (serverName : String) (now : Nat)
    (redis : Store String Nat) : Nat × Store String Nat :=
  let key := windowKey serverName (windowAt rateTime now)
  match redis.get now key with
  | none => (1, redis.put key ⟨1, some (now + 1000 * limitGlobalDelay rateTime)⟩)
  | some value =>
    (value + 1, redis.put key ⟨value + 1, (redis key).bind Entry.expires⟩)

/-! ## The workers -/

/-- A request between its read and its write. -/
structure Pending where
  serverName : String
  window : Nat
  count : Nat
  deriving DecidableEq, Repr

/-- A request that was counted, and whether it was refused. -/
structure Counted where
  serverName : String
  window : Nat
  refused : Bool
  deriving DecidableEq, Repr

/-- The instance: the clock, the dictionary, what each worker is in the middle of, and the requests
that were counted. -/
structure State (W : Type*) where
  now : Nat
  datastore : Store String Nat
  pending : W → Option Pending
  log : List Counted

inductive Input (W : Type*) where
  /-- Time passes. -/
  | tick (elapsed : Nat)
  /-- `self.datastore:get(key)` of a worker for a request to a service. -/
  | get (worker : W) (serverName : String)
  /-- `self.datastore:set_with_retries(key, tostring(count), delay)`, and the decision. -/
  | set (worker : W)

section

variable {W : Type*} [DecidableEq W] (rates : String → Rate)

def step (s : State W) : Input W → State W
  | .tick elapsed => { s with now := s.now + elapsed }
  | .get worker serverName =>
    match s.pending worker with
    | some _ => s
    | none =>
      let window := windowAt (rates serverName).time s.now
      { s with
        pending := Function.update s.pending worker
          (some ⟨serverName, window, readCount serverName window s.now s.datastore⟩) }
  | .set worker =>
    match s.pending worker with
    | none => s
    | some p =>
      { s with
        datastore := writeCount (rates p.serverName).time p.serverName p.window p.count s.now
          s.datastore
        pending := Function.update s.pending worker none
        log := s.log ++ [⟨p.serverName, p.window, decide ((rates p.serverName).max < p.count)⟩] }

/-- No request has come in. -/
def start (W : Type*) (now : Nat) : State W := ⟨now, Store.empty, fun _ => none, []⟩

/-- The requests counted in a window of a service. -/
def countedIn (log : List Counted) (serverName : String) (window : Nat) : Nat :=
  log.countP fun c => c.serverName = serverName ∧ c.window = window

/-- Those of them that were let through. -/
def letThrough (log : List Counted) (serverName : String) (window : Nat) : Nat :=
  log.countP fun c => c.serverName = serverName ∧ c.window = window ∧ c.refused = false

/-- Some worker is about to write the counter of a window. -/
def Busy (s : State W) (serverName : String) (window : Nat) : Prop :=
  ∃ worker p, s.pending worker = some p ∧ p.serverName = serverName ∧ p.window = window

/-- A worker does not read a counter that another one is about to write. -/
def Alone (s : State W) : Input W → Prop
  | .tick _ => True
  | .get _ serverName => ¬ Busy s serverName (windowAt (rates serverName).time s.now)
  | .set _ => True

/-- When nobody is about to write it, the counter of the current window is the number of requests
counted in that window; and no window has more requests let through than the rate allows. -/
def NoLostIncrement (s : State W) : Prop :=
  (∀ serverName, ¬ Busy s serverName (windowAt (rates serverName).time s.now) →
    (s.datastore.get s.now (windowKey serverName (windowAt (rates serverName).time s.now))).getD 0 =
      countedIn s.log serverName (windowAt (rates serverName).time s.now)) ∧
  ∀ serverName window, letThrough s.log serverName window ≤ (rates serverName).max

end

/-! ## Keys and windows -/

theorem limitGlobalDelay_pos (rateTime : Char) : 0 < limitGlobalDelay rateTime := by
  unfold limitGlobalDelay
  split <;> decide

/-- The window number ends the key. -/
theorem windowKey_inj {s s' : String} {k k' : Nat} (h : windowKey s k = windowKey s' k') :
    s = s' ∧ k = k' := by
  have hdigits (n : Nat) : '_' ∉ (toString n).toList := fun hc =>
    absurd (isDigit_toString _ hc) (by decide)
  obtain ⟨hs, hk⟩ := joinKey_inj_of_last (hdigits k) (hdigits k') h
  refine ⟨String.toList_inj.mp ?_, ?_⟩
  · have hl := congrArg String.toList hs
    rw [String.toList_append, String.toList_append] at hl
    exact List.append_cancel_left hl
  · rw [← parseInt_toString k, hk, parseInt_toString]

/-- The instant at which a window begins, and that at which it is over. -/
def windowStart (rateTime : Char) (window : Nat) : Nat :=
  1000 * (limitGlobalDelay rateTime * window)

def windowEnd (rateTime : Char) (window : Nat) : Nat :=
  windowStart rateTime window + 1000 * limitGlobalDelay rateTime

theorem windowStart_le (rateTime : Char) (now : Nat) :
    windowStart rateTime (windowAt rateTime now) ≤ now := by
  have := Nat.mul_div_le (now / 1000) (limitGlobalDelay rateTime)
  simp only [windowStart, windowAt, timestamp]
  omega

theorem lt_windowEnd (rateTime : Char) (now : Nat) :
    now < windowEnd rateTime (windowAt rateTime now) := by
  have := Nat.lt_mul_div_succ (now / 1000) (limitGlobalDelay_pos rateTime)
  simp only [windowEnd, windowStart, windowAt, timestamp, Nat.mul_add] at this ⊢
  omega

/-! ## What a step does to the counts -/

theorem countedIn_append (log : List Counted) (c : Counted) (serverName : String) (window : Nat) :
    countedIn (log ++ [c]) serverName window = countedIn log serverName window +
      if c.serverName = serverName ∧ c.window = window then 1 else 0 := by
  by_cases h : c.serverName = serverName ∧ c.window = window <;>
    simp [countedIn, List.countP_append, h]

theorem letThrough_append (log : List Counted) (c : Counted) (serverName : String)
    (window : Nat) :
    letThrough (log ++ [c]) serverName window = letThrough log serverName window +
      if c.serverName = serverName ∧ c.window = window ∧ c.refused = false then 1 else 0 := by
  by_cases h : c.serverName = serverName ∧ c.window = window ∧ c.refused = false <;>
    simp [letThrough, List.countP_append, h]

/-- The entry of a window holds `n`, until the window is over; no entry stands for 0. -/
def Holds (rateTime : Char) (serverName : String) (window n : Nat) (datastore : Store String Nat) :
    Prop :=
  (n = 0 ∧ datastore (windowKey serverName window) = none) ∨
  0 < n ∧ ∃ t, windowEnd rateTime window ≤ t ∧
    datastore (windowKey serverName window) = some ⟨n, some t⟩

section

variable {rateTime : Char} {serverName : String} {window n now : Nat}
  {datastore : Store String Nat}

/-- During its window a counter can be read. -/
theorem Holds.get (h : Holds rateTime serverName window n datastore)
    (hnow : now < windowEnd rateTime window) :
    datastore.get now (windowKey serverName window) = if n = 0 then none else some n := by
  rcases h with ⟨rfl, h⟩ | ⟨hn, t, ht, h⟩
  · exact Store.get_of_none h
  · rw [if_neg (by omega)]
    exact Store.get_of_live h (Entry.live_some.mpr (by omega))

theorem Holds.readCount (h : Holds rateTime serverName window n datastore)
    (hnow : now < windowEnd rateTime window) :
    readCount serverName window now datastore = n + 1 := by
  rw [LimitGlobal.readCount, h.get hnow]
  cases n <;> rfl

/-- What is written after the window began lasts until it is over. -/
theorem holds_writeCount (hn : 0 < n) (hnow : windowStart rateTime window ≤ now)
    (datastore : Store String Nat) :
    Holds rateTime serverName window n
      (writeCount rateTime serverName window n now datastore) := by
  obtain ⟨d, hd⟩ : ∃ d, limitGlobalDelay rateTime = d + 1 :=
    ⟨_, (Nat.succ_pred_eq_of_pos (limitGlobalDelay_pos rateTime)).symm⟩
  refine .inr ⟨hn, now + 1000 * (d + 1), ?_, ?_⟩
  · simp only [windowEnd, hd]
    omega
  · simp [writeCount, setWithRetries, expiry, hd]

theorem writeCount_of_ne {s : String} {k m : Nat} (h : ¬ (serverName = s ∧ window = k)) :
    writeCount rateTime serverName window m now datastore (windowKey s k) =
      datastore (windowKey s k) :=
  setWithRetries_of_ne _ _ _ _ fun he => h (by
    obtain ⟨rfl, rfl⟩ := windowKey_inj he
    exact ⟨rfl, rfl⟩)

theorem Holds.congr {datastore' : Store String Nat}
    (h : Holds rateTime serverName window n datastore)
    (he : datastore' (windowKey serverName window) = datastore (windowKey serverName window)) :
    Holds rateTime serverName window n datastore' := by
  rw [Holds, he]
  exact h

end

/-! ## The invariant -/

section

variable {W : Type*} {rates : String → Rate}

/-- The counter of every window is the number of requests counted in it; a worker in the middle of
a request is the only one at its counter and is about to add one to it. -/
structure Exact (rates : String → Rate) (s : State W) : Prop where
  holds : ∀ serverName window,
    Holds (rates serverName).time serverName window (countedIn s.log serverName window) s.datastore
  count : ∀ worker p, s.pending worker = some p →
    p.count = countedIn s.log p.serverName p.window + 1
  begun : ∀ worker p, s.pending worker = some p →
    windowStart (rates p.serverName).time p.window ≤ s.now
  unique : ∀ w w' p p', s.pending w = some p → s.pending w' = some p' →
    p.serverName = p'.serverName → p.window = p'.window → w = w'
  letThrough : ∀ serverName window, letThrough s.log serverName window =
    min (countedIn s.log serverName window) (rates serverName).max

theorem exact_start (rates : String → Rate) (now : Nat) : Exact rates (start W now) where
  holds _ _ := .inl ⟨rfl, rfl⟩
  count _ _ h := by cases h
  begun _ _ h := by cases h
  unique _ _ _ _ h := by cases h
  letThrough _ _ := (Nat.zero_min _).symm

theorem Exact.noLostIncrement {s : State W} (h : Exact rates s) : NoLostIncrement rates s := by
  refine ⟨fun serverName _ => ?_, fun serverName window => ?_⟩
  · rw [(h.holds _ _).get (lt_windowEnd _ _)]
    split
    · rename_i h0
      exact h0.symm
    · rfl
  · rw [h.letThrough]
    exact Nat.min_le_right _ _

variable [DecidableEq W]

theorem exact_get {s : State W} {worker : W} {serverName : String} (h : Exact rates s)
    (halone : ¬ Busy s serverName (windowAt (rates serverName).time s.now)) :
    Exact rates (step rates s (.get worker serverName)) := by
  cases hp : s.pending worker with
  | some p => simpa only [step, hp] using h
  | none =>
    simp only [step, hp]
    -- Who is in the middle of a request afterwards.
    have hpending {w : W} {p : Pending} (hw : Function.update s.pending worker (some
        ⟨serverName, windowAt (rates serverName).time s.now,
          readCount serverName (windowAt (rates serverName).time s.now) s.now s.datastore⟩) w =
        some p) :
        (w = worker ∧ p.serverName = serverName ∧
          p.window = windowAt (rates serverName).time s.now ∧
          p.count = countedIn s.log p.serverName p.window + 1) ∨ s.pending w = some p := by
      by_cases hwk : w = worker
      · subst hwk
        rw [Function.update_self] at hw
        cases hw
        exact .inl ⟨rfl, rfl, rfl, (h.holds _ _).readCount (lt_windowEnd _ _)⟩
      · rw [Function.update_of_ne hwk] at hw
        exact .inr hw
    refine ⟨h.holds, fun w p hw => ?_, fun w p hw => ?_, fun w w' p p' hw hw' hs hk => ?_,
      h.letThrough⟩
    · rcases hpending hw with ⟨-, -, -, hc⟩ | hw
      · exact hc
      · exact h.count w p hw
    · rcases hpending hw with ⟨-, hs, hk, -⟩ | hw
      · rw [hs, hk]
        exact windowStart_le _ _
      · exact h.begun w p hw
    · rcases hpending hw with ⟨hwk, hs₁, hk₁, -⟩ | hold <;>
        rcases hpending hw' with ⟨hwk', hs₂, hk₂, -⟩ | hold'
      · exact hwk.trans hwk'.symm
      · exact absurd ⟨w', p', hold', hs ▸ hs₁, hk ▸ hk₁⟩ halone
      · exact absurd ⟨w, p, hold, hs.trans hs₂, hk.trans hk₂⟩ halone
      · exact h.unique w w' p p' hold hold' hs hk

theorem exact_set {s : State W} {worker : W} (h : Exact rates s) :
    Exact rates (step rates s (.set worker)) := by
  cases hp : s.pending worker with
  | none => simpa only [step, hp] using h
  | some p =>
    simp only [step, hp]
    have hcount := h.count worker p hp
    -- The others are at other counters.
    have hother {w : W} {q : Pending} (hw : Function.update s.pending worker none w = some q) :
        s.pending w = some q ∧ ¬ (p.serverName = q.serverName ∧ p.window = q.window) := by
      by_cases hwk : w = worker
      · subst hwk
        rw [Function.update_self] at hw
        cases hw
      · rw [Function.update_of_ne hwk] at hw
        exact ⟨hw, fun hq => hwk (h.unique worker w p q hp hw hq.1 hq.2).symm⟩
    refine ⟨fun sn k => ?_, fun w q hw => ?_, fun w q hw => h.begun w q (hother hw).1,
      fun w w' q q' hw hw' => h.unique w w' q q' (hother hw).1 (hother hw').1, fun sn k => ?_⟩
    · rw [countedIn_append]
      by_cases hk : p.serverName = sn ∧ p.window = k
      · obtain ⟨rfl, rfl⟩ := hk
        rw [if_pos ⟨rfl, rfl⟩, ← hcount]
        exact holds_writeCount (by omega) (h.begun worker p hp) _
      · rw [if_neg hk, Nat.add_zero]
        exact (h.holds sn k).congr (writeCount_of_ne hk)
    · obtain ⟨hw, hne⟩ := hother hw
      rw [countedIn_append, if_neg hne, Nat.add_zero]
      exact h.count w q hw
    · rw [countedIn_append, letThrough_append, h.letThrough]
      by_cases hk : p.serverName = sn ∧ p.window = k
      · obtain ⟨rfl, rfl⟩ := hk
        simp only [and_self, true_and, if_true, decide_eq_false_iff_not]
        split <;> omega
      · rw [if_neg hk, if_neg fun h => hk ⟨h.1, h.2.1⟩, Nat.add_zero]
        rfl

theorem exact_step {s : State W} {i : Input W} (h : Exact rates s) (hi : Alone rates s i) :
    Exact rates (step rates s i) := by
  cases i with
  | tick elapsed =>
    exact ⟨h.holds, h.count, fun w p hw => (h.begun w p hw).trans (Nat.le_add_right _ _), h.unique,
      h.letThrough⟩
  | get worker serverName => exact exact_get h hi
  | set worker => exact exact_set h

/-- In every run in which no worker reads a counter that another one is about to write, no
increment is lost and no window lets through more than its rate. -/
theorem exact_run (rates : String → Rate) (now : Nat) (is : List (Input W))
    (halone : Run.Meets (step rates) (Alone rates) (start W now) is) :
    NoLostIncrement rates (Run.run (step rates) (start W now) is) :=
  (Run.invariant (fun _ _ => exact_step) (exact_start rates now) halone).noLostIncrement

end

/-- Two workers, the second one after the first. -/
theorem exact_run_one_by_one :
    NoLostIncrement (fun _ => ⟨1, 's'⟩)
      (Run.run (step fun _ => ⟨1, 's'⟩) (start Bool 0)
        [.get true "www.example.com", .set true, .get false "www.example.com", .set false]) := by
  refine exact_run _ 0 _ ⟨?_, trivial, ?_, trivial, trivial⟩
  · rintro ⟨worker, p, hp, -⟩
    cases hp
  · rintro ⟨worker, p, hp, -⟩
    cases worker <;> cases hp

/-- Both workers read before one of them writes: both requests pass, at a rate of one. -/
theorem two_reads_before_a_write :
    ¬ ∀ (rates : String → Rate) (now : Nat) (is : List (Input Bool)),
      NoLostIncrement rates (Run.run (step rates) (start Bool now) is) := by
  intro h
  have := (h (fun _ => ⟨1, 's'⟩) 0 [.get true "www.example.com", .get false "www.example.com",
    .set true, .set false]).2 "www.example.com" 0
  exact absurd this (by decide)

/-! ## The script in Redis -/

/-- A request to a service, some time after the one before. -/
structure Call where
  serverName : String
  elapsed : Nat
  deriving DecidableEq, Repr

section

variable (rates : String → Rate)

/-- A request counted in the dictionary, by the only worker. -/
def localCall (s : Nat × Store String Nat) (c : Call) : Nat × (Nat × Store String Nat) :=
  let now := s.1 + c.elapsed
  let (count, datastore) := limitReqGlobalLocal (rates c.serverName).time c.serverName now s.2
  (count, now, datastore)

/-- A request counted in Redis. -/
def redisCall (s : Nat × Store String Nat) (c : Call) : Nat × (Nat × Store String Nat) :=
  let now := s.1 + c.elapsed
  let (count, redis) := limitReqGlobalRedis (rates c.serverName).time c.serverName now s.2
  (count, now, redis)

/-- The counters of the windows that are not over hold the same counts. -/
def SameCounts (now : Nat) (datastore redis : Store String Nat) : Prop :=
  ∀ serverName window, windowAt (rates serverName).time now ≤ window →
    ∃ n, Holds (rates serverName).time serverName window n datastore ∧
      Holds (rates serverName).time serverName window n redis

variable {rates} {now : Nat} {datastore redis : Store String Nat}

theorem windowAt_mono (rateTime : Char) {now now' : Nat} (h : now ≤ now') :
    windowAt rateTime now ≤ windowAt rateTime now' :=
  Nat.div_le_div_right (timestamp_mono h)

theorem SameCounts.later (h : SameCounts rates now datastore redis) {now' : Nat}
    (hle : now ≤ now') : SameCounts rates now' datastore redis :=
  fun serverName window hw => h serverName window ((windowAt_mono _ hle).trans hw)

/-- The script leaves the next number in the counter, with the expiry of the first one. -/
theorem limitReqGlobalRedis_of_holds {rateTime : Char} {serverName : String} {n : Nat}
    (h : Holds rateTime serverName (windowAt rateTime now) n redis) :
    (limitReqGlobalRedis rateTime serverName now redis).1 = n + 1 ∧
      Holds rateTime serverName (windowAt rateTime now) (n + 1)
        (limitReqGlobalRedis rateTime serverName now redis).2 := by
  have hget := h.get (lt_windowEnd rateTime now)
  rcases h with ⟨rfl, h⟩ | ⟨hn, t, ht, h⟩
  · simp only [limitReqGlobalRedis, hget, if_true]
    refine ⟨trivial, .inr ⟨by omega, _, ?_, Store.put_same _ _ _⟩⟩
    have := windowStart_le rateTime now
    rw [windowEnd]
    omega
  · simp only [limitReqGlobalRedis, hget, if_neg (show n ≠ 0 by omega), h]
    exact ⟨trivial, .inr ⟨by omega, t, ht, Store.put_same _ _ _⟩⟩

theorem limitReqGlobalRedis_of_ne {rateTime : Char} {serverName s : String} {k : Nat}
    (h : ¬ (serverName = s ∧ windowAt rateTime now = k)) :
    (limitReqGlobalRedis rateTime serverName now redis).2 (windowKey s k) =
      redis (windowKey s k) := by
  have hne : windowKey s k ≠ windowKey serverName (windowAt rateTime now) := fun he => h (by
    obtain ⟨rfl, rfl⟩ := windowKey_inj he
    exact ⟨rfl, rfl⟩)
  simp only [limitReqGlobalRedis]
  split <;> exact Store.put_of_ne _ _ hne

theorem SameCounts.call (h : SameCounts rates now datastore redis) (c : Call) :
    (localCall rates (now, datastore) c).1 = (redisCall rates (now, redis) c).1 ∧
      SameCounts rates (now + c.elapsed) (localCall rates (now, datastore) c).2.2
        (redisCall rates (now, redis) c).2.2 := by
  have hlater := h.later (Nat.le_add_right now c.elapsed)
  obtain ⟨n, hd, hr⟩ := hlater c.serverName _ le_rfl
  obtain ⟨hcount, hholds⟩ := limitReqGlobalRedis_of_holds hr
  have hread := hd.readCount (lt_windowEnd _ (now + c.elapsed))
  refine ⟨hread.trans hcount.symm, fun serverName window hw => ?_⟩
  by_cases hk : c.serverName = serverName ∧
      windowAt (rates c.serverName).time (now + c.elapsed) = window
  · obtain ⟨rfl, rfl⟩ := hk
    refine ⟨n + 1, ?_, hholds⟩
    simp only [localCall, limitReqGlobalLocal, hread]
    exact holds_writeCount (Nat.succ_pos n) (windowStart_le _ _) _
  · obtain ⟨m, hd', hr'⟩ := hlater serverName window hw
    exact ⟨m, hd'.congr (writeCount_of_ne hk), hr'.congr (limitReqGlobalRedis_of_ne hk)⟩

/-- The script counts what the local path counts when nobody reads in between. -/
theorem redis_eq_local (h : SameCounts rates now datastore redis) (cs : List Call) :
    Keyed.outputs (redisCall rates) (now, redis) cs =
      Keyed.outputs (localCall rates) (now, datastore) cs := by
  induction cs generalizing now datastore redis with
  | nil => rfl
  | cons c cs ih =>
    obtain ⟨hcount, hafter⟩ := h.call c
    rw [Keyed.outputs, Keyed.outputs, hcount]
    exact congrArg _ (ih hafter)

/-- Two stores without a counter hold the same counts. -/
theorem sameCounts_empty (rates : String → Rate) (now : Nat) :
    SameCounts rates now Store.empty Store.empty :=
  fun _ _ _ => ⟨0, .inl ⟨rfl, rfl⟩, .inl ⟨rfl, rfl⟩⟩

end

/-- A worker that reads and writes at once does what the local path does. -/
theorem get_set_eq {W : Type*} [DecidableEq W] (rates : String → Rate) {s : State W} {worker : W}
    (h : s.pending worker = none) (serverName : String) :
    (step rates (step rates s (.get worker serverName)) (.set worker)).datastore =
      (limitReqGlobalLocal (rates serverName).time serverName s.now s.datastore).2 := by
  simp [step, h, limitReqGlobalLocal]

end BunkerWeb.Lua.LimitGlobal
