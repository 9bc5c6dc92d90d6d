import BunkerWeb.Lib.Run
import BunkerWeb.Lua.Datastore

/-!
# The request limiter (`core/limit/limit.lua`)

Each key has a list of the whole seconds at which requests were recorded, kept in the local
dictionary as JSON and, with Redis, in a Redis string. The model keeps the list itself: encoding
it and decoding it again is the identity on the lists of numbers that the code writes.

A request is limited when the list that its own call computes holds more than `max` timestamps.
The list is pruned and extended by `limitReqTimestamps`; the Redis script (`redisScript`) is a
second copy of the same code that runs inside Redis.
-/

namespace BunkerWeb.Lua.Limit

open Lib

/-- A rate `<max>r/<time>`, as `limit:access` splits it. -/
structure Rate where
  max : Nat
  time : Char
  deriving DecidableEq, Repr

/-- The seconds of a unit (`delay` in the code). -/
def delayOf : Char → Nat
  | 's' => 1
  | 'm' => 60
  | 'h' => 3600
  | 'd' => 86400
  | _ => 0

/-- "Keep only timestamp within the delay": whether one was dropped, and the rest. -/
def prune (delay current : Nat) : List Nat → Bool × List Nat
  | [] => (false, [])
  | t :: ts =>
    let (updated, kept) := prune delay current ts
    if current - t ≤ delay then (updated, t :: kept) else (true, kept)

/-- `limit_req_timestamps`: whether the list changed, the new list and the delay. -/
def limitReqTimestamps (rate : Rate) (current : Nat) (timestamps : List Nat) :
    Bool × List Nat × Nat :=
  let delay := delayOf rate.time
  let (updated, new) := prune delay current timestamps
  -- A client that is limited already is not recorded again.
  if new.length ≤ rate.max then (true, new ++ [current], delay) else (updated, new, delay)

/-- The key of a request, in the dictionary and in Redis. -/
def limitKey (serverName remoteAddr uri : String) : String :=
  "plugin_limit_" ++ serverName ++ remoteAddr ++ uri

/-- `limit:limit_req_local`: the new timestamps, and the dictionary after the call. -/
def limitReqLocal (rate : Rate) (key : String) (now : Nat) (datastore : Store String (List Nat)) :
    List Nat × Store String (List Nat) :=
  let timestamps := (datastore.get now key).getD []
  let (updated, new, delay) := limitReqTimestamps rate (timestamp now) timestamps
  (new, if updated then setWithRetries datastore now key new (some delay) else datastore)

/-- The Redis script of `limit:limit_req_redis`. `SET .. EX 0` is an error in Redis, which the
script returns; the caller then takes the call for a failed one (`none`). -/
def redisScript (rate : Rate) (key : String) (now : Nat) (redis : Store String (List Nat)) :
    Option (List Nat) × Store String (List Nat) :=
  let timestamps := (redis.get now key).getD []
  let delay := delayOf rate.time
  let (pruned, kept) := prune delay (timestamp now) timestamps
  let (updated, new) :=
    if kept.length ≤ rate.max then (true, kept ++ [timestamp now]) else (pruned, kept)
  if updated then
    if delay = 0 then (none, redis) else (some new, redis.put key ⟨new, some (now + 1000 * delay)⟩)
  else (some new, redis)

/-- The two stores of the limiter: the dictionary of the instance, and Redis. -/
structure State where
  datastore : Store String (List Nat)
  redis : Store String (List Nat)

/-- `limit:limit_req`: the timestamps it decides on, and the stores after it. `redisUp` is what
Redis answers to the connection: with `false` the code falls back to the local list. -/
def limitReq (rate : Rate) (key : String) (now : Nat) (useRedis redisUp : Bool) (st : State) :
    List Nat × State :=
  let localPath (redis : Store String (List Nat)) : List Nat × State :=
    let (new, datastore) := limitReqLocal rate key now st.datastore
    (new, ⟨datastore, redis⟩)
  if useRedis && redisUp then
    match redisScript rate key now st.redis with
    -- The code passes `delay` as the expiry, but no variable of that name is in scope in
    -- `limit:limit_req`: the dictionary gets `nil`.
    | (some new, redis) => (new, ⟨setWithRetries st.datastore now key new none, redis⟩)
    | (none, redis) => localPath redis
  else localPath st.redis

/-- The decision: `true` refuses the request. -/
def limited (rate : Rate) (timestamps : List Nat) : Bool := decide (rate.max < timestamps.length)

/-! ## The pruning loop -/

/-- The timestamp is inside the window of the request at `current` seconds. -/
def InWindow (delay current t : Nat) : Prop := current - t ≤ delay

instance (delay current t : Nat) : Decidable (InWindow delay current t) :=
  inferInstanceAs (Decidable (_ ≤ _))

theorem prune_eq (delay current : Nat) (timestamps : List Nat) :
    prune delay current timestamps =
      (timestamps.any (¬ InWindow delay current ·), timestamps.filter (InWindow delay current ·)) := by
  induction timestamps with
  | nil => rfl
  | cons t ts ih =>
    by_cases ht : InWindow delay current t
    · have hle : current - t ≤ delay := ht
      simp only [prune, ih, if_pos hle]
      simp [ht]
    · have hle : ¬ current - t ≤ delay := ht
      simp only [prune, ih, if_neg hle]
      simp [ht]

section

variable {rate : Rate} {current : Nat} {timestamps : List Nat}

/-- The window has room: the request's own timestamp follows those of the window. -/
theorem limitReqTimestamps_of_le
    (h : (timestamps.filter (InWindow (delayOf rate.time) current ·)).length ≤ rate.max) :
    limitReqTimestamps rate current timestamps =
      (true, timestamps.filter (InWindow (delayOf rate.time) current ·) ++ [current],
        delayOf rate.time) := by
  simp [limitReqTimestamps, prune_eq, h]

/-- The window already holds more than `max`: it is the list. -/
theorem limitReqTimestamps_of_lt
    (h : rate.max < (timestamps.filter (InWindow (delayOf rate.time) current ·)).length) :
    limitReqTimestamps rate current timestamps =
      (timestamps.any (¬ InWindow (delayOf rate.time) current ·),
        timestamps.filter (InWindow (delayOf rate.time) current ·), delayOf rate.time) := by
  simp [limitReqTimestamps, prune_eq, Nat.not_le.mpr h]

end

/-- The copy inside Redis computes what the local path computes, on the list it finds there. -/
theorem redisScript_eq {rate : Rate} (hd : 0 < delayOf rate.time) (key : String) (now : Nat)
    (redis : Store String (List Nat)) :
    redisScript rate key now redis =
      ((limitReqLocal rate key now redis).1, (limitReqLocal rate key now redis).2).map some id := by
  obtain ⟨s, hs⟩ : ∃ s, delayOf rate.time = s + 1 := ⟨_, (Nat.succ_pred_eq_of_pos hd).symm⟩
  simp only [redisScript, limitReqLocal, limitReqTimestamps]
  split <;> split <;> simp_all [setWithRetries, expiry]

end BunkerWeb.Lua.Limit

/-!
## The Redis path of the limiter against the local one

With Redis, `limit:limit_req` runs the script and then writes the timestamps it got into the
dictionary, from where a later call takes them when Redis does not answer. `Refines` is what that
arrangement is for. Its decisions part holds (`redis_decisions`): the script keeps in Redis the
list that the local path keeps in the dictionary. Its second part never does
(`refines_iff_no_request`): `delay` is not defined where the copy is written, so the copy never
expires, and a call that falls back on it can refuse what the local path lets through.
-/

namespace BunkerWeb.Lua.Limit

open Lib

/-- One call of `limit_req`: its instant, and whether Redis answers. -/
structure Call where
  now : Nat
  redisUp : Bool
  deriving DecidableEq, Repr

/-- The stores, and the lists that the calls so far decided on, the oldest first. -/
structure Answered where
  stores : State
  answers : List (List Nat)

/-- One request for `key`. -/
def answer (rate : Rate) (key : String) (useRedis : Bool) (st : Answered) (c : Call) : Answered :=
  let (new, stores) := limitReq rate key c.now useRedis c.redisUp st.stores
  ⟨stores, st.answers ++ [new]⟩

/-- The run of the calls from stores without an answer yet. -/
def runCalls (rate : Rate) (key : String) (useRedis : Bool) (stores : State) (cs : List Call) :
    Answered :=
  Run.run (answer rate key useRedis) ⟨stores, []⟩ cs

/-- The decisions of a run, the oldest first. -/
def decisions (rate : Rate) (st : Answered) : List Bool := st.answers.map (limited rate)

/-- Calls that Redis answers, or does not. -/
def calls (redisUp : Bool) (times : List Nat) : List Call := times.map fun t => ⟨t, redisUp⟩

/-- What the Redis path has to do on a sequence of requests: decide as the local path does, leave
a copy with the same timestamps and a finite expiry in the dictionary, and so allow the calls to
fall back on the dictionary from any request on without changing a decision. -/
structure Refines (rate : Rate) (key : String) (stores : State) (times : List Nat) : Prop where
  decide : decisions rate (runCalls rate key true stores (calls true times)) =
    decisions rate (runCalls rate key false stores (calls true times))
  copy : ∀ pre now post, times = pre ++ now :: post →
    ∃ expires, (runCalls rate key true stores (calls true (pre ++ [now]))).stores.datastore key =
      some ⟨((runCalls rate key true stores (calls true (pre ++ [now]))).answers.getLast?).getD [],
        some expires⟩
  fallback : ∀ pre post, times = pre ++ post →
    decisions rate (runCalls rate key true stores (calls true pre ++ calls false post)) =
      decisions rate (runCalls rate key false stores (calls true times))

/-! ## The script keeps the local list -/

section

variable {rate : Rate} {key : String} {now : Nat}

/-- The local path reads and writes the entry of its key only. -/
theorem limitReqLocal_congr (rate : Rate) (now : Nat) {d d' : Store String (List Nat)}
    (h : d key = d' key) :
    (limitReqLocal rate key now d).1 = (limitReqLocal rate key now d').1 ∧
      (limitReqLocal rate key now d).2 key = (limitReqLocal rate key now d').2 key := by
  have hget := Store.get_congr h now
  simp only [limitReqLocal, hget]
  refine ⟨trivial, ?_⟩
  split
  · simp
  · exact h

theorem limitReq_local {useRedis redisUp : Bool} (h : (useRedis && redisUp) = false) (st : State) :
    limitReq rate key now useRedis redisUp st =
      ((limitReqLocal rate key now st.datastore).1,
        ⟨(limitReqLocal rate key now st.datastore).2, st.redis⟩) := by
  simp [limitReq, h]

/-- A call that Redis answers: the list is that of the local path over Redis, and the dictionary
gets a copy of it that does not expire. -/
theorem limitReq_redis (hd : 0 < delayOf rate.time) (st : State) :
    limitReq rate key now true true st =
      ((limitReqLocal rate key now st.redis).1,
        ⟨setWithRetries st.datastore now key (limitReqLocal rate key now st.redis).1 none,
          (limitReqLocal rate key now st.redis).2⟩) := by
  simp only [limitReq, Bool.and_self, if_true]
  rw [redisScript_eq hd]
  rfl

/-- Redis under the Redis path holds what the dictionary holds under the local path. -/
def SameList (key : String) (r l : Answered) : Prop :=
  r.stores.redis key = l.stores.datastore key ∧ r.answers = l.answers

theorem answer_sameList (hd : 0 < delayOf rate.time) {r l : Answered} (h : SameList key r l) :
    SameList key (answer rate key true r ⟨now, true⟩) (answer rate key false l ⟨now, true⟩) := by
  obtain ⟨hstore, hans⟩ := h
  obtain ⟨h1, h2⟩ := limitReqLocal_congr rate now hstore
  simp only [answer, limitReq_redis hd, limitReq_local (Bool.false_and true)]
  exact ⟨h2, by rw [hans, h1]⟩

theorem run_sameList (hd : 0 < delayOf rate.time) {r l : Answered} (h : SameList key r l)
    (times : List Nat) :
    SameList key (Run.run (answer rate key true) r (calls true times))
      (Run.run (answer rate key false) l (calls true times)) := by
  induction times generalizing r l with
  | nil => exact h
  | cons t ts ih => exact ih (answer_sameList hd h)

/-- The Redis path decides every request as the local path does, on every sequence of requests
that starts with the same list in both stores. -/
theorem redis_decisions (hd : 0 < delayOf rate.time) {stores : State}
    (h : stores.redis key = stores.datastore key) (times : List Nat) :
    decisions rate (runCalls rate key true stores (calls true times)) =
      decisions rate (runCalls rate key false stores (calls true times)) := by
  have := (run_sameList (r := ⟨stores, []⟩) (l := ⟨stores, []⟩) hd ⟨h, rfl⟩ times).2
  simp only [decisions, runCalls, this]

end

/-! ## The copy never expires -/

/-- After one call that Redis was asked for, an entry of the key that the dictionary did not have
before does not expire. -/
theorem limitReq_copy_never_expires {rate : Rate} {key : String} {st : State}
    (hnew : st.datastore key = none) (now : Nat) {e : Entry (List Nat)}
    (he : (limitReq rate key now true true st).2.datastore key = some e) : e.expires = none := by
  rcases Nat.eq_zero_or_pos (delayOf rate.time) with hd | hd
  · -- An unknown unit: whichever path wrote the entry, it wrote no expiry.
    simp only [limitReq, Bool.and_true, if_true] at he
    split at he
    · simp only [setWithRetries_same, Option.some.injEq] at he
      rw [← he]; rfl
    · simp only [limitReqLocal] at he
      have hdelay : (limitReqTimestamps rate (timestamp now)
          ((st.datastore.get now key).getD [])).2.2 = delayOf rate.time := by
        simp only [limitReqTimestamps]; split <;> rfl
      split at he
      · rw [setWithRetries_same, hdelay, hd] at he
        cases he; rfl
      · rw [hnew] at he; cases he
  · simp only [limitReq_redis hd, setWithRetries_same, Option.some.injEq] at he
    rw [← he]; rfl

/-- **The Redis path meets its purpose on no request.** For every rate and every sequence of
requests for a key that the dictionary does not hold yet, `Refines` holds only of the sequence
without a request: the first call leaves an entry without expiry. -/
theorem refines_iff_no_request (rate : Rate) (key : String) (stores : State)
    (hnew : stores.datastore key = none) (times : List Nat) :
    Refines rate key stores times ↔ times = [] := by
  constructor
  · intro h
    rcases times with _ | ⟨now, post⟩
    · rfl
    · obtain ⟨expires, he⟩ := h.copy [] now post rfl
      have := limitReq_copy_never_expires hnew now he
      cases this
  · rintro rfl
    refine ⟨rfl, fun pre now post h => ?_, fun pre post h => ?_⟩
    · exact absurd h (by simp)
    · obtain ⟨rfl, rfl⟩ := List.append_eq_nil_iff.mp h.symm
      rfl

/-- One request a second: the second request, one and a half seconds after the first, is let
through by the local path and refused by the copy that Redis left behind. -/
theorem fallback_refuses_after_expiry :
    ¬ Refines ⟨1, 's'⟩ "plugin_limit_a1.2.3.4/" ⟨Store.empty, Store.empty⟩ [0, 1500] := by
  intro h
  have hf := h.fallback [0] [1500] rfl
  exact absurd hf (by decide)

theorem refines_iff_no_request_one_per_second :
    Refines ⟨1, 's'⟩ "plugin_limit_a1.2.3.4/" ⟨Store.empty, Store.empty⟩ [0, 1500] ↔
      [0, 1500] = ([] : List Nat) :=
  refines_iff_no_request _ _ _ rfl _

end BunkerWeb.Lua.Limit
