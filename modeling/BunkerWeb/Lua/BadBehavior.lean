import BunkerWeb.Lib.Dict
import BunkerWeb.Lua.Bans

/-!
# The bad-behavior plugin (`core/badbehavior/badbehavior.lua`)

The log phase appends an `Incr` for each suspicious request. The timer of worker 0 takes the
pending decreases that are due, then all increments: each raises the counter of its key, queues a
`Decr` for `count_time` seconds later, and leaves its data in a table indexed by that key. The bans
are decided from that table at the end of the tick.

Times are as in `BunkerWeb.Lua.Datastore`: instants in milliseconds, stamps in whole seconds.
-/

namespace BunkerWeb.Lua.BadBehavior

open Lib

inductive SecurityMode where
  | block
  | detect
  deriving DecidableEq, Repr

/-- An element of `plugin_badbehavior_incr`: one suspicious request. -/
structure Incr where
  ip : String
  countTime : Nat
  banTime : Nat
  threshold : Nat
  useRedis : Bool
  serverName : String
  securityMode : SecurityMode
  country : String
  timestamp : Nat
  status : String
  banScope : BanScope
  deriving DecidableEq, Repr

/-- An element of `plugin_badbehavior_decr`: an increment to take back after `timestamp`. -/
structure Decr where
  ip : String
  oldCounter : Nat
  countTime : Nat
  threshold : Nat
  useRedis : Bool
  timestamp : Nat
  serverName : String
  status : String
  banScope : BanScope
  deriving DecidableEq, Repr

/-- An increment that was counted, with the value that the counter got: the value of the table
`counters`. -/
structure Counted where
  incr : Incr
  counter : Nat
  deriving DecidableEq, Repr

/-- `key_suffix` and `counter_key` in the code: what tells one counter from another. -/
def keySuffix (scope : BanScope) (serverName ip : String) : String :=
  match scope with
  | .service => serverName ++ "_" ++ ip
  | .global => ip

def Incr.key (i : Incr) : String := keySuffix i.banScope i.serverName i.ip

def Decr.key (d : Decr) : String := keySuffix d.banScope d.serverName d.ip

def countKey (suffix : String) : String := "plugin_badbehavior_count_" ++ suffix

def redisCountKey (suffix : String) : String := "plugin_bad_behavior_" ++ suffix

/-- The stores and lists that the plugin works on. -/
structure State where
  counts : Store String Nat
  redisCounts : Store String Nat
  bans : BanStores
  incrs : List Incr
  decrs : List Decr

/-- What a tick reads from outside. -/
structure TickEnv extends BanEnv where
  /-- `utils.is_ip_whitelisted(ip, server)`; `none` is a lookup that failed. -/
  whitelisted : String → String → Option Bool
  /-- The order in which `pairs` goes through a table. -/
  pairs : List (String × Counted) → List (String × Counted)
  pairs_perm : ∀ l, (pairs l).Perm l

/-- An instance without Redis where every address is valid and none is whitelisted. -/
def plainEnv : TickEnv where
  useRedis := false
  redisUp := false
  isIp := fun _ => true
  whitelisted := fun _ _ => some false
  pairs := id
  pairs_perm := List.Perm.refl

/-- The script of `redis_increase`, which also decides on a ban of its own. -/
def redisIncrease (now : Nat) (i : Incr) (st : State) : Nat × State :=
  let key := redisCountKey i.key
  let counter := (st.redisCounts.get now key).getD 0 + 1
  let redis :=
    if i.threshold ≤ counter then
      st.bans.redis.put (banKey i.banScope i.serverName i.ip)
        ⟨.text "bad behavior", if i.banTime = 0 then none else some (now + 1000 * i.banTime)⟩
    else st.bans.redis
  (counter, { st with
    redisCounts := st.redisCounts.put key ⟨counter, some (now + 1000 * i.countTime)⟩
    bans := { st.bans with redis } })

/-- The script of `redis_decrease`; a counter that reaches zero is deleted. -/
def redisDecrease (now : Nat) (d : Decr) (st : State) : Nat × State :=
  let key := redisCountKey d.key
  let counter := (st.redisCounts.get now key).getD 0 - 1
  (counter, { st with
    redisCounts :=
      if counter = 0 then st.redisCounts.delete key
      else st.redisCounts.put key ⟨counter, some (now + 1000 * d.countTime)⟩ })

/-- `badbehavior:increase`: the new counter and the state after it. -/
def increase (env : TickEnv) (now : Nat) (i : Incr) (st : State) : Nat × State :=
  let (counter, st) :=
    if i.useRedis && env.redisUp then redisIncrease now i st
    else ((st.counts.get now (countKey i.key)).getD 0 + 1, st)
  (counter, { st with
    counts := setWithRetries st.counts now (countKey i.key) counter (some i.countTime) })

/-- `badbehavior:decrease`. -/
def decrease (env : TickEnv) (now : Nat) (d : Decr) (st : State) : State :=
  let (counter, st) :=
    if d.useRedis && env.redisUp then redisDecrease now d st
    else ((st.counts.get now (countKey d.key)).getD 0 - 1, st)
  { st with
    counts :=
      if counter = 0 then st.counts.delete (countKey d.key)
      else setWithRetries st.counts now (countKey d.key) counter (some d.countTime) }

/-- The decrease is taken by the tick at `now`. The comparison is strict, on whole seconds. -/
def Decr.Due (d : Decr) (now : Nat) : Prop := d.timestamp < Lua.timestamp now

instance (d : Decr) (now : Nat) : Decidable (d.Due now) := inferInstanceAs (Decidable (_ < _))

/-- One turn of the loop on decrease operations: take it, or put it back at the end. -/
def decrTurn (env : TickEnv) (now : Nat) (st : State) (d : Decr) : State :=
  if d.Due now then decrease env now d st else { st with decrs := st.decrs ++ [d] }

/-- The decrease that takes a counted increment back. -/
def Counted.decr (c : Counted) (now : Nat) : Decr where
  ip := c.incr.ip
  oldCounter := c.counter
  countTime := c.incr.countTime
  threshold := c.incr.threshold
  useRedis := c.incr.useRedis
  timestamp := Lua.timestamp now + c.incr.countTime
  serverName := c.incr.serverName
  status := c.incr.status
  banScope := c.incr.banScope

/-- One turn of the loop on increase operations. A lookup that fails (`none`) does not skip. -/
def incrTurn (env : TickEnv) (now : Nat) (acc : State × List Counted) (i : Incr) :
    State × List Counted :=
  let (st, counted) := acc
  let (banned, bans) := isBanned env.toBanEnv now i.ip (some i.serverName) st.bans
  let st := { st with bans }
  if banned = some true then (st, counted)
  else
    let (counter, st) := increase env now i st
    let c : Counted := ⟨i, counter⟩
    ({ st with decrs := st.decrs ++ [c.decr now] }, counted ++ [c])

/-- The table `counters`: `counters[counter_key] = {..}` for each counted increment in turn. -/
def countersOf (counted : List Counted) : Dict String Counted :=
  Dict.setAll ∅ (counted.map fun c => (c.incr.key, c))

/-- The body of the last loop, on one entry of `counters`: whether it went well, and the bans. -/
def banTurn (env : TickEnv) (now : Nat) (bans : BanStores) (c : Counted) : Bool × BanStores :=
  if c.incr.threshold ≤ c.counter then
    match env.whitelisted c.incr.ip c.incr.serverName with
    | none => (true, bans)
    | some true =>
      (true, (removeBan env.toBanEnv now c.incr.ip c.incr.serverName c.incr.banScope bans).2)
    | some false =>
      match c.incr.securityMode with
      | .block =>
        addBan env.toBanEnv now c.incr.ip "bad behavior" c.incr.banTime c.incr.serverName
          c.incr.country c.incr.banScope bans
      | .detect => (true, bans)
  else (true, bans)

/-- The loop on decrease operations. -/
def takeDecreases (env : TickEnv) (now : Nat) (st : State) : State :=
  st.decrs.foldl (decrTurn env now) { st with decrs := [] }

/-- The loop on increase operations, and the increments it counted. -/
def takeIncreases (env : TickEnv) (now : Nat) (st : State) : State × List Counted :=
  st.incrs.foldl (incrTurn env now) ({ st with incrs := [] }, [])

/-- The loop that adds bans: over the table, in the order of `pairs`. -/
def decideBans (env : TickEnv) (now : Nat) (counted : List Counted) (bans : BanStores) :
    Bool × BanStores :=
  (env.pairs (countersOf counted).items).foldl
    (fun (ok, bans) e => let (ok', bans) := banTurn env now bans e.2; (ok && ok', bans))
    (true, bans)

/-- `badbehavior:timer` on worker 0, with the increments that it counted. -/
def timer (env : TickEnv) (now : Nat) (st : State) : State × List Counted × Bool :=
  let st := takeDecreases env now st
  let (st, counted) := takeIncreases env now st
  let (ok, bans) := decideBans env now counted st.bans
  ({ st with bans }, counted, ok)

/-- The log phase: the requests of a batch are appended for the next tick. -/
def record (batch : List Incr) (st : State) : State := { st with incrs := st.incrs ++ batch }

end BunkerWeb.Lua.BadBehavior
