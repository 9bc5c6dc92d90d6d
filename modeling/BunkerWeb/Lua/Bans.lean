import BunkerWeb.Lua.Datastore

/-!
# Bans (`bw/lua/bunkerweb/utils.lua`)

A ban is an entry of the local dictionary, of the dictionary of the other subsystem (HTTP or
stream) and, with Redis, of Redis. `isBanned` looks for the ban of the service, then for the global
one, in the dictionary and then in Redis, and copies what it finds in Redis into the dictionary.
The reason and the remaining time that it also returns are read by no function modelled here.
-/

namespace BunkerWeb.Lua

open Lib

inductive BanScope where
  | service
  | global
  deriving DecidableEq, Repr

/-- What a ban key holds: the JSON object that `add_ban` writes, or the bare text that the Redis
script of the bad-behavior plugin writes. -/
inductive BanValue where
  | data (reason service : String) (date : Nat) (country : String) (scope : BanScope)
      (permanent : Bool)
  | text (reason : String)
  deriving DecidableEq, Repr

structure BanStores where
  datastore : Store String BanValue
  otherDatastore : Store String BanValue
  redis : Store String BanValue

/-- What the functions below read from outside the stores. -/
structure BanEnv where
  /-- `USE_REDIS` is `yes`. -/
  useRedis : Bool
  /-- Redis accepts connections and answers. -/
  redisUp : Bool
  /-- `utils.is_ipv4(ip) or utils.is_ipv6(ip)`. -/
  isIp : String → Bool

def globalBanKey (ip : String) : String := "bans_ip_" ++ ip

def serviceBanKey (service ip : String) : String := "bans_service_" ++ service ++ "_ip_" ++ ip

/-- The key of a ban by its scope. -/
def banKey (scope : BanScope) (service ip : String) : String :=
  match scope with
  | .service => serviceBanKey service ip
  | .global => globalBanKey ip

/-- `BAN_LOCAL_CACHE_TTL`. -/
def banLocalCacheTtl : Nat := 30

/-- The `TTL` command of Redis: whole seconds, rounded; `-1` without expiry. -/
def redisTtl (e : Entry BanValue) (now : Nat) : Int :=
  match e.expires with
  | none => -1
  | some t => (t - now + 500) / 1000

/-- `check_ban`, the helper inside `is_banned`. -/
def checkBan (env : BanEnv) (now : Nat) (key : String) (st : BanStores) : Bool × BanStores :=
  match st.datastore.get now key with
  | some _ => (true, st)
  | none =>
    if !env.useRedis then (false, st)
    else
      match st.redis key with
      | none => (false, st)
      | some e =>
        if e.Live now then
          let ttl := redisTtl e now
          let cacheTtl := if 0 < ttl then min ttl.toNat banLocalCacheTtl else banLocalCacheTtl
          (true, { st with
            datastore := setWithRetries st.datastore now key e.value (some cacheTtl) })
        else (false, st)

/-- `utils.is_banned`; `none` is the `nil` of a lookup that failed. -/
def isBanned (env : BanEnv) (now : Nat) (ip : String) (serverName : Option String)
    (st : BanStores) : Option Bool × BanStores :=
  if env.useRedis && !env.redisUp then (none, st)
  else
    let checkGlobal (st : BanStores) : Option Bool × BanStores :=
      let (banned, st) := checkBan env now (globalBanKey ip) st
      (some banned, st)
    match serverName with
    | none => checkGlobal st
    | some server =>
      let (banned, st) := checkBan env now (serviceBanKey server ip) st
      if banned then (some true, st) else checkGlobal st

/-- `utils.add_ban`; `ttl = 0` is a permanent ban. The result is whether it returned `true`. -/
def addBan (env : BanEnv) (now : Nat) (ip reason : String) (ttl : Nat) (service country : String)
    (scope : BanScope) (st : BanStores) : Bool × BanStores :=
  if !env.isIp ip then (false, st)
  else
    let key := banKey scope service ip
    let value := .data reason service (timestamp now) country scope (decide (ttl = 0))
    -- The code means to turn `0` into `nil` here, but `(c and nil or ttl)` is `ttl` whatever `c`
    -- is; for the dictionary both mean that the ban does not expire.
    let st := { st with
      datastore := setWithRetries st.datastore now key value (some ttl)
      otherDatastore := setWithRetries st.otherDatastore now key value (some ttl) }
    if !env.useRedis then (true, st)
    else if !env.redisUp then (false, st)
    else
      let expires := if ttl = 0 then none else some (now + 1000 * ttl)
      (true, { st with redis := st.redis.put key ⟨value, expires⟩ })

/-- The keys of the service bans of an address: `k:sub(1, 13) == "bans_service_"` and
`k:sub(-#suffix) == suffix`. -/
def isServiceBanOf (ip key : String) : Bool :=
  key.toList.take 13 == "bans_service_".toList && ("_ip_" ++ ip).toList.isSuffixOf key.toList

/-- `utils.remove_ban`. Redis is asked to delete the global key and the service keys that one of
the dictionaries listed; `keys()` lists what has not expired. -/
def removeBan (env : BanEnv) (now : Nat) (ip service : String) (scope : BanScope)
    (st : BanStores) : Bool × BanStores :=
  if !env.isIp ip then (false, st)
  else
    let redisReached := env.useRedis && env.redisUp
    match scope with
    | .service =>
      let key := serviceBanKey service ip
      (true, {
        datastore := st.datastore.delete key
        otherDatastore := st.otherDatastore.delete key
        redis := if redisReached then st.redis.delete key else st.redis })
    | .global =>
      let listed (key : String) : Bool :=
        isServiceBanOf ip key &&
          ((st.datastore.get now key).isSome || (st.otherDatastore.get now key).isSome)
      let removed (key : String) : Bool := key == globalBanKey ip || listed key
      (true, {
        datastore := st.datastore.deleteAll removed
        otherDatastore := st.otherDatastore.deleteAll removed
        redis := if redisReached then st.redis.deleteAll removed else st.redis })

/-! ## What the functions do to the dictionary -/

section

variable {env : BanEnv} {now : Nat} {ip : String} {st : BanStores}

/-- Without Redis a lookup only reads. -/
theorem isBanned_of_no_redis (h : env.useRedis = false) (server : String) :
    isBanned env now ip (some server) st =
      (some ((st.datastore.get now (serviceBanKey server ip)).isSome ||
        (st.datastore.get now (globalBanKey ip)).isSome), st) := by
  simp only [isBanned, checkBan, h]
  cases h1 : st.datastore.get now (serviceBanKey server ip) <;>
    cases h2 : st.datastore.get now (globalBanKey ip) <;> simp [h2]

/-- A ban that was added can be read at once, whatever Redis does. -/
theorem addBan_datastore (hip : env.isIp ip = true) (reason : String) (ttl : Nat)
    (service country : String) (scope : BanScope) :
    ((addBan env now ip reason ttl service country scope st).2.datastore.get now
      (banKey scope service ip)).isSome := by
  simp only [addBan, hip]
  split
  · simp_all
  · split
    · simp
    · split <;> simp

theorem addBan_datastore_of_ne (reason : String) (ttl : Nat) (service country : String)
    (scope : BanScope) {key : String} (h : key ≠ banKey scope service ip) :
    (addBan env now ip reason ttl service country scope st).2.datastore key =
      st.datastore key := by
  simp only [addBan]
  split
  · rfl
  · split
    · exact setWithRetries_of_ne _ _ _ _ h
    · split <;> exact setWithRetries_of_ne _ _ _ _ h

end

end BunkerWeb.Lua
