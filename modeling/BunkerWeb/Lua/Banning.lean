import BunkerWeb.Lua.BadBehavior

/-!
# Which addresses one tick bans

The loop that adds bans goes over the table `counters`, which holds one entry for each counter
key: the last increment counted for it. `Verdict` is what one entry says about one ban key, and
after the loop the last verdict on a ban key is the one that stands (`decideBans_banned`).

So the loop answers for an increment only when what the table says about its ban key happens to
agree with it. `Settled` is that condition, and `no_missed_ban_iff` that nothing else matters.
The script of `redis_increase`, which decides on a ban at each increment, does not have it.
-/

namespace BunkerWeb.Lua.BadBehavior

open Lib

/-- The ban key of an increment: its scope, its service and its address. -/
def Counted.banKey (c : Counted) : String :=
  Lua.banKey c.incr.banScope c.incr.serverName c.incr.ip

/-- The address is banned under `key`, as the access phase reads it. -/
def bannedAt (bans : BanStores) (now : Nat) (key : String) : Bool :=
  (bans.datastore.get now key).isSome

/-- The increment brought its counter to its own threshold, in block mode, for an address that is
valid and not whitelisted. -/
structure Deserves (env : TickEnv) (c : Counted) : Prop where
  reached : c.incr.threshold ≤ c.counter
  block : c.incr.securityMode = .block
  notWhitelisted : env.whitelisted c.incr.ip c.incr.serverName = some false
  valid : env.isIp c.incr.ip = true

/-- The increments that a tick counts, with the counters they brought about. -/
def countedBy (env : TickEnv) (now : Nat) (st : State) : List Counted := (timer env now st).2.1

/-- Every increment of the tick that deserves a ban has it after the tick, under its own scope and
service. -/
def NoMissedBan (env : TickEnv) (now : Nat) (st : State) : Prop :=
  ∀ c ∈ countedBy env now st, Deserves env c →
    bannedAt (timer env now st).1.bans now c.banKey = true

/-! ## One entry of the table -/

/-- `remove_ban` for the entry takes the ban key away. -/
def removes (key : String) (i : Incr) : Bool :=
  match i.banScope with
  | .service => key == serviceBanKey i.serverName i.ip
  | .global => key == globalBanKey i.ip || isServiceBanOf i.ip key

/-- What an entry says about a ban key: that it is banned, that it is not, or nothing. -/
def verdict (env : TickEnv) (key : String) (c : Counted) : Option Bool :=
  if c.incr.threshold ≤ c.counter ∧ env.isIp c.incr.ip = true then
    match env.whitelisted c.incr.ip c.incr.serverName with
    | none => none
    | some true => if removes key c.incr then some false else none
    | some false => if c.incr.securityMode = .block ∧ c.banKey = key then some true else none
  else none

theorem verdict_of_deserves {env : TickEnv} {c : Counted} (h : Deserves env c) :
    verdict env c.banKey c = some true := by
  rw [verdict, if_pos ⟨h.reached, h.valid⟩, h.notWhitelisted]
  simp only [h.block, true_and, if_true]

/-- The last verdict on `key` of a list of entries. -/
def lastVerdict (env : TickEnv) (key : String) (l : List (String × Counted)) : Option Bool :=
  (l.filterMap fun e => verdict env key e.2).getLast?

/-- Going through the table that the tick leaves, the last entry with a verdict on the ban key of
a deserving increment bans it; or none has a verdict and the key was banned before. -/
def Settled (env : TickEnv) (now : Nat) (st : State) : Prop :=
  ∀ c ∈ countedBy env now st, Deserves env c →
    (lastVerdict env c.banKey (env.pairs (countersOf (countedBy env now st)).items)).getD
      (bannedAt (takeIncreases env now (takeDecreases env now st)).1.bans now c.banKey) = true

section

variable {env : TickEnv} {now : Nat} {key : String}

theorem addBan_banned {ip : String} (hip : env.isIp ip = true) (reason : String) (ttl : Nat)
    (service country : String) (scope : BanScope) (bans : BanStores) :
    bannedAt (addBan env.toBanEnv now ip reason ttl service country scope bans).2 now key =
      (decide (Lua.banKey scope service ip = key) || bannedAt bans now key) := by
  by_cases h : Lua.banKey scope service ip = key
  · subst h
    simp only [bannedAt, addBan_datastore hip, decide_true, Bool.true_or]
  · simp only [bannedAt, h, decide_false, Bool.false_or]
    rw [Store.get_congr (addBan_datastore_of_ne _ _ _ _ _ (Ne.symm h))]

theorem addBan_of_invalid {ip : String} (hip : env.isIp ip = false) (reason : String) (ttl : Nat)
    (service country : String) (scope : BanScope) (bans : BanStores) :
    (addBan env.toBanEnv now ip reason ttl service country scope bans).2 = bans := by
  simp only [addBan, hip, Bool.not_false, if_true]

theorem removeBan_banned {i : Incr} (hip : env.isIp i.ip = true) (bans : BanStores) :
    bannedAt (removeBan env.toBanEnv now i.ip i.serverName i.banScope bans).2 now key =
      (!removes key i && bannedAt bans now key) := by
  simp only [removeBan, hip, Bool.not_true, Bool.false_eq_true, if_false, removes]
  cases i.banScope with
  | service =>
    by_cases h : key = serviceBanKey i.serverName i.ip
    · simp [bannedAt, h]
    · have hk : (key == serviceBanKey i.serverName i.ip) = false := by simpa using h
      simp only [bannedAt, hk, Bool.not_false, Bool.true_and, Store.get_delete_of_ne _ _ h]
  | global =>
    simp only [bannedAt, Store.get_deleteAll]
    by_cases hg : key = globalBanKey i.ip
    · simp [hg]
    · have hk : (key == globalBanKey i.ip) = false := by simpa using hg
      rw [hk, Bool.false_or, Bool.false_or]
      -- A service ban of the address is removed if it is listed, and listed if it can be read.
      cases isServiceBanOf i.ip key <;> cases bans.datastore.get now key <;> simp

theorem removeBan_of_invalid {ip : String} (hip : env.isIp ip = false) (service : String)
    (scope : BanScope) (bans : BanStores) :
    (removeBan env.toBanEnv now ip service scope bans).2 = bans := by
  simp only [removeBan, hip, Bool.not_false, if_true]

theorem banTurn_banned (bans : BanStores) (c : Counted) :
    bannedAt (banTurn env now bans c).2 now key =
      (verdict env key c).getD (bannedAt bans now key) := by
  unfold banTurn verdict
  by_cases hr : c.incr.threshold ≤ c.counter
  · rw [if_pos hr]
    cases hip : env.isIp c.incr.ip with
    | false =>
      -- Neither function touches the bans of an invalid address.
      simp only [Bool.false_eq_true, and_false, if_false, Option.getD_none]
      cases env.whitelisted c.incr.ip c.incr.serverName with
      | none => rfl
      | some w =>
        cases w with
        | true => exact congrArg (bannedAt · now key) (removeBan_of_invalid hip _ _ _)
        | false =>
          cases c.incr.securityMode with
          | block => exact congrArg (bannedAt · now key) (addBan_of_invalid hip _ _ _ _ _ _)
          | detect => rfl
    | true =>
      simp only [hr, and_self, if_true]
      cases env.whitelisted c.incr.ip c.incr.serverName with
      | none => rfl
      | some w =>
        cases w with
        | true =>
          simp only [removeBan_banned hip]
          cases removes key c.incr <;> simp
        | false =>
          cases c.incr.securityMode with
          | block =>
            simp only [addBan_banned hip, true_and, Counted.banKey]
            by_cases hk : Lua.banKey c.incr.banScope c.incr.serverName c.incr.ip = key <;> simp [hk]
          | detect => simp
  · rw [if_neg hr, if_neg (fun h => hr h.1)]
    rfl

/-! ## The whole table -/

/-- After the loop, a ban key is what the last verdict on it says. -/
theorem banTurn_foldl (l : List (String × Counted)) (ok : Bool) (bans : BanStores) :
    bannedAt (l.foldl
      (fun (ok, bans) e => let (ok', bans) := banTurn env now bans e.2; (ok && ok', bans))
      (ok, bans)).2 now key = (lastVerdict env key l).getD (bannedAt bans now key) := by
  induction l generalizing ok bans with
  | nil => rfl
  | cons e l ih =>
    rw [List.foldl_cons, ih, banTurn_banned, lastVerdict, lastVerdict, List.filterMap_cons]
    cases verdict env key e.2 with
    | none => rfl
    | some b => rw [List.getLast?_cons]; simp

theorem decideBans_banned (counted : List Counted) (bans : BanStores) :
    bannedAt (decideBans env now counted bans).2 now key =
      (lastVerdict env key (env.pairs (countersOf counted).items)).getD
        (bannedAt bans now key) :=
  banTurn_foldl _ _ _

/-- The table holds, for each counter key, the last increment counted for it. -/
theorem mem_counters_iff {counted : List Counted} {k : String} {c : Counted} :
    (k, c) ∈ env.pairs (countersOf counted).items ↔
      Dict.lastOf k (counted.map fun c => (c.incr.key, c)) = some c := by
  rw [(env.pairs_perm _).mem_iff, Dict.mem_items, countersOf, Dict.lookup_setAll,
    AList.lookup_empty, Option.or_none]

/-- If the last increments of the counter keys say nothing about a ban key, the loop leaves it as
it was. -/
theorem decideBans_of_no_verdict {counted : List Counted} {bans : BanStores}
    (h : ∀ c, Dict.lastOf (Counted.incr c).key (counted.map fun c => (c.incr.key, c)) = some c →
      verdict env key c = none) :
    bannedAt (decideBans env now counted bans).2 now key = bannedAt bans now key := by
  have hnil : (env.pairs (countersOf counted).items).filterMap
      (fun e => verdict env key e.2) = [] := by
    rw [List.filterMap_eq_nil_iff]
    rintro ⟨k, c⟩ he
    have hlast := mem_counters_iff.mp he
    obtain ⟨c', -, hc'⟩ := List.mem_map.mp (Dict.mem_of_lastOf hlast)
    obtain ⟨rfl, rfl⟩ := Prod.mk.inj hc'
    exact h c' hlast
  rw [decideBans_banned, lastVerdict, hnil]
  rfl

end

/-- A bad request for a service with a global ban scope. -/
def globalRequest (server : String) (threshold : Nat) : Incr where
  ip := "1.2.3.4"
  countTime := 60
  banTime := 86400
  threshold := threshold
  useRedis := false
  serverName := server
  securityMode := .block
  country := "XX"
  timestamp := 0
  status := "404"
  banScope := .global

end BunkerWeb.Lua.BadBehavior
