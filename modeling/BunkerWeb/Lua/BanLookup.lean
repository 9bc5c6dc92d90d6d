import BunkerWeb.Lib.Run
import BunkerWeb.Lua.Bans
import Mathlib.Data.List.Induction

/-!
# Ban lookups under every answer of Redis

`isBanned` knows a Redis that is down or answers. Here one lookup comes with everything Redis may
say to it: no connection, an error of the call or of the script, null, or a value with its TTL.
`lookup_redis` is the step from one to the other.

- **Bans of the dictionary** (`local_ban_enforced_iff`): with Redis in use a lookup connects before
  it looks anywhere, and an error for the key of the service ends it before the global key. These
  two hide a ban that the dictionary holds, and nothing else does.
- **Bans of Redis** (`redis_ban_staleness`): what a lookup copies lives for `banLocalCacheTtl`
  seconds at most, and that there is no ban is not kept anywhere.
-/

namespace BunkerWeb.Lua

open Lib

/-- What the script of `check_ban` says of a key. -/
inductive BanAnswer where
  /-- `call` failed, or the script returned an error. -/
  | error
  | null
  | value (data : BanValue) (ttl : Int)
  deriving DecidableEq, Repr

/-- A call of `is_banned`, with what Redis says to it. -/
structure Lookup where
  now : Nat
  ip : String
  serverName : Option String
  useRedis : Bool
  connects : Bool
  answer : String → BanAnswer

/-- `cache_ttl`: a ban that does not expire is copied for the whole time too. -/
def cacheTtl (redisTtl : Int) : Nat :=
  if 0 < redisTtl then min redisTtl.toNat banLocalCacheTtl else banLocalCacheTtl

/-- `check_ban`, for a connected Redis. -/
def Lookup.checkBan (c : Lookup) (key : String) (d : Store String BanValue) :
    Option Bool × Store String BanValue :=
  match d.get c.now key with
  | some _ => (some true, d)
  | none =>
    if !c.useRedis then (some false, d)
    else
      match c.answer key with
      | .error => (none, d)
      | .null => (some false, d)
      | .value data ttl =>
        (some true, setWithRetries d c.now key data (some (cacheTtl ttl)))

/-- `utils.is_banned`: its first result, and the dictionary after it. -/
def Lookup.isBanned (c : Lookup) (d : Store String BanValue) :
    Option Bool × Store String BanValue :=
  if c.useRedis && !c.connects then (none, d)
  else
    match c.serverName with
    | none => c.checkBan (globalBanKey c.ip) d
    | some server =>
      match c.checkBan (serviceBanKey server c.ip) d with
      | (some false, d) => c.checkBan (globalBanKey c.ip) d
      | r => r

/-- What a Redis that holds `redis` says to a script that runs at `now`. -/
def redisAnswer (redis : Store String BanValue) (now : Nat) (key : String) : BanAnswer :=
  match redis key with
  | none => .null
  | some e => if e.Live now then .value e.value (redisTtl e now) else .null

theorem redisAnswer_of_none {redis : Store String BanValue} {now : Nat} {key : String}
    (h : redis.get now key = none) : redisAnswer redis now key = .null := by
  unfold redisAnswer
  cases hk : redis key with
  | none => rfl
  | some e =>
    by_cases hl : e.Live now
    · rw [Store.get_of_live hk hl] at h; cases h
    · simp [hl]

/-! ## One lookup -/

section

variable {c : Lookup} {d : Store String BanValue} {key : String}

theorem checkBan_of_local (h : (d.get c.now key).isSome) : c.checkBan key d = (some true, d) := by
  obtain ⟨v, hv⟩ := Option.isSome_iff_exists.mp h
  simp only [Lookup.checkBan, hv]

theorem checkBan_of_no_redis (h : d.get c.now key = none) (hu : c.useRedis = false) :
    c.checkBan key d = (some false, d) := by
  simp only [Lookup.checkBan, h, hu, Bool.not_false, if_true]

theorem checkBan_of_answer (h : d.get c.now key = none) (hu : c.useRedis = true) :
    c.checkBan key d =
      match c.answer key with
      | .error => (none, d)
      | .null => (some false, d)
      | .value data ttl =>
        (some true, setWithRetries d c.now key data (some (cacheTtl ttl))) := by
  simp only [Lookup.checkBan, h, hu, Bool.not_true, Bool.false_eq_true, if_false]

/-- A lookup writes to its own dictionary only. -/
theorem checkBan_frame (env : BanEnv) (now : Nat) (key : String) (st : BanStores) :
    (checkBan env now key st).2 =
      { st with datastore := (checkBan env now key st).2.datastore } := by
  unfold checkBan
  split
  · rfl
  split
  · rfl
  split
  · rfl
  split <;> rfl

theorem isBanned_frame (env : BanEnv) (now : Nat) (ip : String) (serverName : Option String)
    (st : BanStores) :
    (isBanned env now ip serverName st).2 =
      { st with datastore := (isBanned env now ip serverName st).2.datastore } := by
  unfold isBanned
  split
  · rfl
  split
  · exact checkBan_frame _ _ _ _
  · rename_i server
    have hserver := checkBan_frame env now (serviceBanKey server ip) st
    dsimp only
    split
    · exact hserver
    · dsimp only
      rw [checkBan_frame env now (globalBanKey ip), hserver]

private theorem checkBan_redis {env : BanEnv} {c : Lookup} {st : BanStores}
    (hu : c.useRedis = env.useRedis) (ha : c.answer = redisAnswer st.redis c.now) (key : String) :
    c.checkBan key st.datastore =
      (some (checkBan env c.now key st).1, (checkBan env c.now key st).2.datastore) := by
  simp only [checkBan, Lookup.checkBan, ha, redisAnswer, hu, cacheTtl]
  cases st.datastore.get c.now key with
  | some v => rfl
  | none =>
    cases env.useRedis with
    | false => rfl
    | true =>
      cases st.redis key with
      | none => rfl
      | some e => by_cases hl : e.Live c.now <;> simp [hl]

/-- The lookups of `BunkerWeb.Lua.Bans` are those whose Redis is down or answers. -/
theorem lookup_redis (env : BanEnv) (now : Nat) (ip : String) (serverName : Option String)
    (st : BanStores) :
    Lookup.isBanned ⟨now, ip, serverName, env.useRedis, env.redisUp, redisAnswer st.redis now⟩
        st.datastore =
      ((isBanned env now ip serverName st).1,
        (isBanned env now ip serverName st).2.datastore) := by
  unfold isBanned Lookup.isBanned
  by_cases hdown : (env.useRedis && !env.redisUp) = true
  · rw [if_pos hdown, if_pos hdown]
  rw [if_neg hdown, if_neg hdown]
  cases serverName with
  | none => exact checkBan_redis rfl rfl _
  | some server =>
    have hserver := @checkBan_redis env ⟨now, ip, some server, env.useRedis, env.redisUp,
      redisAnswer st.redis now⟩ st rfl rfl (serviceBanKey server ip)
    have hframe := checkBan_frame env now (serviceBanKey server ip) st
    simp only [hserver]
    cases hb : (checkBan env now (serviceBanKey server ip) st).1 with
    | true => rfl
    | false =>
      -- The second key is looked up in the dictionary that the first one left.
      refine checkBan_redis rfl ?_ _
      rw [hframe]

/-! ## Bans of the dictionary -/

/-- The dictionary has an unexpired ban of the address, global or for the server. -/
def LocallyBanned (d : Store String BanValue) (now : Nat) (server ip : String) : Prop :=
  (d.get now (serviceBanKey server ip)).isSome ∨ (d.get now (globalBanKey ip)).isSome

/-- Redis is not used; or it is connected to, and no error keeps the lookup from the global key
when that is the one the dictionary has. -/
def Unhindered (c : Lookup) (server : String) (d : Store String BanValue) : Prop :=
  c.useRedis = false ∨
    c.connects = true ∧ ((d.get c.now (serviceBanKey server c.ip)).isSome ∨
      c.answer (serviceBanKey server c.ip) ≠ .error)

/-- **Local bans.** For every dictionary and every answer of Redis, an address that is banned in
the dictionary is reported as banned if and only if the lookup is `Unhindered`. -/
theorem local_ban_enforced_iff {server : String} (hs : c.serverName = some server)
    (hban : LocallyBanned d c.now server c.ip) :
    (c.isBanned d).1 = some true ↔ Unhindered c server d := by
  unfold Lookup.isBanned Unhindered
  rw [hs]
  by_cases hdown : (c.useRedis && !c.connects) = true
  · simp only [Bool.and_eq_true, Bool.not_eq_true'] at hdown
    simp [hdown]
  rw [if_neg hdown]
  by_cases hservice : (d.get c.now (serviceBanKey server c.ip)).isSome
  · simp only [checkBan_of_local hservice, hservice, true_or, and_true, true_iff]
    cases hu : c.useRedis
    · exact .inl rfl
    · exact .inr (by simpa [hu] using hdown)
  have hnone : d.get c.now (serviceBanKey server c.ip) = none := by simpa using hservice
  have hglobal : c.checkBan (globalBanKey c.ip) d = (some true, d) :=
    checkBan_of_local (hban.resolve_left hservice)
  cases hu : c.useRedis with
  | false => simp [checkBan_of_no_redis hnone hu, hglobal]
  | true =>
    have hup : c.connects = true := by simpa [hu] using hdown
    simp only [checkBan_of_answer hnone hu]
    cases c.answer (serviceBanKey server c.ip) <;> simp [hglobal, hup, hnone]

/-- A lookup of a server, with a Redis in use that answers `answer`. -/
def lookupWith (connects : Bool) (answer : String → BanAnswer) : Lookup where
  now := 0
  ip := "1.2.3.4"
  serverName := some "www"
  useRedis := true
  connects := connects
  answer := answer

/-- The dictionary of an instance where the address has a permanent global ban. -/
def globallyBanned : Store String BanValue := fun key =>
  if key = globalBanKey "1.2.3.4" then
    some ⟨.data "manual" "unknown" 0 "local" .global true, none⟩
  else none

/-- A Redis that has nothing on the service does not hide the global ban. -/
theorem local_ban_enforced_null :
    ((lookupWith true fun _ => .null).isBanned globallyBanned).1 = some true :=
  (local_ban_enforced_iff rfl (.inr (by decide))).mpr (.inr ⟨rfl, .inr (by decide)⟩)

/-- A Redis that refuses the connection, and one whose script fails, hide it. -/
theorem local_ban_hidden :
    LocallyBanned globallyBanned 0 "www" "1.2.3.4" ∧
      ((lookupWith false fun _ => .null).isBanned globallyBanned).1 = none ∧
      ((lookupWith true fun _ => .error).isBanned globallyBanned).1 = none := by
  exact ⟨.inr (by decide), by decide, by decide⟩

/-! ## Bans of Redis -/

/-- The key is one of the address. -/
def BanKeyOf (ip key : String) : Prop :=
  key = globalBanKey ip ∨ ∃ server, key = serviceBanKey server ip

/-- The lookup asks for the key. -/
def Lookup.AsksFor (c : Lookup) (key : String) : Prop :=
  key = globalBanKey c.ip ∨ ∃ server ∈ c.serverName, key = serviceBanKey server c.ip

/-- Redis has the key when the lookup runs. -/
def Lookup.Sees (c : Lookup) (key : String) : Prop := ∃ data ttl, c.answer key = .value data ttl

/-- Redis is used and answers whatever the lookup asks. -/
structure Lookup.Answered (c : Lookup) : Prop where
  useRedis : c.useRedis = true
  connects : c.connects = true
  answers : ∀ key, c.AsksFor key → c.answer key ≠ .error

theorem Lookup.AsksFor.banKeyOf (h : c.AsksFor key) : BanKeyOf c.ip key :=
  h.imp_right fun ⟨server, _, hk⟩ => ⟨server, hk⟩

/-- The dictionary after a lookup. -/
def lookup (d : Store String BanValue) (c : Lookup) : Store String BanValue := (c.isBanned d).2

/-- The entry is a copy that the lookup made: it expires within the TTL of the copies. -/
def CopiedBy (c : Lookup) (key : String) (e : Entry BanValue) : Prop :=
  c.useRedis = true ∧ c.Sees key ∧
    ∃ t, e.expires = some t ∧ t ≤ c.now + 1000 * banLocalCacheTtl

theorem cacheTtl_le (ttl : Int) : cacheTtl ttl ≤ banLocalCacheTtl := by
  unfold cacheTtl
  split
  · exact Nat.min_le_right _ _
  · exact Nat.le_refl _

theorem cacheTtl_pos (ttl : Int) : 0 < cacheTtl ttl := by
  unfold cacheTtl banLocalCacheTtl
  split <;> omega

theorem expiry_cacheTtl (now : Nat) (ttl : Int) :
    ∃ t, expiry now (some (cacheTtl ttl)) = some t ∧ t ≤ now + 1000 * banLocalCacheTtl := by
  have hle := cacheTtl_le ttl
  obtain ⟨s, hs⟩ := Nat.exists_eq_succ_of_ne_zero (Nat.pos_iff_ne_zero.mp (cacheTtl_pos ttl))
  rw [hs] at hle ⊢
  exact ⟨_, rfl, by omega⟩

theorem checkBan_entry {key' : String} {e : Entry BanValue}
    (h : (c.checkBan key d).2 key' = some e) : d key' = some e ∨ CopiedBy c key' e := by
  cases hl : d.get c.now key with
  | some v =>
    rw [checkBan_of_local (by simp [hl])] at h
    exact .inl h
  | none =>
    cases hu : c.useRedis with
    | false =>
      rw [checkBan_of_no_redis hl hu] at h
      exact .inl h
    | true =>
      rw [checkBan_of_answer hl hu] at h
      cases ha : c.answer key with
      | error => rw [ha] at h; exact .inl h
      | null => rw [ha] at h; exact .inl h
      | value data ttl =>
        rw [ha] at h
        change setWithRetries d c.now key data (some (cacheTtl ttl)) key' = some e at h
        by_cases hk : key' = key
        · subst hk
          rw [setWithRetries_same] at h
          obtain rfl := Option.some.inj h
          exact .inr ⟨hu, ⟨data, ttl, ha⟩, expiry_cacheTtl _ _⟩
        · rw [setWithRetries_of_ne _ _ _ _ hk] at h
          exact .inl h

/-- What a lookup finds in the dictionary it leaves was there before, or it is a copy. -/
theorem lookup_entry {key : String} {e : Entry BanValue} (h : lookup d c key = some e) :
    d key = some e ∨ CopiedBy c key e := by
  unfold lookup Lookup.isBanned at h
  split at h
  · exact .inl h
  split at h
  · exact checkBan_entry h
  split at h
  · rename_i d' hd'
    rcases checkBan_entry h with h | h
    · exact checkBan_entry (by rw [hd']; exact h)
    · exact .inr h
  · exact checkBan_entry h

/-- A lookup that changes what its dictionary holds under a key copies it from Redis. -/
theorem isBanned_datastore (env : BanEnv) (now : Nat) (ip : String) (serverName : Option String)
    (st : BanStores) (key : String) :
    (isBanned env now ip serverName st).2.datastore key = st.datastore key ∨
      (isBanned env now ip serverName st).2.datastore key = none ∨
      env.useRedis = true ∧ st.redis.get now key ≠ none := by
  have hlookup := congrArg Prod.snd (lookup_redis env now ip serverName st)
  dsimp only at hlookup
  rw [← hlookup]
  cases he : (Lookup.isBanned ⟨now, ip, serverName, env.useRedis, env.redisUp,
      redisAnswer st.redis now⟩ st.datastore).2 key with
  | none => exact .inr (.inl rfl)
  | some e =>
    rcases lookup_entry he with hold | ⟨hu, ⟨data, ttl, hsee⟩, -⟩
    · exact .inl hold.symm
    · refine .inr (.inr ⟨hu, fun hnone => ?_⟩)
      change redisAnswer st.redis now key = _ at hsee
      rw [redisAnswer_of_none hnone] at hsee
      cases hsee

/-- In a run that starts without the key, what the dictionary holds under it is a copy. -/
theorem run_lookup_entry {key : String} (h0 : d key = none) (calls : List Lookup)
    {e : Entry BanValue} (h : Run.run lookup d calls key = some e) :
    ∃ c ∈ calls, CopiedBy c key e := by
  induction calls using List.reverseRecOn with
  | nil => rw [Run.run_nil, h0] at h; cases h
  | append_singleton calls c ih =>
    rw [Run.run_append] at h
    rcases lookup_entry h with h | h
    · obtain ⟨c', hc', hcopy⟩ := ih h
      exact ⟨c', List.mem_append_left _ hc', hcopy⟩
    · exact ⟨c, by simp, h⟩

theorem checkBan_true (h : (c.checkBan key d).1 = some true) :
    (d.get c.now key).isSome ∨ c.Sees key := by
  cases hl : d.get c.now key with
  | some v => exact .inl rfl
  | none =>
    cases hu : c.useRedis with
    | false => rw [checkBan_of_no_redis hl hu] at h; cases h
    | true =>
      rw [checkBan_of_answer hl hu] at h
      cases ha : c.answer key with
      | error => rw [ha] at h; cases h
      | null => rw [ha] at h; cases h
      | value data ttl => exact .inr ⟨data, ttl, ha⟩

theorem checkBan_false {d' : Store String BanValue} (h : c.checkBan key d = (some false, d')) :
    d' = d := by
  cases hl : d.get c.now key with
  | some v => rw [checkBan_of_local (by simp [hl])] at h; cases h
  | none =>
    cases hu : c.useRedis with
    | false => rw [checkBan_of_no_redis hl hu] at h; exact (Prod.mk.inj h).2.symm
    | true =>
      rw [checkBan_of_answer hl hu] at h
      cases ha : c.answer key with
      | error => rw [ha] at h; cases h
      | null => rw [ha] at h; exact (Prod.mk.inj h).2.symm
      | value data ttl => rw [ha] at h; cases h

/-- A lookup reports a ban that the dictionary has, or one that it sees in Redis. -/
theorem isBanned_source (h : (c.isBanned d).1 = some true) :
    ∃ key, c.AsksFor key ∧ ((d.get c.now key).isSome ∨ c.Sees key) := by
  unfold Lookup.isBanned at h
  split at h
  · cases h
  split at h
  · exact ⟨_, .inl rfl, checkBan_true h⟩
  rename_i server hs
  split at h
  · rename_i d' hd'
    obtain rfl := checkBan_false hd'
    exact ⟨_, .inl rfl, checkBan_true h⟩
  · exact ⟨_, .inr ⟨server, hs, rfl⟩, checkBan_true h⟩

theorem checkBan_of_sees (hu : c.useRedis = true) (hsee : c.Sees key) :
    (c.checkBan key d).1 = some true := by
  cases hl : d.get c.now key with
  | some v => rw [checkBan_of_local (by simp [hl])]
  | none =>
    obtain ⟨data, ttl, ha⟩ := hsee
    rw [checkBan_of_answer hl hu, ha]

theorem checkBan_ne_none (hu : c.useRedis = true) (ha : c.answer key ≠ .error) :
    (c.checkBan key d).1 ≠ none := by
  cases hl : d.get c.now key with
  | some v => rw [checkBan_of_local (by simp [hl])]; simp
  | none =>
    rw [checkBan_of_answer hl hu]
    cases hk : c.answer key with
    | error => exact absurd hk ha
    | null => simp
    | value data ttl => simp

/-- A lookup that finds neither key anywhere says so. -/
theorem isBanned_of_absent (h : ∀ key, c.AsksFor key →
    d.get c.now key = none ∧ (c.useRedis = true → c.answer key = .null)) :
    (c.isBanned d).1 = if c.useRedis && !c.connects then none else some false := by
  have hcheck : ∀ key, c.AsksFor key → c.checkBan key d = (some false, d) := by
    intro key hask
    obtain ⟨hl, ha⟩ := h key hask
    cases hu : c.useRedis with
    | false => exact checkBan_of_no_redis hl hu
    | true => rw [checkBan_of_answer hl hu, ha hu]
  unfold Lookup.isBanned
  split
  · rfl
  cases hs : c.serverName with
  | none => rw [hcheck _ (.inl rfl)]
  | some server => simp only [hcheck _ (.inr ⟨server, hs, rfl⟩), hcheck _ (.inl rfl)]

/-- A lookup that Redis answers reports what it sees there. -/
theorem isBanned_of_sees (ha : c.Answered) (hask : c.AsksFor key) (hsee : c.Sees key) :
    (c.isBanned d).1 = some true := by
  unfold Lookup.isBanned
  rw [if_neg (by simp [ha.connects])]
  cases hs : c.serverName with
  | none =>
    rcases hask with rfl | ⟨server, hserver, -⟩
    · exact checkBan_of_sees ha.useRedis hsee
    · rw [hs] at hserver; cases hserver
  | some server =>
    have hne := checkBan_ne_none (d := d) ha.useRedis (ha.answers _ (.inr ⟨server, hs, rfl⟩))
    rcases hask with rfl | ⟨server', hserver, rfl⟩
    · dsimp only
      split
      · exact checkBan_of_sees ha.useRedis hsee
      · rename_i hfalse
        rcases hr : c.checkBan (serviceBanKey server c.ip) d with ⟨_ | _ | _, d'⟩
        · rw [hr] at hne; exact absurd rfl hne
        · exact absurd hr (hfalse d')
        · rfl
    · obtain rfl : server = server' := Option.some.inj (hs.symm.trans hserver)
      have htrue := checkBan_of_sees (d := d) ha.useRedis hsee
      dsimp only
      split
      · rename_i hr
        rw [hr] at htrue; cases htrue
      · exact htrue

/-- **Bans of Redis.** In every run of lookups from a dictionary without bans of the address: when
no lookup from the instant `t` on has seen a ban key of it in Redis, a lookup that is
`banLocalCacheTtl` seconds past `t` does not report the address; and a lookup that Redis answers
reports every ban that it sees there. -/
theorem redis_ban_staleness {ip : String} (h0 : ∀ key, BanKeyOf ip key → d key = none)
    (calls : List Lookup) :
    ∀ pre c post, calls = pre ++ c :: post → c.ip = ip →
      (∀ t, (∀ c' ∈ pre ++ [c], t ≤ c'.now → ∀ key, BanKeyOf ip key → ¬ c'.Sees key) →
        t + 1000 * banLocalCacheTtl ≤ c.now →
        (c.isBanned (Run.run lookup d pre)).1 ≠ some true) ∧
      (c.Answered → ∀ key, c.AsksFor key → c.Sees key →
        (c.isBanned (Run.run lookup d pre)).1 = some true) := by
  rintro pre c post - rfl
  refine ⟨fun t hgone hlate hbanned => ?_, fun ha key hask hsee => isBanned_of_sees ha hask hsee⟩
  obtain ⟨key, hask, hlocal | hsee⟩ := isBanned_source hbanned
  · -- The entry is a copy: the lookup that made it saw the key before `t`.
    obtain ⟨v, hv⟩ := Option.isSome_iff_exists.mp hlocal
    obtain ⟨e, he, hlive, -⟩ := Store.get_eq_some.mp hv
    obtain ⟨c', hc', -, hsee, x, hx, hle⟩ := run_lookup_entry (h0 _ hask.banKeyOf) pre he
    have hlt : c.now < x := hlive x hx
    have ht : t ≤ c'.now := by omega
    exact hgone c' (List.mem_append_left _ hc') ht key hask.banKeyOf hsee
  · exact hgone c (by simp) (by omega) key hask.banKeyOf hsee

/-- A ban that Redis had at the first lookup is not reported by the second one, which comes after
the copy has expired. -/
theorem redis_ban_staleness_deleted :
    (({ lookupWith true (fun _ => .null) with now := 30001 } : Lookup).isBanned
      (Run.run lookup Store.empty
        [lookupWith true fun _ => .value (.text "bad behavior") (-1)])).1 ≠ some true := by
  refine (redis_ban_staleness (fun _ _ => rfl) _ _ _ [] rfl rfl).1 1 (fun c' hc' ht key _ => ?_)
    (by decide)
  rcases List.mem_cons.mp hc' with rfl | hc'
  · exact absurd ht (by decide)
  · obtain rfl := List.mem_singleton.mp hc'
    rintro ⟨data, ttl, h⟩
    cases h

end

end BunkerWeb.Lua
