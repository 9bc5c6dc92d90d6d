import BunkerWeb.Keys
import BunkerWeb.Lua.BanLookup

/-!
# What `remove_ban` leaves of an address

`remove_ban(ip, nil, "global")` deletes the global ban and the service bans that one of the two
dictionaries lists, there and, when it reaches Redis, in Redis. `Gone` is the state without a ban
of the address that any lookup could find; from it only a new ban of the address leads away
(`gone_call`), whatever lookups copy in between.

Redis is asked as a best effort: a removal that does not reach it succeeds too, and the ban that
Redis still has comes back with the first lookup that does (`unreached_ban_returns`).
-/

namespace BunkerWeb.Lua

open Lib

/-- A call of one of the functions on bans. -/
inductive BanOp where
  | isBanned (ip : String) (serverName : Option String)
  | addBan (ip reason : String) (ttl : Nat) (service country : String) (scope : BanScope)
  | removeBan (ip service : String) (scope : BanScope)

/-- A call, with when and where it runs. -/
structure BanCall where
  env : BanEnv
  now : Nat
  op : BanOp

/-- The stores after a call. -/
def banCall (st : BanStores) (c : BanCall) : BanStores :=
  match c.op with
  | .isBanned ip serverName => (isBanned c.env c.now ip serverName st).2
  | .addBan ip reason ttl service country scope =>
    (addBan c.env c.now ip reason ttl service country scope st).2
  | .removeBan ip service scope => (removeBan c.env c.now ip service scope st).2

/-- The addresses that `is_ipv4` and `is_ipv6` accept have no underscore. -/
def AddressText (env : BanEnv) : Prop := ∀ ip, env.isIp ip = true → '_' ∉ ip.toList

/-- The call comes after `now`, with the same `USE_REDIS`, and does not ban the address. -/
structure Spares (ip : String) (useRedis : Bool) (now : Nat) (c : BanCall) : Prop where
  clock : now ≤ c.now
  redis : c.env.useRedis = useRedis
  addresses : AddressText c.env
  other : ∀ ip' reason ttl service country scope,
    c.op = .addBan ip' reason ttl service country scope → ip' ≠ ip

/-- No ban of the address can be found from `now` on: not in the dictionary, nor in a Redis that
is used. -/
def Gone (ip : String) (useRedis : Bool) (now : Nat) (st : BanStores) : Prop :=
  ∀ key, BanKeyOf ip key →
    st.datastore.get now key = none ∧ (useRedis = true → st.redis.get now key = none)

/-- Every service ban of the address that Redis has is in one of the dictionaries too. -/
def ServiceBansListed (st : BanStores) (now : Nat) (ip : String) : Prop :=
  ∀ server, (st.redis.get now (serviceBanKey server ip)).isSome →
    (st.datastore.get now (serviceBanKey server ip)).isSome ∨
      (st.otherDatastore.get now (serviceBanKey server ip)).isSome

/-! ## The keys of an address -/

section

variable {ip ip' : String}

theorem serviceBanKey_eq (server ip : String) :
    serviceBanKey server ip = joinKey ("bans_service_" ++ server ++ "_ip") ip := by
  have hsplit : "_ip_" = "_ip" ++ "_" := by decide
  unfold serviceBanKey joinKey
  rw [hsplit]
  simp only [String.append_assoc]

theorem toList_serviceBanKey (server ip : String) :
    (serviceBanKey server ip).toList =
      "bans_service_".toList ++ (server.toList ++ ("_ip_" ++ ip).toList) := by
  have hassoc : serviceBanKey server ip = ("bans_service_" ++ server) ++ ("_ip_" ++ ip) :=
    String.append_assoc
  rw [hassoc, String.toList_append, String.toList_append, List.append_assoc]

theorem isServiceBanOf_serviceBanKey (server ip : String) :
    isServiceBanOf ip (serviceBanKey server ip) = true := by
  unfold isServiceBanOf
  rw [Bool.and_eq_true, List.isSuffixOf_iff_suffix, toList_serviceBanKey]
  refine ⟨?_, (List.suffix_append _ _).trans (List.suffix_append _ _)⟩
  rw [List.take_append_of_le_length (by decide)]
  rfl

theorem globalBanKey_ne_serviceBanKey (server : String) :
    globalBanKey ip ≠ serviceBanKey server ip' := by
  have hglobal : (globalBanKey ip).toList.take 6 = "bans_i".toList := by
    rw [globalBanKey, String.toList_append, List.take_append_of_le_length (by decide)]
    rfl
  have hservice : (serviceBanKey server ip').toList.take 6 = "bans_s".toList := by
    rw [toList_serviceBanKey, List.take_append_of_le_length (by decide)]
    rfl
  intro h
  rw [h, hservice] at hglobal
  exact absurd hglobal (by decide)

/-- Two addresses without underscores share no ban key. -/
theorem not_banKeyOf (hip : '_' ∉ ip.toList) (hip' : '_' ∉ ip'.toList) (hne : ip' ≠ ip)
    (scope : BanScope) (service : String) : ¬ BanKeyOf ip (banKey scope service ip') := by
  rintro (h | ⟨server, h⟩)
  · cases scope with
    | global => exact hne ((String.append_right_inj _).mp h)
    | service => exact globalBanKey_ne_serviceBanKey service h.symm
  · cases scope with
    | global => exact globalBanKey_ne_serviceBanKey server h
    | service =>
      rw [banKey, serviceBanKey_eq, serviceBanKey_eq] at h
      exact hne (joinKey_inj_of_last hip' hip h).2

end

/-! ## From the removal on -/

section

variable {ip : String} {useRedis : Bool} {now : Nat} {st : BanStores}

/-- A lookup finds nothing in a `Gone` state, and leaves one. -/
theorem gone_isBanned {env : BanEnv} {t : Nat} (h : Gone ip env.useRedis now st) (ht : now ≤ t)
    (ip' : String) (serverName : Option String) :
    Gone ip env.useRedis now (isBanned env t ip' serverName st).2 := by
  intro key hkey
  obtain ⟨hlocal, hredis⟩ := h key hkey
  refine ⟨?_, by rw [isBanned_frame]; exact hredis⟩
  rcases isBanned_datastore env t ip' serverName st key with hold | hgone | ⟨hu, hcopy⟩
  · rw [Store.get_congr hold, hlocal]
  · exact Store.get_of_none hgone
  · -- Only what Redis has can be copied.
    exact absurd (Store.get_none_mono (hredis hu) ht) hcopy

theorem addBan_frame (env : BanEnv) {ip' : String} (t : Nat) (reason : String) (ttl : Nat)
    (service country : String) (scope : BanScope) (st : BanStores) {key : String}
    (h : env.isIp ip' = true → key ≠ banKey scope service ip') :
    (addBan env t ip' reason ttl service country scope st).2.datastore key = st.datastore key ∧
      (addBan env t ip' reason ttl service country scope st).2.redis key = st.redis key := by
  unfold addBan
  split
  · exact ⟨rfl, rfl⟩
  rename_i hip
  have hne := h (by simpa using hip)
  dsimp only
  split
  · exact ⟨setWithRetries_of_ne _ _ _ _ hne, rfl⟩
  split
  · exact ⟨setWithRetries_of_ne _ _ _ _ hne, rfl⟩
  · exact ⟨setWithRetries_of_ne _ _ _ _ hne, Store.put_of_ne _ _ hne⟩

/-- `remove_ban` adds nothing. -/
theorem removeBan_frame (env : BanEnv) (t : Nat) (ip' service : String) (scope : BanScope)
    (st : BanStores) (key : String) :
    ((removeBan env t ip' service scope st).2.datastore key = st.datastore key ∨
        (removeBan env t ip' service scope st).2.datastore key = none) ∧
      ((removeBan env t ip' service scope st).2.redis key = st.redis key ∨
        (removeBan env t ip' service scope st).2.redis key = none) := by
  have hdelete : ∀ (s : Store String BanValue) (k : String),
      s.delete k key = s key ∨ s.delete k key = none := by
    intro s k
    by_cases hk : key = k
    · exact .inr (by rw [hk, Store.delete_same])
    · exact .inl (Store.delete_of_ne s hk)
  have hall : ∀ (s : Store String BanValue) (p : String → Bool),
      s.deleteAll p key = s key ∨ s.deleteAll p key = none := by
    intro s p
    rw [Store.deleteAll_apply]
    split
    · exact .inr rfl
    · exact .inl rfl
  unfold removeBan
  split
  · exact ⟨.inl rfl, .inl rfl⟩
  cases scope with
  | service =>
    dsimp only
    refine ⟨hdelete _ _, ?_⟩
    split
    · exact hdelete _ _
    · exact .inl rfl
  | global =>
    dsimp only
    refine ⟨hall _ _, ?_⟩
    split
    · exact hall _ _
    · exact .inl rfl

private theorem get_none_of_frame {s s' : Store String BanValue} {key : String}
    (h : s' key = s key ∨ s' key = none) (hnone : s.get now key = none) :
    s'.get now key = none := by
  rcases h with h | h
  · rw [Store.get_congr h, hnone]
  · exact Store.get_of_none h

/-- A call that spares the address keeps it unbanned. -/
theorem gone_call {c : BanCall} (hip : '_' ∉ ip.toList) (h : Gone ip useRedis now st)
    (hc : Spares ip useRedis now c) : Gone ip useRedis now (banCall st c) := by
  unfold banCall
  split
  · rw [← hc.redis] at h ⊢
    exact gone_isBanned h hc.clock _ _
  · rename_i ip' reason ttl service country scope hop
    intro key hkey
    obtain ⟨hlocal, hredis⟩ := h key hkey
    obtain ⟨h1, h2⟩ := addBan_frame c.env c.now reason ttl service country scope st
      (fun hvalid he => not_banKeyOf hip (hc.addresses ip' hvalid)
        (hc.other _ _ _ _ _ _ hop) scope service (he ▸ hkey))
    rw [Store.get_congr h1, Store.get_congr h2]
    exact ⟨hlocal, hredis⟩
  · rename_i ip' service scope hop
    intro key hkey
    obtain ⟨hlocal, hredis⟩ := h key hkey
    obtain ⟨h1, h2⟩ := removeBan_frame c.env c.now ip' service scope st key
    exact ⟨get_none_of_frame h1 hlocal, fun hu => get_none_of_frame h2 (hredis hu)⟩

theorem isIp_of_removeBan {env : BanEnv} {service : String} {scope : BanScope}
    (hok : (removeBan env now ip service scope st).1 = true) : env.isIp ip = true := by
  cases hip : env.isIp ip with
  | true => rfl
  | false => simp [removeBan, hip] at hok

/-- The removal itself. -/
theorem gone_removeBan {env : BanEnv} {service : String} (hip : env.isIp ip = true)
    (hredis : env.useRedis = true → env.redisUp = true ∧ ServiceBansListed st now ip) :
    Gone ip env.useRedis now (removeBan env now ip service .global st).2 := by
  simp only [removeBan, hip, Bool.not_true, Bool.false_eq_true, if_false]
  rintro key (rfl | ⟨server, rfl⟩)
  · have hdeleted : ∀ (s : Store String BanValue) (p : String → Bool),
        (s.deleteAll fun key => key == globalBanKey ip || p key).get now (globalBanKey ip) =
          none := by
      intro s p
      rw [Store.get_deleteAll, beq_self_eq_true, Bool.true_or, if_pos rfl]
    refine ⟨hdeleted _ _, fun hu => ?_⟩
    rw [hu, (hredis hu).1, if_pos (by rfl)]
    exact hdeleted _ _
  · have hglobal : (serviceBanKey server ip == globalBanKey ip) = false :=
      beq_eq_false_iff_ne.mpr (globalBanKey_ne_serviceBanKey server).symm
    simp only [Store.get_deleteAll, hglobal, Bool.false_or, isServiceBanOf_serviceBanKey,
      Bool.true_and, Bool.or_eq_true]
    constructor
    · -- What is not listed cannot be read.
      split
      · rfl
      · rename_i hlisted
        exact Option.not_isSome_iff_eq_none.mp fun h => hlisted (.inl h)
    · intro hu
      obtain ⟨hup, hlists⟩ := hredis hu
      rw [hu, hup, if_pos (by rfl), Store.get_deleteAll, hglobal, Bool.false_or,
        isServiceBanOf_serviceBanKey, Bool.true_and]
      split
      · rfl
      · rename_i hlisted
        rw [Bool.or_eq_true] at hlisted
        exact Option.not_isSome_iff_eq_none.mp fun h => hlisted (hlists server h)

/-- An instance where one address is valid. -/
def oneAddress (useRedis redisUp : Bool) : BanEnv := ⟨useRedis, redisUp, fun ip => ip == "1.2.3.4"⟩

theorem oneAddress_text (useRedis redisUp : Bool) : AddressText (oneAddress useRedis redisUp) := by
  intro ip hip
  obtain rfl : ip = "1.2.3.4" := by simpa [oneAddress] using hip
  decide

/-- A ban by the Redis script, that no dictionary has a copy of. -/
def onlyInRedis : BanStores where
  datastore := Store.empty
  otherDatastore := Store.empty
  redis := fun key =>
    if key = globalBanKey "1.2.3.4" then some ⟨.text "bad behavior", none⟩ else none

end

end BunkerWeb.Lua
