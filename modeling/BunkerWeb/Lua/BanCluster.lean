import BunkerWeb.Lua.Unban
import Mathlib.Data.Set.Basic

/-!
# The bans of a cluster (`bw/lua/bunkerweb/utils.lua`)

Instances with dictionaries of their own share one Redis. A call of `add_ban`, `remove_ban` or
`is_banned` runs on one of them, and the calls of all instances come in any order.

- **What the calls are for** (`Bans`): a ban has a scope, an address and a time when it ends. It is in
  force from the `add_ban` that reports success to the `remove_ban` that names it.
- **Enforcement** (`enforced`): every instance reports a ban that is in force.
- **Unbanning** (`unbanned_everywhere`): when `remove_ban` has run on all instances, none of them
  reports the address any more once the copies of the lookups in between have expired.
-/

namespace BunkerWeb.Lua

open Lib

/-- A ban of the address, for a service or for all of them. -/
structure Ban where
  service : Option String
  ip : String
  deriving DecidableEq, Repr

namespace Ban

def key (b : Ban) : String :=
  match b.service with
  | some service => serviceBanKey service b.ip
  | none => globalBanKey b.ip

/-- The ban that the arguments of `add_ban` and `remove_ban` name. -/
def of (scope : BanScope) (service ip : String) : Ban :=
  match scope with
  | .service => ⟨some service, ip⟩
  | .global => ⟨none, ip⟩

@[simp] theorem key_of (scope : BanScope) (service ip : String) :
    (of scope service ip).key = banKey scope service ip := by cases scope <;> rfl

@[simp] theorem ip_of (scope : BanScope) (service ip : String) : (of scope service ip).ip = ip := by
  cases scope <;> rfl

theorem banKeyOf_key (b : Ban) : BanKeyOf b.ip b.key := by
  obtain ⟨service, ip⟩ := b
  cases service with
  | none => exact .inl rfl
  | some service => exact .inr ⟨service, rfl⟩

variable {b b' : Ban}

theorem key_inj (hb : '_' ∉ b.ip.toList) (hb' : '_' ∉ b'.ip.toList) (h : b.key = b'.key) :
    b = b' := by
  have hip : b.ip = b'.ip := by
    by_contra hne
    have hkey : BanKeyOf b'.ip b.key := h ▸ b'.banKeyOf_key
    obtain ⟨service, ip⟩ := b
    cases service with
    | none => exact not_banKeyOf hb' hb hne .global "" hkey
    | some service => exact not_banKeyOf hb' hb hne .service service hkey
  obtain ⟨service, ip⟩ := b
  obtain ⟨service', ip'⟩ := b'
  obtain rfl : ip = ip' := hip
  cases service with
  | none =>
    cases service' with
    | none => rfl
    | some service' => exact absurd h (globalBanKey_ne_serviceBanKey service')
  | some service =>
    cases service' with
    | none => exact absurd h.symm (globalBanKey_ne_serviceBanKey service)
    | some service' =>
      have hl := congrArg String.toList h
      simp only [key, toList_serviceBanKey] at hl
      have hservice := List.append_cancel_right (List.append_cancel_left hl)
      rw [String.toList_injective hservice]

/-- The pattern of `remove_ban` for the service bans of an address finds those and no others. -/
theorem ip_of_isServiceBanOf {ip : String} (hip : '_' ∉ ip.toList) (hb : '_' ∉ b.ip.toList)
    (h : isServiceBanOf ip b.key = true) : b.ip = ip := by
  obtain ⟨service, ip'⟩ := b
  unfold isServiceBanOf at h
  rw [Bool.and_eq_true, beq_iff_eq, List.isSuffixOf_iff_suffix] at h
  cases service with
  | none =>
    have hglobal : (globalBanKey ip').toList.take 6 = "bans_i".toList := by
      rw [globalBanKey, String.toList_append, List.take_append_of_le_length (by decide)]
      rfl
    have hservice := congrArg (List.take 6) h.1
    rw [List.take_take] at hservice
    have : "bans_i".toList = ("bans_service_".toList).take 6 := hglobal.symm.trans hservice
    exact absurd this (by decide)
  | some service =>
    obtain ⟨front, hfront⟩ := h.2
    have hjoin : joinKey (String.ofList front ++ "_ip") ip =
        joinKey ("bans_service_" ++ service ++ "_ip") ip' := by
      rw [← serviceBanKey_eq]
      refine String.toList_injective ?_
      rw [toList_joinKey, String.toList_append, String.toList_ofList]
      refine Eq.trans ?_ hfront
      rw [String.toList_append, List.append_assoc]
      rfl
    exact (joinKey_inj_of_last hip hb hjoin).2.symm

end Ban

/-! ## What the calls are for -/

/-- The bans in force, with the times when they end. -/
abbrev Bans := Store Ban Unit

namespace Bans

def call (bans : Bans) (c : BanCall) : Bans :=
  match c.op with
  | .isBanned _ _ => bans
  | .addBan ip _ ttl service _ scope =>
    if c.env.isIp ip && c.env.redisUp then
      bans.put (Ban.of scope service ip) ⟨(), expiry c.now (some ttl)⟩
    else bans
  | .removeBan ip service scope =>
    if !c.env.isIp ip then bans
    else
      match scope with
      | .service => bans.delete ⟨some service, ip⟩
      | .global => bans.deleteAll fun b => b.ip == ip

end Bans

/-! ## The cluster -/

structure Cluster (ι : Type*) where
  datastore : ι → Store String BanValue
  otherDatastore : ι → Store String BanValue
  redis : Store String BanValue

namespace Cluster

variable {ι : Type*}

def empty : Cluster ι := ⟨fun _ => Store.empty, fun _ => Store.empty, Store.empty⟩

/-- What the functions see on an instance. -/
def stores (c : Cluster ι) (i : ι) : BanStores := ⟨c.datastore i, c.otherDatastore i, c.redis⟩

variable [DecidableEq ι]

/-- A call on an instance. -/
def call (c : Cluster ι) (e : ι × BanCall) : Cluster ι :=
  let st := banCall (c.stores e.1) e.2
  ⟨Function.update c.datastore e.1 st.datastore,
    Function.update c.otherDatastore e.1 st.otherDatastore, st.redis⟩

@[simp] theorem call_redis (c : Cluster ι) (e : ι × BanCall) :
    (c.call e).redis = (banCall (c.stores e.1) e.2).redis := rfl

@[simp] theorem call_datastore_same (c : Cluster ι) (e : ι × BanCall) :
    (c.call e).datastore e.1 = (banCall (c.stores e.1) e.2).datastore := Function.update_self ..

theorem call_datastore_of_ne (c : Cluster ι) (e : ι × BanCall) {i : ι} (h : i ≠ e.1) :
    (c.call e).datastore i = c.datastore i := Function.update_of_ne h ..

end Cluster

/-! ## Enforcement -/

/-- Every ban that is in force is in Redis, and ends there at the same time. -/
def Enforced (bans : Bans) (redis : Store String BanValue) : Prop :=
  ∀ b e, bans b = some e →
    '_' ∉ b.ip.toList ∧ ∃ value, redis b.key = some ⟨value, e.expires⟩

section

variable {bans : Bans} {st : BanStores} {c : BanCall}

theorem expires_addBan (now ttl : Nat) :
    (if ttl = 0 then none else some (now + 1000 * ttl)) = expiry now (some ttl) := by
  cases ttl <;> rfl

theorem addBan_redis {env : BanEnv} (hu : env.useRedis = true) (now : Nat) (ip reason : String)
    (ttl : Nat) (service country : String) (scope : BanScope) (st : BanStores) :
    (addBan env now ip reason ttl service country scope st).2.redis =
      if env.isIp ip && env.redisUp then
        st.redis.put (banKey scope service ip)
          ⟨.data reason service (timestamp now) country scope (decide (ttl = 0)),
            expiry now (some ttl)⟩
      else st.redis := by
  unfold addBan
  rw [expires_addBan]
  cases hip : env.isIp ip <;> cases hup : env.redisUp <;> simp [hu]

theorem enforced_addBan (hu : c.env.useRedis = true) (ha : AddressText c.env)
    (h : Enforced bans st.redis) {ip reason service country : String} {ttl : Nat}
    {scope : BanScope} (hop : c.op = .addBan ip reason ttl service country scope) :
    Enforced (bans.call c) (banCall st c).redis := by
  intro b e he
  rw [Bans.call, hop] at he
  rw [banCall, hop]
  dsimp only at he ⊢
  rw [addBan_redis hu]
  by_cases hdone : (c.env.isIp ip && c.env.redisUp) = true
  · rw [if_pos hdone] at he
    rw [if_pos hdone, ← Ban.key_of]
    rw [Bool.and_eq_true] at hdone
    have hip : '_' ∉ (Ban.of scope service ip).ip.toList := by
      rw [Ban.ip_of]
      exact ha ip hdone.1
    by_cases hb : b = Ban.of scope service ip
    · subst hb
      rw [Store.put_same] at he
      cases he
      exact ⟨hip, _, Store.put_same _ _ _⟩
    · rw [Store.put_of_ne _ _ hb] at he
      obtain ⟨hb', value, hvalue⟩ := h b e he
      refine ⟨hb', value, ?_⟩
      rw [Store.put_of_ne _ _ fun hk => hb (Ban.key_inj hb' hip hk), hvalue]
  · rw [if_neg hdone] at he ⊢
    exact h b e he

theorem enforced_removeBan (ha : AddressText c.env) (h : Enforced bans st.redis)
    {ip service : String} {scope : BanScope} (hop : c.op = .removeBan ip service scope) :
    Enforced (bans.call c) (banCall st c).redis := by
  intro b e he
  rw [Bans.call, hop] at he
  rw [banCall, hop]
  dsimp only at he ⊢
  unfold removeBan
  cases hvalid : c.env.isIp ip with
  | false =>
    rw [hvalid] at he
    exact h b e he
  | true =>
    rw [hvalid] at he
    have hip := ha ip hvalid
    simp only [Bool.not_true, Bool.false_eq_true, if_false] at he ⊢
    cases scope with
    | service =>
      dsimp only at he ⊢
      by_cases hb : b = ⟨some service, ip⟩
      · rw [hb, Store.delete_same] at he
        cases he
      · rw [Store.delete_of_ne _ hb] at he
        obtain ⟨hb', value, hvalue⟩ := h b e he
        refine ⟨hb', value, ?_⟩
        split
        · have hk : b.key ≠ serviceBanKey service ip := fun hk =>
            hb (@Ban.key_inj b ⟨some service, ip⟩ hb' hip hk)
          rw [Store.delete_of_ne _ hk, hvalue]
        · exact hvalue
    | global =>
      dsimp only at he ⊢
      rw [Store.deleteAll_apply] at he
      by_cases hb : b.ip = ip
      · rw [if_pos (beq_iff_eq.mpr hb)] at he
        cases he
      · rw [if_neg (fun hbeq => hb (beq_iff_eq.mp hbeq))] at he
        obtain ⟨hb', value, hvalue⟩ := h b e he
        refine ⟨hb', value, ?_⟩
        have hglobal : (b.key == globalBanKey ip) = false := beq_eq_false_iff_ne.mpr fun hk =>
          hb (congrArg Ban.ip (@Ban.key_inj b ⟨none, ip⟩ hb' hip hk))
        have hservice : isServiceBanOf ip b.key = false := Bool.eq_false_iff.mpr fun hk =>
          hb (Ban.ip_of_isServiceBanOf hip hb' hk)
        split
        · rw [Store.deleteAll_apply, hglobal, hservice]
          exact hvalue
        · exact hvalue

/-- Redis keeps the bans that are in force, whatever it refuses. -/
theorem enforced_call (hu : c.env.useRedis = true) (ha : AddressText c.env)
    (h : Enforced bans st.redis) : Enforced (bans.call c) (banCall st c).redis := by
  cases hop : c.op with
  | isBanned ip serverName =>
    rw [Bans.call, banCall, hop]
    dsimp only
    rw [isBanned_frame]
    exact h
  | addBan ip reason ttl service country scope => exact enforced_addBan hu ha h hop
  | removeBan ip service scope => exact enforced_removeBan ha h hop

end

/-- Redis is used and reached, and the valid addresses have no underscores. -/
structure Reaches (env : BanEnv) : Prop where
  useRedis : env.useRedis = true
  redisUp : env.redisUp = true
  addresses : AddressText env

section

variable {ι : Type*} [DecidableEq ι] {ip : String}

theorem enforced_run {calls : List (ι × BanCall)} {bans : Bans} {c : Cluster ι}
    (h : Enforced bans c.redis)
    (hcalls : ∀ e ∈ calls, e.2.env.useRedis = true ∧ AddressText e.2.env) :
    Enforced (Run.run Bans.call bans (calls.map Prod.snd)) (Run.run Cluster.call c calls).redis := by
  induction calls generalizing bans c with
  | nil => exact h
  | cons e calls ih =>
    obtain ⟨he, hcalls⟩ := List.forall_mem_cons.mp hcalls
    exact ih (enforced_call he.1 he.2 h) hcalls

/-- **Enforcement.** In every order of the calls of any number of instances, whether they reach Redis
or not: a ban that is in force is reported by every instance that reaches Redis. -/
theorem enforced {calls : List (ι × BanCall)}
    (hcalls : ∀ e ∈ calls, e.2.env.useRedis = true ∧ AddressText e.2.env)
    {env : BanEnv} (henv : Reaches env) (now : Nat) (i : ι) (server : String)
    (hban : ((Run.run Bans.call Store.empty (calls.map Prod.snd)).get now ⟨some server, ip⟩).isSome ∨
      ((Run.run Bans.call Store.empty (calls.map Prod.snd)).get now ⟨none, ip⟩).isSome) :
    (isBanned env now ip (some server) ((Run.run Cluster.call .empty calls).stores i)).1 =
      some true := by
  have hend : Enforced (Run.run Bans.call Store.empty (calls.map Prod.snd))
      (Run.run Cluster.call .empty calls).redis :=
    enforced_run (fun _ _ h => by cases h) hcalls
  generalize Run.run Bans.call Store.empty (calls.map Prod.snd) = bans at hban hend
  generalize Run.run Cluster.call .empty calls = c at hend
  have hlive : ∀ b : Ban, (bans.get now b).isSome → ∃ data ttl,
      redisAnswer c.redis now b.key = .value data ttl := by
    intro b hb
    obtain ⟨u, hu⟩ := Option.isSome_iff_exists.mp hb
    obtain ⟨e, he, hl, -⟩ := Store.get_eq_some.mp hu
    obtain ⟨-, value, hvalue⟩ := hend b e he
    refine ⟨value, redisTtl ⟨value, e.expires⟩ now, ?_⟩
    rw [redisAnswer, hvalue]
    exact if_pos hl
  have hlookup := congrArg Prod.fst (lookup_redis env now ip (some server) (c.stores i))
  dsimp only at hlookup
  rw [← hlookup]
  have hanswered : Lookup.Answered ⟨now, ip, some server, env.useRedis, env.redisUp,
      redisAnswer (c.stores i).redis now⟩ := by
    refine ⟨henv.useRedis, henv.redisUp, fun key _ => ?_⟩
    show redisAnswer c.redis now key ≠ .error
    unfold redisAnswer
    split
    · exact fun h => by cases h
    · split <;> exact fun h => by cases h
  rcases hban with hban | hban
  · have hask : Lookup.AsksFor ⟨now, ip, some server, env.useRedis, env.redisUp,
        redisAnswer (c.stores i).redis now⟩ (serviceBanKey server ip) := .inr ⟨server, rfl, rfl⟩
    exact isBanned_of_sees hanswered hask (hlive _ hban)
  · have hask : Lookup.AsksFor ⟨now, ip, some server, env.useRedis, env.redisUp,
        redisAnswer (c.stores i).redis now⟩ (globalBanKey ip) := .inl rfl
    exact isBanned_of_sees hanswered hask (hlive _ hban)

/-- One of two instances bans an address for a service. -/
def oneBan : List (Bool × BanCall) :=
  [(false, ⟨oneAddress true true, 0, .addBan "1.2.3.4" "manual" 100 "www" "FR" .service⟩)]

/-- The other one knows it from Redis. -/
theorem enforced_elsewhere :
    (isBanned (oneAddress true true) 5000 "1.2.3.4" (some "www")
      ((Run.run Cluster.call .empty oneBan).stores true)).1 = some true := by
  refine enforced (fun e he => ?_) ⟨rfl, rfl, oneAddress_text true true⟩ 5000 true "www"
    (.inl (by decide))
  obtain rfl := List.mem_singleton.mp he
  exact ⟨rfl, oneAddress_text true true⟩

end

/-! ## One call -/

section

variable {env : BanEnv} {now : Nat} {ip : String} {st : BanStores} {key : String}

theorem checkBan_of_live (h : (st.datastore.get now key).isSome) (key' : String) :
    (checkBan env now key' st).2.datastore key = st.datastore key := by
  unfold checkBan
  split
  · rfl
  rename_i hnone
  split
  · rfl
  split
  · rfl
  split
  · have hne : key ≠ key' := fun he => by
      rw [he, hnone] at h
      cases h
    exact setWithRetries_of_ne _ _ _ _ hne
  · rfl

/-- A lookup leaves an entry that can be read. -/
theorem isBanned_of_live (h : (st.datastore.get now key).isSome) (serverName : Option String) :
    (isBanned env now ip serverName st).2.datastore key = st.datastore key := by
  unfold isBanned
  split
  · rfl
  split
  · exact checkBan_of_live h _
  · rename_i server
    have hserver : (checkBan env now (serviceBanKey server ip) st).2.datastore key =
        st.datastore key := checkBan_of_live h _
    dsimp only
    split
    · exact hserver
    · dsimp only
      rw [checkBan_of_live (by rw [Store.get_congr hserver]; exact h), hserver]

/-- What a lookup puts under a key expires as the copies do. -/
theorem isBanned_copy {serverName : Option String} {e : Entry BanValue}
    (h : (isBanned env now ip serverName st).2.datastore key = some e) :
    st.datastore key = some e ∨
      ∃ t, e.expires = some t ∧ t ≤ now + 1000 * banLocalCacheTtl := by
  have hlookup := congrArg Prod.snd (lookup_redis env now ip serverName st)
  dsimp only at hlookup
  rw [← hlookup] at h
  exact (lookup_entry h).imp_right fun hcopy => hcopy.2.2

/-- The keys that `remove_ban` takes away. -/
def removes (now : Nat) (ip service : String) (scope : BanScope) (st : BanStores) (key : String) :
    Bool :=
  match scope with
  | .service => key == serviceBanKey service ip
  | .global => key == globalBanKey ip || (isServiceBanOf ip key &&
      ((st.datastore.get now key).isSome || (st.otherDatastore.get now key).isSome))

theorem delete_eq_deleteAll (s : Store String BanValue) (k : String) :
    s.delete k = s.deleteAll fun key => key == k := by
  funext key
  rw [Store.deleteAll_apply]
  by_cases hk : key = k
  · rw [hk, Store.delete_same, if_pos (beq_self_eq_true k)]
  · rw [Store.delete_of_ne _ hk, if_neg (fun hbeq => hk (beq_iff_eq.mp hbeq))]

/-- A removal that reaches Redis takes the same keys from all stores. -/
theorem removeBan_eq (henv : Reaches env) (hip : env.isIp ip = true) (service : String)
    (scope : BanScope) :
    (removeBan env now ip service scope st).2 =
      ⟨st.datastore.deleteAll (removes now ip service scope st),
        st.otherDatastore.deleteAll (removes now ip service scope st),
        st.redis.deleteAll (removes now ip service scope st)⟩ := by
  unfold removeBan removes
  cases scope <;> simp [hip, henv.useRedis, henv.redisUp, delete_eq_deleteAll]

theorem removes_of_live (h : BanKeyOf ip key) (hlive : (st.datastore.get now key).isSome)
    (service : String) : removes now ip service .global st key = true := by
  rcases h with rfl | ⟨server, rfl⟩
  · simp [removes]
  · simp [removes, isServiceBanOf_serviceBanKey, hlive]

/-- The call takes back all bans of the address. -/
def Unbans (ip : String) (c : BanCall) : Prop :=
  c.env.isIp ip = true ∧ ∃ service, c.op = .removeBan ip service .global

/-- What a call that reaches Redis does to the dictionary of its instance and to Redis. -/
inductive Effect (st : BanStores) (c : BanCall) (st' : BanStores) : Prop
  | lookup (redis : st'.redis = st.redis)
      (live : ∀ key, (st.datastore.get c.now key).isSome → st'.datastore key = st.datastore key)
      (copies : ∀ key e, st'.datastore key = some e → st.datastore key = some e ∨
        ∃ t, e.expires = some t ∧ t ≤ c.now + 1000 * banLocalCacheTtl)
      (none : ∀ ip, ¬ Unbans ip c)
  | ban (scope : BanScope) (ip reason service country : String) (ttl : Nat) (entry : Entry BanValue)
      (op : c.op = .addBan ip reason ttl service country scope) (valid : '_' ∉ ip.toList)
      (datastore : st'.datastore = st.datastore.put (banKey scope service ip) entry)
      (redis : st'.redis = st.redis.put (banKey scope service ip) entry)
  | removal (removed : String → Bool) (datastore : st'.datastore = st.datastore.deleteAll removed)
      (redis : st'.redis = st.redis.deleteAll removed)
      (all : ∀ ip, Unbans ip c → ∀ key, BanKeyOf ip key →
        (st.datastore.get c.now key).isSome → removed key = true)

theorem effect {c : BanCall} (henv : Reaches c.env) (st : BanStores) :
    Effect st c (banCall st c) := by
  have hnothing : (∀ ip, ¬ Unbans ip c) → banCall st c = st → Effect st c (banCall st c) := by
    intro hnot heq
    refine .removal (fun _ => false) ?_ ?_ fun ip h => absurd h (hnot ip)
    · rw [heq]; rfl
    · rw [heq]; rfl
  cases hop : c.op with
  | isBanned ip serverName =>
    have hcall : banCall st c = (isBanned c.env c.now ip serverName st).2 := by rw [banCall, hop]
    rw [hcall]
    refine .lookup ?_ (fun key h => isBanned_of_live h _) (fun key e h => isBanned_copy h) ?_
    · rw [isBanned_frame]
    · rintro ip' ⟨-, service, h⟩
      rw [hop] at h
      cases h
  | addBan ip reason ttl service country scope =>
    have hcall : banCall st c = (addBan c.env c.now ip reason ttl service country scope st).2 := by
      rw [banCall, hop]
    cases hip : c.env.isIp ip with
    | false =>
      refine hnothing (fun ip' h => ?_) (by rw [hcall, addBan, hip]; rfl)
      obtain ⟨-, service', h⟩ := h
      rw [hop] at h
      cases h
    | true =>
      refine .ban scope ip reason service country ttl
        ⟨.data reason service (timestamp c.now) country scope (decide (ttl = 0)),
          expiry c.now (some ttl)⟩ hop (henv.addresses ip hip) ?_ ?_
      · rw [hcall, addBan]
        simp [hip, henv.useRedis, henv.redisUp, setWithRetries]
      · rw [hcall, addBan_redis henv.useRedis, hip, henv.redisUp]
        rfl
  | removeBan ip service scope =>
    have hcall : banCall st c = (removeBan c.env c.now ip service scope st).2 := by
      rw [banCall, hop]
    cases hip : c.env.isIp ip with
    | false =>
      refine hnothing (fun ip' h => ?_) (by rw [hcall, removeBan, hip]; rfl)
      obtain ⟨hvalid, service', h⟩ := h
      rw [hop] at h
      cases h
      rw [hip] at hvalid
      cases hvalid
    | true =>
      rw [hcall, removeBan_eq henv hip]
      refine .removal _ rfl rfl fun ip' h key hkey hlive => ?_
      obtain ⟨-, service', h⟩ := h
      rw [hop] at h
      cases h
      exact removes_of_live hkey hlive service

end

/-! ## Unbanning everywhere -/

section

variable {ι : Type*} {c : Cluster ι} {ip : String}

/-- The call does not ban the address. -/
def BansOther (ip : String) (c : BanCall) : Prop :=
  ∀ ip' reason ttl service country scope,
    c.op = .addBan ip' reason ttl service country scope → ip' ≠ ip

/-- The keys of the address, when the instances of `done` have taken back its bans and the copies
expire by `limit`: what Redis has is held by another instance, which will list it. -/
structure Clearing (ip : String) (limit : Nat) (done : Set ι) (now : Nat) (c : Cluster ι) : Prop where
  held : ∀ key, BanKeyOf ip key → ∀ e, c.redis key = some e → e.Live now →
    ∃ i ∉ done, ∃ e', c.datastore i key = some e' ∧ e'.expires = e.expires
  copies : ∀ i ∈ done, ∀ key, BanKeyOf ip key → ∀ e, c.datastore i key = some e → e.Live now →
    ∃ t, e.expires = some t ∧ t ≤ limit

theorem clearing_empty (ip : String) (limit now : Nat) :
    Clearing ip limit ∅ now (.empty : Cluster ι) where
  held _ _ _ he := nomatch he
  copies _ hi := nomatch hi

theorem Clearing.mono {limit : Nat} {done : Set ι} {now now' : Nat}
    (h : Clearing ip limit done now c) (hle : now ≤ now') : Clearing ip limit done now' c where
  held key hkey e he hl := h.held key hkey e he (hl.mono hle)
  copies i hi key hkey e he hl := h.copies i hi key hkey e he (hl.mono hle)

theorem isSome_get {s : Store String BanValue} {key : String} {e e' : Entry BanValue} {now : Nat}
    (he : s key = some e') (hexp : e'.expires = e.expires) (hl : e.Live now) :
    (s.get now key).isSome := by
  have hl' : e'.Live now := fun t ht => hl t (hexp ▸ ht)
  rw [Store.get_of_live he hl']
  rfl

variable [DecidableEq ι] {limit now : Nat} {done done' : Set ι}

/-- One call. The instances that are done afterwards were so before, or the call has taken back the
bans of the address on its instance; with any of them, nobody may ban the address. -/
theorem clearing_call (hip : '_' ∉ ip.toList) (h : Clearing ip limit done now c)
    {e : ι × BanCall} (henv : Reaches e.2.env) (hclock : now ≤ e.2.now)
    (hdone : ∀ i ∈ done', i ∈ done ∨ i = e.1 ∧ Unbans ip e.2)
    (hsafe : ∀ i ∈ done', BansOther ip e.2 ∧ e.2.now + 1000 * banLocalCacheTtl ≤ limit) :
    Clearing ip limit done' e.2.now (c.call e) := by
  have hother : ∀ i, i ≠ e.1 → (c.call e).datastore i = c.datastore i := fun i =>
    Cluster.call_datastore_of_ne c e
  have hsame : (c.call e).datastore e.1 = (banCall (c.stores e.1) e.2).datastore :=
    Cluster.call_datastore_same c e
  rcases effect henv (c.stores e.1) with ⟨hredis, hlive, hcopies, hnone⟩ |
    ⟨scope, ip', reason, service, country, ttl, entry, hop, hvalid, hdatastore, hredis⟩ |
    ⟨removed, hdatastore, hredis, hall⟩
  · -- A lookup leaves what it can read, and nothing else of the address is in Redis.
    have hold : ∀ i ∈ done', i ∈ done := fun i hi =>
      (hdone i hi).resolve_right fun hu => hnone ip hu.2
    constructor
    · intro key hkey e' he hl
      have he' : c.redis key = some e' := by rw [← he, Cluster.call_redis, hredis]; rfl
      obtain ⟨i, hi, e'', hentry, hexp⟩ := h.held key hkey e' he' (hl.mono hclock)
      refine ⟨i, fun hi' => hi (hold i hi'), e'', ?_, hexp⟩
      by_cases hon : i = e.1
      · subst hon
        rw [hsame, hlive key (isSome_get hentry hexp hl)]
        exact hentry
      · rw [hother i hon, hentry]
    · intro i hi key hkey e' he hl
      by_cases hon : i = e.1
      · subst hon
        rw [hsame] at he
        rcases hcopies key e' he with he | ⟨t, ht, hle⟩
        · exact h.copies _ (hold _ hi) key hkey e' he (hl.mono hclock)
        · exact ⟨t, ht, hle.trans (hsafe _ hi).2⟩
      · rw [hother i hon] at he
        exact h.copies i (hold i hi) key hkey e' he (hl.mono hclock)
  · -- A ban is held by its own instance, which is not done when the address is this one.
    have hold : ∀ i ∈ done', i ∈ done := fun i hi => (hdone i hi).resolve_right fun hu => by
      obtain ⟨-, service', h⟩ := hu.2
      rw [hop] at h
      cases h
    have hne : ∀ i ∈ done', ∀ key, BanKeyOf ip key → key ≠ banKey scope service ip' := by
      intro i hi key hkey he
      exact not_banKeyOf hip hvalid ((hsafe i hi).1 _ _ _ _ _ _ hop) scope service (he ▸ hkey)
    constructor
    · intro key hkey e' he hl
      rw [Cluster.call_redis, hredis] at he
      by_cases hk : key = banKey scope service ip'
      · refine ⟨e.1, fun hi => hne _ hi key hkey hk, e', ?_, rfl⟩
        rw [hk, Store.put_same] at he
        rw [hsame, hdatastore, hk, Store.put_same, he]
      · rw [Store.put_of_ne _ _ hk] at he
        obtain ⟨i, hi, e'', hentry, hexp⟩ := h.held key hkey e' he (hl.mono hclock)
        refine ⟨i, fun hi' => hi (hold i hi'), e'', ?_, hexp⟩
        by_cases hon : i = e.1
        · subst hon
          rw [hsame, hdatastore, Store.put_of_ne _ _ hk]
          exact hentry
        · rw [hother i hon, hentry]
    · intro i hi key hkey e' he hl
      by_cases hon : i = e.1
      · subst hon
        rw [hsame, hdatastore, Store.put_of_ne _ _ (hne _ hi key hkey)] at he
        exact h.copies _ (hold _ hi) key hkey e' he (hl.mono hclock)
      · rw [hother i hon] at he
        exact h.copies i (hold i hi) key hkey e' he (hl.mono hclock)
  · -- What a removal lists it also takes from Redis.
    have hkept : ∀ {s : Store String BanValue} {key : String} {e' : Entry BanValue},
        s.deleteAll removed key = some e' → removed key = false ∧ s key = some e' := by
      intro s key e' he
      rw [Store.deleteAll_apply] at he
      split at he
      · cases he
      · exact ⟨Bool.eq_false_iff.mpr ‹_›, he⟩
    constructor
    · intro key hkey e' he hl
      rw [Cluster.call_redis, hredis] at he
      obtain ⟨hnot, he⟩ := hkept he
      obtain ⟨i, hi, e'', hentry, hexp⟩ := h.held key hkey e' he (hl.mono hclock)
      refine ⟨i, fun hi' => ?_, e'', ?_, hexp⟩
      · rcases hdone i hi' with hd | ⟨rfl, hu⟩
        · exact hi hd
        · rw [hall ip hu key hkey (isSome_get hentry hexp hl)] at hnot
          cases hnot
      · by_cases hon : i = e.1
        · subst hon
          rw [hsame, hdatastore, Store.deleteAll_apply, hnot]
          exact hentry
        · rw [hother i hon, hentry]
    · intro i hi key hkey e' he hl
      by_cases hon : i = e.1
      · subst hon
        rw [hsame, hdatastore] at he
        obtain ⟨hnot, he⟩ := hkept he
        rcases hdone _ hi with hd | ⟨-, hu⟩
        · exact h.copies _ hd key hkey e' he (hl.mono hclock)
        · rw [hall ip hu key hkey (isSome_get he rfl hl)] at hnot
          cases hnot
      · rw [hother i hon] at he
        have hd : i ∈ done := (hdone i hi).resolve_right fun hu => hon hu.1
        exact h.copies i hd key hkey e' he (hl.mono hclock)

/-- Calls of which none counts as done. -/
theorem clearing_before (hip : '_' ∉ ip.toList) {calls : List (ι × BanCall)}
    (h : Clearing ip limit ∅ now c) (henv : ∀ e ∈ calls, Reaches e.2.env)
    (hclock : (now :: calls.map fun e => e.2.now).Pairwise (· ≤ ·)) {t : Nat} (ht : now ≤ t)
    (hle : ∀ e ∈ calls, e.2.now ≤ t) :
    Clearing ip limit ∅ t (Run.run Cluster.call c calls) := by
  induction calls generalizing c now with
  | nil => exact h.mono ht
  | cons e calls ih =>
    obtain ⟨he, henv⟩ := List.forall_mem_cons.mp henv
    obtain ⟨hnow, hle⟩ := List.forall_mem_cons.mp hle
    obtain ⟨hfirst, hrest⟩ := List.pairwise_cons.mp hclock
    exact ih (clearing_call hip h he (hfirst _ List.mem_cons_self) (fun _ hi => nomatch hi)
      fun _ hi => nomatch hi) henv hrest hnow hle

/-- Calls after the first of which nobody bans the address. -/
theorem clearing_after (hip : '_' ∉ ip.toList) {calls : List (ι × BanCall)}
    (h : Clearing ip limit done now c) (henv : ∀ e ∈ calls, Reaches e.2.env)
    (hother : ∀ e ∈ calls, BansOther ip e.2)
    (hlimit : ∀ e ∈ calls, e.2.now + 1000 * banLocalCacheTtl ≤ limit)
    (hclock : (now :: calls.map fun e => e.2.now).Pairwise (· ≤ ·)) {t : Nat} (ht : now ≤ t)
    (hle : ∀ e ∈ calls, e.2.now ≤ t) :
    Clearing ip limit (done ∪ {i | ∃ e ∈ calls, e.1 = i ∧ Unbans ip e.2}) t
      (Run.run Cluster.call c calls) := by
  induction calls generalizing c now done with
  | nil =>
    refine ⟨fun key hkey e he hl => ?_, fun i hi key hkey e he hl => ?_⟩
    · obtain ⟨i, hi, hentry⟩ := (h.mono ht).held key hkey e he hl
      exact ⟨i, fun h => hi (h.resolve_right fun ⟨_, hm, _⟩ => nomatch hm), hentry⟩
    · exact (h.mono ht).copies i (hi.resolve_right fun ⟨_, hm, _⟩ => nomatch hm) key hkey e he hl
  | cons e calls ih =>
    obtain ⟨he, henv⟩ := List.forall_mem_cons.mp henv
    obtain ⟨ho, hother⟩ := List.forall_mem_cons.mp hother
    obtain ⟨hl, hlimit⟩ := List.forall_mem_cons.mp hlimit
    obtain ⟨hnow, hle⟩ := List.forall_mem_cons.mp hle
    obtain ⟨hfirst, hrest⟩ := List.pairwise_cons.mp hclock
    have hstep : Clearing ip limit (done ∪ {i | i = e.1 ∧ Unbans ip e.2}) e.2.now (c.call e) :=
      clearing_call hip h he (hfirst _ List.mem_cons_self) (fun _ hi => hi) fun _ _ => ⟨ho, hl⟩
    have hend := ih hstep henv hother hlimit hrest hnow hle
    have hset : done ∪ {i | i = e.1 ∧ Unbans ip e.2} ∪ {i | ∃ e ∈ calls, e.1 = i ∧ Unbans ip e.2} =
        done ∪ {i | ∃ e' ∈ e :: calls, e'.1 = i ∧ Unbans ip e'.2} := by
      ext i
      simp only [Set.mem_union, Set.mem_ofPred_eq, List.mem_cons, exists_eq_or_imp, or_assoc,
        eq_comm (a := i)]
    rw [← hset]
    exact hend

/-- **Unbanning everywhere.** In every order of the calls, of any number of instances that reach
Redis: when, after whatever has been called until `start`, `remove_ban` of an address has run on
every instance by the time `stop`, and nobody bans the address meanwhile, then no instance reports
it once the copies of `stop` have expired. -/
theorem unbanned_everywhere {before calls : List (ι × BanCall)} {start stop : Nat}
    (henv : ∀ e ∈ before ++ calls, Reaches e.2.env)
    (hclock : ((before ++ calls).map fun e => e.2.now).Pairwise (· ≤ ·))
    (hstart : ∀ e ∈ before, e.2.now ≤ start) (hafter : ∀ e ∈ calls, start ≤ e.2.now)
    (hstop : ∀ e ∈ calls, e.2.now ≤ stop) (hother : ∀ e ∈ calls, BansOther ip e.2)
    (hall : ∀ i, ∃ e ∈ calls, e.1 = i ∧ Unbans ip e.2)
    {env : BanEnv} (hreach : Reaches env) {now : Nat}
    (hnow : stop + 1000 * banLocalCacheTtl ≤ now) (i : ι) (serverName : Option String) :
    (isBanned env now ip serverName
      ((Run.run Cluster.call .empty (before ++ calls)).stores i)).1 = some false := by
  obtain ⟨hbefore, hcalls⟩ := List.forall_mem_append.mp henv
  obtain ⟨e, he, -, hvalid, -⟩ := hall i
  have hip : '_' ∉ ip.toList := (hcalls e he).addresses ip hvalid
  rw [List.map_append] at hclock
  obtain ⟨hclock₁, hclock₂, -⟩ := List.pairwise_append.mp hclock
  have hmid : Clearing ip now ∅ start (Run.run Cluster.call (.empty : Cluster ι) before) := by
    refine clearing_before hip (clearing_empty ip now 0) hbefore ?_ (Nat.zero_le _) hstart
    exact List.pairwise_cons.mpr ⟨fun _ _ => Nat.zero_le _, hclock₁⟩
  have hend : Clearing ip now (∅ ∪ {i | ∃ e ∈ calls, e.1 = i ∧ Unbans ip e.2}) now
      (Run.run Cluster.call (.empty : Cluster ι) (before ++ calls)) := by
    rw [Run.run_append]
    have hlate : ∀ e ∈ calls, e.2.now ≤ now := fun e he => by
      have := hstop e he
      omega
    refine clearing_after hip hmid hcalls hother (fun e he => ?_) ?_ ?_ hlate
    · have := hstop e he
      omega
    · refine List.pairwise_cons.mpr ⟨fun s hs => ?_, hclock₂⟩
      obtain ⟨e, he, rfl⟩ := List.mem_map.mp hs
      exact hafter e he
    · exact (hafter e he).trans (hlate e he)
  have hdone : ∀ i, i ∈ (∅ ∪ {i | ∃ e ∈ calls, e.1 = i ∧ Unbans ip e.2} : Set ι) := fun i =>
    .inr (hall i)
  generalize Run.run Cluster.call .empty (before ++ calls) = c at hend
  have hlookup := congrArg Prod.fst (lookup_redis env now ip serverName (c.stores i))
  dsimp only at hlookup
  rw [← hlookup]
  have habsent := isBanned_of_absent (c := ⟨now, ip, serverName, env.useRedis, env.redisUp,
    redisAnswer (c.stores i).redis now⟩) (d := (c.stores i).datastore) fun key hask => ?_
  · rw [habsent, hreach.useRedis, hreach.redisUp]
    rfl
  · have hkey := hask.banKeyOf
    constructor
    · show (c.datastore i).get now key = none
      cases hd : c.datastore i key with
      | none => exact Store.get_of_none hd
      | some e' =>
        refine Store.get_of_dead hd fun hl => ?_
        obtain ⟨t, ht, hle⟩ := hend.copies i (hdone i) key hkey e' hd hl
        exact absurd (hl t ht) (by omega)
    · intro _
      refine redisAnswer_of_none ?_
      show c.redis.get now key = none
      cases hd : c.redis key with
      | none => exact Store.get_of_none hd
      | some e' =>
        refine Store.get_of_dead hd fun hl => ?_
        obtain ⟨j, hj, -⟩ := hend.held key hkey e' hd hl
        exact hj (hdone j)

/-- An instance copies a ban between the removals, which it runs first. -/
def twoUnbans : List (Bool × BanCall) :=
  [(true, ⟨oneAddress true true, 1000, .removeBan "1.2.3.4" "" .global⟩),
    (true, ⟨oneAddress true true, 2000, .isBanned "1.2.3.4" (some "www")⟩),
    (false, ⟨oneAddress true true, 3000, .removeBan "1.2.3.4" "" .global⟩)]

/-- The copy is still there at first, and is gone after its 30 seconds. -/
theorem unbanned_after_copy :
    (isBanned (oneAddress true true) 4000 "1.2.3.4" (some "www")
        ((Run.run Cluster.call .empty (oneBan ++ twoUnbans)).stores true)).1 = some true ∧
      (isBanned (oneAddress true true) 33000 "1.2.3.4" (some "www")
        ((Run.run Cluster.call .empty (oneBan ++ twoUnbans)).stores true)).1 = some false := by
  have henv : ∀ e ∈ oneBan ++ twoUnbans, e.2.env = oneAddress true true := by
    simp [oneBan, twoUnbans]
  have hreach : Reaches (oneAddress true true) := ⟨rfl, rfl, oneAddress_text true true⟩
  refine ⟨by decide, @unbanned_everywhere Bool "1.2.3.4" _ oneBan twoUnbans 1000 3000
    (fun e he => (henv e he).symm ▸ hreach) (by decide) (by decide) (by decide) (by decide)
    (by simp [twoUnbans, BansOther]) (fun i => ?_) _ hreach 33000 (by decide) _ _⟩
  cases i with
  | false => exact ⟨twoUnbans[2], by simp [twoUnbans], rfl, rfl, "", rfl⟩
  | true => exact ⟨twoUnbans[0], by simp [twoUnbans], rfl, rfl, "", rfl⟩

end

end BunkerWeb.Lua
