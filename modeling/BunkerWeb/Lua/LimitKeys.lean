import BunkerWeb.Attribution
import BunkerWeb.Lib.Keyed
import BunkerWeb.Lua.Address
import BunkerWeb.Lua.Limit
import BunkerWeb.Lua.LimitWindow

/-!
# The keys of the request limiter

The key of a counter is the server name, the address of the client and the URI, one after the
other, in the dictionary and in Redis. A server name has no slash and a URI begins with one, so the
URI is always told apart; where the name ends and the address begins is not marked.

- **Frame** (`isKeyed_serveRequest`): a request reads and writes the counter of its key only.
- **The result** (`isolated_iff`): distinct counters for distinct requests, and decisions that do
  not depend on what other clients do, hold exactly if no served name is another one with a group
  of an address behind it.
-/

namespace BunkerWeb.Lua.LimitKeys

open Lib Limit

/-- A request as the limiter gets it, with the rate of the rule that applies to it. nginx serves no
URI without a slash in front. -/
structure Request where
  serverName : String
  remoteAddr : RemoteAddr
  uri : String
  slash : uri.toList.head? = some '/'
  rate : Rate
  now : Nat
  redisUp : Bool

namespace Request

def key (r : Request) : String := limitKey r.serverName r.remoteAddr.val r.uri

/-- Service, client and URI. -/
def triple (r : Request) : String × RemoteAddr × String := (r.serverName, r.remoteAddr, r.uri)

end Request

/-- A request: whether it is limited, and the stores after it. -/
def serveRequest (useRedis : Bool) (st : State) (r : Request) : Bool × State :=
  let (timestamps, st) := limitReq r.rate r.key r.now useRedis r.redisUp st
  (limited r.rate timestamps, st)

/-- The counter of a key, in both stores. -/
def slot (st : State) (key : String) : Option (Entry (List Nat)) × Option (Entry (List Nat)) :=
  (st.datastore key, st.redis key)

/-! ## A request and its counter -/

section

variable {rate : Rate} {key : String} {now : Nat}

/-- With no delay the script saves nothing. -/
theorem redisScript_zero (h0 : delayOf rate.time = 0) (redis : Store String (List Nat)) :
    redisScript rate key now redis =
      let new := limitReqTimestamps rate (timestamp now) ((redis.get now key).getD [])
      (if new.1 then none else some new.2.1, redis) := by
  simp only [redisScript, limitReqTimestamps, h0]
  split
  · rfl
  · simp only
    split <;> rfl

/-- The script reads and writes the entry of its key only. -/
theorem redisScript_congr (rate : Rate) (now : Nat) {d d' : Store String (List Nat)}
    (h : d key = d' key) :
    (redisScript rate key now d).1 = (redisScript rate key now d').1 ∧
      (redisScript rate key now d).2 key = (redisScript rate key now d').2 key := by
  rcases Nat.eq_zero_or_pos (delayOf rate.time) with h0 | hd
  · simp only [redisScript_zero h0, Store.get_congr h now]
    exact ⟨trivial, h⟩
  · obtain ⟨h1, h2⟩ := limitReqLocal_congr rate now h
    simp only [redisScript_eq hd, Prod.map_fst, Prod.map_snd, id, h1]
    exact ⟨trivial, h2⟩

theorem redisScript_of_ne (rate : Rate) (now : Nat) {key' : String} (h : key' ≠ key)
    (d : Store String (List Nat)) :
    (redisScript rate key now d).2 key' = d key' := by
  rcases Nat.eq_zero_or_pos (delayOf rate.time) with h0 | hd
  · rw [redisScript_zero h0]
  · rw [redisScript_eq hd]
    exact limitReqLocal_of_ne _ _ _ _ h

end

theorem slot_limitReq_congr {st st' : State} {key : String} (h : slot st key = slot st' key)
    (rate : Rate) (now : Nat) (useRedis redisUp : Bool) :
    (limitReq rate key now useRedis redisUp st).1 = (limitReq rate key now useRedis redisUp st').1 ∧
      slot (limitReq rate key now useRedis redisUp st).2 key =
        slot (limitReq rate key now useRedis redisUp st').2 key := by
  obtain ⟨hd, hr⟩ := Prod.mk.inj h
  obtain ⟨hl1, hl2⟩ := limitReqLocal_congr rate now hd
  obtain ⟨hs1, hs2⟩ := redisScript_congr rate now hr
  cases hup : useRedis && redisUp with
  | false =>
    rw [limitReq_local hup, limitReq_local hup]
    exact ⟨hl1, Prod.ext hl2 hr⟩
  | true =>
    simp only [limitReq, hup, if_true]
    rcases hc : redisScript rate key now st.redis with ⟨_ | new, redis⟩ <;>
      rcases hc' : redisScript rate key now st'.redis with ⟨_ | new', redis'⟩ <;>
      rw [hc, hc'] at hs1 hs2
    · exact ⟨hl1, Prod.ext hl2 hs2⟩
    · cases hs1
    · cases hs1
    · obtain rfl := Option.some.inj hs1
      exact ⟨rfl, Prod.ext (by simp [slot]) hs2⟩

theorem slot_limitReq_of_ne {key key' : String} (h : key' ≠ key) (rate : Rate) (now : Nat)
    (useRedis redisUp : Bool) (st : State) :
    slot (limitReq rate key now useRedis redisUp st).2 key' = slot st key' := by
  have hl := limitReqLocal_of_ne rate key now st.datastore h
  have hs := redisScript_of_ne rate now h st.redis
  cases hup : useRedis && redisUp with
  | false =>
    rw [limitReq_local hup]
    exact Prod.ext hl rfl
  | true =>
    simp only [limitReq, hup, if_true]
    rcases hc : redisScript rate key now st.redis with ⟨_ | new, redis⟩ <;> rw [hc] at hs
    · exact Prod.ext hl hs
    · exact Prod.ext (setWithRetries_of_ne _ _ _ _ h) hs

/-- A request depends on the counter of its key and changes no other. -/
theorem isKeyed_serveRequest (useRedis : Bool) :
    Keyed.IsKeyed Request.key slot (serveRequest useRedis) where
  own st st' r h := by
    obtain ⟨h1, h2⟩ := slot_limitReq_congr h r.rate r.now useRedis r.redisUp
    exact ⟨congrArg (limited r.rate) h1, h2⟩
  frame st r key h := slot_limitReq_of_ne h r.rate r.now useRedis r.redisUp st

/-! ## The served names -/

/-- The name `s'` is `s` with something behind it that an address may begin with. -/
def Confusable (s s' : String) : Prop := ∃ r, Address.IsGroup r ∧ s'.toList = s.toList ++ r

/-- Requests to the served names that differ in service, client or URI have different keys. -/
def KeysInjective (servers : List String) : Prop :=
  ∀ r r' : Request, r.serverName ∈ servers → r'.serverName ∈ servers → r.key = r'.key →
    r.triple = r'.triple

/-- `SERVER_NAME` accepts no name with a slash or a colon. -/
theorem notMem_of_serverNameOk {isWord : Char → Bool} {name : String}
    (h : serverNameOk isWord name = true) : '/' ∉ name.toList ∧ ':' ∉ name.toList := by
  simp only [serverNameOk, Bool.and_eq_true, List.all_eq_true] at h
  obtain ⟨⟨⟨⟨-, hall⟩, -⟩, -⟩, -⟩ := h
  exact ⟨fun hc => absurd (hall _ hc) (by decide), fun hc => absurd (hall _ hc) (by decide)⟩

/-- The URI is the part of a key from the first slash on. -/
theorem limitKey_eq {s s' : String} {a a' : RemoteAddr} {u u' : String}
    (hs : '/' ∉ s.toList) (hs' : '/' ∉ s'.toList) (hu : u.toList.head? = some '/')
    (hu' : u'.toList.head? = some '/') (h : limitKey s a.val u = limitKey s' a'.val u') :
    u = u' ∧ s.toList ++ a.val.toList = s'.toList ++ a'.val.toList := by
  have hslash (t : RemoteAddr) : '/' ∉ t.val.toList := fun hc =>
    absurd (t.isAddressChar_of_mem hc) (by decide)
  obtain ⟨v, hv⟩ := List.head?_eq_some_iff.mp hu
  obtain ⟨v', hv'⟩ := List.head?_eq_some_iff.mp hu'
  have hl := congrArg String.toList h
  simp only [limitKey, String.toList_append, hv, hv', List.append_assoc] at hl
  have hrest := List.append_cancel_left hl
  rw [← List.append_assoc, ← List.append_assoc] at hrest
  have hleft : '/' ∉ s.toList ++ a.val.toList := by simp [hs, hslash a]
  have hright : '/' ∉ s'.toList ++ a'.val.toList := by simp [hs', hslash a']
  obtain ⟨hsa, rfl⟩ := append_sep_inj hleft hright hrest
  exact ⟨String.toList_inj.mp (hv.trans hv'.symm), hsa⟩

theorem keysInjective_iff {isWord : Char → Bool} {servers : List String}
    (hok : ∀ s ∈ servers, serverNameOk isWord s = true) :
    KeysInjective servers ↔ ∀ s ∈ servers, ∀ s' ∈ servers, ¬ Confusable s s' := by
  constructor
  · rintro hinj s hs s' hs' ⟨g, hg, hsg⟩
    have hcolon : ':' ∉ g := fun hc => absurd (hg.2.2.1 _ hc) (by decide)
    obtain ⟨a, a', ha⟩ := (Address.append_chars_iff hg.1 hcolon).mpr hg
    let request (name : String) (addr : Address) : Request :=
      { serverName := name, remoteAddr := .of addr, uri := "/", slash := rfl, rate := ⟨2, 's'⟩,
        now := 0, redisUp := true }
    have hkey : (request s a').key = (request s' a).key := by
      refine String.toList_inj.mp ?_
      have haddr : a'.text.toList = g ++ a.text.toList := by
        simpa only [Address.text, String.toList_ofList] using ha
      simp only [Request.key, request, limitKey, RemoteAddr.of, String.toList_append, hsg, haddr,
        List.append_assoc]
    have hname : s = s' := congrArg Prod.fst (hinj _ _ hs hs' hkey)
    rw [← hname] at hsg
    exact hg.1 (by simpa using hsg)
  · intro hno r r' hs hs' hkey
    -- One name is the other one with `g` behind it, and `g` is the start of an address.
    have key {s s' : String} {a a' : RemoteAddr} (hs : s ∈ servers) (hs' : s' ∈ servers)
        (h : ∃ g, s'.toList = s.toList ++ g ∧ a.val.toList = g ++ a'.val.toList) :
        s = s' ∧ a = a' := by
      obtain ⟨g, hsg, hag⟩ := h
      by_cases hg : g = []
      · subst hg
        exact ⟨String.toList_inj.mp (by simpa using hsg.symm),
          Subtype.ext (String.toList_inj.mp (by simpa using hag))⟩
      · have hcolon : ':' ∉ g := fun hc => (notMem_of_serverNameOk (hok s' hs')).2
          (hsg ▸ List.mem_append_right _ hc)
        obtain ⟨t, b, rfl⟩ := a
        obtain ⟨t', b', rfl⟩ := a'
        have hgroup := (Address.append_chars_iff hg hcolon).mp ⟨b', b, by simpa using hag⟩
        exact absurd ⟨g, hgroup, hsg⟩ (hno s hs s' hs')
    obtain ⟨hu, hsa⟩ := limitKey_eq (notMem_of_serverNameOk (hok _ hs)).1
      (notMem_of_serverNameOk (hok _ hs')).1 r.slash r'.slash hkey
    have hboth : r.serverName = r'.serverName ∧ r.remoteAddr = r'.remoteAddr := by
      rcases List.append_eq_append_iff.mp hsa with ⟨g, h, h'⟩ | ⟨g, h, h'⟩
      · exact key hs hs' ⟨g, h, h'⟩
      · obtain ⟨h1, h2⟩ := key hs' hs ⟨g, h, h'⟩
        exact ⟨h1.symm, h2.symm⟩
    exact Prod.ext hboth.1 (Prod.ext hboth.2 hu)

/-- Whatever requests come in between, in whatever order and with whatever in the stores: those of
one client to one URI of one service are decided as if they were the only ones. -/
def Independent (servers : List String) (useRedis : Bool) : Prop :=
  ∀ (st : State) (rs : List Request), (∀ r ∈ rs, r.serverName ∈ servers) →
    ∀ triple, (Keyed.outputs (serveRequest useRedis) st rs).filter (fun o => o.1.triple = triple) =
      Keyed.outputs (serveRequest useRedis) st (rs.filter (fun r => r.triple = triple))

theorem KeysInjective.independent {servers : List String} (h : KeysInjective servers)
    (useRedis : Bool) : Independent servers useRedis := by
  intro st rs hrs triple
  refine (isKeyed_serveRequest useRedis).outputs_filter (p := fun r => decide (r.triple = triple))
    (fun r hr hp r' hr' hp' hkey => ?_) (fun _ _ _ => rfl)
  have := h r r' (hrs r hr) (hrs r' hr') hkey
  simp only [decide_eq_true_eq, decide_eq_false_iff_not] at hp hp'
  exact hp' (this ▸ hp)

/-- The keys tell the requests apart, and no decision depends on the requests of another client,
service or URI, exactly if no served name is another one with a group of an address behind it. -/
theorem limit_isolated_iff {isWord : Char → Bool} {servers : List String}
    (hok : ∀ s ∈ servers, serverNameOk isWord s = true) :
    (KeysInjective servers ∧ ∀ useRedis, Independent servers useRedis) ↔
      ∀ s ∈ servers, ∀ s' ∈ servers, ¬ Confusable s s' := by
  rw [← keysInjective_iff hok]
  exact ⟨And.left, fun h => ⟨h, h.independent⟩⟩

theorem limit_isolated_iff_two_names :
    (KeysInjective ["app", "app1"] ∧ ∀ useRedis, Independent ["app", "app1"] useRedis) ↔
      ∀ s ∈ ["app", "app1"], ∀ s' ∈ ["app", "app1"], ¬ Confusable s s' :=
  limit_isolated_iff fun s hs => (by decide : ∀ s ∈ ["app", "app1"],
    serverNameOk Char.isAlphanum s = true) s hs

/-- The client `11.2.3.4` of `app` and the client `1.2.3.4` of `app1` share a counter. -/
theorem two_clients_one_counter :
    ¬ ∀ r r' : Request, serverNameOk Char.isAlphanum r.serverName →
      serverNameOk Char.isAlphanum r'.serverName → r.key = r'.key → r.triple = r'.triple := by
  intro h
  let request (name : String) (addr : Address) : Request :=
    { serverName := name, remoteAddr := .of addr, uri := "/", slash := rfl, rate := ⟨2, 's'⟩,
      now := 0, redisUp := true }
  have := h (request "app" (.ipv4 11 2 3 4)) (request "app1" (.ipv4 1 2 3 4)) (by decide)
    (by decide) (by decide)
  exact absurd (congrArg Prod.fst this) (by decide)

end BunkerWeb.Lua.LimitKeys
