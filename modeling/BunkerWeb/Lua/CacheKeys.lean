import BunkerWeb.Attribution
import BunkerWeb.Lib.Run
import BunkerWeb.Lua.Address
import BunkerWeb.Lua.Datastore
import Mathlib.Data.List.Induction

/-!
# The cached verdicts of the lists

`whitelist.lua`, `blacklist.lua`, `greylist.lua` and `antibot.lua` keep what they found out about an
address, a User-Agent or a URI for a day in the cache of the instance. The key is the server name, a
tag and the element, one after the other.

- **Which names may clash** (`Leaks`): between two services, one of which is the name of the other
  with `r` behind it, there is a collision exactly for the `r` that begin with `ua` or `uri` or are
  `ur`.
- **What is read** (`OwnVerdicts`): the verdict that is read for a triple was stored for it.
- **The result** (`isolated_iff`): both hold exactly if no served name leaks into another.
-/

namespace BunkerWeb.Lua.CacheKeys

open Lib

inductive Plugin where
  | whitelist
  | blacklist
  | greylist
  | antibot
  deriving DecidableEq, Repr

/-- What the keys of a plugin begin with (`CACHE_PREFIX` in `antibot.lua`). -/
def Plugin.cachePrefix : Plugin → String
  | whitelist => "plugin_whitelist_"
  | blacklist => "plugin_blacklist_"
  | greylist => "plugin_greylist_"
  | antibot => "plugin_antibot_"

inductive Kind where
  | ip
  | ua
  | uri
  | country
  deriving DecidableEq, Repr

/-- What a request brings along, of what the checks read. -/
structure Ctx where
  serverName : String
  remoteAddr : RemoteAddr
  httpUserAgent : String
  uri : String
  requestUri : Option String

/-- The request URI, if it says more than the URI. -/
def Ctx.fullUri (ctx : Ctx) : Option String :=
  ctx.requestUri.filter fun r => r ≠ "" ∧ r ≠ ctx.uri

/-- `get_uri_cache_ele` of `antibot.lua`; `sha256` is the hash in hexadecimal. -/
def getUriCacheEle (sha256 : String → String) (ctx : Ctx) : String :=
  match ctx.fullUri with
  | some requestUri => "uri#" ++ sha256 requestUri
  | none => "uri" ++ ctx.uri

/-- `kind_to_ele`. Only the antibot has a check by country, and only it hashes the URI. -/
def kindToEle (sha256 : String → String) (plugin : Plugin) (ctx : Ctx) : Kind → Option String
  | .ip => some ("ip" ++ ctx.remoteAddr.val)
  | .ua => some ("ua" ++ ctx.httpUserAgent)
  | .uri => some (if plugin = .antibot then getUriCacheEle sha256 ctx else "uri" ++ ctx.uri)
  | .country => if plugin = .antibot then some ("country" ++ ctx.remoteAddr.val) else none

/-- A kind and an element. -/
inductive Subject where
  | ip (addr : RemoteAddr)
  | ua (ele : String)
  | uri (ele : String)
  | country (addr : RemoteAddr)
  deriving DecidableEq

/-- The element with its tag, as the key has it. -/
def Subject.ele : Subject → String
  | ip a => "ip" ++ a.val
  | ua e => "ua" ++ e
  | uri e => "uri" ++ e
  | country a => "country" ++ a.val

/-- What a request is checked for. -/
def subjectOf (sha256 : String → String) (plugin : Plugin) (ctx : Ctx) : Kind → Option Subject
  | .ip => some (.ip ctx.remoteAddr)
  | .ua => some (.ua ctx.httpUserAgent)
  | .uri => some <| .uri <|
    if plugin = .antibot then (ctx.fullUri.map ("#" ++ sha256 ·)).getD ctx.uri else ctx.uri
  | .country => if plugin = .antibot then some (.country ctx.remoteAddr) else none

/-- The element of every check is that of a subject. -/
theorem kindToEle_eq (sha256 : String → String) (plugin : Plugin) (ctx : Ctx) (kind : Kind) :
    kindToEle sha256 plugin ctx kind = (subjectOf sha256 plugin ctx kind).map Subject.ele := by
  cases kind with
  | ip => rfl
  | ua => rfl
  | country => by_cases h : plugin = .antibot <;> simp [kindToEle, subjectOf, h, Subject.ele]
  | uri =>
    by_cases h : plugin = .antibot
    · cases hr : ctx.fullUri <;>
        simp [kindToEle, subjectOf, getUriCacheEle, h, hr, Subject.ele, ← String.append_assoc]
    · simp [kindToEle, subjectOf, h, Subject.ele]

/-- What a verdict is about, and whose it is. -/
structure Triple where
  plugin : Plugin
  server : String
  subject : Subject
  deriving DecidableEq

/-- The key that `is_in_cache` and `add_to_cache` use. -/
def cacheKey (q : Triple) : String := q.plugin.cachePrefix ++ q.server ++ q.subject.ele

/-- `is_in_cache`. -/
def isInCache (cachestore : Store String String) (now : Nat) (q : Triple) : Option String :=
  cachestore.get now (cacheKey q)

/-- `add_to_cache`. -/
def addToCache (cachestore : Store String String) (now : Nat) (q : Triple) (value : String) :
    Store String String :=
  setWithRetries cachestore now (cacheKey q) value (some 86400)

/-- The cached answer of `check_service` in `is_ip_whitelisted` (`utils.lua`), which reads the
whitelist's entry for the address of a client. -/
def checkService (cachestore : Store String String) (now : Nat) (name ip : String) :
    Option (Bool × String) :=
  (cachestore.get now ("plugin_whitelist_" ++ name ++ "ip" ++ ip)).map fun cached =>
    if cached ≠ "ok" then (true, cached) else (false, "ok")

theorem checkService_eq (cachestore : Store String String) (now : Nat) (name : String)
    (addr : RemoteAddr) :
    checkService cachestore now name addr.val =
      (isInCache cachestore now ⟨.whitelist, name, .ip addr⟩).map fun cached =>
        if cached ≠ "ok" then (true, cached) else (false, "ok") := by
  simp [checkService, isInCache, cacheKey, Plugin.cachePrefix, Subject.ele, String.append_assoc]

/-! ## Which elements may follow one another -/

/-- A name that ends in `r` where another one ends in front of it can be confused with it. -/
def Leaks (r : List Char) : Prop :=
  "ua".toList <+: r ∨ "uri".toList <+: r ∨ r = "ur".toList

instance (r : List Char) : Decidable (Leaks r) := inferInstanceAs (Decidable (_ ∨ _))

/-- Every tag has a letter that no address has. -/
theorem not_isAddressChar_ele (x : Subject) :
    ∃ c ∈ x.ele.toList, ¬ Address.IsAddressChar c := by
  cases x with
  | ip a => exact ⟨'i', by simp [Subject.ele], by decide⟩
  | ua e => exact ⟨'u', by simp [Subject.ele], by decide⟩
  | uri e => exact ⟨'u', by simp [Subject.ele], by decide⟩
  | country a => exact ⟨'o', by simp [Subject.ele], by decide⟩

/-- How the tags begin. -/
def tagStarts : List (List Char) := ["ip".toList, "ua".toList, "ur".toList, "co".toList]

theorem take_ele (x : Subject) : x.ele.toList.take 2 ∈ tagStarts := by
  cases x <;> simp [Subject.ele, tagStarts]

theorem Subject.ele_inj {x x' : Subject} (h : x.ele = x'.ele) : x = x' := by
  have hl := congrArg String.toList h
  cases x <;> cases x' <;> simp [Subject.ele] at hl
  · exact congrArg _ (Subtype.ext (String.toList_inj.mp hl))
  · exact congrArg _ (String.toList_inj.mp hl)
  · exact congrArg _ (String.toList_inj.mp hl)
  · exact congrArg _ (Subtype.ext (String.toList_inj.mp hl))

theorem cachePrefix_inj {p p' : Plugin} {s s' : String}
    (h : p.cachePrefix ++ s = p'.cachePrefix ++ s') : p = p' ∧ s = s' := by
  have hl := congrArg String.toList h
  cases p <;> cases p' <;> simp [Plugin.cachePrefix] at hl
  all_goals exact ⟨rfl, String.toList_inj.mp hl⟩

/-- An address is not followed by a tag. -/
theorem addr_ne_append (a : RemoteAddr) (r : List Char) (x : Subject) :
    a.val.toList ≠ r ++ x.ele.toList := by
  obtain ⟨c, hc, hn⟩ := not_isAddressChar_ele x
  intro h
  exact hn (a.isAddressChar_of_mem (h ▸ List.mem_append_right _ hc))

/-- What stands in front of a tagged element, in a text that begins with `w`: either `w` and more,
or a part of `w` behind which a tag can begin. -/
theorem front_of_ele {w a r : List Char} {x : Subject} (hr : r ≠ [])
    (h : w ++ a = r ++ x.ele.toList) :
    (∃ b, r = w ++ b ∧ a = b ++ x.ele.toList) ∨
    ∃ k < w.length, 0 < k ∧ r = w.take k ∧ ∃ t ∈ tagStarts, (w.drop k).take 2 <+: t := by
  rcases List.append_eq_append_iff.mp h with ⟨b, hb, ha⟩ | ⟨b, hw, hx⟩
  · exact .inl ⟨b, hb, ha⟩
  · by_cases hb : b = []
    · subst hb
      exact .inl ⟨[], by simp [hw], by simpa using hx.symm⟩
    · refine .inr ⟨r.length, ?_, List.length_pos_iff.mpr hr, by simp [hw], _, take_ele x, ?_⟩
      · have := List.length_pos_iff.mpr hb
        simp only [hw, List.length_append]
        omega
      · rw [hw, List.drop_left, hx, List.take_append]
        exact List.prefix_append _ _

/-- What may stand between a server name and a tag so that it begins with a tag itself. -/
theorem leaks_of_ele_eq {x x' : Subject} {r : List Char} (hr : r ≠ [])
    (h : x.ele.toList = r ++ x'.ele.toList) : Leaks r := by
  cases x with
  | ip a =>
    rw [Subject.ele, String.toList_append] at h
    rcases front_of_ele hr h with ⟨b, -, ha⟩ | ⟨k, hk, h0, -, ht⟩
    · exact absurd ha (addr_ne_append a b x')
    · exact absurd ht ((by decide : ∀ k < 2, 0 < k →
        ¬ ∃ t ∈ tagStarts, ("ip".toList.drop k).take 2 <+: t) k hk h0)
  | ua e =>
    rw [Subject.ele, String.toList_append] at h
    rcases front_of_ele hr h with ⟨b, rfl, -⟩ | ⟨k, hk, h0, -, ht⟩
    · exact .inl (List.prefix_append _ _)
    · exact absurd ht ((by decide : ∀ k < 2, 0 < k →
        ¬ ∃ t ∈ tagStarts, ("ua".toList.drop k).take 2 <+: t) k hk h0)
  | uri e =>
    rw [Subject.ele, String.toList_append] at h
    rcases front_of_ele hr h with ⟨b, rfl, -⟩ | ⟨k, hk, h0, rfl, ht⟩
    · exact .inr (.inl (List.prefix_append _ _))
    · exact (by decide : ∀ k < 3, 0 < k → (∃ t ∈ tagStarts, ("uri".toList.drop k).take 2 <+: t) →
        Leaks ("uri".toList.take k)) k hk h0 ht
  | country a =>
    rw [Subject.ele, String.toList_append] at h
    rcases front_of_ele hr h with ⟨b, -, ha⟩ | ⟨k, hk, h0, -, ht⟩
    · exact absurd ha (addr_ne_append a b x')
    · exact absurd ht ((by decide : ∀ k < 7, 0 < k →
        ¬ ∃ t ∈ tagStarts, ("country".toList.drop k).take 2 <+: t) k hk h0)

/-- Every such text does. -/
theorem exists_ele_eq {r : List Char} (h : Leaks r) :
    ∃ x x' : Subject, x.ele.toList = r ++ x'.ele.toList := by
  rcases h with ⟨t, rfl⟩ | ⟨t, rfl⟩ | rfl
  · exact ⟨.ua (String.ofList t ++ "ua"), .ua "", by simp [Subject.ele]⟩
  · exact ⟨.uri (String.ofList t ++ "ua"), .ua "", by simp [Subject.ele]⟩
  · exact ⟨.uri ("p" ++ (RemoteAddr.of (.ipv4 10 0 0 1)).val), .ip (.of (.ipv4 10 0 0 1)),
      by simp [Subject.ele]⟩

theorem Leaks.ne_nil {r : List Char} (h : Leaks r) : r ≠ [] := by
  rintro rfl
  exact absurd h (by decide)

/-! ## The served names -/

/-- The name `s'` is `s` with something behind it that begins like a tag. -/
def Confusable (s s' : String) : Prop := ∃ r, Leaks r ∧ s'.toList = s.toList ++ r

section

variable (servers : List String)

/-- The triples of the served names have different keys. -/
def KeysInjective : Prop :=
  ∀ q q' : Triple, q.server ∈ servers → q'.server ∈ servers → cacheKey q = cacheKey q' → q = q'

theorem keysInjective_iff :
    KeysInjective servers ↔ ∀ s ∈ servers, ∀ s' ∈ servers, ¬ Confusable s s' := by
  constructor
  · rintro hinj s hs s' hs' ⟨r, hr, hsr⟩
    obtain ⟨x, x', hx⟩ := exists_ele_eq hr
    have hkey : cacheKey ⟨.whitelist, s, x⟩ = cacheKey ⟨.whitelist, s', x'⟩ := by
      refine String.toList_inj.mp ?_
      simp only [cacheKey, String.toList_append, hsr, hx, List.append_assoc]
    have := congrArg Triple.server (hinj _ _ hs hs' hkey)
    simp only at this
    rw [← this] at hsr
    exact hr.ne_nil (by simpa using hsr)
  · rintro hno ⟨p, s, x⟩ ⟨p', s', x'⟩ hs hs' h
    -- One name is the other one with `r` behind it, and `r` reads as the start of a tag.
    have key {s s' : String} {x x' : Subject} (hs : s ∈ servers) (hs' : s' ∈ servers)
        (h : ∃ r, s'.toList = s.toList ++ r ∧ x.ele.toList = r ++ x'.ele.toList) :
        s = s' ∧ x = x' := by
      obtain ⟨r, hsr, hx⟩ := h
      by_cases hr : r = []
      · subst hr
        refine ⟨String.toList_inj.mp (by simpa using hsr.symm), Subject.ele_inj ?_⟩
        exact String.toList_inj.mp (by simpa using hx)
      · exact absurd ⟨r, leaks_of_ele_eq hr hx, hsr⟩ (hno s hs s' hs')
    have hkey : p.cachePrefix ++ (s ++ x.ele) = p'.cachePrefix ++ (s' ++ x'.ele) := by
      simpa [cacheKey, String.append_assoc] using h
    obtain ⟨rfl, hrest⟩ := cachePrefix_inj hkey
    have hl := congrArg String.toList hrest
    rw [String.toList_append, String.toList_append] at hl
    rcases List.append_eq_append_iff.mp hl with ⟨r, hsr, hx⟩ | ⟨r, hsr, hx⟩
    · obtain ⟨rfl, rfl⟩ := key hs hs' ⟨r, hsr, hx⟩
      rfl
    · obtain ⟨rfl, rfl⟩ := key hs' hs ⟨r, hsr, hx⟩
      rfl

/-! ## What is read -/

/-- A verdict that was computed for a triple and stored. -/
structure Computed where
  triple : Triple
  value : String
  now : Nat

def step (cachestore : Store String String) (c : Computed) : Store String String :=
  addToCache cachestore c.now c.triple c.value

/-- Whatever the requests had stored before, in whatever order: the verdict that is read for a
triple was computed for it. -/
def OwnVerdicts : Prop :=
  ∀ cs : List Computed, (∀ c ∈ cs, c.triple.server ∈ servers) →
    ∀ q : Triple, q.server ∈ servers → ∀ now value,
      isInCache (Run.run step Store.empty cs) now q = some value →
        ∃ c ∈ cs, c.triple = q ∧ c.value = value

end

/-- What is stored under a key was computed for a triple that has the key. -/
theorem exists_computed {cs : List Computed} {key : String} {e : Entry String}
    (h : Run.run step Store.empty cs key = some e) :
    ∃ c ∈ cs, cacheKey c.triple = key ∧ c.value = e.value := by
  induction cs using List.reverseRecOn with
  | nil => cases h
  | append_singleton cs c ih =>
    rw [Run.run_append, Run.run_cons, Run.run_nil, step, addToCache] at h
    by_cases hk : key = cacheKey c.triple
    · subst hk
      rw [setWithRetries_same] at h
      cases h
      exact ⟨c, by simp, rfl, rfl⟩
    · rw [setWithRetries_of_ne _ _ _ _ hk] at h
      obtain ⟨c', hc', hkey, hvalue⟩ := ih h
      exact ⟨c', by simp [hc'], hkey, hvalue⟩

theorem KeysInjective.ownVerdicts {servers : List String} (h : KeysInjective servers) :
    OwnVerdicts servers := by
  intro cs hcs q hq now value hread
  obtain ⟨e, he, -, rfl⟩ := Store.get_eq_some.mp hread
  obtain ⟨c, hc, hkey, hvalue⟩ := exists_computed he
  exact ⟨c, hc, h _ _ (hcs c hc) hq hkey, hvalue⟩

/-- The keys of the served names are apart, and every verdict that is read was computed for the
triple it is read for, exactly if no name is another one with the start of a tag behind it. -/
theorem isolated_iff (servers : List String) :
    (KeysInjective servers ∧ OwnVerdicts servers) ↔
      ∀ s ∈ servers, ∀ s' ∈ servers, ¬ Confusable s s' := by
  rw [← keysInjective_iff]
  exact ⟨And.left, fun h => ⟨h, h.ownVerdicts⟩⟩

/-- A client of `shop` that sends the address of another one as its User-Agent has, for the cache,
that client's address on `shopua`. -/
theorem userAgent_reads_as_address :
    ¬ ∀ q q' : Triple, serverNameOk Char.isAlphanum q.server →
      serverNameOk Char.isAlphanum q'.server → cacheKey q = cacheKey q' → q = q' := by
  intro h
  have haddr : (RemoteAddr.of (.ipv4 192 0 2 7)).val = "192.0.2.7" := by decide
  have := h ⟨.whitelist, "shop", .ua "ip192.0.2.7"⟩
    ⟨.whitelist, "shopua", .ip (.of (.ipv4 192 0 2 7))⟩ (by decide) (by decide)
    (by simp only [cacheKey, Subject.ele, haddr]; decide)
  exact absurd (congrArg Triple.server this) (by decide)

end BunkerWeb.Lua.CacheKeys
