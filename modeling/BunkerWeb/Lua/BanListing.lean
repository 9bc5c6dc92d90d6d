import BunkerWeb.Attribution
import BunkerWeb.Lib.Marker
import BunkerWeb.Lua.Unban

/-!
# Listing bans and taking them back (`GET /bans` and `POST /unban` of `bw/lua/bunkerweb/api.lua`)

The listing reads the service and the address of a service ban from its key, with the pattern
`^bans_service_(.-)_ip_(.+)$`: the service ends at the first `_ip_`. `POST /unban` takes the
address, the service and the scope of an entry. `faithful_iff` says for which services the entry
is that of the ban, and its removal a removal of this ban and of nothing else.
-/

namespace BunkerWeb.Lua

open Lib Lib.Marker

/-! ## The listing -/

/-- An entry of the answer. -/
structure Listed where
  ip : String
  reason : String
  service : String
  date : Nat
  country : Option String
  scope : BanScope
  exp : Nat
  permanent : Bool
  deriving DecidableEq, Repr

/-- `k:match("^bans_service_(.-)_ip_(.+)$")`. -/
def matchServiceKey (key : String) : Option (String × String) := do
  let rest ← key.toList.dropPrefix? "bans_service_".toList
  let parts ← splitMarker "_ip_".toList rest
  return (String.ofList parts.1, String.ofList parts.2)

/-- `math.floor` of the remaining time, which is `0` for a ban without end. -/
def remaining (e : Entry BanValue) (now : Nat) : Nat :=
  match e.expires with
  | none => 0
  | some t => (t - now) / 1000

/-- The fields of an entry that come from the value; a text that is no JSON is its reason. -/
def listedValue (value : BanValue) (ip service : String) (scope : BanScope) (exp : Nat) : Listed :=
  match value with
  | .data reason _ date country _ permanent =>
    ⟨ip, reason, service, date, some country, scope, if permanent then 0 else exp, permanent⟩
  | .text reason => ⟨ip, reason, service, 0, none, scope, exp, false⟩

/-- The entry of a global ban has the service and the scope that the value names. -/
def listedGlobal (value : BanValue) (ip : String) (exp : Nat) : Listed :=
  match value with
  | .data _ service _ _ scope _ => listedValue value ip service scope exp
  | .text _ => listedValue value ip "unknown" .global exp

/-- What `GET /bans` lists for a key. -/
def listKey (now : Nat) (dict : Store String BanValue) (key : String) : Option Listed :=
  match dict key with
  | none => none
  | some e =>
    if ¬ e.Live now then none
    else if "bans_ip_".toList.isPrefixOf key.toList then
      some (listedGlobal e.value (String.ofList (key.toList.drop 8)) (remaining e now))
    else if "bans_service_".toList.isPrefixOf key.toList then
      (matchServiceKey key).map fun (service, ip) =>
        listedValue e.value ip service .service (remaining e now)
    else none

/-- `GET /bans`, for the keys of the dictionary in its own order. -/
def getBans (now : Nat) (dict : Store String BanValue) (keys : List String) : List Listed :=
  keys.filterMap (listKey now dict)

/-! ## The removal -/

def reservedServiceNames : List String := ["unknown", "Web UI", "bwcli", "default server", ""]

/-- `POST /unban`, for a body with an address, a service and a scope: the status of the answer and
the stores. -/
def postUnban (env : BanEnv) (now : Nat) (ip service : String) (scope : BanScope)
    (st : BanStores) : Nat × BanStores :=
  if !env.isIp ip then (400, st)
  else
    let scope := if scope = .service ∧ service ∈ reservedServiceNames then .global else scope
    let (ok, st) := removeBan env now ip service scope st
    (if ok then 200 else 500, st)

/-- The stores without a key; Redis loses it if it is reached. -/
def without (env : BanEnv) (key : String) (st : BanStores) : BanStores where
  datastore := st.datastore.delete key
  otherDatastore := st.otherDatastore.delete key
  redis := if env.useRedis && env.redisUp then st.redis.delete key else st.redis

/-- The ban of the address for the service is listed as what it is, and the entry, passed back,
takes this ban away and nothing else. -/
def Faithful (env : BanEnv) (now : Nat) (service ip : String) (st : BanStores) : Prop :=
  ∃ e, listKey now st.datastore (serviceBanKey service ip) = some e ∧
    e.service = service ∧ e.ip = ip ∧ e.scope = .service ∧
    postUnban env now e.ip e.service e.scope st = (200, without env (serviceBanKey service ip) st)

/-- The service name has `_ip_` in it or `_ip` at its end. -/
def HidesMarker (service : String) : Prop := BeginsEarlier "_ip_".toList service.toList

instance (service : String) : Decidable (HidesMarker service) :=
  inferInstanceAs (Decidable (BeginsEarlier _ _))

/-! ## Keys -/

section

variable {service ip : String}

theorem matchServiceKey_serviceBanKey (hip : ip ≠ "") :
    matchServiceKey (serviceBanKey service ip) = some (service, ip) ↔ ¬ HidesMarker service := by
  have hright : ip.toList ≠ [] := by simpa using hip
  have hmarker : "_ip_".toList ≠ [] := by decide
  have hkey : (serviceBanKey service ip).toList.dropPrefix? "bans_service_".toList =
      some (service.toList ++ ("_ip_".toList ++ ip.toList)) := by
    rw [toList_serviceBanKey, String.toList_append]
    exact List.dropPrefix?_eq_some_iff.mpr ⟨_, rfl, beq_self_eq_true _⟩
  rw [HidesMarker, ← splitMarker_append hmarker hright, matchServiceKey, hkey, Option.bind_eq_bind,
    Option.bind_some]
  cases splitMarker "_ip_".toList (service.toList ++ ("_ip_".toList ++ ip.toList)) with
  | none => exact iff_of_false nofun nofun
  | some parts =>
    show some (String.ofList parts.1, String.ofList parts.2) = some (service, ip) ↔ _
    rw [Option.some_inj, Option.some_inj, Prod.ext_iff, Prod.ext_iff]
    simp only [← String.toList_inj, String.toList_ofList]

/-- A live service ban is listed with what its key is matched to. -/
theorem listKey_serviceBanKey {now : Nat} {dict : Store String BanValue} {e : Entry BanValue}
    (he : dict (serviceBanKey service ip) = some e) (hlive : e.Live now) :
    listKey now dict (serviceBanKey service ip) =
      (matchServiceKey (serviceBanKey service ip)).map fun (service, ip) =>
        listedValue e.value ip service .service (remaining e now) := by
  have hservice : "bans_service_".toList.isPrefixOf (serviceBanKey service ip).toList = true := by
    rw [List.isPrefixOf_iff_prefix, toList_serviceBanKey]
    exact List.prefix_append _ _
  have hglobal : ¬ "bans_ip_".toList.isPrefixOf (serviceBanKey service ip).toList = true := by
    rw [List.isPrefixOf_iff_prefix, toList_serviceBanKey]
    intro h
    have htake : "bans_ip_".toList <+: "bans_service_".toList :=
      List.prefix_of_prefix_length_le h (List.prefix_append _ _) (by decide)
    exact absurd htake (by decide)
  rw [listKey, he]
  dsimp only
  rw [if_neg (not_not_intro hlive), if_neg hglobal, if_pos hservice]

theorem listedValue_fields (value : BanValue) (scope : BanScope) (exp : Nat) :
    (listedValue value ip service scope exp).service = service ∧
      (listedValue value ip service scope exp).ip = ip ∧
      (listedValue value ip service scope exp).scope = scope := by
  cases value <;> exact ⟨rfl, rfl, rfl⟩

/-- The stores with one entry for the key, and one global ban of the address. -/
def twoBans (service ip : String) : BanStores where
  datastore := (Store.empty.put (globalBanKey ip) ⟨.text "manual", none⟩).put
    (serviceBanKey service ip) ⟨.text "manual", none⟩
  otherDatastore := Store.empty
  redis := Store.empty

theorem twoBans_service :
    (twoBans service ip).datastore (serviceBanKey service ip) = some ⟨.text "manual", none⟩ :=
  Store.put_same _ _ _

theorem twoBans_global :
    (twoBans service ip).datastore (globalBanKey ip) = some ⟨.text "manual", none⟩ := by
  have hne : globalBanKey ip ≠ serviceBanKey service ip := globalBanKey_ne_serviceBanKey service
  simp [twoBans, hne]

/-- The removal of a service that has a reserved name is a global one. -/
theorem postUnban_reserved {env : BanEnv} (hip : env.isIp ip = true) (now : Nat) (st : BanStores)
    (hservice : service ∈ reservedServiceNames) :
    postUnban env now ip service .service st = (200, (removeBan env now ip service .global st).2) := by
  have hok : (removeBan env now ip service .global st).1 = true := by simp [removeBan, hip]
  simp [postUnban, hip, hservice, hok]

theorem postUnban_service {env : BanEnv} (hip : env.isIp ip = true) (now : Nat) (st : BanStores)
    (hservice : service ∉ reservedServiceNames) :
    postUnban env now ip service .service st =
      (200, without env (serviceBanKey service ip) st) := by
  simp [postUnban, hip, hservice, removeBan, without]

end

/-- **When a ban is listed and taken back as what it is.** For every service, every address and
every state in which the ban can be read. -/
theorem faithful_iff {env : BanEnv} (hempty : env.isIp "" = false) {ip : String}
    (hip : env.isIp ip = true) (service : String) :
    (∀ now st, (st.datastore.get now (serviceBanKey service ip)).isSome →
      Faithful env now service ip st) ↔
    ¬ HidesMarker service ∧ service ∉ reservedServiceNames := by
  have hne : ip ≠ "" := fun he => by rw [he, hempty] at hip; cases hip
  constructor
  · intro h
    have hlive : ((twoBans service ip).datastore.get 0 (serviceBanKey service ip)).isSome := by
      rw [Store.get_of_live twoBans_service (Entry.live_none _ _)]
      rfl
    obtain ⟨e, he, hservice, hip', hscope, hunban⟩ := h 0 (twoBans service ip) hlive
    rw [listKey_serviceBanKey twoBans_service (Entry.live_none _ _)] at he
    obtain ⟨⟨service', ip''⟩, hmatch, rfl⟩ := Option.map_eq_some_iff.mp he
    obtain ⟨hs, hi, -⟩ := @listedValue_fields service' ip'' (.text "manual") .service
      (remaining ⟨.text "manual", none⟩ 0)
    constructor
    · rw [← matchServiceKey_serviceBanKey hne, hmatch, ← hs, ← hi]
      exact congrArg some (Prod.ext hservice hip')
    · intro hreserved
      rw [hservice, hip', hscope, postUnban_reserved hip _ _ hreserved] at hunban
      have hglobal := congrFun (congrArg (fun r => BanStores.datastore r.2) hunban)
        (globalBanKey ip)
      have hne' : globalBanKey ip ≠ serviceBanKey service ip :=
        globalBanKey_ne_serviceBanKey service
      have hkept : (without env (serviceBanKey service ip) (twoBans service ip)).datastore
          (globalBanKey ip) = some ⟨.text "manual", none⟩ :=
        (Store.delete_of_ne (twoBans service ip).datastore hne').trans twoBans_global
      rw [hkept] at hglobal
      simp [removeBan, hip] at hglobal
  · rintro ⟨hmarker, hreserved⟩ now st hlive
    obtain ⟨v, hv⟩ := Option.isSome_iff_exists.mp hlive
    obtain ⟨e, he, helive, -⟩ := Store.get_eq_some.mp hv
    have hlist := listKey_serviceBanKey he helive
    rw [(matchServiceKey_serviceBanKey hne).mpr hmarker, Option.map_some] at hlist
    obtain ⟨hs, hi, hscope⟩ := @listedValue_fields service ip e.value .service (remaining e now)
    refine ⟨_, hlist, hs, hi, hscope, ?_⟩
    rw [hs, hi, hscope]
    exact postUnban_service hip now st hreserved

/-- The state after a ban for an ordinary service. -/
theorem faithful_www :
    Faithful (oneAddress false false) 0 "www.example.com" "1.2.3.4"
      (addBan (oneAddress false false) 0 "1.2.3.4" "manual" 86400 "www.example.com" "local" .service
        ⟨Store.empty, Store.empty, Store.empty⟩).2 :=
  (faithful_iff (by decide) (by decide) _).mpr ⟨by decide, by decide⟩ 0 _ (by decide +kernel)

/-- A name that `SERVER_NAME` accepts, and the state after a ban for it: the ban is listed for
another service and something that is no address, and the removal of that entry is refused. -/
theorem marker_in_a_name :
    let service := "app_ip_v2.example.com"
    let env := oneAddress false false
    let st := (addBan env 0 "1.2.3.4" "manual" 86400 service "local" .service
      ⟨Store.empty, Store.empty, Store.empty⟩).2
    serverNameOk Char.isAlphanum service = true ∧
      (listKey 0 st.datastore (serviceBanKey service "1.2.3.4")).map (fun e => (e.service, e.ip)) =
        some ("app", "v2.example.com_ip_1.2.3.4") ∧
      (postUnban env 0 "v2.example.com_ip_1.2.3.4" "app" .service st).1 = 400 ∧
      ¬ Faithful env 0 service "1.2.3.4" st := by
  have hlisted : (listKey 0 (addBan (oneAddress false false) 0 "1.2.3.4" "manual" 86400
      "app_ip_v2.example.com" "local" .service ⟨Store.empty, Store.empty, Store.empty⟩).2.datastore
      (serviceBanKey "app_ip_v2.example.com" "1.2.3.4")).map (fun e => (e.service, e.ip)) =
      some ("app", "v2.example.com_ip_1.2.3.4") := by decide +kernel
  refine ⟨by decide +kernel, hlisted, by decide +kernel, ?_⟩
  rintro ⟨e, he, hservice, -⟩
  rw [he, Option.map_some, hservice] at hlisted
  have hname : "app_ip_v2.example.com" = "app" := congrArg Prod.fst (Option.some.inj hlisted)
  exact absurd hname (by decide)

end BunkerWeb.Lua
