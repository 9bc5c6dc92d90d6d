import BunkerWeb.Lib.Placing
import BunkerWeb.Lua.Variables

/-!
# The whitelist (`core/whitelist/whitelist.lua`, `utils.is_ip_whitelisted`)

In the init phase the plugin reads the lists that were downloaded for each service and leaves them
in the internal store. A request to a service adds the settings of the service to its lists and
matches the address, its reverse DNS names and its AS number against them. `utils.is_ip_whitelisted` reads
the internal store for those that have no request to go by.

The other kinds of the plugin (URI and user agent) are left out, and so are texts that are only
logged. A lookup in the local cache does not fail here, and a setting has a value.

`reverse_dns_iff` compares the two searches for a name that resolves back to the address.
-/

namespace BunkerWeb.Lua.Whitelist

open Lib

inductive Kind where
  | ip
  | rdns
  | asn
  deriving DecidableEq, Repr

/-- `"WHITELIST_" .. kind`. -/
def Kind.setting : Kind → String
  | ip => "WHITELIST_IP"
  | rdns => "WHITELIST_RDNS"
  | asn => "WHITELIST_ASN"

abbrev Lists := Kind → List String

/-- The text that comes with a verdict: `ok`, `ip`, `rDNS ..` or `ASN ..`. -/
inductive Info where
  | ok
  | ip
  | rdns (suffix : String)
  | asn (number : String)
  deriving DecidableEq, Repr

/-- `resty.ipmatcher`: which texts it can read as an entry of a list and as an address, and which
addresses an entry covers. -/
structure IpMatcher where
  entry : String → Bool
  address : String → Bool
  covers : String → String → Bool

/-- `ipmatcher.new(list)` and `ipm:match(addr)`; `none` if one of them returns an error. -/
def IpMatcher.matchList (m : IpMatcher) (list : List String) (addr : String) : Option Bool :=
  if list.all m.entry && m.address addr then some (list.any fun e => m.covers e addr) else none

/-- What both readers find around them. -/
structure World where
  matcher : IpMatcher
  vars : Variables
  /-- The lines of `/var/cache/bunkerweb/whitelist/<service>/<kind>.list`, if there is one. -/
  files : String → Kind → Option (List String)
  /-- The verdict under `plugin_whitelist_<service>ip<address>` in the local cache. -/
  cache : String → String → Option Info
  ipIsGlobal : String → Bool
  /-- `get_rdns`: the PTR names of an address. -/
  getRdns : String → Option (List String)
  /-- `get_ips`: the addresses of a name. -/
  getIps : String → Option (List String)
  /-- `tostring(get_asn(ip))`. -/
  getAsn : String → Option String

/-- `utils.deduplicate_list`. -/
def deduplicateList (list : List String) : List String := place (fun _ => true) [] list

namespace World

variable (w : World)

def setting (server name : String) : String := (w.vars.getVariable (some server) name).getD ""

def isLoading : Bool := w.vars.getVariable none "IS_LOADING" == some "yes"

/-- `self:is_needed()` in the init phase. -/
def initNeeded : Bool := !w.isLoading && w.vars.hasVariable "USE_WHITELIST" "yes"

/-- `self:is_needed()` in a request. -/
def needed (server : String) : Bool :=
  !w.isLoading &&
    if server ≠ "_" then w.setting server "USE_WHITELIST" == "yes"
    else w.vars.hasVariable "USE_WHITELIST" "yes"

/-- `plugin_whitelist_lists_<service>` in the internal store, as `whitelist:init` leaves it. -/
def stored (server : String) : Option Lists :=
  if w.initNeeded ∧ server ∈ gmatchWords w.vars.serverName then
    some fun kind => deduplicateList (((w.files server kind).getD []).filter (· ≠ ""))
  else none

/-- `self.lists` of a request, as `whitelist:initialize` fills it. -/
def lists (server : String) : Lists := fun kind =>
  deduplicateList (((w.stored server).map fun lists => lists kind).getD [] ++
    gmatchWords (w.setting server kind.setting))

end World

/-! ## Reverse DNS -/

/-- `rdns:sub(-#suffix) == suffix`; `sub(-0)` is the whole text. -/
def endsWith (rdns suffix : String) : Bool :=
  if suffix = "" then rdns == "" else suffix.toList.isSuffixOf rdns.toList

/-- The loop of `is_whitelisted_ip` that ends at the first name with a suffix of the list. -/
def firstSuffix (rdnsList suffixList : List String) : Option (String × String) :=
  rdnsList.findSome? fun rdns => (suffixList.find? fun suffix => endsWith rdns suffix).map
    fun suffix => (rdns, suffix)

/-- The forward check of `is_whitelisted_ip`: the suffix of the name that it accepts. -/
def pluginRdns (getIps : String → Option (List String)) (rdnsList suffixList : List String)
    (addr : String) : Option String :=
  match firstSuffix rdnsList suffixList with
  | none => none
  | some (rdns, suffix) =>
    match getIps rdns with
    | none => none
    | some ips => if addr ∈ ips then some suffix else none

/-- `utils.rdns_forward_confirmed`: the suffix and the name that it finds. -/
def rdnsForwardConfirmed (getIps : String → Option (List String))
    (rdnsList suffixList : List String) (addr : String) : Option (String × String) :=
  rdnsList.findSome? fun rdns => suffixList.findSome? fun suffix =>
    if endsWith rdns suffix then
      match getIps rdns with
      | none => none
      | some ips => if addr ∈ ips then some (suffix, rdns) else none
    else none

/-! ## The readers -/

namespace World

variable (w : World)

/-- `whitelist:is_whitelisted_ip`; `none` is an error. -/
def isWhitelistedIp (server addr : String) : Option Info :=
  match w.matcher.matchList (w.lists server .ip) addr with
  | none => none
  | some true => some .ip
  | some false =>
    let checkRdns := !(w.setting server "WHITELIST_RDNS_GLOBAL" == "yes" && !w.ipIsGlobal addr)
    let rdns := if checkRdns then (w.getRdns addr).bind fun rdnsList =>
      pluginRdns w.getIps rdnsList (w.lists server .rdns) addr else none
    match rdns with
    | some suffix => some (.rdns suffix)
    | none =>
      let asn := if w.ipIsGlobal addr then (w.getAsn addr).bind fun asn =>
        (w.lists server .asn).find? (· = asn) else none
      match asn with
      | some asn => some (.asn asn)
      | none => some .ok

/-- What `whitelist:access` accepts the address with, if it does. -/
def access (server addr : String) : Option Info :=
  if w.needed server then
    match w.cache server addr with
    | some info => if info = .ok then none else some info
    | none => (w.isWhitelistedIp server addr).filter (· ≠ .ok)
  else none

/-- `check_service` of `is_ip_whitelisted`; `none` is `nil`. -/
def checkService (addr name : String) : Option (Bool × Info) :=
  if name = "" then none
  else
    match w.cache name addr with
    | some info => some (info ≠ .ok, info)
    | none =>
      match w.stored name with
      | none => none
      | some lists =>
        if lists .ip = [] then some (false, .ok)
        else
          match w.matcher.matchList (lists .ip) addr with
          | none => none
          | some true => some (true, .ip)
          | some false => some (false, .ok)

/-- What `is_ip_whitelisted` does without a service that answers: all services, then the global
setting. -/
def fallback (addr : String) : Option (Bool × Info) :=
  let accepted := (gmatchWords w.vars.serverName).findSome? fun server =>
    (w.checkService addr server).filter (·.1)
  match accepted with
  | some verdict => some verdict
  | none =>
    let networks := gmatchWords ((w.vars.global.lookup "WHITELIST_IP").getD "")
    if networks = [] then some (false, .ok)
    else (w.matcher.matchList networks addr).map fun found =>
      if found then (true, .ip) else (false, .ok)

/-- `utils.is_ip_whitelisted`, with the name of a server. -/
def isIpWhitelisted (addr server : String) : Option (Bool × Info) :=
  if server ≠ "" ∧ server ≠ "_" then
    match w.checkService addr server with
    | some verdict => some verdict
    | none => w.fallback addr
  else w.fallback addr

end World

/-! ## The first name, or any name -/

section

variable {getIps : String → Option (List String)} {rdnsList suffixList : List String}
  {addr : String}

/-- The name has a suffix of the list. -/
def Allowed (suffixList : List String) (rdns : String) : Prop :=
  ∃ suffix ∈ suffixList, endsWith rdns suffix = true

instance (suffixList : List String) (rdns : String) : Decidable (Allowed suffixList rdns) :=
  inferInstanceAs (Decidable (∃ _ ∈ _, _))

/-- The name resolves forward to the address. -/
def Confirms (getIps : String → Option (List String)) (addr rdns : String) : Prop :=
  ∃ ips, getIps rdns = some ips ∧ addr ∈ ips

/-- The helper finds a name if one has a suffix of the list and resolves to the address. -/
theorem rdnsForwardConfirmed_isSome :
    (rdnsForwardConfirmed getIps rdnsList suffixList addr).isSome ↔
      ∃ rdns ∈ rdnsList, Allowed suffixList rdns ∧ Confirms getIps addr rdns := by
  rw [rdnsForwardConfirmed, List.findSome?_isSome_iff]
  refine exists_congr fun rdns => and_congr_right fun _ => ?_
  rw [List.findSome?_isSome_iff]
  constructor
  · rintro ⟨suffix, hsuffix, h⟩
    split at h
    · rename_i hends
      split at h
      · cases h
      · rename_i ips hips
        split at h
        · rename_i hmem
          exact ⟨⟨suffix, hsuffix, hends⟩, ips, hips, hmem⟩
        · cases h
    · cases h
  · rintro ⟨⟨suffix, hsuffix, hends⟩, ips, hips, hmem⟩
    refine ⟨suffix, hsuffix, ?_⟩
    rw [if_pos hends, hips]
    simp [hmem]

/-- The plugin checks the first name with a suffix of the list. -/
theorem firstSuffix_map_fst :
    (firstSuffix rdnsList suffixList).map Prod.fst = rdnsList.find? (Allowed suffixList ·) := by
  induction rdnsList with
  | nil => rfl
  | cons rdns rdnsList ih =>
    rw [firstSuffix, List.findSome?_cons, List.find?_cons]
    cases hfind : suffixList.find? fun suffix => endsWith rdns suffix with
    | some suffix =>
      have hallowed : Allowed suffixList rdns :=
        ⟨suffix, List.mem_of_find?_eq_some hfind, List.find?_some hfind⟩
      simp [hallowed]
    | none =>
      have hnot : ¬ Allowed suffixList rdns := fun ⟨suffix, hsuffix, hends⟩ =>
        List.find?_eq_none.mp hfind suffix hsuffix hends
      simpa [hnot, firstSuffix] using ih

theorem pluginRdns_isSome :
    (pluginRdns getIps rdnsList suffixList addr).isSome ↔
      ∃ rdns, rdnsList.find? (Allowed suffixList ·) = some rdns ∧ Confirms getIps addr rdns := by
  rw [← firstSuffix_map_fst, pluginRdns]
  cases firstSuffix rdnsList suffixList with
  | none => simp
  | some found =>
    cases hips : getIps found.1 with
    | none => simp [Confirms, hips]
    | some ips => by_cases hmem : addr ∈ ips <;> simp [Confirms, hips, hmem]

/-- Both searches agree on whether a name makes the address accepted. -/
def ReverseDnsAgrees (getIps : String → Option (List String)) (rdnsList suffixList : List String)
    (addr : String) : Prop :=
  (pluginRdns getIps rdnsList suffixList addr).isSome ↔
    (rdnsForwardConfirmed getIps rdnsList suffixList addr).isSome

/-- **Reverse DNS.** The searches agree exactly when the first name with a suffix of the list
resolves to the address as soon as any such name does. -/
theorem reverse_dns_iff (getIps : String → Option (List String))
    (rdnsList suffixList : List String) (addr : String) :
    ReverseDnsAgrees getIps rdnsList suffixList addr ↔
      ∀ first, rdnsList.find? (Allowed suffixList ·) = some first →
        ∀ rdns ∈ rdnsList, Allowed suffixList rdns → Confirms getIps addr rdns →
          Confirms getIps addr first := by
  rw [ReverseDnsAgrees, pluginRdns_isSome, rdnsForwardConfirmed_isSome]
  constructor
  · intro h first hfirst rdns hmem hallowed hconfirms
    obtain ⟨first', hfirst', hconfirms'⟩ := h.mpr ⟨rdns, hmem, hallowed, hconfirms⟩
    obtain rfl := Option.some.inj (hfirst.symm.trans hfirst')
    exact hconfirms'
  · intro h
    constructor
    · rintro ⟨first, hfirst, hconfirms⟩
      exact ⟨first, List.mem_of_find?_eq_some hfirst, by simpa using List.find?_some hfirst,
        hconfirms⟩
    · rintro ⟨rdns, hmem, hallowed, hconfirms⟩
      have hsome : (rdnsList.find? (Allowed suffixList ·)).isSome :=
        List.find?_isSome.mpr ⟨rdns, hmem, by simpa using hallowed⟩
      obtain ⟨first, hfirst⟩ := Option.isSome_iff_exists.mp hsome
      exact ⟨first, hfirst, h first hfirst rdns hmem hallowed hconfirms⟩

/-- A name that does not resolve back stands in front of one that does. -/
theorem second_name_confirms :
    ¬ ReverseDnsAgrees
      (fun rdns => if rdns = "crawl-1.search.example" then some ["192.0.2.7"] else some [])
      ["fake.search.example", "crawl-1.search.example"] [".search.example"] "192.0.2.7" := by
  unfold ReverseDnsAgrees
  decide

end

end BunkerWeb.Lua.Whitelist
