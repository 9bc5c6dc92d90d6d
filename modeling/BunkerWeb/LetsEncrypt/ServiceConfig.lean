import BunkerWeb.LetsEncrypt.WildcardBases
import BunkerWeb.LetsEncrypt.Wildcards
import Mathlib.Data.Finset.Lattice.Basic
import Mathlib.Data.List.Sort

/-!
# What a service asks of certbot (`certbot-new.py`)

`build_service_config` reads the settings of a service, and `build_service_entries` makes the
configurations of its certificates of them: one for the service, or one for each group of wildcard
names. The job collects them under the names of the certificates and merges those that agree.

- **The settings** (`Settings`): the environment of every service. `extract_provider` is a parameter,
  of which only the formatted credentials are used.
- **Left out**: retries and time limits, which only the calls of certbot read.
-/

namespace BunkerWeb.LetsEncrypt.CertbotNew

open Lib

abbrev Text := List Char

abbrev Bytes := List UInt8

/-- The digits of `hexdigest()`; the text `""` for no digest is `none`. -/
abbrev Digest := List (Fin 16)

/-- `str.encode("utf-8")`. -/
def encode (text : Text) : Bytes := (String.ofList text).toUTF8.toList

/-! ## Settings -/

structure Settings where
  /-- `env` of the service, without its default. -/
  env : Name → String → Option Text
  /-- `extract_provider` for the service, with the authenticator and the decoding. -/
  extractProvider : Name → Text → Bool → Option Bytes

/-- The keys of `PROVIDERS`. -/
def providers : List Text :=
  ["bunny", "cloudns", "cloudflare", "desec", "digitalocean", "domainoffensive", "domeneshop",
    "dnsimple", "dnsmadeeasy", "duckdns", "dynu", "gandi", "gehirn", "godaddy", "google", "hetzner",
    "infomaniak", "ionos", "linode", "luadns", "njalla", "nsone", "ovh", "pdns", "porkbun",
    "rfc2136", "route53", "sakuracloud", "scaleway", "transip"].map String.toList

/-- `get_file_type` of a provider. -/
def fileType (authenticator : Text) : Text :=
  if authenticator = "google".toList then "json".toList
  else if authenticator = "route53".toList then "env".toList
  else "ini".toList

def letsencrypt : Text := "letsencrypt".toList

def zerossl : Text := "zerossl".toList

def http : Text := "http".toList

def dns : Text := "dns".toList

def manual : Text := "manual".toList

def route53 : Text := "route53".toList

def acmeServerTypes : List Text := [letsencrypt, zerossl]

def challengeTypes : List Text := [http, dns]

def profileTypes : List Text := ["classic".toList, "tlsserver".toList, "shortlived".toList]

def getExpectedAcmeDirectory (server : Text) (staging : Bool) : Text :=
  if server = zerossl then "https://acme.zerossl.com/v2/DV90".toList
  else if staging then "https://acme-staging-v02.api.letsencrypt.org/directory".toList
  else "https://acme-v02.api.letsencrypt.org/directory".toList

/-! ## Configurations -/

structure Config where
  serverNames : Text
  activated : Bool
  acmeServer : Text
  acmeServerUrl : Text
  zerosslApiKeyHash : Option Digest
  email : Text
  challenge : Text
  authenticator : Text
  dnsPropagation : Text
  provider : Option Bytes
  wildcard : Bool
  staging : Bool
  profile : Text
  disablePslCheck : Bool
  deriving DecidableEq

/-- The value is a positive integer; a regular expression allows digits only. -/
def isPositiveInt (text : Text) : Bool :=
  text.all Char.isDigit && text.any (· ≠ '0')

def isYes (text : Text) : Bool := lower text = "yes".toList

section

variable (sha256 : Bytes → Digest) (settings : Settings)

def buildServiceConfig (service : Name) : List Name × Config :=
  let env := fun key default => ((settings.env service key).getD default : Text)
  let authenticator := lower (env "LETS_ENCRYPT_DNS_PROVIDER" [])
  let acmeServer := lower (env "LETS_ENCRYPT_SERVER" letsencrypt)
  let zerosslApiKey := stripChars (env "LETS_ENCRYPT_ZEROSSL_API_KEY" [])
  let serverNames := stripChars (env "SERVER_NAME" "www.example.com".toList)
  let email := stripChars (env "EMAIL_LETS_ENCRYPT" [])
  let challenge := lower (env "LETS_ENCRYPT_CHALLENGE" http)
  let profile := lower (env "LETS_ENCRYPT_PROFILE" "classic".toList)
  let customProfile := lower (env "LETS_ENCRYPT_CUSTOM_PROFILE" [])
  let dnsPropagation := lower (env "LETS_ENCRYPT_DNS_PROPAGATION" "default".toList)
  let decodeBase64 := isYes (env "LETS_ENCRYPT_DNS_CREDENTIAL_DECODE_BASE64" "yes".toList)
  let wildcard := isYes (env "USE_LETS_ENCRYPT_WILDCARD" "no".toList)
  let activated := isYes (env "AUTO_LETS_ENCRYPT" "no".toList) &&
    lower (env "LETS_ENCRYPT_PASSTHROUGH" "no".toList) = "no".toList
  let staging := isYes (env "USE_LETS_ENCRYPT_STAGING" "no".toList)
  let acmeServer := if acmeServer ∈ acmeServerTypes then acmeServer else letsencrypt
  let activated := activated && !serverNames.isEmpty
  let email := if '@' ∈ email then email else []
  let activated := activated && !(acmeServer = zerossl && email.isEmpty && zerosslApiKey.isEmpty)
  let staging := staging && acmeServer ≠ zerossl
  let activated := activated && challenge ∈ challengeTypes
  let profile :=
    if customProfile ≠ [] then customProfile
    else if profile ∈ profileTypes then profile else "classic".toList
  let dnsPropagation := if isPositiveInt dnsPropagation then dnsPropagation else "default".toList
  let supported := challenge = dns && authenticator ∈ providers
  let provider :=
    if supported then settings.extractProvider service authenticator decodeBase64 else none
  let activated := activated && (challenge ≠ dns || provider.isSome)
  let authenticator := if challenge = dns then authenticator else manual
  (fields isSpace serverNames,
    { serverNames := []
      activated
      acmeServer
      acmeServerUrl := getExpectedAcmeDirectory acmeServer staging
      zerosslApiKeyHash :=
        if zerosslApiKey.isEmpty then none else some (sha256 (encode zerosslApiKey))
      email
      challenge
      authenticator := if authenticator = [] then manual else authenticator
      dnsPropagation
      provider
      wildcard := wildcard && challenge = dns
      staging
      profile
      disablePslCheck := isYes (env "LETS_ENCRYPT_DISABLE_PUBLIC_SUFFIXES" "no".toList) })

/-! ## Certificates -/

/-- `format_server_names`. -/
def formatServerNames (names : List Name) : Text :=
  [','].intercalate (names.insertionSort fun a b => sortedBefore a b)

/-- `build_service_entries`; `enum` lists the set of names. -/
def buildServiceEntries (enum : Finset Name → List Name) (service : Name) : List (Name × Config) :=
  let (serverNames, baseConfig) := buildServiceConfig sha256 settings service
  if serverNames = [] then []
  else
    let uniqueNames := normalizeServerNames ([','].intercalate serverNames)
    if baseConfig.wildcard then
      (extractWildcardGroups (enum uniqueNames)).items.map fun group =>
        (group.1, { baseConfig with serverNames := [','].intercalate group.2 })
    else [(service, { baseConfig with serverNames := formatServerNames (enum uniqueNames) })]

/-- `certificate_fingerprint`. -/
def certificateFingerprint (config : Config) : Config × Option Digest :=
  ({ config with serverNames := [], activated := false, provider := none },
    if config.challenge = dns then config.provider.map sha256 else none)

/-- A certificate of a service is new, or has the names of several services. -/
def addEntry (enum : Finset Name → List Name) (services : Dict Name Config)
    (entry : Name × Config) : Dict Name Config :=
  match services.lookup entry.1 with
  | none => services.insert entry.1 entry.2
  | some config =>
    if certificateFingerprint sha256 config = certificateFingerprint sha256 entry.2 then
      let merged := normalizeServerNames config.serverNames ∪
        normalizeServerNames entry.2.serverNames
      services.insert entry.1 { config with serverNames := formatServerNames (enum merged) }
    else services

/-- The certificates of all services. -/
def buildServices (enum : Finset Name → List Name) (serverNames : List Name) : Dict Name Config :=
  (serverNames.flatMap (buildServiceEntries sha256 settings enum)).foldl (addEntry sha256 enum) ∅

end

end BunkerWeb.LetsEncrypt.CertbotNew

/-!
## What the certificates of a run are

- **The order of sets** (`lookup_buildServices_congr`): the certificates and their configurations do
  not depend on the order in which the names of a service are listed.
- **Activated services** (`IsConfig`): what a configuration that is asked for has been checked for.
-/

namespace BunkerWeb.LetsEncrypt.CertbotNew

open Lib

/-! ## Sorted names -/

theorem sortedBefore_iff {a b : Name} : sortedBefore a b = true ↔
    isWildcard a = isWildcard b ∧ textLt b a = false ∨
      isWildcard a = true ∧ isWildcard b = false := by
  unfold sortedBefore
  split
  next h =>
    rw [Bool.not_eq_true', h]
    cases isWildcard b <;> simp
  next h => cases ha : isWildcard a <;> cases hb : isWildcard b <;> simp_all

instance : Std.Total fun a b : Name => sortedBefore a b = true := ⟨fun a b => by
  simp only [sortedBefore_iff]
  have htotal := textLt_total a b
  cases isWildcard a <;> cases isWildcard b <;> simp [htotal]⟩

instance : IsTrans Name fun a b => sortedBefore a b = true := ⟨fun a b c => by
  simp only [sortedBefore_iff]
  rintro (⟨h, hle⟩ | h) (⟨h', hle'⟩ | h')
  · exact .inl ⟨h.trans h', not_textLt_trans hle hle'⟩
  · exact .inr ⟨h.trans h'.1, h'.2⟩
  · exact .inr ⟨h.1, h'.symm.trans h.2⟩
  · exact absurd (h.2.symm.trans h'.1) Bool.false_ne_true⟩

instance : Std.Antisymm fun a b : Name => sortedBefore a b = true := ⟨fun a b => by
  simp only [sortedBefore_iff]
  rintro (⟨h, hle⟩ | h) (⟨h', hle'⟩ | h')
  · exact not_textLt_antisymm hle hle'
  · exact absurd (h'.1.symm.trans (h.symm.trans h'.2)) (by decide)
  · exact absurd (h.1.symm.trans (h'.symm.trans h.2)) (by decide)
  · exact absurd (h.1.symm.trans h'.2) (by decide)⟩

/-- Names in any order are sorted in the same way. -/
theorem formatServerNames_perm {names names' : List Name} (h : names.Perm names') :
    formatServerNames names = formatServerNames names' := by
  have hperm : (names.insertionSort fun a b => sortedBefore a b).Perm
      (names'.insertionSort fun a b => sortedBefore a b) :=
    ((List.perm_insertionSort _ names).trans h).trans (List.perm_insertionSort _ names').symm
  have hsorted (names : List Name) : (names.insertionSort fun a b => sortedBefore a b).Pairwise
      fun a b => sortedBefore a b = true := List.pairwise_insertionSort _ names
  have heq := hperm.eq_of_pairwise
    (fun a b _ _ => Std.Antisymm.antisymm (r := fun a b : Name => sortedBefore a b = true) a b)
    (hsorted names) (hsorted names')
  rw [formatServerNames, formatServerNames, heq]

/-! ## The groups of names in another order -/

theorem isBase_perm {labelsList labelsList' : List Labels} (h : labelsList.Perm labelsList')
    (m : Labels) : IsBase labelsList m ↔ IsBase labelsList' m := by
  have hgroup : (groupLists (groupKey m) labelsList).Perm (groupLists (groupKey m) labelsList') :=
    h.filter _
  unfold IsBase
  by_cases htwo : 2 ≤ (groupLists (groupKey m) labelsList).length
  · exact mem_baseLabels_congr htwo (hgroup.length_eq ▸ htwo) (fun _ => hgroup.mem_iff) m
  · -- A group of at most one list has no other order.
    have heq : groupLists (groupKey m) labelsList = groupLists (groupKey m) labelsList' := by
      match hgroup₁ : groupLists (groupKey m) labelsList with
      | [] => exact (List.nil_perm.mp (hgroup₁ ▸ hgroup)).symm
      | [l] => exact (List.perm_singleton.mp (hgroup₁ ▸ hgroup).symm).symm
      | _ :: _ :: _ => exact absurd (by rw [hgroup₁]; simp) htwo
    rw [heq]

theorem lookup_extractWildcardGroups_perm {domains domains' : List Name}
    (h : domains.Perm domains') (base : Name) :
    (extractWildcardGroups domains).lookup base = (extractWildcardGroups domains').lookup base := by
  have hlabels := h.filterMap cleanedLabels
  have hmem : (∃ m, IsBase (domains.filterMap cleanedLabels) m ∧ join m = base) ↔
      ∃ m, IsBase (domains'.filterMap cleanedLabels) m ∧ join m = base :=
    exists_congr fun m => and_congr_left fun _ => isBase_perm hlabels m
  rw [← mem_jobBases fun l hl => good_of_mem_filterMap hl,
    ← mem_jobBases fun l hl => good_of_mem_filterMap hl] at hmem
  rw [extractWildcardGroups, extractWildcardGroups, lookup_groups, lookup_groups]
  simp only [hmem]

/-! ## The entries of all services -/

theorem filter_items (d : Dict Name (List Name)) (k : Name) :
    d.items.filter (fun e => e.1 = k) = ((d.lookup k).map fun v => (k, v)).toList := by
  cases h : d.lookup k with
  | none =>
    rw [Option.map_none, Option.toList_none, List.filter_eq_nil_iff]
    rintro ⟨k', v⟩ he hk
    obtain rfl : k' = k := by simpa using hk
    rw [Dict.mem_items.mp he] at h
    cases h
  | some v =>
    have hnodup := (Dict.items_nodup d).filter (fun e : Name × List Name => decide (e.1 = k))
    have hmem : ∀ e, e ∈ d.items.filter (fun e => e.1 = k) ↔ e = (k, v) := by
      rintro ⟨k', v'⟩
      rw [List.mem_filter, Dict.mem_items]
      constructor
      · rintro ⟨he, hk⟩
        obtain rfl : k' = k := by simpa using hk
        rw [h] at he
        cases he
        rfl
      · intro he
        cases he
        exact ⟨h, by simp⟩
    rw [Option.map_some, Option.toList_some]
    refine List.perm_singleton.mp ?_
    exact (List.perm_ext_iff_of_nodup hnodup (List.nodup_singleton _)).mpr fun e => by
      rw [hmem, List.mem_singleton]

section

variable {sha256 : Bytes → Digest} {settings : Settings} {enum enum' : Finset Name → List Name}

/-- The entry of a certificate together with what is known of it. -/
def mergeEntry (sha256 : Bytes → Digest) (enum : Finset Name → List Name) (known : Option Config)
    (entry : Name × Config) : Option Config :=
  match known with
  | none => some entry.2
  | some config =>
    if certificateFingerprint sha256 config = certificateFingerprint sha256 entry.2 then
      some { config with serverNames := formatServerNames (enum
        (normalizeServerNames config.serverNames ∪ normalizeServerNames entry.2.serverNames)) }
    else known

theorem lookup_addEntry (services : Dict Name Config) (entry : Name × Config) (name : Name) :
    (addEntry sha256 enum services entry).lookup name =
      if entry.1 = name then mergeEntry sha256 enum (services.lookup name) entry
      else services.lookup name := by
  unfold addEntry mergeEntry
  by_cases hname : entry.1 = name
  · rw [if_pos hname, hname]
    cases h : services.lookup name with
    | none => exact AList.lookup_insert services
    | some config =>
      dsimp only
      split
      · exact AList.lookup_insert services
      · exact h
  · rw [if_neg hname]
    split
    · exact AList.lookup_insert_ne (Ne.symm hname)
    · split
      · exact AList.lookup_insert_ne (Ne.symm hname)
      · rfl

/-- A certificate has what its own entries bring. -/
theorem lookup_addEntries (entries : List (Name × Config)) (services : Dict Name Config)
    (name : Name) : (entries.foldl (addEntry sha256 enum) services).lookup name =
      (entries.filter fun e => e.1 = name).foldl (mergeEntry sha256 enum)
        (services.lookup name) := by
  induction entries generalizing services with
  | nil => rfl
  | cons entry entries ih =>
    rw [List.foldl_cons, ih, lookup_addEntry, List.filter_cons]
    by_cases hname : entry.1 = name
    · simp [hname]
    · simp [hname]

variable (henum : ∀ names, (enum names).Perm (enum' names))
include henum

theorem filter_buildServiceEntries (service name : Name) :
    (buildServiceEntries sha256 settings enum service).filter (fun e => e.1 = name) =
      (buildServiceEntries sha256 settings enum' service).filter fun e => e.1 = name := by
  simp only [buildServiceEntries]
  split
  · rfl
  · split
    · have hmap : ∀ (f : Name × List Name → Config) (d : Dict Name (List Name)),
          (d.items.map fun group => (group.1, f group)).filter (fun e => e.1 = name) =
            (((d.lookup name).map fun v => (name, v)).toList).map fun group =>
              (group.1, f group) := by
        intro f d
        rw [List.filter_map, ← filter_items]
        rfl
      rw [hmap, hmap, lookup_extractWildcardGroups_perm (henum _)]
    · rw [formatServerNames_perm (henum _)]

theorem mergeEntry_congr (known : Option Config) (entry : Name × Config) :
    mergeEntry sha256 enum known entry = mergeEntry sha256 enum' known entry := by
  unfold mergeEntry
  cases known with
  | none => rfl
  | some config =>
    dsimp only
    rw [formatServerNames_perm (henum _)]

/-- The certificates do not depend on the order of the sets. -/
theorem lookup_buildServices_congr (serverNames : List Name) (name : Name) :
    (buildServices sha256 settings enum serverNames).lookup name =
      (buildServices sha256 settings enum' serverNames).lookup name := by
  have hmerge : mergeEntry sha256 enum = mergeEntry sha256 enum' :=
    funext fun known => funext fun entry => mergeEntry_congr henum known entry
  have hfilter : (serverNames.flatMap (buildServiceEntries sha256 settings enum)).filter
        (fun e => e.1 = name) =
      (serverNames.flatMap (buildServiceEntries sha256 settings enum')).filter
        fun e => e.1 = name := by
    rw [List.filter_flatMap, List.filter_flatMap]
    exact List.flatMap_congr fun service _ => filter_buildServiceEntries henum service name
  rw [buildServices, buildServices, lookup_addEntries, lookup_addEntries, hmerge, hfilter]

end

/-! ## Configurations -/

/-- What `build_service_config` has checked. -/
structure IsConfig (config : Config) : Prop where
  challenge : config.activated → config.challenge ∈ challengeTypes
  provider : config.activated → config.challenge = dns →
    config.authenticator ∈ providers ∧ config.provider.isSome
  notDns : config.challenge ≠ dns → config.authenticator = manual ∧ config.provider = none
  server : config.acmeServerUrl = getExpectedAcmeDirectory config.acmeServer config.staging ∧
    (config.acmeServer = zerossl → config.staging = false)

theorem isConfig_buildServiceConfig (sha256 : Bytes → Digest) (settings : Settings)
    (service : Name) : IsConfig (buildServiceConfig sha256 settings service).2 := by
  constructor
  case challenge =>
    intro h
    simp only [buildServiceConfig, Bool.and_eq_true, decide_eq_true_eq] at h
    exact h.1.2
  case provider =>
    intro h hdns
    simp only [buildServiceConfig] at h hdns
    simp only [Bool.and_eq_true, Bool.or_eq_true, decide_eq_true_eq, hdns, ne_eq,
      not_true_eq_false, false_or, decide_true, Bool.true_and] at h
    simp only [buildServiceConfig, hdns, decide_true, Bool.true_and, if_true, decide_eq_true_eq]
    have hprovider := h.2
    split at hprovider
    next hmem =>
      rw [if_pos hmem]
      refine ⟨?_, hprovider⟩
      split
      next hnil => exact absurd (hnil ▸ hmem) (by decide)
      next => exact hmem
    next => exact absurd hprovider (by simp)
  case notDns =>
    intro hdns
    simp only [buildServiceConfig] at hdns
    simp only [buildServiceConfig, hdns, if_false, decide_false, Bool.false_and,
      Bool.false_eq_true, ite_self, and_self]
  case server =>
    refine ⟨rfl, fun hzerossl => ?_⟩
    simp only [buildServiceConfig] at hzerossl ⊢
    rw [hzerossl]
    simp only [ne_eq, not_true_eq_false, decide_false, Bool.and_false]

theorem IsConfig.withServerNames {config : Config} (h : IsConfig config) (serverNames : Text) :
    IsConfig { config with serverNames } :=
  ⟨h.challenge, h.provider, h.notDns, h.server⟩

/-- What holds of the configuration of a service whatever its names holds of its certificates. -/
theorem of_mem_entries {sha256 : Bytes → Digest} {settings : Settings}
    {enum : Finset Name → List Name} {P : Config → Prop}
    (hnames : ∀ config serverNames, P config → P { config with serverNames })
    (hP : ∀ service, P (buildServiceConfig sha256 settings service).2) {service : Name}
    {entry : Name × Config} (h : entry ∈ buildServiceEntries sha256 settings enum service) :
    P entry.2 := by
  simp only [buildServiceEntries] at h
  split at h
  · exact absurd h List.not_mem_nil
  · split at h
    · obtain ⟨group, -, rfl⟩ := List.mem_map.mp h
      exact hnames _ _ (hP service)
    · obtain rfl := List.mem_singleton.mp h
      exact hnames _ _ (hP service)

/-- And of every configuration of a run. -/
theorem of_lookup {sha256 : Bytes → Digest} {settings : Settings}
    {enum : Finset Name → List Name} {P : Config → Prop}
    (hnames : ∀ config serverNames, P config → P { config with serverNames })
    (hP : ∀ service, P (buildServiceConfig sha256 settings service).2)
    {serverNames : List Name} {name : Name} {config : Config}
    (h : (buildServices sha256 settings enum serverNames).lookup name = some config) :
    P config := by
  have hentries : ∀ entry ∈ serverNames.flatMap (buildServiceEntries sha256 settings enum),
      P entry.2 := by
    intro entry hentry
    obtain ⟨service, -, hentry⟩ := List.mem_flatMap.mp hentry
    exact of_mem_entries hnames hP hentry
  have hfold : ∀ (entries : List (Name × Config)) (known : Option Config),
      (∀ entry ∈ entries, P entry.2) → (∀ c ∈ known, P c) →
        ∀ c ∈ entries.foldl (mergeEntry sha256 enum) known, P c := by
    intro entries
    induction entries with
    | nil => exact fun known _ hknown => hknown
    | cons entry entries ih =>
      intro known hentries hknown
      refine ih _ (fun e he => hentries e (List.mem_cons_of_mem entry he)) fun c hc => ?_
      cases known with
      | none =>
        obtain rfl : entry.2 = c := by simpa [mergeEntry] using hc
        exact hentries entry List.mem_cons_self
      | some old =>
        simp only [mergeEntry] at hc
        split at hc
        · obtain rfl := Option.some.inj hc
          exact hnames _ _ (hknown old rfl)
        · exact hknown c hc
  rw [buildServices, lookup_addEntries, AList.lookup_empty] at h
  exact hfold _ none (fun entry hentry => hentries entry (List.mem_filter.mp hentry).1)
    (fun c hc => absurd hc (by simp)) config h

theorem isConfig_of_lookup {sha256 : Bytes → Digest} {settings : Settings}
    {enum : Finset Name → List Name} {serverNames : List Name} {name : Name} {config : Config}
    (h : (buildServices sha256 settings enum serverNames).lookup name = some config) :
    IsConfig config :=
  of_lookup (fun _ serverNames hconfig => hconfig.withServerNames serverNames)
    (isConfig_buildServiceConfig sha256 settings) h

/-- The regular expression of the setting: a custom profile is one word. -/
def ProfilesAreWords (settings : Settings) : Prop :=
  ∀ service, ∀ profile ∈ settings.env service "LETS_ENCRYPT_CUSTOM_PROFILE",
    ∀ c ∈ profile, isSpace c = false

theorem profile_isWord {sha256 : Bytes → Digest} {settings : Settings}
    {enum : Finset Name → List Name} (hprofiles : ProfilesAreWords settings)
    {serverNames : List Name} {name : Name} {config : Config}
    (h : (buildServices sha256 settings enum serverNames).lookup name = some config) :
    config.profile ≠ [] ∧ ∀ c ∈ config.profile, isSpace c = false := by
  have hwords : ∀ profile ∈ profileTypes, profile ≠ [] ∧ ∀ c ∈ profile, isSpace c = false := by
    have hall : ∀ profile ∈ profileTypes, profile ≠ [] ∧ profile.any isSpace = false := by decide
    exact fun profile hmem => ⟨(hall profile hmem).1, by simpa using (hall profile hmem).2⟩
  refine of_lookup (P := fun config => config.profile ≠ [] ∧ ∀ c ∈ config.profile,
    isSpace c = false) (fun _ _ hconfig => hconfig) (fun service => ?_) h
  simp only [buildServiceConfig]
  split
  next hcustom =>
    refine ⟨hcustom, fun c hc => ?_⟩
    obtain ⟨d, hd, rfl⟩ := List.mem_map.mp hc
    rw [isSpace_toLower]
    cases henv : settings.env service "LETS_ENCRYPT_CUSTOM_PROFILE" with
    | none => simp [henv] at hd
    | some profile => exact hprofiles service profile henv d (by simpa [henv] using hd)
  next =>
    split
    next hmem => exact hwords _ hmem
    next => exact hwords _ (by decide)

end BunkerWeb.LetsEncrypt.CertbotNew
