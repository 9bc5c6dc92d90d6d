import BunkerWeb.LetsEncrypt.Wildcards
import Mathlib.Data.List.Sort

/-!
# The certificates of the hosts (`letsencrypt.lua`)

`init` reads the certificates of all services into one store, and fills a table from names to bases
and a list of bases; `ssl_certificate` looks the name of the handshake up in the table, else in the
list, and returns what the store has under the result.

- **The services** (`Service`), with the settings that `init` reads.
- **The fill** (`initService`, `init`): one service after the other, in the order of `pairs`.
- **The lookup** (`sslCertificate`).

The store is the worker's cache without its `plugin_letsencrypt_` prefix, with a slot for every
entry. `credential_items` has an entry for every service, so its test is left out.
-/

namespace BunkerWeb.LetsEncrypt.Plugin

open Lib

/-! ## Services -/

inductive Challenge
  | http | dns
  deriving DecidableEq

structure Service where
  autoLetsEncrypt : Bool
  challenge : Challenge
  dnsProvider : Name
  useWildcard : Bool
  serverName : Name
  nonempty : serverList serverName ≠ []

namespace Service

/-- `server_list`. -/
def serverNames (s : Service) : List Name := serverList s.serverName

/-- `cert_identifier`. -/
def certIdentifier (s : Service) : Name := s.serverNames.head s.nonempty

/-- The services that `init` reads certificates of. -/
def enabled (s : Service) : Bool :=
  s.autoLetsEncrypt && (s.challenge = .http || (s.challenge = .dns && s.dnsProvider ≠ []))

def wildcard (s : Service) : Bool := s.challenge = .dns && s.useWildcard

end Service

/-! ## Bases -/

/-- The function that bases are sorted with. -/
def longerFirst (a b : Name) : Bool :=
  if a.length = b.length then textLt a b else b.length < a.length

def sortBases (bases : List Name) : List Name :=
  bases.insertionSort fun a b => longerFirst b a = false

/-- The host is the base or below it. -/
def isUnder (host base : Name) : Bool :=
  host = base || (('.' :: base).length < host.length && ('.' :: base).isSuffixOf host)

def resolveWildcardBase (host : Name) (bases : List Name) : Option Name :=
  if host = [] then none else bases.find? (isUnder host)

/-- The sorted bases of the service's groups. -/
def Service.bases (s : Service) : List Name :=
  sortBases (buildWildcardGroups s.serverNames).keys

/-! ## The fill -/

/-- The certificate in a pair of files: that of a group of a wildcard service, or that of a service
with the identifier. -/
inductive Issued
  | group (base : Name)
  | own (identifier : Name)
  deriving DecidableEq

inductive Value
  | certificate (c : Issued)
  | bases (bases : List Name)
  | servers (servers : Dict Name (Option Name))

/-- What `init` fills. In `servers` a name has a base or `false`. -/
structure Tables where
  store : Dict Name Value
  servers : Dict Name (Option Name)
  bases : List Name

/-- Reads the certificate of an identifier, unless the store has it, and stores it for the names. -/
def load (live : Name → Option Issued) (identifier : Name) (names : List Name)
    (store : Dict Name Value) : Dict Name Value :=
  match store.lookup identifier, live identifier with
  | none, some c => names.foldl (fun store name => store.insert name (.certificate c)) store
  | _, _ => store

/-- One turn of the loop over the services. -/
def initService (live : Name → Option Issued) (t : Tables) (s : Service) : Tables :=
  if !s.enabled then t
  else if s.wildcard then
    let servers := s.bases.foldl (fun servers base => servers.insert base (some base)) t.servers
    { store := s.bases.foldl (fun store base => load live base [base] store) t.store
      servers := s.serverNames.foldl
        (fun servers part => servers.insert part (resolveWildcardBase part s.bases)) servers
      bases := t.bases ∪ s.bases }
  else
    { t with
      store := load live s.certIdentifier s.serverNames t.store
      servers := s.serverNames.foldl (fun servers part => servers.insert part none) t.servers }

def basesKey : Name := "wildcard_bases".toList

def serversKey : Name := "wildcard_servers".toList

/-- `init` with several sites. -/
def init (live : Name → Option Issued) (services : List Service) : Dict Name Value :=
  let t :=
    if services.any Service.autoLetsEncrypt then services.foldl (initService live) ⟨∅, ∅, []⟩
    else ⟨∅, ∅, []⟩
  (t.store.insert basesKey (.bases (sortBases t.bases))).insert serversKey (.servers t.servers)

/-! ## The lookup -/

/-- `ssl_certificate`, for the name of the handshake. -/
def sslCertificate (store : Dict Name Value) (serverName : Name) : Option Value :=
  match store.lookup serversKey, store.lookup basesKey with
  | some (.servers servers), some (.bases bases) =>
    match servers.lookup serverName with
    | some (some (c :: base)) => store.lookup (c :: base)
    | _ => store.lookup ((bases.find? (isUnder serverName)).getD serverName)
  | _, _ => none

/-! ## Every host and its own service -/

/-- The certificate issued for the service and the name. -/
def issuedFor (s : Service) (name : Name) : Option Issued :=
  if s.wildcard then (resolveWildcardBase name s.bases).map .group
  else some (.own s.certIdentifier)

/-- Every name is served with the certificate of its service, whatever the order of `pairs`. -/
def Served (live : Name → Option Issued) (services : List Service) : Prop :=
  ∀ order : List Service, order.Perm services →
    ∀ s ∈ services, s.enabled → ∀ name ∈ s.serverNames,
      sslCertificate (init live order) name = (issuedFor s name).map .certificate

/-- No name is listed by two services. -/
def ListedOnce (services : List Service) : Prop :=
  services.Pairwise fun s s' => ∀ name ∈ s.serverNames, name ∉ s'.serverNames

/-- All files of certificates are there. -/
def AllPresent (live : Name → Option Issued) (services : List Service) : Prop :=
  ∀ s ∈ services, s.enabled →
    (s.wildcard → ∀ base ∈ s.bases, live base = some (.group base)) ∧
      (¬ s.wildcard → live s.certIdentifier = some (.own s.certIdentifier))

instance (services : List Service) : Decidable (ListedOnce services) :=
  inferInstanceAs (Decidable (List.Pairwise _ _))

instance (live : Name → Option Issued) (services : List Service) :
    Decidable (AllPresent live services) :=
  inferInstanceAs (Decidable (∀ _ ∈ _, _))

/-- A service with wildcards. -/
def wildcardSite : Service where
  autoLetsEncrypt := true
  challenge := .dns
  dnsProvider := "cloudflare".toList
  useWildcard := true
  serverName := "www.example.com".toList
  nonempty := by decide

/-- A service of its own below the same domain. -/
def plainSite : Service where
  autoLetsEncrypt := true
  challenge := .http
  dnsProvider := []
  useWildcard := false
  serverName := "app.example.com".toList
  nonempty := by decide

/-- The files for both. -/
def bothLive (identifier : Name) : Option Issued :=
  if identifier = "example.com".toList then some (.group identifier) else some (.own identifier)

theorem plain_site_below_a_wildcard :
    ListedOnce [wildcardSite, plainSite] ∧ AllPresent bothLive [wildcardSite, plainSite] ∧
      ¬ Served bothLive [wildcardSite, plainSite] := by
  refine ⟨by decide, by decide, fun h => ?_⟩
  have hserved := h _ (List.Perm.refl _) plainSite (by simp) (by decide) "app.example.com".toList
    (by decide)
  have hwrong : (sslCertificate (init bothLive [wildcardSite, plainSite])
      "app.example.com".toList).map (fun v => match v with
        | .certificate c => some c
        | _ => none) = some (some (.group "example.com".toList)) := by decide
  rw [hserved] at hwrong
  exact absurd hwrong (by decide)

end BunkerWeb.LetsEncrypt.Plugin
