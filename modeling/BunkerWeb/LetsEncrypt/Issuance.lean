import BunkerWeb.LetsEncrypt.ServiceConfig
import Mathlib.Data.Finset.Filter
import Mathlib.Data.List.Infix

/-!
# A run of the job that asks for certificates (`certbot-new.py`)

The job lists the certificates that certbot has, compares each with the configuration of its
service through what it reads back from the renewal file, and asks for the certificates that are
missing or not as configured.

- **The disk** (`Disk`): what certbot keeps of every certificate, the files with credentials and the
  hashes of ZeroSSL's API keys.
- **The comparison** (`existingOf`, `check`).
- **A run** (`Run`, `Run.disk`): what certbot answers is a parameter; `issue` is what its
  documentation says of a renewal file.

Files are on the disk as the run before left them: the copy in the database is not modelled.
-/

namespace BunkerWeb.LetsEncrypt.CertbotNew

open Lib

/-! ## The disk -/

/-- A certificate: its names and the lines `key = value` of its renewal file. -/
structure Lineage where
  names : List Name
  renewal : List (Text × Text)

structure Disk where
  lineages : Dict Name Lineage
  /-- The files with credentials, by their paths. -/
  files : Dict Text Bytes
  zerosslApiKeyHashes : Dict Name (Option Digest)

/-! ## Reading back -/

/-- `(\S+)$` on the value of a line. -/
def capture (value : Text) : Option Text :=
  if value ≠ [] ∧ value.any isSpace = false then some value else none

/-- The first line of the renewal file that `^key\s*=\s*(\S+)$` matches. -/
def readLine (renewal : List (Text × Text)) (key : Text) : Option Text :=
  (renewal.filter fun line => line.1 = key).findSome? fun line => capture line.2

/-- `str.replace(sub, "")`; the number counts the characters still to be left out. -/
def removeAll (sub : Text) : Nat → Text → Text
  | _, [] => []
  | skip + 1, _ :: text => removeAll sub skip text
  | 0, c :: text =>
    if sub.isPrefixOf (c :: text) then removeAll sub (sub.length - 1) text
    else c :: removeAll sub 0 text

/-- `normalize_server_url`. -/
def normalizeServerUrl (url : Text) : Text := (stripChars url).rdropWhile (· = '/')

def authenticatorKey : Text := "authenticator".toList

def serverKey : Text := "server".toList

def prefChallsKey : Text := "pref_challs".toList

def preferredProfileKey : Text := "preferred_profile".toList

/-- `dns_<authenticator>_credentials`. -/
def credentialsKey (authenticator : Text) : Text :=
  "dns_".toList ++ authenticator ++ "_credentials".toList

/-- What is known of an existing certificate. -/
structure Existing where
  serverNames : Finset Name
  challenge : Text
  authenticator : Text
  credentialsHash : Option Digest
  staging : Bool
  profile : Text
  acmeServerUrl : Text

/-- The text of certbot's line with the names, and `parse_certbot_domains`. -/
def parseCertbotDomains (names : List Name) : Text :=
  [','].intercalate (fields isSpace ([' '].intercalate names))

section

variable (sha256 : Bytes → Digest)

def existingOf (files : Dict Text Bytes) (l : Lineage) : Existing :=
  let authenticator :=
    ((readLine l.renewal authenticatorKey).map (removeAll "dns-".toList 0)).getD []
  let server := (readLine l.renewal serverKey).getD []
  { serverNames := normalizeServerNames (parseCertbotDomains l.names)
    challenge := ((readLine l.renewal prefChallsKey).map fun value =>
      removeAll "-01".toList 0 (value.takeWhile (· ≠ ','))).getD []
    authenticator
    credentialsHash := (readLine l.renewal (credentialsKey authenticator)).bind fun path =>
      (files.lookup path).map sha256
    staging := decide ("acme-staging".toList <:+: server)
    profile := (readLine l.renewal preferredProfileKey).getD []
    acmeServerUrl := normalizeServerUrl server }

/-! ## The public suffix list -/

structure Psl where
  rules : List Text
  exceptions : List Text

/-- `is_domain_blacklisted`; `i` is the number of labels in front of the candidate. -/
def isDomainBlacklisted (psl : Psl) (domain : Name) : Bool :=
  let labels := (stripDots (lower domain)).splitOn '.'
  let rec go (i : Nat) : Labels → Bool
    | [] => false
    | label :: rest =>
      let candidate := join (label :: rest)
      if candidate ∈ psl.exceptions then false
      else if candidate ∈ psl.rules ∧ (i = 0 ∨ (i = 1 ∧ labels.head? = some ['*'])) then true
      else if '*' :: '.' :: candidate ∈ psl.rules ∧ (label :: rest).length = 2 then true
      else go (i + 1) rest
  go 0 labels

/-- `check_psl_blacklist` on the names of a certificate. -/
def checkPslBlacklist (psl : Psl) (names : Finset Name) : Bool :=
  decide (∃ name ∈ names, isDomainBlacklisted psl name)

/-! ## The comparison -/

/-- `filter_wildcard_names`. -/
def filterWildcardNames (names : Finset Name) : Finset Name := names.filter (!isWildcard ·)

/-- The first difference that forces a renewal, up to the check of ZeroSSL's key. -/
def differs (hashes : Dict Name (Option Digest)) (name : Name) (config : Config) (existing : Existing) :
    Bool :=
  let keep := if config.wildcard ∧ config.challenge = dns then id else filterWildcardNames
  if keep (normalizeServerNames config.serverNames) ≠ keep existing.serverNames then true
  else if config.challenge ≠ existing.challenge then true
  else if config.authenticator ≠ existing.authenticator then true
  else if config.staging ≠ existing.staging then true
  else if config.profile ≠ existing.profile then true
  else if normalizeServerUrl config.acmeServerUrl ≠ normalizeServerUrl existing.acmeServerUrl then
    true
  else if config.acmeServer = zerossl then
    (hashes.lookup name).any fun previous => config.zerosslApiKeyHash ≠ previous
  else false

/-- The test on the credentials. -/
def credentialsDiffer (config : Config) (existing : Existing) : Bool :=
  config.challenge = dns && config.provider.map sha256 ≠ existing.credentialsHash

/-- A configuration after the comparison. `active` is the mark of the existing certificate. -/
structure Checked where
  active : Bool
  activated : Bool
  forceRenew : Bool
  deriving DecidableEq

/-- One turn of the loop over the services; without a list of certificates all are forced. -/
def check (listed : Bool) (psl : Psl) (disk : Disk) (name : Name) (config : Config) : Checked :=
  if !listed then ⟨false, config.activated, true⟩
  else if !config.activated then ⟨false, false, false⟩
  else
    match disk.lineages.lookup name with
    | none => ⟨false, true, false⟩
    | some l =>
      if !config.disablePslCheck &&
          checkPslBlacklist psl (normalizeServerNames config.serverNames) then ⟨true, false, false⟩
      else
        let existing := existingOf sha256 disk.files l
        ⟨true, true, differs disk.zerosslApiKeyHashes name config existing ||
          credentialsDiffer sha256 config existing⟩

/-- The certificate is asked for. -/
def Checked.pending (c : Checked) : Bool := !(c.active && !c.forceRenew) && c.activated

/-! ## Asking for a certificate -/

/-- The digits of a hexadecimal number. -/
def hexDigit (d : Fin 16) : Char := "0123456789abcdef".toList.getD d.val '0'

def credentialsPrefix : Text := "/var/cache/bunkerweb/letsencrypt/credentials_".toList

/-- The path of `credentials_<digits>.<type>`. -/
def credentialsPath (authenticator : Text) (credentials : Bytes) : Text :=
  credentialsPrefix ++
    ((sha256 credentials).take 12).map hexDigit ++ '.' :: fileType authenticator

/-- The renewal file that certbot writes for the options of `certbot_new`. -/
def renewalOf (config : Config) : List (Text × Text) :=
  let plugin := config.authenticator
  [(authenticatorKey, if config.challenge = dns then "dns-".toList ++ plugin else manual),
    (serverKey, config.acmeServerUrl),
    (prefChallsKey, config.challenge ++ "-01,".toList),
    (preferredProfileKey, config.profile)] ++
  if config.challenge = dns ∧ plugin ≠ route53 then
    (config.provider.map fun credentials =>
      (credentialsKey plugin, credentialsPath sha256 plugin credentials)).toList
  else []

/-- The file with the credentials, unless it is there already. -/
def cacheCredentials (files : Dict Text Bytes) (config : Config) (forceRenew : Bool) :
    Dict Text Bytes :=
  match config.provider with
  | some credentials =>
    let path := credentialsPath sha256 config.authenticator credentials
    if config.challenge = dns ∧ ((files.lookup path).isNone ∨ forceRenew) then
      files.insert path credentials
    else files
  | none => files

/-- What certbot does for a certificate: it is issued, or the call fails, before or after the file
with the credentials is there, with the old certificate still there or deleted. -/
inductive Outcome
  | issued
  | failed (cached deleted : Bool)
  deriving DecidableEq

def request (outcome : Outcome) (disk : Disk) (name : Name) (config : Config) (forceRenew : Bool) :
    Disk :=
  match outcome with
  | .issued =>
    { disk with
      lineages := disk.lineages.insert name
        ⟨fields (· = ',') config.serverNames, renewalOf sha256 config⟩
      files := cacheCredentials sha256 disk.files config forceRenew }
  | .failed cached deleted =>
    { disk with
      lineages := if forceRenew && deleted then disk.lineages.erase name else disk.lineages
      files := if cached then cacheCredentials sha256 disk.files config forceRenew else disk.files }

/-! ## A run -/

/-- What a run depends on besides the disk and the settings. -/
structure Run where
  enum : Finset Name → List Name
  psl : Psl
  /-- `certbot certificates` succeeded. -/
  listed : Bool
  /-- The services in the order in which their certificates are asked for. -/
  order : List Name
  outcome : Name → Outcome
  clearOldCerts : Bool
  /-- `certbot delete` succeeded for an old certificate. -/
  deleted : Name → Bool

namespace Run

variable (run : Run) (settings : Settings) (serverNames : List Name) (disk : Disk)

def services : Dict Name Config := buildServices sha256 settings run.enum serverNames

def checked (name : Name) (config : Config) : Checked :=
  check sha256 run.listed run.psl disk name config

/-- The configuration ends as `exists`. -/
def doesExist (name : Name) (config : Config) : Bool :=
  let c := run.checked sha256 disk name config
  (c.active && !c.forceRenew) || (c.pending && run.outcome name = .issued)

/-- One turn of the loop over `pending_services`, from the disk as it was compared. -/
def turn (d : Disk) (name : Name) : Disk :=
  match (run.services sha256 settings serverNames).lookup name with
  | some config =>
    let c := run.checked sha256 disk name config
    if c.pending then request sha256 (run.outcome name) d name config c.forceRenew else d
  | none => d

def requests : Disk := run.order.foldl (run.turn sha256 settings serverNames disk) disk

/-- The files that are kept. -/
def usedFiles : List Text :=
  (run.services sha256 settings serverNames).items.filterMap fun entry =>
    if run.doesExist sha256 disk entry.1 entry.2 && entry.2.challenge = dns then
      entry.2.provider.map (credentialsPath sha256 entry.2.authenticator)
    else none

/-- A certificate that no activated service has. -/
def isOld (name : Name) : Bool :=
  run.listed && (disk.lineages.lookup name).isSome &&
    !((run.services sha256 settings serverNames).lookup name).any fun config =>
      (run.checked sha256 disk name config).active

/-- The hash that is kept for a service. -/
def keptHash (name : Name) : Option (Option Digest) :=
  ((run.services sha256 settings serverNames).lookup name).bind fun config =>
    if config.acmeServer ≠ zerossl then none
    else if run.doesExist sha256 disk name config then some config.zerosslApiKeyHash
    else if (run.checked sha256 disk name config).active then disk.zerosslApiKeyHashes.lookup name
    else none

/-- The disk after the run. -/
def result : Disk :=
  let services := run.services sha256 settings serverNames
  let d := run.requests sha256 settings serverNames disk
  let used := run.usedFiles sha256 settings serverNames disk
  let old := (disk.lineages.keys.filter fun name =>
    run.clearOldCerts && run.isOld sha256 settings serverNames disk name && run.deleted name)
  { lineages := old.foldl (fun lineages name => lineages.erase name) d.lineages
    files := (d.files.keys.filter (· ∉ used)).foldl (fun files path => files.erase path) d.files
    zerosslApiKeyHashes := services.keys.foldl (fun hashes name =>
      match run.keptHash sha256 settings serverNames disk name with
      | some hash => hashes.insert name hash
      | none => hashes) ∅ }

/-! ## A second run -/

/-- The sets are listed, and every service has its place in the order. -/
structure Valid : Prop where
  enum_nodup : ∀ names, (run.enum names).Nodup
  mem_enum : ∀ names name, name ∈ run.enum names ↔ name ∈ names
  order_nodup : run.order.Nodup
  mem_order : ∀ name, name ∈ run.order ↔
    ((run.services sha256 settings serverNames).lookup name).isSome

/-- All certificates that are asked for are issued. -/
def Succeeds : Prop :=
  ∀ name config, (run.services sha256 settings serverNames).lookup name = some config →
    (run.checked sha256 disk name config).pending → run.outcome name = .issued

/-- No certificate is asked for, and none is forced. -/
def Quiet : Prop :=
  ∀ name config, (run.services sha256 settings serverNames).lookup name = some config →
    (run.checked sha256 disk name config).pending = false ∧
      (run.checked sha256 disk name config).forceRenew = false

end Run

/-- The disks after any runs, with credentials of route53 written by the job that renews. -/
inductive Reachable : Disk → Prop
  | empty : Reachable ⟨∅, ∅, ∅⟩
  | run {disk : Disk} {run : Run} {settings : Settings} {serverNames : List Name}
      (h : Reachable disk) (hvalid : run.Valid sha256 settings serverNames) :
      Reachable (run.result sha256 settings serverNames disk)
  | credentials {disk : Disk} (h : Reachable disk) (credentials : Bytes) :
      Reachable { disk with
        files := disk.files.insert (credentialsPath sha256 route53 credentials) credentials }

/-- A run right after one that succeeds asks for nothing. -/
def Idempotent (settings : Settings) (serverNames : List Name) : Prop :=
  ∀ disk, Reachable sha256 disk → ∀ run run' : Run,
    run.Valid sha256 settings serverNames → run'.Valid sha256 settings serverNames →
      run.Succeeds sha256 settings serverNames disk → run'.listed → run'.psl = run.psl →
        run'.Quiet sha256 settings serverNames (run.result sha256 settings serverNames disk)

end

end BunkerWeb.LetsEncrypt.CertbotNew
