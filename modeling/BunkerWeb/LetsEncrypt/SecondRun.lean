import BunkerWeb.LetsEncrypt.ReadBack
import BunkerWeb.Lib.Overwrite
import Mathlib.Data.Finset.Sort

/-!
# When a second run has nothing to do

- **Every disk** (`Consistent`): a file with credentials has the name of its content, and a renewal
  file is one that was written for an activated service.
- **A run that succeeds**: every activated service has its certificate (`lineages_result`), and
  the file with its credentials is there and kept (`files_result`).
- **The next run** (`check_result`, `quiet_iff`): all that is forced is route53.
-/

namespace BunkerWeb.LetsEncrypt.CertbotNew

open Lib

variable {sha256 : Bytes → Digest}

/-! ## Files with credentials -/

theorem lookup_cacheCredentials {files : Dict Text Bytes} {config : Config} {forceRenew : Bool}
    {path : Text} {content : Bytes}
    (h : (cacheCredentials sha256 files config forceRenew).lookup path = some content) :
    files.lookup path = some content ∨ config.provider = some content ∧
      path = credentialsPath sha256 config.authenticator content := by
  unfold cacheCredentials at h
  split at h
  next credentials hprovider =>
    dsimp only at h
    split at h
    · by_cases hpath : path = credentialsPath sha256 config.authenticator credentials
      · rw [hpath, AList.lookup_insert] at h
        cases h
        exact .inr ⟨hprovider, hpath⟩
      · rw [AList.lookup_insert_ne hpath] at h
        exact .inl h
    · exact .inl h
  next => exact .inl h

/-- A file that is there stays, and the credentials of a service are there after it. -/
theorem isSome_lookup_cacheCredentials {files : Dict Text Bytes} {config : Config}
    {forceRenew : Bool} {path : Text}
    (h : (files.lookup path).isSome ∨ ∃ credentials, config.challenge = dns ∧
      config.provider = some credentials ∧
        path = credentialsPath sha256 config.authenticator credentials) :
    ((cacheCredentials sha256 files config forceRenew).lookup path).isSome := by
  unfold cacheCredentials
  split
  next credentials hprovider =>
    dsimp only
    split
    next =>
      by_cases hpath : path = credentialsPath sha256 config.authenticator credentials
      · rw [hpath, AList.lookup_insert]
        rfl
      · rw [AList.lookup_insert_ne hpath]
        rcases h with h | ⟨credentials', -, hprovider', hpath'⟩
        · exact h
        · rw [hprovider] at hprovider'
          cases hprovider'
          exact absurd hpath' hpath
    next hskip =>
      rcases h with h | ⟨credentials', hdns, hprovider', rfl⟩
      · exact h
      · rw [hprovider] at hprovider'
        cases hprovider'
        rw [not_and_or, not_or] at hskip
        exact Option.isSome_iff_ne_none.mpr
          (mt Option.isNone_iff_eq_none.mpr (hskip.resolve_left fun hnot => hnot hdns).1)
  next hnone =>
    rcases h with h | ⟨credentials', -, hprovider', -⟩
    · exact h
    · exact absurd (hnone.symm.trans hprovider') (by simp)

/-! ## Every disk -/

structure Consistent (sha256 : Bytes → Digest) (disk : Disk) : Prop where
  files : ∀ path content, disk.files.lookup path = some content →
    ∃ authenticator, path = credentialsPath sha256 authenticator content
  lineages : ∀ name l, disk.lineages.lookup name = some l →
    ∃ config, IsConfig config ∧ config.activated ∧ l.renewal = renewalOf sha256 config

theorem Consistent.request {disk : Disk} (h : Consistent sha256 disk) {config : Config}
    (hconfig : IsConfig config) (hactivated : config.activated) (outcome : Outcome) (name : Name)
    (forceRenew : Bool) :
    Consistent sha256 (request sha256 outcome disk name config forceRenew) := by
  have hfiles : ∀ path content,
      (cacheCredentials sha256 disk.files config forceRenew).lookup path = some content →
        ∃ authenticator, path = credentialsPath sha256 authenticator content := by
    intro path content hlookup
    rcases lookup_cacheCredentials hlookup with hlookup | ⟨-, hpath⟩
    · exact h.files path content hlookup
    · exact ⟨_, hpath⟩
  cases outcome with
  | issued =>
    refine ⟨hfiles, fun name' l hl => ?_⟩
    by_cases hname : name' = name
    · subst hname
      simp only [CertbotNew.request, AList.lookup_insert] at hl
      cases hl
      exact ⟨config, hconfig, hactivated, rfl⟩
    · simp only [CertbotNew.request, AList.lookup_insert_ne hname] at hl
      exact h.lineages name' l hl
  | failed cached deleted =>
    constructor
    · intro path content hlookup
      simp only [CertbotNew.request] at hlookup
      split at hlookup
      · exact hfiles path content hlookup
      · exact h.files path content hlookup
    · intro name' l hl
      simp only [CertbotNew.request] at hl
      split at hl
      · by_cases hname : name' = name
        · subst hname
          rw [AList.lookup_erase] at hl
          cases hl
        · rw [AList.lookup_erase_ne hname] at hl
          exact h.lineages name' l hl
      · exact h.lineages name' l hl

/-- Only activated services are asked for. -/
theorem activated_of_pending {listed : Bool} {psl : Psl} {disk : Disk} {name : Name}
    {config : Config} (h : (check sha256 listed psl disk name config).pending) :
    config.activated := by
  unfold check at h
  cases hactivated : config.activated with
  | true => rfl
  | false =>
    rw [hactivated] at h
    cases listed <;> simp [Checked.pending] at h

section

variable (run : Run) (settings : Settings) (serverNames : List Name)

theorem Consistent.turn {disk d : Disk} (h : Consistent sha256 d) (name : Name) :
    Consistent sha256 (run.turn sha256 settings serverNames disk d name) := by
  unfold Run.turn
  split
  next config hconfig =>
    dsimp only
    split
    next hpending =>
      exact h.request (isConfig_of_lookup hconfig) (activated_of_pending hpending) _ _ _
    next => exact h
  next => exact h

theorem Consistent.requests {disk : Disk} (h : Consistent sha256 disk) :
    Consistent sha256 (run.requests sha256 settings serverNames disk) := by
  have hfold : ∀ (order : List Name) (d : Disk), Consistent sha256 d →
      Consistent sha256 (order.foldl (run.turn sha256 settings serverNames disk) d) := by
    intro order
    induction order with
    | nil => exact fun _ hd => hd
    | cons name order ih => exact fun d hd => ih _ (hd.turn run settings serverNames name)
  exact hfold run.order disk h

theorem Consistent.result {disk : Disk} (h : Consistent sha256 disk) :
    Consistent sha256 (run.result sha256 settings serverNames disk) := by
  have hrequests := h.requests run settings serverNames
  constructor
  · intro path content hlookup
    simp only [Run.result, Dict.lookup_foldl_erase] at hlookup
    split at hlookup
    · cases hlookup
    · exact hrequests.files path content hlookup
  · intro name l hl
    simp only [Run.result, Dict.lookup_foldl_erase] at hl
    split at hl
    · cases hl
    · exact hrequests.lineages name l hl

end

theorem Reachable.consistent {disk : Disk} (h : Reachable sha256 disk) :
    Consistent sha256 disk := by
  induction h with
  | empty =>
    constructor
    · intro path content h
      rw [AList.lookup_empty] at h
      cases h
    · intro name l h
      rw [AList.lookup_empty] at h
      cases h
  | run h hvalid ih => exact ih.result _ _ _
  | credentials h credentials ih =>
    refine ⟨fun path content hlookup => ?_, ih.lineages⟩
    by_cases hpath : path = credentialsPath sha256 route53 credentials
    · rw [hpath, AList.lookup_insert] at hlookup
      cases hlookup
      exact ⟨route53, hpath⟩
    · rw [AList.lookup_insert_ne hpath] at hlookup
      exact ih.files path content hlookup

/-! ## The comparison -/

/-- The public suffix list refuses a name of the certificate. -/
def refused (psl : Psl) (config : Config) : Bool :=
  !config.disablePslCheck && checkPslBlacklist psl (normalizeServerNames config.serverNames)

/-- An existing certificate of an activated service. -/
theorem check_of_lineage {psl : Psl} {disk : Disk} {name : Name} {config : Config} {l : Lineage}
    (hactivated : config.activated) (hl : disk.lineages.lookup name = some l) :
    check sha256 true psl disk name config =
      if refused psl config then ⟨true, false, false⟩
      else ⟨true, true,
        differs disk.zerosslApiKeyHashes name config (existingOf sha256 disk.files l) ||
          credentialsDiffer sha256 config (existingOf sha256 disk.files l)⟩ := by
  simp only [check, Bool.not_true, Bool.false_eq_true, if_false, hactivated, hl]
  rfl

/-- It is there, and asked for again only if it is forced. -/
theorem active_of_lineage {psl : Psl} {disk : Disk} {name : Name} {config : Config} {l : Lineage}
    (hactivated : config.activated) (hl : disk.lineages.lookup name = some l) :
    (check sha256 true psl disk name config).active = true ∧
      (check sha256 true psl disk name config).pending =
        (check sha256 true psl disk name config).forceRenew := by
  rw [check_of_lineage hactivated hl]
  split
  · exact ⟨rfl, rfl⟩
  · simp [Checked.pending]

/-- A certificate that is not asked for is there. -/
theorem exists_lineage_of_not_pending {listed : Bool} {psl : Psl} {disk : Disk} {name : Name}
    {config : Config} (hactivated : config.activated)
    (h : (check sha256 listed psl disk name config).pending = false) :
    listed = true ∧ ∃ l, disk.lineages.lookup name = some l := by
  cases listed with
  | false => simp [check, Checked.pending, hactivated] at h
  | true =>
    cases hl : disk.lineages.lookup name with
    | some l => exact ⟨rfl, l, rfl⟩
    | none => simp [check, Checked.pending, hactivated, hl] at h

/-! ## A run that succeeds -/

/-- The certificate that is issued for a configuration. -/
def issuedLineage (sha256 : Bytes → Digest) (config : Config) : Lineage :=
  ⟨fields (· = ',') config.serverNames, renewalOf sha256 config⟩

section

variable {run : Run} {settings : Settings} {serverNames : List Name} {disk : Disk}

/-- What a turn does to the certificates. -/
theorem lineages_turn (hsucceeds : run.Succeeds sha256 settings serverNames disk) (d : Disk)
    (name name' : Name) :
    (run.turn sha256 settings serverNames disk d name').lineages.lookup name =
      ((if name' = name then
        ((run.services sha256 settings serverNames).lookup name').bind fun config =>
          if (run.checked sha256 disk name' config).pending then
            some (issuedLineage sha256 config) else none
        else none).or (d.lineages.lookup name)) := by
  unfold Run.turn
  cases hconfig : (run.services sha256 settings serverNames).lookup name' with
  | none => simp
  | some config =>
    simp only [Option.bind_some]
    by_cases hpending : (run.checked sha256 disk name' config).pending
    · rw [if_pos hpending, if_pos hpending, hsucceeds name' config hconfig hpending]
      by_cases hname : name' = name
      · subst hname
        simp [request, issuedLineage]
      · simp [request, hname, AList.lookup_insert_ne (Ne.symm hname)]
    · simp [hpending]

theorem lineages_requests (hvalid : run.Valid sha256 settings serverNames)
    (hsucceeds : run.Succeeds sha256 settings serverNames disk) {name : Name} {config : Config}
    (hconfig : (run.services sha256 settings serverNames).lookup name = some config) :
    (run.requests sha256 settings serverNames disk).lineages.lookup name =
      if (run.checked sha256 disk name config).pending then some (issuedLineage sha256 config)
      else disk.lineages.lookup name := by
  have hmem : name ∈ run.order := (hvalid.mem_order name).mpr (by rw [hconfig]; rfl)
  have hself (d : Disk) : (run.turn sha256 settings serverNames disk d name).lineages.lookup name =
      (if (run.checked sha256 disk name config).pending then
        some (issuedLineage sha256 config) else none).or (d.lineages.lookup name) := by
    rw [lineages_turn hsucceeds, if_pos rfl, hconfig, Option.bind_some]
  have hother (d : Disk) (name' : Name) (hne : name' ≠ name) :
      (run.turn sha256 settings serverNames disk d name').lineages.lookup name =
        d.lineages.lookup name := by
    rw [lineages_turn hsucceeds, if_neg hne, Option.none_or]
  rw [Run.requests, read_foldl_own (fun d : Disk => d.lineages.lookup name) hother hself hmem]
  split
  · rfl
  · exact Option.none_or

/-- The certificate of an activated service after the run. -/
theorem lineages_result (hvalid : run.Valid sha256 settings serverNames)
    (hsucceeds : run.Succeeds sha256 settings serverNames disk) {name : Name} {config : Config}
    (hconfig : (run.services sha256 settings serverNames).lookup name = some config)
    (hactivated : config.activated) :
    (run.result sha256 settings serverNames disk).lineages.lookup name =
      if (run.checked sha256 disk name config).pending then some (issuedLineage sha256 config)
      else disk.lineages.lookup name := by
  rw [← lineages_requests hvalid hsucceeds hconfig]
  simp only [Run.result, Dict.lookup_foldl_erase]
  refine if_neg fun hold => ?_
  -- An activated service that certbot has listed is active.
  have hisOld := (List.mem_filter.mp hold).2
  simp only [Run.isOld, hconfig, Option.any_some, Run.checked, Bool.and_eq_true,
    Bool.not_eq_true'] at hisOld
  obtain ⟨⟨-, ⟨hlisted, hlineage⟩, hactive⟩, -⟩ := hisOld
  obtain ⟨l, hl⟩ := Option.isSome_iff_exists.mp hlineage
  rw [hlisted, (active_of_lineage hactivated hl).1] at hactive
  cases hactive

/-- An activated service has its certificate after the run. -/
theorem doesExist_of_activated (hsucceeds : run.Succeeds sha256 settings serverNames disk)
    {name : Name} {config : Config}
    (hconfig : (run.services sha256 settings serverNames).lookup name = some config)
    (hactivated : config.activated) : run.doesExist sha256 disk name config = true := by
  unfold Run.doesExist
  cases hpending : (run.checked sha256 disk name config).pending with
  | true => simp [hpending, hsucceeds name config hconfig hpending]
  | false =>
    obtain ⟨hlisted, l, hl⟩ := exists_lineage_of_not_pending hactivated hpending
    obtain ⟨hactive, hforced⟩ :=
      @active_of_lineage sha256 run.psl _ _ _ _ hactivated hl
    rw [Run.checked, hlisted] at hpending ⊢
    dsimp only
    rw [hactive, ← hforced, hpending]
    rfl

/-! ### Files -/

theorem isSome_lookup_turn {d : Disk} {path : Text} (name : Name)
    (h : (d.files.lookup path).isSome) :
    ((run.turn sha256 settings serverNames disk d name).files.lookup path).isSome := by
  unfold Run.turn
  split
  next config hconfig =>
    dsimp only
    split
    · unfold request
      split
      · exact isSome_lookup_cacheCredentials (.inl h)
      · dsimp only
        split
        · exact isSome_lookup_cacheCredentials (.inl h)
        · exact h
    · exact h
  next => exact h

theorem isSome_lookup_turns {path : Text} (order : List Name) {d : Disk}
    (h : (d.files.lookup path).isSome) :
    ((order.foldl (run.turn sha256 settings serverNames disk) d).files.lookup path).isSome := by
  induction order generalizing d with
  | nil => exact h
  | cons name order ih => exact ih (isSome_lookup_turn name h)

/-- The credentials of a certificate that was asked for are in their file. -/
theorem isSome_lookup_requests (hvalid : run.Valid sha256 settings serverNames)
    (hsucceeds : run.Succeeds sha256 settings serverNames disk) {name : Name} {config : Config}
    (hconfig : (run.services sha256 settings serverNames).lookup name = some config)
    (hpending : (run.checked sha256 disk name config).pending) {credentials : Bytes}
    (hdns : config.challenge = dns) (hprovider : config.provider = some credentials) :
    ((run.requests sha256 settings serverNames disk).files.lookup
      (credentialsPath sha256 config.authenticator credentials)).isSome := by
  have hmem : name ∈ run.order := (hvalid.mem_order name).mpr (by rw [hconfig]; rfl)
  obtain ⟨before, after, horder⟩ := List.append_of_mem hmem
  rw [Run.requests, horder, List.foldl_append, List.foldl_cons]
  refine isSome_lookup_turns after ?_
  simp only [Run.turn, hconfig, hpending, if_true, hsucceeds name config hconfig hpending, request]
  exact isSome_lookup_cacheCredentials (.inr ⟨credentials, hdns, hprovider, rfl⟩)

/-- The contents of files with credentials, and the credentials of the services. -/
def contents (sha256 : Bytes → Digest) (run : Run) (settings : Settings) (serverNames : List Name)
    (disk : Disk) : Set Bytes :=
  {content | (∃ path, disk.files.lookup path = some content) ∨
    ∃ name config, (run.services sha256 settings serverNames).lookup name = some config ∧
      config.provider = some content}

theorem mem_contents_turns (order : List Name) {d : Disk}
    (h : ∀ path content, d.files.lookup path = some content →
      content ∈ contents sha256 run settings serverNames disk) :
    ∀ path content,
      (order.foldl (run.turn sha256 settings serverNames disk) d).files.lookup path =
        some content → content ∈ contents sha256 run settings serverNames disk := by
  induction order generalizing d with
  | nil => exact h
  | cons name order ih =>
    refine ih fun path content hlookup => ?_
    unfold Run.turn at hlookup
    split at hlookup
    next config hconfig =>
      have hcache : (cacheCredentials sha256 d.files config
          (run.checked sha256 disk name config).forceRenew).lookup path = some content →
            content ∈ contents sha256 run settings serverNames disk := by
        intro hlookup
        rcases lookup_cacheCredentials hlookup with hlookup | ⟨hprovider, -⟩
        · exact h path content hlookup
        · exact .inr ⟨name, config, hconfig, hprovider⟩
      dsimp only at hlookup
      split at hlookup
      · unfold request at hlookup
        split at hlookup
        · exact hcache hlookup
        · dsimp only at hlookup
          split at hlookup
          · exact hcache hlookup
          · exact h path content hlookup
      · exact h path content hlookup
    next => exact h path content hlookup

/-- The first twelve digits tell the digests of some contents apart. -/
def TwelveDigits (sha256 : Bytes → Digest) (contents : Set Bytes) : Prop :=
  ∀ c ∈ contents, ∀ c' ∈ contents, (sha256 c).take 12 = (sha256 c').take 12 →
    sha256 c = sha256 c'

/-- What is in the file of an activated service after the run, if the file is there. -/
theorem files_result (hconsistent : Consistent sha256 disk)
    (hsucceeds : run.Succeeds sha256 settings serverNames disk)
    (htwelve : TwelveDigits sha256 (contents sha256 run settings serverNames disk))
    {name : Name} {config : Config}
    (hconfig : (run.services sha256 settings serverNames).lookup name = some config)
    (hactivated : config.activated) {credentials : Bytes} (hdns : config.challenge = dns)
    (hprovider : config.provider = some credentials)
    (hthere : ((run.requests sha256 settings serverNames disk).files.lookup
      (credentialsPath sha256 config.authenticator credentials)).isSome) :
    ((run.result sha256 settings serverNames disk).files.lookup
      (credentialsPath sha256 config.authenticator credentials)).map sha256 =
        some (sha256 credentials) := by
  obtain ⟨content, hcontent⟩ := Option.isSome_iff_exists.mp hthere
  obtain ⟨authenticator, hpath⟩ :=
    (hconsistent.requests run settings serverNames).files _ content hcontent
  have hmem : content ∈ contents sha256 run settings serverNames disk :=
    mem_contents_turns run.order (fun path content h => .inl ⟨path, h⟩) _ content hcontent
  have hused : credentialsPath sha256 config.authenticator credentials ∈
      run.usedFiles sha256 settings serverNames disk := by
    refine List.mem_filterMap.mpr ⟨(name, config), Dict.mem_items.mpr hconfig, ?_⟩
    simp [doesExist_of_activated hsucceeds hconfig hactivated, hdns, hprovider]
  simp only [Run.result, Dict.lookup_foldl_erase]
  rw [if_neg (by simp [hused]), hcontent, Option.map_some]
  exact congrArg some (htwelve content hmem credentials (.inr ⟨name, config, hconfig, hprovider⟩)
    (credentialsPath_eq_iff.mp hpath).1.symm)

/-- The hash of ZeroSSL's key after the run. -/
theorem hashes_result (hsucceeds : run.Succeeds sha256 settings serverNames disk)
    {name : Name} {config : Config}
    (hconfig : (run.services sha256 settings serverNames).lookup name = some config)
    (hactivated : config.activated) (hzerossl : config.acmeServer = zerossl) :
    (run.result sha256 settings serverNames disk).zerosslApiKeyHashes.lookup name =
      some config.zerosslApiKeyHash := by
  have hkept : run.keptHash sha256 settings serverNames disk name =
      some config.zerosslApiKeyHash := by
    simp [Run.keptHash, hconfig, hzerossl, doesExist_of_activated hsucceeds hconfig hactivated]
  have hmem : name ∈ (run.services sha256 settings serverNames).keys :=
    AList.lookup_isSome.mp (by rw [hconfig]; rfl)
  refine (read_foldl_own (fun hashes : Dict Name (Option Digest) => hashes.lookup name)
    (fun hashes name' hne => ?_) (fun hashes => ?_) hmem ∅).trans (Option.some_or)
  · cases run.keptHash sha256 settings serverNames disk name' with
    | none => rfl
    | some hash => exact AList.lookup_insert_ne (Ne.symm hne)
  · rw [hkept]
    exact AList.lookup_insert hashes

end

/-! ## The next run -/

/-- The names are compared with or without those of wildcards. -/
def kept (config : Config) : Finset Name → Finset Name :=
  if config.wildcard ∧ config.challenge = dns then id else filterWildcardNames

theorem differs_eq_false_iff {hashes : Dict Name (Option Digest)} {name : Name} {config : Config}
    {existing : Existing} : differs hashes name config existing = false ↔
      kept config (normalizeServerNames config.serverNames) =
          kept config existing.serverNames ∧
        config.challenge = existing.challenge ∧ config.authenticator = existing.authenticator ∧
        config.staging = existing.staging ∧ config.profile = existing.profile ∧
        normalizeServerUrl config.acmeServerUrl = normalizeServerUrl existing.acmeServerUrl ∧
        (config.acmeServer = zerossl →
          ∀ previous ∈ hashes.lookup name, config.zerosslApiKeyHash = previous) := by
  have hite : ∀ {p : Prop} [Decidable p] {b : Bool},
      (if ¬ p then true else b) = false ↔ p ∧ b = false := by
    intro p _ b
    by_cases hp : p <;> simp [hp]
  have hlast : (if config.acmeServer = zerossl then (hashes.lookup name).any fun previous =>
        config.zerosslApiKeyHash ≠ previous else false) = false ↔
      (config.acmeServer = zerossl →
        ∀ previous ∈ hashes.lookup name, config.zerosslApiKeyHash = previous) := by
    by_cases hp : config.acmeServer = zerossl
    · cases hashes.lookup name <;> simp [hp]
    · simp [hp]
  rw [← hlast]
  unfold differs
  simp only [ne_eq, hite]
  rfl

theorem credentialsDiffer_eq_false_iff {config : Config} {existing : Existing} :
    credentialsDiffer sha256 config existing = false ↔
      (config.challenge = dns → config.provider.map sha256 = existing.credentialsHash) := by
  simp [credentialsDiffer]

/-- What is read from a renewal file does not depend on the files, but for the credentials. -/
theorem existingOf_eq (files files' : Dict Text Bytes) (l : Lineage) :
    existingOf sha256 files' l = { existingOf sha256 files l with
      credentialsHash := (readLine l.renewal (credentialsKey
        (existingOf sha256 files l).authenticator)).bind fun path =>
          (files'.lookup path).map sha256 } := rfl

section

variable {run : Run} {settings : Settings} {serverNames : List Name} {disk : Disk}

/-- A certificate that the run before asked for is forced again for route53 only. -/
theorem forced_of_pending (hconsistent : Consistent sha256 disk)
    (hprofiles : ProfilesAreWords settings) (hvalid : run.Valid sha256 settings serverNames)
    (hsucceeds : run.Succeeds sha256 settings serverNames disk)
    (htwelve : TwelveDigits sha256 (contents sha256 run settings serverNames disk))
    {name : Name} {config : Config}
    (hconfig : (run.services sha256 settings serverNames).lookup name = some config)
    (hactivated : config.activated) (hpending : (run.checked sha256 disk name config).pending) :
    let disk' := run.result sha256 settings serverNames disk
    let existing := existingOf sha256 disk'.files (issuedLineage sha256 config)
    differs disk'.zerosslApiKeyHashes name config existing = false ∧
      (credentialsDiffer sha256 config existing = false ↔
        ¬ (config.challenge = dns ∧ config.authenticator = route53)) := by
  intro disk' existing
  have hischecked : IsConfig config := isConfig_of_lookup hconfig
  have hexisting := @existingOf_issued sha256 _ disk'.files hischecked hactivated
    (profile_isWord hprofiles hconfig)
  have hurl := (read_server config.acmeServer config.staging hischecked.server.2).2.2
  rw [← hischecked.server.1] at hurl
  constructor
  · rw [differs_eq_false_iff]
    simp only [existing, issuedLineage, hexisting, hurl, true_and]
    intro hzerossl previous hprevious
    rw [hashes_result hsucceeds hconfig hactivated hzerossl] at hprevious
    exact Option.some.inj hprevious
  · rw [credentialsDiffer_eq_false_iff]
    simp only [existing, issuedLineage, hexisting]
    by_cases hdns : config.challenge = dns
    · obtain ⟨credentials, hprovider⟩ :=
        Option.isSome_iff_exists.mp (hischecked.provider hactivated hdns).2
      rw [credentialsHash_issued disk'.files hdns hprovider, hprovider, Option.map_some]
      by_cases hroute : config.authenticator = route53
      · simp [hdns, hroute]
      · have hthere := isSome_lookup_requests hvalid hsucceeds hconfig hpending hdns hprovider
        rw [if_neg hroute, files_result hconsistent hsucceeds htwelve hconfig hactivated hdns
          hprovider hthere]
        simp [hroute]
    · simp [hdns]

/-- A certificate that the run before left alone is left alone again. -/
theorem forced_of_not_forced (hconsistent : Consistent sha256 disk)
    (hsucceeds : run.Succeeds sha256 settings serverNames disk)
    (htwelve : TwelveDigits sha256 (contents sha256 run settings serverNames disk))
    {name : Name} {config : Config} {l : Lineage}
    (hconfig : (run.services sha256 settings serverNames).lookup name = some config)
    (hactivated : config.activated) (hl : disk.lineages.lookup name = some l)
    (hdiffers : differs disk.zerosslApiKeyHashes name config
      (existingOf sha256 disk.files l) = false)
    (hcredentials : credentialsDiffer sha256 config (existingOf sha256 disk.files l) = false) :
    let disk' := run.result sha256 settings serverNames disk
    let existing := existingOf sha256 disk'.files l
    differs disk'.zerosslApiKeyHashes name config existing = false ∧
      credentialsDiffer sha256 config existing = false ∧
        ¬ (config.challenge = dns ∧ config.authenticator = route53) := by
  intro disk' existing
  have hold := differs_eq_false_iff.mp hdiffers
  have hexisting : existing = _ := existingOf_eq disk.files disk'.files l
  have hnewDiffers : differs disk'.zerosslApiKeyHashes name config existing = false := by
    rw [differs_eq_false_iff, hexisting]
    refine ⟨hold.1, hold.2.1, hold.2.2.1, hold.2.2.2.1, hold.2.2.2.2.1, hold.2.2.2.2.2.1, ?_⟩
    intro hzerossl previous hprevious
    rw [hashes_result hsucceeds hconfig hactivated hzerossl] at hprevious
    exact Option.some.inj hprevious
  refine ⟨hnewDiffers, ?_⟩
  by_cases hdns : config.challenge = dns
  · obtain ⟨credentials, hprovider⟩ :=
      Option.isSome_iff_exists.mp ((isConfig_of_lookup hconfig).provider hactivated hdns).2
    -- The file that the renewal file names has the credentials of the service.
    have hhash := credentialsDiffer_eq_false_iff.mp hcredentials hdns
    rw [hprovider, Option.map_some] at hhash
    obtain ⟨path, hpath, hfile⟩ := Option.bind_eq_some_iff.mp hhash.symm
    obtain ⟨content, hcontent, hsha⟩ := Option.map_eq_some_iff.mp hfile
    obtain ⟨config₀, -, -, hrenewal⟩ := hconsistent.lineages name l hl
    obtain ⟨authenticator, hname⟩ := hconsistent.files path content hcontent
    change readLine l.renewal (credentialsKey (existingOf sha256 disk.files l).authenticator) =
      some path at hpath
    rw [← hold.2.2.1, hrenewal, readLine_credentials] at hpath
    split at hpath
    next hline =>
      obtain ⟨credentials₀, -, rfl⟩ := Option.map_eq_some_iff.mp hpath
      have hroute : config.authenticator ≠ route53 := hline.2.2 ▸ hline.2.1
      have hsame : credentialsPath sha256 config₀.authenticator credentials₀ =
          credentialsPath sha256 config.authenticator credentials := by
        rw [credentialsPath_eq_iff, hline.2.2, ← hsha]
        exact ⟨(credentialsPath_eq_iff.mp hname).1, rfl⟩
      have hthere : ((run.requests sha256 settings serverNames disk).files.lookup
          (credentialsPath sha256 config.authenticator credentials)).isSome := by
        refine isSome_lookup_turns run.order ?_
        rw [← hsame, hcontent]
        rfl
      refine ⟨credentialsDiffer_eq_false_iff.mpr fun _ => ?_, fun h => hroute h.2⟩
      rw [hexisting]
      change _ = (readLine l.renewal (credentialsKey
        (existingOf sha256 disk.files l).authenticator)).bind _
      rw [← hold.2.2.1, hrenewal, readLine_credentials, if_pos hline, hpath, Option.bind_some,
        hsame, files_result hconsistent hsucceeds htwelve hconfig hactivated hdns hprovider hthere,
        hprovider, Option.map_some]
    next => cases hpath
  · exact ⟨credentialsDiffer_eq_false_iff.mpr fun h => absurd h hdns, fun h => hdns h.1⟩

/-- What the next run makes of an activated service. -/
theorem check_result (hconsistent : Consistent sha256 disk)
    (hprofiles : ProfilesAreWords settings) (hvalid : run.Valid sha256 settings serverNames)
    (hsucceeds : run.Succeeds sha256 settings serverNames disk)
    (htwelve : TwelveDigits sha256 (contents sha256 run settings serverNames disk))
    {name : Name} {config : Config}
    (hconfig : (run.services sha256 settings serverNames).lookup name = some config)
    (hactivated : config.activated) :
    check sha256 true run.psl (run.result sha256 settings serverNames disk) name config =
      if refused run.psl config then ⟨true, false, false⟩
      else ⟨true, true, config.challenge = dns ∧ config.authenticator = route53⟩ := by
  have hlineage := lineages_result hvalid hsucceeds hconfig hactivated
  cases hpending : (run.checked sha256 disk name config).pending with
  | true =>
    rw [hpending, if_pos rfl] at hlineage
    rw [check_of_lineage hactivated hlineage]
    split
    · rfl
    · obtain ⟨hdiffers, hcredentials⟩ := forced_of_pending hconsistent hprofiles hvalid hsucceeds
        htwelve hconfig hactivated hpending
      rw [hdiffers, Bool.false_or]
      congr 1
      rw [Bool.eq_iff_iff, decide_eq_true_eq, ← not_iff_not, ← hcredentials, Bool.not_eq_true]
  | false =>
    obtain ⟨hlisted, l, hl⟩ := exists_lineage_of_not_pending hactivated hpending
    rw [hpending, if_neg Bool.false_ne_true, hl] at hlineage
    rw [check_of_lineage hactivated hlineage]
    split
    · rfl
    next hrefused =>
      rw [Run.checked, hlisted, check_of_lineage hactivated hl, if_neg hrefused] at hpending
      have hforced : (differs disk.zerosslApiKeyHashes name config
            (existingOf sha256 disk.files l) ||
          credentialsDiffer sha256 config (existingOf sha256 disk.files l)) = false := by
        simpa [Checked.pending] using hpending
      rw [Bool.or_eq_false_iff] at hforced
      obtain ⟨hdiffers, hcredentials, hroute⟩ := forced_of_not_forced hconsistent hsucceeds
        htwelve hconfig hactivated hl hforced.1 hforced.2
      rw [hdiffers, hcredentials, decide_eq_false hroute]
      rfl

/-- A service that is not activated. -/
theorem check_of_not_activated {psl : Psl} {name : Name} {config : Config}
    (h : config.activated = false) :
    check sha256 true psl disk name config = ⟨false, false, false⟩ := by
  simp [check, h]

end

/-! ### One service with a DNS challenge -/

/-- Digits of a content, as many as it has bytes. -/
def digitsOf (content : Bytes) : Digest := content.map fun x => Fin.ofNat 16 x.toNat

def exampleName : Name := "example.com".toList

/-- A service with a provider. -/
def dnsSettings (provider : String) : Settings where
  env _ key :=
    if key = "SERVER_NAME" then some exampleName
    else if key = "AUTO_LETS_ENCRYPT" then some "yes".toList
    else if key = "LETS_ENCRYPT_CHALLENGE" then some dns
    else if key = "LETS_ENCRYPT_DNS_PROVIDER" then some provider.toList
    else if key = "LETS_ENCRYPT_DISABLE_PUBLIC_SUFFIXES" then some "yes".toList
    else none
  extractProvider _ _ _ := some [1, 2, 3]

theorem dnsSettings_profiles (provider : String) : ProfilesAreWords (dnsSettings provider) := by
  intro service profile hprofile
  simp [dnsSettings] at hprofile

/-- A run in which everything succeeds. -/
def smoothRun : Run where
  enum names := names.sort fun a b => sortedBefore a b = true
  psl := ⟨[], []⟩
  listed := true
  order := [exampleName]
  outcome _ := .issued
  clearOldCerts := false
  deleted _ := true

/-- The configuration of the service. -/
def dnsConfig (provider : String) : Config :=
  { (buildServiceConfig digitsOf (dnsSettings provider) exampleName).2 with
    serverNames := exampleName }

theorem services_smoothRun {provider : String}
    (h : buildServiceConfig digitsOf (dnsSettings provider) exampleName =
      ([exampleName], { dnsConfig provider with serverNames := [] }))
    (hwildcard : (dnsConfig provider).wildcard = false) (name : Name) :
    (smoothRun.services digitsOf (dnsSettings provider) [exampleName]).lookup name =
      if name = exampleName then some (dnsConfig provider) else none := by
  have hnames : normalizeServerNames ([','].intercalate [exampleName]) = {exampleName} := by decide
  have hformat : formatServerNames [exampleName] = exampleName := by decide
  have hentries : buildServiceEntries digitsOf (dnsSettings provider) smoothRun.enum exampleName =
      [(exampleName, dnsConfig provider)] := by
    simp only [buildServiceEntries, h, hwildcard, hnames, smoothRun, Finset.sort_singleton,
      hformat, List.cons_ne_nil, if_false, Bool.false_eq_true]
    rfl
  rw [Run.services, buildServices, List.flatMap_cons, List.flatMap_nil, List.append_nil, hentries,
    List.foldl_cons, List.foldl_nil, lookup_addEntry, AList.lookup_empty]
  simp only [mergeEntry, eq_comm]

section

variable {provider : String}
  (hservices : ∀ name, (smoothRun.services digitsOf (dnsSettings provider) [exampleName]).lookup
    name = if name = exampleName then some (dnsConfig provider) else none)
include hservices

theorem smoothRun_valid : smoothRun.Valid digitsOf (dnsSettings provider) [exampleName] := by
  refine ⟨fun names => Finset.sort_nodup _ _, fun names name => Finset.mem_sort _, by simp
    [smoothRun], fun name => ?_⟩
  rw [hservices]
  by_cases hname : name = exampleName <;> simp [smoothRun, hname]

theorem smoothRun_contents (hprovider : (dnsConfig provider).provider = some [1, 2, 3]) :
    TwelveDigits digitsOf
      (contents digitsOf smoothRun (dnsSettings provider) [exampleName] ⟨∅, ∅, ∅⟩) := by
  have hall : ∀ c ∈ contents digitsOf smoothRun (dnsSettings provider) [exampleName] ⟨∅, ∅, ∅⟩,
      c = [1, 2, 3] := by
    rintro c (⟨path, hpath⟩ | ⟨name, config, hconfig, hc⟩)
    · rw [AList.lookup_empty] at hpath
      cases hpath
    · rw [hservices] at hconfig
      split at hconfig
      · cases hconfig
        exact Option.some.inj (hc.symm.trans hprovider)
      · cases hconfig
  intro c hc c' hc' _
  rw [hall c hc, hall c' hc']

end

/-- The certificate of a service with route53 is asked for again in every run. -/
theorem route53_is_forced_again : ¬ Idempotent digitsOf (dnsSettings "route53") [exampleName] := by
  intro h
  have hservices := @services_smoothRun "route53" (by decide) (by decide)
  have hvalid := smoothRun_valid hservices
  have hsucceeds : smoothRun.Succeeds digitsOf (dnsSettings "route53") [exampleName] ⟨∅, ∅, ∅⟩ :=
    fun _ _ _ _ => rfl
  have hconfig := (hservices exampleName).trans (if_pos rfl)
  have hquiet := h _ .empty smoothRun smoothRun hvalid hvalid hsucceeds rfl rfl exampleName _
    hconfig
  have hcheck := check_result Reachable.empty.consistent (dnsSettings_profiles _) hvalid
    hsucceeds (smoothRun_contents hservices (by decide)) hconfig (by decide)
  rw [Run.checked, show smoothRun.listed = true from rfl, hcheck] at hquiet
  exact absurd hquiet.2 (by decide)

section

variable {run : Run} {settings : Settings} {serverNames : List Name} {disk : Disk}

/-- A run right after one that succeeds asks for nothing and forces nothing, exactly when route53 is
the provider of no activated service that the public suffix list does not refuse. -/
theorem quiet_iff {run' : Run} (hreachable : Reachable sha256 disk)
    (hprofiles : ProfilesAreWords settings) (hvalid : run.Valid sha256 settings serverNames)
    (hvalid' : run'.Valid sha256 settings serverNames)
    (hsucceeds : run.Succeeds sha256 settings serverNames disk) (hlisted : run'.listed)
    (hpsl : run'.psl = run.psl)
    (htwelve : TwelveDigits sha256 (contents sha256 run settings serverNames disk)) :
    run'.Quiet sha256 settings serverNames (run.result sha256 settings serverNames disk) ↔
      ∀ name config, (run.services sha256 settings serverNames).lookup name = some config →
        config.activated → ¬ refused run.psl config → config.challenge = dns →
          config.authenticator ≠ route53 := by
  have henum : ∀ names, (run'.enum names).Perm (run.enum names) := fun names =>
    (List.perm_ext_iff_of_nodup (hvalid'.enum_nodup names) (hvalid.enum_nodup names)).mpr
      fun name => by rw [hvalid'.mem_enum, hvalid.mem_enum]
  have hsame : ∀ name, (run'.services sha256 settings serverNames).lookup name =
      (run.services sha256 settings serverNames).lookup name :=
    fun name => lookup_buildServices_congr henum serverNames name
  unfold Run.Quiet
  simp only [hsame]
  refine forall_congr' fun name => forall_congr' fun config => forall_congr' fun hconfig => ?_
  rw [Run.checked, hlisted, hpsl]
  cases hactivated : config.activated with
  | false =>
    rw [check_of_not_activated hactivated]
    exact iff_of_true ⟨rfl, rfl⟩ fun h => absurd h Bool.false_ne_true
  | true =>
    rw [check_result hreachable.consistent hprofiles hvalid hsucceeds htwelve hconfig hactivated]
    by_cases hrefused : refused run.psl config = true
    · rw [if_pos hrefused]
      exact iff_of_true ⟨rfl, rfl⟩ fun _ h => absurd hrefused h
    · rw [if_neg hrefused]
      simp [Checked.pending, hrefused]

end

theorem quiet_iff_cloudflare :
    smoothRun.Quiet digitsOf (dnsSettings "cloudflare") [exampleName]
        (smoothRun.result digitsOf (dnsSettings "cloudflare") [exampleName] ⟨∅, ∅, ∅⟩) ↔
      ∀ name config, (smoothRun.services digitsOf (dnsSettings "cloudflare")
          [exampleName]).lookup name = some config →
        config.activated → ¬ refused smoothRun.psl config → config.challenge = dns →
          config.authenticator ≠ route53 := by
  have hservices := @services_smoothRun "cloudflare" (by decide) (by decide)
  exact quiet_iff .empty (dnsSettings_profiles _) (smoothRun_valid hservices)
    (smoothRun_valid hservices) (fun _ _ _ _ => rfl) rfl rfl
    (smoothRun_contents hservices (by decide))

end BunkerWeb.LetsEncrypt.CertbotNew
