import BunkerWeb.LetsEncrypt.SecondRun

/-!
# What the clean-up removes (`certbot-new.py`)

After the requests of a run the job removes the files with credentials that it does not count as
used: used are those of the services whose certificate was issued or needed no request. The
certificates themselves stay, whatever came of the request, until they are issued again, deleted for
a new one, or old and cleared.

`Run.KeepsCredentials` is what the renewal needs: a file in the cache stays if an activated service
or a certificate that stays refers to it. `keepsCredentials_iff` says of which disks, settings and
outcomes that is true.
-/

namespace BunkerWeb.LetsEncrypt.CertbotNew

open Lib

section

variable (sha256 : Bytes → Digest)

/-- The file with the credentials of a configuration. -/
def fileOf (config : Config) : Option Text :=
  if config.challenge = dns then config.provider.map (credentialsPath sha256 config.authenticator)
  else none

/-- The renewal file gives the path as the credentials of a plugin. -/
def Lineage.References (l : Lineage) (path : Text) : Prop :=
  ∃ plugin, (credentialsKey plugin, path) ∈ l.renewal

namespace Run

variable (run : Run) (settings : Settings) (serverNames : List Name) (disk : Disk)

/-- The file belongs to the configuration of an activated service. -/
def IsOfActivated (path : Text) : Prop :=
  ∃ name config, (run.services sha256 settings serverNames).lookup name = some config ∧
    (run.checked sha256 disk name config).activated ∧ fileOf sha256 config = some path

/-- The renewal file of a certificate that is there after the run refers to the file. -/
def IsReferenced (path : Text) : Prop :=
  ∃ name l, (run.result sha256 settings serverNames disk).lineages.lookup name = some l ∧
    l.References path

/-- The clean-up keeps the files that are needed. -/
def KeepsCredentials : Prop :=
  ∀ path, ((run.requests sha256 settings serverNames disk).files.lookup path).isSome →
    run.IsOfActivated sha256 settings serverNames disk path ∨
      run.IsReferenced sha256 settings serverNames disk path →
    ((run.result sha256 settings serverNames disk).files.lookup path).isSome

/-- What the request leaves of a certificate, if it changes it. -/
def lineageAfter (name : Name) : Option (Option Lineage) :=
  ((run.services sha256 settings serverNames).lookup name).bind fun config =>
    let c := run.checked sha256 disk name config
    if c.pending then
      match run.outcome name with
      | .issued => some (some (issuedLineage sha256 config))
      | .failed _ deleted => if c.forceRenew && deleted then some none else none
    else none

/-- The old certificate is removed. -/
def isCleared (name : Name) : Bool :=
  run.clearOldCerts && run.isOld sha256 settings serverNames disk name && run.deleted name

/-- The file was in the cache before the run, or a request that failed has written it. -/
def Leftover (path : Text) : Prop :=
  (disk.files.lookup path).isSome ∨ ∃ name config deleted,
    (run.services sha256 settings serverNames).lookup name = some config ∧
      (run.checked sha256 disk name config).pending ∧
        run.outcome name = .failed true deleted ∧ fileOf sha256 config = some path

/-- The file of a service whose request failed. -/
def IsOfFailed (path : Text) : Prop :=
  ∃ name config, (run.services sha256 settings serverNames).lookup name = some config ∧
    (run.checked sha256 disk name config).pending ∧ run.outcome name ≠ .issued ∧
      fileOf sha256 config = some path

/-- The file of a certificate on the disk that the run neither asks for with success nor deletes. -/
def IsOfUntouched (path : Text) : Prop :=
  ∃ name l, disk.lineages.lookup name = some l ∧
    run.lineageAfter sha256 settings serverNames disk name = none ∧
      run.isCleared sha256 settings serverNames disk name = false ∧ l.References path

/-- The file of a service whose certificate was issued, or is there and not forced. -/
def IsOfExisting (path : Text) : Prop :=
  ∃ name config, (run.services sha256 settings serverNames).lookup name = some config ∧
    run.doesExist sha256 disk name config ∧ fileOf sha256 config = some path

end Run

end

variable {sha256 : Bytes → Digest} {run : Run} {settings : Settings} {serverNames : List Name}
  {disk : Disk}

/-! ## The files -/

theorem mem_usedFiles {path : Text} :
    path ∈ run.usedFiles sha256 settings serverNames disk ↔
      run.IsOfExisting sha256 settings serverNames disk path := by
  unfold Run.usedFiles Run.IsOfExisting fileOf
  rw [List.mem_filterMap]
  constructor
  · rintro ⟨⟨name, config⟩, hitem, hpath⟩
    refine ⟨name, config, Dict.mem_items.mp hitem, ?_⟩
    split at hpath
    next h =>
      rw [Bool.and_eq_true, decide_eq_true_eq] at h
      exact ⟨h.1, by rw [if_pos h.2]; exact hpath⟩
    next => cases hpath
  · rintro ⟨name, config, hconfig, hexists, hpath⟩
    refine ⟨(name, config), Dict.mem_items.mpr hconfig, ?_⟩
    split at hpath
    next h =>
      simp only [hexists, h, Bool.true_and, decide_true, if_true]
      exact hpath
    next => cases hpath

/-- What is there after the clean-up was there before, and is used. -/
theorem isSome_files_result {path : Text} :
    ((run.result sha256 settings serverNames disk).files.lookup path).isSome ↔
      ((run.requests sha256 settings serverNames disk).files.lookup path).isSome ∧
        run.IsOfExisting sha256 settings serverNames disk path := by
  rw [← mem_usedFiles]
  simp only [Run.result, Dict.lookup_foldl_erase]
  constructor
  · intro h
    split at h
    next => cases h
    next hkept =>
      refine ⟨h, ?_⟩
      by_contra hunused
      exact hkept (List.mem_filter.mpr ⟨AList.lookup_isSome.mp h, by simpa using hunused⟩)
  · rintro ⟨hthere, hused⟩
    have hkept : path ∉ (run.requests sha256 settings serverNames disk).files.keys.filter
        (· ∉ run.usedFiles sha256 settings serverNames disk) :=
      fun hmem => absurd hused (by simpa using (List.mem_filter.mp hmem).2)
    rw [if_neg hkept]
    exact hthere

theorem isSome_cacheCredentials {files : Dict Text Bytes} {config : Config} {forceRenew : Bool}
    {path : Text} :
    ((cacheCredentials sha256 files config forceRenew).lookup path).isSome ↔
      (files.lookup path).isSome ∨ fileOf sha256 config = some path := by
  unfold cacheCredentials fileOf
  cases config.provider with
  | none => simp
  | some credentials =>
    by_cases hdns : config.challenge = dns
    · simp only [hdns, true_and, if_true, Option.map_some, Option.some.injEq]
      by_cases hpath : credentialsPath sha256 config.authenticator credentials = path
      · subst hpath
        refine iff_of_true ?_ (.inr rfl)
        split
        · rw [AList.lookup_insert]
          rfl
        next hskip =>
          rw [not_or] at hskip
          exact Option.isSome_iff_ne_none.mpr (mt Option.isNone_iff_eq_none.mpr hskip.1)
      · rw [or_iff_left hpath]
        split
        · rw [AList.lookup_insert_ne (Ne.symm hpath)]
        · rfl
    · simp [hdns]

/-- The request of a service writes the file. -/
def Writes (sha256 : Bytes → Digest) (run : Run) (settings : Settings) (serverNames : List Name)
    (disk : Disk) (path : Text) (name : Name) : Prop :=
  ∃ config, (run.services sha256 settings serverNames).lookup name = some config ∧
    (run.checked sha256 disk name config).pending ∧
      (∀ deleted, run.outcome name ≠ .failed false deleted) ∧ fileOf sha256 config = some path

theorem isSome_files_turn {d : Disk} {path : Text} {name : Name} :
    ((run.turn sha256 settings serverNames disk d name).files.lookup path).isSome ↔
      (d.files.lookup path).isSome ∨ Writes sha256 run settings serverNames disk path name := by
  unfold Run.turn Writes
  cases hconfig : (run.services sha256 settings serverNames).lookup name with
  | none => simp
  | some config =>
    by_cases hpending : (run.checked sha256 disk name config).pending
    · simp only [hpending, if_true, Option.some.injEq, exists_eq_left', true_and]
      cases houtcome : run.outcome name with
      | issued => simp [request, isSome_cacheCredentials]
      | failed cached deleted => cases cached <;> simp [request, isSome_cacheCredentials]
    · simp [hpending]

/-- What is in the cache after the requests. -/
theorem isSome_files_requests (disk : Disk) (hvalid : run.Valid sha256 settings serverNames)
    {path : Text} :
    ((run.requests sha256 settings serverNames disk).files.lookup path).isSome ↔
      (disk.files.lookup path).isSome ∨
        ∃ name, Writes sha256 run settings serverNames disk path name := by
  have hfold : ∀ (order : List Name) (d : Disk),
      ((order.foldl (run.turn sha256 settings serverNames disk) d).files.lookup path).isSome ↔
        (d.files.lookup path).isSome ∨
          ∃ name ∈ order, Writes sha256 run settings serverNames disk path name := by
    intro order
    induction order with
    | nil => simp
    | cons name order ih =>
      intro d
      rw [List.foldl_cons, ih, isSome_files_turn, or_assoc]
      simp
  rw [Run.requests, hfold]
  refine or_congr_right (exists_congr fun name => and_iff_right_of_imp ?_)
  rintro ⟨config, hconfig, -⟩
  exact (hvalid.mem_order name).mpr (by rw [hconfig]; rfl)

/-! ## The certificates -/

/-- What a turn does to the certificates. -/
theorem lookup_lineages_turn (d : Disk) (name name' : Name) :
    (run.turn sha256 settings serverNames disk d name').lineages.lookup name =
      ((if name' = name then run.lineageAfter sha256 settings serverNames disk name
        else none).getD (d.lineages.lookup name)) := by
  unfold Run.turn Run.lineageAfter
  by_cases hname : name' = name
  · subst hname
    rw [if_pos rfl]
    cases hconfig : (run.services sha256 settings serverNames).lookup name' with
    | none => rfl
    | some config =>
      simp only [Option.bind_some]
      split
      · cases run.outcome name' with
        | issued => simp [request, issuedLineage]
        | failed cached deleted =>
          simp only [request]
          split
          · rw [AList.lookup_erase]
            rfl
          · rfl
      · rfl
  · rw [if_neg hname, Option.getD_none]
    split
    next config hconfig =>
      dsimp only
      split
      · cases run.outcome name' with
        | issued => exact AList.lookup_insert_ne (Ne.symm hname)
        | failed cached deleted =>
          simp only [request]
          split
          · exact AList.lookup_erase_ne (Ne.symm hname)
          · rfl
      · rfl
    next => rfl

/-- What the requests leave of a certificate. -/
theorem lookup_lineages_requests (hvalid : run.Valid sha256 settings serverNames) (name : Name) :
    (run.requests sha256 settings serverNames disk).lineages.lookup name =
      (run.lineageAfter sha256 settings serverNames disk name).getD
        (disk.lineages.lookup name) := by
  have hor : ∀ (x : Option (Option Lineage)) y, some (x.getD y) = x.or (some y) := by
    rintro (_ | x) y <;> rfl
  by_cases hmem : name ∈ run.order
  · have hread : some ((run.order.foldl (run.turn sha256 settings serverNames disk)
        disk).lineages.lookup name) = _ :=
      read_foldl_own (fun d : Disk => some (d.lineages.lookup name))
      (v := run.lineageAfter sha256 settings serverNames disk name)
      (fun d name' hne => by rw [lookup_lineages_turn, if_neg hne, Option.getD_none])
      (fun d => by rw [lookup_lineages_turn, if_pos rfl, hor]) hmem disk
    rw [← hor] at hread
    exact Option.some.inj hread
  · have hnone : (run.services sha256 settings serverNames).lookup name = none :=
      Option.not_isSome_iff_eq_none.mp fun h => hmem ((hvalid.mem_order name).mpr h)
    have hafter : run.lineageAfter sha256 settings serverNames disk name = none := by
      rw [Run.lineageAfter, hnone, Option.bind_none]
    have hturn : ∀ (d : Disk) name',
        (run.turn sha256 settings serverNames disk d name').lineages.lookup name =
          d.lineages.lookup name := by
      intro d name'
      rw [lookup_lineages_turn, hafter, ite_self, Option.getD_none]
    have hfold : ∀ (order : List Name) (d : Disk),
        (order.foldl (run.turn sha256 settings serverNames disk) d).lineages.lookup name =
          d.lineages.lookup name := by
      intro order
      induction order with
      | nil => exact fun _ => rfl
      | cons name' order ih => exact fun d => (ih _).trans (hturn d name')
    rw [hafter, Option.getD_none, Run.requests, hfold]

/-- What is there of a certificate after the run. -/
theorem lookup_lineages_result (hvalid : run.Valid sha256 settings serverNames) (name : Name) :
    (run.result sha256 settings serverNames disk).lineages.lookup name =
      if run.isCleared sha256 settings serverNames disk name then none
      else (run.lineageAfter sha256 settings serverNames disk name).getD
        (disk.lineages.lookup name) := by
  rw [← lookup_lineages_requests hvalid]
  simp only [Run.result, Dict.lookup_foldl_erase]
  have hold : name ∈ disk.lineages.keys.filter (fun name => run.clearOldCerts &&
      run.isOld sha256 settings serverNames disk name && run.deleted name) ↔
        run.isCleared sha256 settings serverNames disk name := by
    rw [List.mem_filter, Run.isCleared, and_iff_right_iff_imp]
    intro h
    simp only [Run.isOld, Bool.and_eq_true] at h
    exact AList.lookup_isSome.mp h.1.2.1.2
  simp only [hold]

/-- The renewal file of an issued certificate refers to the file of its configuration only. -/
theorem fileOf_of_references {config : Config} {path : Text}
    (h : (issuedLineage sha256 config).References path) : fileOf sha256 config = some path := by
  obtain ⟨plugin, hmem⟩ := h
  simp only [issuedLineage, renewalOf, List.mem_append, List.mem_cons, List.not_mem_nil,
    or_false] at hmem
  have hkey : ∀ {key value : Text}, key.head? ≠ some 'd' →
      (credentialsKey plugin, path) ≠ (key, value) := by
    intro key value hhead heq
    exact hhead (by rw [← (Prod.mk.inj heq).1]; rfl)
  rcases hmem with (hline | hline | hline | hline) | hline
  · exact absurd hline (hkey (by decide))
  · exact absurd hline (hkey (by decide))
  · exact absurd hline (hkey (by decide))
  · exact absurd hline (hkey (by decide))
  · split at hline
    next h =>
      rw [Option.mem_toList, Option.map_eq_some_iff] at hline
      obtain ⟨credentials, hprovider, heq⟩ := hline
      rw [fileOf, if_pos h.1, hprovider, Option.map_some, (Prod.mk.inj heq).2]
    next => exact absurd hline List.not_mem_nil

/-! ## The outcome -/

/-- An activated service whose certificate is not counted as there has asked in vain. -/
theorem failed_of_activated {name : Name} {config : Config}
    (hactivated : (run.checked sha256 disk name config).activated)
    (hexists : ¬ run.doesExist sha256 disk name config) :
    (run.checked sha256 disk name config).pending ∧ run.outcome name ≠ .issued := by
  simp only [Run.doesExist, Bool.or_eq_true, not_or, Bool.and_eq_true, decide_eq_true_eq,
    not_and] at hexists
  have hpending : (run.checked sha256 disk name config).pending := by
    rw [Checked.pending, hactivated, Bool.and_true, Bool.not_eq_true', Bool.and_eq_false_iff]
    by_contra hboth
    rw [not_or, Bool.not_eq_false, Bool.not_eq_false] at hboth
    exact hexists.1 hboth.1 hboth.2
  exact ⟨hpending, hexists.2 hpending⟩

/-- The clean-up keeps the credentials that are needed exactly when every file in the cache that
belongs to a service whose request failed, or to a certificate that the run leaves alone, is also
the file of a service whose certificate was issued or needed no request. -/
theorem keepsCredentials_iff (hvalid : run.Valid sha256 settings serverNames) :
    run.KeepsCredentials sha256 settings serverNames disk ↔
      ∀ path, run.Leftover sha256 settings serverNames disk path →
        run.IsOfFailed sha256 settings serverNames disk path ∨
          run.IsOfUntouched sha256 settings serverNames disk path →
        run.IsOfExisting sha256 settings serverNames disk path := by
  constructor
  · intro hkeeps path hleft hneeded
    have hthere : ((run.requests sha256 settings serverNames disk).files.lookup path).isSome := by
      refine (isSome_files_requests disk hvalid).mpr (hleft.imp_right ?_)
      rintro ⟨name, config, deleted, hconfig, hpending, houtcome, hpath⟩
      exact ⟨name, config, hconfig, hpending, fun deleted' h => by simp [houtcome] at h, hpath⟩
    refine (isSome_files_result.mp (hkeeps path hthere ?_)).2
    rcases hneeded with ⟨name, config, hconfig, hpending, -, hpath⟩ | ⟨name, l, hl, hafter,
      hcleared, hreferences⟩
    · exact .inl ⟨name, config, hconfig, (Bool.and_eq_true_iff.mp hpending).2, hpath⟩
    · refine .inr ⟨name, l, ?_, hreferences⟩
      rw [lookup_lineages_result hvalid, hcleared, if_neg Bool.false_ne_true, hafter]
      exact hl
  · intro hkept path hthere hneeded
    refine isSome_files_result.mpr ⟨hthere, ?_⟩
    by_contra hunused
    have hleft : run.Leftover sha256 settings serverNames disk path := by
      refine ((isSome_files_requests disk hvalid).mp hthere).imp_right ?_
      rintro ⟨name, config, hconfig, hpending, hcached, hpath⟩
      cases houtcome : run.outcome name with
      | issued =>
        refine absurd ⟨name, config, hconfig, ?_, hpath⟩ hunused
        simp [Run.doesExist, hpending, houtcome]
      | failed cached deleted =>
        cases cached with
        | true => exact ⟨name, config, deleted, hconfig, hpending, houtcome, hpath⟩
        | false => exact absurd houtcome (hcached deleted)
    refine hunused (hkept path hleft ?_)
    rcases hneeded with ⟨name, config, hconfig, hactivated, hpath⟩ | ⟨name, l, hl, hreferences⟩
    · obtain ⟨hpending, hfailed⟩ := failed_of_activated hactivated fun hexists =>
        hunused ⟨name, config, hconfig, hexists, hpath⟩
      exact .inl ⟨name, config, hconfig, hpending, hfailed, hpath⟩
    · rw [lookup_lineages_result hvalid] at hl
      split at hl
      next => cases hl
      next hcleared =>
        cases hafter : run.lineageAfter sha256 settings serverNames disk name with
        | none =>
          rw [hafter, Option.getD_none] at hl
          exact .inr ⟨name, l, hl, hafter, by simpa using hcleared, hreferences⟩
        | some after =>
          rw [hafter, Option.getD_some] at hl
          subst hl
          -- the certificate has been issued in this run
          obtain ⟨config, hconfig, heffect⟩ := Option.bind_eq_some_iff.mp hafter
          dsimp only at heffect
          split at heffect
          next hpending =>
            split at heffect
            next houtcome =>
              cases heffect
              refine absurd ⟨name, config, hconfig, ?_, fileOf_of_references hreferences⟩ hunused
              simp [Run.doesExist, hpending, houtcome]
            next => split at heffect <;> cases heffect
          next => cases heffect

/-! ### A failed request -/

/-- The run of a service in which certbot lists no certificate and issues none. -/
def failedRun : Run := { smoothRun with listed := false, outcome _ := .failed true false }

/-- The disk after the certificate of the service was issued. -/
def issuedDisk : Disk where
  lineages := (∅ : Dict Name Lineage).insert exampleName
    (issuedLineage digitsOf (dnsConfig "cloudflare"))
  files := (∅ : Dict Text Bytes).insert (credentialsPath digitsOf "cloudflare".toList [1, 2, 3])
    [1, 2, 3]
  zerosslApiKeyHashes := ∅

/-- The file of a service is removed after a request in vain, while its certificate stays. -/
theorem credentials_removed_after_failed_request :
    failedRun.Valid digitsOf (dnsSettings "cloudflare") [exampleName] ∧
      ¬ failedRun.KeepsCredentials digitsOf (dnsSettings "cloudflare") [exampleName]
        issuedDisk := by
  have hservices := @services_smoothRun "cloudflare" (by decide) (by decide)
  have hvalid : failedRun.Valid digitsOf (dnsSettings "cloudflare") [exampleName] :=
    let h := smoothRun_valid hservices
    ⟨h.enum_nodup, h.mem_enum, h.order_nodup, h.mem_order⟩
  refine ⟨hvalid, fun hkeeps => ?_⟩
  have hpath : fileOf digitsOf (dnsConfig "cloudflare") =
      some (credentialsPath digitsOf "cloudflare".toList [1, 2, 3]) := by decide
  have hconfig := (hservices exampleName).trans (if_pos rfl)
  have hthere := (isSome_files_requests issuedDisk hvalid).mpr
    (.inl (by rw [issuedDisk, AList.lookup_insert]; rfl))
  obtain ⟨name, config, -, hexists, -⟩ := (isSome_files_result.mp (hkeeps _ hthere
    (.inl ⟨exampleName, _, hconfig, by decide, hpath⟩))).2
  simp [Run.doesExist, Run.checked, check, failedRun] at hexists

/-- A run that finds the certificate as configured keeps its credentials. -/
theorem smoothRun_keepsCredentials :
    smoothRun.KeepsCredentials digitsOf (dnsSettings "cloudflare") [exampleName] issuedDisk := by
  have hservices := @services_smoothRun "cloudflare" (by decide) (by decide)
  have hconfig := (hservices exampleName).trans (if_pos rfl)
  refine (keepsCredentials_iff (smoothRun_valid hservices)).mpr fun path _ hneeded => ?_
  rcases hneeded with ⟨name, config, -, -, hfailed, -⟩ | ⟨name, l, hl, -, -, hreferences⟩
  · exact absurd rfl hfailed
  · have hname : name = exampleName := by
      by_contra hne
      rw [issuedDisk, AList.lookup_insert_ne hne, AList.lookup_empty] at hl
      cases hl
    rw [hname, issuedDisk, AList.lookup_insert] at hl
    cases hl
    exact ⟨exampleName, _, hconfig, doesExist_of_activated (fun _ _ _ _ => rfl) hconfig (by decide),
      fileOf_of_references hreferences⟩

end BunkerWeb.LetsEncrypt.CertbotNew
