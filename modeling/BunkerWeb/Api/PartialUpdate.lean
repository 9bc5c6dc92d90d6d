import BunkerWeb.Api.Configs

/-!
# What an edit changes (`update_config`, `update_config_upload`)

A request names some of the fields. `PartialUpdate` is the row with these fields set and the others
as they were, `Updated` the table in which this is the only change. An upload names the content, and
where it does not name the configuration the file does.
-/

namespace BunkerWeb.Api.Configs

open Db.CustomConfigs

variable {Digest : Type} {w : World Digest}

/-! ## Fields -/

/-- The fields that a request names; a service may be none. -/
structure Fields where
  service : Option (Option String)
  type : Option String
  name : Option String
  text : Option String
  isDraft : Option Bool

/-- The named fields of a body. -/
def ConfigUpdateRequest.fields (req : ConfigUpdateRequest) : Fields where
  service := req.service.map fun service => normalizeService (some service)
  type := req.type.map columnType
  name := req.name.map stripText
  text := req.data
  isDraft := req.isDraft

/-- The named fields of a form; the file is the content. -/
def Upload.fields (w : World Digest) (up : Upload) : Fields where
  service := up.newService.map fun service => normalizeService (some service)
  type := up.newType.map columnType
  name := (up.newName.filter (· ≠ "")).map stripText
  text := some (decodeData w up.content)
  isDraft := up.newIsDraft

/-- The named fields are set, and the others are as they were. -/
structure PartialUpdate (w : World Digest) (f : Fields)
    (r r' : Db.CustomConfigs.Row ByteArray Digest) : Prop where
  service : r'.key.1 = f.service.getD r.key.1
  type : r'.key.2.1 = f.type.getD r.key.2.1
  name : r'.key.2.2 = f.name.getD r.key.2.2
  text : decodeData w r'.data = f.text.getD (decodeData w r.data)
  data : f.text = none → r.data.IsValidUTF8 → r'.data = r.data
  isDraft : r'.isDraft = f.isDraft.getD r.isDraft
  checksum : r'.checksum = w.hash r'.data
  method : r'.method = r.method

/-- The one row with the key is updated, and it is one that may be edited. -/
def Updated (w : World Digest) (f : Fields) (looked : Key) (rows rows' : Rows Digest) : Prop :=
  ∃ before r after r', rows = before ++ r :: after ∧ rows' = before ++ r' :: after ∧
    r.key = looked ∧ r.method ∈ editableMethods ∧ PartialUpdate w f r r'

/-! ## Texts -/

theorem toUTF8_decodeData {data : ByteArray} (h : data.IsValidUTF8) :
    (decodeData w data).toUTF8 = data := by
  rw [decodeData, dif_pos h]
  rfl

@[simp] theorem decodeData_toUTF8 (text : String) : decodeData w text.toUTF8 = text := by
  have hvalid : text.toUTF8.IsValidUTF8 := text.isValidUTF8
  rw [decodeData, dif_pos hvalid]
  rfl

/-! ## The call of `upsert_custom_config` -/

theorem columnType_of_mem {type : String} (h : type ∈ configTypes) : columnType type = type := by
  simp only [configTypes, List.mem_cons, List.not_mem_nil, or_false] at h
  rcases h with rfl | rfl | rfl | rfl | rfl | rfl | rfl | rfl | rfl <;> decide

theorem modifyFirst_of_find? {α : Type} {p : α → Bool} {g : α → α} {l : List α} {a : α}
    (h : l.find? p = some a) :
    ∃ before after, l = before ++ a :: after ∧
      Scheduler.modifyFirst p g l = before ++ g a :: after := by
  induction l with
  | nil => cases h
  | cons b l ih =>
    rw [List.find?_cons] at h
    rw [Scheduler.modifyFirst]
    split at h
    next hb =>
      cases h
      exact ⟨[], l, rfl, by rw [if_pos hb]; rfl⟩
    next hb =>
      obtain ⟨before, after, hl, hmodified⟩ := ih h
      refine ⟨b :: before, after, by rw [hl]; rfl, ?_⟩
      rw [if_neg (by simp [hb]), hmodified]
      rfl

/-- A call that succeeds changes the row that it finds. -/
theorem upsert_success {rows : Rows Digest} {looked : Key} {c : Config ByteArray Digest}
    {r : Db.CustomConfigs.Row ByteArray Digest}
    (hfind : rows.find? (·.key = filters looked) = some r)
    (h : (upsert w rows looked c).1 = .success) :
    ∃ before after, rows = before ++ r :: after ∧
      (upsert w rows looked c).2 = before ++ c.update w.hash r :: after := by
  have hcall : upsertCustomConfig w.hash w.env rows looked c false =
      if w.env.readonly then (.returned readonlyMessage, rows)
      else if w.env.raises then (.raised, rows)
      else commit w.env rows
        (Scheduler.modifyFirst (·.key = filters looked) (c.update w.hash) rows) := by
    simp only [upsertCustomConfig, hfind, Bool.false_eq_true, if_false]
  obtain ⟨before, after, hrows, hmodified⟩ := modifyFirst_of_find? (g := c.update w.hash) hfind
  refine ⟨before, after, hrows, ?_⟩
  unfold upsert at h ⊢
  rw [hcall] at h ⊢
  cases hreadonly : w.env.readonly with
  | true => simp [hreadonly, readonlyMessage] at h
  | false =>
    cases hraises : w.env.raises with
    | true => simp [hreadonly, hraises] at h
    | false =>
      simp only [hreadonly, hraises, Bool.false_eq_true, if_false, commit, hmodified] at h ⊢
      cases herror : w.env.commitError (before ++ c.update w.hash r :: after) with
      | some error => simp [herror, w.env.text _ _ herror] at h
      | none => simp

/-- The dictionary that sets the fields of a row. -/
def configOf (w : World Digest) (f : Fields) (r : Db.CustomConfigs.Row ByteArray Digest) :
    Config ByteArray Digest where
  service := f.service.getD r.key.1
  type := some (f.type.getD r.key.2.1)
  name := some (f.name.getD r.key.2.2)
  data := (f.text.getD (decodeData w r.data)).toUTF8
  checksum := none
  method := some r.method
  isDraft := f.isDraft.getD r.isDraft

theorem partialUpdate_configOf (f : Fields) (r : Db.CustomConfigs.Row ByteArray Digest) :
    PartialUpdate w f r ((configOf w f r).update w.hash r) where
  service := rfl
  type := rfl
  name := rfl
  text := decodeData_toUTF8 _
  data := by
    intro hnone hvalid
    show (f.text.getD (decodeData w r.data)).toUTF8 = r.data
    rw [hnone]
    exact toUTF8_decodeData hvalid
  isDraft := rfl
  checksum := rfl
  method := rfl

theorem upsert_configOf {rows : Rows Digest} {looked : Key} {f : Fields}
    {r : Db.CustomConfigs.Row ByteArray Digest} (hlooked : filters looked = looked)
    (hfind : rows.find? (·.key = filters looked) = some r) (hmethod : r.method ∈ editableMethods)
    (h : (upsert w rows looked (configOf w f r)).1 = .success) :
    Updated w f looked rows (upsert w rows looked (configOf w f r)).2 := by
  obtain ⟨before, after, hrows, hupdated⟩ := upsert_success hfind h
  have hkey : r.key = filters looked := by simpa using List.find?_some hfind
  exact ⟨before, r, after, _, hrows, hupdated, hkey.trans hlooked, hmethod,
    partialUpdate_configOf f r⟩

/-! ## The handlers -/

theorem getCustomConfig_of_normalized (rows : Rows Digest) (service : Option String)
    (name : String) {configType ctype : String} (h : normalizeConfigType configType = .ok ctype) :
    getCustomConfig rows (normalizeService service, ctype, name) =
        rows.find? (·.key = filters (normalizeService service, ctype, name)) ∧
      filters (normalizeService service, ctype, name) =
        (normalizeService service, ctype, name) := by
  unfold normalizeConfigType at h
  split at h
  next hmem =>
    cases h
    have hfilters : filters (normalizeService service, columnType configType, name) =
        (normalizeService service, columnType configType, name) := by
      cases service with
      | none => rfl
      | some s =>
        unfold filters normalizeService
        by_cases hs : s ≠ "" ∧ s ≠ "global"
        · simp [Option.filter, hs]
        · simp [Option.filter, hs]
    refine ⟨?_, hfilters⟩
    rw [hfilters, getCustomConfig, columnType_of_mem hmem]
  next => cases h

/-- A validator that returns `f` of what it accepts. -/
theorem optional_eq {α : Type} {validate : α → Except String α} {f : α → α}
    (hf : ∀ v v', validate v = .ok v' → v' = f v) {o r : Option α}
    (h : optional validate o = .ok r) : r = o.map f := by
  cases o with
  | none =>
    cases h
    rfl
  | some v =>
    simp only [optional] at h
    cases hv : validate v with
    | error err => simp [hv, Except.map] at h
    | ok v' =>
      rw [hv] at h
      cases h
      rw [hf v v' hv, Option.map_some]

theorem normalizeConfigType_eq {type type' : String} (h : normalizeConfigType type = .ok type') :
    type' = columnType type ∧ type' ∈ configTypes := by
  unfold normalizeConfigType at h
  split at h
  next hmem =>
    cases h
    exact ⟨rfl, hmem⟩
  next => cases h

theorem validateName_eq {name name' : String} (h : validateName w name = .ok name') :
    name' = stripText name := by
  unfold validateName at h
  split at h
  next => cases h
  next =>
    cases h
    rfl

/-- What a valid body says of the fields. -/
theorem validate_eq {req req' : ConfigUpdateRequest} (h : req.validate w = .ok req') :
    req' = { req with
      service := normalizeService req.service
      type := req.fields.type
      name := req.fields.name } := by
  unfold ConfigUpdateRequest.validate at h
  cases htype : optional normalizeConfigType req.type with
  | error err => simp [htype, bind, Except.bind] at h
  | ok type =>
    cases hname : optional (validateName w) req.name with
    | error err => simp [htype, hname, bind, Except.bind] at h
    | ok name =>
      simp only [htype, hname, bind, Except.bind, pure, Except.pure, Except.ok.injEq] at h
      rw [← h, optional_eq (fun _ _ hv => (normalizeConfigType_eq hv).1) htype,
        optional_eq (fun _ _ hv => validateName_eq hv) hname]
      rfl

/-- The fields with a service, if they name none. -/
def Fields.withService (f : Fields) (service : Option String) : Fields :=
  { f with service := some (f.service.getD service) }

/-- The fields with a name, if they name none. -/
def Fields.withName (f : Fields) (name : String) : Fields :=
  { f with name := some (f.name.getD name) }

theorem updateValid_success {rows : Rows Digest} {looked : Key} {req : ConfigUpdateRequest}
    {r : Db.CustomConfigs.Row ByteArray Digest} (hget : getCustomConfig rows looked = some r)
    (h : (updateValid w rows looked req).1 = .success) :
    r.method ∈ editableMethods ∧ updateValid w rows looked req = upsert w rows looked (configOf w
      ⟨some req.service, req.type, req.name, req.data, req.isDraft⟩ r) := by
  unfold updateValid at h ⊢
  simp only [hget] at h ⊢
  by_cases hmethod : r.method ∈ editableMethods
  · rw [if_neg (not_not.mpr hmethod)] at h ⊢
    refine ⟨hmethod, ?_⟩
    split at h
    next => cases h
    next hservice =>
      rw [if_neg hservice]
      split at h
      next => cases h
      next hchanged =>
        rw [if_neg hchanged]
        rfl
  · rw [if_pos hmethod] at h
    cases h

/-- A `PATCH` that succeeds sets the fields that it names and keeps the others, except that without a
service in it the configuration has none any more. -/
theorem updateConfig_partial {rows : Rows Digest} {service configType name : String}
    {req : ConfigUpdateRequest}
    (h : (updateConfig w rows service configType name req).1 = .success) :
    Updated w (req.fields.withService none)
      (normalizeService (some service), columnType configType, name) rows
      (updateConfig w rows service configType name req).2 := by
  unfold updateConfig at h ⊢
  cases hctype : normalizeConfigType configType with
  | error err => simp [hctype] at h
  | ok ctype =>
    cases hreq : req.validate w with
    | error err => simp [hctype, hreq] at h
    | ok req' =>
      simp only [hctype, hreq] at h ⊢
      obtain ⟨hget, hfilters⟩ := getCustomConfig_of_normalized rows (some service) name
        hctype
      obtain ⟨rfl, -⟩ := normalizeConfigType_eq hctype
      cases hfind : getCustomConfig rows
          (normalizeService (some service), columnType configType, name) with
      | none => simp [updateValid, hfind] at h
      | some r =>
        obtain ⟨hmethod, hcall⟩ := updateValid_success hfind h
        rw [hcall] at h ⊢
        rw [hget] at hfind
        have hfields : (⟨some req'.service, req'.type, req'.name, req'.data, req'.isDraft⟩ :
            Fields) = req.fields.withService none := by
          have hservice : some (normalizeService req.service) =
              some ((req.service.map fun s => normalizeService (some s)).getD none) := by
            cases req.service <;> rfl
          rw [validate_eq hreq, hservice]
          rfl
        rw [hfields] at h ⊢
        exact upsert_configOf hfilters hfind hmethod h

/-! ## Uploads -/

/-- The name that the file gives. -/
def Upload.derivedName (w : World Digest) (up : Upload) (current : String) : String :=
  if sanitizeName w (up.filename.getD "") ≠ "" then sanitizeName w (up.filename.getD "")
  else current

theorem upload_name (up : Upload) (current : String) :
    up.name w current = (up.fields w).name.getD (up.derivedName w current) := by
  unfold Upload.name Upload.fields Upload.derivedName
  cases up.newName.filter (· ≠ "") with
  | none => simp only [Option.map_none, Option.getD_none]
  | some name => simp only [Option.map_some, Option.getD_some]

theorem uploadValid_success {rows : Rows Digest} {looked : Key} {newType : Option String}
    {up : Upload} {r : Db.CustomConfigs.Row ByteArray Digest}
    (hget : getCustomConfig rows looked = some r)
    (htype : newType.filter (· ≠ "") = up.newType.map columnType)
    (h : (uploadValid w rows looked newType up).1 = .success) :
    r.method ∈ editableMethods ∧ uploadValid w rows looked newType up =
      upsert w rows looked
        (configOf w ((up.fields w).withName (up.derivedName w r.key.2.2)) r) := by
  unfold uploadValid at h ⊢
  simp only [hget] at h ⊢
  by_cases hmethod : r.method ∈ editableMethods
  · rw [if_neg (not_not.mpr hmethod)] at h ⊢
    refine ⟨hmethod, ?_⟩
    split at h
    next => cases h
    next hname =>
      split at h
      next => cases h
      next hservice =>
        split at h
        next => cases h
        next hchanged =>
          have hconfig : (⟨(up.newService.map fun s => normalizeService (some s)).getD r.key.1,
              some ((newType.filter (· ≠ "")).getD r.key.2.1), some (up.name w r.key.2.2),
              (decodeData w up.content).toUTF8, none, some r.method,
              up.newIsDraft.getD r.isDraft⟩ : Config ByteArray Digest) =
                configOf w ((up.fields w).withName (up.derivedName w r.key.2.2)) r := by
            rw [htype, upload_name]
            rfl
          rw [if_neg hservice, if_neg hchanged]
          exact congrArg (upsert w rows looked) hconfig
  · rw [if_pos hmethod] at h
    cases h

theorem filter_newType {up : Upload} {newType : Option String}
    (h : optional normalizeConfigType up.newType = .ok newType) :
    newType.filter (· ≠ "") = up.newType.map columnType := by
  cases htype : up.newType with
  | none =>
    rw [htype] at h
    cases h
    rfl
  | some type =>
    rw [htype] at h
    cases hnormalized : normalizeConfigType type with
    | error err => simp [optional, hnormalized, Except.map] at h
    | ok type' =>
      simp only [optional, hnormalized, Except.map, Except.ok.injEq] at h
      obtain ⟨rfl, hmem⟩ := normalizeConfigType_eq hnormalized
      have hne : columnType type ≠ "" := fun hempty => absurd (hempty ▸ hmem) (by decide)
      rw [← h, Option.map_some, Option.filter_some_pos (by simpa using hne)]

/-- An upload that succeeds sets the content and the fields that it names; without a name the
configuration gets that of the file, if the file gives one. -/
theorem updateConfigUpload_partial {rows : Rows Digest} {service configType name : String}
    {up : Upload} (h : (updateConfigUpload w rows service configType name up).1 = .success) :
    Updated w ((up.fields w).withName (up.derivedName w name))
      (normalizeService (some service), columnType configType, name) rows
      (updateConfigUpload w rows service configType name up).2 := by
  unfold updateConfigUpload at h ⊢
  cases hctype : normalizeConfigType configType with
  | error err => simp [hctype] at h
  | ok ctype =>
    cases hnew : optional normalizeConfigType up.newType with
    | error err => simp [hctype, hnew] at h
    | ok newType =>
      simp only [hctype, hnew] at h ⊢
      obtain ⟨hget, hfilters⟩ := getCustomConfig_of_normalized rows (some service) name
        hctype
      obtain ⟨rfl, -⟩ := normalizeConfigType_eq hctype
      cases hfind : getCustomConfig rows
          (normalizeService (some service), columnType configType, name) with
      | none => simp [uploadValid, hfind] at h
      | some r =>
        obtain ⟨hmethod, hcall⟩ := uploadValid_success hfind (filter_newType hnew) h
        rw [hcall] at h ⊢
        rw [hget] at hfind
        have hkey : r.key =
            filters (normalizeService (some service), columnType configType, name) := by
          simpa using List.find?_some hfind
        have hname : r.key.2.2 = name := by rw [hkey, hfilters]
        rw [hname] at h ⊢
        exact upsert_configOf hfilters hfind hmethod h

/-! ## Both -/

/-- An edit that succeeds sets what it names and keeps the rest, and changes no other configuration.
It may have named no service to `PATCH`; and to an upload no name, for which the file stands. -/
theorem edits_unless_refused (w : World Digest) (rows : Rows Digest) (service configType name : String) :
    (∀ req, (updateConfig w rows service configType name req).1 = .success →
      ∃ serviceNew, Updated w (req.fields.withService serviceNew)
        (normalizeService (some service), columnType configType, name) rows
        (updateConfig w rows service configType name req).2) ∧
    (∀ up, (updateConfigUpload w rows service configType name up).1 = .success →
      Updated w ((up.fields w).withName (up.derivedName w name))
        (normalizeService (some service), columnType configType, name) rows
        (updateConfigUpload w rows service configType name up).2) :=
  ⟨fun _ h => ⟨none, updateConfig_partial h⟩, fun _ => updateConfigUpload_partial⟩

/-! ### Runs -/

/-- A database that takes every change. -/
def openWorld : World Nat where
  env :=
    { readonly := false
      hasService := fun _ => true
      raises := false
      commitError := fun rows => if Unique (ofServices rows) then none else some "UNIQUE"
      unique := fun rows h => by
        by_contra hnot
        simp [hnot] at h
      text := fun rows error h => by
        split at h
        · cases h
        · cases h
          decide }
  hash := ByteArray.size
  serverNames := ["www"]
  wordChar := Char.isAlphanum
  replaced _ := ""

/-- A configuration of the service `www`. -/
def snippet (text : String) : Db.CustomConfigs.Row ByteArray Nat :=
  ⟨(some "www", "http", "snippet"), text.toUTF8, text.toUTF8.size, .api, false⟩

/-- A `PATCH` that changes the draft flag only. -/
def publish : ConfigUpdateRequest := ⟨none, none, none, none, some true⟩

/-- A file for a configuration, with a form that is empty. -/
def upload (filename : String) : Upload :=
  ⟨some filename, "listen 8080;".toUTF8, none, none, none, none⟩

/-- An upload with an empty form gives the configuration the name of the file. -/
theorem upload_renames_to_file :
    ¬ ((∀ req, (updateConfig openWorld [snippet ""] "www" "http" "snippet" req).1 = .success →
        Updated openWorld req.fields (some "www", "http", "snippet") [snippet ""]
          (updateConfig openWorld [snippet ""] "www" "http" "snippet" req).2) ∧
      ∀ up, (updateConfigUpload openWorld [snippet ""] "www" "http" "snippet" up).1 = .success →
        Updated openWorld (up.fields openWorld) (some "www", "http", "snippet") [snippet ""]
          (updateConfigUpload openWorld [snippet ""] "www" "http" "snippet" up).2) := by
  rintro ⟨-, h⟩
  obtain ⟨before, r, after, r', hrows, hrows', -, -, hpartial⟩ :=
    h (upload "other.conf") (by decide +kernel)
  have hnames : (updateConfigUpload openWorld [snippet ""] "www" "http" "snippet"
      (upload "other.conf")).2.map (·.key.2.2) = ["other"] := by decide +kernel
  have hr : r ∈ [snippet ""] := by simp [hrows]
  have hr' : r'.key.2.2 ∈ ["other"] := by
    rw [← hnames, hrows']
    simp
  have hname : r'.key.2.2 = r.key.2.2 := hpartial.name
  rw [List.mem_singleton.mp hr, List.mem_singleton.mp hr'] at hname
  exact absurd hname (by decide)

/-- A file with the name of the configuration changes its content only. -/
theorem upload_keeps_name :
    Updated openWorld (((upload "snippet.conf").fields openWorld).withName
        ((upload "snippet.conf").derivedName openWorld "snippet"))
      (normalizeService (some "www"), columnType "http", "snippet") [snippet ""]
      (updateConfigUpload openWorld [snippet ""] "www" "http" "snippet"
        (upload "snippet.conf")).2 :=
  (edits_unless_refused openWorld [snippet ""] "www" "http" "snippet").2 (upload "snippet.conf")
    (by decide +kernel)

/-- The configuration of `www` is a global one after a `PATCH` that says nothing of the service. -/
example : (updateConfig openWorld [snippet ""] "www" "http" "snippet" publish).2.map
    Db.CustomConfigs.Row.key =
    [(none, "http", "snippet")] := by
  decide +kernel

end BunkerWeb.Api.Configs
