import BunkerWeb.Db.Tables

/-!
# The accounts of the web interface (`ui/app/models/ui_database.py`)

A user has a row, and rows in four other tables that name it. Every change of an account goes through
`update_ui_user`, which writes all columns of the row: those that a caller leaves out get a default.
The recovery codes are changed afterwards, in a transaction of their own whose result nobody reads.

- **The function** (`updateUiUser`).
- **What it does** (`updateUiUser_refused`, `updateUiUser_done`): when it fails nothing has changed,
  and otherwise the row is what the arguments say (`Update.apply`).
-/

namespace BunkerWeb.Ui.Accounts

open BunkerWeb.Db (Method)

/-- A row of `Users`, without its dates. -/
structure User where
  username : String
  email : Option String
  password : String
  method : Method
  admin : Bool
  theme : String
  language : String
  totpSecret : Option String
  deriving DecidableEq, Repr

/-- `bool(user.totp_secret)`. -/
def User.hasSecret (u : User) : Bool := u.totpSecret.any (· ≠ "")

/-- The tables. A row of the last four names its user first; what it has beside that is only carried
along. -/
structure Tables where
  users : List User
  roles : List (String × String)
  recoveryCodes : List (String × String)
  sessions : List (String × String)
  columnsPreferences : List (String × String)
  deriving DecidableEq, Repr

/-- What a transaction finds. -/
structure Env where
  readonly : Bool
  /-- The text of the error if the commit fails. -/
  commitError : Option String
  text : ∀ error, commitError = some error → error ≠ ""

/-- The arguments of `update_ui_user`. -/
structure Update where
  username : String
  password : String
  totpSecret : Option String
  theme : String := "light"
  oldUsername : Option String := none
  email : Option String := none
  totpRecoveryCodes : Option (List String) := none
  method : Method := .manual
  language : String := "en"

/-- `filter_by(user_name=old).update({"user_name": new})`. -/
def rename (old new : String) (rows : List (String × String)) : List (String × String) :=
  rows.map fun r => if r.1 = old then (new, r.2) else r

/-- The columns that are written. -/
def Update.apply (p : Update) (u : User) : User :=
  { u with
    username := p.username
    email := p.email
    password := p.password
    totpSecret := p.totpSecret
    method := p.method
    theme := p.theme
    language := p.language }

/-- `old_username or username`. -/
def Update.old (p : Update) : String := (p.oldUsername.filter (· ≠ "")).getD p.username

namespace Tables

def readonlyMessage : String := "The database is read-only, the changes will not be saved"

def find (db : Tables) (username : String) : Option User :=
  db.users.find? (·.username = username)

/-- The recovery codes of a user. -/
def codesOf (db : Tables) (username : String) : List String :=
  (db.recoveryCodes.filter (·.1 = username)).map Prod.snd

/-- `delete_ui_user_recovery_codes`. -/
def deleteUiUserRecoveryCodes (env : Env) (db : Tables) (username : String) :
    String × Tables :=
  if env.readonly then (readonlyMessage, db)
  else
    match env.commitError with
    | some error => (error, db)
    | none => ("", { db with recoveryCodes := db.recoveryCodes.filter (·.1 ≠ username) })

/-- `refresh_ui_user_recovery_codes`, with the hashes that are drawn for the codes. -/
def refreshUiUserRecoveryCodes (env : Env) (hashpw : String → String) (db : Tables)
    (username : String) (codes : List String) : String × Tables :=
  if env.readonly then (readonlyMessage, db)
  else if codes.isEmpty then ("No recovery codes provided", db)
  else
    match db.find username with
    | none => ("User " ++ username ++ " doesn't exist", db)
    | some _ =>
      match env.commitError with
      | some error => (error, db)
      | none => ("", { db with
          recoveryCodes := db.recoveryCodes.filter (·.1 ≠ username) ++
            codes.map fun code => (username, hashpw code) })

/-- The first transaction of `update_ui_user`, and whether the secret has changed. -/
def saveUiUser (env : Env) (db : Tables) (p : Update) : Except String (Tables × Bool) :=
  if env.readonly then .error readonlyMessage
  else
    match db.find p.old with
    | none => .error ("User " ++ p.old ++ " doesn't exist")
    | some user =>
      if p.username ≠ p.old ∧ (db.find p.username).isSome then
        .error ("User " ++ p.username ++ " already exists")
      else
        match env.commitError with
        | some error => .error error
        | none => .ok
          ({ users := db.users.map fun u => if u.username = p.old then p.apply u else u
             roles := rename p.old p.username db.roles
             recoveryCodes := rename p.old p.username db.recoveryCodes
             sessions := rename p.old p.username db.sessions
             columnsPreferences := rename p.old p.username db.columnsPreferences },
            user.totpSecret ≠ p.totpSecret)

/-- The end of `update_ui_user`, when the secret has changed. -/
def changeRecoveryCodes (env : Env) (hashpw : String → String) (db : Tables) (username : String)
    (totpRecoveryCodes : Option (List String)) : Tables :=
  match totpRecoveryCodes.getD [] with
  | [] => (deleteUiUserRecoveryCodes env db username).2
  | codes => (refreshUiUserRecoveryCodes env hashpw db username codes).2

/-- `update_ui_user`, with what its two transactions find. -/
def updateUiUser (first second : Env) (hashpw : String → String) (db : Tables) (p : Update) :
    String × Tables :=
  match saveUiUser first db p with
  | .error error => (error, db)
  | .ok (db, totpChanged) =>
    ("", if totpChanged then
      changeRecoveryCodes second hashpw db p.username p.totpRecoveryCodes else db)

end Tables

/-! ## Rows and names -/

/-- User names are unique, and every recovery code has its user. -/
structure Linked (db : Tables) : Prop where
  unique : (db.users.map User.username).Nodup
  codes : ∀ r ∈ db.recoveryCodes, r.1 ∈ db.users.map User.username

/-- A transaction is carried out. -/
def Env.carries (env : Env) : Bool := !env.readonly && env.commitError.isNone

/-- What the first transaction needs: a user of the old name, and none of a new one. -/
structure Succeeds (env : Env) (db : Tables) (p : Update) : Prop where
  carries : env.carries = true
  exists_old : p.old ∈ db.users.map User.username
  free : p.username = p.old ∨ p.username ∉ db.users.map User.username

instance (env : Env) (db : Tables) (p : Update) : Decidable (Succeeds env db p) :=
  decidable_of_iff (_ ∧ _ ∧ _) ⟨fun ⟨h1, h2, h3⟩ => ⟨h1, h2, h3⟩, fun h => ⟨h.1, h.2, h.3⟩⟩

section

variable {db : Tables} {p : Update} {u : User} {first second : Env} {hashpw : String → String}
  {old new name : String} {rows : List (String × String)}

@[simp] theorem rename_self (old : String) (rows : List (String × String)) :
    rename old old rows = rows := by
  refine (List.map_congr_left fun r _ => ?_).trans (List.map_id rows)
  by_cases h : r.1 = old
  · rw [if_pos h, ← h]
    rfl
  · rw [if_neg h]
    rfl

theorem isSome_find : (db.find name).isSome = true ↔ name ∈ db.users.map User.username := by
  simp [Tables.find, List.mem_map]

theorem Linked.find_eq (h : Linked db) (hu : u ∈ db.users) : db.find u.username = some u := by
  have hsome := isSome_find.mpr (List.mem_map_of_mem (f := User.username) hu)
  obtain ⟨v, hv⟩ := Option.isSome_iff_exists.mp hsome
  have hname : v.username = u.username := by
    have := List.find?_some hv
    simpa using this
  rw [hv, List.inj_on_of_nodup_map h.unique (List.mem_of_find?_eq_some hv) hu hname]

/-- The rows of a user go with the new name, which no row has yet. -/
theorem filter_rename (hnew : new = old ∨ ∀ r ∈ rows, r.1 ≠ new) :
    ((rename old new rows).filter (·.1 = new)).map Prod.snd =
      (rows.filter (·.1 = old)).map Prod.snd := by
  obtain rfl | hnew := hnew
  · rw [rename_self]
  · induction rows with
    | nil => rfl
    | cons r rows ih =>
      have ih := ih fun r' hr' => hnew r' (List.mem_cons_of_mem _ hr')
      have hr := hnew r List.mem_cons_self
      unfold rename at ih ⊢
      by_cases h : r.1 = old
      · simpa [h] using ih
      · simpa [h, hr] using ih

theorem filter_rename_of_ne (hold : name ≠ old) (hnew : name ≠ new) :
    (rename old new rows).filter (·.1 = name) = rows.filter (·.1 = name) := by
  induction rows with
  | nil => rfl
  | cons r rows ih =>
    unfold rename at ih ⊢
    by_cases h : r.1 = old
    · simpa [h, hold.symm, hnew.symm] using ih
    · by_cases h' : r.1 = name <;> simpa [h, h', hold] using ih

/-! ## The two transactions -/

theorem deleteUiUserRecoveryCodes_snd (db : Tables) (name : String) :
    (db.deleteUiUserRecoveryCodes second name).2 =
      if second.carries then
        { db with recoveryCodes := db.recoveryCodes.filter (·.1 ≠ name) }
      else db := by
  unfold Tables.deleteUiUserRecoveryCodes Env.carries
  cases second.readonly with
  | true => rfl
  | false => cases second.commitError <;> rfl

theorem refreshUiUserRecoveryCodes_snd (hname : name ∈ db.users.map User.username)
    {codes : List String} (hcodes : codes ≠ []) :
    (db.refreshUiUserRecoveryCodes second hashpw name codes).2 =
      if second.carries then
        { db with recoveryCodes := db.recoveryCodes.filter (·.1 ≠ name) ++
            codes.map fun code => (name, hashpw code) }
      else db := by
  obtain ⟨v, hv⟩ := Option.isSome_iff_exists.mp (isSome_find.mpr hname)
  have hempty : codes.isEmpty = false := by simpa using hcodes
  unfold Tables.refreshUiUserRecoveryCodes Env.carries
  cases second.readonly with
  | true => rfl
  | false => cases second.commitError <;> simp [hempty, hv]

/-- The recovery codes after an update that is done. -/
def codesAfter (second : Env) (hashpw : String → String) (db : Tables) (u : User) (p : Update) :
    List String :=
  if u.totpSecret ≠ p.totpSecret ∧ second.carries = true then
    (p.totpRecoveryCodes.getD []).map hashpw
  else db.codesOf u.username

/-- The tables after the first transaction. -/
def Update.tables (p : Update) (db : Tables) : Tables where
  users := db.users.map fun v => if v.username = p.old then p.apply v else v
  roles := rename p.old p.username db.roles
  recoveryCodes := rename p.old p.username db.recoveryCodes
  sessions := rename p.old p.username db.sessions
  columnsPreferences := rename p.old p.username db.columnsPreferences

theorem saveUiUser_done (h : Linked db) (hs : Succeeds first db p) (hu : u ∈ db.users)
    (hold : u.username = p.old) :
    db.saveUiUser first p = .ok (p.tables db, u.totpSecret ≠ p.totpSecret) := by
  have hcarries := hs.carries
  simp only [Env.carries, Bool.and_eq_true, Bool.not_eq_true', Option.isNone_iff_eq_none]
    at hcarries
  have hfree : ¬(p.username ≠ p.old ∧ (db.find p.username).isSome = true) := by
    rw [isSome_find]
    rintro ⟨hne, hmem⟩
    exact hs.free.elim hne fun hnot => hnot hmem
  unfold Tables.saveUiUser
  rw [if_neg (by simp [hcarries.1]), ← hold, h.find_eq hu]
  simp only [hold, if_neg hfree, hcarries.2]
  rfl

/-- **A call that is not carried out** returns an error and leaves everything as it was. -/
theorem updateUiUser_refused (second : Env) (hashpw : String → String)
    (h : ¬Succeeds first db p) :
    ∃ error, error ≠ "" ∧ db.updateUiUser first second hashpw p = (error, db) := by
  have herror : ∃ error, error ≠ "" ∧ db.saveUiUser first p = .error error := by
    unfold Tables.saveUiUser
    split
    next => exact ⟨_, by decide, rfl⟩
    next hreadonly =>
    split
    next => exact ⟨_, by simp, rfl⟩
    next user hfind =>
    split
    next => exact ⟨_, by simp, rfl⟩
    next hfree =>
    split
    next error herror => exact ⟨error, first.text error herror, rfl⟩
    next hcommit =>
      refine absurd ⟨?_, ?_, ?_⟩ h
      · simp [Env.carries, hreadonly, hcommit]
      · exact isSome_find.mp (by rw [hfind]; rfl)
      · rw [isSome_find] at hfree
        by_cases heq : p.username = p.old
        · exact .inl heq
        · exact .inr fun hmem => hfree ⟨heq, hmem⟩
  obtain ⟨error, hne, hsave⟩ := herror
  exact ⟨error, hne, by rw [Tables.updateUiUser, hsave]⟩

/-- No recovery code has the new name yet. -/
theorem Linked.codes_free (h : Linked db) (hs : Succeeds first db p) :
    p.username = p.old ∨ ∀ r ∈ db.recoveryCodes, r.1 ≠ p.username :=
  hs.free.imp_right fun hfree r hr heq => hfree (heq ▸ h.codes r hr)

theorem Linked.codesOf_tables (h : Linked db) (hs : Succeeds first db p) :
    (p.tables db).codesOf p.username = db.codesOf p.old := filter_rename (h.codes_free hs)

/-- The users of the other names. -/
theorem ne_of_other {v : User} (hs : Succeeds first db p) (hv : v ∈ db.users)
    (hne : v.username ≠ p.old) : v.username ≠ p.username := by
  obtain heq | hfree := hs.free
  · rwa [heq]
  · exact fun heq => hfree (heq ▸ List.mem_map_of_mem hv)

theorem codesOf_tables_of_ne (hold : name ≠ p.old) (hnew : name ≠ p.username) :
    (p.tables db).codesOf name = db.codesOf name :=
  congrArg (List.map Prod.snd) (filter_rename_of_ne hold hnew)

/-- The recovery codes after the second transaction. -/
def newCodes (second : Env) (hashpw : String → String) (db : Tables) (name : String)
    (codes : List String) : List (String × String) :=
  if second.carries then
    db.recoveryCodes.filter (·.1 ≠ name) ++ codes.map fun code => (name, hashpw code)
  else db.recoveryCodes

theorem changeRecoveryCodes_eq (hname : name ∈ db.users.map User.username)
    (codes : Option (List String)) :
    db.changeRecoveryCodes second hashpw name codes =
      { db with recoveryCodes := newCodes second hashpw db name (codes.getD []) } := by
  unfold Tables.changeRecoveryCodes newCodes
  cases codes.getD [] with
  | nil =>
    dsimp only
    rw [deleteUiUserRecoveryCodes_snd]
    split
    · rw [List.map_nil, List.append_nil]
    · rfl
  | cons code codes =>
    dsimp only
    rw [refreshUiUserRecoveryCodes_snd hname (List.cons_ne_nil code codes)]
    split <;> rfl

/-- The codes of the user, and those of the others. -/
theorem codesOf_newCodes (hcarries : second.carries = true) (db : Tables) (name other : String)
    (codes : List String) :
    ({ db with recoveryCodes := newCodes second hashpw db name codes } : Tables).codesOf other =
      if other = name then codes.map hashpw else db.codesOf other := by
  unfold Tables.codesOf newCodes
  rw [if_pos hcarries, List.filter_append, List.filter_filter, List.map_append]
  split
  next heq =>
    have hall : (codes.map fun code => (name, hashpw code)).filter (·.1 = other) =
        codes.map fun code => (name, hashpw code) := by
      rw [List.filter_eq_self]
      simp [heq]
    have hnone : db.recoveryCodes.filter (fun r => decide (r.1 = other) && decide (r.1 ≠ name)) =
        [] := by
      rw [List.filter_eq_nil_iff]
      simp [heq]
    rw [hall, hnone, List.map_map]
    rfl
  next hne =>
    have hnone : (codes.map fun code => (name, hashpw code)).filter (·.1 = other) = [] := by
      rw [List.filter_eq_nil_iff]
      simpa using fun _ _ => Ne.symm hne
    have hkept : db.recoveryCodes.filter (fun r => decide (r.1 = other) && decide (r.1 ≠ name)) =
        db.recoveryCodes.filter (·.1 = other) := by
      refine List.filter_congr fun r _ => ?_
      by_cases h : r.1 = other <;> simp [h, hne]
    rw [hnone, hkept]
    exact List.append_nil _

/-- **A call that is carried out** for a user. -/
theorem updateUiUser_done (second : Env) (hashpw : String → String) (h : Linked db)
    (hs : Succeeds first db p) (hu : u ∈ db.users) (hold : u.username = p.old) :
    ∃ codes, db.updateUiUser first second hashpw p =
        ("", { p.tables db with recoveryCodes := codes }) ∧
      ({ p.tables db with recoveryCodes := codes } : Tables).codesOf p.username =
        codesAfter second hashpw db u p ∧
      ∀ v ∈ db.users, v.username ≠ u.username →
        ({ p.tables db with recoveryCodes := codes } : Tables).codesOf v.username =
          db.codesOf v.username := by
  have hsave := saveUiUser_done h hs hu hold
  have hkept : (p.tables db).codesOf p.username = db.codesOf u.username := by
    rw [hold]
    exact h.codesOf_tables hs
  have hothers : ∀ v ∈ db.users, v.username ≠ u.username →
      v.username ≠ p.username ∧ (p.tables db).codesOf v.username = db.codesOf v.username := by
    intro v hv hne
    rw [hold] at hne
    exact ⟨ne_of_other hs hv hne, codesOf_tables_of_ne hne (ne_of_other hs hv hne)⟩
  have hname : p.username ∈ (p.tables db).users.map User.username :=
    List.mem_map.mpr ⟨p.apply u, List.mem_map.mpr ⟨u, hu, if_pos hold⟩, rfl⟩
  unfold Tables.updateUiUser codesAfter
  rw [hsave]
  by_cases hchanged : u.totpSecret ≠ p.totpSecret
  · refine ⟨newCodes second hashpw (p.tables db) p.username (p.totpRecoveryCodes.getD []),
      ?_, ?_, fun v hv hne => ?_⟩
    · simp only [decide_eq_true hchanged, if_true, changeRecoveryCodes_eq hname]
    · by_cases hcarries : second.carries = true
      · rw [codesOf_newCodes hcarries, if_pos rfl, if_pos ⟨hchanged, hcarries⟩]
      · rw [if_neg fun h => hcarries h.2]
        simpa only [newCodes, if_neg hcarries] using hkept
    · by_cases hcarries : second.carries = true
      · rw [codesOf_newCodes hcarries, if_neg (hothers v hv hne).1]
        exact (hothers v hv hne).2
      · simpa only [newCodes, if_neg hcarries] using (hothers v hv hne).2
  · refine ⟨(p.tables db).recoveryCodes, ?_, ?_, fun v hv hne => (hothers v hv hne).2⟩
    · simp [hchanged]
    · rw [if_neg fun h => hchanged h.1]
      exact hkept

end

end BunkerWeb.Ui.Accounts
