import BunkerWeb.Ui.Accounts

/-!
# What changes an account (`login.py`, `main.py`, `profile.py`, `gunicorn.conf.py`)

Eight callers of `update_ui_user`. A route of the profile checks the form first, and calls it only
when everything is right. At the start the administrator is read once, and brought to the credentials
of the environment in up to two calls.

- **The callers** (`login` to `credentials`): each gives the arguments of its call, or the message
  with which it is refused.
- **What they are for** (`Operation.wanted`): the row with the change that is asked for, and nothing
  else.
-/

namespace BunkerWeb.Ui.Accounts

open BunkerWeb.Db (Method)

/-- The functions on passwords. -/
structure Checks where
  checkPassword : String → String → Bool
  /-- `USER_PASSWORD_RX.match`. -/
  passwordRx : String → Bool
  exceedsBcryptLimit : String → Bool
  genPasswordHash : String → String
  isBcryptHash : String → Bool
  bcryptCost : String → Nat
  /-- `TOTP.verify_totp` or `TOTP.verify_recovery_code`. -/
  verifyToken : String → Bool

/-- `MIN_BCRYPT_COST`. -/
def minBcryptCost : Nat := 10

/-- The fields of a form, as far as they are there. -/
structure Form where
  username : Option String := none
  email : Option String := none
  password : Option String := none
  newPassword : Option String := none
  newPasswordConfirm : Option String := none
  theme : Option String := none
  totpToken : Option String := none

/-- The message of a form that lacks a field that is read. -/
def badRequest : String := "Bad Request"

def readonlyMode : String := "Database is in read-only mode"

/-- The codes of `SUPPORTED_LANGUAGES`. -/
def supportedLanguages : List String :=
  ["en", "zh", "hi", "es", "ar", "fr", "bn", "pt", "br", "ru", "ur", "de", "ko", "tw", "tr", "it",
    "pl", "tl"]

def themes : List String := ["dark", "light"]

/-- The `user_data` of the current user, with `old_username=current_user.get_id()`. -/
def User.data (u : User) : Update where
  username := u.username
  password := u.password
  email := u.email
  totpSecret := u.totpSecret
  method := u.method
  theme := u.theme
  language := u.language
  oldUsername := some u.username

/-- The end of `login_page`, after the user has been logged in. -/
def login (u : User) (theme language : Option String) : Update :=
  let submittedTheme := theme.getD ""
  { u.data with
    theme := if submittedTheme ∈ themes then submittedTheme else u.theme
    language := language.getD "en" }

def setTheme (readonly : Bool) (u : User) (theme : Option String) : Except String Update :=
  if readonly then .error readonlyMode
  else
    match theme with
    | none => .error badRequest
    | some theme => if theme ∉ themes then .error "Bad request" else .ok { u.data with theme }

/-- `set_language`, for a text in lower case. -/
def setLanguage (readonly : Bool) (u : User) (language : Option String) : Except String Update :=
  match language with
  | none => .error badRequest
  | some language =>
    if readonly then .error readonlyMode
    else if language ∉ supportedLanguages then .error "Bad request"
    else .ok { u.data with language }

/-- The current password has to be given. -/
def withPassword (c : Checks) (u : User) (form : Form) (go : Except String Update) :
    Except String Update :=
  match form.password with
  | none => .error badRequest
  | some password =>
    if !c.checkPassword password u.password then .error "The current password is incorrect."
    else go

def editIdentity (u : User) (username : String) (form : Form) : Except String Update :=
  match form.email with
  | none => .error badRequest
  | some email =>
    let newEmail := email ≠ "" ∧ some email ≠ u.email
    let newUsername := username ≠ "" ∧ username ≠ u.username
    if newEmail ∧ 256 < email.length then
      .error "The email is too long. It must be less than 256 characters."
    else if newUsername ∧ 256 < username.length then
      .error "The username is too long. It must be less than 256 characters."
    else if email = u.email.getD "" ∧ username = u.username then
      .error "The username and email are the same as the current ones."
    else .ok { u.data with
      email := if newEmail then some email else u.email
      username := if newUsername then username else u.username }

def editPassword (c : Checks) (u : User) (newPassword : String) (form : Form) :
    Except String Update :=
  match form.newPasswordConfirm with
  | none => .error badRequest
  | some confirm =>
    if newPassword ≠ confirm then .error "The passwords do not match the confirm password."
    else if !c.passwordRx newPassword then
      .error "The new password is not strong enough. It must contain at least 8 characters, including at least 1 uppercase letter, 1 lowercase letter, 1 number and 1 special character (#@?!$%^&*-)."
    else if c.exceedsBcryptLimit newPassword then
      .error "The new password is too long. It must not exceed 72 bytes (bcrypt's hard limit); accented or emoji characters count as several bytes each."
    else if c.checkPassword newPassword u.password then
      .error "The new password is the same as the current one."
    else .ok { u.data with password := c.genPasswordHash newPassword }

def editProfile (c : Checks) (readonly : Bool) (u : User) (form : Form) : Except String Update :=
  if readonly then .error readonlyMode
  else
    match form.username, form.newPassword, form.theme with
    | some username, _, _ => withPassword c u form (editIdentity u username form)
    | none, some newPassword, _ => withPassword c u form (editPassword c u newPassword form)
    | none, none, some theme =>
      if theme ∉ themes then .error "The theme is invalid." else .ok { u.data with theme }
    | none, none, none => .error "No fields were updated."

/-- The token has to be right. -/
def withToken (c : Checks) (form : Form) (p : Update) : Except String Update :=
  match form.totpToken with
  | none => .error badRequest
  | some token => if !c.verifyToken token then .error "The totp token is invalid." else .ok p

def totpDisable (c : Checks) (readonly : Bool) (u : User) (form : Form) : Except String Update :=
  if readonly then .error readonlyMode
  else if !u.hasSecret then .error "Two-factor authentication is not enabled."
  else withPassword c u form <| withToken c form
    { username := u.username
      password := u.password
      totpSecret := none
      theme := u.theme
      method := u.method
      language := u.language }

/-- `totp_enable`, with `tmp_totp_secret` of the session and the codes that are generated. -/
def totpEnable (c : Checks) (readonly : Bool) (u : User) (form : Form)
    (tmpTotpSecret : Option String) (codes : List String) : Except String Update :=
  if readonly then .error readonlyMode
  else if u.hasSecret then .error "Two-factor authentication is already enabled."
  else withPassword c u form <| withToken c form
    { username := u.username
      password := u.password
      totpSecret := some (tmpTotpSecret.getD "")
      theme := u.theme
      totpRecoveryCodes := some codes
      method := u.method
      language := u.language }

/-- The call of `on_starting` when the keys for the secrets have changed. -/
def resetTotp (admin : User) : Update where
  username := admin.username
  password := admin.password
  totpSecret := none
  theme := admin.theme
  method := admin.method
  language := admin.language

/-- The environment at the start, with its texts stripped. -/
structure StartEnv where
  adminUsername : String
  adminPassword : String
  overrideAdminCreds : Bool

/-- The password that the administrator is given, if it is another one and good enough. -/
def newPassword (c : Checks) (env : StartEnv) (admin : User) : Option String :=
  let password := env.adminPassword
  if password ≠ "" ∧ c.isBcryptHash password then
    if password ≠ admin.password then
      if c.bcryptCost password < minBcryptCost then none else some password
    else none
  else if password ≠ "" ∧ !c.checkPassword password admin.password then
    if c.exceedsBcryptLimit password then none
    else if !c.passwordRx password then none
    else some (c.genPasswordHash password)
  else none

/-- The call of `on_starting` for the credentials of the environment; none if there is nothing to
do. `admin` is what was read before the secrets were removed. -/
def credentials (c : Checks) (env : StartEnv) (admin : User) : Option Update :=
  if env.adminUsername = "" ∧ env.adminPassword = "" then none
  else if admin.method = .manual ∨ env.overrideAdminCreds then
    let newUsername := env.adminUsername ≠ "" ∧ admin.username ≠ env.adminUsername
    if newUsername ∨ (newPassword c env admin).isSome then
      some
        { username := if newUsername then env.adminUsername else admin.username
          password := (newPassword c env admin).getD admin.password
          totpSecret := admin.totpSecret
          theme := admin.theme
          method := .manual
          language := admin.language }
    else none
  else none

/-! ## Operations -/

/-- What an account goes through. -/
inductive Operation
  | login (theme language : Option String)
  | setTheme (theme : Option String)
  | setLanguage (language : Option String)
  | editProfile (form : Form)
  | totpEnable (form : Form) (tmpTotpSecret : Option String) (codes : List String)
  | totpDisable (form : Form)
  | resetTotp
  /-- The secret is the one that was read at the start. -/
  | credentials (env : StartEnv) (totpSecret : Option String)

namespace Operation

/-- The arguments with which `update_ui_user` is called, or the message of a refusal. -/
def call (c : Checks) (readonly : Bool) (u : User) : Operation → Except String Update
  | .login theme language => .ok (Accounts.login u theme language)
  | .setTheme theme => Accounts.setTheme readonly u theme
  | .setLanguage language => Accounts.setLanguage readonly u language
  | .editProfile form => Accounts.editProfile c readonly u form
  | .totpEnable form tmpTotpSecret codes =>
    Accounts.totpEnable c readonly u form tmpTotpSecret codes
  | .totpDisable form => Accounts.totpDisable c readonly u form
  | .resetTotp => .ok (Accounts.resetTotp u)
  | .credentials env totpSecret =>
    match Accounts.credentials c env { u with totpSecret } with
    | some p => .ok p
    | none => .error ""

end Operation

/-- What an operation reports. -/
inductive Report
  | rejected (message : String)
  | failed (error : String)
  | done
  deriving DecidableEq, Repr

/-- What a call of `update_ui_user` leads to. -/
structure World where
  checks : Checks
  /-- `DB.readonly`, when the route asks. -/
  readonly : Bool
  first : Env
  second : Env
  hashpw : String → String

/-- An operation on the account of `u`. -/
def Operation.run (w : World) (db : Tables) (u : User) (op : Operation) : Report × Tables :=
  match op.call w.checks w.readonly u with
  | .error message => (.rejected message, db)
  | .ok p =>
    let (error, db) := db.updateUiUser w.first w.second w.hashpw p
    (if error = "" then .done else .failed error, db)

/-! ## What the operations are for -/

/-- The row with the change that the operation is about. -/
def Operation.wanted (c : Checks) (u : User) : Operation → User
  | .login theme language =>
    { u with
      theme := if theme.getD "" ∈ themes then theme.getD "" else u.theme
      language := language.getD u.language }
  | .setTheme theme => { u with theme := theme.getD u.theme }
  | .setLanguage language => { u with language := language.getD u.language }
  | .editProfile form =>
    match form.username, form.newPassword, form.theme with
    | some username, _, _ =>
      { u with
        username := if username = "" then u.username else username
        email := form.email.filter (· ≠ "") }
    | none, some newPassword, _ => { u with password := c.genPasswordHash newPassword }
    | none, none, theme => { u with theme := theme.getD u.theme }
  | .totpEnable _ tmpTotpSecret _ => { u with totpSecret := some (tmpTotpSecret.getD "") }
  | .totpDisable _ => { u with totpSecret := none }
  | .resetTotp => { u with totpSecret := none }
  | .credentials env _ =>
    { u with
      username := if env.adminUsername = "" then u.username else env.adminUsername
      password := (newPassword c env u).getD u.password
      method := .manual }

/-- The recovery codes that the operation leaves. -/
def Operation.wantedCodes (hashpw : String → String) (codes : List String) :
    Operation → List String
  | .totpEnable _ _ generated => generated.map hashpw
  | .totpDisable _ => []
  | .resetTotp => []
  | _ => codes

/-- The row of the user after the operation. -/
def Operation.row (c : Checks) (u : User) (report : Report) (op : Operation) : User :=
  if report = .done then op.wanted c u else u

/-- Of the account `u`, what the operation is about is changed if it reports success, and nothing
else is; the rows that name the user go with the name; and there are recovery codes only if there is
a secret. -/
structure Proper (w : World) (db : Tables) (u : User) (op : Operation) (report : Report)
    (after : Tables) : Prop where
  users : after.users = db.users.map fun v =>
    if v.username = u.username then op.row w.checks u report else v
  roles : after.roles = rename u.username (op.row w.checks u report).username db.roles
  sessions : after.sessions = rename u.username (op.row w.checks u report).username db.sessions
  columnsPreferences : after.columnsPreferences =
    rename u.username (op.row w.checks u report).username db.columnsPreferences
  codes : after.codesOf (op.row w.checks u report).username =
    if report = .done then op.wantedCodes w.hashpw (db.codesOf u.username)
    else db.codesOf u.username
  otherCodes : ∀ v ∈ db.users, v.username ≠ u.username →
    after.codesOf v.username = db.codesOf v.username
  secret : after.codesOf (op.row w.checks u report).username ≠ [] →
    (op.row w.checks u report).hasSecret = true

end BunkerWeb.Ui.Accounts
