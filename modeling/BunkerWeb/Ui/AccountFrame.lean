import BunkerWeb.Ui.AccountRoutes

/-!
# When an account is changed as it should be

- **The condition** (`Safe`): of a call that is carried out, that it finds the user (`Finds`), hands
  over the fields it is not about (`Keeps`), and that the recovery codes follow (`CodesArrive`,
  `Guarded`).
- **The result** (`proper_iff`): enabling and disabling the two-factor authentication drop the
  e-mail, as do the calls at the start; and those look for the administrator under the new name.
-/

namespace BunkerWeb.Ui.Accounts

/-! ## The condition -/

/-- There are recovery codes only if there is a secret. -/
def Consistent (db : Tables) (u : User) : Prop := db.codesOf u.username ≠ [] → u.hasSecret = true

instance (db : Tables) (u : User) : Decidable (Consistent db u) :=
  inferInstanceAs (Decidable (_ → _))

namespace Operation

/-- The call looks for the user under the name that is stored. -/
def Finds (u : User) : Operation → Prop
  | .editProfile form => u.username = "" → form.username.getD "" = ""
  | .credentials env _ => env.adminUsername = "" ∨ env.adminUsername = u.username
  | _ => True

/-- The fields that the operation is not about keep their values, and those that it is about get the
values that are asked for. -/
def Keeps (u : User) : Operation → Prop
  | .login _ language => language.isSome = true ∨ u.language = "en"
  | .setTheme _ => True
  | .setLanguage _ => True
  | .editProfile form => form.username.isSome = true → form.email = some "" → u.email = none
  | .totpEnable _ _ _ => u.email = none
  | .totpDisable _ => u.email = none
  | .resetTotp => u.email = none
  | .credentials _ totpSecret => u.email = none ∧ totpSecret = u.totpSecret

/-- The recovery codes that the operation is about are changed. -/
def CodesArrive (w : World) (db : Tables) (u : User) : Operation → Prop
  | .totpEnable _ tmpTotpSecret codes =>
    u.totpSecret ≠ some (tmpTotpSecret.getD "") ∧ w.second.carries = true ∨
      db.codesOf u.username = codes.map w.hashpw
  | .totpDisable _ => w.second.carries = true ∨ db.codesOf u.username = []
  | .resetTotp =>
    u.totpSecret ≠ none ∧ w.second.carries = true ∨ db.codesOf u.username = []
  | _ => True

/-- Where there are recovery codes afterwards, there is a secret. -/
def Guarded (db : Tables) (u : User) : Operation → Prop
  | .totpEnable _ tmpTotpSecret codes => codes = [] ∨ tmpTotpSecret.getD "" ≠ ""
  | .totpDisable _ => True
  | .resetTotp => True
  | _ => Consistent db u

end Operation

/-- Either the call is carried out, and finds the user, hands over the other fields and brings the
recovery codes; or nothing happens to a user who has recovery codes only with a secret. -/
structure Safe (w : World) (db : Tables) (u : User) (op : Operation) : Prop where
  carried : ∀ p, op.call w.checks w.readonly u = .ok p → Succeeds w.first db p →
    op.Finds u ∧ op.Keeps u ∧ op.CodesArrive w db u ∧ op.Guarded db u
  refused : (∀ p, op.call w.checks w.readonly u = .ok p → ¬Succeeds w.first db p) →
    Consistent db u

/-! ## The calls -/

section

variable {w : World} {c : Checks} {readonly : Bool} {db : Tables} {u : User} {op : Operation}
  {p : Update} {form : Form}

theorem call_withPassword {go : Except String Update} (h : withPassword c u form go = .ok p) :
    go = .ok p := by
  unfold withPassword at h
  split at h
  next => cases h
  next =>
    split at h
    next => cases h
    next => exact h

theorem call_withToken {q : Update} (h : withToken c form q = .ok p) : q = p := by
  unfold withToken at h
  split at h
  next => cases h
  next =>
    split at h
    next => cases h
    next => exact Except.ok.inj h

theorem editIdentity_ok {username : String} (h : editIdentity u username form = .ok p) :
    ∃ email, form.email = some email ∧ p = { u.data with
      email := if email ≠ "" ∧ some email ≠ u.email then some email else u.email
      username := if username ≠ "" ∧ username ≠ u.username then username else u.username } := by
  unfold editIdentity at h
  split at h
  next => cases h
  next email hemail =>
    refine ⟨email, hemail, ?_⟩
    dsimp only at h
    split at h
    next => cases h
    next =>
      split at h
      next => cases h
      next =>
        split at h
        next => cases h
        next => exact (Except.ok.inj h).symm

theorem editPassword_ok {newPassword : String} (h : editPassword c u newPassword form = .ok p) :
    p = { u.data with password := c.genPasswordHash newPassword } := by
  unfold editPassword at h
  split at h
  next => cases h
  next =>
    split at h
    next => cases h
    next =>
      split at h
      next => cases h
      next =>
        split at h
        next => cases h
        next =>
          split at h
          next => cases h
          next => exact (Except.ok.inj h).symm

theorem setTheme_ok {theme : Option String} (h : setTheme readonly u theme = .ok p) :
    ∃ theme', theme = some theme' ∧ p = { u.data with theme := theme' } := by
  unfold setTheme at h
  split at h
  next => cases h
  next =>
    split at h
    next => cases h
    next theme' =>
      split at h
      next => cases h
      next => exact ⟨theme', rfl, (Except.ok.inj h).symm⟩

theorem setLanguage_ok {language : Option String} (h : setLanguage readonly u language = .ok p) :
    ∃ language', language = some language' ∧ p = { u.data with language := language' } := by
  unfold setLanguage at h
  split at h
  next => cases h
  next language' =>
    split at h
    next => cases h
    next =>
      split at h
      next => cases h
      next => exact ⟨language', rfl, (Except.ok.inj h).symm⟩

theorem editProfile_ok (h : editProfile c readonly u form = .ok p) :
    (∃ username email, form.username = some username ∧ form.email = some email ∧
      p = { u.data with
        email := if email ≠ "" ∧ some email ≠ u.email then some email else u.email
        username := if username ≠ "" ∧ username ≠ u.username then username else u.username }) ∨
    (∃ newPassword, form.username = none ∧ form.newPassword = some newPassword ∧
      p = { u.data with password := c.genPasswordHash newPassword }) ∨
    ∃ theme, form.username = none ∧ form.newPassword = none ∧ form.theme = some theme ∧
      p = { u.data with theme } := by
  unfold editProfile at h
  split at h
  next => cases h
  next =>
    cases husername : form.username with
    | some username =>
      rw [husername] at h
      obtain ⟨email, hemail, hp⟩ := editIdentity_ok (call_withPassword h)
      exact .inl ⟨username, email, rfl, hemail, hp⟩
    | none =>
      cases hnew : form.newPassword with
      | some newPassword =>
        rw [husername, hnew] at h
        exact .inr (.inl ⟨newPassword, rfl, rfl, editPassword_ok (call_withPassword h)⟩)
      | none =>
        cases htheme : form.theme with
        | some theme =>
          rw [husername, hnew, htheme] at h
          dsimp only at h
          split at h
          next => cases h
          next => exact .inr (.inr ⟨theme, rfl, rfl, rfl, (Except.ok.inj h).symm⟩)
        | none =>
          rw [husername, hnew, htheme] at h
          cases h

theorem totpDisable_ok (h : totpDisable c readonly u form = .ok p) :
    u.hasSecret = true ∧ p =
      { username := u.username
        password := u.password
        totpSecret := none
        theme := u.theme
        method := u.method
        language := u.language } := by
  unfold totpDisable at h
  split at h
  next => cases h
  next =>
    split at h
    next => cases h
    next hsecret =>
      exact ⟨by simpa using hsecret, (call_withToken (call_withPassword h)).symm⟩

theorem totpEnable_ok {tmpTotpSecret : Option String} {codes : List String}
    (h : totpEnable c readonly u form tmpTotpSecret codes = .ok p) :
    p =
      { username := u.username
        password := u.password
        totpSecret := some (tmpTotpSecret.getD "")
        theme := u.theme
        totpRecoveryCodes := some codes
        method := u.method
        language := u.language } := by
  unfold totpEnable at h
  split at h
  next => cases h
  next =>
    split at h
    next => cases h
    next => exact (call_withToken (call_withPassword h)).symm

/-- The password of the environment does not depend on the secret that was read. -/
theorem newPassword_with (env : StartEnv) (totpSecret : Option String) :
    newPassword c env { u with totpSecret } = newPassword c env u := rfl

theorem credentials_ok {env : StartEnv} {totpSecret : Option String}
    (h : credentials c env { u with totpSecret } = some p) :
    p =
      { username := if env.adminUsername = "" then u.username else env.adminUsername
        password := (newPassword c env u).getD u.password
        totpSecret
        theme := u.theme
        method := .manual
        language := u.language } := by
  unfold credentials at h
  split at h
  next => cases h
  next =>
    split at h
    next =>
      dsimp only at h
      split at h
      next =>
        rw [← Option.some.inj h, newPassword_with]
        by_cases hempty : env.adminUsername = ""
        · simp [hempty]
        · by_cases hsame : u.username = env.adminUsername
          · simp [hsame]
          · simp [hempty, hsame]
      next => cases h
    next => cases h

theorem call_credentials {env : StartEnv} {totpSecret : Option String}
    (h : (Operation.credentials env totpSecret).call c readonly u = .ok p) :
    p =
      { username := if env.adminUsername = "" then u.username else env.adminUsername
        password := (newPassword c env u).getD u.password
        totpSecret
        theme := u.theme
        method := .manual
        language := u.language } := by
  simp only [Operation.call] at h
  split at h
  next q hq =>
    refine credentials_ok (hq.trans ?_)
    rw [Except.ok.inj h]
  next => cases h

/-! ## The row -/

/-- A call with the data of the user finds it under a name that is not empty. -/
theorem old_data (p : Update) (hold : p.oldUsername = some u.username) :
    p.old = if u.username = "" then p.username else u.username := by
  unfold Update.old
  rw [hold]
  by_cases h : u.username = "" <;> simp [Option.filter, h]

theorem old_of_data (hold : p.oldUsername = some u.username) (hname : p.username = u.username) :
    p.old = u.username := by
  rw [old_data p hold, hname]
  exact ite_self _

/-- The call names the stored user if and only if the operation finds it; and if it does, the row is
the wanted one if and only if the operation keeps the other fields. -/
theorem call_row (h : op.call c readonly u = .ok p) :
    (p.old = u.username ↔ op.Finds u) ∧
      (op.Finds u → (p.apply u = op.wanted c u ↔ op.Keeps u)) := by
  cases op with
  | login theme language =>
    obtain rfl := Except.ok.inj h
    refine ⟨?_, fun _ => ?_⟩
    · exact iff_of_true (old_of_data rfl rfl) trivial
    · cases language <;>
        simp [login, User.data, Update.apply, Operation.wanted, Operation.Keeps, eq_comm]
  | setTheme theme =>
    obtain ⟨theme, rfl, rfl⟩ := setTheme_ok h
    refine ⟨?_, fun _ => ?_⟩
    · exact iff_of_true (old_of_data rfl rfl) trivial
    · simp [User.data, Update.apply, Operation.wanted, Operation.Keeps]
  | setLanguage language =>
    obtain ⟨language, rfl, rfl⟩ := setLanguage_ok h
    refine ⟨?_, fun _ => ?_⟩
    · exact iff_of_true (old_of_data rfl rfl) trivial
    · simp [User.data, Update.apply, Operation.wanted, Operation.Keeps]
  | editProfile form =>
    rcases editProfile_ok h with ⟨username, email, husername, hemail, rfl⟩ |
      ⟨newPassword, husername, hnew, rfl⟩ | ⟨theme, husername, hnew, htheme, rfl⟩
    · refine ⟨?_, fun _ => ?_⟩
      · rw [old_data _ rfl]
        by_cases hempty : u.username = ""
        · by_cases hname : username = "" <;>
            simp [hempty, hname, husername, Operation.Finds]
        · simp [hempty, Operation.Finds]
      · have hname : (if username ≠ "" ∧ username ≠ u.username then username else u.username) =
            if username = "" then u.username else username := by
          by_cases hempty : username = ""
          · simp [hempty]
          · by_cases hsame : username = u.username <;> simp [hempty, hsame]
        have hmail : (if email ≠ "" ∧ some email ≠ u.email then some email else u.email) =
            if email = "" then u.email else some email := by
          by_cases hempty : email = ""
          · simp [hempty]
          · by_cases hsame : some email = u.email <;> simp [hempty, hsame]
        simp only [User.data, Update.apply, Operation.wanted, Operation.Keeps, husername, hemail,
          hname, hmail]
        by_cases hempty : email = ""
        · simp [hempty, Option.filter]
        · simp [hempty, Option.filter]
    · refine ⟨?_, fun _ => ?_⟩
      · exact iff_of_true (old_of_data rfl rfl) (by simp [Operation.Finds, husername])
      · simp [User.data, Update.apply, Operation.wanted, Operation.Keeps, husername, hnew]
    · refine ⟨?_, fun _ => ?_⟩
      · exact iff_of_true (old_of_data rfl rfl) (by simp [Operation.Finds, husername])
      · simp [User.data, Update.apply, Operation.wanted, Operation.Keeps, husername, hnew, htheme]
  | totpEnable form tmpTotpSecret codes =>
    obtain rfl := totpEnable_ok h
    refine ⟨by simp [Update.old, Operation.Finds], fun _ => ?_⟩
    cases u
    simp [Update.apply, Operation.wanted, Operation.Keeps, eq_comm]
  | totpDisable form =>
    obtain ⟨-, rfl⟩ := totpDisable_ok h
    refine ⟨by simp [Update.old, Operation.Finds], fun _ => ?_⟩
    cases u
    simp [Update.apply, Operation.wanted, Operation.Keeps, eq_comm]
  | resetTotp =>
    obtain rfl := Except.ok.inj h
    refine ⟨by simp [resetTotp, Update.old, Operation.Finds], fun _ => ?_⟩
    cases u
    simp [resetTotp, Update.apply, Operation.wanted, Operation.Keeps, eq_comm]
  | credentials env totpSecret =>
    obtain rfl := call_credentials h
    constructor
    · by_cases hempty : env.adminUsername = "" <;> simp [Update.old, Operation.Finds, hempty]
    · intro _
      cases u
      simp only [Update.apply, Operation.wanted, Operation.Keeps, User.mk.injEq, true_and]
      exact and_congr_left' eq_comm

/-- An operation that does not find the user is about another name. -/
theorem wanted_of_not_finds (h : ¬op.Finds u) : (op.wanted c u).username ≠ u.username := by
  cases op with
  | editProfile form =>
    simp only [Operation.Finds, Classical.not_imp] at h
    obtain ⟨hempty, hname⟩ := h
    cases husername : form.username with
    | none => simp [husername] at hname
    | some username =>
      rw [husername, Option.getD_some] at hname
      simp [Operation.wanted, husername, hname, hempty]
  | credentials env totpSecret =>
    simp only [Operation.Finds, not_or] at h
    simpa [Operation.wanted, h.1] using h.2
  | _ => exact absurd trivial h

/-! ## The recovery codes -/

/-- A secret that stays keeps its codes. -/
theorem codesAfter_of_eq {second : Env} {hashpw : String → String}
    (h : u.totpSecret = p.totpSecret) : codesAfter second hashpw db u p = db.codesOf u.username :=
  if_neg fun hchanged => hchanged.1 h

theorem call_codes (h : op.call c readonly u = .ok p) (hkeeps : op.Keeps u) :
    codesAfter w.second w.hashpw db u p = op.wantedCodes w.hashpw (db.codesOf u.username) ↔
      op.CodesArrive w db u := by
  cases op with
  | login theme language =>
    obtain rfl := Except.ok.inj h
    exact iff_of_true (codesAfter_of_eq rfl) trivial
  | setTheme theme =>
    obtain ⟨theme, -, rfl⟩ := setTheme_ok h
    exact iff_of_true (codesAfter_of_eq rfl) trivial
  | setLanguage language =>
    obtain ⟨language, -, rfl⟩ := setLanguage_ok h
    exact iff_of_true (codesAfter_of_eq rfl) trivial
  | editProfile form =>
    refine iff_of_true (codesAfter_of_eq ?_) trivial
    rcases editProfile_ok h with ⟨_, _, _, _, rfl⟩ | ⟨_, _, _, rfl⟩ | ⟨_, _, _, _, rfl⟩ <;> rfl
  | totpEnable form tmpTotpSecret codes =>
    obtain rfl := totpEnable_ok h
    simp only [codesAfter, Operation.wantedCodes, Operation.CodesArrive, Option.getD_some]
    split
    next hchanged => simp [hchanged]
    next hsame => simp only [hsame, false_or]
  | totpDisable form =>
    obtain ⟨hsecret, rfl⟩ := totpDisable_ok h
    have hchanged : u.totpSecret ≠ none := by
      intro hnone
      simp [User.hasSecret, hnone] at hsecret
    simp only [codesAfter, Operation.wantedCodes, Operation.CodesArrive, hchanged, ne_eq,
      not_false_eq_true, true_and, Option.getD_none, List.map_nil]
    by_cases hcarries : w.second.carries = true <;> simp [hcarries]
  | resetTotp =>
    obtain rfl := Except.ok.inj h
    simp only [codesAfter, resetTotp, Operation.wantedCodes, Operation.CodesArrive,
      Option.getD_none, List.map_nil]
    split
    next hchanged => simp [hchanged]
    next hsame => simp only [hsame, false_or]
  | credentials env totpSecret =>
    obtain rfl := call_credentials h
    exact iff_of_true (codesAfter_of_eq hkeeps.2.symm) trivial

/-- The codes that are wanted go with a secret. -/
theorem guarded_iff (db : Tables) (hashpw : String → String) :
    (op.wantedCodes hashpw (db.codesOf u.username) ≠ [] → (op.wanted c u).hasSecret = true) ↔
      op.Guarded db u := by
  cases op with
  | totpEnable form tmpTotpSecret codes =>
    simp only [Operation.wantedCodes, Operation.wanted, Operation.Guarded, User.hasSecret]
    rw [← or_iff_not_imp_left]
    simp
  | totpDisable form => simp [Operation.wantedCodes, Operation.Guarded]
  | resetTotp => simp [Operation.wantedCodes, Operation.Guarded]
  | editProfile form =>
    have hsecret : ((Operation.editProfile form).wanted c u).hasSecret = u.hasSecret := by
      simp only [Operation.wanted]
      split <;> rfl
    rw [hsecret]
    rfl
  | _ => exact Iff.rfl

/-! ## The result -/

/-- When nothing has happened, what is left to show is about the user alone. -/
theorem proper_unchanged (hlinked : Linked db) (hu : u ∈ db.users) {report : Report}
    (h : report ≠ .done) : Proper w db u op report db ↔ Consistent db u := by
  have hrow : op.row w.checks u report = u := if_neg h
  constructor
  · intro hproper
    have hsecret := hproper.secret
    rwa [hrow] at hsecret
  · intro hconsistent
    refine ⟨?_, ?_, ?_, ?_, ?_, fun _ _ _ => rfl, ?_⟩
    · refine ((List.map_congr_left fun v hv => ?_).trans (List.map_id db.users)).symm
      split
      next heq => exact hrow.trans (List.inj_on_of_nodup_map hlinked.unique hv hu heq).symm
      next => rfl
    · rw [hrow, rename_self]
    · rw [hrow, rename_self]
    · rw [hrow, rename_self]
    · rw [hrow, if_neg h]
    · rwa [hrow]

/-- The report of an operation that is carried out is about a row that is wanted. -/
theorem proper_done (hlinked : Linked db) (hu : u ∈ db.users)
    (hcall : op.call w.checks w.readonly u = .ok p) (hs : Succeeds w.first db p) :
    Proper w db u op .done (db.updateUiUser w.first w.second w.hashpw p).2 ↔
      op.Finds u ∧ op.Keeps u ∧ op.CodesArrive w db u ∧ op.Guarded db u := by
  have hrow : op.row w.checks u .done = op.wanted w.checks u := if_pos rfl
  obtain ⟨hfinds, hkeeps⟩ := call_row hcall
  obtain ⟨v, hv, hname⟩ := List.mem_map.mp hs.exists_old
  obtain ⟨codes, hupdate, hcodes, hothers⟩ :=
    updateUiUser_done w.second w.hashpw hlinked hs hv hname
  rw [hupdate]
  by_cases hold : p.old = u.username
  · obtain rfl : v = u := List.inj_on_of_nodup_map hlinked.unique hv hu (hname.trans hold)
    have hfound := hfinds.mp hold
    constructor
    · intro hproper
      have hwanted : p.apply v = op.wanted w.checks v := by
        have husers := List.map_inj_left.mp hproper.users v hv
        rwa [if_pos hname, if_pos rfl, hrow] at husers
      have hkept := (hkeeps hfound).mp hwanted
      have huser : (op.wanted w.checks v).username = p.username :=
        congrArg User.username hwanted.symm
      have hproperCodes := hproper.codes
      rw [hrow, huser, hcodes, if_pos rfl] at hproperCodes
      have hsecret := hproper.secret
      rw [hrow, huser, hcodes, hproperCodes] at hsecret
      exact ⟨hfound, hkept, (call_codes hcall hkept).mp hproperCodes,
        (guarded_iff db w.hashpw).mp hsecret⟩
    · rintro ⟨-, hkept, harrive, hguarded⟩
      have hwanted := (hkeeps hfound).mpr hkept
      have huser : (op.wanted w.checks v).username = p.username :=
        congrArg User.username hwanted.symm
      have hwantedCodes := (call_codes hcall hkept).mpr harrive
      refine ⟨?_, ?_, ?_, ?_, ?_, hothers, ?_⟩
      · refine List.map_congr_left fun v' hv' => ?_
        rw [hrow, ← hname]
        by_cases heq : v'.username = v.username
        · rw [if_pos heq, if_pos heq, List.inj_on_of_nodup_map hlinked.unique hv' hv heq, hwanted]
        · rw [if_neg heq, if_neg heq]
      · rw [hrow, huser, hname]
        rfl
      · rw [hrow, huser, hname]
        rfl
      · rw [hrow, huser, hname]
        rfl
      · rw [hrow, huser, if_pos rfl, hcodes, hwantedCodes]
      · rw [hrow, huser, hcodes, hwantedCodes]
        exact (guarded_iff db w.hashpw).mpr hguarded
  · -- Another user has been found: the row that is asked for is nowhere.
    have hlost : ¬op.Finds u := fun h => hold (hfinds.mpr h)
    refine iff_of_false (fun hproper => ?_) fun h => hlost h.1
    have husers := List.map_inj_left.mp hproper.users u hu
    rw [if_neg fun h => hold h.symm, if_pos rfl, hrow] at husers
    exact wanted_of_not_finds hlost (congrArg User.username husers).symm

end

/-- A user with an e-mail, two-factor authentication and a recovery code. -/
def withMail : User where
  username := "admin"
  email := some "a@b.c"
  password := "hash"
  method := .manual
  admin := true
  theme := "light"
  language := "en"
  totpSecret := some "S"

def oneUser : Tables where
  users := [withMail]
  roles := [("admin", "admin")]
  recoveryCodes := [("admin", "code")]
  sessions := []
  columnsPreferences := []

def writable : Env where
  readonly := false
  commitError := none
  text := nofun

/-- Every password and every token is right. -/
def trusting : World where
  checks :=
    { checkPassword := fun _ _ => true
      passwordRx := fun _ => true
      exceedsBcryptLimit := fun _ => false
      genPasswordHash := id
      isBcryptHash := fun _ => false
      bcryptCost := fun _ => 12
      verifyToken := fun _ => true }
  readonly := false
  first := writable
  second := writable
  hashpw := id

end BunkerWeb.Ui.Accounts
