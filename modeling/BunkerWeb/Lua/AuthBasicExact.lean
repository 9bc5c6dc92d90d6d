import BunkerWeb.Lua.AuthBasicHeader

/-!
# Who passes basic authentication

`AccessExact` says that for a path that a service protects `access` lets a request through exactly
if its header has a user and a password that are configured together for the service.
`accessExact_iff` says when: the configurations were stored and are read, and the scope in effect
(the one of the service if some of its users could be hashed, else the global one) protects the path
and has the users and passwords of the service. Each other outcome lets requests through that have
no header at all.
-/

namespace BunkerWeb.Lua.AuthBasic

open Lib

/-! ## Hashes -/

section

variable {base64 : Base64} {derive : Text → Text → Option Text} {salt : Option Text}
  {a b p q : Text} {entry : Entry}

theorem foldl_diff (l : List (Char × Char)) (diff : UInt32) :
    l.foldl (fun diff e => diff ||| (e.1.val ^^^ e.2.val)) diff = 0 ↔
      diff = 0 ∧ ∀ e ∈ l, e.1 = e.2 := by
  induction l generalizing diff with
  | nil => simp
  | cons e l ih =>
    rw [List.foldl_cons, ih, UInt32.or_eq_zero_iff, UInt32.xor_eq_zero_iff, Char.val_inj,
      List.forall_mem_cons, and_assoc]

theorem eq_of_zip (hlength : a.length = b.length) (h : ∀ e ∈ a.zip b, e.1 = e.2) : a = b := by
  induction a generalizing b with
  | nil => exact (List.length_eq_zero_iff.mp hlength.symm).symm
  | cons c a ih =>
    obtain ⟨d, b, rfl⟩ := List.exists_cons_of_length_eq_add_one hlength.symm
    rw [List.zip_cons_cons, List.forall_mem_cons] at h
    rw [show c = d from h.1, ih (by simpa using hlength) h.2]

theorem constantTimeEquals_iff : constantTimeEquals a b = true ↔ a = b := by
  rw [constantTimeEquals, Bool.and_eq_true, beq_iff_eq, beq_iff_eq, foldl_diff]
  constructor
  · rintro ⟨hlength, -, h⟩
    exact eq_of_zip hlength h
  · rintro rfl
    refine ⟨rfl, rfl, ?_⟩
    intro e he
    rw [List.zip_eq_zipWith, List.zipWith_self] at he
    obtain ⟨c, -, rfl⟩ := List.mem_map.mp he
    rfl

theorem hashPassword_isSome (base64 : Base64) :
    (hashPassword base64 derive salt q).isSome ↔ ∃ s, salt = some s ∧ (derive q s).isSome := by
  cases salt <;> simp [hashPassword]

/-- A candidate is verified if it has the key of the password that was hashed. -/
theorem verifyPassword_hashed (h : hashPassword base64 derive salt q = some entry) :
    verifyPassword base64 derive p entry = some true ↔
      ∃ s, salt = some s ∧ (derive q s).isSome ∧ derive p s = derive q s := by
  obtain ⟨s, rfl, h⟩ := Option.bind_eq_some_iff.mp h
  obtain ⟨key, hkey, rfl⟩ := Option.map_eq_some_iff.mp h
  simp only [verifyPassword, base64.decode_encode, Option.map_eq_some_iff, constantTimeEquals_iff,
    Option.some.injEq, exists_eq_left', hkey, Option.isSome_some, true_and]
  exact ⟨fun ⟨derived, hderived, he⟩ => he ▸ hderived, fun h => ⟨key, h, rfl⟩⟩

end

/-! ## Users of a scope -/

/-- The settings of a scope have the user and the password with one number. -/
def Configured (table : Dict String String) (u p : Text) : Prop :=
  u ≠ [] ∧ p ≠ [] ∧ ∃ number, isNumber number = true ∧
    table.lookup (String.ofList ("AUTH_BASIC_USER".toList ++ number)) = some (String.ofList u) ∧
    table.lookup (String.ofList ("AUTH_BASIC_PASSWORD".toList ++ number)) = some (String.ofList p)

section

variable {names : List String} {name key : String} {number u p : Text}
  {table : Dict String String}

theorem numberOf_eq_some :
    numberOf name key = some number ↔
      key = String.ofList (name.toList ++ number) ∧ isNumber number = true := by
  simp only [numberOf, Option.ite_none_right_eq_some, Option.some.injEq]
  constructor
  · rintro ⟨⟨⟨rest, hrest⟩, hnumber⟩, rfl⟩
    refine ⟨?_, hnumber⟩
    rw [← hrest, List.drop_left, hrest, String.ofList_toList]
  · rintro ⟨rfl, hnumber⟩
    rw [String.toList_ofList, List.drop_left]
    exact ⟨⟨List.prefix_append _ _, hnumber⟩, rfl⟩

/-- `get_multiple_variables` keeps the settings that it is asked for. -/
theorem firstOf_variables (h : ∃ name ∈ names, (numberOf name key).isSome) :
    Dict.firstOf key (getMultipleVariables names table) = table.lookup key := by
  apply Dict.firstOf_eq_of_iff
  intro v
  rw [getMultipleVariables, List.mem_filter, Dict.mem_items, List.any_eq_true]
  exact and_iff_left h

theorem numberOf_append (name : String) (hnumber : isNumber number = true) :
    numberOf name (String.ofList (name.toList ++ number)) = some number :=
  numberOf_eq_some.mpr ⟨rfl, hnumber⟩

theorem firstOf_setting (h : name ∈ settingNames) :
    Dict.firstOf name (getMultipleVariables settingNames table) = table.lookup name := by
  apply firstOf_variables
  refine ⟨name, h, ?_⟩
  have hself : numberOf name (String.ofList (name.toList ++ [])) = some [] := numberOf_append name rfl
  rw [List.append_nil, String.ofList_toList] at hself
  rw [hself]
  rfl

theorem firstOf_password (hnumber : isNumber number = true) :
    Dict.firstOf (String.ofList ("AUTH_BASIC_PASSWORD".toList ++ number))
        (getMultipleVariables settingNames table) =
      table.lookup (String.ofList ("AUTH_BASIC_PASSWORD".toList ++ number)) := by
  apply firstOf_variables
  refine ⟨"AUTH_BASIC_PASSWORD", by simp [settingNames], ?_⟩
  rw [numberOf_append _ hnumber]
  rfl

theorem ofList_ne_empty {text : Text} (h : text ≠ []) : String.ofList text ≠ "" := fun he =>
  h (String.ofList_injective he)

theorem toList_ne_nil {text : String} (h : text ≠ "") : text.toList ≠ [] := fun he =>
  h (String.toList_injective he)

theorem userOf_eq_some {e : String × String} :
    userOf (getMultipleVariables settingNames table) e = some (u, p) ↔
      ∃ number, isNumber number = true ∧
        e = (String.ofList ("AUTH_BASIC_USER".toList ++ number), String.ofList u) ∧ u ≠ [] ∧
        p ≠ [] ∧ table.lookup (String.ofList ("AUTH_BASIC_PASSWORD".toList ++ number)) =
          some (String.ofList p) := by
  unfold userOf
  constructor
  · intro h
    split at h
    next => cases h
    next number hnumber =>
      obtain ⟨hkey, hnumber⟩ := numberOf_eq_some.mp hnumber
      rw [firstOf_password hnumber] at h
      split at h
      next => cases h
      next hvalue =>
        split at h
        next => cases h
        next password hpassword =>
          split at h
          next => cases h
          next hne =>
            cases h
            refine ⟨number, hnumber, Prod.ext hkey String.ofList_toList.symm, toList_ne_nil hvalue,
              toList_ne_nil hne, ?_⟩
            rw [hpassword, String.ofList_toList]
  · rintro ⟨number, hnumber, rfl, hu, hp, hpassword⟩
    simp only [numberOf_append _ hnumber, firstOf_password hnumber, hpassword]
    rw [if_neg (ofList_ne_empty hu), if_neg (ofList_ne_empty hp), String.toList_ofList,
      String.toList_ofList]

/-- The users are those of the settings. -/
theorem mem_usersList :
    (u, p) ∈ usersList (getMultipleVariables settingNames table) ↔ Configured table u p := by
  rw [usersList, List.mem_filterMap, Configured]
  constructor
  · rintro ⟨e, he, h⟩
    obtain ⟨number, hnumber, rfl, hu, hp, hpassword⟩ := userOf_eq_some.mp h
    exact ⟨hu, hp, number, hnumber, Dict.mem_items.mp (List.mem_of_mem_filter he), hpassword⟩
  · rintro ⟨hu, hp, number, hnumber, huser, hpassword⟩
    refine ⟨_, List.mem_filter.mpr ⟨Dict.mem_items.mpr huser, ?_⟩,
      userOf_eq_some.mpr ⟨number, hnumber, rfl, hu, hp, hpassword⟩⟩
    rw [List.any_eq_true]
    refine ⟨"AUTH_BASIC_USER", by simp [settingNames], ?_⟩
    rw [numberOf_append _ hnumber]
    rfl

theorem lookup_extractCredentials {vars : List (String × String)} :
    (extractCredentials vars).lookup u = Dict.lastOf u (usersList vars) := by
  rw [extractCredentials, Dict.lookup_setAll, AList.lookup_empty, Option.or_none]

end

/-! ## The configuration of a scope -/

namespace World

variable (w : World)

/-- The password of a user that `extract_credentials` keeps. -/
def password (scope : Scope) (u : Text) : Option Text :=
  (w.table scope).bind fun table =>
    (extractCredentials (getMultipleVariables settingNames table)).lookup u

/-- The password `q` of the user was hashed with the salt `s`. -/
def HashedWith (scope : Scope) (u q s : Text) : Prop :=
  w.password scope u = some q ∧ w.salt scope u = some s ∧ (w.derive q s).isSome

/-- A password that has the key of the one that was hashed for the user. -/
def Opens (scope : Scope) (u p : Text) : Prop :=
  ∃ q s, w.HashedWith scope u q s ∧ w.derive p s = w.derive q s

/-- Authentication is in use in the scope, and some user could be hashed. -/
def Usable (scope : Scope) : Prop :=
  ∃ table, w.table scope = some table ∧ table.lookup "USE_AUTH_BASIC" = some "yes" ∧
    ∃ u q s, w.HashedWith scope u q s

/-- What `init` has for a scope. -/
def configOf (scope : Scope) : Option Config :=
  (w.table scope).bind fun table => w.config scope table

section

variable {w} {scope : Scope} {table : Dict String String} {raw : Dict Text Text} {u p : Text}
  {config : Config}

theorem mem_hashedUsers {entry : Entry} :
    (u, entry) ∈ w.hashedUsers scope raw ↔
      (raw.lookup u).bind (hashPassword w.base64 w.derive (w.salt scope u)) = some entry := by
  simp only [hashedUsers, List.mem_filterMap, Option.map_eq_some_iff, Option.bind_eq_some_iff,
    Prod.mk.injEq]
  constructor
  · rintro ⟨e, he, entry', hentry, rfl, rfl⟩
    exact ⟨e.2, Dict.mem_items.mp he, hentry⟩
  · rintro ⟨q, hq, hentry⟩
    exact ⟨(u, q), Dict.mem_items.mpr hq, entry, hentry, rfl, rfl⟩

theorem lookup_hashedUsers :
    (Dict.setAll ∅ (w.hashedUsers scope raw)).lookup u =
      (raw.lookup u).bind (hashPassword w.base64 w.derive (w.salt scope u)) := by
  rw [Dict.lookup_setAll, AList.lookup_empty, Option.or_none]
  exact Dict.lastOf_eq_of_iff fun entry => mem_hashedUsers

theorem hashedWith_iff {q s : Text} (h : w.table scope = some table) :
    w.HashedWith scope u q s ↔
      (extractCredentials (getMultipleVariables settingNames table)).lookup u = some q ∧
        w.salt scope u = some s ∧ (w.derive q s).isSome := by
  rw [HashedWith, password, h]
  rfl

/-- Some user of the scope was hashed. -/
theorem hashedUsers_ne_nil (h : w.table scope = some table) :
    w.hashedUsers scope (extractCredentials (getMultipleVariables settingNames table)) ≠ [] ↔
      ∃ u q s, w.HashedWith scope u q s := by
  constructor
  · intro hne
    obtain ⟨⟨u, entry⟩, he⟩ := List.exists_mem_of_ne_nil _ hne
    obtain ⟨q, hq, hentry⟩ := Option.bind_eq_some_iff.mp (mem_hashedUsers.mp he)
    obtain ⟨s, hs, hkey⟩ := (hashPassword_isSome w.base64).mp (Option.isSome_of_eq_some hentry)
    exact ⟨u, q, s, (hashedWith_iff h).mpr ⟨hq, hs, hkey⟩⟩
  · rintro ⟨u, q, s, hashed⟩
    obtain ⟨hq, hs, hkey⟩ := (hashedWith_iff h).mp hashed
    obtain ⟨entry, hentry⟩ := Option.isSome_iff_exists.mp
      ((hashPassword_isSome w.base64).mpr ⟨s, hs, hkey⟩)
    apply List.ne_nil_of_mem (a := (u, entry))
    rw [mem_hashedUsers, hq, ← hentry]
    rfl

theorem usersList_ne_nil (h : w.table scope = some table) {q s : Text}
    (hashed : w.HashedWith scope u q s) :
    usersList (getMultipleVariables settingNames table) ≠ [] := by
  have hq := ((hashedWith_iff h).mp hashed).1
  rw [lookup_extractCredentials] at hq
  exact List.ne_nil_of_mem (Dict.mem_of_lastOf hq)

theorem configOf_of_not_usable (h : ¬ w.Usable scope) : w.configOf scope = none := by
  rw [configOf, Option.bind_eq_none_iff]
  intro table htable
  simp only [config]
  split
  next hyes =>
    rw [firstOf_setting (by simp [settingNames])] at hyes
    split
    next => rfl
    next =>
      rw [if_pos]
      exact not_not.mp fun hne => h ⟨table, htable, hyes, (hashedUsers_ne_nil htable).mp hne⟩
  next => rfl

/-- The configuration of a scope in which some user could be hashed. -/
theorem configOf_of_usable (h : w.Usable scope) :
    ∃ table config, w.table scope = some table ∧ w.configOf scope = some config ∧
      config.matcher = buildMatcher (table.lookup "AUTH_BASIC_LOCATION") ∧
      ∀ u, config.credentials.lookup u =
        (w.password scope u).bind (hashPassword w.base64 w.derive (w.salt scope u)) := by
  obtain ⟨table, htable, hyes, u, q, s, hashed⟩ := h
  rw [configOf, htable, Option.bind_some]
  simp only [config]
  rw [firstOf_setting (by simp [settingNames]), if_pos hyes, if_neg (usersList_ne_nil htable hashed),
    if_neg ((hashedUsers_ne_nil htable).mpr ⟨u, q, s, hashed⟩)]
  refine ⟨table, _, rfl, rfl, ?_, ?_⟩
  · show buildMatcher (Dict.firstOf "AUTH_BASIC_LOCATION" _) = _
    rw [firstOf_setting (by simp [settingNames])]
  · intro u
    rw [lookup_hashedUsers, password, htable]
    rfl

/-- A hashed password is verified with the passwords that open it. -/
theorem verified_iff {config : Config} (h : ∀ u, config.credentials.lookup u =
    (w.password scope u).bind (hashPassword w.base64 w.derive (w.salt scope u))) :
    (∃ entry, config.credentials.lookup u = some entry ∧
      verifyPassword w.base64 w.derive p entry = some true) ↔ w.Opens scope u p := by
  simp only [h, Option.bind_eq_some_iff]
  constructor
  · rintro ⟨entry, ⟨q, hq, hentry⟩, hverified⟩
    obtain ⟨s, hs, hkey, he⟩ := (verifyPassword_hashed hentry).mp hverified
    exact ⟨q, s, ⟨hq, hs, hkey⟩, he⟩
  · rintro ⟨q, s, ⟨hq, hs, hkey⟩, he⟩
    obtain ⟨entry, hentry⟩ := Option.isSome_iff_exists.mp
      ((hashPassword_isSome w.base64).mpr ⟨s, hs, hkey⟩)
    exact ⟨entry, ⟨q, hq, hentry⟩, (verifyPassword_hashed hentry).mpr ⟨s, hs, hkey, he⟩⟩

end

/-! ## A request -/

/-- The settings of a service. -/
def settings (server : String) : Dict String String :=
  (w.table (.service server)).getD w.vars.global

/-- The scope whose configuration `initialize` ends with. -/
def InEffect (server : String) (scope : Scope) : Prop :=
  w.Usable scope ∧ (scope = .service server ∨ scope = .global ∧ ¬ w.Usable (.service server))

theorem setting_eq (server name : String) :
    w.setting server name = (w.settings server).lookup name := by
  rw [setting, Variables.getVariable, settings, table]
  split
  next => cases w.vars.site server <;> rfl
  next => rfl

theorem isNeeded_eq {server : String} (hserver : server ∈ gmatchWords w.vars.serverName)
    (hyes : (w.settings server).lookup "USE_AUTH_BASIC" = some "yes") :
    w.isNeeded server = !w.isLoading := by
  rw [isNeeded]
  split
  next => rw [setting_eq, hyes, beq_self_eq_true, Bool.and_true]
  next =>
    have hsome : w.vars.hasVariable "USE_AUTH_BASIC" "yes" = true := by
      rw [Variables.hasVariable_iff, Variables.values]
      split
      next hper =>
        obtain ⟨names, hnames, hsite⟩ := w.vars.servers (by simpa [Variables.multisite] using hper.1)
        rw [Variables.serverName, hnames] at hserver
        obtain ⟨table, htable⟩ := Option.isSome_iff_exists.mp (hsite server hserver)
        simp only [settings, World.table, if_pos hper.1, htable, Option.getD_some] at hyes
        refine ⟨_, List.mem_map.mpr ⟨server, ?_, rfl⟩, ?_⟩
        · rw [Variables.serverName, hnames]
          exact hserver
        · rw [Variables.get, htable]
          exact hyes
      next hper =>
        have hmultisite : w.vars.multisite = false := by
          apply Bool.eq_false_iff.mpr
          intro hmultisite
          apply hper ⟨hmultisite, ?_⟩
          intro hempty
          rw [hempty, Variables.gmatchWords_empty] at hserver
          cases hserver
        simp only [settings, World.table, hmultisite, Bool.false_eq_true, if_false,
          Option.getD_none] at hyes
        exact ⟨_, List.mem_singleton_self _, hyes⟩
    rw [hsome, Bool.and_true]

theorem write_write (global service : Option Config) :
    ((Current.write ⟨none, none, none⟩ global).write service) =
      Current.write ⟨none, none, none⟩ (service.or global) := by
  cases service <;> rfl

/-- A configuration that is stored and read is the one of the scope in effect. -/
theorem currentConfig_eq {server : String}
    (hyes : (w.settings server).lookup "USE_AUTH_BASIC" = some "yes") :
    w.currentConfig server =
      if w.readable ∧ w.stored then
        some (Current.write ⟨none, none, none⟩
          ((w.configOf (.service server)).or (w.configOf .global)))
      else none := by
  rw [currentConfig, setting_eq, if_neg (not_not.mpr hyes), init]
  cases w.readable <;> cases w.stored <;> simp [write_write, configOf]

variable {w} {server : String} {scope : Scope}

theorem exists_inEffect {config : Config}
    (h : (w.configOf (.service server)).or (w.configOf .global) = some config) :
    ∃ scope, w.InEffect server scope ∧ w.configOf scope = some config := by
  by_cases hown : w.Usable (.service server)
  · obtain ⟨_, config', _, hconfig, _⟩ := configOf_of_usable hown
    rw [hconfig, Option.some_or] at h
    exact ⟨_, ⟨hown, .inl rfl⟩, hconfig.trans h⟩
  · rw [configOf_of_not_usable hown, Option.none_or] at h
    refine ⟨.global, ⟨?_, .inr ⟨rfl, hown⟩⟩, h⟩
    by_contra hglobal
    rw [configOf_of_not_usable hglobal] at h
    cases h

theorem InEffect.unique {scope' : Scope} (h : w.InEffect server scope)
    (h' : w.InEffect server scope') : scope = scope' := by
  obtain ⟨husable, rfl | ⟨rfl, hown⟩⟩ := h
  · exact (h'.2.elim id fun h' => absurd husable h'.2).symm
  · obtain rfl | ⟨rfl, -⟩ := h'.2
    · exact absurd h'.1 hown
    · rfl

theorem InEffect.config (h : w.InEffect server scope) :
    (w.configOf (.service server)).or (w.configOf .global) = w.configOf scope := by
  obtain ⟨husable, rfl | ⟨rfl, hown⟩⟩ := h
  · obtain ⟨_, config, _, hconfig, _⟩ := configOf_of_usable husable
    rw [hconfig, Option.some_or]
  · rw [configOf_of_not_usable hown, Option.none_or]

end World

/-! ## The property -/

/-- The path is inside the location. -/
def Matcher.Covers (regexMatch : Text → Bool → Text → Bool) (uri : Text) : Matcher → Prop
  | .sitewide => True
  | .exact value => uri = value
  | .startsWith value => value <+: uri
  | .regex value ignoreCase => value ≠ [] ∧ regexMatch value ignoreCase uri = true

theorem Matcher.matches_iff {regexMatch : Text → Bool → Text → Bool} {uri : Text} (m : Matcher) :
    m.matches regexMatch uri = true ↔ m.Covers regexMatch uri := by
  cases m with
  | sitewide => simp [Matcher.matches, Matcher.Covers]
  | exact value => simp [Matcher.matches, Matcher.Covers]
  | startsWith value =>
    simp only [Matcher.matches, Matcher.Covers, Bool.or_eq_true, beq_iff_eq, List.isPrefixOf_iff_prefix]
    exact or_iff_right_of_imp fun he => he ▸ List.nil_prefix
  | regex value ignoreCase => simp [Matcher.matches, Matcher.Covers]

namespace World

variable (w : World)

/-- The path is inside the location of the service. -/
def Inside (server : String) (uri : Text) : Prop :=
  (buildMatcher ((w.settings server).lookup "AUTH_BASIC_LOCATION")).Covers w.regexMatch uri

/-- The path is inside the location of the scope. -/
def Protects (scope : Scope) (uri : Text) : Prop :=
  ∃ table, w.table scope = some table ∧
    (buildMatcher (table.lookup "AUTH_BASIC_LOCATION")).Covers w.regexMatch uri

/-- A request passes if and only if its header has a user and a password of the service. -/
def AccessExact (server : String) (uri : Text) : Prop :=
  ∀ header, (w.access server uri header).passes = true ↔
    ∃ text u p, header = some text ∧ Carries w.base64 text u p ∧
      Configured (w.settings server) u p

/-- So it is for each path inside the location of the service. -/
def Protected (server : String) : Prop := ∀ uri, w.Inside server uri → w.AccessExact server uri

/-- The users without a colon that were hashed are those of the service, and the passwords with the
key of such a user are those that the service has for the user. -/
structure Agrees (server : String) (scope : Scope) : Prop where
  users : ∀ u, ':' ∉ u → ((∃ p, Configured (w.settings server) u p) ↔
    ∃ q s, w.HashedWith scope u q s)
  passwords : ∀ u, ':' ∉ u → ∀ q s, w.HashedWith scope u q s →
    ∀ p, w.derive p s = w.derive q s ↔ Configured (w.settings server) u p

/-- The configurations were stored and are read, and the scope in effect protects the path for the
users of the service. -/
def Guarded (server : String) (uri : Text) : Prop :=
  w.isLoading = false ∧ w.stored = true ∧ w.readable = true ∧
    ∃ scope, w.InEffect server scope ∧ w.Protects scope uri ∧ w.Agrees server scope

section

variable {w} {server : String} {scope : Scope} {uri : Text} {header : Option Text}

theorem HashedWith.unique {u q s q' s' : Text} (h : w.HashedWith scope u q s)
    (h' : w.HashedWith scope u q' s') : q = q' ∧ s = s' :=
  ⟨Option.some.inj (h.1.symm.trans h'.1), Option.some.inj (h.2.1.symm.trans h'.2.1)⟩

theorem agrees_iff : w.Agrees server scope ↔
    ∀ u p, ':' ∉ u → (w.Opens scope u p ↔ Configured (w.settings server) u p) := by
  constructor
  · intro h u p hu
    constructor
    · rintro ⟨q, s, hashed, he⟩
      exact (h.passwords u hu q s hashed p).mp he
    · intro hp
      obtain ⟨q, s, hashed⟩ := (h.users u hu).mp ⟨p, hp⟩
      exact ⟨q, s, hashed, (h.passwords u hu q s hashed p).mpr hp⟩
  · intro h
    refine ⟨fun u hu => ⟨?_, ?_⟩, fun u hu q s hashed p => ⟨fun he => ?_, fun hp => ?_⟩⟩
    · rintro ⟨p, hp⟩
      obtain ⟨q, s, hashed, -⟩ := (h u p hu).mpr hp
      exact ⟨q, s, hashed⟩
    · rintro ⟨q, s, hashed⟩
      exact ⟨q, (h u q hu).mp ⟨q, s, hashed, rfl⟩⟩
    · exact (h u p hu).mp ⟨q, s, hashed, he⟩
    · obtain ⟨q', s', hashed', he⟩ := (h u p hu).mpr hp
      obtain ⟨rfl, rfl⟩ := hashed.unique hashed'
      exact he

theorem validateCredentials_iff (w : World) (credentials : Dict Text Entry)
    (header : Option Text) :
    (∃ username, w.validateCredentials (some credentials) header = .ok username) ↔
      ∃ text u p, header = some text ∧ Carries w.base64 text u p ∧
        ∃ entry, credentials.lookup u = some entry ∧
          verifyPassword w.base64 w.derive p entry = some true := by
  constructor
  · rintro ⟨username, h⟩
    cases header with
    | none => cases h
    | some text =>
      simp only [validateCredentials] at h
      split at h
      next => cases h
      next u p hcredentials =>
        split at h
        next => cases h
        next entry hentry =>
          split at h
          next => cases h
          next => cases h
          next hverified =>
            exact ⟨text, u, p, rfl, credentialsOf_eq_ok.mp hcredentials, entry, hentry, hverified⟩
  · rintro ⟨text, u, p, rfl, hcarries, entry, hentry, hverified⟩
    refine ⟨u, ?_⟩
    simp only [validateCredentials, credentialsOf_eq_ok.mpr hcarries, hentry, hverified]

variable (hserver : server ∈ gmatchWords w.vars.serverName)
  (hyes : (w.settings server).lookup "USE_AUTH_BASIC" = some "yes")

include hserver hyes

/-- Each way in which nothing is checked. -/
theorem access_open (h : ¬ (w.isLoading = false ∧ w.stored = true ∧ w.readable = true ∧
    ∃ scope, w.InEffect server scope ∧ w.Protects scope uri)) (header : Option Text) :
    (w.access server uri header).passes = true := by
  rw [access, isNeeded_eq w hserver hyes, Bool.not_not]
  split
  next => rfl
  next hloading =>
    rw [currentConfig_eq w hyes]
    split
    next => rfl
    next current hcurrent =>
      split
      next => rfl
      next hcredentials =>
        rw [if_pos]
        · rfl
        obtain ⟨⟨hreadable, hstored⟩, hcurrent⟩ := Option.ite_none_right_eq_some.mp hcurrent
        cases hconfig : (w.configOf (.service server)).or (w.configOf .global) with
        | none =>
          rw [hconfig] at hcurrent
          cases hcurrent
          exact absurd rfl hcredentials
        | some config =>
          rw [hconfig] at hcurrent
          cases hcurrent
          obtain ⟨scope, heffect, hconfig⟩ := exists_inEffect hconfig
          obtain ⟨table, _, htable, hconfig', hmatcher, _⟩ := configOf_of_usable heffect.1
          obtain rfl := Option.some.inj (hconfig.symm.trans hconfig')
          simp only [matchesScope, Current.write, Bool.not_eq_true']
          apply Bool.eq_false_iff.mpr
          intro hmatches
          exact h ⟨Bool.eq_false_iff.mpr hloading, hstored, hreadable, scope, heffect, table, htable,
            hmatcher ▸ (Matcher.matches_iff _).mp hmatches⟩

/-- What is checked where something is. -/
theorem access_guarded (header : Option Text) (hloading : w.isLoading = false) (hstored : w.stored = true)
    (hreadable : w.readable = true) (heffect : w.InEffect server scope)
    (hprotects : w.Protects scope uri) :
    (w.access server uri header).passes = true ↔
      ∃ text u p, header = some text ∧ Carries w.base64 text u p ∧ w.Opens scope u p := by
  obtain ⟨table, config, htable, hconfig, hmatcher, hlookup⟩ := configOf_of_usable heffect.1
  obtain ⟨table', htable', hcovers⟩ := hprotects
  obtain rfl := Option.some.inj (htable.symm.trans htable')
  have hcurrent : w.currentConfig server =
      some ⟨some config.realm, some config.matcher, some config.credentials⟩ := by
    rw [currentConfig_eq w hyes, if_pos ⟨hreadable, hstored⟩, heffect.config, hconfig]
    rfl
  have hmatches : w.matchesScope ⟨some config.realm, some config.matcher, some config.credentials⟩
      uri = true := by
    show config.matcher.matches w.regexMatch uri = true
    rw [hmatcher]
    exact (Matcher.matches_iff _).mpr hcovers
  have hvalidate := validateCredentials_iff w config.credentials header
  simp only [verified_iff hlookup] at hvalidate
  rw [← hvalidate, access, isNeeded_eq w hserver hyes, hloading]
  simp only [Bool.not_false, Bool.not_true, Bool.false_eq_true, if_false, hcurrent,
    Option.isNone_some, hmatches]
  cases w.validateCredentials (some config.credentials) header <;> simp [Answer.passes]

/-- Just the header decides if and only if nothing went wrong before. -/
theorem accessExact_iff :
    w.AccessExact server uri ↔ w.Guarded server uri := by
  by_cases hchecked : w.isLoading = false ∧ w.stored = true ∧ w.readable = true ∧
      ∃ scope, w.InEffect server scope ∧ w.Protects scope uri
  · obtain ⟨hloading, hstored, hreadable, scope, heffect, hprotects⟩ := hchecked
    have hguarded := fun header => access_guarded hserver hyes header hloading hstored hreadable
      heffect hprotects
    constructor
    · intro hexact
      refine ⟨hloading, hstored, hreadable, scope, heffect, hprotects, agrees_iff.mpr ?_⟩
      intro u p hu
      obtain ⟨text, htext⟩ := exists_header w.base64 hu p
      calc w.Opens scope u p ↔ _ := (exists_carried_iff htext (w.Opens scope)).symm
        _ ↔ (w.access server uri (some text)).passes = true := (hguarded (some text)).symm
        _ ↔ _ := hexact (some text)
        _ ↔ _ := exists_carried_iff htext (Configured (w.settings server))
    · rintro ⟨-, -, -, scope', heffect', -, hagrees⟩ header
      obtain rfl := heffect.unique heffect'
      rw [hguarded header]
      constructor
      · rintro ⟨text, u, p, rfl, hcarries, hopens⟩
        exact ⟨text, u, p, rfl, hcarries, (agrees_iff.mp hagrees u p hcarries.not_colon).mp hopens⟩
      · rintro ⟨text, u, p, rfl, hcarries, hp⟩
        exact ⟨text, u, p, rfl, hcarries, (agrees_iff.mp hagrees u p hcarries.not_colon).mpr hp⟩
  · constructor
    · intro hexact
      obtain ⟨_, _, _, hnone, _⟩ := (hexact none).mp (access_open hserver hyes hchecked none)
      cases hnone
    · rintro ⟨hloading, hstored, hreadable, scope, heffect, hprotects, -⟩
      exact absurd ⟨hloading, hstored, hreadable, scope, heffect, hprotects⟩ hchecked

/-- Basic authentication protects a service if and only if no path inside its location is left to
another outcome than that of the header. -/
theorem protected_iff :
    w.Protected server ↔ ∀ uri, w.Inside server uri → w.Guarded server uri :=
  forall_congr' fun _ => imp_congr_right fun _ => accessExact_iff hserver hyes

end

end World

/-! ## Examples -/

section

/-- Each byte as a mark and a character that is no white space. -/
def mark (c : Char) : Text :=
  if isLuaSpace c then ['S', Char.ofNat (c.toNat + 64)] else ['C', c]

def unmark : Text → Option Text
  | [] => some []
  | 'S' :: c :: rest => (unmark rest).map (Char.ofNat (c.toNat - 64) :: ·)
  | 'C' :: c :: rest => (unmark rest).map (c :: ·)
  | _ => none

def luaSpaces : List Char := ['\t', '\n', '\x0b', '\x0c', '\r', ' ']

theorem space_cases {c : Char} (h : isLuaSpace c = true) : c ∈ luaSpaces := by
  simp only [isLuaSpace, List.mem_cons, List.not_mem_nil, or_false, decide_eq_true_eq] at h
  rw [← Char.ofNat_toNat c]
  obtain h | h | h | h | h | h := h <;> rw [h] <;> decide

theorem mark_space {c : Char} (h : c ∈ luaSpaces) :
    isLuaSpace (Char.ofNat (c.toNat + 64)) = false ∧
      Char.ofNat ((Char.ofNat (c.toNat + 64)).toNat - 64) = c := by
  have hall : luaSpaces.all (fun c => !isLuaSpace (Char.ofNat (c.toNat + 64)) &&
      Char.ofNat ((Char.ofNat (c.toNat + 64)).toNat - 64) == c) = true := by decide
  simpa using List.all_eq_true.mp hall c h

theorem unmark_mark (text : Text) : unmark (text.flatMap mark) = some text := by
  induction text with
  | nil => rfl
  | cons c text ih =>
    rw [List.flatMap_cons, mark]
    split
    next h =>
      show (unmark (text.flatMap mark)).map _ = _
      rw [ih, (mark_space (space_cases h)).2]
      rfl
    next h =>
      show (unmark (text.flatMap mark)).map _ = _
      rw [ih]
      rfl

theorem not_space_mark (text : Text) : ∀ c ∈ text.flatMap mark, isLuaSpace c = false := by
  intro c hc
  obtain ⟨d, -, hd⟩ := List.mem_flatMap.mp hc
  rw [mark] at hd
  split at hd
  next h =>
    obtain rfl | hd := List.mem_cons.mp hd
    · decide
    · rw [List.mem_singleton.mp hd]
      exact (mark_space (space_cases h)).1
  next h =>
    obtain rfl | hd := List.mem_cons.mp hd
    · decide
    · rw [List.mem_singleton.mp hd]
      exact Bool.eq_false_iff.mpr h

def swap (a b text : Text) : Text := if text = a then b else if text = b then a else text

theorem swap_swap (a b text : Text) : swap a b (swap a b text) = text := by
  unfold swap
  grind

/-- `admin:secret`, marked and in base64. -/
def swapSecret : Text → Text :=
  swap ("admin:secret".toList.flatMap mark) "YWRtaW46c2VjcmV0".toList

/-- A coding that agrees with base64 on `admin:secret`. -/
def sampleBase64 : Base64 where
  encode bytes := swapSecret (bytes.flatMap mark)
  decode text := unmark (swapSecret text)
  decode_encode bytes := by rw [swapSecret, swap_swap, unmark_mark]
  decode_nil := by decide
  not_space bytes := by
    unfold swapSecret swap
    split
    · intro c hc
      have hall : "YWRtaW46c2VjcmV0".toList.all (!isLuaSpace ·) = true := by decide
      simpa using List.all_eq_true.mp hall c hc
    · split
      · exact not_space_mark _
      · exact not_space_mark _

def sampleVars : Variables where
  global := Dict.ofItems [("SERVER_NAME", "www"), ("USE_AUTH_BASIC", "yes"),
    ("AUTH_BASIC_LOCATION", "sitewide"), ("AUTH_BASIC_USER", "admin"),
    ("AUTH_BASIC_PASSWORD", "secret")]
  site _ := none
  servers h := by revert h; decide

/-- One service, one user. -/
def sampleWorld (salt : Option Text) : World :=
  ⟨sampleVars, sampleBase64, fun _ _ => salt, fun password salt => some (salt ++ password),
    fun _ _ _ => false, true, true⟩

theorem sample_usersList :
    usersList (getMultipleVariables settingNames sampleVars.global) =
      [("admin".toList, "secret".toList)] := by decide

theorem sample_password {salt : Option Text} {u q : Text} :
    (sampleWorld salt).password .global u = some q ↔ u = "admin".toList ∧ q = "secret".toList := by
  show (extractCredentials _).lookup u = some q ↔ _
  rw [lookup_extractCredentials]
  show Dict.lastOf u (usersList (getMultipleVariables settingNames sampleVars.global)) = some q ↔ _
  rw [sample_usersList, Dict.lastOf_cons, Dict.lastOf_nil, Option.none_or,
    Option.ite_none_right_eq_some, Option.some.injEq]
  exact and_congr eq_comm eq_comm

end

/-- The service whose user was hashed is protected. -/
theorem protected_one_user : (sampleWorld (some "0123456789abcdef".toList)).Protected "www" := by
  refine (World.protected_iff (by decide) (by decide)).mpr fun uri _ => ?_
  have hashed : (sampleWorld (some "0123456789abcdef".toList)).HashedWith .global "admin".toList
      "secret".toList "0123456789abcdef".toList := ⟨sample_password.mpr ⟨rfl, rfl⟩, rfl, rfl⟩
  refine ⟨by decide, rfl, rfl, .global, ⟨⟨_, rfl, by decide, _, _, _, hashed⟩, .inr ⟨rfl, ?_⟩⟩,
    ⟨_, rfl, ?_⟩, World.agrees_iff.mpr fun u p _ => ?_⟩
  · rintro ⟨table, htable, -⟩
    cases htable
  · rw [show buildMatcher _ = Matcher.sitewide by decide]
    trivial
  · rw [← mem_usersList]
    show _ ↔ (u, p) ∈ usersList (getMultipleVariables settingNames sampleVars.global)
    rw [sample_usersList, List.mem_singleton, Prod.mk.injEq]
    constructor
    · rintro ⟨q, s, ⟨hq, -, -⟩, he⟩
      obtain ⟨rfl, rfl⟩ := sample_password.mp hq
      exact ⟨rfl, List.append_cancel_left (Option.some.inj he)⟩
    · rintro ⟨rfl, rfl⟩
      exact ⟨_, _, hashed, rfl⟩

/-- Without a salt the user is not hashed, and the service is open. -/
theorem unhashed_user_leaves_open :
    (sampleWorld none).access "www" "/admin".toList none = .noConfiguration ∧
      ¬ (sampleWorld none).Protected "www" := by
  have hopen : (sampleWorld none).access "www" "/admin".toList none = .noConfiguration := by
    decide +kernel
  refine ⟨hopen, fun h => ?_⟩
  have hinside : (sampleWorld none).Inside "www" "/admin".toList := by
    unfold World.Inside
    rw [show buildMatcher _ = Matcher.sitewide by decide]
    trivial
  have hpasses := (h _ hinside none).mp (by rw [hopen]; rfl)
  obtain ⟨_, _, _, hnone, _⟩ := hpasses
  cases hnone

example : (sampleWorld (some "0123456789abcdef".toList)).access "www" "/admin".toList
    (some "Basic YWRtaW46c2VjcmV0".toList) = .authenticated "admin".toList := by decide +kernel

end BunkerWeb.Lua.AuthBasic
