import BunkerWeb.Settings
import Mathlib.Data.List.Infix

/-!
# To whom a key belongs

Four components take a key `<server>_<SETTING>` or `<server>_<SETTING>_<n>` apart, each in its own
way: the Configurator takes the first server, in the order of `SERVER_NAME`, that the key starts
with; the database and the Templator take the shortest one; and `load_variables` gives the value to
every server that leaves a known setting when its name is taken off.
-/

namespace BunkerWeb

/-! ## The server names -/

/-- One name of `SERVER_NAME` as its regular expression wants it, for Python's `\w`. -/
def serverNameOk (isWord : Char → Bool) (name : String) : Bool :=
  let chars := name.toList
  decide (1 ≤ chars.length ∧ chars.length ≤ 255) &&
    chars.all (fun c => !(c.isWhitespace || c == '+' || c == '/' || c == ':' || c.isUpper)) &&
    !decide ("..".toList <:+: chars) && chars.head?.any isWord && chars.getLast?.any isWord

/-- `key.startswith(f"{server}_")`, with what follows. -/
def stripServer (server key : String) : Option String :=
  (key.toList.dropPrefix? (server.toList ++ ['_'])).map String.ofList

/-! ## `Configurator.py` -/

def excludedPrefixes : List String :=
  ["_", "PYTHON", "KUBERNETES_", "SVC_", "LB_", "SUPERVISOR_"]

def excludedVars : List String :=
  ["DOCKER_HOST", "SLAVE_MODE", "MASTER_MODE", "CUSTOM_LOG_LEVEL", "HEALTHCHECK_INTERVAL",
    "DATABASE_RETRY_TIMEOUT", "RELOAD_MIN_TIMEOUT", "DISABLE_CONFIGURATION_TESTING",
    "IGNORE_FAIL_SENDING_CONFIG", "GPG_KEY", "HOME", "HOSTNAME", "LANG", "PATH", "NGINX_VERSION",
    "NJS_VERSION", "PKG_RELEASE", "PWD", "SHLVL", "SERVER_SOFTWARE", "NAMESPACE", "TZ",
    "DYNPKG_RELEASE", "OLDPWD", "SERVICE_SCHEDULER", "SERVICE_UI", "SERVICE_API",
    "IGNORE_REGEX_CHECK", "CROWDSEC_DISABLE_PARSERS", "CROWDSEC_EXTRA_COLLECTIONS",
    "HIDE_SERVICE_LOGS", "LOG_TYPES", "LOG_FILE_PATH", "LOG_SYSLOG_ADDRESS", "LOG_SYSLOG_TAG"]

/-- `get_config` goes past the variable. -/
def excluded (var : String) : Bool :=
  excludedPrefixes.any (fun p => p.toList.isPrefixOf var.toList) ||
    excludedVars.contains var || decide ("CUSTOM_CONF".toList <:+: var.toList)

/-- `re_search(f"^{id}_[0-9]+$", variable)`. -/
def numberedAs (id var : String) : Bool :=
  (stripServer id var).any fun n => n != "" && n.toList.all Char.isDigit

/-- The body of the loop of `__find_var`. -/
def findVarIn (target : List Setting) (var : String) : Option Setting :=
  match target.find? (·.id = var) with
  | some s => some s
  | none => target.find? fun s => s.multiple.isSome && numberedAs s.id var

/-- `__find_var`. -/
def findVar (c : Catalog) (var : String) : Option Setting :=
  c.targets.findSome? (findVarIn · var)

/-- `__var_is_prefixed`, with the server whose name it takes off. -/
def varIsPrefixed (servers : List String) (var : String) : Option (String × String) :=
  servers.findSome? fun server => (stripServer server var).map (server, ·)

/-- The first half of `__check_var` with `MULTISITE=yes`: the server and the setting of a variable,
or the message of the refusal. -/
def resolveVar (c : Catalog) (servers : List String) (var : String) :
    Except String (Option String × Setting) :=
  let (server, realVar) : Option String × String :=
    match varIsPrefixed servers var with
    | some (server, rest) => (some server, rest)
    | none => (none, var)
  match findVar c realVar with
  | none => .error ("variable name " ++ var ++ " doesn't exist")
  | some s =>
    if server.isSome && s.context != .multisite then
      .error ("context of " ++ var ++ " isn't multisite")
    else .ok (server, s)

/-- `__check_var`: the value is checked against the regular expression of the setting that the
variable stands for; `accepts` is that check. -/
def checkVar (accepts : Setting → String → Bool) (c : Catalog) (servers : List String)
    (var value : String) : Bool × String :=
  match resolveVar c servers var with
  | .error message => (false, message)
  | .ok (_, s) =>
    if accepts s value then (true, "ok")
    else (false, "value " ++ value ++ " doesn't match regex " ++ s.regex)

/-- What `get_config` takes a variable for, if it does not go past it or refuse it. -/
def configuratorKey (c : Catalog) (servers : List String) (var : String) :
    Option (Option String × Setting) :=
  if excluded var then none else (resolveVar c servers var).toOption

/-! ## `Database.py` -/

/-- The row that `save_config` writes for a key: service, setting and suffix. A key without a
service is a global one; a key that names no setting has no row. -/
def databaseKey (c : Catalog) (services : List String) (key : String) :
    Option (Option String × String × Nat) :=
  let (service, rest) : Option String × String :=
    match firstService services key with
    | some (service, rest) => (some service, rest)
    | none => (none, key)
  let (id, suffix) := splitKey rest
  (c.find id).map fun s => (service, s.id, suffix)

/-! ## `Templator.py` -/

/-- `extract_server_and_key`. -/
def extractServerAndKey (servers : List String) (key : String) : Option (String × String) :=
  firstService servers key

/-! ## `helpers.lua` -/

/-- The setting that `load_variables` takes a name for: the one of that name, or the one in front
of a number if it may be numbered. -/
def luaSetting (c : Catalog) (name : String) : Option String :=
  if (c.find name).isSome then some name
  else
    match suffixRx name with
    | none => none
    | some (base, _) =>
      if (c.find base).any (fun s => s.multiple.isSome) then some base else none

/-- What `load_variables` writes for one variable into the table of one server: the name under
which, and the setting that it stands for. -/
def loadFor (c : Catalog) (var server : String) : Option (Option String × String × String) :=
  match stripServer server var with
  | none => none
  | some rest =>
    if rest = "" then none else (luaSetting c rest).map fun id => (some server, rest, id)

/-- What `load_variables` writes for one variable when `MULTISITE` is `yes`, into the global table
and into those of the servers. -/
def loadVariable (c : Catalog) (servers : List String) (var : String) :
    List (Option String × String × String) :=
  (if (c.find var).isSome then [(none, var, var)] else []) ++
  servers.filterMap (loadFor c var) ++
  match suffixRx var with
  | none => []
  | some (base, _) =>
    if (c.find base).any (fun s => s.multiple.isSome) then [(none, var, base)] else []

/-! ## Agreement -/

/-- `<SETTING>` or `<SETTING>_<n>`. -/
def settingText (id : String) : Option String → String
  | none => id
  | some n => joinKey id n

/-- The four components give the key of `server`, `setting` and the number to that server and that
setting. -/
structure Agree (c : Catalog) (servers : List String) (server : String) (setting : Setting)
    (n : Option String) : Prop where
  configurator : configuratorKey c servers (joinKey server (settingText setting.id n)) =
    some (some server, setting)
  database : databaseKey c servers (joinKey server (settingText setting.id n)) =
    some (some server, setting.id, (n.map parseInt).getD 0)
  templator : extractServerAndKey servers (joinKey server (settingText setting.id n)) =
    some (server, settingText setting.id n)
  lua : loadVariable c servers (joinKey server (settingText setting.id n)) =
    [(some server, settingText setting.id n, setting.id)]

/-- What the number, or its absence, has to be like. -/
def NumberOk (c : Catalog) (setting : Setting) : Option String → Prop
  | none => suffixRx setting.id = none
  | some n => Canonical n ∧ setting.multiple.isSome ∧ c.find (joinKey setting.id n) = none

/-- The key can be read in one way only: `get_config` does not go past it; the number fits the
setting; every other server that the key starts with comes later in `SERVER_NAME`, is longer and
leaves no known setting; and the key as a whole is none. -/
structure Unambiguous (c : Catalog) (servers : List String) (server : String) (setting : Setting)
    (n : Option String) : Prop where
  kept : excluded (joinKey server (settingText setting.id n)) = false
  number : NumberOk c setting n
  others : ∀ t ∈ servers, t ≠ server → ∀ rest,
    joinKey server (settingText setting.id n) = joinKey t rest →
      servers.idxOf server < servers.idxOf t ∧ server.length < t.length ∧
        luaSetting c rest = none
  notGlobal : luaSetting c (joinKey server (settingText setting.id n)) = none

/-! ## One component at a time -/

theorem stripServer_eq_some {server key rest : String} :
    stripServer server key = some rest ↔ key = joinKey server rest := by
  rw [stripServer, Option.map_eq_some_iff]
  constructor
  · rintro ⟨l, hl, rfl⟩
    obtain ⟨p, hp, hbeq⟩ := List.dropPrefix?_eq_some_iff.mp hl
    rw [beq_iff_eq] at hbeq
    refine String.toList_injective ?_
    rw [hp, hbeq, toList_joinKey, String.toList_ofList, List.append_assoc]
    rfl
  · rintro rfl
    refine ⟨rest.toList, List.dropPrefix?_eq_some_iff.mpr ⟨_, ?_, beq_self_eq_true _⟩, ?_⟩
    · rw [toList_joinKey, List.append_assoc]; rfl
    · exact String.ofList_toList

theorem stripServer_eq_none {server key : String} :
    stripServer server key = none ↔ ∀ rest, key ≠ joinKey server rest := by
  constructor
  · intro h rest hk
    rw [stripServer_eq_some.mpr hk] at h
    cases h
  · intro h
    cases hs : stripServer server key with
    | none => rfl
    | some rest => exact absurd (stripServer_eq_some.mp hs) (h rest)

theorem numberedAs_iff {id var : String} :
    numberedAs id var = true ↔ ∃ n, var = joinKey id n ∧ IsNumber n := by
  rw [numberedAs, Option.any_eq_true]
  constructor
  · rintro ⟨n, hn, hd⟩
    rw [Bool.and_eq_true, bne_iff_ne, List.all_eq_true] at hd
    exact ⟨n, stripServer_eq_some.mp hn, hd⟩
  · rintro ⟨n, rfl, hne, hd⟩
    exact ⟨n, stripServer_eq_some.mpr rfl, by
      rw [Bool.and_eq_true, bne_iff_ne, List.all_eq_true]; exact ⟨hne, hd⟩⟩

theorem settingText_ne_empty {id : String} (hid : id ≠ "") (n : Option String) :
    settingText id n ≠ "" := by
  cases n with
  | none => exact hid
  | some n => exact joinKey_ne_empty id n

section

variable {c : Catalog} {servers : List String} {server : String} {setting : Setting}
  {n : Option String}

/-- `SUFFIX_RX` and the number that is cut off leave the name of the setting. -/
theorem splitKey_settingText (hid : setting.id ≠ "") (hn : ∀ d ∈ n, IsNumber d) :
    splitKey (settingText setting.id n) = (setting.id, (n.map parseInt).getD 0) ↔
      match n with
      | none => suffixRx setting.id = none
      | some d => Canonical d := by
  cases n with
  | none =>
    refine ⟨fun h => ?_, fun h => splitKey_of_none h⟩
    by_contra hrx
    exact splitKey_fst_ne hrx (congrArg Prod.fst h)
  | some d =>
    have hd : IsNumber d := hn d rfl
    refine ⟨fun h => (splitKey_fst_iff hid hd).mp (congrArg Prod.fst h), fun h => ?_⟩
    exact splitKey_of_canonical hid hd h

theorem templator_iff (hs : server ∈ servers) (text : String) :
    extractServerAndKey servers (joinKey server text) = some (server, text) ↔
      ∀ t ∈ servers, ∀ rest, joinKey server text = joinKey t rest → server.length ≤ t.length := by
  rw [extractServerAndKey, firstService_eq_some]
  exact ⟨fun h => h.2.2, fun h => ⟨hs, rfl, h⟩⟩

theorem database_iff (hc : setting ∈ c.all) {text : String} {suffix : Nat} :
    databaseKey c servers (joinKey server text) = some (some server, setting.id, suffix) ↔
      extractServerAndKey servers (joinKey server text) = some (server, text) ∧
        splitKey text = (setting.id, suffix) := by
  unfold databaseKey extractServerAndKey
  cases hf : firstService servers (joinKey server text) with
  | none => simp
  | some e =>
    obtain ⟨t, rest⟩ := e
    simp only [Option.map_eq_some_iff, Prod.mk.injEq, Option.some.injEq]
    constructor
    · rintro ⟨s, hfind, rfl, hid, hsuf⟩
      obtain rfl := joinKey_right_inj.mp (firstService_eq_some.mp hf).2.1
      exact ⟨⟨rfl, rfl⟩, Prod.ext ((Catalog.find_eq_some.mp hfind).2.symm.trans hid) hsuf⟩
    · rintro ⟨⟨rfl, rfl⟩, hsplit⟩
      rw [hsplit]
      exact ⟨setting, Catalog.find_eq_some.mpr ⟨hc, rfl⟩, rfl, rfl, rfl⟩

/-- The Configurator takes the first server that the key starts with. -/
theorem varIsPrefixed_iff (hs : server ∈ servers) (hnodup : servers.Nodup) {text : String} :
    varIsPrefixed servers (joinKey server text) = some (server, text) ↔
      ∀ t ∈ servers, t ≠ server → ∀ rest, joinKey server text = joinKey t rest →
        servers.idxOf server < servers.idxOf t := by
  constructor
  · intro h t ht hne rest hk
    obtain ⟨l₁, a, l₂, rfl, ha, hl⟩ := List.findSome?_eq_some_iff.mp h
    obtain ⟨r, -, hr⟩ := Option.map_eq_some_iff.mp ha
    obtain ⟨rfl, -⟩ := Prod.mk.inj hr
    have ht₁ : t ∉ l₁ := fun hmem => by
      have := hl t hmem
      rw [stripServer_eq_some.mpr hk] at this
      cases this
    have ha₁ : a ∉ l₁ := (List.nodup_middle.mp hnodup).notMem ∘ List.mem_append_left l₂
    rw [List.idxOf_append_of_notMem ha₁, List.idxOf_append_of_notMem ht₁, List.idxOf_cons_self,
      List.idxOf_cons_ne _ (Ne.symm hne)]
    omega
  · intro h
    obtain ⟨l₁, l₂, rfl⟩ := List.append_of_mem hs
    refine List.findSome?_eq_some_iff.mpr ⟨l₁, server, l₂, rfl, ?_, fun t ht => ?_⟩
    · rw [stripServer_eq_some.mpr rfl]; rfl
    · have hs₁ : server ∉ l₁ := (List.nodup_middle.mp hnodup).notMem ∘ List.mem_append_left l₂
      have hne : t ≠ server := fun he => hs₁ (he ▸ ht)
      rw [Option.map_eq_none_iff, stripServer_eq_none]
      intro rest hk
      have hlt := h t (List.mem_append_left _ ht) hne rest hk
      rw [List.idxOf_append_of_notMem hs₁, List.idxOf_append_of_mem ht] at hlt
      have := List.idxOf_lt_length_of_mem ht
      omega

theorem configurator_iff (hctx : setting.context = .multisite) {text : String} :
    configuratorKey c servers (joinKey server text) = some (some server, setting) ↔
      excluded (joinKey server text) = false ∧
        varIsPrefixed servers (joinKey server text) = some (server, text) ∧
        findVar c text = some setting := by
  unfold configuratorKey resolveVar
  cases excluded (joinKey server text) with
  | true => simp
  | false =>
    cases hp : varIsPrefixed servers (joinKey server text) with
    | none =>
      simp only [Bool.false_eq_true, if_false]
      cases findVar c (joinKey server text) <;> simp [Except.toOption]
    | some e =>
      obtain ⟨t, rest⟩ := e
      obtain ⟨a, ha, hr⟩ := List.exists_of_findSome?_eq_some hp
      obtain ⟨r, hr', he⟩ := Option.map_eq_some_iff.mp hr
      obtain ⟨rfl, rfl⟩ := Prod.mk.inj he
      have hk := stripServer_eq_some.mp hr'
      simp only [Bool.false_eq_true, if_false, Option.some.injEq, Prod.mk.injEq, true_and]
      constructor
      · intro h
        cases hf : findVar c r with
        | none => simp [hf, Except.toOption] at h
        | some s =>
          simp only [hf] at h
          split at h
          · simp [Except.toOption] at h
          · simp only [Except.toOption, Option.some.injEq, Prod.mk.injEq] at h
            obtain ⟨rfl, rfl⟩ := h
            obtain rfl := joinKey_right_inj.mp hk
            exact ⟨⟨rfl, rfl⟩, hf⟩
      · rintro ⟨⟨rfl, rfl⟩, hf⟩
        simp [hf, hctx, Except.toOption]

/-- A key that is no known setting as a whole writes nothing into the global table. -/
theorem luaSetting_eq_none {name : String} :
    luaSetting c name = none ↔ c.find name = none ∧
      ∀ base d, suffixRx name = some (base, d) →
        (c.find base).any (fun s => s.multiple.isSome) = false := by
  unfold luaSetting
  cases hf : c.find name with
  | some s => simp
  | none =>
    cases hrx : suffixRx name with
    | none => simp
    | some e =>
      obtain ⟨base, d⟩ := e
      cases hb : (c.find base).any (fun s => s.multiple.isSome) <;> simp [hb]

theorem luaSetting_empty : luaSetting c "" = none :=
  luaSetting_eq_none.mpr ⟨Catalog.find_eq_none.mpr c.ne_empty, fun base d h => by
    have := (suffixRx_eq_some.mp h).1
    exact absurd this.symm (joinKey_ne_empty base d)⟩

theorem loadFor_eq_some {var t : String} {e : Option String × String × String} :
    loadFor c var t = some e ↔
      ∃ rest id, var = joinKey t rest ∧ rest ≠ "" ∧ luaSetting c rest = some id ∧
        e = (some t, rest, id) := by
  unfold loadFor
  cases hs : stripServer t var with
  | none => simp [stripServer_eq_none.mp hs]
  | some rest =>
    obtain rfl := stripServer_eq_some.mp hs
    by_cases hr : rest = ""
    · subst hr; simp [joinKey_right_inj]
    · simp only [hr, if_false, Option.map_eq_some_iff]
      constructor
      · rintro ⟨id, hid, rfl⟩
        exact ⟨rest, id, rfl, hr, hid, rfl⟩
      · rintro ⟨rest', id, hk, -, hid, rfl⟩
        obtain rfl := joinKey_right_inj.mp hk
        exact ⟨id, hid, rfl⟩

theorem filterMap_eq_singleton {α β : Type} {l : List α} (hnodup : l.Nodup) {f : α → Option β}
    {a : α} {b : β} (ha : a ∈ l) (hfa : f a = some b) (hne : ∀ x ∈ l, x ≠ a → f x = none) :
    l.filterMap f = [b] := by
  obtain ⟨l₁, l₂, rfl⟩ := List.append_of_mem ha
  have hmid := List.nodup_middle.mp hnodup
  have hnil : ∀ l' : List α, (∀ x ∈ l', x ∈ l₁ ++ l₂) → l'.filterMap f = [] := fun l' hl' =>
    List.filterMap_eq_nil_iff.mpr fun x hx => hne x
      (List.mem_append.mpr ((List.mem_append.mp (hl' x hx)).imp_right (List.mem_cons_of_mem _)))
      fun he => hmid.notMem (he ▸ hl' x hx)
  rw [List.filterMap_append, List.filterMap_cons, hfa, hnil l₁ (fun _ => List.mem_append_left _),
    hnil l₂ (fun _ => List.mem_append_right _)]
  rfl

/-- What is written for a variable: a global entry for the setting of its name, the entries of the
servers, and a global entry for the setting in front of its number. -/
theorem mem_loadVariable {var : String} {e : Option String × String × String} :
    e ∈ loadVariable c servers var ↔
      (c.find var).isSome ∧ e = (none, var, var) ∨ (∃ t ∈ servers, loadFor c var t = some e) ∨
        ∃ base d, suffixRx var = some (base, d) ∧
          (c.find base).any (fun s => s.multiple.isSome) ∧ e = (none, var, base) := by
  unfold loadVariable
  rw [List.mem_append, List.mem_append, List.mem_filterMap, or_assoc]
  refine or_congr (by split_ifs <;> simp_all) (or_congr Iff.rfl ?_)
  cases suffixRx var with
  | none => simp
  | some x =>
    obtain ⟨base, d⟩ := x
    dsimp only
    split_ifs <;> simp_all

/-- A variable has a global entry if it is known as a whole. -/
theorem exists_mem_loadVariable_none {var : String} :
    (∃ id, (none, var, id) ∈ loadVariable c servers var) ↔ luaSetting c var ≠ none := by
  have hservers : ∀ id t, loadFor c var t ≠ some (none, var, id) := fun id t h => by
    obtain ⟨rest, id', -, -, -, he⟩ := loadFor_eq_some.mp h
    cases he
  rw [ne_eq, luaSetting_eq_none, not_and_or, ← ne_eq, ← Option.isSome_iff_ne_none]
  constructor
  · rintro ⟨id, h⟩
    rcases mem_loadVariable.mp h with ⟨hf, -⟩ | ⟨t, -, ht⟩ | ⟨base, d, hrx, hb, -⟩
    · exact .inl hf
    · exact absurd ht (hservers id t)
    · exact .inr fun hall => by rw [hall base d hrx] at hb; cases hb
  · rintro (hf | hb)
    · exact ⟨var, mem_loadVariable.mpr (.inl ⟨hf, rfl⟩)⟩
    · push Not at hb
      obtain ⟨base, d, hrx, hb⟩ := hb
      exact ⟨base, mem_loadVariable.mpr (.inr (.inr ⟨base, d, hrx, by simpa using hb, rfl⟩))⟩

theorem lua_iff (hs : server ∈ servers) (hnodup : servers.Nodup) {text id : String}
    (htext : text ≠ "") :
    loadVariable c servers (joinKey server text) = [(some server, text, id)] ↔
      luaSetting c text = some id ∧ luaSetting c (joinKey server text) = none ∧
        ∀ t ∈ servers, t ≠ server → ∀ rest, joinKey server text = joinKey t rest →
          luaSetting c rest = none := by
  constructor
  · intro h
    have hmem : ∀ e ∈ loadVariable c servers (joinKey server text), e = (some server, text, id) :=
      fun e he => List.mem_singleton.mp (h ▸ he)
    have hx : (some server, text, id) ∈ loadVariable c servers (joinKey server text) :=
      h ▸ List.mem_singleton_self _
    refine ⟨?_, ?_, fun t ht hne rest hk => ?_⟩
    · -- The one entry is not a global one, so it is that of a server.
      rcases mem_loadVariable.mp hx with ⟨-, he⟩ | ⟨t, -, ht⟩ | ⟨base, d, -, -, he⟩
      · cases he
      · obtain ⟨rest, id', -, -, hid, he⟩ := loadFor_eq_some.mp ht
        obtain ⟨-, rfl, rfl⟩ : some server = some t ∧ text = rest ∧ id = id' := by
          simpa using he
        exact hid
      · cases he
    · by_contra hglobal
      obtain ⟨id', hid⟩ := exists_mem_loadVariable_none.mpr hglobal
      cases hmem _ hid
    · by_contra hid
      obtain ⟨id', hid⟩ := Option.ne_none_iff_exists'.mp hid
      have hr : rest ≠ "" := fun he => by rw [he, luaSetting_empty] at hid; cases hid
      have := hmem _ (mem_loadVariable.mpr
        (.inr (.inl ⟨t, ht, loadFor_eq_some.mpr ⟨rest, id', hk, hr, hid, rfl⟩⟩)))
      obtain ⟨rfl, -⟩ : t = server ∧ _ := by simpa using this
      exact hne rfl
  · rintro ⟨htextid, hglobal, hothers⟩
    obtain ⟨hf, hb⟩ := luaSetting_eq_none.mp hglobal
    have hserver : servers.filterMap (loadFor c (joinKey server text)) =
        [(some server, text, id)] := by
      refine filterMap_eq_singleton hnodup hs
        (loadFor_eq_some.mpr ⟨text, id, rfl, htext, htextid, rfl⟩) fun t ht hne => ?_
      by_contra he
      obtain ⟨e, he⟩ := Option.ne_none_iff_exists'.mp he
      obtain ⟨rest, id', hk, -, hid, -⟩ := loadFor_eq_some.mp he
      rw [hothers t ht hne rest hk] at hid
      cases hid
    unfold loadVariable
    rw [hf, hserver]
    cases hrx : suffixRx (joinKey server text) with
    | none => rfl
    | some e =>
      obtain ⟨base, d⟩ := e
      simp [hb base d hrx]

theorem findVarIn_eq_some {target : List Setting} {var : String} {s : Setting}
    (h : findVarIn target var = some s) :
    s ∈ target ∧ (s.id = var ∨ s.multiple.isSome ∧ numberedAs s.id var = true) := by
  unfold findVarIn at h
  split at h
  · rename_i s' hs'
    cases h
    exact ⟨List.mem_of_find?_eq_some hs', .inl (by simpa using List.find?_some hs')⟩
  · exact ⟨List.mem_of_find?_eq_some h, .inr (by simpa using List.find?_some h)⟩

theorem findVarIn_eq_none {target : List Setting} {var : String}
    (h : findVarIn target var = none) {s : Setting} (hs : s ∈ target) :
    s.id ≠ var ∧ ¬ (s.multiple.isSome ∧ numberedAs s.id var = true) := by
  unfold findVarIn at h
  split at h
  · cases h
  · rename_i hnone
    exact ⟨by simpa using List.find?_eq_none.mp hnone s hs,
      by simpa using List.find?_eq_none.mp h s hs⟩

/-- `__find_var` finds the one setting that the name can stand for. -/
theorem findVar_eq_some {var : String} (hc : setting ∈ c.all)
    (hvar : setting.id = var ∨ setting.multiple.isSome ∧ numberedAs setting.id var = true)
    (huniq : ∀ s ∈ c.all, s.id = var ∨ s.multiple.isSome ∧ numberedAs s.id var = true →
      s = setting) : findVar c var = some setting := by
  have hin : ∀ target ∈ c.targets, ∀ s ∈ target, s ∈ c.all := fun target ht s hs =>
    List.mem_flatten.mpr ⟨target, ht, hs⟩
  cases h : findVar c var with
  | none =>
    obtain ⟨target, ht, hs⟩ := List.mem_flatten.mp hc
    obtain ⟨h1, h2⟩ := findVarIn_eq_none (List.findSome?_eq_none_iff.mp h target ht) hs
    rcases hvar with hv | hv
    · exact absurd hv h1
    · exact absurd hv h2
  | some s =>
    obtain ⟨target, ht, hf⟩ := List.exists_of_findSome?_eq_some h
    obtain ⟨hs, hor⟩ := findVarIn_eq_some hf
    rw [huniq s (hin target ht s hs) hor]

/-- A setting without a number at the end is found under its own name. -/
theorem findVar_self (hc : setting ∈ c.all) (hrx : suffixRx setting.id = none) :
    findVar c setting.id = some setting := by
  refine findVar_eq_some hc (.inl rfl) fun s hs hor => ?_
  rcases hor with hid | ⟨-, hnum⟩
  · exact c.eq_of_id hs hc hid
  · obtain ⟨d, hk, hd⟩ := numberedAs_iff.mp hnum
    rw [suffixRx_eq_some.mpr ⟨hk, c.ne_empty s hs, hd⟩] at hrx
    cases hrx

/-- A numbered name is found if its setting may be numbered and the name is none itself. -/
theorem findVar_numbered (hc : setting ∈ c.all) (hm : setting.multiple.isSome) {d : String}
    (hd : IsNumber d) (hfree : c.find (joinKey setting.id d) = none) :
    findVar c (joinKey setting.id d) = some setting := by
  refine findVar_eq_some hc (.inr ⟨hm, numberedAs_iff.mpr ⟨d, rfl, hd⟩⟩) fun s hs hor => ?_
  rcases hor with hid | ⟨-, hnum⟩
  · exact absurd hid (Catalog.find_eq_none.mp hfree s hs)
  · obtain ⟨d', hk, hd'⟩ := numberedAs_iff.mp hnum
    have h1 := suffixRx_eq_some.mpr ⟨hk, c.ne_empty s hs, hd'⟩
    rw [suffixRx_eq_some.mpr ⟨rfl, c.ne_empty setting hc, hd⟩] at h1
    obtain ⟨hid, -⟩ := Prod.mk.inj (Option.some.inj h1)
    exact (c.eq_of_id hc hs hid).symm

theorem luaSetting_settingText (hc : setting ∈ c.all) (hn : ∀ d ∈ n, IsNumber d) :
    luaSetting c (settingText setting.id n) = some setting.id ↔
      match n with
      | none => True
      | some d => setting.multiple.isSome ∧ c.find (joinKey setting.id d) = none := by
  have hself := Catalog.find_eq_some.mpr ⟨hc, rfl⟩
  cases n with
  | none => simp [luaSetting, settingText, hself]
  | some d =>
    have hrx := suffixRx_eq_some.mpr ⟨rfl, c.ne_empty setting hc, hn d rfl⟩
    simp only [luaSetting, settingText, hrx, hself]
    cases hf : c.find (joinKey setting.id d) with
    | none => simp [Option.isSome_iff_ne_none]
    | some s =>
      -- The name is a setting of its own, and longer than that in front of the number.
      simp only [Option.isSome_some, if_true, Option.some.injEq, reduceCtorEq, and_false,
        iff_false]
      intro h
      have := congrArg String.length h
      rw [← String.length_toList, toList_joinKey, List.length_append, List.length_cons,
        String.length_toList] at this
      omega

end

/-- **Attribution.** For every catalog, every list of server names without duplicates, every
server of it, every multisite setting and every number or none: the four components give the key
to that server and that setting if and only if it is `Unambiguous`. -/
theorem agree_iff (c : Catalog) {servers : List String} (hnodup : servers.Nodup) {server : String}
    (hs : server ∈ servers) {setting : Setting} (hc : setting ∈ c.all)
    (hctx : setting.context = .multisite) {n : Option String} (hn : ∀ d ∈ n, IsNumber d) :
    Agree c servers server setting n ↔ Unambiguous c servers server setting n := by
  have hid : setting.id ≠ "" := c.ne_empty setting hc
  have htext := settingText_ne_empty hid n
  constructor
  · rintro ⟨hconf, hdb, htempl, hlua⟩
    obtain ⟨hkept, hfirst, -⟩ := (configurator_iff hctx).mp hconf
    obtain ⟨-, hsplit⟩ := (database_iff hc).mp hdb
    obtain ⟨hself, hglobal, hothers⟩ := (lua_iff hs hnodup htext).mp hlua
    refine ⟨hkept, ?_, fun t ht hne rest hk => ⟨?_, ?_, hothers t ht hne rest hk⟩, hglobal⟩
    · have h1 := (splitKey_settingText hid hn).mp hsplit
      have h2 := (luaSetting_settingText hc hn).mp hself
      cases n with
      | none => exact h1
      | some d => exact ⟨h1, h2⟩
    · exact (varIsPrefixed_iff hs hnodup).mp hfirst t ht hne rest hk
    · have hle := (templator_iff hs _).mp htempl t ht rest hk
      refine Nat.lt_of_le_of_ne hle fun he => hne ?_
      exact (joinKey_inj_of_length hk he).1.symm
  · rintro ⟨hkept, hnum, hothers, hglobal⟩
    have htempl : extractServerAndKey servers (joinKey server (settingText setting.id n)) =
        some (server, settingText setting.id n) := by
      refine (templator_iff hs _).mpr fun t ht rest hk => ?_
      by_cases hne : t = server
      · rw [hne]
      · exact (hothers t ht hne rest hk).2.1.le
    have hfirst := (varIsPrefixed_iff hs hnodup).mpr
      fun t ht hne rest hk => (hothers t ht hne rest hk).1
    have hfound : findVar c (settingText setting.id n) = some setting := by
      cases n with
      | none => exact findVar_self hc hnum
      | some d => exact findVar_numbered hc hnum.2.1 (hn d rfl) hnum.2.2
    have hsplit := (splitKey_settingText hid hn).mpr (by
      cases n with
      | none => exact hnum
      | some d => exact hnum.1)
    have hself := (luaSetting_settingText hc hn).mpr (by
      cases n with
      | none => trivial
      | some d => exact hnum.2)
    exact ⟨(configurator_iff hctx).mpr ⟨hkept, hfirst, hfound⟩,
      (database_iff hc).mpr ⟨htempl, hsplit⟩, htempl,
      (lua_iff hs hnodup htext).mpr
        ⟨hself, hglobal, fun t ht hne rest hk => (hothers t ht hne rest hk).2.2⟩⟩

def gzipCatalog : Catalog := ⟨[[useGzip]], by decide, by decide⟩

theorem agree_iff_two_servers : Agree gzipCatalog ["a", "b"] "b" useGzip none ↔
    Unambiguous gzipCatalog ["a", "b"] "b" useGzip none :=
  agree_iff gzipCatalog (by decide) (by decide) (by decide) rfl (by simp)

/-- Of two accepted names one is the other up to an underscore, and comes before it: the keys of
the longer one are taken for keys of the shorter one, and refused. -/
theorem shadowed_server :
    (∀ name ∈ ["a", "a_b"], serverNameOk (fun c => c.isAlphanum || c == '_') name = true) ∧
      ¬ Agree gzipCatalog ["a", "a_b"] "a_b" useGzip none := by
  refine ⟨by decide, fun h => ?_⟩
  exact absurd h.templator (by decide)

end BunkerWeb
