import BunkerWeb.VariablesEnv

/-!
# The configuration that variables stand for (`Configurator.py`)

`get_config` lays the variables that pass `__check_var` over the defaults of all settings, and gives
every service of `SERVER_NAME` a key for each setting that it may have and that no variable has set.

- **The source** (`Source`): what is read besides the variables. Regular expressions are a parameter,
  and so are the templates and the services that the database knows; without a database there are
  none.
- **The result** (`Result`): the configuration and `explicit_keys`. `none` is `exit(1)`.

Logs are left out, and so are the server names that `__map_servers` keeps for a service: only its
keys are read here.
-/

namespace BunkerWeb.Configurator

open Lib

/-- The variables, or the configuration that is made of them. -/
abbrev Config := Dict String String

structure Source where
  catalog : Catalog
  /-- The setting `SERVER_NAME` of `settings.json`. -/
  serverName : Setting
  serverName_mem : serverName ∈ catalog.all
  serverName_id : serverName.id = "SERVER_NAME"
  /-- `IGNORE_REGEX_CHECK` is `yes`. -/
  ignoreRegexCheck : Bool
  /-- `re_search(pattern, text, DOTALL if dotall else 0) is not None`; `none` is a `RegexError`. -/
  search : (pattern : String) → (dotall : Bool) → (text : String) → Option Bool
  /-- `db.get_template_settings`. -/
  templateSettings : String → Config
  /-- The identifiers that the loop over `db.get_services(with_drafts=False)` gets to. -/
  services : List String

structure Result where
  config : Config
  explicitKeys : List String

namespace Source

variable (src : Source)

/-- The check of a value in `__check_var`: an invalid regular expression accepts everything. -/
def accepts (s : Setting) (value : String) : Bool :=
  src.ignoreRegexCheck || (src.search s.regex (s.type = .file) value).getD true

/-- `self.__multisite`. -/
def multisite (vars : Config) : Bool := (vars.lookup "MULTISITE").getD "no" = "yes"

/-- The keys of `__map_servers`; a name that is listed twice is looked for twice here. -/
def mapServers (vars : Config) : List String :=
  if !multisite vars then []
  else
    match vars.lookup "SERVER_NAME" with
    | none => []
    | some names => (words names).filter fun name =>
        match src.search src.serverName.regex false name with
        | none => false
        | some found => src.ignoreRegexCheck || found

/-- `self.__servers`, with those of the database. -/
def servers (vars : Config) : List String :=
  let mapped := src.mapServers vars
  if multisite vars then mapped ++ src.services.filter fun id => id ≠ "" ∧ id ∉ mapped else mapped

/-- `get_config` takes the variable over. -/
def taken (servers : List String) (e : String × String) : Bool :=
  !excluded e.1 && (checkVar src.accepts src.catalog servers e.1 e.2).1

/-- The body of the loop over the variables. -/
def takeVariable (servers : List String) (r : Result) (e : String × String) : Option Result :=
  if excluded e.1 then some r
  else if (checkVar src.accepts src.catalog servers e.1 e.2).1 then
    some ⟨r.config.insert e.1 e.2, r.explicitKeys ++ [e.1]⟩
  else if e.1 = "SERVER_NAME" then none
  else some r

/-- `self.__variables.get("USE_TEMPLATE", "")`. -/
def template (vars : Config) : String := (vars.lookup "USE_TEMPLATE").getD ""

/-- `template_settings`. -/
def globalTemplate (vars : Config) : Config :=
  if template vars = "" then ∅ else src.templateSettings (template vars)

/-- The defaults, as the template of all services overrides them. -/
def defaults (vars : Config) : List (String × String) :=
  src.catalog.all.map fun s => (s.id, ((src.globalTemplate vars).lookup s.id).getD s.default)

/-- The body of the inner loop of the expansion. -/
def fillSetting (server : String) (serviceTemplate : Config) (config : Config) (s : Setting) :
    Config :=
  if s.context = .global then config
  else if (config.lookup (joinKey server s.id)).isSome then config
  else if s.id = "SERVER_NAME" then config.insert (joinKey server s.id) server
  else
    match config.lookup s.id with
    | none => config
    | some value => config.insert (joinKey server s.id) ((serviceTemplate.lookup s.id).getD value)

/-- The template of a service, when it is not the one of all services. -/
def serviceTemplate (template : String) (config : Config) (server : String) : Config :=
  let own := (config.lookup (joinKey server "USE_TEMPLATE")).getD template
  if own ≠ template then src.templateSettings own else ∅

/-- The body of the outer loop of the expansion. -/
def expandService (template : String) (config : Config) (server : String) : Config :=
  src.catalog.all.foldl (fillSetting server (src.serviceTemplate template config server)) config

/-- The services that `get_config` expands. -/
def listed (config : Config) : List String := words ((config.lookup "SERVER_NAME").getD "")

/-- `get_config`. -/
def getConfig (vars : Config) : Option Result := do
  if src.catalog.targets.getD 0 [] = [] ∨ src.catalog.targets.getD 1 [] = [] then none
  let r ← vars.items.foldlM (src.takeVariable (src.servers vars))
    ⟨(∅ : Config).setAll (src.defaults vars), []⟩
  if (r.config.lookup "MULTISITE").getD "no" = "yes" then
    some { r with config := (listed r.config).foldl (src.expandService (template vars)) r.config }
  else some r

/-! ## Before the expansion -/

/-- The value that the variables give a key. -/
def given (vars : Config) (key : String) : Option String :=
  (vars.lookup key).filter fun value => src.taken (src.servers vars) (key, value)

/-- The value that a setting has without a variable. -/
def defaultOf (vars : Config) (key : String) : Option String :=
  (src.catalog.find key).map fun s => ((src.globalTemplate vars).lookup s.id).getD s.default

/-- The configuration after the loop over the variables. -/
def base (vars : Config) : Config :=
  ((∅ : Config).setAll (src.defaults vars)).setAll
    (vars.items.filter (src.taken (src.servers vars)))

/-- The configuration at the end. -/
def expanded (vars : Config) : Config :=
  if ((src.base vars).lookup "MULTISITE").getD "no" = "yes" then
    (listed (src.base vars)).foldl (src.expandService (template vars)) (src.base vars)
  else src.base vars

/-- `SERVER_NAME` is given, and refused. -/
def Refused (vars : Config) : Prop :=
  ∃ names, vars.lookup "SERVER_NAME" = some names ∧
    src.taken (src.servers vars) ("SERVER_NAME", names) = false

/-- The loop stops at a `SERVER_NAME` that is refused. -/
def stopsAt (servers : List String) (e : String × String) : Bool :=
  e.1 = "SERVER_NAME" && !src.taken servers e

variable {src} {vars vars' : Config} {key : String} {r r' : Result}

theorem takeVariable_eq (servers : List String) (r : Result) (e : String × String) :
    src.takeVariable servers r e =
      if src.taken servers e then some ⟨r.config.insert e.1 e.2, r.explicitKeys ++ [e.1]⟩
      else if e.1 = "SERVER_NAME" then none
      else some r := by
  have hname : excluded "SERVER_NAME" = false := by decide +kernel
  unfold takeVariable taken
  cases hx : excluded e.1 with
  | false => simp
  | true =>
    have hne : e.1 ≠ "SERVER_NAME" := fun he => by rw [he, hname] at hx; cases hx
    simp [hne]

theorem foldlM_takeVariable (servers : List String) (l : List (String × String)) (r : Result) :
    l.foldlM (src.takeVariable servers) r =
      if l.any (src.stopsAt servers) then none
      else some ⟨r.config.setAll (l.filter (src.taken servers)),
        r.explicitKeys ++ (l.filter (src.taken servers)).map Prod.fst⟩ := by
  induction l generalizing r with
  | nil => simp [Dict.setAll]
  | cons e l ih =>
    rw [List.foldlM_cons, takeVariable_eq, List.any_cons]
    cases ht : src.taken servers e with
    | true =>
      have hstop : src.stopsAt servers e = false := by simp [stopsAt, ht]
      simp only [if_true, Option.bind_eq_bind, Option.bind_some, ih, hstop, Bool.false_or,
        List.filter_cons_of_pos ht, List.map_cons, List.append_assoc, List.singleton_append]
      rfl
    | false =>
      by_cases hname : e.1 = "SERVER_NAME"
      · simp [hname, show src.stopsAt servers e = true by simp [stopsAt, ht, hname]]
      · have hstop : src.stopsAt servers e = false := by simp [stopsAt, hname]
        rw [hstop, Bool.false_or, List.filter_cons_of_neg (by rw [ht]; exact Bool.false_ne_true),
          if_neg Bool.false_ne_true, if_neg hname]
        exact ih r

theorem any_stopsAt : vars.items.any (src.stopsAt (src.servers vars)) = true ↔ src.Refused vars := by
  rw [List.any_eq_true]
  constructor
  · rintro ⟨⟨k, v⟩, he, hstop⟩
    simp only [stopsAt, Bool.and_eq_true, decide_eq_true_eq, Bool.not_eq_true'] at hstop
    obtain ⟨rfl, ht⟩ := hstop
    exact ⟨v, Dict.mem_items.mp he, ht⟩
  · rintro ⟨v, hv, ht⟩
    exact ⟨_, Dict.mem_items.mpr hv, by simp [stopsAt, ht]⟩

theorem getConfig_eq_some :
    src.getConfig vars = some r ↔
      (src.catalog.targets.getD 0 [] ≠ [] ∧ src.catalog.targets.getD 1 [] ≠ []) ∧
        ¬ src.Refused vars ∧ r = ⟨src.expanded vars,
          (vars.items.filter (src.taken (src.servers vars))).map Prod.fst⟩ := by
  unfold getConfig
  by_cases htargets : src.catalog.targets.getD 0 [] = [] ∨ src.catalog.targets.getD 1 [] = []
  · rw [if_pos htargets]
    exact ⟨fun h => (by cases h), fun h => absurd htargets (not_or.mpr h.1)⟩
  · rw [if_neg htargets, foldlM_takeVariable]
    rw [not_or] at htargets
    by_cases hr : src.Refused vars
    · simp [any_stopsAt.mpr hr, hr]
    · have hany : vars.items.any (src.stopsAt (src.servers vars)) = false :=
        Bool.eq_false_iff.mpr fun h => hr (any_stopsAt.mp h)
      rw [if_neg (by rw [hany]; exact Bool.false_ne_true)]
      have hwhole : (if ((src.base vars).lookup "MULTISITE").getD "no" = "yes" then
          some (⟨(listed (src.base vars)).foldl (src.expandService (template vars)) (src.base vars),
            (vars.items.filter (src.taken (src.servers vars))).map Prod.fst⟩ : Result)
          else some ⟨src.base vars, (vars.items.filter (src.taken (src.servers vars))).map Prod.fst⟩)
          = some ⟨src.expanded vars,
            (vars.items.filter (src.taken (src.servers vars))).map Prod.fst⟩ := by
        rw [expanded]
        split <;> rfl
      exact (Eq.congr_left hwhole).trans
        ⟨fun h => ⟨htargets, hr, (Option.some.inj h).symm⟩, fun h => congrArg some h.2.2.symm⟩

theorem lookup_base (vars : Config) (key : String) :
    (src.base vars).lookup key = (src.given vars key).or (src.defaultOf vars key) := by
  have hgiven : Dict.lastOf key (vars.items.filter (src.taken (src.servers vars))) =
      src.given vars key := by
    refine Dict.lastOf_eq_of_iff fun v => ?_
    rw [List.mem_filter, Dict.mem_items, given, Option.filter_eq_some_iff]
  have hdefault : Dict.lastOf key (src.defaults vars) = src.defaultOf vars key := by
    refine Dict.lastOf_eq_of_iff fun v => ?_
    rw [defaults, List.mem_map, defaultOf, Option.map_eq_some_iff]
    constructor
    · rintro ⟨s, hs, he⟩
      cases he
      exact ⟨s, Catalog.find_eq_some.mpr ⟨hs, rfl⟩, rfl⟩
    · rintro ⟨s, hs, rfl⟩
      obtain ⟨hmem, rfl⟩ := Catalog.find_eq_some.mp hs
      exact ⟨s, hmem, rfl⟩
  rw [base, Dict.lookup_setAll, Dict.lookup_setAll, hgiven, hdefault, AList.lookup_empty,
    Option.or_none]

/-! ## The expansion -/

section

variable {server : String} {own config d d' : Config} {s : Setting} {value : String → String}

/-- The value that a service gets for a setting without a key of its own. -/
def filled (value : String → String) (server : String) (own : Config) (s : Setting) : String :=
  if s.id = "SERVER_NAME" then server else (own.lookup s.id).getD (value s.id)

/-- The setting that the expansion of a service fills a key for. -/
def filledSetting (src : Source) (server key : String) : Option Setting :=
  src.catalog.all.find? fun s => s.context ≠ .global ∧ joinKey server s.id = key

theorem lookup_fillSetting (h : config.lookup s.id = some (value s.id)) (key : String) :
    (fillSetting server own config s).lookup key =
      (config.lookup key).or
        (if s.context ≠ .global ∧ joinKey server s.id = key then some (filled value server own s)
          else none) := by
  unfold fillSetting filled
  by_cases hctx : s.context = .global
  · simp [hctx]
  by_cases hkey : joinKey server s.id = key
  · subst hkey
    cases hc : config.lookup (joinKey server s.id) with
    | some v => simp [hctx, hc]
    | none =>
      by_cases hname : s.id = "SERVER_NAME"
      · rw [if_neg hctx, if_neg (by simp), if_pos hname, AList.lookup_insert, if_pos hname]
        simp [hctx]
      · simp [hctx, hname, h]
  · have hne : key ≠ joinKey server s.id := Ne.symm hkey
    simp only [hctx, hkey, if_false, and_false, Option.or_none]
    split
    · rfl
    split
    · exact AList.lookup_insert_ne hne
    · rw [h]
      exact AList.lookup_insert_ne hne

theorem lookup_foldl_fillSetting {l : List Setting}
    (h : ∀ s ∈ l, config.lookup s.id = some (value s.id)) (key : String) :
    (l.foldl (fillSetting server own) config).lookup key =
      (config.lookup key).or
        ((l.find? fun s => s.context ≠ .global ∧ joinKey server s.id = key).map
          (filled value server own)) := by
  induction l generalizing config with
  | nil => simp
  | cons s l ih =>
    obtain ⟨hs, hl⟩ := List.forall_mem_cons.mp h
    have hkept : ∀ t ∈ l, (fillSetting server own config s).lookup t.id = some (value t.id) := by
      intro t ht
      rw [lookup_fillSetting hs, hl t ht, Option.some_or]
    rw [List.foldl_cons, ih hkept, lookup_fillSetting hs, Option.or_assoc, List.find?_cons]
    by_cases hc : s.context ≠ .global ∧ joinKey server s.id = key
    · simp [hc]
    · simp [hc]

/-- All settings have their values in the configuration. -/
def Valued (src : Source) (value : String → String) (config : Config) : Prop :=
  ∀ s ∈ src.catalog.all, config.lookup s.id = some (value s.id)

theorem lookup_expandService (h : Valued src value config) (t : String) (key : String) :
    (src.expandService t config server).lookup key =
      (config.lookup key).or ((src.filledSetting server key).map
        (filled value server (src.serviceTemplate t config server))) :=
  lookup_foldl_fillSetting h key

theorem Valued.expandService (h : Valued src value config) (t : String) :
    Valued src value (src.expandService t config server) := by
  intro s hs
  rw [lookup_expandService h, h s hs, Option.some_or]

theorem filledSetting_eq_some :
    src.filledSetting server key = some s ↔
      s ∈ src.catalog.all ∧ s.context ≠ .global ∧ key = joinKey server s.id := by
  have hsound : ∀ {s}, src.filledSetting server key = some s →
      s ∈ src.catalog.all ∧ s.context ≠ .global ∧ key = joinKey server s.id := by
    intro s h
    have hp := List.find?_some h
    rw [decide_eq_true_eq] at hp
    exact ⟨List.mem_of_find?_eq_some h, hp.1, hp.2.symm⟩
  refine ⟨hsound, ?_⟩
  rintro ⟨hs, hctx, rfl⟩
  cases h : src.filledSetting server (joinKey server s.id) with
  | none => exact absurd (List.find?_eq_none.mp h s hs) (by simp [hctx])
  | some s' =>
    obtain ⟨hs', -, hkey⟩ := hsound h
    rw [src.catalog.eq_of_id hs hs' (joinKey_right_inj.mp hkey)]

/-- Every entry of the one dictionary is in the other. -/
def Within (d d' : Config) : Prop := ∀ key v, d.lookup key = some v → d'.lookup key = some v

theorem within_foldl_expandService (h : Valued src value config) (t : String)
    (servers : List String) : Within config (servers.foldl (src.expandService t) config) := by
  induction servers generalizing config with
  | nil => exact fun _ _ hv => hv
  | cons server servers ih =>
    intro key v hv
    refine ih (h.expandService t) key v ?_
    rw [lookup_expandService h, hv, Option.some_or]

/-- The template of all services, as it is among the values that the services are filled with. -/
structure Steers (src : Source) (value : String → String) (t : String) : Prop where
  setting : ∃ s ∈ src.catalog.all, s.id = "USE_TEMPLATE" ∧ s.context ≠ .global
  value : value "USE_TEMPLATE" = t

/-- Filling again what has been filled in part ends where filling ends. -/
theorem lookup_foldl_again {t : String} (ht : Steers src value t) (servers : List String)
    (hd : Valued src value d) (hd' : Valued src value d') (hle : Within d d')
    (hend : Within d' (servers.foldl (src.expandService t) d)) (key : String) :
    (servers.foldl (src.expandService t) d').lookup key =
      (servers.foldl (src.expandService t) d).lookup key := by
  induction servers generalizing d d' with
  | nil =>
    cases hk : d'.lookup key with
    | some v => exact hk.trans (hend key v hk).symm
    | none =>
      refine hk.trans (Eq.symm (Option.eq_none_iff_forall_not_mem.mpr fun v hv => ?_))
      rw [hle key v hv] at hk
      cases hk
  | cons server servers ih =>
    have hstep : ∀ key v, (src.expandService t d server).lookup key = some v →
        ((server :: servers).foldl (src.expandService t) d).lookup key = some v :=
      within_foldl_expandService (hd.expandService t) t servers
    -- The service has the same template in both.
    have htemplate : src.serviceTemplate t d' server = src.serviceTemplate t d server := by
      have hown : ((d'.lookup (joinKey server "USE_TEMPLATE")).getD t) =
          (d.lookup (joinKey server "USE_TEMPLATE")).getD t := by
        cases hk : d.lookup (joinKey server "USE_TEMPLATE") with
        | some v => rw [hle _ v hk]
        | none =>
          cases hk' : d'.lookup (joinKey server "USE_TEMPLATE") with
          | none => rfl
          | some w =>
            obtain ⟨s, hs, hid, hctx⟩ := ht.setting
            have hfilled : (src.expandService t d server).lookup (joinKey server "USE_TEMPLATE") =
                some t := by
              rw [lookup_expandService hd, hk, Option.none_or,
                filledSetting_eq_some.mpr ⟨hs, hctx, by rw [hid]⟩, Option.map_some, filled,
                if_neg (by rw [hid]; decide), hid, ht.value, serviceTemplate, hk]
              simp
            have hw := hend _ w hk'
            rw [hstep _ _ hfilled] at hw
            exact (Option.some.inj hw).symm
      rw [serviceTemplate, serviceTemplate, hown]
    have hlookup : ∀ key, (src.expandService t d' server).lookup key =
        (d'.lookup key).or ((src.filledSetting server key).map
          (filled value server (src.serviceTemplate t d server))) := fun key => by
      rw [lookup_expandService hd', htemplate]
    refine ih (hd.expandService t) (hd'.expandService t) (fun key v hv => ?_) fun key v hv => ?_
    · rw [hlookup]
      cases hk : d'.lookup key with
      | some w =>
        have hw := hend key w hk
        rw [hstep key v hv] at hw
        rw [Option.some_or, hw]
      | none =>
        cases hk₀ : d.lookup key with
        | some w => rw [hle key w hk₀] at hk; cases hk
        | none =>
          rw [lookup_expandService hd, hk₀] at hv
          exact hv
    · rw [hlookup] at hv
      cases hk : d'.lookup key with
      | some w =>
        rw [hk, Option.some_or] at hv
        exact hend key v (hk.trans hv)
      | none =>
        rw [hk, Option.none_or] at hv
        refine hstep key v ?_
        cases hk₀ : d.lookup key with
        | some w => rw [hle key w hk₀] at hk; cases hk
        | none => rw [lookup_expandService hd, hk₀, Option.none_or, hv]

end

/-! ## The variables again -/

/-- What a setting has before the expansion. -/
def valueOf (src : Source) (vars : Config) (id : String) : String :=
  ((src.base vars).lookup id).getD ""

theorem valued_base (vars : Config) : Valued src (src.valueOf vars) (src.base vars) := by
  intro s hs
  have hdefault : src.defaultOf vars s.id =
      some (((src.globalTemplate vars).lookup s.id).getD s.default) := by
    rw [defaultOf, Catalog.find_eq_some.mpr ⟨hs, rfl⟩, Option.map_some]
  rw [valueOf, lookup_base, hdefault]
  cases src.given vars s.id <;> rfl

theorem within_expanded (vars : Config) : Within (src.base vars) (src.expanded vars) := by
  unfold expanded
  split
  · exact within_foldl_expandService (valued_base vars) _ _
  · exact fun _ _ hv => hv

theorem given_eq_some {v : String} :
    src.given vars key = some v ↔
      vars.lookup key = some v ∧ src.taken (src.servers vars) (key, v) = true := by
  rw [given, Option.filter_eq_some_iff]

/-- `MULTISITE` and `USE_TEMPLATE`, which the rest of the configuration depends on, are taken over
as they are given, and without them their values are what `get` makes of a missing key. -/
structure Steered (src : Source) (vars : Config) : Prop where
  named : ∃ names, vars.lookup "SERVER_NAME" = some names
  multisite : ∀ v, vars.lookup "MULTISITE" = some v →
    src.taken (src.servers vars) ("MULTISITE", v) = true
  single : vars.lookup "MULTISITE" = none → src.defaultOf vars "MULTISITE" ≠ some "yes"
  template : ∀ v, vars.lookup "USE_TEMPLATE" = some v →
    src.taken (src.servers vars) ("USE_TEMPLATE", v) = true
  useTemplate : ∃ s ∈ src.catalog.all, s.id = "USE_TEMPLATE" ∧ s.context ≠ .global ∧ s.default = ""

/-- The configuration of the variables, read as variables again. -/
structure Again (src : Source) (vars vars' : Config) : Prop where
  steered : src.Steered vars
  accepted : ¬ src.Refused vars
  lookup : ∀ key, vars'.lookup key = (src.expanded vars).lookup key

section

variable (h : Again src vars vars')

include h

theorem Again.of_given {v : String} (hv : src.given vars key = some v) :
    vars'.lookup key = some v := by
  refine (h.lookup key).trans (within_expanded vars key v ?_)
  rw [lookup_base, hv, Option.some_or]

theorem Again.of_taken {v : String} (hv : vars.lookup key = some v)
    (ht : src.taken (src.servers vars) (key, v) = true) : vars'.lookup key = some v :=
  h.of_given (given_eq_some.mpr ⟨hv, ht⟩)

theorem Again.serverName : vars'.lookup "SERVER_NAME" = vars.lookup "SERVER_NAME" := by
  obtain ⟨names, hnames⟩ := h.steered.named
  rw [hnames]
  refine h.of_taken hnames (Bool.not_eq_false _ ▸ fun ht => h.accepted ⟨names, hnames, ht⟩)

theorem Again.multisite : multisite vars' = multisite vars := by
  unfold Source.multisite
  cases hv : vars.lookup "MULTISITE" with
  | some v => rw [h.of_taken hv (h.steered.multisite v hv)]
  | none =>
    have hbase : (src.base vars).lookup "MULTISITE" = src.defaultOf vars "MULTISITE" := by
      rw [lookup_base, given, hv, Option.filter_none, Option.none_or]
    have hsingle : ((src.base vars).lookup "MULTISITE").getD "no" ≠ "yes" := by
      have hne := h.steered.single hv
      rw [hbase]
      cases hd : src.defaultOf vars "MULTISITE" with
      | none => decide
      | some d => exact fun he => hne (hd.trans (congrArg some he))
    rw [h.lookup, expanded, if_neg hsingle]
    simpa using hsingle

theorem Again.servers : src.servers vars' = src.servers vars := by
  have hmap : src.mapServers vars' = src.mapServers vars := by
    rw [mapServers, mapServers, h.multisite, h.serverName]
  rw [Source.servers, Source.servers, hmap, h.multisite]

theorem Again.template : Source.template vars' = Source.template vars := by
  unfold Source.template
  cases hv : vars.lookup "USE_TEMPLATE" with
  | some v => rw [h.of_taken hv (h.steered.template v hv)]
  | none =>
    obtain ⟨s, hs, hid, -, hdefault⟩ := h.steered.useTemplate
    have hglobal : src.globalTemplate vars = ∅ := by
      rw [globalTemplate, Source.template, hv]
      rfl
    have hbase : (src.base vars).lookup "USE_TEMPLATE" = some "" := by
      rw [lookup_base, given, hv, Option.filter_none, Option.none_or, defaultOf, ← hid,
        Catalog.find_eq_some.mpr ⟨hs, rfl⟩, Option.map_some, hglobal, AList.lookup_empty,
        Option.getD_none, hdefault]
    rw [h.lookup, within_expanded vars _ _ hbase]
    rfl

theorem Again.defaultOf (key : String) : src.defaultOf vars' key = src.defaultOf vars key := by
  rw [Source.defaultOf, Source.defaultOf, globalTemplate, globalTemplate, h.template]

/-- A variable that was taken over is taken over again, one with the value of a default may be. -/
theorem Again.given (key : String) :
    src.given vars' key = ((src.expanded vars).lookup key).filter
      fun v => src.taken (src.servers vars) (key, v) := by
  rw [Source.given, h.servers, h.lookup]

theorem Again.base_le : Within (src.base vars) (src.base vars') := by
  intro key v hv
  have hend := within_expanded vars key v hv
  rw [lookup_base] at hv
  rw [lookup_base, h.given, hend, h.defaultOf]
  cases hg : src.given vars key with
  | some w =>
    rw [hg, Option.some_or] at hv
    cases hv
    rw [Option.filter_some, (given_eq_some.mp hg).2, if_pos rfl, Option.some_or]
  | none =>
    rw [hg, Option.none_or] at hv
    rw [hv]
    rw [Option.filter_some]
    split <;> rfl

theorem Again.base_end : Within (src.base vars') (src.expanded vars) := by
  intro key v hv
  rw [lookup_base, h.given, h.defaultOf] at hv
  cases hend : (src.expanded vars).lookup key with
  | none =>
    rw [hend, Option.filter_none, Option.none_or] at hv
    -- A setting with a default has a value in the configuration.
    have hbase : ((src.base vars).lookup key).isSome := by
      rw [lookup_base, hv]
      cases src.given vars key <;> rfl
    obtain ⟨w, hw⟩ := Option.isSome_iff_exists.mp hbase
    rw [within_expanded vars key w hw] at hend
    cases hend
  | some w =>
    cases ht : src.taken (src.servers vars) (key, w) with
    | true =>
      rwa [hend, Option.filter_some, ht, if_pos rfl, Option.some_or] at hv
    | false =>
      rw [hend, Option.filter_some, ht, if_neg Bool.false_ne_true, Option.none_or] at hv
      -- Nothing was given, so the default is what the configuration has.
      cases hg : src.given vars key with
      | some u =>
        have hu := within_expanded vars key u (by rw [lookup_base, hg, Option.some_or])
        rw [hend] at hu
        cases hu
        rw [(given_eq_some.mp hg).2] at ht
        cases ht
      | none =>
        have hd := within_expanded vars key v (by rw [lookup_base, hg, Option.none_or, hv])
        exact hend.symm.trans hd

theorem Again.lookup_expanded (key : String) :
    (src.expanded vars').lookup key = (src.expanded vars).lookup key := by
  have hvalued : Valued src (src.valueOf vars) (src.base vars') := fun s hs =>
    h.base_le _ _ (valued_base vars s hs)
  have hend := h.base_end
  obtain ⟨names, hnames⟩ := h.steered.named
  have hname : ((src.base vars').lookup "SERVER_NAME") = (src.base vars).lookup "SERVER_NAME" := by
    have ht : src.taken (src.servers vars) ("SERVER_NAME", names) = true :=
      Bool.not_eq_false _ ▸ fun ht => h.accepted ⟨names, hnames, ht⟩
    have hbase : (src.base vars).lookup "SERVER_NAME" = some names := by
      rw [lookup_base, given_eq_some.mpr ⟨hnames, ht⟩, Option.some_or]
    rw [hbase, h.base_le _ _ hbase]
  rw [expanded, expanded]
  rw [expanded] at hend
  by_cases hm : ((src.base vars).lookup "MULTISITE").getD "no" = "yes"
  · rw [if_pos hm] at hend ⊢
    have hm' : ((src.base vars').lookup "MULTISITE").getD "no" = "yes" := by
      cases hv : (src.base vars).lookup "MULTISITE" with
      | none => rw [hv] at hm; exact absurd hm (by decide)
      | some v => rw [h.base_le _ v hv, ← hv, hm]
    obtain ⟨s, hs, hid, hctx, -⟩ := h.steered.useTemplate
    have hsteers : Steers src (src.valueOf vars) (Source.template vars) := by
      refine ⟨⟨s, hs, hid, hctx⟩, ?_⟩
      have hbase : (src.base vars).lookup s.id = some (src.valueOf vars s.id) := valued_base vars s hs
      have hagain := (h.lookup s.id).trans (within_expanded vars _ _ hbase)
      rw [hid] at hagain
      rw [← h.template, Source.template, hagain, Option.getD_some]
    rw [if_pos hm', listed, hname, h.template, ← listed]
    exact lookup_foldl_again hsteers _ (valued_base vars) hvalued h.base_le hend key
  · rw [if_neg hm] at hend ⊢
    have hsame : ∀ key, (src.base vars').lookup key = (src.base vars).lookup key := by
      intro key
      cases hv : (src.base vars').lookup key with
      | some v => exact (hend key v hv).symm
      | none =>
        refine Eq.symm (Option.eq_none_iff_forall_not_mem.mpr fun v hv' => ?_)
        rw [h.base_le key v hv'] at hv
        cases hv
    rw [if_neg (by rw [hsame]; exact hm)]
    exact hsame key

end

/-- The configuration that was made, read as the variables, makes itself. -/
theorem regenerate (hs : src.Steered vars) (hr : src.getConfig vars = some r)
    (hsame : ∀ key, vars'.lookup key = r.config.lookup key) :
    ∃ r', src.getConfig vars' = some r' ∧ ∀ key, r'.config.lookup key = r.config.lookup key := by
  obtain ⟨htargets, haccepted, rfl⟩ := getConfig_eq_some.mp hr
  have h : Again src vars vars' := ⟨hs, haccepted, hsame⟩
  refine ⟨_, getConfig_eq_some.mpr ⟨htargets, ?_, rfl⟩, h.lookup_expanded⟩
  rintro ⟨names, hnames, ht⟩
  rw [h.serverName] at hnames
  rw [h.servers] at ht
  exact haccepted ⟨names, hnames, ht⟩

/-- `yes` and `no` are the values of a check, and anything is one of the other settings. -/
def sample : Source where
  catalog := ⟨[[multisiteSetting, serverNameSetting, useTemplate], [useGzip]], by decide, by decide⟩
  serverName := serverNameSetting
  serverName_mem := by decide
  serverName_id := rfl
  ignoreRegexCheck := false
  search pattern _ text := some (pattern != "^(yes|no)$" || text == "yes" || text == "no")
  templateSettings t := if t = "low" then Dict.ofItems [("USE_GZIP", "yes")] else ∅
  services := []

/-- `blog` has a template of its own, and `shop` is given a value that is refused. -/
def sampleVars : Config :=
  Dict.ofItems [("MULTISITE", "yes"), ("SERVER_NAME", "shop blog"), ("blog_USE_TEMPLATE", "low"),
    ("shop_USE_GZIP", "maybe")]

theorem sampleVars_steered : sample.Steered sampleVars := by
  have hmultisite : sampleVars.lookup "MULTISITE" = some "yes" := by decide +kernel
  have htemplate : sampleVars.lookup "USE_TEMPLATE" = none := by decide +kernel
  refine ⟨⟨"shop blog", by decide +kernel⟩, fun v hv => ?_, fun hnone => ?_, fun v hv => ?_,
    ⟨useTemplate, by decide, rfl, by decide, rfl⟩⟩
  · rw [hmultisite] at hv
    cases hv
    decide +kernel
  · rw [hmultisite] at hnone
    cases hnone
  · rw [htemplate] at hv
    cases hv

theorem sample_isSome : (sample.getConfig sampleVars).isSome := by decide +kernel

def sampleResult : Result := (sample.getConfig sampleVars).get sample_isSome

theorem sampleResult_eq : sample.getConfig sampleVars = some sampleResult :=
  (Option.some_get sample_isSome).symm

/-- **A fixed point.** A configuration that the Templator can write line by line is made again by
the Configurator that is given the file. -/
theorem regenerated_from_file (hs : src.Steered vars) (hr : src.getConfig vars = some r)
    (hlines : ∀ e ∈ r.config.items, VariablesEnv.PythonReadable e) :
    ∃ r', src.getConfig (VariablesEnv.loadVariables (VariablesEnv.writeConfig r.config)) = some r' ∧
      ∀ key, r'.config.lookup key = r.config.lookup key :=
  regenerate hs hr ((VariablesEnv.load_variables_iff r.config).mpr hlines)

theorem sample_regenerated :
    sampleResult.config.lookup "blog_USE_GZIP" = some "yes" ∧
      ∃ r', sample.getConfig
          (VariablesEnv.loadVariables (VariablesEnv.writeConfig sampleResult.config)) = some r' ∧
        ∀ key, r'.config.lookup key = sampleResult.config.lookup key := by
  refine ⟨by decide +kernel, regenerated_from_file sampleVars_steered sampleResult_eq ?_⟩
  have hlines : ∀ e ∈ sampleResult.config.items, '=' ∉ e.1.toList ∧
      ((VariablesEnv.line e).all fun c => !lineBoundary c) = true ∧
      (e.1.toList.head?.all fun c => !isSpace c && c != '#') = true ∧
      (e.2.toList.getLast?.all fun c => !isSpace c) = true := by decide +kernel
  intro e he
  obtain ⟨hequals, hline, hhead, hlast⟩ := hlines e he
  refine ⟨hequals, fun c hc => ?_, fun c hc => ?_, fun c hc => ?_⟩
  · simpa using List.all_eq_true.mp hline c hc
  · rw [Option.mem_def.mp hc] at hhead
    simpa using hhead
  · rw [Option.mem_def.mp hc] at hlast
    simpa using hlast

/-! ## The order of the variables -/

/-- Two configurations that read the same are expanded to such. -/
theorem lookup_foldl_congr {config config' : Config} {value : String → String}
    (hv : Valued src value config) (hsame : ∀ key, config'.lookup key = config.lookup key)
    (t : String) (servers : List String) (key : String) :
    (servers.foldl (src.expandService t) config').lookup key =
      (servers.foldl (src.expandService t) config).lookup key := by
  induction servers generalizing config config' with
  | nil => exact hsame key
  | cons server servers ih =>
    have hv' : Valued src value config' := fun s hs => (hsame _).trans (hv s hs)
    refine ih (hv.expandService t) fun key => ?_
    rw [lookup_expandService hv, lookup_expandService hv', hsame, serviceTemplate, serviceTemplate,
      hsame]

section

variable (h : ∀ key, vars'.lookup key = vars.lookup key)

include h

theorem servers_congr : src.servers vars' = src.servers vars := by
  have hmulti : Source.multisite vars' = Source.multisite vars := by
    rw [Source.multisite, Source.multisite, h]
  have hmap : src.mapServers vars' = src.mapServers vars := by
    rw [mapServers, mapServers, hmulti, h]
  rw [servers, servers, hmap, hmulti]

theorem lookup_base_congr (key : String) :
    (src.base vars').lookup key = (src.base vars).lookup key := by
  rw [lookup_base, lookup_base, given, given, servers_congr h, h, Source.defaultOf,
    Source.defaultOf, globalTemplate, globalTemplate, Source.template, Source.template, h]

theorem lookup_expanded_congr (key : String) :
    (src.expanded vars').lookup key = (src.expanded vars).lookup key := by
  have hbase : ∀ key, (src.base vars').lookup key = (src.base vars).lookup key := lookup_base_congr h
  have htemplate : Source.template vars' = Source.template vars := by
    rw [Source.template, Source.template, h]
  have hlisted : listed (src.base vars') = listed (src.base vars) := by
    rw [listed, listed, hbase]
  unfold expanded
  rw [hbase, hlisted, htemplate]
  split
  · exact lookup_foldl_congr (valued_base vars) hbase _ _ key
  · exact hbase key

end

/-- **No order.** What the configuration holds, and which keys are explicit, depends on what the
variables hold and not on their order. -/
theorem getConfig_unordered (h : ∀ key, vars'.lookup key = vars.lookup key)
    (hr : src.getConfig vars = some r) :
    ∃ r', src.getConfig vars' = some r' ∧ (∀ key, r'.config.lookup key = r.config.lookup key) ∧
      ∀ key, key ∈ r'.explicitKeys ↔ key ∈ r.explicitKeys := by
  obtain ⟨htargets, haccepted, rfl⟩ := getConfig_eq_some.mp hr
  refine ⟨_, getConfig_eq_some.mpr ⟨htargets, ?_, rfl⟩, lookup_expanded_congr h, fun key => ?_⟩
  · rintro ⟨names, hnames, ht⟩
    rw [h] at hnames
    rw [servers_congr h] at ht
    exact haccepted ⟨names, hnames, ht⟩
  · rw [servers_congr h]
    simp only [List.mem_map, List.mem_filter, Prod.exists, exists_and_right, exists_eq_right,
      Dict.mem_items, h]

theorem sample_reversed :
    ∃ r', sample.getConfig (Dict.ofItems sampleVars.items.reverse) = some r' ∧
      (∀ key, r'.config.lookup key = sampleResult.config.lookup key) ∧
      ∀ key, key ∈ r'.explicitKeys ↔ key ∈ sampleResult.explicitKeys := by
  refine getConfig_unordered (fun key => ?_) sampleResult_eq
  have hitems : ∀ v, (key, v) ∈ (Dict.ofItems sampleVars.items.reverse).items ↔
      (key, v) ∈ sampleVars.items := by
    have : (Dict.ofItems sampleVars.items.reverse).items = sampleVars.items.reverse := by
      decide +kernel
    rw [this]
    exact fun v => List.mem_reverse
  simp only [Dict.mem_items] at hitems
  exact Option.ext hitems

/-! ## What a service gets -/

/-- The template that the variables give to a service, when it is another one. -/
def ownTemplate (src : Source) (vars : Config) (server : String) : Config :=
  let own := (src.given vars (joinKey server "USE_TEMPLATE")).getD (Source.template vars)
  if own ≠ Source.template vars then src.templateSettings own else ∅

/-- The keys of the service are those of no other service, and no settings. -/
structure Apart (src : Source) (servers : List String) (server : String) : Prop where
  others : ∀ t ∈ servers, ∀ s ∈ src.catalog.all, ∀ s' ∈ src.catalog.all,
    joinKey t s'.id = joinKey server s.id → t = server
  settings : ∀ s ∈ src.catalog.all, src.catalog.find (joinKey server s.id) = none

section

variable {server : String} {servers : List String} {s : Setting}

theorem lookup_base_of_apart (h : Apart src servers server) (hs : s ∈ src.catalog.all) :
    (src.base vars).lookup (joinKey server s.id) = src.given vars (joinKey server s.id) := by
  rw [lookup_base, defaultOf, h.settings s hs, Option.map_none, Option.or_none]

/-- The expansion of other services leaves the keys of the service. -/
theorem lookup_foldl_of_apart {config : Config} {value : String → String} {t : String}
    (hv : Valued src value config) (h : Apart src servers server) (hnot : server ∉ servers)
    (hs : s ∈ src.catalog.all) :
    (servers.foldl (src.expandService t) config).lookup (joinKey server s.id) =
      config.lookup (joinKey server s.id) := by
  induction servers generalizing config with
  | nil => rfl
  | cons other servers ih =>
    have hother : other ≠ server := fun he => hnot (he ▸ List.mem_cons_self)
    have htail : Apart src servers server :=
      ⟨fun t ht => h.others t (List.mem_cons_of_mem _ ht), h.settings⟩
    have hnone : src.filledSetting other (joinKey server s.id) = none := by
      cases hf : src.filledSetting other (joinKey server s.id) with
      | none => rfl
      | some s' =>
        obtain ⟨hs', -, hkey⟩ := filledSetting_eq_some.mp hf
        exact absurd (h.others other List.mem_cons_self s hs s' hs' hkey.symm) hother
    rw [List.foldl_cons, ih (hv.expandService t) htail fun hm => hnot (List.mem_cons_of_mem _ hm),
      lookup_expandService hv, hnone, Option.map_none, Option.or_none]

/-- **Precedence.** A service has for each of its settings the variable of its own; without one its
name, or what its template says; else the variable of all services, the template of all services,
and last the default. -/
theorem service_value (hr : src.getConfig vars = some r)
    (hm : r.config.lookup "MULTISITE" = some "yes") (hserver : server ∈ listed r.config)
    (hapart : Apart src (listed r.config) server)
    (htemplate : ∃ s ∈ src.catalog.all, s.id = "USE_TEMPLATE")
    (hs : s ∈ src.catalog.all) (hctx : s.context = .multisite) :
    r.config.lookup (joinKey server s.id) =
      some ((src.given vars (joinKey server s.id)).getD
        (if s.id = "SERVER_NAME" then server
          else ((src.ownTemplate vars server).lookup s.id).getD
            ((src.given vars s.id).getD
              (((src.globalTemplate vars).lookup s.id).getD s.default)))) := by
  obtain ⟨-, -, rfl⟩ := getConfig_eq_some.mp hr
  have hv : Valued src (src.valueOf vars) (src.base vars) := valued_base vars
  have hlisted : listed (src.expanded vars) = listed (src.base vars) := by
    have hname := hv _ src.serverName_mem
    rw [src.serverName_id] at hname
    rw [listed, listed, hname, within_expanded vars _ _ hname]
  simp only [hlisted] at hserver hapart
  have hyes : ((src.base vars).lookup "MULTISITE").getD "no" = "yes" := by
    by_contra hno
    rw [expanded, if_neg hno] at hm
    rw [hm] at hno
    exact hno rfl
  obtain ⟨before, after, hsplit, hnot⟩ := List.eq_append_cons_of_mem hserver
  have hbefore : Apart src before server :=
    ⟨fun t ht => hapart.others t (hsplit ▸ List.mem_append_left _ ht), hapart.settings⟩
  have hkept : ∀ s ∈ src.catalog.all,
      (before.foldl (src.expandService (Source.template vars)) (src.base vars)).lookup
        (joinKey server s.id) = src.given vars (joinKey server s.id) := fun s hs => by
    rw [lookup_foldl_of_apart hv hbefore hnot hs, lookup_base_of_apart hapart hs]
  have hv' : Valued src (src.valueOf vars)
      (before.foldl (src.expandService (Source.template vars)) (src.base vars)) := fun s hs =>
    within_foldl_expandService hv _ _ _ _ (hv s hs)
  have hown : src.serviceTemplate (Source.template vars)
      (before.foldl (src.expandService (Source.template vars)) (src.base vars)) server =
        src.ownTemplate vars server := by
    obtain ⟨u, hu, hid⟩ := htemplate
    have := hkept u hu
    rw [hid] at this
    rw [serviceTemplate, ownTemplate, this]
  have hfill : src.filledSetting server (joinKey server s.id) = some s :=
    filledSetting_eq_some.mpr ⟨hs, by rw [hctx]; decide, rfl⟩
  have hvalue : src.valueOf vars s.id =
      (src.given vars s.id).getD (((src.globalTemplate vars).lookup s.id).getD s.default) := by
    rw [valueOf, lookup_base, defaultOf, Catalog.find_eq_some.mpr ⟨hs, rfl⟩]
    cases src.given vars s.id <;> rfl
  show (src.expanded vars).lookup _ = _
  rw [expanded, if_pos hyes, hsplit, List.foldl_append, List.foldl_cons]
  refine within_foldl_expandService (hv'.expandService _) _ _ _ _ ?_
  rw [lookup_expandService hv', hkept s hs, hfill, hown, Option.map_some, filled, hvalue]
  cases src.given vars (joinKey server s.id) <;> rfl

theorem sample_service_value :
    sampleResult.config.lookup "blog_USE_GZIP" =
        some ((sample.given sampleVars "blog_USE_GZIP").getD
          (((sample.ownTemplate sampleVars "blog").lookup "USE_GZIP").getD
            ((sample.given sampleVars "USE_GZIP").getD
              (((sample.globalTemplate sampleVars).lookup "USE_GZIP").getD "no")))) ∧
      sampleResult.config.lookup "blog_USE_GZIP" = some "yes" := by
  have hlisted : listed sampleResult.config = ["shop", "blog"] := by decide +kernel
  have hserver : "blog" ∈ listed sampleResult.config := by rw [hlisted]; decide
  have hgzip : useGzip ∈ sample.catalog.all := by decide
  refine ⟨service_value sampleResult_eq (by decide +kernel) hserver ⟨?_, by decide +kernel⟩
    ⟨useTemplate, by decide, rfl⟩ hgzip rfl, by decide +kernel⟩
  rw [hlisted]
  decide +kernel

end

end Source

end BunkerWeb.Configurator
