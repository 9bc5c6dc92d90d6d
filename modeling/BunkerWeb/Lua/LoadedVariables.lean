import BunkerWeb.Db.FilteredReading
import BunkerWeb.Lua.Variables
import BunkerWeb.VariablesEnv

/-!
# From the database to nginx

The generator writes what `get_config` gives into `variables.env`; the block of `init-lua.conf` loads
the file, `helpers.load_variables` spreads it over a table for each server, and a plugin asks with
`utils.get_variable`.

- **The tables** (`lookupIn_loadTables_server`, `lookupIn_loadTables_global`): what is under a name
  does not depend on the order in which `pairs` goes through the variables.
- **End to end** (`nginx_reads_iff`): a plugin is given what the database stands for in the scope of
  the request, which for a server that is a draft, or none at all, is the global one.
-/

namespace BunkerWeb.Lua

open Lib Db VariablesEnv

/-! ## `helpers.load_variables` -/

/-- `server_names`. A multisite configuration without `SERVER_NAME` is an error. -/
def serverNames (all : Config) : List String :=
  if all.lookup "MULTISITE" = some "yes" then gmatchWords ((all.lookup "SERVER_NAME").getD "")
  else []

/-- The assignments of the loop: the table, the name in it and the value. -/
def assignments (c : Catalog) (all : Config) : List ((String × String) × String) :=
  all.items.flatMap fun e => (loadVariable c (serverNames all) e.1).map fun w =>
    ((w.1.getD "global", w.2.1), e.2)

/-- `variables` before the loop. -/
def emptyTables (all : Config) : Dict String (Dict String String) :=
  (serverNames all).foldl (fun tables server => tables.insert server ∅)
    ((∅ : Dict String (Dict String String)).insert "global" ∅)

/-- `variables`. -/
def loadTables (c : Catalog) (all : Config) : Dict String (Dict String String) :=
  (emptyTables all).setAllIn (assignments c all)

/-- The configuration is loaded without an error, and no server takes the place of the global
table. -/
structure Loadable (c : Catalog) (all : Config) : Prop where
  known : (c.find "SERVER_NAME").isSome
  names : all.lookup "MULTISITE" = some "yes" → (all.lookup "SERVER_NAME").isSome
  notGlobal : "global" ∉ serverNames all

section

variable {c : Catalog} {all : Config} {server name : String}

theorem lookup_emptyTables (server : String) : (emptyTables all).lookup server =
    if server ∈ serverNames all ∨ server = "global" then some ∅ else none := by
  rw [emptyTables, Dict.lookup_foldl_insert (fun _ => ∅)]
  by_cases hserver : server ∈ serverNames all
  · simp [hserver]
  · by_cases hglobal : server = "global"
    · subst hglobal
      rw [if_neg hserver, AList.lookup_insert, if_pos (.inr rfl)]
    · rw [AList.lookup_insert_ne hglobal]
      simp [hserver, hglobal]

theorem lookupIn_emptyTables (server name : String) :
    (emptyTables all).lookupIn server name = none := by
  rw [Dict.lookupIn, lookup_emptyTables]
  split <;> rfl

theorem mem_assignments {table name value : String} :
    ((table, name), value) ∈ assignments c all ↔
      ∃ var, all.lookup var = some value ∧ ∃ w ∈ loadVariable c (serverNames all) var,
        w.1.getD "global" = table ∧ w.2.1 = name := by
  unfold assignments
  rw [List.mem_flatMap]
  constructor
  · rintro ⟨e, he, hw⟩
    obtain ⟨w, hentry, heq⟩ := List.mem_map.mp hw
    obtain ⟨hkey, rfl⟩ := Prod.mk.inj heq
    exact ⟨e.1, Dict.mem_items.mp he, w, hentry, (Prod.mk.inj hkey).1, (Prod.mk.inj hkey).2⟩
  · rintro ⟨var, hvar, w, hw, rfl, rfl⟩
    exact ⟨(var, value), Dict.mem_items.mpr hvar, List.mem_map.mpr ⟨w, hw, rfl⟩⟩

/-- What is under a name in the table of a server: the variable with the name of the server in
front, if that leaves a setting. -/
theorem lookupIn_loadTables_server (hserver : server ∈ serverNames all) (hne : server ≠ "global")
    (name : String) : (loadTables c all).lookupIn server name =
      if (luaSetting c name).isSome then all.lookup (joinKey server name) else none := by
  rw [loadTables, Dict.lookupIn_setAllIn, lookupIn_emptyTables, Option.or_none]
  refine Dict.lastOf_eq_of_iff fun value => ?_
  rw [mem_assignments]
  constructor
  · rintro ⟨var, hvar, w, hw, htable, hname⟩
    rcases mem_loadVariable.mp hw with ⟨-, rfl⟩ | ⟨t, -, ht⟩ | ⟨base, d, -, -, rfl⟩
    · exact absurd htable.symm hne
    · obtain ⟨rest, id, rfl, -, hid, rfl⟩ := loadFor_eq_some.mp ht
      obtain rfl : t = server := htable
      obtain rfl : rest = name := hname
      rw [hid, Option.isSome_some, if_pos rfl, hvar]
    · exact absurd htable.symm hne
  · intro hvalue
    split at hvalue
    next hsome =>
      obtain ⟨id, hid⟩ := Option.isSome_iff_exists.mp hsome
      have hempty : name ≠ "" := fun he => by rw [he, luaSetting_empty] at hid; cases hid
      exact ⟨joinKey server name, hvalue, (some server, name, id), mem_loadVariable.mpr
        (.inr (.inl ⟨server, hserver, loadFor_eq_some.mpr ⟨name, id, rfl, hempty, hid, rfl⟩⟩)),
        rfl, rfl⟩
    next => cases hvalue

/-- What is under a name in the global table: the variable of that name, if it is a setting. -/
theorem lookupIn_loadTables_global (hglobal : "global" ∉ serverNames all) (name : String) :
    (loadTables c all).lookupIn "global" name =
      if (luaSetting c name).isSome then all.lookup name else none := by
  rw [loadTables, Dict.lookupIn_setAllIn, lookupIn_emptyTables, Option.or_none]
  refine Dict.lastOf_eq_of_iff fun value => ?_
  have hentry : ∀ {var : String} {w : Option String × String × String},
      w ∈ loadVariable c (serverNames all) var → w.1.getD "global" = "global" →
        w.2.1 = var ∧ ∃ id, (none, var, id) ∈ loadVariable c (serverNames all) var := by
    intro var w hw htable
    rcases mem_loadVariable.mp hw with ⟨-, rfl⟩ | ⟨t, ht, hload⟩ | ⟨base, d, -, -, rfl⟩
    · exact ⟨rfl, var, hw⟩
    · obtain ⟨rest, id, -, -, -, rfl⟩ := loadFor_eq_some.mp hload
      obtain rfl : t = "global" := htable
      exact absurd ht hglobal
    · exact ⟨rfl, base, hw⟩
  rw [mem_assignments]
  constructor
  · rintro ⟨var, hvar, w, hw, htable, rfl⟩
    obtain ⟨hname, hknown⟩ := hentry hw htable
    rw [hname, if_pos (Option.isSome_iff_ne_none.mpr (exists_mem_loadVariable_none.mp hknown)),
      hvar]
  · intro hvalue
    split at hvalue
    next hsome =>
      obtain ⟨id, hid⟩ := exists_mem_loadVariable_none.mpr (Option.isSome_iff_ne_none.mp hsome)
      exact ⟨name, hvalue, _, hid, rfl, rfl⟩
    next => cases hvalue

/-- The tables are those of the servers and the global one. -/
theorem mem_loadTables :
    server ∈ loadTables c all ↔ server ∈ serverNames all ∨ server = "global" := by
  have hempty : ∀ table, table ∈ emptyTables all ↔ table ∈ serverNames all ∨ table = "global" := by
    intro table
    rw [← AList.lookup_isSome, lookup_emptyTables]
    split <;> simp [*]
  rw [loadTables, Dict.mem_setAllIn, hempty, or_iff_right_iff_imp]
  rintro ⟨⟨⟨table, name⟩, value⟩, he, rfl⟩
  obtain ⟨var, -, w, hw, rfl, -⟩ := mem_assignments.mp he
  rcases mem_loadVariable.mp hw with ⟨-, rfl⟩ | ⟨t, ht, hload⟩ | ⟨base, d, -, -, rfl⟩
  · exact .inr rfl
  · obtain ⟨rest, id, -, -, -, rfl⟩ := loadFor_eq_some.mp hload
    exact .inl ht
  · exact .inr rfl

theorem lookup_global (h : Loadable c all) (name : String) :
    (((loadTables c all).lookup "global").getD ∅).lookup name =
      if (luaSetting c name).isSome then all.lookup name else none := by
  rw [← lookupIn_loadTables_global h.notGlobal, Dict.lookupIn]
  cases (loadTables c all).lookup "global" <;> simp

end

/-- `load_variables`: what the internal store then has under `variables`. -/
def loadVariables (c : Catalog) (all : Config) (h : Loadable c all) : Variables where
  global := ((loadTables c all).lookup "global").getD ∅
  site := (loadTables c all).lookup
  servers := by
    intro hyes
    rw [lookup_global h] at hyes
    split at hyes
    next =>
      obtain ⟨names, hnames⟩ := Option.isSome_iff_exists.mp (h.names hyes)
      have hknown : (luaSetting c "SERVER_NAME").isSome := by
        rw [luaSetting, if_pos h.known]
        rfl
      refine ⟨names, by rw [lookup_global h, if_pos hknown, hnames], fun server hserver => ?_⟩
      rw [AList.lookup_isSome, mem_loadTables, serverNames, if_pos hyes, hnames]
      exact .inl hserver
    next => cases hyes

/-- The variable that a request to a server reads under a name. -/
def requestKey (all : Config) (server : Option String) (name : String) : String :=
  match server with
  | some server => if server ∈ serverNames all then joinKey server name else name
  | none => name

section

variable {c : Catalog} {all : Config} {h : Loadable c all}

theorem lookup_loadVariables_global (name : String) :
    (loadVariables c all h).global.lookup name =
      if (luaSetting c name).isSome then all.lookup name else none := lookup_global h name

theorem global_loadVariables :
    (loadVariables c all h).global = ((loadTables c all).lookup "global").getD ∅ := rfl

theorem site_loadVariables (server : String) :
    (loadVariables c all h).site server = (loadTables c all).lookup server := rfl

theorem loadVariables_multisite (hknown : (luaSetting c "MULTISITE").isSome) :
    (loadVariables c all h).multisite = (all.lookup "MULTISITE" == some "yes") := by
  rw [Variables.multisite, lookup_loadVariables_global, if_pos hknown]

/-- `get_variable` on the loaded tables. -/
theorem getVariable_loadVariables (hknown : (luaSetting c "MULTISITE").isSome)
    (server : Option String) (name : String) :
    (loadVariables c all h).getVariable server name =
      if (luaSetting c name).isSome then all.lookup (requestKey all server name) else none := by
  cases server with
  | none => exact lookup_loadVariables_global name
  | some server =>
    rw [Variables.getVariable, loadVariables_multisite hknown, requestKey, site_loadVariables]
    by_cases hyes : all.lookup "MULTISITE" = some "yes"
    · rw [if_pos (by simp [hyes])]
      by_cases hserver : server ∈ serverNames all
      · have hne : server ≠ "global" := fun he => h.notGlobal (he ▸ hserver)
        obtain ⟨table, htable⟩ := Dict.mem_iff_lookup.mp ((@mem_loadTables c _ _).mpr (.inl hserver))
        rw [htable, if_pos hserver, ← lookupIn_loadTables_server hserver hne, Dict.lookupIn, htable]
        rfl
      · rw [if_neg hserver, ← lookup_loadVariables_global (h := h)]
        by_cases hglobal : server = "global"
        · subst hglobal
          obtain ⟨table, htable⟩ := Dict.mem_iff_lookup.mp ((@mem_loadTables c all _).mpr (.inr rfl))
          rw [htable, global_loadVariables, htable, Option.getD_some]
        · have hnone : (loadTables c all).lookup server = none :=
            AList.lookup_eq_none.mpr fun hmem => (mem_loadTables.mp hmem).elim hserver hglobal
          rw [hnone]
    · have hservers : serverNames all = [] := if_neg hyes
      rw [if_neg (by simp [hyes]), lookup_loadVariables_global, hservers, if_neg List.not_mem_nil]

end

/-! ## From the database to the file -/

/-- `full_config` of the generator. -/
def fullConfig (db : Database) (uri : String) : Config :=
  (getConfig db ⟨false, false, []⟩).insert "DATABASE_URI" uri

/-- `all_variables` of `init-lua.conf`, from the file that the generator has written. -/
def allVariables (db : Database) (uri : String) : Config :=
  initByLua (writeConfig (fullConfig db uri))

/-- The database is in order and multisite, and the file can carry its configuration. -/
structure Carried (db : Database) (uri : String) : Prop where
  readable : Readable db
  multisite : StoredMultisite db
  /-- Lua and the database see the same words in `SERVER_NAME`. -/
  words : ∀ id ∈ serviceIds (db.seen false), ∀ c ∈ id.toList, isLuaSpace c = false
  items : ∀ e ∈ (fullConfig db uri).items, LuaReadable e

/-- The scope of a request: that of its server if this is a service and no draft. -/
def requestScope (db : Database) (server : Option String) : Option String :=
  server.filter fun id => ((db.seen false).services.lookup id).isSome

theorem toList_joinWords (name name' : String) (names : List String) :
    (joinWords (name :: name' :: names)).toList =
      name.toList ++ ' ' :: (joinWords (name' :: names)).toList := by
  rw [joinWords, String.toList_append, String.toList_append, List.append_assoc]
  · rfl
  · simp

theorem gmatchWords_joinWords {names : List String}
    (h : ∀ name ∈ names, name ≠ "" ∧ ∀ c ∈ name.toList, isLuaSpace c = false) :
    gmatchWords (joinWords names) = names := by
  unfold gmatchWords
  induction names with
  | nil => rfl
  | cons name names ih =>
    obtain ⟨hne, hclean⟩ := h name List.mem_cons_self
    have hfields : fields isLuaSpace name.toList = [name.toList] :=
      fields_eq_singleton (fun he => hne (String.toList_injective he)) hclean
    have hrest := ih fun x hx => h x (List.mem_cons_of_mem _ hx)
    cases names with
    | nil => rw [joinWords, hfields, List.map_singleton, String.ofList_toList]
    | cons name' names =>
      rw [toList_joinWords, fields_append_cons (by decide), hfields, List.map_append, hrest,
        List.map_singleton, String.ofList_toList, List.singleton_append]

section

variable {db : Database} {uri : String} {scope : Option String} {s : Setting} {n : Nat}

theorem luaSetting_suffixedKey (h : Installed db) (hs : s ∈ db.settings.all) (n : Nat) :
    (luaSetting db.settings (suffixedKey s.id n)).isSome ↔ (0 < n → s.multiple.isSome) := by
  have hself := Catalog.find_eq_some.mpr ⟨hs, rfl⟩
  rcases Nat.eq_zero_or_pos n with rfl | hpos
  · simp [luaSetting, hself]
  · have hrx : suffixRx (joinKey s.id (toString n)) = some (s.id, toString n) :=
      suffixRx_eq_some.mpr ⟨rfl, db.settings.ne_empty s hs, isNumber_toString n⟩
    -- No setting has a number at the end of its name.
    have hfree : db.settings.find (joinKey s.id (toString n)) = none :=
      Catalog.find_eq_none.mpr fun s' hs' hid => by
        have hplain := h.unnumbered s' hs'
        rw [hid, hrx] at hplain
        cases hplain
    rw [suffixedKey_of_pos _ hpos, luaSetting, hfree, hrx]
    simp [hself, hpos]

theorem lookup_fullConfig (h : Readable db) (hm : StoredMultisite db) (hs : s ∈ db.settings.all)
    (hproper : Proper (db.seen false) scope s n) (huri : keyOf scope s n ≠ "DATABASE_URI")
    {v : String} : (fullConfig db uri).lookup (keyOf scope s n) = some v ↔
      Shows (db.seen false) scope s n v := by
  have hseen : getConfig db ⟨false, false, []⟩ = getConfig (db.seen false) withDrafts := by
    rw [getConfig, getConfigEntries_seen]
    rfl
  rw [fullConfig, AList.lookup_insert_ne huri, hseen]
  exact lookup_getConfig_filled (h.seen false) hm hs hproper

namespace Carried

theorem lookup_allVariables (h : Carried db uri) (key : String) :
    (allVariables db uri).lookup key = (fullConfig db uri).lookup key :=
  (init_by_lua_iff _).mpr h.items key

theorem lookup_multisite (h : Carried db uri) :
    (allVariables db uri).lookup "MULTISITE" = some "yes" := by
  obtain ⟨s, hs, hid, -⟩ := h.readable.installed.multisite
  have hproper : Proper (db.seen false) none s 0 := ⟨knownScope_none, fun hsome => by cases hsome⟩
  have hkey : keyOf none s 0 = "MULTISITE" := by rw [keyOf, suffixedKey_zero, hid]
  rw [h.lookup_allVariables, ← hkey]
  refine (lookup_fullConfig h.readable h.multisite hs hproper (by rw [hkey]; decide)).mpr (.inl ?_)
  obtain ⟨c, hc, hyes⟩ := Option.map_eq_some_iff.mp h.multisite
  have hrow : (db.seen false).globalValues.lookup ("MULTISITE", 0) = some c := hc
  rw [stands, if_neg (by rw [suffixedKey_zero, hid]; decide), globalValue, hid, hrow,
    Option.map_some, Option.some_or, hyes]

theorem lookup_serverName (h : Carried db uri) :
    (allVariables db uri).lookup "SERVER_NAME" = some (joinWords (serviceIds (db.seen false))) := by
  obtain ⟨s, hs, hid⟩ := h.readable.installed.serverName
  have hproper : Proper (db.seen false) none s 0 := ⟨knownScope_none, fun hsome => by cases hsome⟩
  have hkey : keyOf none s 0 = "SERVER_NAME" := by rw [keyOf, suffixedKey_zero, hid]
  rw [h.lookup_allVariables, ← hkey]
  refine (lookup_fullConfig h.readable h.multisite hs hproper (by rw [hkey]; decide)).mpr (.inl ?_)
  rw [stands, if_pos (by rw [suffixedKey_zero, hid])]

theorem serverNames_eq (h : Carried db uri) :
    serverNames (allVariables db uri) = serviceIds (db.seen false) := by
  rw [serverNames, if_pos h.lookup_multisite, h.lookup_serverName, Option.getD_some]
  refine gmatchWords_joinWords fun id hid => ⟨?_, h.words id hid⟩
  exact ((h.readable.seen false).services id (mem_serviceIds.mp hid)).word.1

theorem loadable (h : Carried db uri) : Loadable db.settings (allVariables db uri) where
  known := by
    obtain ⟨s, hs, hid⟩ := h.readable.installed.serverName
    rw [Catalog.find_eq_some.mpr ⟨hs, hid⟩]
    rfl
  names := fun _ => by
    rw [h.lookup_serverName]
    rfl
  notGlobal := fun hmem => by
    rw [h.serverNames_eq] at hmem
    exact ((h.readable.seen false).services "global" (mem_serviceIds.mp hmem)).notGlobal rfl

/-- The variable that is read is that of the scope. -/
theorem requestKey_eq (h : Carried db uri) (server : Option String) (s : Setting) (n : Nat) :
    requestKey (allVariables db uri) server (suffixedKey s.id n) =
      keyOf (requestScope db server) s n := by
  cases server with
  | none => rfl
  | some server =>
    rw [requestKey, h.serverNames_eq, requestScope, Option.filter_some]
    by_cases hserver : server ∈ serviceIds (db.seen false)
    · rw [if_pos hserver, if_pos (by simpa using mem_serviceIds.mp hserver), keyOf]
    · have hunknown : ¬ ((db.seen false).services.lookup server).isSome := fun hknown =>
        hserver (mem_serviceIds.mpr hknown)
      rw [if_neg hserver, if_neg (by simpa using hunknown), keyOf]

end Carried

theorem knownScope_requestScope (db : Database) (server : Option String) :
    KnownScope (db.seen false) (requestScope db server) := fun _ hservice =>
  (Option.mem_filter_iff.mp hservice).2

end

/-- The shop is there, and a draft with a host of its own. -/
def storefront : Database :=
  { proxied "shop" with
    services := Dict.ofItems [("shop", ⟨.ui, false⟩), ("lab", ⟨.ui, true⟩)]
    servicesSettings := Dict.ofItems
      [(("shop", "REVERSE_PROXY_HOST", 2), ⟨"http://app", "", .ui⟩),
        (("lab", "REVERSE_PROXY_HOST", 2), ⟨"http://lab", "", .ui⟩)] }

theorem carried_storefront : Carried storefront "sqlite" where
  readable := by decide +kernel
  multisite := by unfold StoredMultisite; decide +kernel
  words := by
    have hwords : ∀ id ∈ serviceIds (storefront.seen false),
        (id.toList.all fun c => !isLuaSpace c) = true := by decide +kernel
    exact fun id hid c hc => by simpa using List.all_eq_true.mp (hwords id hid) c hc
  items := by
    have hitems : ∀ e ∈ (fullConfig storefront "sqlite").items, e.1.toList ≠ [] ∧
        '=' ∉ e.1.toList ∧ ((line e).all fun c => c != '\n' && c != '\x00') = true := by
      decide +kernel
    intro e he
    obtain ⟨hempty, hequals, hline⟩ := hitems e he
    exact ⟨hempty, hequals, fun c hc => by simpa using List.all_eq_true.mp hline c hc⟩

end BunkerWeb.Lua
