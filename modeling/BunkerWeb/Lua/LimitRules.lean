import BunkerWeb.Lib.Dict
import Mathlib.Data.List.Infix

/-!
# Which rule of the limiter applies (`limit:init`, `limit:initialize`, `limit:access`)

The rules are a Lua table from the pattern to the rate, built in one pass over the variables of a
scope and scanned at every request. `pairs` goes through a table in an order of its own, so every
pass is given an order of the table's items here.

- **What a run may do** (`Outcome`): the rate that comes out for some choice of the five orders.
- **Candidates** (`Deciding`): the configured rules that may decide a URI.
- **The result** (`unique_iff`): the rate does not depend on the orders exactly if all rules that
  may decide the URI have one rate.
-/

namespace BunkerWeb.Lua.LimitRules

open Lib Lib.Dict

/-- A Lua table whose keys and values are strings. -/
abbrev Table := Dict String String

/-- `var:gsub("URL", "RATE")`. -/
def gsubUrl : List Char → List Char
  | 'U' :: 'R' :: 'L' :: rest => 'R' :: 'A' :: 'T' :: 'E' :: gsubUrl rest
  | c :: rest => c :: gsubUrl rest
  | [] => []

/-- The variable of the rate that goes with that of a pattern. -/
def rateVar (var : String) : String := String.ofList (gsubUrl var.toList)

/-- `regex_match(var, "LIMIT_REQ_URL")`. -/
def isUrlVar (var : String) : Bool := decide ("LIMIT_REQ_URL".toList <:+: var.toList)

/-- `data[srv][url] = rate`; assigning `nil` takes the key out. -/
def setRule (data : Table) (url : String) : Option String → Table
  | some rate => data.insert url rate
  | none => data.erase url

/-- The pass of `limit:init` over the variables of a scope, in the order `order`. -/
def scopeRules (vars : Table) (order : List (String × String)) : Table :=
  if vars.lookup "USE_LIMIT_REQ" = some "yes" then
    order.foldl
      (fun data e => if isUrlVar e.1 then setRule data e.2 (vars.lookup (rateVar e.1)) else data) ∅
  else ∅

/-- `self.rules` as `limit:initialize` fills it: the global rules, overwritten by those of the
server. -/
def serverRules (globalOrder serviceOrder : List (String × String)) : Table :=
  setAll (setAll ∅ globalOrder) serviceOrder

/-- The choice of `limit:access`: the first pattern that matches, else the rule for `/`. -/
def chooseRate (regexMatch : String → String → Bool) (rules : Table)
    (order : List (String × String)) (uri : String) : Option String :=
  match order.find? fun e => e.1 ≠ "/" && regexMatch uri e.1 with
  | some e => some e.2
  | none => rules.lookup "/"

/-- `order` is an order in which `pairs` may go through the table. -/
def Enumerates (order : List (String × String)) (table : Table) : Prop := order.Perm table.items

section

variable (regexMatch : String → String → Bool) (global service : Table) (uri : String)

/-- The limiter applies `rate` in some run: the variables of both scopes are read in some order,
their rules copied in some order, and the rules of the server scanned in some order. -/
def Outcome (rate : Option String) : Prop :=
  ∃ globalVars serviceVars, Enumerates globalVars global ∧ Enumerates serviceVars service ∧
    ∃ globalOrder serviceOrder, Enumerates globalOrder (scopeRules global globalVars) ∧
      Enumerates serviceOrder (scopeRules service serviceVars) ∧
      ∃ order, Enumerates order (serverRules globalOrder serviceOrder) ∧
        chooseRate regexMatch (serverRules globalOrder serviceOrder) order uri = rate

/-- The scope has the rule. -/
def Configured (vars : Table) (url rate : String) : Prop :=
  vars.lookup "USE_LIMIT_REQ" = some "yes" ∧
    ∃ var, isUrlVar var = true ∧ vars.lookup var = some url ∧ vars.lookup (rateVar var) = some rate

/-- The rule may be the one that the server has for its pattern: a global rule is one only if the
service has no rule with that pattern. -/
def Candidate (url rate : String) : Prop :=
  Configured service url rate ∨ Configured global url rate ∧ ∀ r, ¬ Configured service url r

/-- Some rule that is not the one for all requests matches the URI. -/
def Matched : Prop := ∃ url rate, Candidate global service url rate ∧ url ≠ "/" ∧
  regexMatch uri url = true

/-- The rule may decide the URI: it matches it, or no rule does and it is the one for `/`. -/
def Deciding (url rate : String) : Prop :=
  Candidate global service url rate ∧
    ((url ≠ "/" ∧ regexMatch uri url = true) ∨
      (url = "/" ∧ ¬ Matched regexMatch global service uri))

/-- All rules that may decide the URI have one rate. -/
def Agree : Prop :=
  ∀ url url' rate rate', Deciding regexMatch global service uri url rate →
    Deciding regexMatch global service uri url' rate' → rate = rate'

/-- The rate is the same for all orders. -/
def Unique : Prop :=
  ∀ rate rate', Outcome regexMatch global service uri rate →
    Outcome regexMatch global service uri rate' → rate = rate'

end

/-- Every pattern has a rate: `Database.get_config` fills in the settings that a group lacks. -/
def Paired (vars : Table) : Prop :=
  ∀ var url, isUrlVar var = true → vars.lookup var = some url →
    ∃ rate, vars.lookup (rateVar var) = some rate

/-! ## The rules of a scope -/

/-- The rules in the order in which they are written. -/
def written (vars : Table) (order : List (String × String)) : List (String × String) :=
  if vars.lookup "USE_LIMIT_REQ" = some "yes" then
    order.filterMap fun e =>
      if isUrlVar e.1 then (vars.lookup (rateVar e.1)).map fun rate => (e.2, rate) else none
  else []

section

variable {vars : Table} {order : List (String × String)} {url rate : String}

theorem scopeRules_eq (hp : Paired vars) (horder : Enumerates order vars) :
    scopeRules vars order = setAll ∅ (written vars order) := by
  unfold scopeRules written
  split
  · have hrate : ∀ e ∈ order, isUrlVar e.1 = true →
        ∃ rate, vars.lookup (rateVar e.1) = some rate := fun e he hu =>
      hp e.1 e.2 hu (mem_items.mp (horder.mem_iff.mp he))
    clear horder
    generalize (∅ : Table) = data
    induction order generalizing data with
    | nil => rfl
    | cons e order ih =>
      have htail := ih fun e he => hrate e (List.mem_cons_of_mem _ he)
      by_cases hu : isUrlVar e.1 = true
      · obtain ⟨r, hr⟩ := hrate e List.mem_cons_self hu
        simpa [hu, hr, setRule, setAll] using htail (data.insert e.2 r)
      · simpa [hu, setAll] using htail data
  · rfl

theorem mem_written (horder : Enumerates order vars) :
    (url, rate) ∈ written vars order ↔ Configured vars url rate := by
  unfold written Configured
  by_cases hu : vars.lookup "USE_LIMIT_REQ" = some "yes"
  · rw [if_pos hu, List.mem_filterMap]
    simp only [hu, true_and]
    constructor
    · rintro ⟨⟨var, u⟩, he, hw⟩
      simp only [Option.ite_none_right_eq_some, Option.map_eq_some_iff, Prod.mk.injEq] at hw
      obtain ⟨hvar, r, hr, rfl, rfl⟩ := hw
      exact ⟨var, hvar, mem_items.mp (horder.mem_iff.mp he), hr⟩
    · rintro ⟨var, hvar, hlook, hr⟩
      exact ⟨(var, url), horder.mem_iff.mpr (mem_items.mpr hlook), by simp [hvar, hr]⟩
  · simp [hu]

/-- A scope has a rule for the patterns that are configured, with one of the rates configured for
it. -/
theorem configured_of_lookup (hp : Paired vars) (horder : Enumerates order vars)
    (h : (scopeRules vars order).lookup url = some rate) : Configured vars url rate := by
  rw [scopeRules_eq hp horder] at h
  exact (mem_written horder).mp (mem_of_lookup_setAll h)

theorem exists_lookup (hp : Paired vars) (horder : Enumerates order vars)
    (h : Configured vars url rate) : ∃ r, (scopeRules vars order).lookup url = some r := by
  rw [scopeRules_eq hp horder]
  exact exists_lookup_setAll ((mem_written horder).mpr h)

/-- Any of them can be the one. -/
theorem exists_order (hp : Paired vars) (h : Configured vars url rate) :
    ∃ order, Enumerates order vars ∧ (scopeRules vars order).lookup url = some rate := by
  obtain ⟨hu, var, hvar, hlook, hr⟩ := h
  -- The variable of the rule is read last.
  obtain ⟨l, l', hl⟩ := List.append_of_mem (mem_items.mpr hlook)
  have horder : Enumerates (l ++ l' ++ [(var, url)]) vars := by
    rw [Enumerates, hl, List.append_assoc]
    exact (List.perm_append_left_iff l).mpr (List.perm_append_singleton _ _)
  refine ⟨_, horder, ?_⟩
  rw [scopeRules_eq hp horder, lookup_setAll, written, if_pos hu, List.filterMap_append,
    lastOf_append]
  simp [hvar, hr, lastOf]

end

/-! ## The rules of a server -/

theorem lastOf_of_enumerates {table : Table} {order : List (String × String)}
    (h : Enumerates order table) (k : String) : lastOf k order = table.lookup k :=
  lastOf_eq_of_iff fun _ => h.mem_iff.trans mem_items

/-- The rule of the service for a pattern, else the global one. -/
theorem lookup_serverRules {g s : Table} {globalOrder serviceOrder : List (String × String)}
    (hg : Enumerates globalOrder g) (hs : Enumerates serviceOrder s) (url : String) :
    (serverRules globalOrder serviceOrder).lookup url = (s.lookup url).or (g.lookup url) := by
  rw [serverRules, lookup_setAll, lookup_setAll, lastOf_of_enumerates hs, lastOf_of_enumerates hg,
    AList.lookup_empty, Option.or_none]

section

variable {global service : Table} {globalVars serviceVars : List (String × String)}
  {globalOrder serviceOrder : List (String × String)} {url rate : String}

/-- The orders of a run up to the scan. -/
structure Orders (global service : Table) (gv sv go so : List (String × String)) : Prop where
  globalVars : Enumerates gv global
  serviceVars : Enumerates sv service
  globalOrder : Enumerates go (scopeRules global gv)
  serviceOrder : Enumerates so (scopeRules service sv)

theorem candidate_of_lookup (hg : Paired global) (hs : Paired service)
    (ho : Orders global service globalVars serviceVars globalOrder serviceOrder)
    (h : (serverRules globalOrder serviceOrder).lookup url = some rate) :
    Candidate global service url rate := by
  rw [lookup_serverRules ho.globalOrder ho.serviceOrder, Option.or_eq_some_iff] at h
  rcases h with h | ⟨hnone, h⟩
  · exact .inl (configured_of_lookup hs ho.serviceVars h)
  · refine .inr ⟨configured_of_lookup hg ho.globalVars h, fun r hr => ?_⟩
    obtain ⟨r', hr'⟩ := exists_lookup hs ho.serviceVars hr
    cases hnone.symm.trans hr'

theorem exists_lookup_of_candidate (hg : Paired global) (hs : Paired service)
    (ho : Orders global service globalVars serviceVars globalOrder serviceOrder)
    (h : Candidate global service url rate) :
    ∃ r, (serverRules globalOrder serviceOrder).lookup url = some r := by
  rw [lookup_serverRules ho.globalOrder ho.serviceOrder, ← Option.isSome_iff_exists,
    Option.isSome_or]
  rcases h with h | ⟨h, -⟩
  · obtain ⟨r, hr⟩ := exists_lookup hs ho.serviceVars h
    simp [hr]
  · obtain ⟨r, hr⟩ := exists_lookup hg ho.globalVars h
    simp [hr]

/-- Every candidate is the rule of the server for some orders. -/
theorem exists_orders (hg : Paired global) (hs : Paired service)
    (h : Candidate global service url rate) :
    ∃ globalVars serviceVars globalOrder serviceOrder,
      Orders global service globalVars serviceVars globalOrder serviceOrder ∧
        (serverRules globalOrder serviceOrder).lookup url = some rate := by
  rcases h with h | ⟨h, hno⟩
  · obtain ⟨serviceVars, hvars, hlook⟩ := exists_order hs h
    refine ⟨_, _, _, _, ⟨.refl _, hvars, .refl _, .refl _⟩, ?_⟩
    rw [lookup_serverRules (.refl _) (.refl _), hlook, Option.some_or]
  · obtain ⟨globalVars, hvars, hlook⟩ := exists_order hg h
    refine ⟨_, service.items, _, _, ⟨hvars, .refl _, .refl _, .refl _⟩, ?_⟩
    have hnone : (scopeRules service service.items).lookup url = none :=
      Option.eq_none_iff_forall_ne_some.mpr fun r hr =>
        hno r (configured_of_lookup hs (.refl _) hr)
    rw [lookup_serverRules (.refl _) (.refl _), hnone, Option.none_or, hlook]

end

/-! ## The choice -/

section

variable {regexMatch : String → String → Bool} {global service : Table} {uri : String}

/-- The rate of a run is that of a rule that may decide the URI; there is none only without such a
rule. -/
theorem deciding_of_outcome (hg : Paired global) (hs : Paired service) {rate : Option String}
    (h : Outcome regexMatch global service uri rate) :
    (∃ url r, rate = some r ∧ Deciding regexMatch global service uri url r) ∨
      rate = none ∧ ∀ url r, ¬ Deciding regexMatch global service uri url r := by
  obtain ⟨globalVars, serviceVars, hgv, hsv, globalOrder, serviceOrder, hgo, hso, order, hr,
    rfl⟩ := h
  have ho : Orders global service globalVars serviceVars globalOrder serviceOrder :=
    ⟨hgv, hsv, hgo, hso⟩
  have hmem {e : String × String} : e ∈ order ↔
      (serverRules globalOrder serviceOrder).lookup e.1 = some e.2 :=
    hr.mem_iff.trans mem_items
  rw [chooseRate]
  cases hfind : order.find? fun e => e.1 ≠ "/" && regexMatch uri e.1 with
  | some e =>
    have hp := List.find?_some hfind
    simp only [Bool.and_eq_true, decide_eq_true_eq] at hp
    have hc := candidate_of_lookup hg hs ho (hmem.mp (List.mem_of_find?_eq_some hfind))
    exact .inl ⟨e.1, e.2, rfl, hc, .inl hp⟩
  | none =>
    have hno : ¬ Matched regexMatch global service uri := by
      rintro ⟨url, r, hc, hne, hm⟩
      obtain ⟨r', hr'⟩ := exists_lookup_of_candidate hg hs ho hc
      have := List.find?_eq_none.mp hfind (url, r') (hmem.mpr hr')
      simp [hne, hm] at this
    cases hlook : (serverRules globalOrder serviceOrder).lookup "/" with
    | some r => exact .inl ⟨"/", r, rfl, candidate_of_lookup hg hs ho hlook, .inr ⟨rfl, hno⟩⟩
    | none =>
      refine .inr ⟨rfl, ?_⟩
      rintro url r ⟨hc, ⟨hne, hm⟩ | ⟨rfl, -⟩⟩
      · exact hno ⟨url, r, hc, hne, hm⟩
      · obtain ⟨r', hr'⟩ := exists_lookup_of_candidate hg hs ho hc
        cases hlook.symm.trans hr'

/-- Every rule that may decide the URI decides it in some run. -/
theorem outcome_of_deciding (hg : Paired global) (hs : Paired service) {url rate : String}
    (h : Deciding regexMatch global service uri url rate) :
    Outcome regexMatch global service uri (some rate) := by
  obtain ⟨hc, hd⟩ := h
  obtain ⟨globalVars, serviceVars, globalOrder, serviceOrder, ho, hlook⟩ := exists_orders hg hs hc
  refine ⟨_, _, ho.globalVars, ho.serviceVars, _, _, ho.globalOrder, ho.serviceOrder, ?_⟩
  rcases hd with ⟨hne, hm⟩ | ⟨rfl, hno⟩
  · -- The rule is scanned first.
    obtain ⟨l, l', hl⟩ := List.append_of_mem (mem_items.mpr hlook)
    refine ⟨(url, rate) :: (l ++ l'), ?_, ?_⟩
    · rw [Enumerates, hl]
      exact List.perm_middle.symm
    · simp [chooseRate, hne, hm]
  · refine ⟨_, .refl _, ?_⟩
    have hfind : (serverRules globalOrder serviceOrder).items.find?
        (fun e => e.1 ≠ "/" && regexMatch uri e.1) = none := by
      refine List.find?_eq_none.mpr fun e he hp => hno ?_
      simp only [Bool.and_eq_true, decide_eq_true_eq] at hp
      exact ⟨e.1, e.2, candidate_of_lookup hg hs ho (mem_items.mp he), hp⟩
    rw [chooseRate, hfind]
    exact hlook

end

/-- The rate that a URI gets is the same for every order in which the tables are gone through
exactly if all rules that may decide the URI have one rate. -/
theorem unique_iff (regexMatch : String → String → Bool) {global service : Table}
    (hg : Paired global) (hs : Paired service) (uri : String) :
    Unique regexMatch global service uri ↔ Agree regexMatch global service uri := by
  constructor
  · intro h url url' rate rate' hd hd'
    exact Option.some.inj (h _ _ (outcome_of_deciding hg hs hd) (outcome_of_deciding hg hs hd'))
  · intro h rate rate' ho ho'
    rcases deciding_of_outcome hg hs ho with ⟨url, r, rfl, hd⟩ | ⟨rfl, hno⟩ <;>
      rcases deciding_of_outcome hg hs ho' with ⟨url', r', rfl, hd'⟩ | ⟨rfl, hno'⟩
    · rw [h _ _ _ _ hd hd']
    · exact absurd hd (hno' _ _)
    · exact absurd hd' (hno _ _)
    · rfl

/-! ## Two patterns for one URI -/

/-- The default rule and two that both match `/api/login`. -/
def overlapping : Table := ofItems
  [("USE_LIMIT_REQ", "yes"), ("LIMIT_REQ_URL", "/"), ("LIMIT_REQ_RATE", "10r/s"),
    ("LIMIT_REQ_URL_2", "^/api/"), ("LIMIT_REQ_RATE_2", "5r/s"),
    ("LIMIT_REQ_URL_3", "/login$"), ("LIMIT_REQ_RATE_3", "1r/s")]

/-- The regular expressions of `overlapping`. -/
def overlappingMatch (uri pattern : String) : Bool :=
  if pattern = "^/api/" then "/api/".toList.isPrefixOf uri.toList
  else if pattern = "/login$" then "/login".toList.isSuffixOf uri.toList
  else pattern = "/" && uri.toList.contains '/'

theorem paired_overlapping : Paired overlapping := by
  have h : ∀ e ∈ overlapping.items, isUrlVar e.1 = true →
      (overlapping.lookup (rateVar e.1)).isSome = true := by decide
  exact fun var url hvar hlook =>
    Option.isSome_iff_exists.mp (h (var, url) (mem_items.mpr hlook) hvar)

theorem paired_empty : Paired ∅ := by
  intro var url _ h
  rw [AList.lookup_empty] at h
  cases h

theorem unique_iff_overlapping :
    Unique overlappingMatch overlapping ∅ "/api/login" ↔
      Agree overlappingMatch overlapping ∅ "/api/login" :=
  unique_iff overlappingMatch paired_overlapping paired_empty "/api/login"

/-- `/api/login` is limited to five requests a second, or to one. -/
theorem two_rates_for_one_uri :
    ¬ ∀ (regexMatch : String → String → Bool) (global service : Table), Paired global →
      Paired service → ∀ uri, Unique regexMatch global service uri := by
  intro h
  have hrule {url rate : String} (hc : Configured overlapping url rate) (hne : url ≠ "/")
      (hm : overlappingMatch "/api/login" url = true) :
      Outcome overlappingMatch overlapping ∅ "/api/login" (some rate) := by
    refine outcome_of_deciding paired_overlapping paired_empty ⟨.inr ⟨hc, ?_⟩, .inl ⟨hne, hm⟩⟩
    rintro r ⟨hu, -⟩
    cases hu
  have hapi : Configured overlapping "^/api/" "5r/s" :=
    ⟨by decide, "LIMIT_REQ_URL_2", by decide, by decide, by decide⟩
  have hlogin : Configured overlapping "/login$" "1r/s" :=
    ⟨by decide, "LIMIT_REQ_URL_3", by decide, by decide, by decide⟩
  have := h overlappingMatch overlapping ∅ paired_overlapping paired_empty "/api/login" _ _
    (hrule hapi (by decide) (by decide)) (hrule hlogin (by decide) (by decide))
  exact absurd this (by decide)

end BunkerWeb.Lua.LimitRules
