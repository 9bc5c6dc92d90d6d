import BunkerWeb.Lib.Placing
import BunkerWeb.Lua.Variables
import Mathlib.Data.List.Dedup
import Mathlib.Data.String.Basic

/-!
# The order of the plugins (`helpers.order_plugins`)

For each phase the plugins that implement it are put in an order: those that the setting
`PLUGINS_ORDER_<PHASE>` names, then those of `order.json`, then the rest by name. The order is made
once from the global settings and once from those of each site.

The flags `plugins_phases[id][phase]` of a phase are those of `flagged` here. The tables that the
code goes through with `pairs` are lists, in the order in which it does; the rest of a phase is
sorted, so that no order matters there.
-/

namespace BunkerWeb.Lua.PluginsOrder

open Lib

structure Plugin where
  id : String
  phases : List String
  deriving DecidableEq, Repr

/-- `utils.get_phases`. -/
def getPhases : List String :=
  ["init", "init_worker", "set", "rewrite", "access", "content", "ssl_client_hello_default",
    "ssl_certificate", "header", "log", "preread", "log_stream", "log_default", "timer",
    "init_workers"]

/-- `parse_override`; a value that is not there gives no words either. -/
def parseOverride (value : Option String) : List String := (value.map gmatchWords).getD []

/-- `"PLUGINS_ORDER_" .. phase:upper()`. -/
def overrideKey (phase : String) : String := "PLUGINS_ORDER_" ++ phase.toUpper

/-- `phase_aliases[phase] or phase`. -/
def canonicalPhase (phase : String) : String := if phase = "headers" then "header" else phase

/-- `default_orders[phase]`, for the entries of `order.json` in the order of `pairs`. -/
def defaultOrder (orders : List (String × List String)) (phase : String) : List String :=
  (orders.filter fun e => canonicalPhase e.1 = phase).flatMap Prod.snd

/-- The plugin with this id that was loaded last, whose phases `plugins_phases` keeps. -/
def pluginOf (plugins : List Plugin) (id : String) : Option Plugin :=
  plugins.reverse.find? (·.id = id)

/-- `plugins_phases[id][phase]` before anything is placed. -/
def hasPhase (plugins : List Plugin) (phase id : String) : Bool :=
  (pluginOf plugins id).any fun p => p.phases.contains phase

/-- What `build_order` works on in one phase. -/
structure Build where
  order : List String
  seen : List String
  /-- The plugins whose flag of the phase is still set. -/
  flagged : List String
  missing : List String
  deriving DecidableEq, Repr

/-- The plugin is appended, and its flag taken back. -/
def Build.put (b : Build) (id : String) : Build :=
  { b with
    order := b.order ++ [id]
    seen := b.seen ++ [id]
    flagged := b.flagged.filter (· ≠ id) }

/-- The loop over the override. -/
def overrideTurn (plugins : List Plugin) (b : Build) (id : String) : Build :=
  if id ∉ b.seen ∧ (pluginOf plugins id).isSome ∧ id ∈ b.flagged then b.put id
  else if id ∉ b.seen then { b with missing := b.missing ++ [id] }
  else b

/-- The loop over the default order. -/
def defaultTurn (b : Build) (id : String) : Build :=
  if id ∈ b.flagged ∧ id ∉ b.seen then b.put id else b

/-- The flags of a phase, before anything is placed. -/
def flags (plugins : List Plugin) (phase : String) : List String :=
  ((plugins.map Plugin.id).dedup).filter (hasPhase plugins phase)

/-- `remaining`, sorted. -/
def Build.rest (b : Build) : List String :=
  (b.flagged.filter fun id => id ∉ b.seen).mergeSort fun a b => decide (a ≤ b)

/-- `build_order` in one phase: the plugins in order, and those that the override names without
need. -/
def buildPhase (plugins : List Plugin) (phase : String) (override default : List String) :
    List String × List String :=
  let b := override.foldl (overrideTurn plugins) ⟨[], [], flags plugins phase, []⟩
  let b := default.foldl defaultTurn b
  (b.order ++ b.rest, b.missing)

/-- The orders and the missing plugins of all phases. -/
structure Orders where
  order : List (String × List String)
  missing : List (String × List String)
  deriving DecidableEq, Repr

/-- `build_order`, for the settings of a site or the global ones. -/
def buildOrder (plugins : List Plugin) (orders : List (String × List String))
    (vars : Dict String String) : Orders :=
  let built := getPhases.map fun phase =>
    (phase, buildPhase plugins phase (parseOverride (vars.lookup (overrideKey phase)))
      (defaultOrder orders phase))
  ⟨built.map fun e => (e.1, e.2.1), built.map fun e => (e.1, e.2.2)⟩

/-- What `order_plugins` returns: the global orders and those of the sites. The global ones are at
the root of the table too. -/
structure Result where
  global : Orders
  perSite : List (String × Orders)
  deriving DecidableEq, Repr

/-- What is found of `order.json`. -/
inductive OrderFile where
  /-- `open` fails, with the text and the number that it gives. -/
  | unopened (err nb : String)
  /-- The file is no JSON. -/
  | invalid
  | decoded (orders : List (String × List String))
  deriving DecidableEq, Repr

inductive Outcome where
  | ordered (result : Result)
  | failed (err : String)
  /-- An error that leaves the function. -/
  | raised
  deriving DecidableEq, Repr

/-- `order_plugins`, with the variables as `load_variables` leaves them. -/
def orderPlugins (file : OrderFile) (plugins : List Plugin)
    (vars : Dict String (Dict String String)) : Outcome :=
  match file with
  | .unopened err nb => .failed (err ++ " (nb = " ++ nb ++ ")")
  -- The message is built with the `err` of `open`, which is nil here.
  | .invalid => .raised
  | .decoded orders => .ordered
    { global := buildOrder plugins orders ((vars.lookup "global").getD ∅)
      perSite := (vars.items.filter fun e => e.1 ≠ "global").map fun e =>
        (e.1, buildOrder plugins orders e.2) }

/-! ## What is placed -/

/-- A plugin with this id is loaded, and implements the phase. -/
def Implements (plugins : List Plugin) (phase id : String) : Prop :=
  ∃ p, pluginOf plugins id = some p ∧ phase ∈ p.phases

section

variable {plugins : List Plugin} {phase : String} {b : Build}

theorem hasPhase_iff {id : String} :
    hasPhase plugins phase id = true ↔ Implements plugins phase id := by
  rw [hasPhase, Option.any_eq_true]
  simp only [List.contains_iff_mem]
  rfl

/-- For plugins with ids of their own, the plugin with an id is the one that has it. -/
theorem implements_iff (hids : (plugins.map Plugin.id).Nodup) {id : String} :
    Implements plugins phase id ↔ ∃ p ∈ plugins, p.id = id ∧ phase ∈ p.phases := by
  have hof : ∀ p, pluginOf plugins id = some p ↔ p ∈ plugins ∧ p.id = id := by
    intro p
    constructor
    · intro h
      exact ⟨List.mem_reverse.mp (List.mem_of_find?_eq_some h), by simpa using List.find?_some h⟩
    · rintro ⟨hp, rfl⟩
      cases hfind : pluginOf plugins p.id with
      | none => exact absurd (List.find?_eq_none.mp hfind p (List.mem_reverse.mpr hp)) (by simp)
      | some q =>
        have hq : q ∈ plugins := List.mem_reverse.mp (List.mem_of_find?_eq_some hfind)
        have hid : q.id = p.id := by simpa using List.find?_some hfind
        rw [List.inj_on_of_nodup_map hids hq hp hid]
  simp only [Implements, hof, and_assoc]

theorem mem_flags {id : String} : id ∈ flags plugins phase ↔ Implements plugins phase id := by
  rw [flags, List.mem_filter, hasPhase_iff, List.mem_dedup, and_iff_right_iff_imp]
  rintro ⟨p, hp, -⟩
  have hmem := List.mem_reverse.mp (List.mem_of_find?_eq_some hp)
  have hid : p.id = id := by simpa using List.find?_some hp
  exact hid ▸ List.mem_map_of_mem hmem

/-- The bookkeeping of a phase: what is placed is seen, and the flags are those of the other
plugins that implement the phase. -/
structure Kept (plugins : List Plugin) (phase : String) (b : Build) : Prop where
  seen : b.seen = b.order
  flagged : b.flagged = (flags plugins phase).filter (· ∉ b.order)

theorem kept_start : Kept plugins phase ⟨[], [], flags plugins phase, []⟩ :=
  ⟨rfl, by simp⟩

theorem Kept.put (h : Kept plugins phase b) (id : String) : Kept plugins phase (b.put id) where
  seen := congrArg (· ++ [id]) h.seen
  flagged := by
    show b.flagged.filter (· ≠ id) = (flags plugins phase).filter (· ∉ b.order ++ [id])
    rw [h.flagged, List.filter_filter]
    refine List.filter_congr fun x _ => ?_
    simp [and_comm]

theorem Kept.mem_flagged (h : Kept plugins phase b) {id : String} :
    id ∈ b.flagged ↔ Implements plugins phase id ∧ id ∉ b.order := by
  rw [h.flagged, List.mem_filter, mem_flags, decide_eq_true_iff]

theorem Build.mem_rest {id : String} : id ∈ b.rest ↔ id ∈ b.flagged ∧ id ∉ b.seen := by
  rw [Build.rest, List.mem_mergeSort, List.mem_filter, decide_eq_true_iff]

/-- The rest is in ascending order, without duplicates. -/
theorem Kept.rest_sorted (h : Kept plugins phase b) : b.rest.Pairwise (· < ·) := by
  have hflags : (flags plugins phase).Nodup := (List.nodup_dedup _).filter _
  have hnodup : b.rest.Nodup := by
    rw [Build.rest, (List.mergeSort_perm _ _).nodup_iff, h.flagged]
    exact (hflags.filter _).filter _
  have hsorted : b.rest.Pairwise (· ≤ ·) := by
    refine (List.pairwise_mergeSort (fun a b c hab hbc => ?_) (fun a b => ?_) _).imp
      fun h => of_decide_eq_true h
    · exact decide_eq_true (le_trans (of_decide_eq_true hab) (of_decide_eq_true hbc))
    · simpa using le_total a b
  exact (hsorted.and hnodup).imp fun h => lt_of_le_of_ne h.1 h.2

/-- A turn over the override places a plugin that implements the phase and is not placed yet. -/
theorem Kept.overrideTurn (h : Kept plugins phase b) (id : String) :
    Kept plugins phase (overrideTurn plugins b id) ∧
      (PluginsOrder.overrideTurn plugins b id).order =
        if hasPhase plugins phase id ∧ id ∉ b.order then b.order ++ [id] else b.order := by
  have hcond : (id ∉ b.seen ∧ (pluginOf plugins id).isSome ∧ id ∈ b.flagged) ↔
      hasPhase plugins phase id = true ∧ id ∉ b.order := by
    rw [h.seen, h.mem_flagged, hasPhase_iff]
    constructor
    · rintro ⟨hnew, -, himpl, -⟩
      exact ⟨himpl, hnew⟩
    · rintro ⟨himpl, hnew⟩
      refine ⟨hnew, ?_, himpl, hnew⟩
      obtain ⟨p, hp, -⟩ := himpl
      rw [hp]
      rfl
  unfold PluginsOrder.overrideTurn
  by_cases hput : hasPhase plugins phase id = true ∧ id ∉ b.order
  · rw [if_pos (hcond.mpr hput), if_pos hput]
    exact ⟨h.put id, rfl⟩
  · rw [if_neg (mt hcond.mp hput), if_neg hput]
    split
    · exact ⟨⟨h.seen, h.flagged⟩, rfl⟩
    · exact ⟨h, rfl⟩

theorem Kept.defaultTurn (h : Kept plugins phase b) (id : String) :
    Kept plugins phase (defaultTurn b id) ∧ (PluginsOrder.defaultTurn b id).order =
      if hasPhase plugins phase id ∧ id ∉ b.order then b.order ++ [id] else b.order := by
  have hcond : (id ∈ b.flagged ∧ id ∉ b.seen) ↔
      hasPhase plugins phase id = true ∧ id ∉ b.order := by
    rw [h.seen, h.mem_flagged, hasPhase_iff]
    tauto
  unfold PluginsOrder.defaultTurn
  by_cases hput : hasPhase plugins phase id = true ∧ id ∉ b.order
  · rw [if_pos (hcond.mpr hput), if_pos hput]
    exact ⟨h.put id, rfl⟩
  · rw [if_neg (mt hcond.mp hput), if_neg hput]
    exact ⟨h, rfl⟩

/-- A loop whose turns place what is not placed yet is a pass over its list. -/
theorem Kept.foldl {turn : Build → String → Build}
    (hturn : ∀ b id, Kept plugins phase b → Kept plugins phase (turn b id) ∧ (turn b id).order =
      if hasPhase plugins phase id ∧ id ∉ b.order then b.order ++ [id] else b.order)
    (h : Kept plugins phase b) (l : List String) :
    Kept plugins phase (l.foldl turn b) ∧
      (l.foldl turn b).order = place (hasPhase plugins phase) b.order l := by
  induction l generalizing b with
  | nil => exact ⟨h, rfl⟩
  | cons id l ih =>
    obtain ⟨hkept, horder⟩ := hturn b id h
    obtain ⟨hkept', horder'⟩ := ih hkept
    refine ⟨hkept', horder'.trans ?_⟩
    rw [horder]
    rfl

/-- The order of one phase. -/
theorem buildPhase_inPrecedence (override default : List String) :
    InPrecedence (Implements plugins phase) override default
      (buildPhase plugins phase override default).1 := by
  have hstart : Kept plugins phase _ := kept_start
  obtain ⟨hfirst, horder⟩ := Kept.foldl (fun b id h => h.overrideTurn id) hstart override
  obtain ⟨hsecond, horder'⟩ := Kept.foldl (fun b id h => h.defaultTurn id) hfirst default
  rw [horder] at horder'
  obtain ⟨first, hplace, hnamed⟩ := place_eq (hasPhase plugins phase) [] override
  rw [hplace, List.nil_append] at horder'
  obtain ⟨second, hplace', hnamed'⟩ := place_eq (hasPhase plugins phase) first default
  rw [hplace'] at horder'
  have hmemFirst : ∀ id, id ∈ first ↔ id ∈ override ∧ Implements plugins phase id := by
    intro id
    rw [hnamed.mem, hasPhase_iff]
    simp
  have hmemSecond : ∀ id, id ∈ second ↔
      id ∈ default ∧ Implements plugins phase id ∧ id ∉ override := by
    intro id
    rw [hnamed'.mem, hasPhase_iff, hmemFirst]
    tauto
  have hrest : ∀ id, id ∈ (default.foldl PluginsOrder.defaultTurn
      (override.foldl (PluginsOrder.overrideTurn plugins) ⟨[], [], flags plugins phase, []⟩)).rest ↔
      Implements plugins phase id ∧ id ∉ override ∧ id ∉ default := by
    intro id
    rw [Build.mem_rest, hsecond.mem_flagged, hsecond.seen, horder', List.mem_append, hmemFirst,
      hmemSecond]
    tauto
  refine ⟨first, second, _, ?_, ⟨hmemFirst, hnamed.order⟩, ⟨hmemSecond, hnamed'.order⟩, hrest,
    hsecond.rest_sorted⟩
  show (default.foldl PluginsOrder.defaultTurn _).order ++ _ = _
  rw [horder']

end

/-! ## The result -/

/-- The list of a phase: the plugins that implement it, each once, in the order of precedence. -/
structure PhaseExact (plugins : List Plugin) (phase : String) (override default : List String)
    (l : List String) : Prop where
  nodup : l.Nodup
  exactly : ∀ id, id ∈ l ↔ Implements plugins phase id
  precedence : InPrecedence (Implements plugins phase) override default l

/-- The lists of the phases, for the settings of a site or the global ones. -/
def OrderExact (plugins : List Plugin) (orders : List (String × List String))
    (vars : Dict String String) (o : Orders) : Prop :=
  o.order.map Prod.fst = getPhases ∧ ∀ phase l, (phase, l) ∈ o.order →
    PhaseExact plugins phase (parseOverride (vars.lookup (overrideKey phase)))
      (defaultOrder orders phase) l

theorem buildOrder_exact (plugins : List Plugin) (orders : List (String × List String))
    (vars : Dict String String) :
    OrderExact plugins orders vars (buildOrder plugins orders vars) := by
  refine ⟨by simp [buildOrder, Function.comp_def], fun phase l hl => ?_⟩
  obtain ⟨e, he, heq⟩ := List.mem_map.mp hl
  obtain ⟨phase', -, rfl⟩ := List.mem_map.mp he
  obtain ⟨rfl, rfl⟩ := Prod.mk.inj heq
  have h := @buildPhase_inPrecedence plugins phase'
    (parseOverride (vars.lookup (overrideKey phase'))) (defaultOrder orders phase')
  exact ⟨h.nodup, fun _ => h.mem_iff, h⟩

/-- Repeated and unknown names of an override, and a default order that names a plugin again. -/
example : (buildPhase [⟨"a", ["log"]⟩, ⟨"b", ["log"]⟩, ⟨"c", ["log", "init"]⟩, ⟨"d", ["init"]⟩] "log"
    ["c", "x", "d", "c"] ["b", "c"]) = (["c", "b", "a"], ["x", "d"]) := by decide +kernel

end BunkerWeb.Lua.PluginsOrder
