import BunkerWeb.Lib.Recent
import BunkerWeb.Lib.Run
import BunkerWeb.Lua.Variables
import Mathlib.Algebra.Ring.Nat
import Mathlib.Data.List.Dedup
import Mathlib.Data.List.DropRight

/-!
# The metrics of a worker (`metrics.lua`)

A worker counts in a cache of its own and publishes it with each tick of the timer, every key under
its name in the shared dictionary that ends with the number of the worker. A reload starts workers
with empty caches; their first tick takes over what is published.

Left out are Redis with the marks of what has been sent there, and what the functions return.
Counters are whole numbers and `cjson` reads tables as it has written them. The shared dictionary
has no order; what it drops for lack of memory comes with the tick.
-/

namespace BunkerWeb.Lua.Metrics

open Lib

/-- `parse_count`: `^(%d+)([kKmM]?)$`. -/
def parseCount (value : String) : Option Nat :=
  let digits := value.toList.takeWhile (·.isDigit)
  let num := Nat.ofDigitChars 10 digits 0
  if digits = [] then none
  else
    match value.toList.dropWhile (·.isDigit) with
    | [] => some num
    | [c] =>
      if c = 'k' ∨ c = 'K' then some (num * 1000)
      else if c = 'm' ∨ c = 'M' then some (num * 1000000)
      else none
    | _ => none

def defaultMaxLruHistory : Nat := 1000

section

variable {Item : Type}

/-- What is in the cache and in the dictionary. -/
inductive Value (Item : Type)
  | counter (n : Nat)
  | table (items : List Item)
  /-- The `true` under `setup`. -/
  | setup
  deriving DecidableEq

inductive Kind
  | request
  | counter
  | table
  deriving DecidableEq

/-- What `log` adds for a request: itself, if it was blocked, and what the plugins count. -/
inductive Update (Item : Type)
  | request (blocked : Item)
  | counter (pluginId metricKey : String) (metricValue : Nat)
  | table (pluginId metricKey : String) (metricValue : Item)

def setupKey : String := "setup"

namespace Update

def kind : Update Item → Kind
  | request _ => .request
  | counter .. => .counter
  | table .. => .table

/-- The key in the cache. -/
def key : Update Item → String
  | request _ => "requests"
  | counter pluginId metricKey _ => pluginId ++ "_counter_" ++ metricKey
  | table pluginId metricKey _ => pluginId ++ "_table_" ++ metricKey

end Update

/-- What comes of one update: a new value, an error of Lua, or a loop without an end. -/
inductive Outcome (Item : Type)
  | value (v : Value Item)
  | raised
  | endless
  deriving DecidableEq

/-- How many entries a table may have. -/
def maxItems (vars : Variables) : Kind → Nat
  | .request => ((vars.getVariable none "METRICS_MAX_BLOCKED_REQUESTS").bind parseCount).getD 1000
  | .counter => 0
  | .table => ((vars.getVariable none "MAX_LRU_HISTORY").bind parseCount).getD defaultMaxLruHistory

/-- One update of what the cache has under its key. -/
def Update.apply (vars : Variables) : Update Item → Option (Value Item) → Outcome Item
  -- A request is added before the oldest ones go.
  | .request blocked, none => .value (.table ([blocked].rtake (maxItems vars .request)))
  | .request blocked, some (.table requests) =>
    .value (.table ((requests ++ [blocked]).rtake (maxItems vars .request)))
  | .counter _ _ n, none => .value (.counter n)
  | .counter _ _ n, some (.counter m) => .value (.counter (m + n))
  -- A table makes room first, and never has room for no entries at all.
  | .table _ _ item, none =>
    if maxItems vars .table = 0 then .endless else .value (.table [item])
  | .table _ _ item, some (.table items) =>
    if maxItems vars .table = 0 then .endless
    else .value (.table (items.rtake (maxItems vars .table - 1) ++ [item]))
  | _, _ => .raised

/-- The slots of the cache, as `init_worker` sizes it. -/
def lruSize (vars : Variables) : Nat :=
  if maxItems vars .table < 1 then defaultMaxLruHistory else maxItems vars .table

theorem lruSize_pos (vars : Variables) : 0 < lruSize vars := by
  unfold lruSize
  split
  · decide
  · omega

structure Worker (Item : Type) where
  vars : Variables
  lru : Recent String (Value Item)
  /-- The shared dictionary. -/
  dict : Dict String (Value Item)
  /-- In a loop of `log` that does not end. -/
  stuck : Bool

namespace Worker

/-- Whether a request to a server (`none`: the default one) is counted. -/
def counts (vars : Variables) (server : Option String) : Bool :=
  match server with
  | none => vars.hasVariable "USE_METRICS" "yes"
  | some server => vars.getVariable (some server) "USE_METRICS" != some "no"

def logUpdates : Worker Item → List (Update Item) → Worker Item
  | w, [] => w
  | w, u :: us =>
    match u.apply w.vars (w.lru.find u.key) with
    | .value v => logUpdates { w with lru := w.lru.put u.key v } us
    | .raised => { w with lru := w.lru.touch u.key }
    | .endless => { w with stuck := true }

/-- `metrics:log`, `metrics:log_default`. -/
def log (w : Worker Item) (server : Option String) (updates : List (Update Item)) : Worker Item :=
  if counts w.vars server then w.logUpdates updates else w

/-! ## The timer -/

/-- The name of a key in the shared dictionary. -/
def name (wid key : String) : String := key ++ "_" ++ wid

/-- `key:gsub("_" .. wid .. "$", "")`, of a name of this worker. -/
def unname (wid name : String) : Option String :=
  if ("_" ++ wid).toList.isSuffixOf name.toList then
    some (String.ofList (name.toList.rdrop ("_" ++ wid).toList.length))
  else none

/-- What the worker has published, by the keys of the cache. -/
def published (wid : String) (dict : Dict String (Value Item)) : List (String × Value Item) :=
  dict.items.filterMap fun e => (unname wid e.1).map fun key => (key, e.2)

/-- What becomes of a write to the shared dictionary, and what is dropped for it. -/
inductive Stored
  | success (dropped : List String)
  | noMemory (dropped : List String)
  | failed
  deriving DecidableEq

def dropAll (dict : Dict String (Value Item)) (dropped : List String) : Dict String (Value Item) :=
  dropped.foldl (fun d name => d.erase name) dict

/-- One key of the cache is published. -/
def publish (room : String → Stored) (wid : String) (w : Worker Item) (key : String) :
    Worker Item :=
  match w.lru.find key with
  | none => w
  | some v =>
    match room key with
    | .success dropped =>
      { w with
        lru := w.lru.touch key
        dict := (dropAll w.dict dropped).insert (name wid key) v }
    | .noMemory dropped => { w with lru := w.lru.remove key, dict := dropAll w.dict dropped }
    | .failed => { w with lru := w.lru.touch key }

/-- The first tick after a reload takes over what is published. -/
def populate (wid : String) (w : Worker Item) : Worker Item :=
  if (w.lru.find setupKey).isSome then { w with lru := w.lru.touch setupKey }
  else { w with lru := (w.lru.putAll (published wid w.dict)).put setupKey .setup }

/-- `metrics:timer`. -/
def timer (room : String → Stored) (wid : String) (w : Worker Item) : Worker Item :=
  if w.vars.hasVariable "USE_METRICS" "yes" then
    let populated := populate wid w
    populated.lru.keys.foldl (publish room wid) populated
  else w

/-- A worker after a start or a reload. -/
def started (vars : Variables) (dict : Dict String (Value Item)) : Worker Item :=
  ⟨vars, .empty (lruSize vars) (lruSize_pos vars), dict, false⟩

inductive Action (Item : Type)
  | log (server : Option String) (updates : List (Update Item))
  | timer (room : String → Stored)
  | reload (vars : Variables)

/-- What the worker of this number does next; one in a loop without an end is only replaced. -/
def step (wid : String) (w : Worker Item) : Action Item → Worker Item
  | .log server updates => if w.stuck then w else w.log server updates
  | .timer room => if w.stuck then w else w.timer room wid
  | .reload vars => started vars w.dict

end Worker

end

end BunkerWeb.Lua.Metrics

/-!
## Metrics over reloads

A worker is watched together with what was published at its start and with what it has counted
since. As long as no counted key has been published before the first tick and nothing is lost for
lack of room, the cache holds what is to be published (`Inv`), and each tick publishes it
(`metrics_survive`). The first tick after a reload takes over what is published in the place of what
has been counted, so that the condition cannot be left out (`reload_loses_increment`).
-/

namespace BunkerWeb.Lua.Metrics

open Lib Worker

section

variable {Item : Type} {vars : Variables} {wid key : String} {kind : Kind}

/-! ## Values -/

def counterOf : Option (Value Item) → Nat
  | some (.counter n) => n
  | _ => 0

def itemsOf : Option (Value Item) → List Item
  | some (.table items) => items
  | _ => []

def Value.fits : Value Item → Kind → Bool
  | .counter _, .counter => true
  | .table _, .request => true
  | .table _, .table => true
  | _, _ => false

namespace Update

/-- What a counter is increased by. -/
def amount : Update Item → Nat
  | counter _ _ n => n
  | _ => 0

/-- The new entry of a table. -/
def item : Update Item → Option Item
  | request blocked => some blocked
  | counter .. => none
  | table _ _ item => some item

theorem key_ne_setup (u : Update Item) : u.key ≠ setupKey := by
  have hsetup : '_' ∉ setupKey.toList := by decide
  cases u with
  | request blocked =>
    show "requests" ≠ setupKey
    decide
  | counter pluginId metricKey n | table pluginId metricKey item =>
    intro h
    refine hsetup (h ▸ ?_)
    simp [key, String.toList_append]

end Update

theorem rtake_suffix (n : Nat) (l : List Item) : l.rtake n <:+ l := by
  rw [List.rtake]
  exact List.drop_suffix _ _

theorem rtake_suffix_rtake {n : Nat} {l l' : List Item} (h : l.rtake (n + 1) <:+ l') (i : Item) :
    (l ++ [i]).rtake (n + 1) <:+ (l' ++ [i]).rtake (n + 1) := by
  rw [List.rtake_concat_succ, List.rtake_concat_succ]
  have hshort : l.rtake n <:+ l' := by
    refine List.IsSuffix.trans ?_ h
    rw [List.rtake, List.rtake]
    refine List.suffix_of_suffix_length_le (List.drop_suffix _ _) (List.drop_suffix _ _) ?_
    rw [List.length_drop, List.length_drop]
    omega
  have hle : (l.rtake n).length ≤ (l'.rtake n).length := by
    have hlen := hshort.length_le
    rw [List.rtake, List.length_drop] at hlen
    rw [List.rtake, List.rtake, List.length_drop, List.length_drop]
    omega
  obtain ⟨s, hs⟩ := List.suffix_of_suffix_length_le hshort (rtake_suffix n l') hle
  exact ⟨s, by rw [← List.append_assoc, hs]⟩

/-- An update of a value of its kind. -/
theorem apply_of_fits {u : Update Item} {v : Option (Value Item)}
    (hv : ∀ x ∈ v, x.fits u.kind = true) (hcap : u.kind = .table → maxItems vars .table ≠ 0) :
    ∃ v', u.apply vars v = .value v' ∧ v'.fits u.kind = true ∧
      counterOf (some v') = counterOf v + u.amount ∧
      (u.kind ≠ .counter →
        itemsOf (some v') = (itemsOf v ++ u.item.toList).rtake (maxItems vars u.kind)) := by
  cases u with
  | request blocked =>
    cases v with
    | none => exact ⟨_, rfl, rfl, rfl, fun _ => rfl⟩
    | some x =>
      have hx := hv x rfl
      cases x with
      | table requests => exact ⟨_, rfl, rfl, rfl, fun _ => rfl⟩
      | counter | setup => cases hx
  | counter pluginId metricKey n =>
    cases v with
    | none => exact ⟨_, rfl, rfl, (Nat.zero_add n).symm, fun h => absurd rfl h⟩
    | some x =>
      have hx := hv x rfl
      cases x with
      | counter m => exact ⟨_, rfl, rfl, rfl, fun h => absurd rfl h⟩
      | table | setup => cases hx
  | table pluginId metricKey item =>
    have hpos := hcap rfl
    obtain ⟨n, hn⟩ := Nat.exists_eq_succ_of_ne_zero hpos
    cases v with
    | none =>
      refine ⟨.table [item], if_neg hpos, rfl, rfl, fun _ => ?_⟩
      show [item] = ([] ++ [item]).rtake (maxItems vars .table)
      rw [hn, List.rtake_concat_succ, List.rtake_nil, List.nil_append]
    | some x =>
      have hx := hv x rfl
      cases x with
      | table items =>
        refine ⟨_, if_neg hpos, rfl, rfl, fun _ => ?_⟩
        show items.rtake (maxItems vars .table - 1) ++ [item] =
          (items ++ [item]).rtake (maxItems vars .table)
        rw [hn, List.rtake_concat_succ]
        rfl
      | counter | setup => cases hx

/-- The value after an update. -/
def applied (vars : Variables) (v : Option (Value Item)) (u : Update Item) :
    Option (Value Item) :=
  match u.apply vars v with
  | .value v' => some v'
  | _ => v

/-- Updates of one kind, one after the other. -/
theorem foldl_applied {us : List (Update Item)} {v : Option (Value Item)}
    (hv : ∀ x ∈ v, x.fits kind = true) (hus : ∀ u ∈ us, u.kind = kind)
    (hcap : kind = .table → maxItems vars .table ≠ 0) :
    (∀ x ∈ us.foldl (applied vars) v, x.fits kind = true) ∧
      counterOf (us.foldl (applied vars) v) = counterOf v + (us.map Update.amount).sum ∧
      (us.filterMap Update.item).rtake (maxItems vars kind) <:+
        itemsOf (us.foldl (applied vars) v) := by
  induction us using List.reverseRecOn with
  | nil => exact ⟨hv, rfl, by simp [List.rtake_nil]⟩
  | append_singleton us u ih =>
    obtain ⟨hfits, hcount, hitems⟩ := ih fun u hu => hus u (List.mem_append_left _ hu)
    have hu : u.kind = kind := hus u (List.mem_append_right _ (List.mem_singleton_self u))
    subst hu
    obtain ⟨v', happly, hfits', hcount', hitems'⟩ := apply_of_fits hfits hcap
    have hstep : (us ++ [u]).foldl (applied vars) v = some v' := by
      rw [List.foldl_append, List.foldl_cons, List.foldl_nil, applied, happly]
    rw [hstep]
    refine ⟨fun x hx => ?_, ?_, ?_⟩
    · cases hx
      exact hfits'
    · rw [hcount', hcount]
      simp [Nat.add_assoc]
    · by_cases hkind : u.kind = .counter
      · simp [hkind, maxItems]
      · rw [hitems' hkind, List.filterMap_append]
        cases hitem : u.item with
        | none => cases u <;> simp_all [Update.item, Update.kind]
        | some i =>
          rw [List.filterMap_cons_some hitem, List.filterMap_nil]
          cases hn : maxItems vars u.kind with
          | zero => simp
          | succ n => exact rtake_suffix_rtake (hn ▸ hitems) i

/-! ## What has been counted -/

/-- A worker with what was published at its start, and the updates it has made since. -/
structure Watched (Item : Type) where
  worker : Worker Item
  base : Dict String (Value Item)
  made : List (Update Item)

namespace Watched

def step (wid : String) (x : Watched Item) (a : Action Item) : Watched Item :=
  { worker := x.worker.step wid a
    base :=
      match a with
      | .reload _ => x.worker.dict
      | _ => x.base
    made :=
      match a with
      | .log server updates =>
        if counts x.worker.vars server && !x.worker.stuck then x.made ++ updates else x.made
      | .timer _ => x.made
      | .reload _ => [] }

/-- At the start of a worker. -/
def started (vars : Variables) (dict : Dict String (Value Item)) : Watched Item :=
  ⟨Worker.started vars dict, dict, []⟩

end Watched

def increments (key : String) (made : List (Update Item)) : Nat :=
  ((made.filter (·.key = key)).map Update.amount).sum

def pushed (kind : Kind) (key : String) (made : List (Update Item)) : List Item :=
  ((made.filter fun u => u.key = key ∧ u.kind = kind).filterMap Update.item)

/-- What is published for a counter is what was there at the start with all increments since, and
for a table it has all entries since, up to the cap. -/
structure Survives (wid : String) (x : Watched Item) : Prop where
  counters : ∀ key ≠ setupKey, counterOf (x.worker.dict.lookup (name wid key)) =
    counterOf (x.base.lookup (name wid key)) + increments key x.made
  tables : ∀ key ≠ setupKey, ∀ kind,
    (pushed kind key x.made).rtake (maxItems x.worker.vars kind) <:+
      itemsOf (x.worker.dict.lookup (name wid key))

/-- The updates of a key are of one kind, which is also that of what was there before; a table may
have entries. -/
def OneKind (vars : Variables) (before : String → Option (Value Item))
    (made : List (Update Item)) : Prop :=
  ∀ u ∈ made, (∀ v ∈ before u.key, v.fits u.kind = true) ∧
    (∀ u' ∈ made, u'.key = u.key → u'.kind = u.kind) ∧
    (u.kind = .table → maxItems vars .table ≠ 0)

instance (vars : Variables) (before : String → Option (Value Item)) (made : List (Update Item)) :
    Decidable (OneKind vars before made) :=
  inferInstanceAs (Decidable (∀ u ∈ made, _ ∧ _ ∧ _))

/-- The condition on a step: metrics are used where they are counted, before the first tick nothing
is counted that is published, no key has two kinds, and there is room. -/
def Goes (wid : String) (x : Watched Item) : Action Item → Prop
  | .log server updates => counts x.worker.vars server = true →
    x.worker.vars.hasVariable "USE_METRICS" "yes" = true ∧
      OneKind x.worker.vars (fun key => x.base.lookup (name wid key)) (x.made ++ updates) ∧
      (x.worker.lru.find setupKey = none →
        ∀ u ∈ updates, x.worker.dict.lookup (name wid u.key) = none) ∧
      (x.worker.lru.keys ++ updates.map Update.key).dedup.length ≤ x.worker.lru.cap
  | .timer room => x.worker.vars.hasVariable "USE_METRICS" "yes" = true →
    (∀ key, room key = .success []) ∧
      (x.worker.lru.find setupKey = none →
        (x.worker.lru.keys ++ (published wid x.worker.dict).map Prod.fst ++ [setupKey]).dedup.length
          ≤ x.worker.lru.cap)
  | .reload _ => True

/-! ## What the cache holds -/

/-- What a key holds after the updates, if it held `v`. -/
def expected (vars : Variables) (made : List (Update Item)) (key : String)
    (v : Option (Value Item)) : Option (Value Item) :=
  (made.filter (·.key = key)).foldl (applied vars) v

variable {made updates : List (Update Item)} {before : String → Option (Value Item)}

theorem OneKind.sublist {made' : List (Update Item)} (h : OneKind vars before made)
    (hsub : ∀ u ∈ made', u ∈ made) : OneKind vars before made' :=
  fun u hu => ⟨(h u (hsub u hu)).1, fun u' hu' => (h u (hsub u hu)).2.1 u' (hsub u' hu'),
    (h u (hsub u hu)).2.2⟩

/-- Where nothing was before. -/
theorem OneKind.of_none (h : OneKind vars before made) : OneKind vars (fun _ => none) made :=
  fun u hu => ⟨by simp, (h u hu).2⟩

/-- What a key holds, if it has updates of one kind. -/
theorem expected_spec (h : OneKind vars before made) {u : Update Item} (hu : u ∈ made) :
    (∀ x ∈ expected vars made u.key (before u.key), x.fits u.kind = true) ∧
      counterOf (expected vars made u.key (before u.key)) =
        counterOf (before u.key) + increments u.key made ∧
      (pushed u.kind u.key made).rtake (maxItems vars u.kind) <:+
        itemsOf (expected vars made u.key (before u.key)) := by
  obtain ⟨hbefore, hkind, hcap⟩ := h u hu
  have hfilter : ∀ u' ∈ made.filter (·.key = u.key), u'.kind = u.kind := fun u' hu' => by
    obtain ⟨hmem, hkey⟩ := List.mem_filter.mp hu'
    exact hkind u' hmem (of_decide_eq_true hkey)
  have hpushed : pushed u.kind u.key made =
      (made.filter (·.key = u.key)).filterMap Update.item := by
    rw [pushed]
    congr 1
    refine List.filter_congr fun u' hu' => ?_
    by_cases hkey : u'.key = u.key
    · simp [hkey, hkind u' hu' hkey]
    · simp [hkey]
  rw [hpushed]
  exact foldl_applied hbefore hfilter hcap

/-- A key without updates. -/
theorem expected_of_forall_ne (vars : Variables) (h : ∀ u ∈ made, u.key ≠ key)
    (v : Option (Value Item)) :
    expected vars made key v = v ∧ increments key made = 0 ∧ ∀ kind, pushed kind key made = [] := by
  have hnil : made.filter (·.key = key) = [] := by simpa [List.filter_eq_nil_iff] using h
  refine ⟨by rw [expected, hnil]; rfl, by rw [increments, hnil]; rfl, fun kind => ?_⟩
  rw [pushed, List.filterMap_eq_nil_iff]
  intro u hu
  simp [(h u (List.mem_filter.mp hu).1)] at hu

/-- What is published is as it should be, where it is what is expected. -/
theorem expected_survives (h : OneKind vars before made) (key : String) :
    counterOf (expected vars made key (before key)) =
        counterOf (before key) + increments key made ∧
      ∀ kind, (pushed kind key made).rtake (maxItems vars kind) <:+
        itemsOf (expected vars made key (before key)) := by
  by_cases hmade : ∃ u ∈ made, u.key = key
  · obtain ⟨u, hu, rfl⟩ := hmade
    obtain ⟨-, hcount, hitems⟩ := expected_spec h hu
    refine ⟨hcount, fun kind => ?_⟩
    by_cases hk : kind = u.kind
    · exact hk ▸ hitems
    · have hnil : pushed kind u.key made = [] := by
        rw [pushed, List.filterMap_eq_nil_iff]
        intro u' hu'
        obtain ⟨hmem, hkeys⟩ := List.mem_filter.mp hu'
        obtain ⟨hkey, hkind⟩ := of_decide_eq_true hkeys
        exact absurd (hkind ▸ (h u hu).2.1 u' hmem hkey) hk
      simp [hnil, List.rtake_nil]
  · have hne : ∀ u ∈ made, u.key ≠ key := fun u hu hkey => hmade ⟨u, hu, hkey⟩
    obtain ⟨hsame, hcount, hitems⟩ := expected_of_forall_ne vars hne (before key)
    rw [hsame, hcount]
    exact ⟨rfl, fun kind => by simp [hitems kind, List.rtake_nil]⟩

theorem expected_append_singleton (u : Update Item) (v : Option (Value Item)) :
    expected vars (made ++ [u]) key v =
      if u.key = key then applied vars (expected vars made key v) u
      else expected vars made key v := by
  unfold expected
  rw [List.filter_append, List.foldl_append]
  by_cases hkey : u.key = key <;> simp [hkey]

/-- An update leaves no key without a value. -/
theorem isSome_expected_append {v : Option (Value Item)}
    (h : (expected vars made key v).isSome) :
    (expected vars (made ++ updates) key v).isSome := by
  induction updates using List.reverseRecOn with
  | nil => rwa [List.append_nil]
  | append_singleton us u ih =>
    rw [← List.append_assoc, expected_append_singleton]
    split
    · unfold applied
      split
      · rfl
      · exact ih
    · exact ih

/-- `log` writes what is expected, where it has room. -/
theorem logUpdates_spec {w : Worker Item} {names : List String}
    (h : ∀ key ≠ setupKey, w.lru.find key = expected w.vars made key (before key))
    (hkind : OneKind w.vars before (made ++ updates)) (hsub : ∀ k ∈ w.lru.keys, k ∈ names)
    (hlen : names.length ≤ w.lru.cap) (hnames : ∀ u ∈ updates, u.key ∈ names) :
    (w.logUpdates updates).vars = w.vars ∧ (w.logUpdates updates).dict = w.dict ∧
      (w.logUpdates updates).stuck = w.stuck ∧
      (w.logUpdates updates).lru.find setupKey = w.lru.find setupKey ∧
      ∀ key ≠ setupKey, (w.logUpdates updates).lru.find key =
        expected w.vars (made ++ updates) key (before key) := by
  induction updates generalizing w made with
  | nil => exact ⟨rfl, rfl, rfl, rfl, by simpa [logUpdates] using h⟩
  | cons u us ih =>
    have hroomy := Recent.roomy_of_subset hsub hlen (hnames u List.mem_cons_self)
    -- What the key holds is of the kind of the update.
    have hfits : ∀ x ∈ w.lru.find u.key, x.fits u.kind = true := by
      rw [h u.key u.key_ne_setup]
      by_cases hmade : ∃ u' ∈ made, u'.key = u.key
      · obtain ⟨u', hu', hkey⟩ := hmade
        have hsub : OneKind w.vars before made :=
          hkind.sublist fun u hu => List.mem_append_left _ hu
        have hu := (hkind u (by simp)).2.1 u' (List.mem_append_left _ hu') hkey
        rw [← hkey, ← hu]
        exact (expected_spec hsub hu').1
      · have hne : ∀ u' ∈ made, u'.key ≠ u.key := fun u' hu' hkey => hmade ⟨u', hu', hkey⟩
        rw [(expected_of_forall_ne _ hne _).1]
        exact (hkind u (by simp)).1
    obtain ⟨v, hv, -⟩ := apply_of_fits hfits (hkind u (by simp)).2.2
    have hput : ∀ key ≠ setupKey, (w.lru.put u.key v).find key =
        expected w.vars (made ++ [u]) key (before key) := fun key hkey => by
      rw [Recent.find_put hroomy, expected_append_singleton, ← h key hkey]
      by_cases hk : u.key = key
      · rw [if_pos hk.symm, if_pos hk, applied, ← hk, hv]
      · rw [if_neg (Ne.symm hk), if_neg hk]
    have hstep : w.logUpdates (u :: us) = logUpdates { w with lru := w.lru.put u.key v } us := by
      rw [logUpdates, hv]
    obtain ⟨h1, h2, h3, h4, h5⟩ := ih (w := { w with lru := w.lru.put u.key v })
      hput (by simpa using hkind)
      (fun k hk => ((Recent.mem_keys_put hroomy).mp hk).elim
        (fun heq => heq ▸ hnames u List.mem_cons_self) (hsub k))
      (by simpa using hlen) fun u' hu' => hnames u' (List.mem_cons_of_mem _ hu')
    rw [hstep]
    refine ⟨h1, h2, h3, h4.trans ?_, by simpa using h5⟩
    show (w.lru.put u.key v).find setupKey = _
    rw [Recent.find_put hroomy, if_neg (Ne.symm u.key_ne_setup)]

/-! ## Names -/

theorem unname_eq_some_iff {n : String} : unname wid n = some key ↔ n = name wid key := by
  unfold unname name
  constructor
  · intro h
    split at h
    next hsuffix =>
      obtain ⟨l, hl⟩ := List.isSuffixOf_iff_suffix.mp hsuffix
      rw [← hl, List.rdrop, List.length_append, Nat.add_sub_cancel, List.take_left] at h
      apply String.toList_injective
      rw [← Option.some.inj h, String.append_assoc, String.toList_append, String.toList_ofList, hl]
    next => cases h
  · rintro rfl
    have hlist : (key ++ "_" ++ wid).toList = key.toList ++ ("_" ++ wid).toList := by
      rw [String.append_assoc]
      exact String.toList_append
    rw [hlist, if_pos (List.isSuffixOf_iff_suffix.mpr (List.suffix_append _ _)), List.rdrop,
      List.length_append, Nat.add_sub_cancel, List.take_left, String.ofList_toList]

theorem mem_published_iff {dict : Dict String (Value Item)} {v : Value Item} :
    (key, v) ∈ published wid dict ↔ dict.lookup (name wid key) = some v := by
  rw [published, List.mem_filterMap]
  constructor
  · rintro ⟨⟨n, v'⟩, hmem, he⟩
    obtain ⟨key', hkey, heq⟩ := Option.map_eq_some_iff.mp he
    cases heq
    rw [← unname_eq_some_iff.mp hkey]
    exact Dict.mem_items.mp hmem
  · intro h
    refine ⟨(name wid key, v), Dict.mem_items.mpr h, ?_⟩
    rw [unname_eq_some_iff.mpr rfl]
    rfl

theorem lastOf_published (wid key : String) (dict : Dict String (Value Item)) :
    Dict.lastOf key (published wid dict) = dict.lookup (name wid key) :=
  Dict.lastOf_eq_of_iff fun _ => mem_published_iff

theorem name_inj {key' : String} (h : name wid key = name wid key') : key = key' :=
  Option.some.inj ((unname_eq_some_iff.mpr rfl).symm.trans (unname_eq_some_iff.mpr h))

/-! ## A tick -/

variable {w : Worker Item} {room : String → Stored}

theorem find_populate
    (hroom : w.lru.find setupKey = none →
      (w.lru.keys ++ (published wid w.dict).map Prod.fst ++ [setupKey]).dedup.length ≤ w.lru.cap) :
    ((populate wid w).lru.find setupKey).isSome ∧ ∀ key ≠ setupKey,
      (populate wid w).lru.find key =
        if (w.lru.find setupKey).isSome then w.lru.find key
        else (w.dict.lookup (name wid key)).or (w.lru.find key) := by
  unfold populate
  split
  next hsetup =>
    refine ⟨?_, fun key _ => ?_⟩
    · rwa [Recent.find_touch]
    · rw [Recent.find_touch]
  next hsetup =>
    have hlen := hroom (Option.not_isSome_iff_eq_none.mp hsetup)
    have hall := fun key => Recent.find_putAll (c := w.lru) (k := key)
      (published wid w.dict) (fun k hk => List.mem_dedup.mpr (by simp [hk])) hlen
      fun e he => List.mem_dedup.mpr (by
        rw [List.mem_append, List.mem_append]
        exact .inl (.inr (List.mem_map_of_mem he)))
    have hroomy : (w.lru.putAll (published wid w.dict)).Roomy setupKey :=
      Recent.roomy_of_subset (hall setupKey).2 (by rwa [Recent.cap_putAll])
        (List.mem_dedup.mpr (by simp))
    have hfind : ∀ key, ((w.lru.putAll (published wid w.dict)).put setupKey .setup).find key =
        if key = setupKey then some .setup
        else (w.dict.lookup (name wid key)).or (w.lru.find key) := fun key => by
      rw [Recent.find_put hroomy, (hall key).1, lastOf_published]
    refine ⟨?_, fun key hkey => ?_⟩
    · rw [hfind, if_pos rfl]
      rfl
    · rw [hfind, if_neg hkey]

/-- One key is published, and the others are left. -/
theorem publish_spec (hroom : ∀ key, room key = .success []) (w : Worker Item) (key' : String) :
    (publish room wid w key').vars = w.vars ∧ (publish room wid w key').stuck = w.stuck ∧
      (∀ k, (publish room wid w key').lru.find k = w.lru.find k) ∧
      ∀ key, (publish room wid w key').dict.lookup (name wid key) =
        if key = key' then (w.lru.find key).or (w.dict.lookup (name wid key))
        else w.dict.lookup (name wid key) := by
  unfold publish
  cases hfind : w.lru.find key' with
  | none =>
    refine ⟨rfl, rfl, fun _ => rfl, fun key => ?_⟩
    by_cases hk : key = key'
    · rw [if_pos hk, hk, hfind]
      rfl
    · rw [if_neg hk]
  | some v =>
    rw [hroom]
    refine ⟨rfl, rfl, fun _ => Recent.find_touch, fun key => ?_⟩
    show (w.dict.insert (name wid key') v).lookup (name wid key) = _
    by_cases hk : key = key'
    · rw [if_pos hk, hk, AList.lookup_insert, hfind]
      rfl
    · rw [if_neg hk, AList.lookup_insert_ne fun h => hk (name_inj h)]

theorem foldl_publish (hroom : ∀ key, room key = .success []) (keys : List String) :
    (keys.foldl (publish room wid) w).vars = w.vars ∧
      (keys.foldl (publish room wid) w).stuck = w.stuck ∧
      (∀ k, (keys.foldl (publish room wid) w).lru.find k = w.lru.find k) ∧
      ∀ key, (keys.foldl (publish room wid) w).dict.lookup (name wid key) =
        if key ∈ keys then (w.lru.find key).or (w.dict.lookup (name wid key))
        else w.dict.lookup (name wid key) := by
  induction keys generalizing w with
  | nil => exact ⟨rfl, rfl, fun _ => rfl, fun _ => rfl⟩
  | cons key' keys ih =>
    obtain ⟨h1, h2, h3, h4⟩ := publish_spec hroom w key'
    obtain ⟨i1, i2, i3, i4⟩ := ih (w := publish room wid w key')
    refine ⟨i1.trans h1, i2.trans h2, fun k => (i3 k).trans (h3 k), fun key => ?_⟩
    rw [List.foldl_cons, i4, h3, h4]
    by_cases hk : key = key'
    · rw [if_pos hk, if_pos (List.mem_cons.mpr (.inl hk)), ← Option.or_assoc, Option.or_self,
        ite_self]
    · simp only [hk, List.mem_cons, if_false, false_or]

/-- After a tick that has room, what the cache holds is published. -/
theorem timer_spec (wid : String) (hused : w.vars.hasVariable "USE_METRICS" "yes" = true)
    (hroom : ∀ key, room key = .success []) :
    (w.timer room wid).vars = w.vars ∧ (w.timer room wid).stuck = w.stuck ∧
      (∀ k, (w.timer room wid).lru.find k = (populate wid w).lru.find k) ∧
      ∀ key, (w.timer room wid).dict.lookup (name wid key) =
        ((populate wid w).lru.find key).or (w.dict.lookup (name wid key)) := by
  have hpopulate : (populate wid w).vars = w.vars ∧ (populate wid w).stuck = w.stuck ∧
      (populate wid w).dict = w.dict := by
    unfold populate
    split <;> exact ⟨rfl, rfl, rfl⟩
  obtain ⟨p1, p2, p3⟩ := hpopulate
  obtain ⟨h1, h2, h3, h4⟩ :=
    foldl_publish (w := populate wid w) hroom (populate wid w).lru.keys
  unfold timer
  rw [if_pos hused]
  refine ⟨h1.trans p1, h2.trans p2, h3, fun key => ?_⟩
  rw [h4, p3]
  by_cases hmem : key ∈ (populate wid w).lru.keys
  · rw [if_pos hmem]
  · rw [if_neg hmem, Option.not_isSome_iff_eq_none.mp fun h => hmem (Recent.mem_keys_iff.mpr h)]
    rfl

/-! ## Runs -/

/-- Before the first tick the cache has what has been counted since the start, and nothing of that
is published; afterwards it has all that is to be published. -/
structure Inv (wid : String) (x : Watched Item) : Prop where
  runs : x.worker.stuck = false
  kinds : OneKind x.worker.vars (fun key => x.base.lookup (name wid key)) x.made
  unused : x.worker.vars.hasVariable "USE_METRICS" "yes" = false →
    x.made = [] ∧ x.worker.lru.find setupKey = none
  before : x.worker.lru.find setupKey = none →
    (∀ key, x.worker.dict.lookup (name wid key) = x.base.lookup (name wid key)) ∧
      (∀ u ∈ x.made, x.base.lookup (name wid u.key) = none) ∧
      ∀ key ≠ setupKey, x.worker.lru.find key = expected x.worker.vars x.made key none
  after : (x.worker.lru.find setupKey).isSome → ∀ key ≠ setupKey,
    x.worker.lru.find key =
        expected x.worker.vars x.made key (x.base.lookup (name wid key)) ∧
      ((x.worker.dict.lookup (name wid key)).isSome → (x.worker.lru.find key).isSome)

variable {x : Watched Item}

theorem inv_started (wid : String) (vars : Variables) (dict : Dict String (Value Item)) :
    Inv wid (Watched.started vars dict) where
  runs := rfl
  kinds := fun u hu => by cases hu
  unused := fun _ => ⟨rfl, rfl⟩
  before := fun _ => ⟨fun _ => rfl, by simp [Watched.started], fun _ _ => rfl⟩
  after := fun h => absurd h Bool.false_ne_true

theorem inv_log {server : Option String} (h : Inv wid x)
    (hgoes : Goes wid x (.log server updates)) :
    Inv wid (x.step wid (.log server updates)) := by
  by_cases hcounts : counts x.worker.vars server = true
  · obtain ⟨hused, hkinds, hbefore, hlen⟩ := hgoes hcounts
    have hstep : x.step wid (.log server updates) =
        ⟨x.worker.logUpdates updates, x.base, x.made ++ updates⟩ := by
      simp [Watched.step, Worker.step, Worker.log, h.runs, hcounts]
    have hspec := fun (before : String → Option (Value Item))
        (hfind : ∀ key ≠ setupKey, x.worker.lru.find key =
          expected x.worker.vars x.made key (before key)) hkind =>
      logUpdates_spec hfind hkind
        (fun k hk => List.mem_dedup.mpr (List.mem_append_left _ hk)) hlen
        fun u hu => List.mem_dedup.mpr (List.mem_append_right _ (List.mem_map_of_mem hu))
    rw [hstep]
    cases hsetup : x.worker.lru.find setupKey with
    | none =>
      obtain ⟨hdict, hnone, hfind⟩ := h.before hsetup
      obtain ⟨h1, h2, h3, h4, h5⟩ := hspec (fun _ => none) hfind hkinds.of_none
      refine ⟨h3.trans h.runs, h1 ▸ hkinds, fun hun => ?_, fun _ => ⟨fun key => ?_, ?_, ?_⟩,
        fun hsome => ?_⟩
      · rw [h1, hused] at hun
        cases hun
      · rw [h2, hdict]
      · intro u hu
        rcases List.mem_append.mp hu with hu | hu
        · exact hnone u hu
        · rw [← hdict]
          exact hbefore hsetup u hu
      · rwa [h1]
      · rw [h4, hsetup] at hsome
        cases hsome
    | some v =>
      have hall := h.after (by rw [hsetup]; rfl)
      obtain ⟨h1, h2, h3, h4, h5⟩ := hspec _ (fun key hkey => (hall key hkey).1) hkinds
      refine ⟨h3.trans h.runs, h1 ▸ hkinds, fun hun => ?_, fun hsetup' => ?_,
        fun _ key hkey => ⟨?_, fun hsome => ?_⟩⟩
      · rw [h1, hused] at hun
        cases hun
      · rw [h4, hsetup] at hsetup'
        cases hsetup'
      · rw [h5 key hkey, h1]
      · rw [h2] at hsome
        have hheld := (hall key hkey).2 hsome
        rw [(hall key hkey).1] at hheld
        rw [h5 key hkey]
        exact isSome_expected_append hheld
  · have hstep : x.step wid (.log server updates) = x := by
      simp [Watched.step, Worker.step, Worker.log, h.runs, hcounts]
    rw [hstep]
    exact h

/-- A tick publishes what is expected. -/
theorem timer_holds (h : Inv wid x) (hgoes : Goes wid x (.timer room))
    (hused : x.worker.vars.hasVariable "USE_METRICS" "yes" = true) :
    ((x.worker.timer room wid).lru.find setupKey).isSome ∧ ∀ key ≠ setupKey,
      (x.worker.timer room wid).lru.find key =
          expected x.worker.vars x.made key (x.base.lookup (name wid key)) ∧
        (x.worker.timer room wid).dict.lookup (name wid key) =
          expected x.worker.vars x.made key (x.base.lookup (name wid key)) := by
  obtain ⟨hroom, hlen⟩ := hgoes hused
  obtain ⟨-, -, hlru, hdict⟩ := timer_spec wid hused hroom
  obtain ⟨hsetup, hfind⟩ := find_populate hlen
  refine ⟨by rwa [hlru], fun key hkey => ?_⟩
  rw [hlru, hdict, hfind key hkey]
  split
  next hsome =>
    obtain ⟨heq, hpublished⟩ := h.after hsome key hkey
    refine ⟨heq, ?_⟩
    rw [← heq]
    cases hheld : x.worker.lru.find key with
    | some v => rfl
    | none =>
      rw [hheld] at hpublished
      exact Option.not_isSome_iff_eq_none.mp fun hs => by cases hpublished hs
  next hnone =>
    obtain ⟨hbase, hnew, hcounted⟩ := h.before (Option.not_isSome_iff_eq_none.mp hnone)
    rw [hbase, hcounted key hkey]
    cases hb : x.base.lookup (name wid key) with
    | none => exact ⟨rfl, Option.or_none⟩
    | some v =>
      have hne : ∀ u ∈ x.made, u.key ≠ key := fun u hu heq => by
        have hnone := hnew u hu
        rw [heq, hb] at hnone
        cases hnone
      rw [(expected_of_forall_ne _ hne _).1, (expected_of_forall_ne _ hne _).1]
      exact ⟨rfl, rfl⟩

theorem inv_timer (h : Inv wid x) (hgoes : Goes wid x (.timer room)) :
    Inv wid (x.step wid (.timer room)) ∧ Survives wid (x.step wid (.timer room)) := by
  have hstep : x.step wid (.timer room) = ⟨x.worker.timer room wid, x.base, x.made⟩ := by
    simp [Watched.step, Worker.step, h.runs]
  rw [hstep]
  by_cases hused : x.worker.vars.hasVariable "USE_METRICS" "yes" = true
  · obtain ⟨hvars, hstuck, -, -⟩ := timer_spec wid hused (hgoes hused).1
    obtain ⟨hsetup, hall⟩ := timer_holds h hgoes hused
    refine ⟨⟨hstuck.trans h.runs, hvars ▸ h.kinds, fun hun => ?_, fun hnone => ?_,
      fun _ key hkey => ⟨?_, fun hsome => ?_⟩⟩, ⟨fun key hkey => ?_, fun key hkey kind => ?_⟩⟩
    · rw [hvars, hused] at hun
      cases hun
    · rw [hnone] at hsetup
      cases hsetup
    · rw [(hall key hkey).1, hvars]
    · rw [(hall key hkey).1, ← (hall key hkey).2]
      exact hsome
    · rw [(hall key hkey).2]
      exact (expected_survives h.kinds key).1
    · rw [(hall key hkey).2, hvars]
      exact (expected_survives h.kinds key).2 kind
  · have hsame : x.worker.timer room wid = x.worker := by
      rw [Worker.timer, if_neg hused]
    obtain ⟨hmade, hsetup⟩ := h.unused (by simpa using hused)
    rw [hsame]
    refine ⟨h, ⟨fun key _ => ?_, fun key _ kind => ?_⟩⟩
    · rw [(h.before hsetup).1, hmade]
      rfl
    · rw [hmade]
      simp [pushed, List.rtake_nil]

theorem inv_step {a : Action Item} (h : Inv wid x) (hgoes : Goes wid x a) :
    Inv wid (x.step wid a) := by
  cases a with
  | log server updates => exact inv_log h hgoes
  | timer room => exact (inv_timer h hgoes).1
  | reload vars => exact inv_started wid vars x.worker.dict

end

/-- **Metrics over reloads.** In a run of a worker whose steps all meet the condition, each tick
publishes for every counter what was published before the last reload with all increments since, and
for every table all entries since, up to the cap. -/
theorem metrics_survive {Item : Type} (wid : String) (vars : Variables)
    (dict : Dict String (Value Item)) (actions : List (Action Item)) (room : String → Stored)
    (h : Run.Meets (Watched.step wid) (Goes wid) (Watched.started vars dict)
      (actions ++ [.timer room])) :
    Survives wid
      (Run.run (Watched.step wid) (Watched.started vars dict) (actions ++ [.timer room])) := by
  obtain ⟨hrun, htick, -⟩ := Run.meets_append.mp h
  have hinv : Inv wid (Run.run (Watched.step wid) (Watched.started vars dict) actions) :=
    Run.invariant (fun _ _ hx hgoes => inv_step hx hgoes) (inv_started wid vars dict) hrun
  rw [Run.run_append]
  exact (inv_timer hinv htick).2

/-! ## A request before the first tick -/

def usedVars : Variables where
  global := Dict.ofItems [("USE_METRICS", "yes")]
  site := fun _ => none
  servers := fun h => absurd h (by decide +kernel)

/-- A request to the default server that ends with an error page. -/
def notFound : Action Unit := .log none [.counter "errors" "404" 1]

def tick : Action Unit := .timer fun _ => .success []

theorem reload_loses_increment :
    ¬ Survives "0" (Run.run (Watched.step "0") (Watched.started usedVars ∅)
      [notFound, tick, .reload usedVars, notFound, tick]) := by
  intro h
  exact absurd (h.counters "errors_counter_404" (by decide)) (by decide +kernel)

/-- The same with a tick before the second request. -/
theorem metrics_survive_ticked :
    Survives "0" (Run.run (Watched.step "0") (Watched.started usedVars ∅)
      ([notFound, tick, .reload usedVars, tick, notFound] ++ [tick])) := by
  refine metrics_survive "0" usedVars ∅ [notFound, tick, .reload usedVars, tick, notFound] _ ?_
  have hroom : ∀ key : String, (fun _ => Stored.success []) key = Stored.success [] := fun _ => rfl
  refine ⟨fun _ => ⟨?_, ?_, ?_, ?_⟩, fun _ => ⟨hroom, ?_⟩, trivial, fun _ => ⟨hroom, ?_⟩,
    fun _ => ⟨?_, ?_, ?_, ?_⟩, fun _ => ⟨hroom, ?_⟩, trivial⟩
  all_goals decide +kernel

end BunkerWeb.Lua.Metrics
