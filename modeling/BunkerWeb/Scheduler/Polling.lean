import BunkerWeb.Lib.Dict

/-!
# One poll of the scheduler (`main.py`, `Database.get_metadata`)

Between two reloads the main loop reads the metadata once a second, copies nine of its keys into
`changes`, and looks for flags that are up. A database that is read-only cannot lower its flags; so
there a flag counts only when the time of its last change is another one than in `old_changes`, the
copy of the poll before.

- **The poll** (`poll`): five tests on two dictionaries (`changed`), each behind the same guards.
- **What it is for** (`ShouldReload`): by the content of the metadata.
- **The result** (`poll_exact`): the test of the plugins' settings asks for
  `last_plugins_config_change`, which no dictionary has. And when nothing has changed since the last
  poll, the flags are not looked at.
-/

namespace BunkerWeb.Scheduler.Polling

open Lib

variable {T : Type}

/-! ## Dictionaries with values of several kinds -/

/-- `==` of dictionaries whose values are compared by `eq`. -/
def sameDict {ν : Type*} (eq : ν → ν → Bool) (d d' : Dict String ν) : Bool :=
  d.keys.length = d'.keys.length && d.items.all fun e => (d'.lookup e.1).any (eq e.2)

inductive Value (T : Type)
  | none
  | bool (b : Bool)
  | datetime (t : T)
  | plugins (changed : Dict String (Option T))

namespace Value

/-- The value as a condition. -/
def truthy : Value T → Bool
  | none => false
  | bool b => b
  | datetime _ => true
  | plugins changed => !changed.keys.isEmpty

/-- `==`. -/
def same [DecidableEq T] : Value T → Value T → Bool
  | none, none => true
  | bool b, bool b' => b = b'
  | datetime t, datetime t' => t = t'
  | plugins changed, plugins changed' => sameDict (fun t t' => t = t') changed changed'
  | _, _ => false

def ofTime : Option T → Value T
  | some t => datetime t
  | Option.none => none

def ofFlag : Option Bool → Value T
  | some b => bool b
  | Option.none => none

end Value

/-- `KeyError`. -/
structure KeyError where
  key : String
  deriving DecidableEq, Repr

/-- `d[key]`. -/
def index (d : Dict String (Value T)) (key : String) : Except KeyError (Value T) :=
  match d.lookup key with
  | some v => .ok v
  | none => .error ⟨key⟩

/-! ## What is read -/

/-- The columns of `bw_metadata` that the loop reads, and the plugins whose settings have changed,
each with the time of its last change. -/
structure Metadata (T : Type) where
  proPluginsChanged : Option Bool
  lastProPluginsChange : Option T
  externalPluginsChanged : Option Bool
  lastExternalPluginsChange : Option T
  customConfigsChanged : Option Bool
  lastCustomConfigsChange : Option T
  instancesChanged : Option Bool
  lastInstancesChange : Option T
  pluginsConfigChanged : Dict String (Option T)

/-- `get_metadata`. -/
def getMetadata (m : Metadata T) : Dict String (Value T) :=
  Dict.ofItems
    [("custom_configs_changed", .ofFlag m.customConfigsChanged),
      ("external_plugins_changed", .ofFlag m.externalPluginsChanged),
      ("pro_plugins_changed", .ofFlag m.proPluginsChanged),
      ("instances_changed", .ofFlag m.instancesChanged),
      ("plugins_config_changed", .plugins m.pluginsConfigChanged),
      ("last_custom_configs_change", .ofTime m.lastCustomConfigsChange),
      ("last_external_plugins_change", .ofTime m.lastExternalPluginsChange),
      ("last_pro_plugins_change", .ofTime m.lastProPluginsChange),
      ("last_instances_change", .ofTime m.lastInstancesChange)]

/-! ## The poll -/

/-- The keys of `changes`. -/
def changesKeys : List String :=
  ["pro_plugins_changed", "last_pro_plugins_change", "external_plugins_changed",
    "last_external_plugins_change", "custom_configs_changed", "last_custom_configs_change",
    "plugins_config_changed", "instances_changed", "last_instances_change"]

/-- The copy of the metadata. -/
def changesOf (metadata : Dict String (Value T)) : Except KeyError (Dict String (Value T)) := do
  let items ← changesKeys.mapM fun key => do return (key, ← index metadata key)
  return Dict.ofItems items

/-- One of the five tests: a flag, the key that must hold a time, and the key that is compared with
the poll before. -/
def changed [DecidableEq T] (readonly : Bool) (changes old : Dict String (Value T))
    (flag last compared : String) : Except KeyError Bool := do
  if !(← index changes flag).truthy then return false
  if !readonly then return true
  if !(← index changes last).truthy then return true
  if old.keys.isEmpty then return true
  return !(← index old compared).same (← index changes compared)

/-- What a poll has found out that must be done. -/
structure Needs where
  proPluginsNeedGeneration : Bool
  pluginsNeedGeneration : Bool
  configsNeedGeneration : Bool
  instancesNeedGeneration : Bool
  configNeedGeneration : Bool
  runJobsOnce : Bool
  needReload : Bool
  changedPlugins : List String
  deriving DecidableEq

/-- The state in which the loop starts. -/
def Needs.idle : Needs := ⟨false, false, false, false, false, false, false, []⟩

/-- The tests, with what each sets. -/
def blocks [DecidableEq T] (readonly : Bool) (changes old : Dict String (Value T)) :
    List (Except KeyError Bool × (Needs → Needs)) :=
  [(changed readonly changes old "pro_plugins_changed" "last_pro_plugins_change"
      "last_pro_plugins_change", fun n =>
      { n with
        proPluginsNeedGeneration := true
        configNeedGeneration := true
        runJobsOnce := true
        needReload := true }),
    (changed readonly changes old "external_plugins_changed" "last_external_plugins_change"
      "last_external_plugins_change", fun n =>
      { n with
        pluginsNeedGeneration := true
        configNeedGeneration := true
        runJobsOnce := true
        needReload := true }),
    (changed readonly changes old "custom_configs_changed" "last_custom_configs_change"
      "last_custom_configs_change", fun n =>
      { n with
        configsNeedGeneration := true
        configNeedGeneration := true
        needReload := true }),
    (changed readonly changes old "plugins_config_changed" "last_plugins_config_change"
      "plugins_config_changed", fun n =>
      { n with
        configNeedGeneration := true
        runJobsOnce := true
        needReload := true
        changedPlugins := match changes.lookup "plugins_config_changed" with
          | some (.plugins changed) => changed.keys
          | _ => [] }),
    (changed readonly changes old "instances_changed" "last_instances_change"
      "last_instances_change", fun n =>
      { n with
        instancesNeedGeneration := true
        proPluginsNeedGeneration := true
        pluginsNeedGeneration := true
        configsNeedGeneration := true
        configNeedGeneration := true
        needReload := true })]

/-- The tests one after the other; an exception leaves what the tests before it have set. -/
def runBlocks : List (Except KeyError Bool × (Needs → Needs)) → Needs → Needs × Option KeyError
  | [], n => (n, none)
  | (test, set) :: rest, n =>
    match test with
    | .error e => (n, some e)
    | .ok true => runBlocks rest (set n)
    | .ok false => runBlocks rest n

/-- What a poll leaves. -/
structure Polled (T : Type) where
  needs : Needs
  oldChanges : Dict String (Value T)
  error : Option KeyError

/-- One turn of the loop, from the metadata on. -/
def poll [DecidableEq T] (readonly : Bool) (metadata old : Dict String (Value T)) (needs : Needs) :
    Polled T :=
  match changesOf metadata with
  | .error e => ⟨needs, old, some e⟩
  | .ok changes =>
    if readonly ∧ sameDict Value.same changes old then ⟨needs, old, none⟩
    else
      match runBlocks (blocks readonly changes old) needs with
      | (needs, some e) => ⟨needs, old, some e⟩
      | (needs, none) => ⟨needs, changes, none⟩

/-! ## The copy -/

/-- `changes`, of metadata with all keys. -/
def changes (m : Metadata T) : Dict String (Value T) :=
  Dict.ofItems
    [("pro_plugins_changed", .ofFlag m.proPluginsChanged),
      ("last_pro_plugins_change", .ofTime m.lastProPluginsChange),
      ("external_plugins_changed", .ofFlag m.externalPluginsChanged),
      ("last_external_plugins_change", .ofTime m.lastExternalPluginsChange),
      ("custom_configs_changed", .ofFlag m.customConfigsChanged),
      ("last_custom_configs_change", .ofTime m.lastCustomConfigsChange),
      ("plugins_config_changed", .plugins m.pluginsConfigChanged),
      ("instances_changed", .ofFlag m.instancesChanged),
      ("last_instances_change", .ofTime m.lastInstancesChange)]

theorem changesOf_getMetadata (m : Metadata T) : changesOf (getMetadata m) = .ok (changes m) := by
  rfl

/-- The copy of the poll before; the first poll has none. -/
def remembered (old : Option (Metadata T)) : Dict String (Value T) := old.elim ∅ changes

theorem keys_remembered_isEmpty (old : Option (Metadata T)) :
    (remembered old).keys.isEmpty = old.isNone := by
  cases old <;> rfl

/-! ## What the poll is for -/

/-- What can have changed. -/
inductive Kind
  | proPlugins
  | externalPlugins
  | customConfigs
  | pluginsConfig
  | instances
  deriving DecidableEq, Repr

namespace Metadata

/-- The flag is up. -/
def IsSet (m : Metadata T) : Kind → Prop
  | .proPlugins => m.proPluginsChanged = some true
  | .externalPlugins => m.externalPluginsChanged = some true
  | .customConfigs => m.customConfigsChanged = some true
  | .pluginsConfig => m.pluginsConfigChanged.keys ≠ []
  | .instances => m.instancesChanged = some true

/-- There is no time of the last change; of plugins, for one of them. -/
def Missing (m : Metadata T) : Kind → Prop
  | .proPlugins => m.lastProPluginsChange = none
  | .externalPlugins => m.lastExternalPluginsChange = none
  | .customConfigs => m.lastCustomConfigsChange = none
  | .pluginsConfig => ∃ plugin, m.pluginsConfigChanged.lookup plugin = some none
  | .instances => m.lastInstancesChange = none

/-- The time of the last change is another one; of plugins, which have changed or when. -/
def Differs (m old : Metadata T) : Kind → Prop
  | .proPlugins => m.lastProPluginsChange ≠ old.lastProPluginsChange
  | .externalPlugins => m.lastExternalPluginsChange ≠ old.lastExternalPluginsChange
  | .customConfigs => m.lastCustomConfigsChange ≠ old.lastCustomConfigsChange
  | .pluginsConfig =>
    ∃ plugin, m.pluginsConfigChanged.lookup plugin ≠ old.pluginsConfigChanged.lookup plugin
  | .instances => m.lastInstancesChange ≠ old.lastInstancesChange

end Metadata

/-- A flag is up, and in a database that is read-only it is not known already. -/
def ShouldReload (readonly : Bool) (m : Metadata T) (old : Option (Metadata T)) : Prop :=
  ∃ kind, m.IsSet kind ∧
    (readonly = true → m.Missing kind ∨ ∀ before ∈ old, m.Differs before kind)

/-! ## Dictionaries that are the same -/

section

variable {ν : Type*} {eq : ν → ν → Bool} {d d' : Dict String ν}

theorem exists_of_sameDict (h : sameDict eq d d' = true) {k : String} {v : ν}
    (hk : d.lookup k = some v) : ∃ v', d'.lookup k = some v' ∧ eq v v' = true := by
  have hall := (Bool.and_eq_true_iff.mp h).2
  have hv := List.all_eq_true.mp hall (k, v) (Dict.mem_items.mpr hk)
  cases hk' : d'.lookup k with
  | none => simp [hk'] at hv
  | some v' => exact ⟨v', rfl, by simpa [hk'] using hv⟩

theorem length_keys_of_sameDict (h : sameDict eq d d' = true) : d.keys.length = d'.keys.length :=
  of_decide_eq_true (Bool.and_eq_true_iff.mp h).1

theorem lookup_eq_of_sameDict (heq : ∀ v v', eq v v' = true → v = v')
    (h : sameDict eq d d' = true) (k : String) : d.lookup k = d'.lookup k := by
  have hsubset : d.keys ⊆ d'.keys := by
    intro k hk
    obtain ⟨v, hv⟩ := Option.isSome_iff_exists.mp (AList.lookup_isSome.mpr hk)
    obtain ⟨v', hv', -⟩ := exists_of_sameDict h hv
    exact AList.lookup_isSome.mp (by rw [hv']; rfl)
  have hperm : d.keys.Perm d'.keys :=
    (List.subperm_of_subset d.keys_nodup hsubset).perm_of_length_le
      (Nat.le_of_eq (length_keys_of_sameDict h).symm)
  cases hk : d.lookup k with
  | some v =>
    obtain ⟨v', hv', hsame⟩ := exists_of_sameDict h hk
    rw [hv', heq v v' hsame]
  | none =>
    have hnotMem : k ∉ d'.keys := fun hmem => AList.lookup_eq_none.mp hk (hperm.mem_iff.mpr hmem)
    exact (AList.lookup_eq_none.mpr hnotMem).symm

end

/-! ## The tests -/

namespace Value

theorem same_ofTime [DecidableEq T] (t t' : Option T) :
    (ofTime t).same (ofTime t') = decide (t = t') := by
  cases t <;> cases t' <;> simp [ofTime, same]

theorem truthy_ofTime (t : Option T) : (ofTime t).truthy = t.isSome := by
  cases t <;> rfl

theorem truthy_ofFlag (b : Option Bool) : (ofFlag b : Value T).truthy = decide (b = some true) := by
  cases b with
  | none => rfl
  | some b => cases b <;> rfl

end Value

theorem index_of_lookup {d : Dict String (Value T)} {key : String} {v : Value T}
    (h : d.lookup key = some v) : index d key = .ok v := by
  rw [index, h]

variable [DecidableEq T] {readonly : Bool} {m : Metadata T} {old : Option (Metadata T)}

/-- A test whose keys are in both dictionaries. -/
theorem changed_eq {flag last : String} {b : Option Bool} {time : Metadata T → Option T}
    (hflag : (changes m).lookup flag = some (.ofFlag b))
    (htime : ∀ m, (changes m).lookup last = some (.ofTime (time m))) :
    changed readonly (changes m) (remembered old) flag last last =
      .ok (decide (b = some true ∧ (readonly = true →
        time m = none ∨ ∀ before ∈ old, time m ≠ time before))) := by
  have htruthy : (Value.ofFlag b : Value T).truthy = decide (b = some true) :=
    Value.truthy_ofFlag b
  simp only [changed, index_of_lookup hflag, index_of_lookup (htime m), keys_remembered_isEmpty,
    pure, Except.pure, bind, Except.bind, htruthy, Value.truthy_ofTime]
  by_cases hb : b = some true
  · cases readonly with
    | false => simp [hb]
    | true =>
      cases ht : time m with
      | none => simp [hb]
      | some t =>
        cases old with
        | none => simp [hb]
        | some before =>
          have hbefore : index (remembered (some before)) last = .ok (.ofTime (time before)) :=
            index_of_lookup (htime before)
          have hcomm : (some t = time before) = (time before = some t) := propext eq_comm
          simp [hb, hbefore, Value.same_ofTime, hcomm]
  · simp [hb]

/-- The test of the plugins: in a database that is read-only it fails when one has changed. -/
theorem changed_plugins :
    changed readonly (changes m) (remembered old) "plugins_config_changed"
        "last_plugins_config_change" "plugins_config_changed" =
      if m.pluginsConfigChanged.keys ≠ [] ∧ readonly = true then
        .error ⟨"last_plugins_config_change"⟩
      else .ok (decide (m.pluginsConfigChanged.keys ≠ [])) := by
  have hflag : index (changes m) "plugins_config_changed" = .ok (.plugins m.pluginsConfigChanged) :=
    rfl
  have hlast : index (changes m) "last_plugins_config_change" =
      .error ⟨"last_plugins_config_change"⟩ := rfl
  simp only [changed, hflag, hlast, Value.truthy]
  by_cases hkeys : m.pluginsConfigChanged.keys = []
  · simp [hkeys, pure, Except.pure, bind, Except.bind]
  · cases readonly <;> simp [hkeys, pure, Except.pure, bind, Except.bind]

/-! ## The run of the tests -/

omit [DecidableEq T] in
theorem runBlocks_of_ok {l : List (Except KeyError Bool × (Needs → Needs))}
    (hok : ∀ block ∈ l, ∃ b, block.1 = .ok b)
    (hset : ∀ block ∈ l, ∀ n, (block.2 n).needReload = true) (n : Needs) :
    (runBlocks l n).2 = none ∧ ((runBlocks l n).1.needReload = true ↔
      n.needReload = true ∨ ∃ block ∈ l, block.1 = .ok true) := by
  induction l generalizing n with
  | nil => simp [runBlocks]
  | cons block l ih =>
    obtain ⟨test, set⟩ := block
    obtain ⟨b, rfl : test = .ok b⟩ := hok _ List.mem_cons_self
    have hrest := ih (fun block hmem => hok block (List.mem_cons_of_mem _ hmem))
      (fun block hmem => hset block (List.mem_cons_of_mem _ hmem))
    cases b with
    | true =>
      have hreload : (set n).needReload = true := hset _ List.mem_cons_self n
      obtain ⟨hnone, hiff⟩ := hrest (set n)
      simp [runBlocks, hnone, hiff.mpr (.inl hreload)]
    | false => simpa [runBlocks] using hrest n

omit [DecidableEq T] in
theorem runBlocks_of_error {l : List (Except KeyError Bool × (Needs → Needs))}
    (h : ∃ block ∈ l, ∃ e, block.1 = .error e) (n : Needs) : (runBlocks l n).2 ≠ none := by
  induction l generalizing n with
  | nil => simp at h
  | cons block l ih =>
    obtain ⟨test, set⟩ := block
    obtain ⟨block, hmem, e, he⟩ := h
    cases test with
    | error e => simp [runBlocks]
    | ok b =>
      rcases List.mem_cons.mp hmem with rfl | hrest
      · cases he
      · cases b
        · exact ih ⟨block, hrest, e, he⟩ n
        · exact ih ⟨block, hrest, e, he⟩ (set n)

theorem needReload_of_mem_blocks {d d' : Dict String (Value T)}
    {block : Except KeyError Bool × (Needs → Needs)} (h : block ∈ blocks readonly d d')
    (n : Needs) : (block.2 n).needReload = true := by
  simp only [blocks, List.mem_cons, List.not_mem_nil, or_false] at h
  rcases h with rfl | rfl | rfl | rfl | rfl <;> rfl

theorem exists_kind {P : Kind → Prop} :
    (∃ kind, P kind) ↔ P .proPlugins ∨ P .externalPlugins ∨ P .customConfigs ∨ P .pluginsConfig ∨
      P .instances := by
  constructor
  · rintro ⟨kind, h⟩
    cases kind <;> simp [h]
  · rintro (h | h | h | h | h) <;> exact ⟨_, h⟩

/-- What the tests find, unless that of the plugins fails. -/
theorem blocks_spec (old : Option (Metadata T))
    (hplugins : m.pluginsConfigChanged.keys = [] ∨ readonly = false) :
    (∀ block ∈ blocks readonly (changes m) (remembered old), ∃ b, block.1 = .ok b) ∧
      ((∃ block ∈ blocks readonly (changes m) (remembered old), block.1 = .ok true) ↔
        ShouldReload readonly m old) := by
  have hpro := @changed_eq _ _ readonly m old "pro_plugins_changed" "last_pro_plugins_change" _
    Metadata.lastProPluginsChange rfl fun _ => rfl
  have hexternal := @changed_eq _ _ readonly m old "external_plugins_changed"
    "last_external_plugins_change" _ Metadata.lastExternalPluginsChange rfl fun _ => rfl
  have hcustom := @changed_eq _ _ readonly m old "custom_configs_changed"
    "last_custom_configs_change" _ Metadata.lastCustomConfigsChange rfl fun _ => rfl
  have hinstances := @changed_eq _ _ readonly m old "instances_changed" "last_instances_change" _
    Metadata.lastInstancesChange rfl fun _ => rfl
  have hconfig : changed readonly (changes m) (remembered old) "plugins_config_changed"
      "last_plugins_config_change" "plugins_config_changed" =
        .ok (decide (m.pluginsConfigChanged.keys ≠ [])) := by
    rw [changed_plugins, if_neg fun h => hplugins.elim h.1 (by simp [h.2])]
  constructor
  · intro block hblock
    simp only [blocks, List.mem_cons, List.not_mem_nil, or_false] at hblock
    rcases hblock with rfl | rfl | rfl | rfl | rfl
    · exact ⟨_, hpro⟩
    · exact ⟨_, hexternal⟩
    · exact ⟨_, hcustom⟩
    · exact ⟨_, hconfig⟩
    · exact ⟨_, hinstances⟩
  · rw [ShouldReload, exists_kind]
    simp only [blocks, List.mem_cons, List.not_mem_nil, or_false, exists_eq_or_imp, exists_eq_left,
      hpro, hexternal, hcustom, hconfig, hinstances, Except.ok.injEq, decide_eq_true_eq,
      Metadata.IsSet, Metadata.Missing, Metadata.Differs]
    refine or_congr_right (or_congr_right (or_congr_right (or_congr_left ?_)))
    rcases hplugins with hnone | hwritable
    · exact iff_of_false (fun h => h hnone) fun h => h.1 hnone
    · rw [hwritable]
      simp

/-! ## The poll -/

/-- `changes == old_changes`. -/
def Unchanged (m : Metadata T) (old : Option (Metadata T)) : Prop :=
  sameDict Value.same (changes m) (remembered old) = true

/-- Nothing has changed, so no time differs. -/
theorem not_differs_of_unchanged (h : Unchanged m old) :
    ∃ before, old = some before ∧ ∀ kind, ¬ m.Differs before kind := by
  cases old with
  | none =>
    have hlen : (9 : Nat) = 0 := length_keys_of_sameDict h
    cases hlen
  | some before =>
    have htime : ∀ {key : String} {time : Metadata T → Option T},
        (∀ m, (changes m).lookup key = some (.ofTime (time m))) → time m = time before := by
      intro key time hlookup
      obtain ⟨v, hv, hsame⟩ := exists_of_sameDict h (hlookup m)
      obtain rfl := Option.some.inj (hv.symm.trans (hlookup before))
      rw [Value.same_ofTime] at hsame
      exact of_decide_eq_true hsame
    refine ⟨before, rfl, fun kind => ?_⟩
    cases kind with
    | proPlugins => exact not_not.mpr (@htime "last_pro_plugins_change" _ fun _ => rfl)
    | externalPlugins =>
      exact not_not.mpr (@htime "last_external_plugins_change" _ fun _ => rfl)
    | customConfigs =>
      exact not_not.mpr (@htime "last_custom_configs_change" _ fun _ => rfl)
    | pluginsConfig =>
      rintro ⟨plugin, hplugin⟩
      obtain ⟨v, hv, hsame⟩ :=
        exists_of_sameDict h (show (changes m).lookup "plugins_config_changed" = _ from rfl)
      obtain rfl := Option.some.inj (hv.symm.trans
        (show (changes before).lookup "plugins_config_changed" = _ from rfl))
      exact hplugin (lookup_eq_of_sameDict (fun _ _ => of_decide_eq_true) hsame plugin)
    | instances => exact not_not.mpr (@htime "last_instances_change" _ fun _ => rfl)

/-- A poll that goes through the tests. -/
theorem poll_of_tested (h : ¬ (readonly = true ∧ Unchanged m old)) (needs : Needs) :
    (poll readonly (getMetadata m) (remembered old) needs).error =
        (runBlocks (blocks readonly (changes m) (remembered old)) needs).2 ∧
      (poll readonly (getMetadata m) (remembered old) needs).needs =
        (runBlocks (blocks readonly (changes m) (remembered old)) needs).1 := by
  unfold Unchanged at h
  unfold poll
  rw [changesOf_getMetadata]
  dsimp only
  rw [if_neg h]
  split
  next heq =>
    rw [heq]
    exact ⟨rfl, rfl⟩
  next heq =>
    rw [heq]
    exact ⟨rfl, rfl⟩

/-- What a poll remembers is again a copy of metadata, so the next poll finds the same keys. -/
theorem poll_keeps (readonly : Bool) (m : Metadata T) (old : Option (Metadata T)) :
    ∃ old', (poll readonly (getMetadata m) (remembered old) .idle).oldChanges =
      remembered old' := by
  unfold poll
  rw [changesOf_getMetadata]
  dsimp only
  split
  · exact ⟨old, rfl⟩
  · split
    · exact ⟨old, rfl⟩
    · exact ⟨some m, rfl⟩

/-- A poll raises no exception and asks for a reload when it should, exactly in these cases: the
database can be written; it is read-only, nothing has changed since the last poll, and no flag that
is up lacks its time; or something has changed, and no plugin is marked. -/
theorem poll_exact (readonly : Bool) (m : Metadata T) (old : Option (Metadata T)) :
    ((poll readonly (getMetadata m) (remembered old) .idle).error = none ∧
        ((poll readonly (getMetadata m) (remembered old) .idle).needs.needReload = true ↔
          ShouldReload readonly m old)) ↔
      (readonly = true →
        (Unchanged m old → ∀ kind, m.IsSet kind → ¬ m.Missing kind) ∧
          (¬ Unchanged m old → m.pluginsConfigChanged.keys = [])) := by
  have hblocks : ¬ (readonly = true ∧ Unchanged m old) →
      m.pluginsConfigChanged.keys = [] ∨ readonly = false →
      (poll readonly (getMetadata m) (remembered old) .idle).error = none ∧
        ((poll readonly (getMetadata m) (remembered old) .idle).needs.needReload = true ↔
          ShouldReload readonly m old) := by
    intro hguard hplugins
    obtain ⟨hok, hfound⟩ := blocks_spec old hplugins
    obtain ⟨hnone, hiff⟩ := runBlocks_of_ok hok (fun _ => needReload_of_mem_blocks) .idle
    obtain ⟨herror, hneeds⟩ := poll_of_tested hguard .idle
    rw [herror, hneeds, ← hfound]
    exact ⟨hnone, hiff.trans (or_iff_right (by decide))⟩
  cases readonly with
  | false => exact iff_of_true (hblocks (by simp) (.inr rfl)) (by simp)
  | true =>
    by_cases hsame : Unchanged m old
    · obtain ⟨before, rfl, hdiffers⟩ := not_differs_of_unchanged hsame
      have hpoll : poll true (getMetadata m) (remembered (some before)) .idle =
          ⟨.idle, remembered (some before), none⟩ := by
        unfold Unchanged at hsame
        simp [poll, changesOf_getMetadata, hsame]
      have hshould : ShouldReload true m (some before) ↔ ∃ kind, m.IsSet kind ∧ m.Missing kind := by
        simp [ShouldReload, hdiffers]
      rw [hpoll, hshould]
      simp [hsame, Needs.idle]
    · by_cases hplugins : m.pluginsConfigChanged.keys = []
      · exact iff_of_true (hblocks (fun h => hsame h.2) (.inl hplugins))
          fun _ => ⟨fun h => absurd h hsame, fun _ => hplugins⟩
      · refine iff_of_false (fun h => ?_) fun h => hplugins ((h rfl).2 hsame)
        have herror : ∃ block ∈ blocks true (changes m) (remembered old),
            ∃ e, block.1 = .error e := by
          simp only [blocks, List.mem_cons, List.not_mem_nil, or_false, exists_eq_or_imp,
            exists_eq_left]
          exact .inr (.inr (.inr (.inl ⟨_, changed_plugins.trans (if_pos ⟨hplugins, rfl⟩)⟩)))
        obtain ⟨hpoll, -⟩ := @poll_of_tested _ _ true _ _ (fun h => hsame h.2) .idle
        exact runBlocks_of_error herror .idle (hpoll.symm.trans h.1)

/-- In a database that is read-only, a poll fails when the settings of a plugin have changed. -/
theorem poll_raises_on_changed_plugin :
    let m : Metadata Nat := ⟨some false, none, some false, none, some false, none, some false, none,
      Dict.ofItems [("misc", some 0)]⟩
    ¬ ((poll true (getMetadata m) (remembered none) .idle).error = none ∧
        ((poll true (getMetadata m) (remembered none) .idle).needs.needReload = true ↔
          ShouldReload true m none)) := by
  intro m h
  exact absurd h.1 (by decide +kernel)

end BunkerWeb.Scheduler.Polling
