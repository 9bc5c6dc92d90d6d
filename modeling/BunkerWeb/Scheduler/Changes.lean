import BunkerWeb.Lib.Mirror
import BunkerWeb.Lib.Run

/-!
# The changes that the scheduler applies (`main.py`)

Whoever saves something raises a flag with it. The main loop of the scheduler polls the flags; when
one is up it goes through a pass: the custom configurations are read and written out, the jobs run,
the generator reads the settings, the instances are reloaded, and `checked_changes` lowers the
flags.

- **The system** (`step`): the writers commit at any time between two steps of the loop.
- **The mirrors** (`configMirror`, `customConfigsMirror`): the loop keeps a copy of the settings and
  one of the custom configurations; what each step does to them (`configMirror_step`).
- **The result** (`no_change_lost`): nothing is lost in a run in which `checked_changes` never
  lowers a flag that has been raised since the copy was read.
-/

namespace BunkerWeb.Scheduler.Changes

open Lib

/-- What `checked_changes` is called with. -/
inductive Change where
  | config
  | customConfigs
  | externalPlugins
  | proPlugins
  | instances
  | uiPlugins
  deriving DecidableEq, Repr

/-- What is stored: the settings, the custom configurations, the plugins whose `config_changed` is
set, and the flags of the row of `bw_metadata`. -/
structure Db (C K : Type*) where
  config : C
  customConfigs : K
  pluginsChanged : List String
  customConfigsChanged : Bool
  externalPluginsChanged : Bool
  proPluginsChanged : Bool
  instancesChanged : Bool
  reloadUiPlugins : Bool
  firstConfigSaved : Bool

variable {C K : Type*}

/-- `changes or ["config", …]`. -/
def effective (changes : List Change) : List Change :=
  if changes.isEmpty then
    [.config, .customConfigs, .externalPlugins, .proPlugins, .instances, .uiPlugins]
  else changes

/-- `checked_changes(changes, plugins_changes="all")`. -/
def checkedChanges (changes : List Change) (db : Db C K) : Db C K :=
  let changes := effective changes
  { db with
    firstConfigSaved := db.firstConfigSaved || changes.contains .config
    customConfigsChanged := db.customConfigsChanged && !changes.contains .customConfigs
    externalPluginsChanged := db.externalPluginsChanged && !changes.contains .externalPlugins
    proPluginsChanged := db.proPluginsChanged && !changes.contains .proPlugins
    instancesChanged := db.instancesChanged && !changes.contains .instances
    reloadUiPlugins := db.reloadUiPlugins && !changes.contains .uiPlugins
    pluginsChanged := [] }

/-- A commit of a writer. -/
inductive Write (C K : Type*) where
  /-- `save_config`, which has changed settings of at least one plugin, and with the templates of a
  service perhaps the custom configurations that come from them. -/
  | saveConfig (config : C) (plugin : String) (plugins : List String) (fromTemplates : Option K)
  /-- `save_custom_configs`. -/
  | saveCustomConfigs (customConfigs : K)
  /-- `checked_changes` with `value=True`, or what raises the flag of plugins or instances. -/
  | flag (changes : List Change) (plugins : List String)

def Write.commit (db : Db C K) : Write C K → Db C K
  | .saveConfig config plugin plugins fromTemplates =>
    { db with
      config
      customConfigs := fromTemplates.getD db.customConfigs
      customConfigsChanged := db.customConfigsChanged || fromTemplates.isSome
      pluginsChanged := db.pluginsChanged ++ plugin :: plugins
      firstConfigSaved := true }
  | .saveCustomConfigs customConfigs => { db with customConfigs, customConfigsChanged := true }
  | .flag changes plugins =>
    { db with
      pluginsChanged := db.pluginsChanged ++ plugins
      customConfigsChanged := db.customConfigsChanged || changes.contains .customConfigs
      externalPluginsChanged := db.externalPluginsChanged || changes.contains .externalPlugins
      proPluginsChanged := db.proPluginsChanged || changes.contains .proPlugins
      instancesChanged := db.instancesChanged || changes.contains .instances
      reloadUiPlugins := db.reloadUiPlugins || changes.contains .uiPlugins
      firstConfigSaved := db.firstConfigSaved || changes.contains .config }

/-- A flag that the poll looks at is up. -/
def Db.flagged (db : Db C K) : Bool :=
  !db.pluginsChanged.isEmpty || db.customConfigsChanged || db.externalPluginsChanged ||
    db.proPluginsChanged || db.instancesChanged

/-- `CHANGES` of the pass that the poll starts. -/
def changesOf (db : Db C K) : List Change :=
  (if db.instancesChanged then [.instances] else []) ++
    (if db.customConfigsChanged || db.instancesChanged then [.customConfigs] else []) ++
    (if db.externalPluginsChanged || db.instancesChanged then [.externalPlugins] else []) ++
    (if db.proPluginsChanged || db.instancesChanged then [.proPlugins] else []) ++
    if db.flagged then [.config] else []

/-- A pass of the main loop; the first one has no `CHANGES`. -/
structure Pass where
  firstStart : Bool
  changes : List Change
  deriving DecidableEq, Repr

/-- Where the scheduler is. -/
inductive Phase where
  /-- Before the custom configurations are written out for the first time. -/
  | starting
  /-- In the polling loop. -/
  | polling
  /-- At `if NEED_RELOAD`. -/
  | regenerate (p : Pass)
  /-- At the top of the main loop. -/
  | top (p : Pass)
  | jobs (p : Pass)
  /-- Before the generator reads the settings. -/
  | generate (p : Pass)
  | reload (p : Pass)
  /-- Before `checked_changes`. -/
  | check (p : Pass)
  deriving DecidableEq, Repr

/-- The store, the scheduler with what it has last read for generation, and whether something has
been saved since. -/
structure State (C K : Type*) where
  db : Db C K
  phase : Phase
  config : C
  customConfigs : K
  configDirty : Bool
  customConfigsDirty : Bool

inductive Event (C K : Type*) where
  | write (w : Write C K)
  /-- The next step of the scheduler: whether it knows an instance, and whether `checked_changes`
  goes through. -/
  | scheduler (apis committed : Bool)

/-- The generator reads the settings. -/
def State.readConfig (s : State C K) : State C K :=
  { s with config := s.db.config, configDirty := false }

/-- `generate_custom_configs(SCHEDULER.db.get_custom_configs())`. -/
def State.readCustomConfigs (s : State C K) : State C K :=
  { s with customConfigs := s.db.customConfigs, customConfigsDirty := false }

def advance (apis committed : Bool) (s : State C K) : State C K :=
  match s.phase with
  | .starting => { s.readCustomConfigs with phase := .top ⟨true, []⟩ }
  | .polling =>
    if s.db.flagged then { s with phase := .regenerate ⟨false, changesOf s.db⟩ } else s
  | .regenerate p =>
    let s := if p.changes.contains .customConfigs then s.readCustomConfigs else s
    { s with phase := .top p }
  | .top p =>
    -- On the first start the instances get a configuration before the jobs run.
    let s := if p.firstStart && apis then s.readConfig else s
    { s with phase := .jobs p }
  | .jobs p => { s with phase := .generate p }
  | .generate p => { s.readConfig with phase := .reload p }
  | .reload p => { s with phase := .check p }
  | .check p =>
    { s with
      db := if committed then checkedChanges p.changes s.db else s.db
      phase := .polling }

def step (s : State C K) : Event C K → State C K
  | .write w =>
    { s with
      db := w.commit s.db
      configDirty := s.configDirty || match w with | .saveConfig .. => true | _ => false
      customConfigsDirty := s.customConfigsDirty ||
        match w with
        | .saveConfig _ _ _ fromTemplates => fromTemplates.isSome
        | .saveCustomConfigs _ => true
        | _ => false }
  | .scheduler apis committed => advance apis committed s

/-! ## The mirrors -/

def State.configMirror (s : State C K) : Mirror C where
  stored := s.db.config
  copy := s.config
  flag := !s.db.pluginsChanged.isEmpty
  dirty := s.configDirty

def State.customConfigsMirror (s : State C K) : Mirror K where
  stored := s.db.customConfigs
  copy := s.customConfigs
  flag := s.db.customConfigsChanged
  dirty := s.customConfigsDirty

/-- What an event is to the settings. -/
def configOp (s : State C K) : Event C K → Mirror.Op C
  | .write (.saveConfig config _ _ _) => .store config
  | .write (.saveCustomConfigs _) => .none
  | .write (.flag _ plugins) => if plugins.isEmpty then .none else .raise
  | .scheduler apis committed =>
    match s.phase with
    | .top p => if p.firstStart && apis then .read else .none
    | .generate _ => .read
    | .check _ => if committed then .lower else .none
    | _ => .none

/-- What an event is to the custom configurations. -/
def customConfigsOp (s : State C K) : Event C K → Mirror.Op K
  | .write (.saveConfig _ _ _ fromTemplates) => fromTemplates.elim .none .store
  | .write (.saveCustomConfigs customConfigs) => .store customConfigs
  | .write (.flag changes _) => if changes.contains .customConfigs then .raise else .none
  | .scheduler _ committed =>
    match s.phase with
    | .starting => .read
    | .regenerate p => if p.changes.contains .customConfigs then .read else .none
    | .check p =>
      if committed && (effective p.changes).contains .customConfigs then .lower else .none
    | _ => .none

theorem configMirror_step (s : State C K) (e : Event C K) :
    (step s e).configMirror = s.configMirror.apply (configOp s e) := by
  cases e with
  | write w =>
    cases w with
    | saveConfig => simp [step, State.configMirror, configOp, Write.commit, Mirror.apply]
    | saveCustomConfigs => simp [step, State.configMirror, configOp, Write.commit, Mirror.apply]
    | flag changes plugins =>
      cases plugins <;>
        simp [step, State.configMirror, configOp, Write.commit, Mirror.apply]
  | scheduler apis committed =>
    cases hp : s.phase with
    | polling =>
      simp only [step, advance, hp, configOp]
      split <;> rfl
    | regenerate p =>
      simp only [step, advance, hp, configOp, Mirror.apply]
      split <;> rfl
    | top p =>
      simp only [step, advance, hp, configOp]
      split <;> rfl
    | check p => cases committed <;> simp [step, advance, hp, configOp, Mirror.apply,
        State.configMirror, checkedChanges]
    | _ =>
      simp only [step, advance, hp, configOp]
      rfl

theorem customConfigsMirror_step (s : State C K) (e : Event C K) :
    (step s e).customConfigsMirror = s.customConfigsMirror.apply (customConfigsOp s e) := by
  cases e with
  | write w =>
    cases w with
    | saveConfig config plugin plugins fromTemplates =>
      cases fromTemplates <;>
        simp [step, State.customConfigsMirror, customConfigsOp, Write.commit, Mirror.apply]
    | saveCustomConfigs =>
      simp [step, State.customConfigsMirror, customConfigsOp, Write.commit, Mirror.apply]
    | flag changes plugins =>
      simp only [step, State.customConfigsMirror, customConfigsOp, Write.commit]
      cases changes.contains .customConfigs <;> simp [Mirror.apply]
  | scheduler apis committed =>
    cases hp : s.phase with
    | polling =>
      simp only [step, advance, hp, customConfigsOp]
      split <;> rfl
    | regenerate p =>
      simp only [step, advance, hp, customConfigsOp]
      split <;> rfl
    | top p =>
      simp only [step, advance, hp, customConfigsOp, Mirror.apply]
      split <;> rfl
    | check p =>
      cases committed with
      | false =>
        simp only [step, advance, hp, customConfigsOp]
        rfl
      | true =>
        simp only [step, advance, hp, customConfigsOp, State.customConfigsMirror, if_true,
          checkedChanges, Bool.true_and]
        cases (effective p.changes).contains .customConfigs <;> simp [Mirror.apply]
    | _ =>
      simp only [step, advance, hp, customConfigsOp]
      rfl

/-! ## Runs -/

/-- Lowering the flags at the end of a pass loses nothing. -/
def Phase.Lowers (configDirty customConfigsDirty : Bool) : Phase → Prop
  | .check p => configDirty = false ∧
      ((effective p.changes).contains .customConfigs = true → customConfigsDirty = false)
  | _ => True

/-- A `checked_changes` that goes through does not lower a flag that may have been raised since the
settings or the custom configurations were read. -/
def Timely (s : State C K) : Event C K → Prop
  | .scheduler _ true => s.phase.Lowers s.configDirty s.customConfigsDirty
  | _ => True

instance (a b : Bool) : (p : Phase) → Decidable (p.Lowers a b)
  | .check _ => inferInstanceAs (Decidable (_ ∧ (_ → _)))
  | .starting | .polling | .regenerate _ | .top _ | .jobs _ | .generate _ | .reload _ =>
    .isTrue trivial

instance (s : State C K) : (e : Event C K) → Decidable (Timely s e)
  | .scheduler _ true => inferInstanceAs (Decidable (s.phase.Lowers _ _))
  | .scheduler _ false | .write _ => .isTrue trivial

/-- The generator has not read the settings yet. -/
def Phase.Unread : Phase → Prop
  | .starting => True
  | .top p => p.firstStart = true
  | .jobs p => p.firstStart = true
  | .generate p => p.firstStart = true
  | _ => False

/-- Both copies are clean once they have been read. -/
structure Inv (s : State C K) : Prop where
  config : s.phase.Unread ∨ s.configMirror.Clean
  customConfigs : s.phase = .starting ∨ s.customConfigsMirror.Clean

variable {s : State C K} {e : Event C K}

theorem configDirty_of_lower (h : Timely s e) (hop : configOp s e = .lower) :
    s.configDirty = false := by
  cases e with
  | write w =>
    cases w with
    | flag changes plugins =>
      simp only [configOp] at hop
      split at hop <;> cases hop
    | _ => cases hop
  | scheduler apis committed =>
    cases hp : s.phase with
    | check p =>
      cases committed with
      | true =>
        rw [Timely, hp] at h
        exact h.1
      | false => simp [configOp, hp] at hop
    | top p =>
      simp only [configOp, hp] at hop
      split at hop <;> cases hop
    | _ => simp [configOp, hp] at hop

theorem customConfigsDirty_of_lower (h : Timely s e) (hop : customConfigsOp s e = .lower) :
    s.customConfigsDirty = false := by
  cases e with
  | write w =>
    cases w with
    | saveConfig config plugin plugins fromTemplates => cases fromTemplates <;> cases hop
    | saveCustomConfigs => cases hop
    | flag changes plugins =>
      simp only [customConfigsOp] at hop
      split at hop <;> cases hop
  | scheduler apis committed =>
    cases hp : s.phase with
    | check p =>
      simp only [customConfigsOp, hp] at hop
      split at hop
      next hc =>
        rw [Bool.and_eq_true] at hc
        cases committed with
        | true =>
          rw [Timely, hp] at h
          exact h.2 hc.2
        | false => cases hc.1
      next => cases hop
    | regenerate p =>
      simp only [customConfigsOp, hp] at hop
      split at hop <;> cases hop
    | _ => simp [customConfigsOp, hp] at hop

theorem inv_step (s : State C K) (e : Event C K) (hi : Inv s) (h : Timely s e) :
    Inv (step s e) := by
  constructor
  · rw [configMirror_step]
    rcases hi.config with hun | hclean
    · cases e with
      | write w => exact .inl hun
      | scheduler apis committed =>
        cases hphase : s.phase with
        | generate p => exact .inr (by rw [configOp, hphase]; exact Mirror.clean_read _)
        | starting => exact .inl (by simp [step, advance, hphase, Phase.Unread])
        | top p =>
          rw [hphase] at hun
          exact .inl (by simpa [step, advance, hphase, Phase.Unread] using hun)
        | jobs p =>
          rw [hphase] at hun
          exact .inl (by simpa [step, advance, hphase, Phase.Unread] using hun)
        | _ => rw [hphase] at hun; exact hun.elim
    · exact .inr (hclean.apply (configDirty_of_lower h))
  · rw [customConfigsMirror_step]
    rcases hi.customConfigs with hst | hclean
    · cases e with
      | write w => exact .inl hst
      | scheduler apis committed =>
        exact .inr (by rw [customConfigsOp, hst]; exact Mirror.clean_read _)
    · exact .inr (hclean.apply (customConfigsDirty_of_lower h))

theorem Inv.of_starting (h : s.phase = .starting) : Inv s :=
  ⟨.inl (by rw [h]; trivial), .inl h⟩

/-- In every run from a start of the scheduler in which `checked_changes` is timely, whenever the
scheduler polls some flag is up, or what is stored is what it has last read for generation. -/
theorem no_change_lost {events : List (Event C K)} (hs : s.phase = .starting)
    (hm : Run.Meets step Timely s events) (hp : (Run.run step s events).phase = .polling) :
    (Run.run step s events).db.flagged = true ∨
      (Run.run step s events).db.config = (Run.run step s events).config ∧
        (Run.run step s events).db.customConfigs = (Run.run step s events).customConfigs := by
  have hinv := Run.invariant inv_step (Inv.of_starting hs) hm
  have hconfig := (hinv.config.resolve_left (by rw [hp]; exact id)).synced
  have hcustom := (hinv.customConfigs.resolve_left (by rw [hp]; nofun)).synced
  rcases hconfig with hflag | hconfig
  · exact .inl (by simp_all [State.configMirror, Db.flagged])
  rcases hcustom with hflag | hcustom
  · exact .inl (by simp_all [State.customConfigsMirror, Db.flagged])
  · exact .inr ⟨hconfig, hcustom⟩

/-! A scheduler that starts on an empty store and has been through its first pass. -/

def fresh : State Nat Nat where
  db := ⟨0, 0, [], false, false, false, false, false, false⟩
  phase := .starting
  config := 0
  customConfigs := 0
  configDirty := false
  customConfigsDirty := false

def moves (n : Nat) : List (Event Nat Nat) := List.replicate n (.scheduler true true)

def firstPass : List (Event Nat Nat) := moves 6

def save (config : Nat) : Event Nat Nat := .write (.saveConfig config "reverseproxy" [] none)

def saveCustom (customConfigs : Nat) : Event Nat Nat := .write (.saveCustomConfigs customConfigs)

/-- Settings that are saved before the generator reads them. -/
theorem no_change_lost_in_time :
    let s := Run.run step fresh (firstPass ++ [save 1] ++ moves 4 ++ [save 2] ++ moves 3)
    s.db.flagged = true ∨ s.db.config = s.config ∧ s.db.customConfigs = s.customConfigs :=
  no_change_lost rfl (by decide) rfl

/-- Settings that are saved after the generator has read them, and custom configurations that are
saved after they have been written out. -/
theorem saved_while_reloading :
    let s := Run.run step fresh (firstPass ++ [save 1] ++ moves 5 ++ [save 2] ++ moves 2)
    let s' := Run.run step fresh
      (firstPass ++ [saveCustom 1] ++ moves 2 ++ [saveCustom 2] ++ moves 5)
    (s.phase = .polling ∧ s.db.flagged = false ∧ s.db.config = 2 ∧ s.config = 1) ∧
      s'.phase = .polling ∧ s'.db.flagged = false ∧ s'.db.customConfigs = 2 ∧
        s'.customConfigs = 1 := by
  decide

end BunkerWeb.Scheduler.Changes
