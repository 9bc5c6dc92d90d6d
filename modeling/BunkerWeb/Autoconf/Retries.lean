import BunkerWeb.Autoconf.Apply

/-!
# What `apply` remembers of a save that failed

`apply` takes its copy over before it saves, so a later call with the same inputs finds nothing
changed (`changesOf_again`), whatever the saves reported.

- **Retries** (`neverForgets_iff`): a part that was not saved is saved by the next call only if
  there is no such part.
- **Runs** (`holds_of_run`): where every save succeeds and no read raises, the database has the last
  inputs after each call that returns `True`.
-/

namespace BunkerWeb.Autoconf.Config

open Lib

variable {ι : Type} [BEq ι]

/-! ## Parts that are saved -/

/-- The parts that a call saves, in this state. -/
def partsSaved (st : State ι) (call : Call ι) : List Change :=
  if call.outside.readonly || !call.outside.ready then []
  else match changesOf st.object call with
    | (_, none) => []
    | (_, some changes) => [Change.instances, .config, .customConfigs].filter (· ∈ changes)

/-- The parts whose save reports an error. -/
def partsLost (st : State ι) (call : Call ι) : List Change :=
  (partsSaved st call).filter fun part =>
    saveError call.outside (changesOf st.object call).1 part ≠ none

/-- A later call with the same inputs, in a database that can be written to. -/
def Call.again (call : Call ι) (o : Outside ι) : Call ι where
  toInputs := call.toInputs
  first := false
  force := false
  outside := o

/-- Where a part could not be saved, the same inputs are still found to differ, and a later call
with them saves the part. -/
def NeverForgets (str : ι → String) (st : State ι) (call : Call ι) : Prop :=
  ∀ part ∈ partsLost st call, updateNeeded str (apply st call).2.object call.toInputs = true ∧
    ∀ o : Outside ι, o.readonly = false → o.ready = true →
      part ∈ partsSaved (apply st call).2 (call.again o)

/-! ## Comparisons -/

theorem sameDict_self (d : Dict String String) : sameDict d d = true :=
  decide_eq_true (List.Perm.refl _)

theorem sameServices_self (l : List Service) : sameServices l l = true := by
  induction l with
  | nil => rfl
  | cons service l ih =>
    rw [sameServices, List.isEqv, sameDict_self, Bool.true_and]
    exact ih

theorem sameConfigs_self (c : Configs) : sameConfigs c c = true := by
  rw [sameConfigs, decide_eq_true rfl, Bool.true_and, List.all_eq_true]
  intro e he
  rw [Dict.mem_items.mp he, Option.any_some]
  exact decide_eq_true (List.Perm.refl _)

/-! ## The first half -/

variable {c c' : Object ι} {call : Call ι} {changes : List Change}

/-- What the object does not take over is the same. -/
theorem same_of_not_changed [ReflBEq ι] :
    (call.instances == (takeOver c call).instances) = true ∧
      sameServices call.services (takeOver c call).services = true ∧
      sameConfigs call.configs (takeOver c call).configs = true := by
  refine ⟨?_, ?_, ?_⟩
  · by_cases h : changed c call .instances = true
    · rw [takeOver, if_pos h]
      exact beq_self_eq_true _
    · rw [takeOver, if_neg h]
      simpa [changed] using (Bool.or_eq_false_iff.mp (Bool.eq_false_iff.mpr h)).1
  · by_cases h : changed c call .services = true
    · rw [takeOver, if_pos h]
      exact sameServices_self _
    · rw [takeOver, if_neg h]
      simpa [changed] using (Bool.or_eq_false_iff.mp (Bool.eq_false_iff.mpr h)).1
  · by_cases h : changed c call .customConfigs = true
    · rw [takeOver, if_pos h]
      exact sameConfigs_self _
    · rw [takeOver, if_neg h]
      simpa [changed] using (Bool.or_eq_false_iff.mp (Bool.eq_false_iff.mpr h)).1

theorem changesOf_of_not_changed (h : ∀ change, changed c call change = false)
    (hforce : call.force = false) : changesOf c call = (c, some []) := by
  have hfilter : [Change.instances, .services, .customConfigs, .extraConfig].filter
      (changed c call) = [] := List.filter_eq_nil_iff.mpr fun change _ => by simp [h change]
  have hobject : takeOver c call = c := by simp [takeOver, h]
  rw [changesOf]
  simp [hfilter, hobject, hforce]

/-- The first half of a call that raises nothing. -/
structure Taken (c : Object ι) (call : Call ι) (c' : Object ι) (changes : List Change) : Prop where
  object : ∃ config extraConfig,
    c' = { takeOver c call with config := config, extraConfig := extraConfig }
  extraConfig : sameDict call.extraConfig c'.extraConfig = true
  mem : ∀ change, change ≠ .config → (change ∈ changes ↔ changed c call change = true)
  config : Change.config ∈ changes ∨ c'.config = c.config ∧ call.first = false
  /-- Either the environment is made of what the services are now, or nothing that it depends on
  has changed. -/
  env : (∃ env, getFullEnv call.outside c'.type c'.services = some env ∧
      sameDict c'.config (withExtra env call.extraConfig) = true) ∨
    c'.services = c.services ∧ c'.extraConfig = c.extraConfig ∧ c'.config = c.config ∧
      call.first = false

theorem taken (h : changesOf c call = (c', some changes)) : Taken c call c' changes := by
  rw [changesOf] at h
  dsimp only at h
  have hmem : ∀ change, change ≠ .config → (change ∈
      [Change.instances, .services, .customConfigs, .extraConfig].filter (changed c call) ↔
      changed c call change = true) := by
    intro change hne
    rw [List.mem_filter]
    cases change <;> simp_all
  have hsame : ¬ changed c call .extraConfig = true →
      sameDict call.extraConfig c.extraConfig = true := fun hno => by
    simpa using (Bool.or_eq_false_iff.mp (Bool.eq_false_iff.mpr hno)).1
  split at h
  next hsome =>
    split at h
    next => cases h
    next env henv =>
      obtain ⟨rfl, hchanges⟩ := Prod.mk.inj h
      have hchanges := Option.some.inj hchanges
      refine ⟨⟨_, _, rfl⟩, ?_, fun change hne => ?_, ?_, .inl ⟨env, henv, ?_⟩⟩
      · dsimp only
        split
        next => exact sameDict_self _
        next hno => exact hsame ((hmem _ (by decide)).not.mp hno)
      · rw [← hchanges]
        split
        next => rw [List.mem_append, hmem change hne, List.mem_singleton, or_iff_left hne]
        next => exact hmem change hne
      · rw [← hchanges]
        split
        next => exact .inl (List.mem_append_right _ List.mem_cons_self)
        next hno => exact .inr ⟨rfl, (Bool.or_eq_false_iff.mp (Bool.eq_false_iff.mpr hno)).2⟩
      · dsimp only
        split
        next => exact sameDict_self _
        next hno =>
          have hno := (Bool.or_eq_false_iff.mp (Bool.eq_false_iff.mpr hno)).1
          simpa using hno
  next hnone =>
    obtain ⟨rfl, hchanges⟩ := Prod.mk.inj h
    obtain rfl := Option.some.inj hchanges
    simp only [not_or, hmem _ (show Change.instances ≠ .config by decide),
      hmem _ (show Change.services ≠ .config by decide),
      hmem _ (show Change.extraConfig ≠ .config by decide)] at hnone
    obtain ⟨hinstances, hservices, hextra, -⟩ := hnone
    have hfirst := (Bool.or_eq_false_iff.mp (Bool.eq_false_iff.mpr hinstances)).2
    exact ⟨⟨_, _, rfl⟩, hsame hextra, hmem, .inr ⟨rfl, hfirst⟩,
      .inr ⟨if_neg hservices, rfl, rfl, hfirst⟩⟩

/-! ## Retries -/

/-- A later call with the same inputs finds nothing changed. -/
theorem changesOf_again [ReflBEq ι] (h : changesOf c call = (c', some changes)) (o : Outside ι)
    (signature : Option (List String)) :
    changesOf { c' with appliedSettingsSignature := signature } (call.again o) =
      ({ c' with appliedSettingsSignature := signature }, some []) := by
  obtain ⟨⟨config, extraConfig, rfl⟩, hextra, -⟩ := taken h
  obtain ⟨hinstances, hservices, hconfigs⟩ := @same_of_not_changed _ _ c call _
  refine changesOf_of_not_changed (fun change => ?_) rfl
  cases change with
  | instances => simpa [changed, Call.again] using hinstances
  | services => simpa [changed, Call.again] using hservices
  | customConfigs => simpa [changed, Call.again] using hconfigs
  | extraConfig => simpa [changed, Call.again] using hextra
  | config => rfl

/-- A call that saves something. -/
theorem exists_taken {st : State ι} {part : Change} (h : part ∈ partsSaved st call) :
    call.outside.readonly = false ∧ call.outside.ready = true ∧
      ∃ c' changes, changesOf st.object call = (c', some changes) ∧ part ∈ changes := by
  rw [partsSaved] at h
  split at h
  next => cases h
  next hthrough =>
    obtain ⟨hreadonly, hready⟩ := Bool.or_eq_false_iff.mp (Bool.eq_false_iff.mpr hthrough)
    split at h
    next => cases h
    next c' changes hchanges =>
      exact ⟨hreadonly, by simpa using hready, c', changes, hchanges,
        by simpa using (List.mem_filter.mp h).2⟩

/-- The state after a call that gets to its saves. -/
theorem apply_of_taken {st : State ι} (hreadonly : call.outside.readonly = false)
    (hready : call.outside.ready = true) (h : changesOf st.object call = (c', some changes)) :
    ∃ success signature, apply st call = (.returned success,
      ⟨{ c' with appliedSettingsSignature := signature },
        saveAll call.outside c' changes st.db⟩) := by
  have hthrough : ¬ (!call.outside.ready) = true := by simp [hready]
  rw [apply, if_neg (by simp [hreadonly]), if_neg hthrough, h]
  dsimp only
  split
  next => exact ⟨_, _, rfl⟩
  next => exact ⟨_, c'.appliedSettingsSignature, rfl⟩

/-- **Which failed saves are made again.** For every state and every call. -/
theorem neverForgets_iff [ReflBEq ι] (str : ι → String) (st : State ι) (call : Call ι) :
    NeverForgets str st call ↔ partsLost st call = [] := by
  constructor
  · intro h
    by_contra hne
    obtain ⟨part, hpart⟩ := List.exists_mem_of_ne_nil _ hne
    obtain ⟨hreadonly, hready, c', changes, htaken, -⟩ :=
      exists_taken (List.mem_of_mem_filter hpart)
    obtain ⟨success, signature, happly⟩ := apply_of_taken hreadonly hready htaken
    have hagain := (h part hpart).2 call.outside hreadonly hready
    rw [happly] at hagain
    obtain ⟨-, -, c'', changes', htaken', hmem⟩ := exists_taken hagain
    rw [changesOf_again htaken] at htaken'
    obtain ⟨-, hnil⟩ := Prod.mk.inj htaken'
    rw [← Option.some.inj hnil] at hmem
    cases hmem
  · intro h part hpart
    rw [h] at hpart
    cases hpart

/-! ## Runs -/

/-- The object and the database after a call. -/
def step (st : State ι) (call : Call ι) : State ι := (apply st call).2

/-- No save of the call reports an error, and no read of the database raises. -/
structure Clean (st : State ι) (call : Call ι) : Prop where
  saves : partsLost st call = []
  reads : (changesOf st.object call).2 ≠ none

/-- The database has these inputs: the instances, the custom configs, and the environment that the
services give. -/
structure Holds (db : Saved ι) (type : ControllerType) (i : Inputs ι) : Prop where
  instances : ∃ l, db.instances = some l ∧ (i.instances == l) = true
  config : ∃ (o : Outside ι) (services : _) (env extra d : _), sameServices i.services services = true ∧
    getFullEnv o type services = some env ∧ sameDict i.extraConfig extra = true ∧
    db.config = some d ∧ sameDict d (withExtra env extra) = true
  customConfigs : ∃ configs, sameConfigs i.configs configs = true ∧
    db.customConfigs = some (customConfigsOf configs)

/-- The database has what the object remembers. -/
structure Synced (st : State ι) : Prop where
  instances : st.db.instances = some st.object.instances
  config : st.db.config = some st.object.config
  customConfigs : st.db.customConfigs = some (customConfigsOf st.object.configs)
  env : ∃ (o : Outside ι) (env extra : _), getFullEnv o st.object.type st.object.services = some env ∧
    sameDict st.object.extraConfig extra = true ∧
    sameDict st.object.config (withExtra env extra) = true

theorem sameDict_symm {d d' : Dict String String} (h : sameDict d d' = true) :
    sameDict d' d = true := decide_eq_true (of_decide_eq_true h).symm

theorem sameDict_trans {d d' d'' : Dict String String} (h : sameDict d d' = true)
    (h' : sameDict d' d'' = true) : sameDict d d'' = true :=
  decide_eq_true ((of_decide_eq_true h).trans (of_decide_eq_true h'))

/-- A save that is made and reports nothing. -/
theorem saveError_eq_none {st : State ι} (hclean : partsLost st call = [])
    (hreadonly : call.outside.readonly = false) (hready : call.outside.ready = true)
    (h : changesOf st.object call = (c', some changes)) {part : Change}
    (hpart : part ∈ [Change.instances, .config, .customConfigs]) (hmem : part ∈ changes) :
    saveError call.outside c' part = none := by
  have hsaved : part ∈ partsSaved st call := by
    rw [partsSaved, hreadonly, hready, h]
    exact List.mem_filter.mpr ⟨hpart, decide_eq_true hmem⟩
  have hlost := List.filter_eq_nil_iff.mp hclean part hsaved
  rw [h] at hlost
  simpa using hlost

/-- A clean call that gets to its saves leaves the database as the object, if it was so before or
the call is the first one. -/
theorem synced_step {st : State ι} (hclean : Clean st call)
    (hreadonly : call.outside.readonly = false) (hready : call.outside.ready = true)
    (hbefore : Synced st ∨ call.first = true) : Synced (step st call) := by
  rcases htaken : changesOf st.object call with ⟨c', _ | changes⟩
  · exact absurd (by rw [htaken]) hclean.reads
  obtain ⟨success, signature, happly⟩ := apply_of_taken hreadonly hready htaken
  obtain ⟨⟨config, extraConfig, hobject⟩, hextra, hmem, hconfig, henv⟩ := taken htaken
  have hsave := @saveError_eq_none _ _ c' call changes st hclean.saves hreadonly hready htaken
  have hfirst : ∀ change, change ≠ .config → call.first = true → change ∈ changes := by
    intro change hne hfirst
    rw [hmem change hne]
    cases change <;> simp_all [changed]
  have hinstances : (saveAll call.outside c' changes st.db).instances = some c'.instances := by
    dsimp only [saveAll]
    by_cases hin : Change.instances ∈ changes
    · rw [if_pos ⟨hin, hsave (by simp) hin⟩]
    · have hno : ¬ changed st.object call .instances = true := (hmem _ (by decide)).not.mp hin
      have hold := (hbefore.resolve_right fun hf => hin (hfirst _ (by decide) hf)).instances
      rw [if_neg fun h => hin h.1, hold, hobject]
      exact congrArg some (if_neg hno).symm
  have hcustom : (saveAll call.outside c' changes st.db).customConfigs =
      some (customConfigsOf c'.configs) := by
    dsimp only [saveAll]
    by_cases hin : Change.customConfigs ∈ changes
    · rw [if_pos ⟨hin, hsave (by simp) hin⟩]
    · have hno : ¬ changed st.object call .customConfigs = true := (hmem _ (by decide)).not.mp hin
      have hold := (hbefore.resolve_right fun hf => hin (hfirst _ (by decide) hf)).customConfigs
      have hconfigs : c'.configs = st.object.configs := by rw [hobject]; exact if_neg hno
      rw [if_neg fun h => hin h.1, hold, hconfigs]
  have hsaved : (saveAll call.outside c' changes st.db).config = some c'.config := by
    dsimp only [saveAll]
    by_cases hin : Change.config ∈ changes
    · rw [if_pos ⟨hin, hsave (by simp) hin⟩]
    · obtain ⟨hsame, hno⟩ := hconfig.resolve_left hin
      have hold := (hbefore.resolve_right fun hf => by rw [hno] at hf; cases hf).config
      rw [if_neg fun h => hin h.1, hold, hsame]
  have htype : c'.type = st.object.type := by rw [hobject]; rfl
  rw [step, happly]
  refine ⟨hinstances, hsaved, hcustom, ?_⟩
  rcases henv with ⟨env, henv, hsame⟩ | ⟨hservices, hextra', hsame, hno⟩
  · exact ⟨call.outside, env, call.extraConfig, henv, sameDict_symm hextra, hsame⟩
  · obtain ⟨o, env, extra, henv, hold⟩ :=
      (hbefore.resolve_right fun hf => by rw [hno] at hf; cases hf).env
    refine ⟨o, env, extra, ?_⟩
    dsimp only
    rw [htype, hservices, hextra', hsame]
    exact ⟨henv, hold⟩

/-- A call that does not get to its saves changes nothing. -/
theorem step_of_not_through {st : State ι}
    (h : ¬ (call.outside.readonly = false ∧ call.outside.ready = true)) : step st call = st := by
  rw [step, apply]
  by_cases hreadonly : call.outside.readonly = true
  · rw [if_pos hreadonly]
  · have hready : (!call.outside.ready) = true := by
      by_contra hready
      exact h ⟨by simpa using hreadonly, by simpa using hready⟩
    rw [if_neg hreadonly, if_pos hready]

theorem synced_of_clean {st : State ι} (hst : Synced st) (hclean : Clean st call) :
    Synced (step st call) := by
  by_cases h : call.outside.readonly = false ∧ call.outside.ready = true
  · exact synced_step hclean h.1 h.2 (.inl hst)
  · rw [step_of_not_through h]
    exact hst

/-- A call that returns `True` got to its saves. -/
theorem through_of_true {st : State ι} (h : (apply st call).1 = .returned true) :
    call.outside.readonly = false ∧ call.outside.ready = true ∧
      ∃ c' changes, changesOf st.object call = (c', some changes) := by
  rw [apply] at h
  split at h
  next => cases h
  next hreadonly =>
    split at h
    next => cases h
    next hready =>
      refine ⟨by simpa using hreadonly, by simpa using hready, ?_⟩
      split at h
      next => cases h
      next c' changes htaken => exact ⟨c', changes, htaken⟩

/-- The database that has what the object remembers has the inputs of a call that returned. -/
theorem holds_of_synced [ReflBEq ι] {st : State ι} (htrue : (apply st call).1 = .returned true)
    (hsynced : Synced (step st call)) :
    Holds (step st call).db st.object.type call.toInputs := by
  obtain ⟨hreadonly, hready, c', changes, htaken⟩ := through_of_true htrue
  obtain ⟨success, signature, happly⟩ := apply_of_taken hreadonly hready htaken
  obtain ⟨⟨config, extraConfig, hobject⟩, hextra, -⟩ := taken htaken
  obtain ⟨hinstances, hservices, hconfigs⟩ := @same_of_not_changed _ _ st.object call _
  have hobj : (step st call).object = { c' with appliedSettingsSignature := signature } := by
    rw [step, happly]
  have htype : c'.type = st.object.type := by rw [hobject]; rfl
  obtain ⟨o, env, extra, henv, hsameExtra, hsame⟩ := hsynced.env
  rw [hobj] at henv hsameExtra hsame
  refine ⟨⟨_, hsynced.instances, ?_⟩, ⟨o, _, env, extra, _, ?_, htype ▸ henv,
    sameDict_trans hextra hsameExtra, hsynced.config, ?_⟩, ⟨_, ?_, hsynced.customConfigs⟩⟩
  · rw [hobj, hobject]
    exact hinstances
  · rw [hobject]
    exact hservices
  · rw [hobj]
    exact hsame
  · rw [hobj, hobject]
    exact hconfigs

/-- Runs that begin with a first call: where all calls are clean, the database has the last inputs
after each call that returns `True`. -/
theorem holds_of_run [ReflBEq ι] {st : State ι} {first : Call ι} {calls : List (Call ι)}
    (hfirst : first.first = true) (hinit : (apply st first).1 = .returned true)
    (hclean : Run.Meets step Clean st (first :: (calls ++ [call])))
    (htrue : (apply (Run.run step st (first :: calls)) call).1 = .returned true) :
    Holds (step (Run.run step st (first :: calls)) call).db
      (Run.run step st (first :: calls)).object.type call.toInputs := by
  obtain ⟨hclean₁, hrest⟩ := Run.meets_cons.mp hclean
  obtain ⟨hreadonly, hready, -⟩ := through_of_true hinit
  have hstart : Synced (step st first) := synced_step hclean₁ hreadonly hready (.inr hfirst)
  obtain ⟨hcalls, hlast⟩ := Run.meets_append.mp hrest
  have hbefore : Synced (Run.run step (step st first) calls) :=
    Run.invariant (fun _ _ hst hc => synced_of_clean hst hc) hstart hcalls
  exact holds_of_synced htrue (synced_of_clean hbefore hlast.1)

/-- A database that takes every setting and answers the saves with these errors. -/
def outside (instances config customConfigs : Option String) : Outside String where
  readonly := false
  ready := true
  services := some []
  isValidSetting := fun _ _ _ _ => some true
  updateInstances := fun _ => instances
  saveConfig := fun _ => config
  saveCustomConfigs := fun _ => customConfigs

/-- A new object, and a database that has nothing of it. -/
def fresh : State String where
  object := ⟨.docker, [], [], [], ∅, ∅, ∅, none⟩
  db := ⟨none, none, none⟩

/-- The first call for one service. -/
def firstCall (o : Outside String) : Call String where
  instances := ["bunkerweb"]
  services := [Dict.ofItems [("SERVER_NAME", "www.example.com"), ("USE_GZIP", "yes")]]
  configs := ∅
  extraConfig := ∅
  first := true
  force := false
  outside := o

end BunkerWeb.Autoconf.Config
