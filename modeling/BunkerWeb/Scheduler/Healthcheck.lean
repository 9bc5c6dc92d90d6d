import BunkerWeb.Lib.Roster
import BunkerWeb.Lib.Run

/-!
# The health checks of the scheduler (`main.py`, `healthcheck_job`)

Every few seconds the scheduler asks each instance of the database for its health. An event says
that a check is running; the list of the instances that can be reached, to which the configuration
is sent, is kept up to date on the way.

- **The job** (`healthcheckJob`): the event is set before two of the exits. One instance
  (`checkInstance`) has six outcomes, and two of them leave by `continue` before the list is
  touched.
- **What it is for** (`Healthy`): the event is clear again, and nothing that was stored as down or
  loading is in the list.
- **The result** (`healthy_iff`, `sequence_healthy_iff`): a check that starts while a configuration
  is applied leaves the event set, and no check runs after it. An instance whose reload was refused
  stays in the list.
-/

namespace BunkerWeb.Scheduler.Healthcheck

open Lib

variable {E : Type} [DecidableEq E]

/-! ## What happens to one instance -/

/-- What `update_instance` does: it stores the status, it returns an error, or it raises. -/
inductive Update
  | stored
  | refused
  | raised
  deriving DecidableEq, Repr

/-- The body of an answer: the texts under its keys. An answer that is not an object has none. -/
structure Answer where
  status : Option String
  msg : Option String
  deriving DecidableEq, Repr

inductive Response
  | raised
  | unsent
  | answered (status : Nat) (resp : Answer)
  deriving DecidableEq, Repr

inductive Reload
  | raised
  | refused
  | accepted
  deriving DecidableEq, Repr

/-- An instance of the database, and what each call made for it does. -/
structure Visit (E : Type) where
  hostname : String
  /-- The endpoint that `API.from_instance` builds; none when it raises. -/
  endpoint : Option E
  status : String
  request : Response
  updateDown : Update
  /-- Whether `get_config` returns. -/
  getConfig : Bool
  /-- Whether `generate_configs` returns. -/
  generate : Bool
  /-- Whether every transfer returns. -/
  transfers : Bool
  reload : Reload
  updateLoading : Update
  updateUp : Update

/-- A status written to the database. -/
structure Saved (E : Type) where
  hostname : String
  endpoint : E
  status : String
  deriving DecidableEq, Repr

/-- What the loop changes: the reachable instances by their endpoints, whether `env` has been read,
and the statuses it has stored. -/
structure Pass (E : Type) where
  apis : List E
  env : Bool
  saved : List (Saved E)
  deriving DecidableEq, Repr

/-- `SCHEDULER.db.update_instance`. An exception keeps what has been done. -/
def updateInstance (p : Pass E) (v : Visit E) (e : E) (status : String) :
    Update → Except (Pass E) (Pass E)
  | .stored => .ok { p with saved := p.saved ++ [⟨v.hostname, e, status⟩] }
  | .refused => .ok p
  | .raised => .error p

/-- The test of the answer. A text that is missing in the warning is a `KeyError`. -/
def success (v : Visit E) : Option Bool :=
  match v.request with
  | .raised => some false
  | .unsent => some false
  | .answered status resp =>
    if status ≠ 200 then
      if resp.status.isSome && resp.msg.isSome then some false else none
    else some true

/-- `resp["msg"]`. -/
def message (v : Visit E) : Option String :=
  match v.request with
  | .answered _ resp => resp.msg
  | _ => none

/-- The configuration is read once, generated and sent. -/
def sendConfig (p : Pass E) (v : Visit E) : Except (Pass E) (Pass E) :=
  if !p.env && !v.getConfig then .error p
  else
    let p := { p with env := true }
    if v.generate && v.transfers then .ok p else .error p

/-- The instance is up: its status is stored, and its endpoint is added when it is not found. -/
def markUp (p : Pass E) (v : Visit E) (e : E) : Except (Pass E) (Pass E) := do
  let p ← updateInstance p v e "up" v.updateUp
  return if e ∈ p.apis then p else { p with apis := p.apis ++ [e] }

/-- The body of the loop, up to its `except`. -/
def tryInstance (p : Pass E) (v : Visit E) (e : E) : Except (Pass E) (Pass E) :=
  match success v with
  | none => .error p
  | some false => do
    let p ← updateInstance p v e "down" v.updateDown
    return { p with apis := p.apis.erase e }
  | some true =>
    match message v with
    | none => .error p
    | some msg =>
      if msg = "loading" then
        if v.status = "failover" then .ok p
        else do
          let p ← sendConfig p v
          match v.reload with
          | .raised => .error p
          | .refused => updateInstance p v e "loading" v.updateLoading
          | .accepted => markUp p v e
      else markUp p v e

/-- The body of the loop: after an exception the endpoint is removed. -/
def checkInstance (p : Pass E) (v : Visit E) (e : E) : Pass E :=
  match tryInstance p v e with
  | .ok p => p
  | .error p => { p with apis := p.apis.erase e }

/-- The loop, and whether it comes to its end: `API.from_instance` stands before the `try`. -/
def checkInstances (p : Pass E) : List (Visit E) → Pass E × Bool
  | [] => (p, true)
  | v :: vs =>
    match v.endpoint with
    | none => (p, false)
    | some e => checkInstances (checkInstance p v e) vs

/-! ## The job -/

/-- The event and the list that the job shares with the rest of the scheduler. -/
structure State (E : Type) where
  running : Bool
  apis : List E
  deriving DecidableEq, Repr

/-- What one run of the job meets. -/
structure Check (E : Type) where
  scheduler : Bool
  applying : Bool
  /-- The rows that `get_instances` returns; none when it raises. -/
  instances : Option (List (Visit E))

/-- The state after a run, the statuses it stored, and whether it came to its end. -/
structure Outcome (E : Type) where
  state : State E
  saved : List (Saved E)
  complete : Bool
  deriving DecidableEq, Repr

def healthcheckJob (s : State E) (c : Check E) : Outcome E :=
  if s.running then ⟨s, [], false⟩
  else if !c.scheduler then ⟨s, [], false⟩
  else
    let s := { s with running := true }
    if c.applying then ⟨s, [], false⟩
    else
      match c.instances with
      | none => ⟨s, [], false⟩
      | some vs =>
        match checkInstances ⟨s.apis, false, []⟩ vs with
        | (p, false) => ⟨{ s with apis := p.apis }, p.saved, false⟩
        | (p, true) => ⟨⟨false, p.apis⟩, p.saved, true⟩

/-- A run takes the event. -/
def Takes (s : State E) (c : Check E) : Prop := s.running = false ∧ c.scheduler = true

/-- The statuses of an instance that is not to be served. -/
def Offline (status : String) : Prop := status = "down" ∨ status = "loading"

instance (status : String) : Decidable (Offline status) :=
  inferInstanceAs (Decidable (_ ∨ _))

/-- A run that takes the event gives it back, and after a complete pass the list has no endpoint
twice and no endpoint of an instance that was stored as down or loading. -/
structure Healthy (s : State E) (c : Check E) : Prop where
  clear : Takes s c → (healthcheckJob s c).state.running = false
  listed : (healthcheckJob s c).complete = true →
    (healthcheckJob s c).state.apis.Nodup ∧
      ∀ x ∈ (healthcheckJob s c).saved, Offline x.status →
        x.endpoint ∉ (healthcheckJob s c).state.apis

/-- What happens in the scheduler: a run of the job, or another part that replaces the list. -/
inductive Step (E : Type)
  | job (c : Check E)
  | others (apis : List E)

def step (s : State E) : Step E → State E
  | .job c => (healthcheckJob s c).state
  | .others apis => { s with apis := apis }

/-! ## The outcomes of one instance -/

/-- What comes of an instance: an exception, the status that is to be stored, or nothing. -/
inductive Verdict
  | exception
  | down (stored : Bool)
  | skipped
  | loading (stored : Bool)
  | up (stored : Bool)
  deriving DecidableEq, Repr

/-- An update that does not raise leads to the verdict. -/
def Update.verdict (verdict : Bool → Verdict) : Update → Verdict
  | stored => verdict true
  | refused => verdict false
  | raised => .exception

/-- Whether the configuration is there to be generated. -/
def Visit.configured (env : Bool) (v : Visit E) : Bool := env || v.getConfig

/-- The instance is loading and has to be sent its configuration. -/
def Visit.wants (v : Visit E) : Bool :=
  success v = some true && message v = some "loading" && v.status ≠ "failover"

def Visit.verdict (env : Bool) (v : Visit E) : Verdict :=
  match success v, message v with
  | none, _ => .exception
  | some false, _ => v.updateDown.verdict .down
  | some true, none => .exception
  | some true, some msg =>
    if msg ≠ "loading" then v.updateUp.verdict .up
    else if v.status = "failover" then .skipped
    else if !(v.configured env && v.generate && v.transfers) then .exception
    else
      match v.reload with
      | .raised => .exception
      | .refused => v.updateLoading.verdict .loading
      | .accepted => v.updateUp.verdict .up

/-- What a verdict does to the list. -/
def Verdict.op (e : E) : Verdict → Roster.Op E
  | exception => .leave e
  | down _ => .leave e
  | skipped => .stay
  | loading _ => .stay
  | up _ => .enter e

/-- What a verdict has stored. -/
def Verdict.saved (hostname : String) (e : E) : Verdict → List (Saved E)
  | down true => [⟨hostname, e, "down"⟩]
  | loading true => [⟨hostname, e, "loading"⟩]
  | up true => [⟨hostname, e, "up"⟩]
  | _ => []

/-- The configuration is read for the first instance that wants it. -/
def Visit.env (env : Bool) (v : Visit E) : Bool := env || (v.wants && v.getConfig)

/-- What is left of an exception: its state without the endpoint. -/
def settle (e : E) : Except (Pass E) (Pass E) → Pass E
  | .ok p => p
  | .error p => { p with apis := p.apis.erase e }

/-- The pass after a verdict. -/
def Pass.after (p : Pass E) (v : Visit E) (e : E) (env : Bool) (verdict : Verdict) : Pass E :=
  ⟨(verdict.op e).apply p.apis, env, p.saved ++ verdict.saved v.hostname e⟩

@[simp] theorem Pass.after_with (p : Pass E) (b : Bool) (v : Visit E) (e : E) (env : Bool)
    (verdict : Verdict) :
    ({ p with env := b } : Pass E).after v e env verdict = p.after v e env verdict := rfl

theorem settle_down (p : Pass E) (v : Visit E) (e : E) :
    settle e (do
      let p ← updateInstance p v e "down" v.updateDown
      return { p with apis := p.apis.erase e }) =
      p.after v e p.env (v.updateDown.verdict .down) := by
  cases v.updateDown <;> simp [updateInstance, settle, Pass.after, Update.verdict, Verdict.op,
    Verdict.saved, Roster.Op.apply, bind, Except.bind, pure, Except.pure]

theorem settle_loading (p : Pass E) (v : Visit E) (e : E) :
    settle e (updateInstance p v e "loading" v.updateLoading) =
      p.after v e p.env (v.updateLoading.verdict .loading) := by
  cases v.updateLoading <;> simp [updateInstance, settle, Pass.after, Update.verdict, Verdict.op,
    Verdict.saved, Roster.Op.apply]

theorem settle_up (p : Pass E) (v : Visit E) (e : E) :
    settle e (markUp p v e) = p.after v e p.env (v.updateUp.verdict .up) := by
  unfold markUp
  cases v.updateUp with
  | stored =>
    by_cases he : e ∈ p.apis <;> simp [he, updateInstance, settle, Pass.after, Update.verdict,
      Verdict.op, Verdict.saved, Roster.Op.apply, bind, Except.bind, pure, Except.pure]
  | refused =>
    by_cases he : e ∈ p.apis <;> simp [he, updateInstance, settle, Pass.after, Update.verdict,
      Verdict.op, Verdict.saved, Roster.Op.apply, bind, Except.bind, pure, Except.pure]
  | raised =>
    simp [updateInstance, settle, Pass.after, Update.verdict, Verdict.op, Verdict.saved,
      Roster.Op.apply, bind, Except.bind]

theorem checkInstance_eq_settle (p : Pass E) (v : Visit E) (e : E) :
    checkInstance p v e = settle e (tryInstance p v e) := by
  unfold checkInstance settle
  cases tryInstance p v e <;> rfl

/-- An exception, in a state that has stored nothing new. -/
theorem settle_error (p : Pass E) (v : Visit E) (e : E) (env : Bool) :
    settle e (.error { p with env }) = p.after v e env .exception := by
  simp [settle, Pass.after, Verdict.op, Verdict.saved, Roster.Op.apply]

omit [DecidableEq E] in
/-- The configuration is sent, or an exception leaves the loop. -/
theorem sendConfig_eq (p : Pass E) (v : Visit E) :
    sendConfig p v =
      if v.configured p.env && v.generate && v.transfers then .ok { p with env := true }
      else .error { p with env := v.configured p.env } := by
  obtain ⟨apis, env, saved⟩ := p
  unfold sendConfig Visit.configured
  cases env <;> cases v.getConfig <;> cases v.generate <;> cases v.transfers <;> rfl

/-- One instance changes the list as its verdict says, and stores what its verdict says. -/
theorem checkInstance_eq (p : Pass E) (v : Visit E) (e : E) :
    checkInstance p v e = p.after v e (v.env p.env) (v.verdict p.env) := by
  rw [checkInstance_eq_settle]
  cases hsuccess : success v with
  | none =>
    simpa [tryInstance, Visit.verdict, Visit.env, Visit.wants, hsuccess] using
      settle_error p v e p.env
  | some healthy =>
    cases healthy with
    | false =>
      simpa [tryInstance, Visit.verdict, Visit.env, Visit.wants, hsuccess] using settle_down p v e
    | true =>
      cases hmessage : message v with
      | none =>
        simpa [tryInstance, Visit.verdict, Visit.env, Visit.wants, hsuccess, hmessage] using
          settle_error p v e p.env
      | some msg =>
        by_cases hloading : msg = "loading"
        · by_cases hfailover : v.status = "failover"
          · simp [tryInstance, Visit.verdict, Visit.env, Visit.wants, hsuccess, hmessage, hloading,
              hfailover, settle, Pass.after, Verdict.op, Verdict.saved, Roster.Op.apply]
          · have henv : v.env p.env = v.configured p.env := by
              simp [Visit.env, Visit.wants, Visit.configured, hsuccess, hmessage, hloading,
                hfailover]
            rw [henv]
            simp only [tryInstance, Visit.verdict, hsuccess, hmessage, hloading, hfailover,
              sendConfig_eq]
            by_cases hready : v.configured p.env && v.generate && v.transfers
            · rw [Bool.and_eq_true, Bool.and_eq_true] at hready
              obtain ⟨⟨hconfigured, hgenerate⟩, htransfers⟩ := hready
              cases hreload : v.reload with
              | raised =>
                simpa [hconfigured, hgenerate, htransfers, bind, Except.bind] using
                  settle_error p v e true
              | refused =>
                simpa [hconfigured, hgenerate, htransfers, bind, Except.bind] using
                  settle_loading { p with env := true } v e
              | accepted =>
                simpa [hconfigured, hgenerate, htransfers, bind, Except.bind] using
                  settle_up { p with env := true } v e
            · simpa [hready, bind, Except.bind] using settle_error p v e (v.configured p.env)
        · simpa [tryInstance, Visit.verdict, Visit.env, Visit.wants, hsuccess, hmessage, hloading]
            using settle_up p v e

/-! ## A pass -/

/-- An instance that the loop has come to. -/
structure Entry (E : Type) where
  hostname : String
  endpoint : E
  verdict : Verdict
  deriving DecidableEq, Repr

/-- The instances up to the first whose endpoint cannot be built. -/
def entries (env : Bool) : List (Visit E) → List (Entry E)
  | [] => []
  | v :: vs =>
    match v.endpoint with
    | none => []
    | some e => ⟨v.hostname, e, v.verdict env⟩ :: entries (v.env env) vs

def Entry.op (x : Entry E) : Roster.Op E := x.verdict.op x.endpoint

def Entry.saved (x : Entry E) : List (Saved E) := x.verdict.saved x.hostname x.endpoint

theorem checkInstances_eq (p : Pass E) (vs : List (Visit E)) :
    (checkInstances p vs).1.apis = Roster.applyAll p.apis ((entries p.env vs).map Entry.op) ∧
      (checkInstances p vs).1.saved = p.saved ++ (entries p.env vs).flatMap Entry.saved ∧
      ((checkInstances p vs).2 = true ↔ ∀ v ∈ vs, v.endpoint.isSome = true) := by
  induction vs generalizing p with
  | nil => simp [checkInstances, entries]
  | cons v vs ih =>
    cases hendpoint : v.endpoint with
    | none => simp [checkInstances, entries, hendpoint]
    | some e =>
      obtain ⟨hapis, hsaved, hcomplete⟩ := ih (checkInstance p v e)
      simp only [checkInstances, entries, hendpoint, List.map_cons, Roster.applyAll_cons,
        List.flatMap_cons, List.forall_mem_cons, Option.isSome_some, true_and]
      refine ⟨?_, ?_, hcomplete⟩
      · rw [hapis, checkInstance_eq]
        rfl
      · rw [hsaved, checkInstance_eq]
        show p.saved ++ _ ++ _ = _
        rw [List.append_assoc]
        rfl

/-- The pass stores that the instance is not to be served. -/
def Verdict.offline : Verdict → Bool
  | down stored => stored
  | loading stored => stored
  | _ => false

omit [DecidableEq E] in
/-- What is stored of an instance that is not to be served carries its endpoint. -/
theorem forall_offline (x : Entry E) (l : List E) :
    (∀ y ∈ x.saved, Offline y.status → y.endpoint ∉ l) ↔
      (x.verdict.offline = true → x.endpoint ∉ l) := by
  obtain ⟨hostname, e, verdict⟩ := x
  cases verdict with
  | down stored => cases stored <;> simp [Entry.saved, Verdict.saved, Verdict.offline, Offline]
  | loading stored => cases stored <;> simp [Entry.saved, Verdict.saved, Verdict.offline, Offline]
  | up stored => cases stored <;> simp [Entry.saved, Verdict.saved, Verdict.offline, Offline]
  | exception => simp [Entry.saved, Verdict.saved, Verdict.offline]
  | skipped => simp [Entry.saved, Verdict.saved, Verdict.offline]

/-! ## The condition -/

/-- The endpoints of the instances that are stored as down or loading leave the list: the last
outcome that adds or removes such an endpoint removes it, or there is none and the list did not
have it. -/
structure Cleared (apis : List E) (vs : List (Visit E)) : Prop where
  built : ∀ v ∈ vs, v.endpoint.isSome = true
  gone : ∀ x ∈ entries false vs, x.verdict.offline = true →
    Roster.lastEffect x.endpoint ((entries false vs).map Entry.op) = some false ∨
      Roster.lastEffect x.endpoint ((entries false vs).map Entry.op) = none ∧ x.endpoint ∉ apis

/-- A run that takes the event finds no configuration being applied, reads the instances, and
clears the list. -/
def Sound (s : State E) (c : Check E) : Prop :=
  Takes s c → c.applying = false ∧ ∃ vs, c.instances = some vs ∧ Cleared s.apis vs

theorem healthcheckJob_idle {s : State E} {c : Check E} (h : ¬Takes s c) :
    healthcheckJob s c = ⟨s, [], false⟩ := by
  unfold healthcheckJob
  split
  · rfl
  · rename_i hrunning
    have hscheduler : c.scheduler = false := by
      cases hscheduler : c.scheduler with
      | false => rfl
      | true => exact absurd ⟨by simpa using hrunning, hscheduler⟩ h
    simp [hscheduler]

/-- The two exits that leave the event set. -/
theorem healthcheckJob_stuck {s : State E} {c : Check E} (h : Takes s c)
    (hexit : c.applying = true ∨ c.instances = none) :
    healthcheckJob s c = ⟨⟨true, s.apis⟩, [], false⟩ := by
  unfold healthcheckJob
  rw [if_neg (by simp [h.1]), if_neg (by simp [h.2])]
  obtain happlying | hinstances := hexit
  · simp [happlying]
  · simp [hinstances]

theorem healthcheckJob_pass {s : State E} {c : Check E} (h : Takes s c)
    (happlying : c.applying = false) {vs : List (Visit E)} (hinstances : c.instances = some vs) :
    healthcheckJob s c =
      ⟨⟨!(checkInstances ⟨s.apis, false, []⟩ vs).2, (checkInstances ⟨s.apis, false, []⟩ vs).1.apis⟩,
        (checkInstances ⟨s.apis, false, []⟩ vs).1.saved,
        (checkInstances ⟨s.apis, false, []⟩ vs).2⟩ := by
  unfold healthcheckJob
  rw [if_neg (by simp [h.1]), if_neg (by simp [h.2])]
  simp only [happlying, hinstances]
  obtain ⟨p, complete⟩ := checkInstances ⟨s.apis, false, []⟩ vs
  cases complete <;> rfl

/-- After the loop has come to its end. -/
theorem listed_iff {apis : List E} (hnodup : apis.Nodup) (vs : List (Visit E)) :
    (∀ x ∈ (checkInstances ⟨apis, false, []⟩ vs).1.saved, Offline x.status →
        x.endpoint ∉ (checkInstances ⟨apis, false, []⟩ vs).1.apis) ↔
      ∀ x ∈ entries false vs, x.verdict.offline = true →
        Roster.lastEffect x.endpoint ((entries false vs).map Entry.op) = some false ∨
          Roster.lastEffect x.endpoint ((entries false vs).map Entry.op) = none ∧
            x.endpoint ∉ apis := by
  obtain ⟨hapis, hsaved, -⟩ := checkInstances_eq ⟨apis, false, []⟩ vs
  rw [hapis, hsaved, List.nil_append]
  simp only [List.mem_flatMap, forall_exists_index, and_imp]
  constructor
  · intro h x hx
    rw [← Roster.notMem_applyAll hnodup]
    exact (forall_offline x _).mp fun y hy => h y x hx hy
  · intro h y x hx hy
    have hgone := h x hx
    rw [← Roster.notMem_applyAll hnodup] at hgone
    exact (forall_offline x _).mpr hgone y hy

theorem nodup_pass {apis : List E} (hnodup : apis.Nodup) (vs : List (Visit E)) :
    (checkInstances ⟨apis, false, []⟩ vs).1.apis.Nodup := by
  rw [(checkInstances_eq ⟨apis, false, []⟩ vs).1]
  exact Roster.nodup_applyAll hnodup _

/-- **One run.** It gives the event back and leaves the list as it should be if and only if the
condition holds. -/
theorem healthy_iff {s : State E} (hnodup : s.apis.Nodup) (c : Check E) :
    Healthy s c ↔ Sound s c := by
  by_cases htakes : Takes s c
  · by_cases happlying : c.applying = true
    · have hstuck := healthcheckJob_stuck htakes (.inl happlying)
      constructor
      · intro h
        have hclear := h.clear htakes
        rw [hstuck] at hclear
        cases hclear
      · intro h
        rw [(h htakes).1] at happlying
        cases happlying
    · rw [Bool.not_eq_true] at happlying
      cases hinstances : c.instances with
      | none =>
        have hstuck := healthcheckJob_stuck htakes (.inr hinstances)
        constructor
        · intro h
          have hclear := h.clear htakes
          rw [hstuck] at hclear
          cases hclear
        · intro h
          obtain ⟨-, vs, hvs, -⟩ := h htakes
          rw [hinstances] at hvs
          cases hvs
      | some vs =>
        have hpass := healthcheckJob_pass htakes happlying hinstances
        have hcomplete := (checkInstances_eq ⟨s.apis, false, []⟩ vs).2.2
        constructor
        · intro h htakes
          have hclear := h.clear htakes
          rw [hpass, Bool.not_eq_false'] at hclear
          have hlisted := h.listed
          rw [hpass] at hlisted
          exact ⟨happlying, vs, hinstances, hcomplete.mp hclear,
            (listed_iff hnodup vs).mp (hlisted hclear).2⟩
        · intro h
          obtain ⟨-, vs', hvs', hcleared⟩ := h htakes
          obtain rfl : vs = vs' := Option.some.inj (hinstances.symm.trans hvs')
          refine ⟨fun _ => ?_, fun _ => ?_⟩
          · rw [hpass, Bool.not_eq_false']
            exact hcomplete.mpr hcleared.built
          · rw [hpass]
            exact ⟨nodup_pass hnodup vs, (listed_iff hnodup vs).mpr hcleared.gone⟩
  · have hidle := healthcheckJob_idle htakes
    refine ⟨fun _ h => absurd h htakes, fun _ => ⟨fun h => absurd h htakes, fun h => ?_⟩⟩
    rw [hidle] at h
    cases h

/-- Every run leaves a list without duplicates. -/
theorem nodup_job {s : State E} (hnodup : s.apis.Nodup) (c : Check E) :
    (healthcheckJob s c).state.apis.Nodup := by
  by_cases htakes : Takes s c
  · by_cases hexit : c.applying = true ∨ c.instances = none
    · rw [healthcheckJob_stuck htakes hexit]
      exact hnodup
    · rw [not_or, Bool.not_eq_true] at hexit
      obtain ⟨vs, hinstances⟩ := Option.ne_none_iff_exists'.mp hexit.2
      rw [healthcheckJob_pass htakes hexit.1 hinstances]
      exact nodup_pass hnodup vs
  · rw [healthcheckJob_idle htakes]
    exact hnodup

/-! ## Runs -/

/-- What a step of the scheduler is to achieve, and when it does. -/
def HealthyStep (s : State E) : Step E → Prop
  | .job c => Healthy s c
  | .others _ => True

def SoundStep (s : State E) : Step E → Prop
  | .job c => Sound s c
  | .others _ => True

/-- **Every sequence of runs**, between which other parts of the scheduler hand over lists without
duplicates: each run that takes the event gives it back and leaves the list as it should be, if and
only if each meets the condition. -/
theorem sequence_healthy_iff {s : State E} (hnodup : s.apis.Nodup) {steps : List (Step E)}
    (hothers : ∀ apis, .others apis ∈ steps → apis.Nodup) :
    Run.Meets step HealthyStep s steps ↔ Run.Meets step SoundStep s steps := by
  induction steps generalizing s with
  | nil => simp
  | cons next steps ih =>
    rw [Run.meets_cons, Run.meets_cons]
    have hrest := fun apis h => hothers apis (List.mem_cons_of_mem next h)
    cases next with
    | job c => exact and_congr (healthy_iff hnodup c) (ih (nodup_job hnodup c) hrest)
    | others apis => exact and_congr Iff.rfl (ih (hothers apis List.mem_cons_self) hrest)

/-- An instance that does not answer. -/
def silent : Visit String where
  hostname := "bw1"
  endpoint := some "http://bw1:5000/"
  status := "up"
  request := .unsent
  updateDown := .stored
  getConfig := true
  generate := true
  transfers := true
  reload := .accepted
  updateLoading := .stored
  updateUp := .stored

/-- An instance that is loading and refuses the reload. -/
def refusing : Visit String :=
  { silent with
    request := .answered 200 ⟨some "success", some "loading"⟩
    reload := .refused }

theorem silent_sequence_healthy :
    let steps : List (Step String) :=
      [.others ["http://bw1:5000/"], .job ⟨true, false, some [silent]⟩,
        .job ⟨true, false, some [refusing]⟩]
    Run.Meets step HealthyStep ⟨false, []⟩ steps := by
  refine (sequence_healthy_iff List.nodup_nil ?_).mpr ⟨trivial, ?_, ?_, trivial⟩
  · intro apis hmem
    simp only [List.mem_cons, List.not_mem_nil, or_false, Step.others.injEq, reduceCtorEq] at hmem
    rw [hmem]
    exact List.nodup_singleton _
  · exact fun _ => ⟨rfl, _, rfl, by decide, by decide⟩
  · exact fun _ => ⟨rfl, _, rfl, by decide, by decide⟩

/-- A run during the application of a configuration leaves the event set, so that no further one
checks anything. And an instance that refused the reload is stored as loading and stays in the
list. -/
theorem event_left_set :
    let start : State String := ⟨false, ["http://bw1:5000/"]⟩
    let blocked := healthcheckJob start ⟨true, true, some [silent]⟩
    let refused := healthcheckJob start ⟨true, false, some [refusing]⟩
    (blocked.state.running = true ∧
      ∀ c, healthcheckJob blocked.state c = ⟨blocked.state, [], false⟩) ∧
    refused.complete = true ∧ refused.saved = [⟨"bw1", "http://bw1:5000/", "loading"⟩] ∧
      "http://bw1:5000/" ∈ refused.state.apis :=
  ⟨⟨by decide, fun _ => rfl⟩, by decide, by decide, by decide⟩

/-- A sequence of such runs ends with the event clear, as it began. -/
theorem running_of_healthy {s : State E} (hrunning : s.running = false) {steps : List (Step E)}
    (hhealthy : Run.Meets step HealthyStep s steps) : (Run.run step s steps).running = false := by
  have hstep : ∀ (s : State E) (next : Step E), s.running = false → HealthyStep s next →
      (step s next).running = false := by
    intro s next hrunning hhealthy
    cases next with
    | job c =>
      by_cases htakes : Takes s c
      · exact hhealthy.clear htakes
      · show (healthcheckJob s c).state.running = false
        rw [healthcheckJob_idle htakes]
        exact hrunning
    | others apis => exact hrunning
  exact Run.invariant hstep hrunning hhealthy

end BunkerWeb.Scheduler.Healthcheck
