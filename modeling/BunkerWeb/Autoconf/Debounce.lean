import BunkerWeb.Lib.Run
import Mathlib.Algebra.Order.Ring.Rat
import Mathlib.Data.Fintype.Basic
import Mathlib.Data.List.Infix

/-!
# Batched events of the Kubernetes controllers

The watch threads (`_watch`), the worker for pending backends (`_pending_backends_worker`) and the
one for settings (`_settings_recheck_worker`) share a flag and a timestamp under one lock. The
thread of an event sets the flag, waits outside the lock until no event has come for the debounce
delay, and applies unless the timestamp is young again or the flag is down.

- **State**: the phase of each thread, the holder of the lock in its apply loop, the flag, the
  timestamp and the clock. `accepted` counts the events that `_process_event` let through, `handed`
  is that count at the reads that were last handed to `apply_config` or found unchanged.
- **Inputs**: one for each section under the lock and for each thing that happens between them. A
  section finds the lock free, else the input is not taken.
- **Safety** (`nothing_dropped`): while no read under a lowered flag raises and the backend worker
  puts the flag up again only beside a waiting watch thread, a state in which nobody is awake has
  the flag down and every event applied.
-/

namespace BunkerWeb.Autoconf.Kubernetes

open Lib

/-- The streams of `IngressController._get_watchers`. -/
inductive WatchType
  | pod | ingress | configmap | service | secret
  deriving DecidableEq

instance : Fintype WatchType where
  elems := {.pod, .ingress, .configmap, .service, .secret}
  complete := by intro t; cases t <;> decide

/-- Where a watch thread is: at its stream, in the wait after an event, or past the wait, until it
is back at its stream. -/
inductive WatchPhase
  | streaming | debouncing | woken
  deriving DecidableEq

/-- The backend worker polls, or has set the flag and is about to call `_trigger_apply_if_idle`. -/
inductive WorkerPhase
  | polling | triggering
  deriving DecidableEq

/-- The reads of a turn of an apply section: one raises, or `update_needed` and `have_to_wait`
answer. -/
inductive Reads
  | raised
  | answered (updateNeeded haveToWait : Bool)
  deriving DecidableEq

structure Controller (τ : Type*) where
  watchers : τ → WatchPhase
  worker : WorkerPhase
  /-- The watch thread that holds the lock in its apply loop. -/
  holder : Option τ
  pendingApply : Bool
  lastEventTime : ℚ
  time : ℚ
  accepted : ℕ
  handed : ℕ

inductive Input (τ : Type*)
  | clock (t : ℚ)
  /-- An event of the stream that `_process_event` accepts. -/
  | event (i : τ)
  /-- The condition of the wait is found false. -/
  | elapsed (i : τ)
  /-- The section after the wait, up to the apply loop. -/
  | wake (i : τ)
  /-- A turn of the apply loop. -/
  | turn (i : τ) (reads : Reads)
  /-- A missing backend has become visible. -/
  | backendReady
  /-- `_trigger_apply_if_idle`. -/
  | trigger (reads : Reads)
  /-- A section of the settings worker, which may call `apply_config`. -/
  | recheck (applies : Bool)
  deriving DecidableEq

/-- Seconds. -/
def debounceDelay : ℚ := 2

namespace Controller

section Definitions

variable {τ : Type*} [DecidableEq τ]

/-- Before the first event: `initial_apply` has handed the state of the cluster. -/
def start : Controller τ where
  watchers := fun _ => .streaming
  worker := .polling
  holder := none
  pendingApply := false
  lastEventTime := 0
  time := 0
  accepted := 0
  handed := 0

def setPhase (c : Controller τ) (i : τ) (phase : WatchPhase) : Controller τ :=
  { c with watchers := Function.update c.watchers i phase }

/-- `time() - _last_event_time < _debounce_delay`. -/
def young (c : Controller τ) : Bool := c.time - c.lastEventTime < debounceDelay

/-- The inputs as read now go to `apply_config`, or `update_needed` finds nothing new in them. -/
def hand (c : Controller τ) : Controller τ := { c with handed := c.accepted }

/-- An accepted event in `_watch`. -/
def watchEvent (c : Controller τ) (i : τ) : Controller τ :=
  if c.holder = none ∧ c.watchers i = .streaming then
    { c.setPhase i .debouncing with
      pendingApply := true, lastEventTime := c.time, accepted := c.accepted + 1 }
  else c

/-- The end of the wait of `_watch`, outside the lock. -/
def watchElapsed (c : Controller τ) (i : τ) : Controller τ :=
  if c.watchers i = .debouncing ∧ c.young = false then c.setPhase i .woken else c

/-- The two early exits of `_watch` after the wait, and the way into its apply loop. -/
def watchWake (c : Controller τ) (i : τ) : Controller τ :=
  if c.holder = none ∧ c.watchers i = .woken then
    if c.young then c.setPhase i .streaming
    else if c.pendingApply = false then c.setPhase i .streaming
    else { c with pendingApply := false, holder := some i }
  else c

/-- Back at the stream, the lock released. -/
def leave (c : Controller τ) (i : τ) : Controller τ :=
  { c.setPhase i .streaming with holder := none }

/-- A turn of the apply loop of `_watch`. -/
def watchTurn (c : Controller τ) (i : τ) (reads : Reads) : Controller τ :=
  if c.holder = some i then
    match reads with
    | .raised => c.leave i
    | .answered false _ => c.hand.leave i
    | .answered true true => c
    | .answered true false => c.hand.leave i
  else c

/-- The section of `_pending_backends_worker` that sets the flag. -/
def pendingBackendsWorker (c : Controller τ) : Controller τ :=
  if c.holder = none ∧ c.worker = .polling then
    { c with
      pendingApply := true, lastEventTime := c.time - debounceDelay - 1, worker := .triggering }
  else c

/-- `_trigger_apply_if_idle`. -/
def triggerApplyIfIdle (c : Controller τ) (reads : Reads) : Controller τ :=
  if c.holder = none ∧ c.worker = .triggering then
    let c := { c with worker := .polling }
    if c.pendingApply = false then c
    else
      let c := { c with pendingApply := false }
      match reads with
      | .raised => c
      | .answered false _ => c.hand
      | .answered true true => { c with pendingApply := true, lastEventTime := c.time }
      | .answered true false => c.hand
  else c

/-- A section of `_settings_recheck_worker`. -/
def settingsRecheckWorker (c : Controller τ) (applies : Bool) : Controller τ :=
  if c.holder = none ∧ applies then c.hand else c

def step (c : Controller τ) : Input τ → Controller τ
  | .clock t => { c with time := t }
  | .event i => c.watchEvent i
  | .elapsed i => c.watchElapsed i
  | .wake i => c.watchWake i
  | .turn i reads => c.watchTurn i reads
  | .backendReady => c.pendingBackendsWorker
  | .trigger reads => c.triggerApplyIfIdle reads
  | .recheck applies => c.settingsRecheckWorker applies

/-! ## The property and the condition -/

/-- No thread is in its wait or its apply section, or between the two. -/
def Quiet (c : Controller τ) : Prop :=
  (∀ i, c.watchers i = .streaming) ∧ c.worker = .polling ∧ c.holder = none

/-- A quiet state has the flag down, and its inputs were read after the last event. -/
def Settled (c : Controller τ) : Prop :=
  c.Quiet → c.pendingApply = false ∧ c.handed = c.accepted

/-- The clock does not run backwards, no read raises once the flag is down, and the backend worker
finds the scheduler busy only while a watch thread is in its wait. -/
def Kept (c : Controller τ) : Input τ → Prop
  | .clock t => c.time ≤ t
  | .turn i reads => c.holder = some i → reads ≠ .raised
  | .trigger reads =>
    c.holder = none → c.worker = .triggering → c.pendingApply = true →
      reads ≠ .raised ∧ (reads = .answered true true → ∃ i, c.watchers i = .debouncing)
  | _ => True

instance Quiet.decidable [Fintype τ] (c : Controller τ) : Decidable c.Quiet := by
  unfold Quiet; infer_instance

instance Settled.decidable [Fintype τ] (c : Controller τ) : Decidable c.Settled := by
  unfold Settled; infer_instance

instance Kept.decidable [Fintype τ] (c : Controller τ) (input : Input τ) :
    Decidable (Kept c input) := by
  cases input <;> unfold Kept <;> infer_instance

end Definitions

/-! ## The invariant -/

variable {τ : Type*}

/-- What is owed is known: an event whose inputs were not handed on has the flag up or a thread in
its apply loop, and the flag is up only while somebody will look at it. A woken thread counts as
long as the timestamp is old, since it goes back to its stream when the timestamp is young. -/
structure Attended (c : Controller τ) : Prop where
  owed : c.handed ≠ c.accepted → c.pendingApply = true ∨ c.holder ≠ none
  lowered : c.holder ≠ none → c.pendingApply = false
  seen : c.pendingApply = true →
    (∃ i, c.watchers i = .debouncing) ∨ (c.young = false ∧ ∃ i, c.watchers i = .woken) ∨
      c.worker = .triggering

/-- Nothing is owed. -/
theorem attended_of_handed {c : Controller τ} (hp : c.pendingApply = false)
    (hh : c.handed = c.accepted) : c.Attended where
  owed := fun h => absurd hh h
  lowered := fun _ => hp
  seen := fun hp' => absurd (hp.symm.trans hp') Bool.false_ne_true

theorem start_attended : (start : Controller τ).Attended := attended_of_handed rfl rfl

theorem young_eq_false {c : Controller τ} :
    c.young = false ↔ debounceDelay ≤ c.time - c.lastEventTime := by
  rw [young, decide_eq_false_iff_not, not_lt]

theorem clock_attended {c : Controller τ} (hc : c.Attended) {t : ℚ} (ht : c.time ≤ t) :
    Attended { c with time := t } where
  owed := hc.owed
  lowered := hc.lowered
  seen := by
    intro hp
    rcases hc.seen hp with h | ⟨hy, h⟩ | h
    · exact .inl h
    · refine .inr (.inl ⟨?_, h⟩)
      rw [young_eq_false] at hy ⊢
      exact hy.trans (sub_le_sub_right ht _)
    · exact .inr (.inr h)

theorem pendingBackendsWorker_attended {c : Controller τ} (hc : c.Attended) :
    c.pendingBackendsWorker.Attended := by
  unfold pendingBackendsWorker
  split
  case isTrue h =>
    exact {
      owed := fun _ => .inl rfl
      lowered := fun hh => absurd h.1 hh
      seen := fun _ => .inr (.inr rfl) }
  case isFalse => exact hc

theorem triggerApplyIfIdle_attended {c : Controller τ} (hc : c.Attended) {reads : Reads}
    (hk : Kept c (.trigger reads)) : (c.triggerApplyIfIdle reads).Attended := by
  unfold triggerApplyIfIdle
  split
  case isFalse => exact hc
  case isTrue h =>
    dsimp only
    split
    case isTrue hp =>
      exact {
        owed := hc.owed
        lowered := hc.lowered
        seen := fun hp' => absurd (hp.symm.trans hp') (by decide) }
    case isFalse hp =>
      obtain ⟨hr, hb⟩ := hk h.1 h.2 (Bool.eq_true_of_not_eq_false hp)
      match reads with
      | .raised => exact absurd rfl hr
      | .answered false _ => exact attended_of_handed rfl rfl
      | .answered true true =>
        exact {
          owed := fun _ => .inl rfl
          lowered := fun hh => absurd h.1 hh
          seen := fun _ => .inl (hb rfl) }
      | .answered true false => exact attended_of_handed rfl rfl

theorem settingsRecheckWorker_attended {c : Controller τ} (hc : c.Attended) (applies : Bool) :
    (c.settingsRecheckWorker applies).Attended := by
  unfold settingsRecheckWorker
  split
  case isTrue =>
    exact { owed := fun h => absurd rfl h, lowered := hc.lowered, seen := hc.seen }
  case isFalse => exact hc

theorem Attended.settled {c : Controller τ} (hc : c.Attended) : c.Settled := by
  rintro ⟨hstream, hpoll, hfree⟩
  have hp : c.pendingApply = false := by
    refine Bool.eq_false_of_not_eq_true fun hp => ?_
    rcases hc.seen hp with ⟨i, hi⟩ | ⟨-, i, hi⟩ | hw
    · exact absurd ((hstream i).symm.trans hi) (by decide)
    · exact absurd ((hstream i).symm.trans hi) (by decide)
    · exact absurd (hpoll.symm.trans hw) (by decide)
  refine ⟨hp, not_not.mp fun hne => ?_⟩
  rcases hc.owed hne with h | h
  · exact absurd (hp.symm.trans h) (by decide)
  · exact h hfree

/-! ## The watch threads -/

variable [DecidableEq τ]

/-- A thread in another phase than the one that moves is still there. -/
theorem exists_setPhase {c : Controller τ} {i : τ} {p q : WatchPhase} (hp : c.watchers i ≠ p)
    (h : ∃ j, c.watchers j = p) : ∃ j, (c.setPhase i q).watchers j = p := by
  obtain ⟨j, hj⟩ := h
  have hji : j ≠ i := by
    rintro rfl
    exact hp hj
  refine ⟨j, ?_⟩
  show Function.update c.watchers i q j = p
  rw [Function.update_of_ne hji, hj]

theorem setPhase_watchers_self (c : Controller τ) (i : τ) (q : WatchPhase) :
    (c.setPhase i q).watchers i = q := Function.update_self ..

theorem watchEvent_attended {c : Controller τ} (hc : c.Attended) (i : τ) :
    (c.watchEvent i).Attended := by
  unfold watchEvent
  split
  case isTrue h =>
    exact {
      owed := fun _ => .inl rfl
      lowered := fun hh => absurd h.1 hh
      seen := fun _ => .inl ⟨i, c.setPhase_watchers_self i _⟩ }
  case isFalse => exact hc

theorem watchElapsed_attended {c : Controller τ} (hc : c.Attended) (i : τ) :
    (c.watchElapsed i).Attended := by
  unfold watchElapsed
  split
  case isTrue h =>
    refine { owed := hc.owed, lowered := hc.lowered, seen := fun hp => ?_ }
    -- the timestamp is old, so the thread that has moved is one that will look
    exact .inr (.inl ⟨h.2, i, c.setPhase_watchers_self i _⟩)
  case isFalse => exact hc

theorem watchWake_attended {c : Controller τ} (hc : c.Attended) (i : τ) :
    (c.watchWake i).Attended := by
  unfold watchWake
  split
  case isFalse => exact hc
  case isTrue h =>
    split
    case isTrue hy =>
      refine { owed := hc.owed, lowered := hc.lowered, seen := fun hp => ?_ }
      -- whoever made the timestamp young is still in its wait
      rcases hc.seen hp with hd | ⟨hy', -⟩ | hw
      · exact .inl (exists_setPhase (by rw [h.2]; decide) hd)
      · exact absurd (hy.symm.trans hy') (by decide)
      · exact .inr (.inr hw)
    case isFalse =>
      split
      case isTrue hp =>
        exact {
          owed := hc.owed
          lowered := hc.lowered
          seen := fun hp' => absurd (hp.symm.trans hp') Bool.false_ne_true }
      case isFalse =>
        exact {
          owed := fun _ => .inr (Option.some_ne_none i)
          lowered := fun _ => rfl
          seen := fun hp => absurd hp Bool.false_ne_true }

theorem watchTurn_attended {c : Controller τ} (hc : c.Attended) (i : τ) {reads : Reads}
    (hr : c.holder = some i → reads ≠ .raised) : (c.watchTurn i reads).Attended := by
  unfold watchTurn
  split
  case isFalse => exact hc
  case isTrue h =>
    have hp : c.pendingApply = false := by
      apply hc.lowered
      rw [h]
      exact Option.some_ne_none i
    match reads with
    | .raised => exact absurd rfl (hr h)
    | .answered false _ => exact attended_of_handed hp rfl
    | .answered true true => exact hc
    | .answered true false => exact attended_of_handed hp rfl

theorem step_attended (c : Controller τ) (input : Input τ) (hc : c.Attended)
    (hk : Kept c input) : (c.step input).Attended := by
  cases input with
  | clock t => exact clock_attended hc hk
  | event i => exact watchEvent_attended hc i
  | elapsed i => exact watchElapsed_attended hc i
  | wake i => exact watchWake_attended hc i
  | turn i reads => exact watchTurn_attended hc i hk
  | backendReady => exact pendingBackendsWorker_attended hc
  | trigger reads => exact triggerApplyIfIdle_attended hc hk
  | recheck applies => exact settingsRecheckWorker_attended hc applies

/-! ## Main results -/

/-- In a run whose steps meet the condition, every quiet state on the way is settled. -/
theorem nothing_dropped {is js : List (Input τ)} (hk : Run.Meets step Kept start is)
    (hjs : js <+: is) : (Run.run step (start : Controller τ) js).Settled := by
  obtain ⟨rest, rfl⟩ := hjs
  exact (Run.invariant_of_append step_attended start_attended hk).settled

/-- Two events of which the second comes in the wait after the first: one apply section for both,
its first turn while the scheduler is busy. -/
theorem nothing_dropped_two_events :
    let is := [.event WatchType.pod, .clock 1, .event .ingress, .clock 2, .clock 3,
      .elapsed .ingress, .wake .ingress, .turn .ingress (.answered true true), .clock 4,
      .turn .ingress (.answered true false), .elapsed .pod, .wake .pod]
    Run.Meets step Kept start is ∧ (Run.run step start is).Quiet ∧
      (Run.run step start is).accepted = 2 ∧ (Run.run step start is).Settled :=
  ⟨by decide +kernel, by decide +kernel, by decide +kernel,
    nothing_dropped (by decide +kernel) List.prefix_rfl⟩

/-- A read that raises in the apply loop, after the flag was lowered: the thread is back at its
stream, and the event is applied only with a later one. The backend worker finds the scheduler busy
when no watch thread waits: the flag stays up. -/
theorem batches_dropped :
    ¬ (Run.run step start [.event WatchType.pod, .clock 2, .elapsed .pod, .wake .pod,
      .turn .pod .raised]).Settled ∧
    ¬ (Run.run step (start : Controller WatchType) [.backendReady,
      .trigger (.answered true true)]).Settled := by
  decide +kernel

end Controller

end BunkerWeb.Autoconf.Kubernetes
