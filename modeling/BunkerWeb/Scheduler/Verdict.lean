import BunkerWeb.Lib.Parties
import BunkerWeb.Scheduler.Jobs
import Mathlib.Algebra.BigOperators.Fin

/-!
# The verdict of a batch of jobs

The threads of a batch find out about each other through one flag and one list.

- **Flagged** (`Batch.Flagged`): a failure that is on the list, and that the run of its job has been
  or will be recorded with.
- **The invariant** (`Inv`): the flag is down if and only if a failure is flagged, the list holds
  the flagged failures, and while the flag is up no job has failed and passed the check.
- **The result** (`verdicts`): what the three calls answer, record and report.
-/

namespace BunkerWeb.Scheduler

open Lib

/-- The failure of the thread's job is on the list. -/
def Phase.flagged : Phase → Bool
  | .ran o => o = .exception
  | .checking o => o = .exception
  | .ending _ success => !success
  | _ => false

/-- The thread's job has had its say on the reload, and asked for one. -/
def Phase.asked : Phase → Bool
  | .checking o => o.ret = 1
  | .failing o => o.ret = 1
  | .ending o _ => o.ret = 1
  | _ => false

def Thread.Flags (th : Thread) (n : String) : Prop :=
  ∃ t rest, th.tasks = t :: rest ∧ th.phase.flagged = true ∧ t.text = n

def Thread.Asks (th : Thread) : Prop := th.tasks ≠ [] ∧ th.phase.asked = true

/-- A run with this name is recorded as a failure. -/
def RecordedFailure (runs : List JobRun) (n : String) : Prop :=
  ∃ r ∈ runs, r.success = false ∧ r.task.text = n

/-- A recorded job asked for a reload. -/
def Reloads (runs : List JobRun) : Prop := ∃ r ∈ runs, r.outcome.ret = 1

/-- What is recorded of a run is true of it, and an exception is always recorded. -/
structure JobRun.Faithful (r : JobRun) : Prop where
  failed : r.success = false → r.outcome.bad = true
  exception : r.outcome = .exception → r.success = false

/-- What a thread knows of its job in each phase. -/
def Phase.Ok : Phase → Prop
  | .failing o => o.bad = true ∧ o ≠ .exception
  | .ending o success => (success = false → o.bad = true) ∧ (o = .exception → success = false)
  | _ => True

/-- While the flag is up, a job that has passed the check has succeeded. -/
def Phase.Passed : Phase → Prop
  | .ending o _ => o.bad = false
  | _ => True

@[simp] theorem recordedFailure_append {runs : List JobRun} {r : JobRun} {n : String} :
    RecordedFailure (runs ++ [r]) n ↔
      RecordedFailure runs n ∨ r.success = false ∧ r.task.text = n := by
  simp [RecordedFailure, or_and_right, exists_or]

@[simp] theorem reloads_append {runs : List JobRun} {r : JobRun} :
    Reloads (runs ++ [r]) ↔ Reloads runs ∨ r.outcome.ret = 1 := by
  simp [Reloads, or_and_right, exists_or]

/-! ## One step of one thread -/

section

variable {s : Shared} {th : Thread} {o : Outcome}

theorem advance_nil (h : th.tasks = []) : advance s th o = (s, th) := by
  simp only [advance, h]

/-- A step puts exactly the names on the list that become flagged by it. -/
theorem advance_fail (hflag : ∀ n, th.Flags n → s.jobSuccess = false) :
    ∃ new, (advance s th o).1.failedJobs = s.failedJobs ++ new ∧
      (advance s th o).1.jobSuccess = (s.jobSuccess && new.isEmpty) ∧
      ∀ n, RecordedFailure (advance s th o).1.runs n ∨ (advance s th o).2.Flags n ↔
        (RecordedFailure s.runs n ∨ th.Flags n) ∨ n ∈ new := by
  obtain ⟨phase, tasks⟩ := th
  cases tasks with
  | nil => exact ⟨[], by simp [advance_nil]⟩
  | cons t rest =>
    cases phase with
    | queued =>
      refine ⟨[], by simp [advance], by simp [advance], fun n => ?_⟩
      by_cases ho : o = .exception <;> simp [advance, Thread.Flags, Phase.flagged, ho]
    | raised =>
      refine ⟨[t.text], rfl, by simp [advance, Shared.fail], fun n => ?_⟩
      simp [advance, Shared.fail, Thread.Flags, Phase.flagged, eq_comm]
    | ran o =>
      refine ⟨[], ?_, ?_, fun n => ?_⟩ <;> by_cases ho : o.ret = 1 <;>
        simp [advance, Thread.Flags, Phase.flagged, ho]
    | checking o =>
      by_cases hc : (s.jobSuccess && o.bad) = true
      · have ho : o ≠ .exception := fun ho => by
          have := hflag t.text ⟨t, rest, rfl, by simp [Phase.flagged, ho], rfl⟩
          simp [this] at hc
        refine ⟨[], ?_, ?_, fun n => ?_⟩ <;> simp [advance, hc, Thread.Flags, Phase.flagged, ho]
      · refine ⟨[], ?_, ?_, fun n => ?_⟩ <;> simp [advance, hc, Thread.Flags, Phase.flagged]
    | failing o =>
      refine ⟨[t.text], rfl, by simp [advance, Shared.fail], fun n => ?_⟩
      simp [advance, Shared.fail, Thread.Flags, Phase.flagged, eq_comm]
    | ending o success =>
      refine ⟨[], by simp [advance], by simp [advance], fun n => ?_⟩
      simp [advance, Thread.Flags, Phase.flagged]

/-- The reload flag goes up exactly when a job asks for it. -/
theorem advance_reload (s : Shared) (th : Thread) (o : Outcome) :
    ∃ new : Prop, ((advance s th o).1.jobReload = true ↔ s.jobReload = true ∨ new) ∧
      (Reloads (advance s th o).1.runs ∨ (advance s th o).2.Asks ↔
        (Reloads s.runs ∨ th.Asks) ∨ new) := by
  obtain ⟨phase, tasks⟩ := th
  cases tasks with
  | nil => exact ⟨False, by simp [advance_nil]⟩
  | cons t rest =>
    cases phase with
    | queued =>
      refine ⟨False, by simp [advance], ?_⟩
      by_cases ho : o = .exception <;> simp [advance, Thread.Asks, Phase.asked, ho]
    | raised => exact ⟨False, by simp [advance, Shared.fail, Thread.Asks, Phase.asked]⟩
    | ran o =>
      refine ⟨o.ret = 1, ?_⟩
      by_cases ho : o.ret = 1 <;> simp [advance, Thread.Asks, Phase.asked, ho]
    | checking o =>
      refine ⟨False, ?_⟩
      by_cases hc : (s.jobSuccess && o.bad) = true <;>
        simp [advance, hc, Thread.Asks, Phase.asked]
    | failing o => exact ⟨False, by simp [advance, Shared.fail, Thread.Asks, Phase.asked]⟩
    | ending o success => exact ⟨False, by simp [advance, Thread.Asks, Phase.asked]⟩

theorem advance_phase (hflag : ∀ n, th.Flags n → s.jobSuccess = false) (h : th.phase.Ok) :
    (advance s th o).2.phase.Ok := by
  obtain ⟨phase, tasks⟩ := th
  cases tasks with
  | nil => exact h
  | cons t rest =>
    cases phase with
    | queued => by_cases ho : o = .exception <;> simp [advance, Phase.Ok, ho]
    | checking o =>
      by_cases hc : (s.jobSuccess && o.bad) = true
      · simp only [advance, hc, if_true, Phase.Ok]
        rw [Bool.and_eq_true] at hc
        refine ⟨hc.2, fun ho => ?_⟩
        have := hflag t.text ⟨t, rest, rfl, by simp [Phase.flagged, ho], rfl⟩
        rw [hc.1] at this
        cases this
      · simp only [advance, hc, Phase.Ok]
        refine ⟨fun ho => ?_, fun ho => by simp [ho]⟩
        obtain rfl : o = .exception := by simpa using ho
        rfl
    | failing o => exact ⟨fun _ => h.1, fun _ => rfl⟩
    | _ => exact trivial

theorem advance_runs (h : th.phase.Ok) (hr : ∀ r ∈ s.runs, r.Faithful) :
    ∀ r ∈ (advance s th o).1.runs, r.Faithful := by
  obtain ⟨phase, tasks⟩ := th
  cases tasks with
  | nil => exact hr
  | cons t rest =>
    cases phase with
    | ran o => by_cases ho : o.ret = 1 <;> simpa [advance, ho] using hr
    | checking o =>
      by_cases hc : (s.jobSuccess && o.bad) = true <;> simpa [advance, hc] using hr
    | ending o success =>
      intro r hmem
      rcases List.mem_append.mp hmem with hmem | hmem
      · exact hr r hmem
      · obtain rfl := List.mem_singleton.mp hmem
        exact ⟨h.1, h.2⟩
    | _ => exact hr

/-- A job that passes the check while the flag is up has succeeded. -/
theorem advance_passed (hup : (advance s th o).1.jobSuccess = true) (h : th.phase.Passed)
    (hr : ∀ r ∈ s.runs, r.outcome.bad = false) :
    (advance s th o).2.phase.Passed ∧
      ∀ r ∈ (advance s th o).1.runs, r.outcome.bad = false := by
  obtain ⟨phase, tasks⟩ := th
  cases tasks with
  | nil => exact ⟨h, hr⟩
  | cons t rest =>
    cases phase with
    | queued =>
      refine ⟨?_, hr⟩
      by_cases ho : o = .exception <;> simp [advance, Phase.Passed, ho]
    | raised => cases hup
    | ran o =>
      refine ⟨trivial, ?_⟩
      by_cases ho : o.ret = 1 <;> simpa [advance, ho] using hr
    | checking o =>
      by_cases hc : (s.jobSuccess && o.bad) = true
      · simpa [advance, hc, Phase.Passed] using hr
      · simp only [advance, hc] at hup ⊢
        refine ⟨?_, hr⟩
        simpa [Phase.Passed, show s.jobSuccess = true from hup] using hc
    | failing o => cases hup
    | ending o success =>
      refine ⟨trivial, fun r hmem => ?_⟩
      rcases List.mem_append.mp hmem with hmem | hmem
      · exact hr r hmem
      · obtain rfl := List.mem_singleton.mp hmem
        exact h

end

/-! ## The batch -/

section

variable {ι : Type*} {b : Batch ι}

def Batch.Flagged (b : Batch ι) (n : String) : Prop :=
  RecordedFailure b.shared.runs n ∨ ∃ i, (b.threads i).Flags n

def Batch.Asked (b : Batch ι) : Prop := Reloads b.shared.runs ∨ ∃ i, (b.threads i).Asks

/-- What holds all the time after a call has begun with `old` and the flag up. -/
structure Inv (old : Shared) (b : Batch ι) : Prop where
  failedJobs : ∀ n, n ∈ b.shared.failedJobs ↔ n ∈ old.failedJobs ∨ b.Flagged n
  jobSuccess : b.shared.jobSuccess = false ↔ ∃ n, b.Flagged n
  jobReload : b.shared.jobReload = true ↔ old.jobReload = true ∨ b.Asked
  runs : ∀ r ∈ b.shared.runs, r.Faithful
  phases : ∀ i, (b.threads i).phase.Ok
  passed : b.shared.jobSuccess = true →
    (∀ i, (b.threads i).phase.Passed) ∧ ∀ r ∈ b.shared.runs, r.outcome.bad = false

theorem inv_start {s : Shared} (hup : s.jobSuccess = true) (hruns : s.runs = [])
    (tasks : ι → List Task) : Inv s ⟨s, fun i => ⟨.queued, tasks i⟩⟩ := by
  have hflag (n : String) : ¬ Batch.Flagged ⟨s, fun i : ι => ⟨.queued, tasks i⟩⟩ n := by
    simp [Batch.Flagged, RecordedFailure, Thread.Flags, Phase.flagged, hruns]
  have hask : ¬ Batch.Asked ⟨s, fun i : ι => ⟨.queued, tasks i⟩⟩ := by
    simp [Batch.Asked, Reloads, Thread.Asks, Phase.asked, hruns]
  refine ⟨fun n => ?_, ?_, ?_, ?_, fun i => trivial, fun _ => ⟨fun i => trivial, ?_⟩⟩
  · rw [or_iff_left (hflag n)]
  · simp [hup, hflag]
  · rw [or_iff_left hask]
  · simp [hruns]
  · simp [hruns]

/-- What is left when all futures are done. -/
structure Ended (old s : Shared) : Prop where
  verdict : s.jobSuccess = true ↔ ∀ r ∈ s.runs, r.outcome.Succeeded
  faithful : ∀ r ∈ s.runs, r.Faithful
  failure : s.jobSuccess = false → ∃ r ∈ s.runs, r.success = false
  failedJobs : ∀ n, n ∈ s.failedJobs ↔ n ∈ old.failedJobs ∨ RecordedFailure s.runs n
  reload : s.jobReload = true ↔ old.jobReload = true ∨ Reloads s.runs

theorem ended_of_inv {old : Shared} (h : Inv old b) (hd : b.Done) : Ended old b.shared := by
  have hflag (n : String) : b.Flagged n ↔ RecordedFailure b.shared.runs n :=
    or_iff_left fun ⟨i, t, rest, htasks, _⟩ => by rw [hd i] at htasks; cases htasks
  have hask : b.Asked ↔ Reloads b.shared.runs := or_iff_left fun ⟨i, hne, _⟩ => hne (hd i)
  have hfailure (hdown : b.shared.jobSuccess = false) :
      ∃ r ∈ b.shared.runs, r.success = false := by
    obtain ⟨n, hn⟩ := h.jobSuccess.mp hdown
    obtain ⟨r, hr, hs, -⟩ := (hflag n).mp hn
    exact ⟨r, hr, hs⟩
  refine ⟨⟨fun hup r hr => ?_, fun hall => ?_⟩, h.runs, hfailure, fun n => ?_, ?_⟩
  · exact Outcome.succeeded_iff.mpr ((h.passed hup).2 r hr)
  · by_contra hdown
    obtain ⟨r, hr, hs⟩ := hfailure (Bool.eq_false_iff.mpr hdown)
    have := Outcome.succeeded_iff.mp (hall r hr)
    rw [(h.runs r hr).failed hs] at this
    cases this
  · rw [h.failedJobs, hflag]
  · rw [h.jobReload, hask]

variable [DecidableEq ι]

theorem inv_step (old : Shared) (b : Batch ι) (c : ι × Outcome) (h : Inv old b) :
    Inv old (step b c) := by
  obtain ⟨i, o⟩ := c
  have hflag : ∀ n, (b.threads i).Flags n → b.shared.jobSuccess = false := fun n hn =>
    h.jobSuccess.mpr ⟨n, .inr ⟨i, hn⟩⟩
  obtain ⟨new, hlist, hup, hnew⟩ := advance_fail (o := o) hflag
  obtain ⟨ask, hreload, hask⟩ := advance_reload b.shared (b.threads i) o
  have hflagged (n : String) : (step b (i, o)).Flagged n ↔ b.Flagged n ∨ n ∈ new :=
    Parties.or_exists_update (P := (Thread.Flags · n)) b.threads i _ (hnew n)
  have hasked : (step b (i, o)).Asked ↔ b.Asked ∨ ask :=
    Parties.or_exists_update (P := Thread.Asks) b.threads i _ hask
  refine ⟨fun n => ?_, ?_, ?_, ?_, ?_, ?_⟩
  · rw [hflagged, ← or_assoc, ← h.failedJobs n]
    simp only [step, hlist, List.mem_append]
  · simp only [hflagged, exists_or, ← h.jobSuccess]
    simp only [step, hup, Bool.and_eq_false_iff, List.isEmpty_eq_false_iff_exists_mem]
  · rw [hasked, ← or_assoc, ← h.jobReload]
    exact hreload
  · exact advance_runs (h.phases i) h.runs
  · exact Parties.forall_update (P := (Thread.phase · |>.Ok)) (advance_phase hflag (h.phases i))
      h.phases
  · intro hup'
    have hold : b.shared.jobSuccess = true := by
      have := hup.symm.trans hup'
      exact (Bool.and_eq_true _ _ ▸ this).1
    obtain ⟨hphase, hruns⟩ := advance_passed hup' ((h.passed hold).1 i) (h.passed hold).2
    exact ⟨Parties.forall_update (P := (Thread.phase · |>.Passed)) hphase (h.passed hold).1, hruns⟩

/-! ## The jobs of a batch -/

/-- A step either leaves tasks and runs alone, or records the run of the first task. -/
theorem advance_tasks (s : Shared) (th : Thread) (o : Outcome) :
    (advance s th o).2.tasks = th.tasks ∧ (advance s th o).1.runs = s.runs ∨
      ∃ r, th.tasks = r.task :: (advance s th o).2.tasks ∧
        (advance s th o).1.runs = s.runs ++ [r] := by
  obtain ⟨phase, tasks⟩ := th
  cases tasks with
  | nil => exact .inl ⟨rfl, rfl⟩
  | cons t rest =>
    cases phase with
    | ran o => exact .inl (by by_cases ho : o.ret = 1 <;> simp [advance, ho])
    | checking o =>
      exact .inl (by by_cases hc : (s.jobSuccess && o.bad) = true <;> simp [advance, hc])
    | ending o success => exact .inr ⟨⟨t, success, o⟩, rfl, rfl⟩
    | _ => exact .inl ⟨rfl, rfl⟩

/-- How often a job is left or has its run. -/
def Batch.count [Fintype ι] (b : Batch ι) (t : Task) : Nat :=
  ∑ i, (b.threads i).tasks.count t + (b.shared.runs.map JobRun.task).count t

theorem count_step [Fintype ι] (c : ι × Outcome) (t : Task) :
    (step b c).count t = b.count t := by
  obtain ⟨i, o⟩ := c
  have hself : (step b (i, o)).threads i = (advance b.shared (b.threads i) o).2 :=
    Function.update_self _ _ _
  have hsum := Parties.sum_change (f := fun j => (b.threads j).tasks.count t)
    (g := fun j => ((step b (i, o)).threads j).tasks.count t) (i := i) fun j hj => by
      rw [show (step b (i, o)).threads j = b.threads j from Function.update_of_ne hj _ _]
  simp only [hself] at hsum
  rw [Batch.count, Batch.count]
  rcases advance_tasks b.shared (b.threads i) o with ⟨htasks, hruns⟩ | ⟨r, htasks, hruns⟩
  · rw [htasks] at hsum
    rw [show (step b (i, o)).shared.runs = b.shared.runs from hruns]
    omega
  · rw [htasks, List.count_cons] at hsum
    rw [show (step b (i, o)).shared.runs = b.shared.runs ++ [r] from hruns, List.map_append,
      List.count_append, List.map_singleton, List.count_singleton]
    omega

end

/-! ## The calls -/

def AllSucceeded (s : Shared) : Prop := ∀ r ∈ s.runs, r.outcome.Succeeded

/-- Every job has its one run, what the runs say of a failure is true, and if a job has
failed then there is one of a failure. -/
structure Recorded (tasks : List Task) (s : Shared) : Prop where
  runs : (s.runs.map JobRun.task).Perm tasks
  faithful : ∀ r ∈ s.runs, r.Faithful
  failure : ¬ AllSucceeded s → ∃ r ∈ s.runs, r.success = false

theorem allSucceeded_begin (s : Shared) : AllSucceeded s.begin := by
  simp [AllSucceeded, Shared.begin]

theorem recorded_begin (s : Shared) : Recorded [] s.begin :=
  ⟨.nil, by simp [Shared.begin], fun h => absurd (allSucceeded_begin s) h⟩

theorem Ended.recorded {old s : Shared} {tasks : List Task} (h : Ended old s)
    (hruns : (s.runs.map JobRun.task).Perm tasks) : Recorded tasks s :=
  ⟨hruns, h.faithful, fun hfail =>
    h.failure (Bool.eq_false_iff.mpr fun hup => hfail (h.verdict.mp hup))⟩

theorem join_ended {s s' : Shared} {threads : List (List Task)}
    {moves : List (Fin threads.length × Outcome)} (hup : s.jobSuccess = true) (hruns : s.runs = [])
    (h : join s threads moves = some s') : Ended s s' ∧ Recorded threads.flatten s' := by
  simp only [join] at h
  split at h
  next hdone =>
    cases h
    have hinv : Inv s (Run.run step (submit s threads) moves) :=
      Run.always (inv_step s) (inv_start hup hruns fun i => threads[i]) moves
    have hcount (t : Task) : (Run.run step (submit s threads) moves).count t =
        (submit s threads).count t := by
      have hstep (b : Batch (Fin threads.length)) (c)
          (hb : b.count t = (submit s threads).count t) :
          (step b c).count t = (submit s threads).count t := (count_step c t).trans hb
      exact Run.always hstep rfl moves
    have hended := ended_of_inv hinv hdone
    refine ⟨hended, hended.recorded (List.perm_iff_count.mpr fun t => ?_)⟩
    have := hcount t
    simp only [Batch.count, hdone _, List.count_nil, Finset.sum_const_zero, zero_add] at this
    rw [this, List.count_flatten]
    simp [submit, hruns]
  next => cases h

/-- The answer after the delivery of what a batch has left. -/
theorem delivery_answer {d : Delivery} {success : Bool} :
    d.answer success = true ↔ success = true ∧ d.Ok := by
  obtain ⟨apis, sendFiles, reload⟩ := d
  cases apis <;> rcases sendFiles with _ | _ | _ <;> rcases reload with _ | _ | _ <;>
    cases success <;> decide

/-- `run_once` answers whether all jobs that it started have succeeded. -/
theorem runOnce_verdict {readonly : Bool} {jobs : Jobs} {plugins ignorePlugins : List String}
    {s s' : Shared} {moves} {v : Bool}
    (h : runOnce readonly jobs plugins ignorePlugins s moves = some (v, s')) :
    (v = true ↔ AllSucceeded s') ∧
      Recorded (if readonly then [] else (onceThreads jobs plugins ignorePlugins).flatten) s' ∧
      (readonly = false → ∀ n, n ∈ s'.failedJobs ↔ RecordedFailure s'.runs n) := by
  cases readonly with
  | true =>
    cases h
    exact ⟨iff_of_true rfl (allSucceeded_begin s), recorded_begin s, nofun⟩
  | false =>
    obtain ⟨s₁, hjoin, heq⟩ := Option.map_eq_some_iff.mp h
    cases heq
    obtain ⟨hended, hrec⟩ := join_ended rfl rfl hjoin
    exact ⟨hended.verdict, hrec, fun _ n => by rw [hended.failedJobs]; simp [Shared.reset]⟩

/-- `run_pending` answers whether all jobs that it started have succeeded and, if one of them asked
for a reload, whether that was delivered. -/
theorem runPending_verdict {readonly : Bool} {pending : List Task} {delivery : Delivery}
    {s s' : Shared} {moves} {v : Bool}
    (h : runPending readonly pending delivery s moves = some (v, s')) :
    (v = true ↔ AllSucceeded s' ∧ (Reloads s'.runs → delivery.Ok)) ∧
      Recorded (if readonly then [] else pending) s' ∧
      (pending ≠ [] → readonly = false →
        s'.jobSuccess = true ∧ ∀ n, n ∈ s'.failedJobs ↔ RecordedFailure s'.runs n) := by
  unfold runPending at h
  have hnone : (true = true ↔ AllSucceeded s.begin ∧ (Reloads s.begin.runs → delivery.Ok)) :=
    iff_of_true rfl ⟨allSucceeded_begin s, by simp [Reloads, Shared.begin]⟩
  split_ifs at h with hempty hro
  · cases h
    rw [List.isEmpty_iff] at hempty
    subst hempty
    exact ⟨hnone, by rw [ite_self]; exact recorded_begin s, fun h => absurd rfl h⟩
  · cases h
    exact ⟨hnone, by rw [if_pos hro]; exact recorded_begin s, fun _ h => by simp [h] at hro⟩
  · obtain ⟨s₁, hjoin, heq⟩ := Option.map_eq_some_iff.mp h
    obtain ⟨hended, hrec⟩ := join_ended rfl rfl hjoin
    cases heq
    have hreload : s₁.jobReload = true ↔ Reloads s₁.runs := by
      rw [hended.reload]
      simp [Shared.reset]
    have htasks : (pending.map fun t => [t]).flatten = pending := by
      rw [← List.flatMap_def, List.flatMap_singleton']
    refine ⟨?_, ?_, fun _ _ => ⟨rfl, fun n => ?_⟩⟩
    · by_cases hr : s₁.jobReload = true
      · rw [if_pos hr, delivery_answer, hended.verdict]
        exact and_congr_right fun _ => ⟨fun h _ => h, fun h => h (hreload.mp hr)⟩
      · rw [if_neg hr, hended.verdict]
        exact ⟨fun h => ⟨h, fun hask => absurd (hreload.mpr hask) hr⟩, And.left⟩
    · rw [if_neg hro, ← htasks]
      exact ⟨hrec.runs, hrec.faithful, hrec.failure⟩
    · simpa [Shared.reset] using hended.failedJobs n

/-- `run_single`, with the flag up, answers whether it has found the job and that has succeeded. -/
theorem runSingle_verdict {readonly : Bool} {jobs : Jobs} {name : String} {s s' : Shared}
    {moves : List (Fin 1 × Outcome)} {v : Bool} (hup : s.jobSuccess = true)
    (h : runSingle readonly jobs name s moves = some (v, s')) :
    (v = true ↔ AllSucceeded s' ∧ (readonly = false → (findJob jobs name).isSome)) ∧
      Recorded (if readonly then [] else (findJob jobs name).toList) s' ∧
      ∀ n, n ∈ s'.failedJobs ↔ n ∈ s.failedJobs ∨ RecordedFailure s'.runs n := by
  have hlist (n : String) : n ∈ s.begin.failedJobs ↔
      n ∈ s.failedJobs ∨ RecordedFailure s.begin.runs n := by
    simp [Shared.begin, RecordedFailure]
  cases readonly with
  | true =>
    cases h
    exact ⟨iff_of_true rfl ⟨allSucceeded_begin s, nofun⟩, recorded_begin s, hlist⟩
  | false =>
    simp only [runSingle] at h
    cases hfind : findJob jobs name with
    | none =>
      rw [hfind] at h
      cases h
      exact ⟨by simp, recorded_begin s, hlist⟩
    | some t =>
      rw [hfind] at h
      obtain ⟨s₁, hjoin, heq⟩ := Option.map_eq_some_iff.mp h
      cases heq
      obtain ⟨hended, hrec⟩ := join_ended (s := s.begin) hup rfl hjoin
      exact ⟨by rw [hended.verdict]; simp [AllSucceeded], hrec, hended.failedJobs⟩

theorem enough_singleton {t : Task} {moves : List (Fin [[t]].length × Outcome)}
    (h : 6 ≤ moves.length) : Enough [[t]] moves := fun i => by
  have hcount : (moves.map Prod.fst).count i = (moves.map Prod.fst).length :=
    List.count_eq_length.mpr fun j _ => Fin.ext (by have := i.2; have := j.2; simp at *)
  rw [hcount, List.length_map]
  simpa using h

/-- Each call comes back when its threads have had their steps, and then its answer is whether all
jobs that it started have succeeded, together with the delivery of `run_pending` and the finding of
`run_single`. Whatever the order, recorded failures are failures, exceptions are always among them,
some failure is if there is one, and the reported jobs are those with a recorded failure. -/
theorem verdicts :
    (∀ readonly jobs plugins ignorePlugins s moves,
      (Enough (onceThreads jobs plugins ignorePlugins) moves →
        (runOnce readonly jobs plugins ignorePlugins s moves).isSome) ∧
      ∀ v s', runOnce readonly jobs plugins ignorePlugins s moves = some (v, s') →
        (v = true ↔ AllSucceeded s') ∧
        Recorded (if readonly then [] else (onceThreads jobs plugins ignorePlugins).flatten) s' ∧
        (readonly = false → ∀ n, n ∈ s'.failedJobs ↔ RecordedFailure s'.runs n)) ∧
    (∀ readonly pending delivery s moves,
      (Enough (pending.map fun t => [t]) moves →
        (runPending readonly pending delivery s moves).isSome) ∧
      ∀ v s', runPending readonly pending delivery s moves = some (v, s') →
        (v = true ↔ AllSucceeded s' ∧ (Reloads s'.runs → delivery.Ok)) ∧
        Recorded (if readonly then [] else pending) s' ∧
        (pending ≠ [] → readonly = false →
          s'.jobSuccess = true ∧ ∀ n, n ∈ s'.failedJobs ↔ RecordedFailure s'.runs n)) ∧
    ∀ readonly jobs name s moves, s.jobSuccess = true →
      (6 ≤ moves.length → (runSingle readonly jobs name s moves).isSome) ∧
      ∀ v s', runSingle readonly jobs name s moves = some (v, s') →
        (v = true ↔ AllSucceeded s' ∧ (readonly = false → (findJob jobs name).isSome)) ∧
        Recorded (if readonly then [] else (findJob jobs name).toList) s' ∧
        ∀ n, n ∈ s'.failedJobs ↔ n ∈ s.failedJobs ∨ RecordedFailure s'.runs n := by
  refine ⟨fun readonly jobs plugins ignorePlugins s moves =>
      ⟨fun h => ?_, fun v s' => runOnce_verdict⟩,
    fun readonly pending delivery s moves => ⟨fun h => ?_, fun v s' => runPending_verdict⟩,
    fun readonly jobs name s moves hup => ⟨fun h => ?_, fun v s' => runSingle_verdict hup⟩⟩
  · unfold runOnce
    split_ifs
    · rfl
    · simpa using isSome_join h
  · unfold runPending
    split_ifs
    · rfl
    · rfl
    · simpa using isSome_join h
  · unfold runSingle
    split_ifs
    · rfl
    split
    · rfl
    next t _ =>
      simpa using isSome_join (s := s.begin) (enough_singleton (t := t) h)

/-! Two jobs of two plugins, each of them through before the other one begins. -/

def backup : Task :=
  ⟨"/usr/share/bunkerweb/core/backup", "backup", "backup-data", "backup-data.py"⟩

def blacklist : Task :=
  ⟨"/usr/share/bunkerweb/core/blacklist", "blacklist", "blacklist-download",
    "blacklist-download.py"⟩

def jobs : Jobs :=
  [("backup", [⟨backup.name, backup.path, backup.file, false⟩]),
    ("blacklist", [⟨blacklist.name, blacklist.path, blacklist.file, true⟩])]

/-- No batch has run yet. -/
def fresh : Shared := ⟨true, [], false, []⟩

def alone (o : Outcome) : List (Fin 1 × Outcome) := List.replicate 6 (0, o)

def oneByOne (o o' : Outcome) : List (Fin 2 × Outcome) :=
  List.replicate 6 (0, o) ++ List.replicate 6 (1, o')

/-- One job fails in `run_once`, and a job that asks for a reload gets it in `run_pending`. -/
theorem verdicts_two_jobs :
    (∃ s', runOnce false jobs [] [] fresh (oneByOne .exception .finished) =
        some (false, s') ∧ ¬ AllSucceeded s') ∧
      (∃ s', runPending false [backup] ⟨true, some true, some true⟩ fresh (alone .finished) =
        some (true, s') ∧ AllSucceeded s') ∧
      ∃ s', runSingle false jobs "backup-data" fresh (alone (.systemExit (some 0))) =
        some (true, s') ∧ AllSucceeded s' := by
  obtain ⟨honce, hpending, hsingle⟩ := verdicts
  have hone : runOnce false jobs [] [] fresh (oneByOne .exception .finished) =
      some (false, ⟨false, ["backup/backup-data"], true,
        [⟨backup, false, .exception⟩, ⟨blacklist, true, .finished⟩]⟩) := by decide
  have hpend : runPending false [backup] ⟨true, some true, some true⟩ fresh (alone .finished) =
      some (true, ⟨true, [], false, [⟨backup, true, .finished⟩]⟩) := by decide
  have hsing : runSingle false jobs "backup-data" fresh (alone (.systemExit (some 0))) =
      some (true, ⟨true, [], false, [⟨backup, true, .systemExit (some 0)⟩]⟩) := by decide
  refine ⟨⟨_, hone, fun h => ?_⟩, ⟨_, hpend, ?_⟩, ⟨_, hsing, ?_⟩⟩
  · exact absurd (((honce ..).2 _ _ hone).1.mpr h) (by decide)
  · exact (((hpending ..).2 _ _ hpend).1.mp rfl).1
  · exact (((hsingle _ _ _ _ _ rfl).2 _ _ hsing).1.mp rfl).1

/-- A job succeeds, and `run_pending` answers false since the reload it asked for is refused. Of two
jobs that return 2, the second is recorded as a success and not reported. After that, in the state
that `run_once` leaves, `run_single` answers false for a job that succeeds. -/
theorem answers_beside_the_jobs :
    Outcome.Succeeded (.systemExit (some 1)) ∧ ¬ Outcome.Succeeded (.systemExit (some 2)) ∧
      runPending false [backup] ⟨true, some true, some false⟩ fresh
          (alone (.systemExit (some 1))) =
        some (false, ⟨true, [], false, [⟨backup, true, .systemExit (some 1)⟩]⟩) ∧
      ∃ s, runOnce false jobs [] [] fresh
            (oneByOne (.systemExit (some 2)) (.systemExit (some 2))) = some (false, s) ∧
          s.runs =
            [⟨backup, false, .systemExit (some 2)⟩, ⟨blacklist, true, .systemExit (some 2)⟩] ∧
          s.failedJobs = ["backup/backup-data"] ∧
          runSingle false jobs "backup-data" s (alone (.systemExit (some 1))) =
            some (false, ⟨false, ["backup/backup-data"], true,
              [⟨backup, true, .systemExit (some 1)⟩]⟩) := by
  refine ⟨by decide, by decide, by decide, ⟨false, ["backup/backup-data"], false,
    [⟨backup, false, .systemExit (some 2)⟩, ⟨blacklist, true, .systemExit (some 2)⟩]⟩, ?_⟩
  decide

end BunkerWeb.Scheduler
