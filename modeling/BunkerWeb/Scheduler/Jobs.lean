import BunkerWeb.Lib.Run
import Mathlib.Data.Fintype.Basic
import Mathlib.Logic.Function.Basic

/-!
# Running jobs (`JobScheduler.py`)

A call hands its jobs to the threads of a pool: every asynchronous job is a task of its own, the
other jobs of a plugin run one after another in one task. All threads share the flag and the list
that the verdict of the call and its report are read from.

- **One step** (`advance`): what a thread does between two accesses to the shared fields.
- **A batch** (`step`): any thread moves; how a module ends is known when it ends.
- **The calls** (`runOnce`, `runPending`, `runSingle`): their answer, once the threads are through.
- **The end** (`finishes`): a batch is through when every thread has had its steps, in any order.
-/

namespace BunkerWeb.Scheduler

open Lib

/-- How the module of a job ends. -/
inductive Outcome where
  | finished
  /-- `sys.exit`; without a number if its argument is none. -/
  | systemExit (code : Option Int)
  | exception
  deriving DecidableEq, Repr

/-- `ret` after the `try` of `__job_wrapper`. -/
def Outcome.ret : Outcome → Int
  | .finished => 1
  | .systemExit code => code.getD 1
  | .exception => -1

/-- `ret < 0 or ret >= 2`. -/
def Outcome.bad (o : Outcome) : Bool := o.ret < 0 || 2 ≤ o.ret

/-- The job returned 0 or 1 and raised nothing. -/
def Outcome.Succeeded (o : Outcome) : Prop := o ≠ .exception ∧ (o.ret = 0 ∨ o.ret = 1)

instance (o : Outcome) : Decidable o.Succeeded := inferInstanceAs (Decidable (_ ∧ _))

theorem Outcome.succeeded_iff {o : Outcome} : o.Succeeded ↔ o.bad = false := by
  cases o with
  | finished => decide
  | exception => decide
  | systemExit code =>
    simp only [Succeeded, bad, ret, Bool.or_eq_false_iff]
    constructor
    · rintro ⟨-, h⟩
      exact ⟨decide_eq_false (by omega), decide_eq_false (by omega)⟩
    · rintro ⟨h₀, h₂⟩
      have h₀ := of_decide_eq_false h₀
      have h₂ := of_decide_eq_false h₂
      exact ⟨nofun, by omega⟩

/-- A job as its plugin declares it. -/
structure Job where
  name : String
  path : String
  file : String
  async : Bool
  deriving DecidableEq, Repr

/-- The arguments of `__job_wrapper`. -/
structure Task where
  path : String
  plugin : String
  name : String
  file : String
  deriving DecidableEq, Repr

def Job.task (plugin : String) (job : Job) : Task := ⟨job.path, plugin, job.name, job.file⟩

/-- The text of a failed job. -/
def Task.text (t : Task) : String := t.plugin ++ "/" ++ t.name

/-- What `__add_job_run` is called with, and beside it how the job did end. -/
structure JobRun where
  task : Task
  success : Bool
  outcome : Outcome
  deriving DecidableEq, Repr

/-- The fields that the threads share, and the runs that the current call has recorded. -/
structure Shared where
  jobSuccess : Bool
  failedJobs : List String
  jobReload : Bool
  runs : List JobRun
  deriving DecidableEq, Repr

/-- Where a thread is in `__job_wrapper`. -/
inductive Phase where
  /-- Before the module is executed. -/
  | queued
  /-- In the `except` branch. -/
  | raised
  /-- At `if ret == 1`. -/
  | ran (o : Outcome)
  /-- At the check of the return code. -/
  | checking (o : Outcome)
  /-- The check has found the flag up and the code bad. -/
  | failing (o : Outcome)
  /-- At the call of `__add_job_run`. -/
  | ending (o : Outcome) (success : Bool)
  deriving DecidableEq, Repr

/-- A task of the pool: the jobs that it has left, the first of them in some phase. -/
structure Thread where
  phase : Phase
  tasks : List Task
  deriving DecidableEq, Repr

/-- `self.__job_success = False` and `self.__failed_jobs.append`, under the lock. -/
def Shared.fail (s : Shared) (t : Task) : Shared :=
  { s with jobSuccess := false, failedJobs := s.failedJobs ++ [t.text] }

/-- The next step of a thread; `o` is how the module ends, if that is the step. -/
def advance (s : Shared) (th : Thread) (o : Outcome) : Shared × Thread :=
  match th.tasks with
  | [] => (s, th)
  | t :: rest =>
    match th.phase with
    | .queued => (s, ⟨if o = .exception then .raised else .ran o, t :: rest⟩)
    | .raised => (s.fail t, ⟨.ran .exception, t :: rest⟩)
    | .ran o =>
      (if o.ret = 1 then { s with jobReload := true } else s, ⟨.checking o, t :: rest⟩)
    | .checking o =>
      -- The flag is read without the lock.
      if s.jobSuccess && o.bad then (s, ⟨.failing o, t :: rest⟩)
      else (s, ⟨.ending o (o ≠ .exception), t :: rest⟩)
    | .failing o => (s.fail t, ⟨.ending o false, t :: rest⟩)
    | .ending o success =>
      ({ s with runs := s.runs ++ [⟨t, success, o⟩] }, ⟨.queued, rest⟩)

structure Batch (ι : Type*) where
  shared : Shared
  threads : ι → Thread

section

variable {ι : Type*} [DecidableEq ι]

/-- Some thread moves. -/
def step (b : Batch ι) (c : ι × Outcome) : Batch ι :=
  let r := advance b.shared (b.threads c.1) c.2
  ⟨r.1, Function.update b.threads c.1 r.2⟩

/-- All futures are done. -/
def Batch.Done (b : Batch ι) : Prop := ∀ i, (b.threads i).tasks = []

instance [Fintype ι] (b : Batch ι) : Decidable b.Done :=
  inferInstanceAs (Decidable (∀ i, (b.threads i).tasks = []))

end

/-! ## The end of a batch -/

/-- The most steps that a job has left in a phase. -/
def Phase.rank : Phase → Nat
  | .queued => 6
  | .raised => 5
  | .ran _ => 4
  | .checking _ => 3
  | .failing _ => 2
  | .ending _ _ => 1

/-- The most steps that a thread has left. -/
def Thread.rank (th : Thread) : Nat :=
  match th.tasks with
  | [] => 0
  | _ :: rest => 6 * rest.length + th.phase.rank

theorem Phase.rank_pos (p : Phase) : 0 < p.rank := by cases p <;> simp [rank]

theorem rank_eq_zero {th : Thread} : th.rank = 0 ↔ th.tasks = [] := by
  obtain ⟨phase, tasks⟩ := th
  cases tasks with
  | nil => simp [Thread.rank]
  | cons t rest => simp [Thread.rank, phase.rank_pos.ne']

/-- A thread that moves has fewer steps left. -/
theorem rank_advance (s : Shared) (th : Thread) (o : Outcome) :
    (advance s th o).2.rank ≤ th.rank - 1 := by
  obtain ⟨phase, tasks⟩ := th
  cases tasks with
  | nil => simp [advance, Thread.rank]
  | cons t rest =>
    cases phase with
    | queued =>
      by_cases ho : o = .exception <;> simp [advance, Thread.rank, Phase.rank, ho]
    | checking o =>
      by_cases hc : (s.jobSuccess && o.bad) = true <;>
        simp [advance, Thread.rank, Phase.rank, hc]
    | ending o success =>
      cases rest with
      | nil => simp [advance, Thread.rank]
      | cons t' rest => simp [advance, Thread.rank, Phase.rank]; omega
    | _ => simp [advance, Thread.rank, Phase.rank]

section

variable {ι : Type*} [DecidableEq ι]

theorem rank_run (b : Batch ι) (moves : List (ι × Outcome)) (i : ι) :
    ((Run.run step b moves).threads i).rank ≤
      (b.threads i).rank - (moves.map Prod.fst).count i := by
  induction moves generalizing b with
  | nil => simp
  | cons c moves ih =>
    refine (ih (step b c)).trans ?_
    rw [List.map_cons, List.count_cons]
    by_cases hc : c.1 = i
    · subst hc
      have hself : (step b c).threads c.1 = (advance b.shared (b.threads c.1) c.2).2 :=
        Function.update_self _ _ _
      have hrank := rank_advance b.shared (b.threads c.1) c.2
      rw [← hself] at hrank
      simp only [beq_self_eq_true, if_true]
      omega
    · have : (step b c).threads i = b.threads i := Function.update_of_ne (Ne.symm hc) _ _
      rw [this, if_neg (by simpa using hc)]
      omega

/-- A batch is through when every thread has had its steps, whatever the order. -/
theorem finishes {b : Batch ι} {moves : List (ι × Outcome)}
    (h : ∀ i, (b.threads i).rank ≤ (moves.map Prod.fst).count i) :
    (Run.run step b moves).Done := fun i =>
  rank_eq_zero.mp (by have := rank_run b moves i; have := h i; omega)

end

/-! ## The calls -/

/-- The plugins with their jobs, `self.__jobs`. -/
abbrev Jobs := List (String × List Job)

/-- The tasks that `run_once` submits. -/
def onceThreads (jobs : Jobs) (plugins ignorePlugins : List String) : List (List Task) :=
  (jobs.filter fun e =>
      !((!plugins.isEmpty && !plugins.contains e.1) || ignorePlugins.contains e.1)).flatMap fun e =>
    let jobsToRun := (e.2.filter fun j => !j.async).map (Job.task e.1)
    (e.2.filter Job.async).map (fun j => [j.task e.1]) ++
      if jobsToRun.isEmpty then [] else [jobsToRun]

/-- The tasks are submitted. -/
def submit (s : Shared) (threads : List (List Task)) : Batch (Fin threads.length) :=
  ⟨s, fun i => ⟨.queued, threads[i]⟩⟩

/-- What a call begins with. -/
def Shared.begin (s : Shared) : Shared := { s with runs := [] }

/-- `self.__job_success = True`, `self.__failed_jobs = []` and `self.__job_reload = False`. -/
def Shared.reset (s : Shared) : Shared :=
  { s with jobSuccess := true, failedJobs := [], jobReload := false }

/-- The shared fields once all futures are done. -/
def join (s : Shared) (threads : List (List Task)) (moves : List (Fin threads.length × Outcome)) :
    Option Shared :=
  let b := Run.run step (submit s threads) moves
  if b.Done then some b.shared else none

/-- `moves` has all steps of every thread in it. -/
def Enough (threads : List (List Task)) (moves : List (Fin threads.length × Outcome)) : Prop :=
  ∀ i : Fin threads.length, 6 * threads[i].length ≤ (moves.map Prod.fst).count i

theorem isSome_join {s : Shared} {threads : List (List Task)}
    {moves : List (Fin threads.length × Outcome)} (h : Enough threads moves) :
    (join s threads moves).isSome := by
  rw [join, if_pos (finishes fun i => le_trans ?_ (h i))]
  · rfl
  · simp only [submit, Thread.rank]
    split
    · exact Nat.zero_le _
    next hcons => rw [hcons, List.length_cons, Phase.rank]; omega

/-- `run_once`: its answer, if `moves` are all steps of its threads. -/
def runOnce (readonly : Bool) (jobs : Jobs) (plugins ignorePlugins : List String) (s : Shared)
    (moves : List (Fin (onceThreads jobs plugins ignorePlugins).length × Outcome)) :
    Option (Bool × Shared) :=
  if readonly then some (true, s.begin)
  else (join s.begin.reset _ moves).map fun s => (s.jobSuccess, s)

/-- What happens to the files that a batch leaves: whether there is an instance, and the answers of
`send_files` and `__reload`, `none` for an exception. -/
structure Delivery where
  apis : Bool
  sendFiles : Option Bool
  reload : Option Bool
  deriving DecidableEq, Repr

/-- The cache was sent, if there is an instance, and the instances were reloaded. -/
def Delivery.Ok (d : Delivery) : Prop :=
  (d.apis = true → d.sendFiles = some true) ∧ d.reload = some true

instance (d : Delivery) : Decidable d.Ok := inferInstanceAs (Decidable (_ ∧ _))

/-- `success` after the `try` of the reload. -/
def Delivery.answer (d : Delivery) (success : Bool) : Bool :=
  match if d.apis then d.sendFiles.map (success && ·) else some success with
  | none => false
  | some success =>
    match d.reload with
    | none => false
    | some reloaded => success && reloaded

/-- `run_pending` of the jobs that should run. -/
def runPending (readonly : Bool) (pending : List Task) (delivery : Delivery) (s : Shared)
    (moves : List (Fin (pending.map fun t => [t]).length × Outcome)) : Option (Bool × Shared) :=
  if pending.isEmpty then some (true, s.begin)
  else if readonly then some (true, s.begin)
  else (join s.begin.reset _ moves).map fun s =>
    (if s.jobReload then delivery.answer s.jobSuccess else s.jobSuccess,
      { s with jobSuccess := true, jobReload := false })

/-- The job that `run_single` runs: the first of its name, in the last plugin that has one. -/
def findJob (jobs : Jobs) (name : String) : Option Task :=
  (jobs.foldl (fun found e =>
    ((e.2.find? fun j => j.name = name).map (Job.task e.1)).or found) none).filter
      fun t => t.plugin ≠ ""

/-- `run_single`; the job runs in the thread of the caller. -/
def runSingle (readonly : Bool) (jobs : Jobs) (name : String) (s : Shared)
    (moves : List (Fin 1 × Outcome)) : Option (Bool × Shared) :=
  if readonly then some (true, s.begin)
  else
    match findJob jobs name with
    | none => some (false, s.begin)
    | some t => (join s.begin [[t]] moves).map fun s => (s.jobSuccess, s)

end BunkerWeb.Scheduler
