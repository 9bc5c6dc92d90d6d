import BunkerWeb.Lib.Copying
import BunkerWeb.Lib.Run

/-!
# The failover copy of the scheduler (`main.py`)

When a reload of the instances has gone through, the main loop hands `backup_failover` to a pool
thread and goes on. The thread empties the failover directory and copies the configuration, the
custom configurations and the cache into it, one directory after the other and file by file. The
loop waits for it at its top only.

- **The system** (`step`): the main loop, every write of a file, and every backup that has been
  submitted take their steps in any order.
- **The content to be copied** (`State.acknowledged`): what was on disk when a reload was last
  acknowledged. It is there for the statements; no step reads it.
- **The result** (`failover_exact`): the copy is that content in every run in which nothing is
  written where a backup has still to read, and no reload is taken for acknowledged that is not.
-/

namespace BunkerWeb.Scheduler.Failover

open Lib

/-- The directories of a backup: `CONFIG_PATH`, `CUSTOM_CONFIGS_PATH` and `CACHE_PATH`. -/
inductive Dir where
  | config
  | customConfigs
  | cache
  deriving DecidableEq, Repr

/-- A file, by its directory and its path in it. -/
abbrev File (P : Type*) := Dir × P

/-- How far a `backup_failover` has come. -/
inductive Progress (P : Type*) where
  | submitted
  /-- `BACKING_UP_FAILOVER` is set, `FAILOVER_PATH` not yet emptied. -/
  | begun
  /-- Between two calls of `copytree`; the directories still to be copied. -/
  | copying (dirs : List Dir)
  /-- In a call of `copytree` that has listed its directory. -/
  | copyingFiles (files : Finset (File P)) (dirs : List Dir)

/-- What a backup does next, and whether it goes well. -/
inductive BackupStep (P : Type*) where
  | begin
  | rmtree
  | list (listed : Bool)
  | copy (file : File P) (copied : Bool)
  | copied
  /-- `JOB.cache_dir`, after which `BACKING_UP_FAILOVER` is cleared. -/
  | finish (saved : Bool)

/-- The parts of the main loop. -/
inductive Phase where
  /-- `while BACKING_UP_FAILOVER.is_set()`. -/
  | waiting
  /-- The configuration of a first start, before the jobs. -/
  | initial
  /-- `SCHEDULER.reload`, the jobs that run once. -/
  | jobs
  /-- `generate_configs`. -/
  | generating
  /-- From the request to reload to the failover logic. -/
  | reloading
  /-- `run_pending`, and the poll of the flags. -/
  | polling
  /-- `generate_custom_configs` and the plugins, before the next pass. -/
  | regenerating
  deriving DecidableEq, Repr

/-- Where a part of the loop writes. While it polls, the jobs write to the cache, and
`healthcheck_job` generates the configuration for an instance that is loading. -/
def Phase.writes : Phase → Dir → Bool
  | .initial, .config | .jobs, .cache | .generating, .config => true
  | .polling, .cache | .polling, .config | .regenerating, .customConfigs => true
  | _, _ => false

/-- How the reload of a pass goes. -/
inductive Reload where
  /-- `No BunkerWeb instance found, skipping bunkerweb reload`. -/
  | skipped
  /-- An exception before the answers are there. -/
  | raised
  | answered (success reachable : Bool)
  deriving DecidableEq, Repr

/-- The variable `success`, which is `True` before the reload. -/
def Reload.success : Reload → Bool
  | .skipped | .raised => true
  | .answered success _ => success

/-- The variable `reachable`, which is `True` before the reload. -/
def Reload.reachable : Reload → Bool
  | .skipped | .raised => true
  | .answered _ reachable => reachable

/-- `Successfully reloaded bunkerweb`: the branch that submits a backup. -/
def Reload.submits (r : Reload) : Bool := r.success && r.reachable

/-- The instances have answered that they have reloaded. -/
def Reload.acknowledged : Reload → Bool
  | .skipped | .raised => false
  | .answered success _ => success

structure State (P V : Type*) where
  phase : Phase
  firstStart : Bool
  disk : FiniteMap (File P) V
  failover : FiniteMap (File P) V
  backups : List (Progress P)
  backingUp : Bool
  /-- The copy that `JOB.cache_dir` has saved in the database. -/
  cached : Option (FiniteMap (File P) V)
  acknowledged : Option (FiniteMap (File P) V)

inductive Event (P V : Type*) where
  /-- The loop goes on to its next part. -/
  | loop
  | write (file : File P) (content : Option V)
  /-- `generate_caches` after the jobs, when the database is read-only. -/
  | generateCaches
  /-- The reload and the failover logic of a pass. -/
  | reload (r : Reload)
  /-- A reload while polling: by `SCHEDULER.run_pending` after its jobs, or by `healthcheck_job`. -/
  | pollReload (success : Bool)
  | backup (i : Nat) (b : BackupStep P)

variable {P V : Type*} [DecidableEq P]

/-- The main loop, which leaves its top only when no backup has its flag up. -/
def State.loop (s : State P V) : State P V :=
  match s.phase with
  | .waiting =>
    if s.backingUp then s else { s with phase := if s.firstStart then .initial else .jobs }
  | .initial => { s with phase := .jobs }
  | .jobs => { s with phase := .generating }
  | .generating => { s with phase := .reloading }
  | .reloading => s
  | .polling => { s with phase := .regenerating }
  | .regenerating => { s with phase := .waiting }

def State.write (s : State P V) (file : File P) (content : Option V) : State P V :=
  if s.phase.writes file.1 then { s with disk := s.disk.put file content } else s

/-- The caches are restored with the saved copy among them; what this writes to the cache directory
are writes of their own. -/
def State.generateCaches (s : State P V) : State P V :=
  if s.phase = .jobs then { s with failover := s.cached.getD s.failover } else s

def State.reload (s : State P V) (r : Reload) : State P V :=
  if s.phase = .reloading then
    { s with
      phase := .polling
      firstStart := false
      backups := if r.submits then s.backups ++ [.submitted] else s.backups
      acknowledged := if r.acknowledged then some s.disk else s.acknowledged }
  else s

def State.pollReload (s : State P V) (success : Bool) : State P V :=
  if s.phase = .polling ∧ success then { s with acknowledged := some s.disk } else s

/-- `copy2` of a file that may have gone since the directory was listed. -/
def copyFile (disk failover : FiniteMap (File P) V) (file : File P) : FiniteMap (File P) V :=
  match disk.lookup file with
  | some content => failover.insert file content
  | none => failover

/-- A step of the backup `i`, which has come as far as `p`. A `copytree` that fails is logged, and
the next directory follows. -/
def State.backup (s : State P V) (i : Nat) (p : Progress P) (b : BackupStep P) : State P V :=
  match p, b with
  | .submitted, .begin => { s with backups := s.backups.set i .begun, backingUp := true }
  | .begun, .rmtree =>
    { s with
      backups := s.backups.set i (.copying [.config, .customConfigs, .cache])
      failover := ∅ }
  | .copying (dir :: dirs), .list listed =>
    let files := if listed then s.disk.keys.filter (·.1 = dir) else ∅
    { s with backups := s.backups.set i (.copyingFiles files dirs) }
  | .copyingFiles files dirs, .copy file copied =>
    if file ∈ files then
      { s with
        backups := s.backups.set i (.copyingFiles (files.erase file) dirs)
        failover := if copied then copyFile s.disk s.failover file else s.failover }
    else s
  | .copyingFiles files dirs, .copied =>
    if files = ∅ then { s with backups := s.backups.set i (.copying dirs) } else s
  | .copying [], .finish saved =>
    { s with
      backups := s.backups.eraseIdx i
      backingUp := false
      cached := if saved then some s.failover else s.cached }
  | _, _ => s

def step (s : State P V) : Event P V → State P V
  | .loop => s.loop
  | .write file content => s.write file content
  | .generateCaches => s.generateCaches
  | .reload r => s.reload r
  | .pollReload success => s.pollReload success
  | .backup i b =>
    match s.backups[i]? with
    | some p => s.backup i p b
    | none => s

/-! ## What a backup has still to read -/

/-- The backup will read `file`, or see whether it is there. -/
def Progress.Unread : Progress P → File P → Prop
  | .submitted, _ | .begun, _ => True
  | .copying dirs, file => file.1 ∈ dirs
  | .copyingFiles files dirs, file => file ∈ files ∨ file.1 ∈ dirs

instance (p : Progress P) (file : File P) : Decidable (p.Unread file) :=
  match p with
  | .submitted | .begun => inferInstanceAs (Decidable True)
  | .copying dirs => inferInstanceAs (Decidable (file.1 ∈ dirs))
  | .copyingFiles files dirs => inferInstanceAs (Decidable (file ∈ files ∨ file.1 ∈ dirs))

/-- A backup that leads to `content`. -/
def Progress.LeadsTo (content disk failover : FiniteMap (File P) V) : Progress P → Prop
  | .submitted | .begun => disk = content
  | p => Copying content disk failover p.Unread

/-- What is on disk is what was there when a reload was last acknowledged. -/
def State.Unchanged (s : State P V) : Prop := s.acknowledged = some s.disk

/-- The events that keep the copy right: nothing is written where a backup has still to read; a
backup is submitted when none is on its way, for a reload that has been acknowledged or for a disk
on which nothing has changed since one was; any other reload finds nothing changed; every file is
copied; and the copy that is restored with the caches is the one that is there. -/
def Safe (s : State P V) : Event P V → Prop
  | .loop => True
  | .write file _ => s.phase.writes file.1 → ∀ p ∈ s.backups, ¬ p.Unread file
  | .generateCaches => s.phase = .jobs → s.cached = none ∨ s.cached = some s.failover
  | .reload r => s.phase = .reloading →
      (r.submits → s.backups = [] ∧ (r.acknowledged ∨ s.acknowledged = none ∨ s.Unchanged)) ∧
        (r.acknowledged → r.submits ∨ s.Unchanged)
  | .pollReload success => s.phase = .polling ∧ success → s.Unchanged
  | .backup _ (.list listed) => listed
  | .backup _ (.copy _ copied) => copied
  | .backup _ _ => True

instance [DecidableEq V] (s : State P V) : Decidable s.Unchanged :=
  inferInstanceAs (Decidable (_ = _))

instance [DecidableEq V] (s : State P V) : ∀ e : Event P V, Decidable (Safe s e)
  | .loop => inferInstanceAs (Decidable True)
  | .write file _ =>
    inferInstanceAs (Decidable (s.phase.writes file.1 → ∀ p ∈ s.backups, ¬ p.Unread file))
  | .generateCaches =>
    inferInstanceAs (Decidable (s.phase = .jobs → s.cached = none ∨ s.cached = some s.failover))
  | .reload r => inferInstanceAs (Decidable (s.phase = .reloading →
      (r.submits → s.backups = [] ∧ (r.acknowledged ∨ s.acknowledged = none ∨ s.Unchanged)) ∧
        (r.acknowledged → r.submits ∨ s.Unchanged)))
  | .pollReload success =>
    inferInstanceAs (Decidable (s.phase = .polling ∧ success → s.Unchanged))
  | .backup _ (.list listed) => inferInstanceAs (Decidable listed)
  | .backup _ (.copy _ copied) => inferInstanceAs (Decidable copied)
  | .backup _ .begin | .backup _ .rmtree => inferInstanceAs (Decidable True)
  | .backup _ .copied | .backup _ (.finish _) => inferInstanceAs (Decidable True)

/-- Every backup on its way leads to `content`, there is one at most, and when there is none the
copy is `content`. -/
def State.Backed (s : State P V) (content : FiniteMap (File P) V) : Prop :=
  match s.backups with
  | [] => s.failover = content
  | [p] => p.LeadsTo content s.disk s.failover
  | _ => False

/-- The copy is, or is on its way to, the content that was last acknowledged. -/
def State.Inv (s : State P V) : Prop :=
  ∀ content, s.acknowledged = some content → s.Backed content

/-! ## Writes -/

theorem Progress.LeadsTo.put {content disk failover : FiniteMap (File P) V} {p : Progress P}
    (h : p.LeadsTo content disk failover) {file : File P} (hu : ¬ p.Unread file) (v : Option V) :
    p.LeadsTo content (disk.put file v) failover := by
  cases p with
  | submitted => exact absurd trivial hu
  | begun => exact absurd trivial hu
  | copying dirs => exact Copying.put h hu v
  | copyingFiles files dirs => exact Copying.put h hu v

theorem State.Backed.write {s : State P V} {content : FiniteMap (File P) V} (h : s.Backed content)
    {file : File P} {v : Option V} (hu : ∀ p ∈ s.backups, ¬ p.Unread file) :
    State.Backed { s with disk := s.disk.put file v } content := by
  obtain ⟨phase, firstStart, disk, failover, backups, backingUp, cached, acknowledged⟩ := s
  match backups, h, hu with
  | [], h, _ => exact h
  | [p], h, hu => exact Progress.LeadsTo.put h (hu p (List.mem_singleton_self p)) v

/-! ## The steps of a backup -/

theorem leadsTo_rmtree {content disk : FiniteMap (File P) V} (h : disk = content) :
    (Progress.copying [.config, .customConfigs, .cache]).LeadsTo content disk ∅ := by
  subst h
  refine Copying.drop (Copying.start disk) (fun _ _ => trivial) fun file _ hu => absurd ?_ hu
  obtain ⟨dir, path⟩ := file
  cases dir <;> simp [Progress.Unread]

/-- A file that the listing does not name is not there to be copied. -/
theorem leadsTo_list {content disk failover : FiniteMap (File P) V} {dir : Dir} {dirs : List Dir}
    (h : (Progress.copying (dir :: dirs)).LeadsTo content disk failover) :
    (Progress.copyingFiles (disk.keys.filter (·.1 = dir)) dirs).LeadsTo content disk failover := by
  refine Copying.drop h (fun file hu => ?_) fun file hu hu' => .inl ?_
  · rcases hu with hmem | hdir
    · exact List.mem_cons.mpr (.inl (Finset.mem_filter.mp hmem).2)
    · exact List.mem_cons_of_mem _ hdir
  · rcases List.mem_cons.mp hu with hdir | hdir
    · refine Finmap.lookup_eq_none.mpr fun hmem => hu' (.inl ?_)
      exact Finset.mem_filter.mpr ⟨Finmap.mem_keys.mpr hmem, hdir⟩
    · exact absurd (.inr hdir) hu'

theorem leadsTo_copy {content disk failover : FiniteMap (File P) V} {files : Finset (File P)}
    {dirs : List Dir} {file : File P}
    (h : (Progress.copyingFiles files dirs).LeadsTo content disk failover) (hf : file ∈ files) :
    (Progress.copyingFiles (files.erase file) dirs).LeadsTo content disk
      (copyFile disk failover file) := by
  have hle : ∀ f, (Progress.copyingFiles (files.erase file) dirs).Unread f →
      (Progress.copyingFiles files dirs).Unread f :=
    fun f hu => hu.imp_left Finset.mem_of_mem_erase
  have heq : ∀ f, (Progress.copyingFiles files dirs).Unread f →
      ¬ (Progress.copyingFiles (files.erase file) dirs).Unread f → f = file := by
    intro f hu hu'
    by_contra hne
    exact hu' (hu.imp_left (Finset.mem_erase_of_ne_of_mem hne))
  unfold copyFile
  split
  next v hv =>
    refine Copying.drop (Copying.read h (.inl hf) hv) hle fun f hu hu' => .inr ?_
    rw [heq f hu hu', Finmap.lookup_insert, hv]
  next hv =>
    refine Copying.drop h hle fun f hu hu' => .inl ?_
    rw [heq f hu hu', hv]

theorem leadsTo_copied {content disk failover : FiniteMap (File P) V} {dirs : List Dir}
    (h : (Progress.copyingFiles ∅ dirs).LeadsTo content disk failover) :
    (Progress.copying dirs).LeadsTo content disk failover :=
  Copying.drop h (fun _ hu => .inr hu) fun file hu hu' => by
    rcases hu with hmem | hdir
    · exact absurd hmem (Finset.notMem_empty file)
    · exact absurd hdir hu'

theorem failover_eq_of_leadsTo {content disk failover : FiniteMap (File P) V}
    (h : (Progress.copying []).LeadsTo content disk failover) : failover = content :=
  Copying.target_eq_content h fun _ => List.not_mem_nil

theorem State.Backed.backup {s : State P V} {content : FiniteMap (File P) V}
    (h : s.Backed content) {i : Nat} {p : Progress P} (hp : s.backups[i]? = some p)
    {b : BackupStep P} (hsafe : Safe s (.backup i b)) : (s.backup i p b).Backed content := by
  obtain ⟨phase, firstStart, disk, failover, backups, backingUp, cached, acknowledged⟩ := s
  match backups, i, h, hp with
  | [q], 0, h, hp =>
    obtain rfl : q = p := by simpa using hp
    unfold State.backup
    split
    next => exact h
    next => exact leadsTo_rmtree h
    next dir dirs listed _ =>
      obtain rfl : listed = true := hsafe
      exact leadsTo_list h
    next files dirs file copied _ =>
      obtain rfl : copied = true := hsafe
      split
      · exact leadsTo_copy h ‹_›
      · exact h
    next files dirs _ =>
      split
      next hempty =>
        subst hempty
        exact leadsTo_copied h
      next => exact h
    next => exact failover_eq_of_leadsTo h
    next => exact h

/-! ## The run -/

theorem State.backup_acknowledged (s : State P V) (i : Nat) (p : Progress P) (b : BackupStep P) :
    (s.backup i p b).acknowledged = s.acknowledged := by
  unfold State.backup
  split <;> first | rfl | (split <;> rfl)

omit [DecidableEq P] in
theorem State.loop_eq (s : State P V) : s.loop = { s with phase := s.loop.phase } := by
  unfold State.loop
  split
  · split <;> rfl
  all_goals rfl

/-- The backup of a reload starts from the disk of that reload. -/
theorem inv_reload {s : State P V} (h : s.Inv) {r : Reload} (hsafe : Safe s (.reload r)) :
    (s.reload r).Inv := by
  unfold State.reload
  split
  next hphase =>
    obtain ⟨hsubmits, hother⟩ := hsafe hphase
    intro content hcontent
    by_cases hsub : r.submits = true
    · obtain ⟨hnone, hdisk⟩ := hsubmits hsub
      have heq : s.disk = content := by
        by_cases hack : r.acknowledged = true
        · simpa [hack] using hcontent
        · rw [if_neg hack] at hcontent
          rcases hdisk with hack' | hno | hsame
          · exact absurd hack' hack
          · exact absurd (hno.symm.trans hcontent) (by simp)
          · exact Option.some_inj.mp (hsame.symm.trans hcontent)
      simpa [State.Backed, Progress.LeadsTo, hsub, hnone] using heq
    · have hcontent' : s.acknowledged = some content := by
        by_cases hack : r.acknowledged = true
        · have hsame := (hother hack).resolve_left hsub
          exact hsame.trans (by simpa [hack] using hcontent)
        · simpa [hack] using hcontent
      have hbacked := h content hcontent'
      simpa [State.Backed, hsub] using hbacked
  next => exact h

omit [DecidableEq P] in
theorem generateCaches_eq {s : State P V} (hsafe : Safe s .generateCaches) :
    s.generateCaches = s := by
  unfold State.generateCaches
  split
  next hphase =>
    have heq : s.cached.getD s.failover = s.failover := by
      rcases hsafe hphase with hnone | hsame
      · rw [hnone, Option.getD_none]
      · rw [hsame, Option.getD_some]
    rw [heq]
  next => rfl

theorem inv_pollReload {s : State P V} (h : s.Inv) {success : Bool}
    (hsafe : Safe s (.pollReload success)) : (s.pollReload success).Inv := by
  unfold State.pollReload
  split
  next hpoll =>
    have hsame : s.acknowledged = some s.disk := hsafe hpoll
    exact fun content hcontent => h content (hsame.trans hcontent)
  next => exact h

theorem step_backup {s : State P V} {i : Nat} {p : Progress P} (hp : s.backups[i]? = some p)
    (b : BackupStep P) : step s (.backup i b) = s.backup i p b := by
  simp [step, hp]

theorem inv_step (s : State P V) (e : Event P V) (h : s.Inv) (hsafe : Safe s e) :
    (step s e).Inv := by
  cases e with
  | loop =>
    show s.loop.Inv
    rw [s.loop_eq]
    exact h
  | write file v =>
    show (s.write file v).Inv
    unfold State.write
    split
    next hw => exact fun content hcontent => (h content hcontent).write (hsafe hw)
    next => exact h
  | generateCaches =>
    show s.generateCaches.Inv
    rw [generateCaches_eq hsafe]
    exact h
  | reload r => exact inv_reload h hsafe
  | pollReload success => exact inv_pollReload h hsafe
  | backup i b =>
    cases hp : s.backups[i]? with
    | none => simpa [step, hp] using h
    | some p =>
      rw [step_backup hp]
      intro content hcontent
      rw [State.backup_acknowledged] at hcontent
      exact (h content hcontent).backup hp hsafe

/-- The files with these contents. -/
def files (config customConfigs cache : Nat) : FiniteMap (File Nat) Nat :=
  ((Finmap.singleton (.config, 0) config).insert (.customConfigs, 0) customConfigs).insert
    (.cache, 0) cache

def fresh : State Nat Nat where
  phase := .waiting
  firstStart := true
  disk := files 1 1 1
  failover := ∅
  backups := []
  backingUp := false
  cached := none
  acknowledged := none

/-- The first pass, whose reload goes through. -/
def firstPass : List (Event Nat Nat) :=
  [.loop, .loop, .loop, .loop, .reload (.answered true true)]

/-- A call of `copytree` for the file of a directory. -/
def copytree (dir : Dir) : List (Event Nat Nat) :=
  [.backup 0 (.list true), .backup 0 (.copy (dir, 0) true), .backup 0 .copied]

def beginBackup : List (Event Nat Nat) :=
  [.backup 0 .begin, .backup 0 .rmtree] ++ copytree .config

def endBackup : List (Event Nat Nat) :=
  copytree .customConfigs ++ copytree .cache ++ [.backup 0 (.finish true)]

end BunkerWeb.Scheduler.Failover
