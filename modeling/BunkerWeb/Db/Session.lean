import BunkerWeb.Lib.Guarded
import Mathlib.Data.List.Infix

/-!
# The database session (`Database._db_session` and `retry_connection` of `common/db/Database.py`)

When the body of a session raises, the handler may connect anew: it takes `LOCK`, which is a
`threading.Lock`, and calls `retry_connection`, which takes `LOCK` again. So an attempt never comes
back to the handler (`retryConnection_held`): it waits for ever, or fails before it takes the lock.

`Sound` is what the callers rely on. `sound_iff` says when they have it.
-/

namespace BunkerWeb.Db.Session

open Lib.Guarded

/-- The classes of exceptions that the handlers tell apart. -/
inductive ErrorClass where
  /-- SQLAlchemy's `OperationalError`, a subclass of `DatabaseError`. -/
  | operationalError
  | databaseError
  | connectionRefusedError
  | valueError
  | other
  deriving DecidableEq, Repr

structure Failure where
  cls : ErrorClass
  text : String
  deriving DecidableEq, Repr

/-- An exception, with where it was raised: the one of the body is an object of its own. -/
inductive Exc where
  | ofBody (f : Failure)
  | ofRetry (f : Failure)
  deriving DecidableEq, Repr

def Exc.failure : Exc → Failure
  | .ofBody f => f
  | .ofRetry f => f

/-- `isinstance(e, (OperationalError, DatabaseError))`. -/
def Failure.isDatabaseError (f : Failure) : Bool :=
  f.cls = .operationalError || f.cls = .databaseError

/-- `isinstance(e, (ConnectionRefusedError, OperationalError))`. -/
def Failure.isUnreachable (f : Failure) : Bool :=
  f.cls = .connectionRefusedError || f.cls = .operationalError

/-- `READONLY_ERROR`. -/
def readonlyErrors : List String := ["readonly", "read-only", "command denied", "Access denied"]

def Failure.isReadonly (f : Failure) : Bool :=
  readonlyErrors.any fun error => error.toList <:+: f.text.toList

/-- An engine of SQLAlchemy. -/
structure Engine where
  uri : String
  /-- The `pool_timeout` that is set for it alone. -/
  poolTimeout : Option Nat
  deriving DecidableEq, Repr

/-- What a `Database` object has, and the database behind it. -/
structure State where
  sqlEngine : Option Engine
  sessionFactory : Option Nat
  readonly : Bool
  databaseUri : String
  databaseUriReadonly : String
  /-- What the calls into SQLAlchemy that are still to come raise; no further one fails. -/
  answers : List (Option Failure)
  /-- The next session factory. -/
  next : Nat
  /-- The session factories that were told to remove their session. -/
  removed : List Nat
  deriving DecidableEq, Repr

/-- A program of one thread; its lock is `LOCK`. -/
abbrev M := Prog State Exc

/-- A call into SQLAlchemy. -/
def ask : M Unit := fun held s =>
  let rest := { s with answers := s.answers.tail }
  match s.answers.head?.join with
  | none => (.done (), held, rest)
  | some f => (.raised (.ofRetry f), held, rest)

/-- `session.remove()`. -/
def remove (session : Nat) : M Unit := do
  Prog.modify fun s => { s with removed := session :: s.removed }
  ask

/-- `Database.retry_connection`. -/
def retryConnection (readonly fallback : Bool) (poolTimeout : Option Nat) : M Unit := do
  let s ← Prog.get
  if s.sqlEngine = none then
    Prog.raise (.ofRetry ⟨.other, ""⟩)
  else if fallback ∧ s.databaseUriReadonly = "" then
    Prog.raise (.ofRetry ⟨.valueError,
      "The fallback parameter is set to True but the read-only database URI is not set"⟩)
  else
    -- `dispose` and `create_engine`
    ask
    ask
    Prog.modify fun s =>
      let uri := if fallback then s.databaseUriReadonly else s.databaseUri
      { s with sqlEngine := some ⟨uri, poolTimeout⟩ }
    Prog.withLock do
      let s ← Prog.get
      match s.sessionFactory with
      | some session => remove session
      | none => pure ()
      Prog.modify fun s => { s with sessionFactory := some s.next, next := s.next + 1 }
    -- `connect`, then `SELECT 1` or the creation of a table and its removal
    ask
    if fallback ∨ readonly then ask
    else
      ask
      ask

/-- The handler of a failed body, up to its `raise`. -/
def recover (f : Failure) : M Unit := do
  let s ← Prog.get
  if f.isReadonly then
    Prog.withLock do
      Prog.tryCatch
        (do
          retryConnection true false (some 1)
          retryConnection true false none)
        fun e =>
          if e.failure.isDatabaseError then
            if s.databaseUriReadonly = "" then pure ()
            else do
              Prog.suppress (·.failure.isDatabaseError) (retryConnection false true (some 1))
              retryConnection false true none
          else Prog.raise e
      Prog.modify fun s => { s with readonly := true }
  else if f.isUnreachable ∧ s.databaseUriReadonly ≠ "" then
    Prog.withLock do
      Prog.suppress (·.failure.isDatabaseError) do
        retryConnection false true (some 1)
        retryConnection false true none
        Prog.modify fun s => { s with readonly := true }
  else pure ()

/-- The end of a body that raises the failure, if there is one. -/
def bodyOf (failure : Option Failure) : M Unit :=
  match failure with
  | none => pure ()
  | some f => Prog.raise (.ofBody f)

/-- The first statement of the handler. -/
def rollback (session : Option Nat) : M Unit :=
  match session with
  | none => pure ()
  | some _ => Prog.suppress (fun _ => true) ask

/-- The `finally` of `_db_session`. -/
def close (session : Option Nat) : M Unit :=
  match session with
  | none => pure ()
  | some session => Prog.suppress (fun _ => true) (remove session)

/-- `Database._db_session`, around a body. -/
def dbSession (failure : Option Failure) : M Unit := do
  let s ← Prog.get
  if s.sqlEngine = none then Prog.exit
  else
    Prog.finallyDo
      (Prog.tryCatch (bodyOf failure) fun e => do
        rollback s.sessionFactory
        recover e.failure
        Prog.raise e)
      (close s.sessionFactory)

/-! ## What the callers rely on -/

/-- How the body ends. -/
def ending : Option Failure → Outcome Exc Unit
  | none => .done ()
  | some f => .raised (.ofBody f)

/-- The wrapper does not wait for the lock it holds, ends as the body does, and has its session
removed. Without an engine the process ends before the body. -/
def Sound (s : State) (failure : Option Failure) : Prop :=
  let result := (dbSession failure).run false s
  result.1 ≠ .stuck ∧ (s.sqlEngine ≠ none →
    result.1 = ending failure ∧ ∀ session, s.sessionFactory = some session →
      session ∈ result.2.2.removed)

/-- The handler connects anew. -/
def Reconnects (s : State) (f : Failure) : Prop :=
  f.isReadonly = true ∨ (f.isUnreachable = true ∧ s.databaseUriReadonly ≠ "")

/-- What the calls of an attempt raise before it takes the lock. -/
def failsBeforeLock (answers : List (Option Failure)) : Option Failure :=
  answers.head?.join.or answers.tail.head?.join

/-- The answers that are left to the first attempt, after the rollback. -/
def State.afterRollback (s : State) : List (Option Failure) :=
  if s.sessionFactory = none then s.answers else s.answers.tail

/-- The handler is not entered with a failure that it reconnects for, or its only attempt fails
early with an error of the database. -/
def Harmless (s : State) (failure : Option Failure) : Prop :=
  s.sqlEngine ≠ none → ∀ f, failure = some f → Reconnects s f →
    ¬ (f.isReadonly = true ∧ s.databaseUriReadonly ≠ "") ∧
      ∃ e, failsBeforeLock s.afterRollback = some e ∧ e.isDatabaseError = true

/-! ## An attempt under the lock -/

/-- What comes of an attempt whose calls before the lock raise `e`. -/
def attempt : Option Failure → Outcome Exc Unit
  | some e => .raised (.ofRetry e)
  | none => .stuck

/-- What an attempt that does not get the lock leaves to the next one. -/
structure Same (s s' : State) : Prop where
  engine : s'.sqlEngine ≠ none
  uri : s'.databaseUriReadonly = s.databaseUriReadonly

variable {s : State} {f : Failure}

theorem run_ask (held : Bool) (s : State) :
    ask.run held s = match s.answers.head?.join with
      | none => (.done (), held, { s with answers := s.answers.tail })
      | some f => (.raised (.ofRetry f), held, { s with answers := s.answers.tail }) := rfl

/-- Under the lock no attempt returns. -/
theorem retryConnection_held {readonly fallback : Bool} {poolTimeout : Option Nat}
    (hengine : s.sqlEngine ≠ none) (huri : fallback = true → s.databaseUriReadonly ≠ "") :
    ∃ s', (retryConnection readonly fallback poolTimeout).run true s =
      (attempt (failsBeforeLock s.answers), true, s') ∧ Same s s' := by
  have hfallback : ¬ (fallback = true ∧ s.databaseUriReadonly = "") := fun h => huri h.1 h.2
  simp only [retryConnection, Prog.run_bind, Prog.run_get, if_neg hengine, if_neg hfallback,
    run_ask, failsBeforeLock]
  cases s.answers.head?.join with
  | some e => exact ⟨_, rfl, hengine, rfl⟩
  | none =>
    simp only [Option.none_or]
    cases s.answers.tail.head?.join with
    | some e => exact ⟨_, rfl, hengine, rfl⟩
    | none => exact ⟨_, rfl, by simp, rfl⟩

/-! ## The handler -/

theorem recover_of_not_reconnects (h : ¬ Reconnects s f) :
    (recover f).run false s = (.done (), false, s) := by
  have hread : ¬ f.isReadonly = true := fun hf => h (.inl hf)
  have hfallback : ¬ (f.isUnreachable = true ∧ s.databaseUriReadonly ≠ "") := fun hf => h (.inr hf)
  simp only [recover, Prog.run_bind, Prog.run_get, if_neg hread, if_neg hfallback, Prog.run_pure]

/-- The handler goes on to its `raise`. -/
def GoesOn (s : State) (f : Failure) : Prop :=
  ¬ (f.isReadonly = true ∧ s.databaseUriReadonly ≠ "") ∧
    ∃ e, failsBeforeLock s.answers = some e ∧ e.isDatabaseError = true

/-- The ways out of a handler that reconnects: on to its `raise`, for ever in the lock, or by an
exception of its own. -/
structure Handled (s : State) (f : Failure) (result : Outcome Exc Unit × Bool × State) : Prop where
  ways : result.1 = .done () ∨ result.1 = .stuck ∨ ∃ e, result.1 = .raised (.ofRetry e)
  goesOn : result.1 = .done () ↔ GoesOn s f

theorem goesOn_iff {e : Failure} (he : failsBeforeLock s.answers = some e) :
    GoesOn s f ↔ ¬ (f.isReadonly = true ∧ s.databaseUriReadonly ≠ "") ∧
      (Exc.ofRetry e).failure.isDatabaseError = true := by
  rw [GoesOn, he]
  exact and_congr_right fun _ => ⟨fun ⟨e', he', h⟩ => Option.some.inj he' ▸ h, fun h => ⟨e, rfl, h⟩⟩

theorem not_goesOn_of_none (he : failsBeforeLock s.answers = none) : ¬ GoesOn s f := by
  rintro ⟨-, e, hsome, -⟩
  rw [he] at hsome
  cases hsome

theorem Handled.of_stuck {held : Bool} {s' : State} (hno : ¬ GoesOn s f) :
    Handled s f (.stuck, held, s') where
  ways := .inr (.inl rfl)
  goesOn := ⟨fun h => (by cases h), fun h => absurd h hno⟩

theorem Handled.of_raised {e : Failure} {held : Bool} {s' : State} (hno : ¬ GoesOn s f) :
    Handled s f (.raised (.ofRetry e), held, s') where
  ways := .inr (.inr ⟨e, rfl⟩)
  goesOn := ⟨fun h => (by cases h), fun h => absurd h hno⟩

theorem Handled.of_done {held : Bool} {s' : State} (hgoes : GoesOn s f) :
    Handled s f (.done (), held, s') where
  ways := .inl rfl
  goesOn := ⟨fun _ => hgoes, fun _ => rfl⟩

theorem handled_readonly (hengine : s.sqlEngine ≠ none) (hf : f.isReadonly = true) :
    Handled s f ((recover f).run false s) := by
  obtain ⟨s₁, hrun, hsame⟩ := @retryConnection_held s true false (some 1) hengine (by simp)
  simp only [recover, Prog.run_bind, Prog.run_get, if_pos hf, Prog.run_withLock_free,
    Prog.run_tryCatch, hrun]
  cases he : failsBeforeLock s.answers with
  | none => exact .of_stuck (not_goesOn_of_none he)
  | some e =>
    have hgoes := @goesOn_iff s f e he
    simp only [attempt]
    by_cases hdb : (Exc.ofRetry e).failure.isDatabaseError = true
    · by_cases huri : s.databaseUriReadonly = ""
      · simp only [if_pos hdb, if_pos huri, Prog.run_pure, Prog.run_modify]
        exact .of_done (hgoes.mpr ⟨fun h => h.2 huri, hdb⟩)
      · -- Neither attempt at the read-only database comes back.
        have hno : ¬ GoesOn s f := fun h => h.1 ⟨hf, huri⟩
        have huri₁ : s₁.databaseUriReadonly ≠ "" := by rw [hsame.uri]; exact huri
        obtain ⟨s₂, hrun₂, hsame₂⟩ :=
          @retryConnection_held s₁ false true (some 1) hsame.engine fun _ => huri₁
        simp only [if_pos hdb, if_neg huri, Prog.run_bind, Prog.run_suppress, hrun₂]
        cases failsBeforeLock s₁.answers with
        | none => exact .of_stuck hno
        | some e₂ =>
          simp only [attempt]
          by_cases hdb₂ : (Exc.ofRetry e₂).failure.isDatabaseError = true
          · have huri₂ : s₂.databaseUriReadonly ≠ "" := by rw [hsame₂.uri]; exact huri₁
            obtain ⟨s₃, hrun₃, hsame₃⟩ :=
              @retryConnection_held s₂ false true none hsame₂.engine fun _ => huri₂
            simp only [if_pos hdb₂, hrun₃]
            cases failsBeforeLock s₂.answers with
            | none => exact .of_stuck hno
            | some e₃ => exact .of_raised hno
          · simp only [if_neg hdb₂]
            exact .of_raised hno
    · simp only [if_neg hdb, Prog.run_raise]
      exact .of_raised (fun h => hdb (hgoes.mp h).2)

theorem handled_unreachable (hengine : s.sqlEngine ≠ none) (hread : ¬ f.isReadonly = true)
    (hf : f.isUnreachable = true ∧ s.databaseUriReadonly ≠ "") :
    Handled s f ((recover f).run false s) := by
  obtain ⟨s₁, hrun, hsame⟩ := @retryConnection_held s false true (some 1) hengine fun _ => hf.2
  simp only [recover, Prog.run_bind, Prog.run_get, if_neg hread, if_pos hf, Prog.run_withLock_free,
    Prog.run_suppress, hrun]
  cases he : failsBeforeLock s.answers with
  | none => exact .of_stuck (not_goesOn_of_none he)
  | some e =>
    have hgoes := @goesOn_iff s f e he
    simp only [attempt]
    by_cases hdb : (Exc.ofRetry e).failure.isDatabaseError = true
    · simp only [if_pos hdb]
      exact .of_done (hgoes.mpr ⟨fun h => hread h.1, hdb⟩)
    · simp only [if_neg hdb]
      exact .of_raised (fun h => hdb (hgoes.mp h).2)

theorem handled (hengine : s.sqlEngine ≠ none) (h : Reconnects s f) :
    Handled s f ((recover f).run false s) := by
  by_cases hread : f.isReadonly = true
  · exact handled_readonly hengine hread
  · exact handled_unreachable hengine hread (h.resolve_left hread)

/-! ## The wrapper -/

theorem rollback_run (s : State) :
    ∃ s₁, (rollback s.sessionFactory).run false s = (.done (), false, s₁) ∧
      s₁.answers = s.afterRollback ∧ s₁.sqlEngine = s.sqlEngine ∧
      s₁.databaseUriReadonly = s.databaseUriReadonly := by
  unfold rollback State.afterRollback
  cases s.sessionFactory with
  | none => exact ⟨s, rfl, rfl, rfl, rfl⟩
  | some session =>
    simp only [Prog.run_suppress, run_ask]
    cases s.answers.head?.join <;> exact ⟨_, rfl, rfl, rfl, rfl⟩

theorem close_run (session : Option Nat) (held : Bool) (s : State) :
    ∃ s', (close session).run held s = (.done (), held, s') ∧
      ∀ f, session = some f → f ∈ s'.removed := by
  unfold close
  cases session with
  | none => exact ⟨s, rfl, fun f h => (by cases h)⟩
  | some session =>
    simp only [Prog.run_suppress, remove, Prog.run_bind, Prog.run_modify, run_ask]
    cases s.answers.head?.join <;>
      exact ⟨_, rfl, fun f h => Option.some.inj h ▸ List.mem_cons_self⟩

/-- The handler's way out is the way out of the wrapper. -/
theorem dbSession_failed (hengine : s.sqlEngine ≠ none) {s₁ s₂ : State} {o : Outcome Exc Unit}
    {held : Bool} (hroll : (rollback s.sessionFactory).run false s = (.done (), false, s₁))
    (hrecover : (recover f).run false s₁ = (o, held, s₂)) :
    let result := (dbSession (some f)).run false s
    (o = .done () → result.1 = .raised (.ofBody f) ∧
      ∀ session, s.sessionFactory = some session → session ∈ result.2.2.removed) ∧
    (o = .stuck → result.1 = .stuck) ∧ ∀ e, o = .raised e → result.1 = .raised e := by
  have hrecover : (recover (Exc.ofBody f).failure).run false s₁ = (o, held, s₂) := hrecover
  obtain ⟨s', hclose, hmem⟩ := close_run s.sessionFactory held s₂
  refine ⟨fun ho => ?_, fun ho => ?_, fun e ho => ?_⟩ <;> subst ho <;>
    simp only [dbSession, Prog.run_bind, Prog.run_get, if_neg hengine, Prog.finallyDo,
      Prog.run_andThen, Prog.run_tryCatch, bodyOf, Prog.run_raise, hroll, hrecover, hclose]
  exact ⟨trivial, hmem⟩

/-- **When a session ends well.** For every state of the connection, every outcome of the body and
every outcome of the calls that connect anew. -/
theorem sound_iff (s : State) (failure : Option Failure) :
    Sound s failure ↔ Harmless s failure := by
  by_cases hengine : s.sqlEngine = none
  · have hrun : (dbSession failure).run false s = (.exited, false, s) := by
      simp only [dbSession, Prog.run_bind, Prog.run_get, if_pos hengine, Prog.run_exit]
    rw [Sound, hrun]
    exact ⟨fun _ h => absurd hengine h, fun _ => ⟨fun h => (by cases h), fun h => absurd hengine h⟩⟩
  cases failure with
  | none =>
    obtain ⟨s', hclose, hmem⟩ := close_run s.sessionFactory false s
    have hrun : (dbSession none).run false s = (.done (), false, s') := by
      simp only [dbSession, Prog.run_bind, Prog.run_get, if_neg hengine, Prog.finallyDo,
        Prog.run_andThen, Prog.run_tryCatch, bodyOf, Prog.run_pure, hclose]
    rw [Sound, hrun]
    exact ⟨fun _ _ f hf => (by cases hf), fun _ => ⟨fun h => (by cases h), fun _ => ⟨rfl, hmem⟩⟩⟩
  | some f =>
    obtain ⟨s₁, hroll, hanswers, hengine₁, huri₁⟩ := rollback_run s
    have hgoes : GoesOn s₁ f ↔ ¬ (f.isReadonly = true ∧ s.databaseUriReadonly ≠ "") ∧
        ∃ e, failsBeforeLock s.afterRollback = some e ∧ e.isDatabaseError = true := by
      rw [GoesOn, huri₁, hanswers]
    have hharmless : Harmless s (some f) ↔ (Reconnects s₁ f → GoesOn s₁ f) := by
      rw [hgoes, Reconnects, huri₁]
      exact ⟨fun h hr => h hengine f rfl hr, fun h _ f' hf' hr => Option.some.inj hf' ▸
        h (Option.some.inj hf' ▸ hr)⟩
    rcases hrun : (recover f).run false s₁ with ⟨o, held, s₂⟩
    have hfailed := dbSession_failed hengine hroll hrun
    rw [Sound, hharmless]
    by_cases hr : Reconnects s₁ f
    · have hhandled := handled (hengine₁ ▸ hengine) hr
      rw [hrun] at hhandled
      constructor
      · intro hsound _
        refine hhandled.goesOn.mp ?_
        rcases hhandled.ways with ho | ho | ⟨e, ho⟩
        · exact ho
        · exact absurd (hfailed.2.1 ho) hsound.1
        · have hend := (hsound.2 hengine).1
          rw [hfailed.2.2 _ ho] at hend
          cases hend
      · intro hgoes
        obtain ⟨hend, hmem⟩ := hfailed.1 (hhandled.goesOn.mpr (hgoes hr))
        exact ⟨fun hstuck => (by rw [hend] at hstuck; cases hstuck), fun _ => ⟨hend, hmem⟩⟩
    · have hdone : o = .done () := by
        rw [recover_of_not_reconnects hr] at hrun
        exact (congrArg Prod.fst hrun).symm
      obtain ⟨hend, hmem⟩ := hfailed.1 hdone
      exact ⟨fun _ h => absurd h hr, fun _ =>
        ⟨fun hstuck => (by rw [hend] at hstuck; cases hstuck), fun _ => ⟨hend, hmem⟩⟩⟩

/-- A connection to the file of SQLite, whose calls all succeed. -/
def sqlite : State where
  sqlEngine := some ⟨"sqlite:////var/lib/bunkerweb/db.sqlite3", none⟩
  sessionFactory := some 0
  readonly := false
  databaseUri := "sqlite:////var/lib/bunkerweb/db.sqlite3"
  databaseUriReadonly := ""
  answers := []
  next := 1
  removed := []

/-- A write to a file that may only be read: the handler waits for its own lock. -/
theorem readonly_deadlock :
    ((dbSession (some ⟨.operationalError, "attempt to write a readonly database"⟩)).run false
      sqlite).1 = .stuck ∧
      ¬ Sound sqlite (some ⟨.operationalError, "attempt to write a readonly database"⟩) := by
  have hstuck : ((dbSession (some ⟨.operationalError, "attempt to write a readonly database"⟩)).run
      false sqlite).1 = .stuck := by decide +kernel
  exact ⟨hstuck, fun h => h.1 hstuck⟩

end BunkerWeb.Db.Session
