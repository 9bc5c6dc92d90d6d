import Mathlib.Data.List.Basic

/-!
# Programs that take a lock

A program that may raise an exception and takes one lock that is not reentrant: a thread that
acquires it while it holds it waits for ever (`Outcome.stuck`). `withLock`, `tryCatch`,
`finallyDo` and `suppress` are Python's statements; nothing after the place where a program is
stuck runs, a `finally` included.
-/

namespace Lib.Guarded

variable {σ ε α β : Type}

/-- How a program ends. -/
inductive Outcome (ε α : Type) where
  | done (a : α)
  | raised (e : ε)
  /-- The thread waits for a lock that it holds. -/
  | stuck
  /-- The process has ended. -/
  | exited
  deriving Repr, DecidableEq

/-- A program, from whether its thread holds the lock and the state. -/
def Prog (σ ε α : Type) := Bool → σ → Outcome ε α × Bool × σ

namespace Prog

def run (p : Prog σ ε α) (held : Bool) (s : σ) : Outcome ε α × Bool × σ := p held s

/-- What follows a program, on each of the two ways to go on. -/
def andThen (p : Prog σ ε α) (onDone : α → Prog σ ε β) (onRaised : ε → Prog σ ε β) :
    Prog σ ε β := fun held s =>
  match p.run held s with
  | (.done a, held, s) => (onDone a).run held s
  | (.raised e, held, s) => (onRaised e).run held s
  | (.stuck, held, s) => (.stuck, held, s)
  | (.exited, held, s) => (.exited, held, s)

def raise (e : ε) : Prog σ ε α := fun held s => (.raised e, held, s)

instance : Monad (Prog σ ε) where
  pure a := fun held s => (.done a, held, s)
  bind p f := p.andThen f raise

def get : Prog σ ε σ := fun held s => (.done s, held, s)

def modify (f : σ → σ) : Prog σ ε Unit := fun held s => (.done (), held, f s)

def exit : Prog σ ε α := fun held s => (.exited, held, s)

def tryCatch (p : Prog σ ε α) (handler : ε → Prog σ ε α) : Prog σ ε α := p.andThen pure handler

def finallyDo (p : Prog σ ε α) (q : Prog σ ε Unit) : Prog σ ε α :=
  p.andThen (fun a => q.andThen (fun _ => pure a) raise)
    fun e => q.andThen (fun _ => raise e) raise

/-- `with suppress(..)`, for the exceptions of `which`. -/
def suppress (which : ε → Bool) (p : Prog σ ε Unit) : Prog σ ε Unit :=
  p.tryCatch fun e => if which e then pure () else raise e

def acquire : Prog σ ε Unit := fun held s =>
  if held then (.stuck, held, s) else (.done (), true, s)

def release : Prog σ ε Unit := fun _ s => (.done (), false, s)

def withLock (p : Prog σ ε α) : Prog σ ε α := do
  acquire
  p.finallyDo release

section

variable (held : Bool) (s : σ)

@[simp] theorem run_pure (a : α) :
    (pure a : Prog σ ε α).run held s = (.done a, held, s) := rfl

@[simp] theorem run_raise (e : ε) :
    (raise e : Prog σ ε α).run held s = (.raised e, held, s) := rfl

@[simp] theorem run_get : (get : Prog σ ε σ).run held s = (.done s, held, s) := rfl

@[simp] theorem run_modify (f : σ → σ) :
    (modify f : Prog σ ε Unit).run held s = (.done (), held, f s) := rfl

@[simp] theorem run_exit : (exit : Prog σ ε α).run held s = (.exited, held, s) := rfl

theorem run_bind (p : Prog σ ε α) (f : α → Prog σ ε β) :
    (p >>= f).run held s = match p.run held s with
      | (.done a, held, s) => (f a).run held s
      | (.raised e, held, s) => (.raised e, held, s)
      | (.stuck, held, s) => (.stuck, held, s)
      | (.exited, held, s) => (.exited, held, s) := rfl

theorem run_tryCatch (p : Prog σ ε α) (handler : ε → Prog σ ε α) :
    (p.tryCatch handler).run held s = match p.run held s with
      | (.done a, held, s) => (.done a, held, s)
      | (.raised e, held, s) => (handler e).run held s
      | (.stuck, held, s) => (.stuck, held, s)
      | (.exited, held, s) => (.exited, held, s) := rfl

end

theorem run_andThen (p : Prog σ ε α) (f : α → Prog σ ε β) (g : ε → Prog σ ε β) (held : Bool)
    (s : σ) :
    (p.andThen f g).run held s = match p.run held s with
      | (.done a, held, s) => (f a).run held s
      | (.raised e, held, s) => (g e).run held s
      | (.stuck, held, s) => (.stuck, held, s)
      | (.exited, held, s) => (.exited, held, s) := rfl

/-- Nothing of a guarded program runs when its thread has the lock. -/
theorem run_withLock_held (p : Prog σ ε α) (s : σ) :
    (withLock p).run true s = (.stuck, true, s) := rfl

/-- A guarded program gives the lock back, except when it is stuck or its process ends. -/
theorem run_withLock_free (p : Prog σ ε α) (s : σ) :
    (withLock p).run false s = match p.run true s with
      | (.done a, _, s) => (.done a, false, s)
      | (.raised e, _, s) => (.raised e, false, s)
      | (.stuck, held, s) => (.stuck, held, s)
      | (.exited, held, s) => (.exited, held, s) := rfl

theorem run_suppress (which : ε → Bool) (p : Prog σ ε Unit) (held : Bool) (s : σ) :
    (suppress which p).run held s = match p.run held s with
      | (.done a, held, s) => (.done a, held, s)
      | (.raised e, held, s) => if which e then (.done (), held, s) else (.raised e, held, s)
      | (.stuck, held, s) => (.stuck, held, s)
      | (.exited, held, s) => (.exited, held, s) := by
  rw [suppress, run_tryCatch]
  rcases p.run held s with ⟨_ | e | _ | _, held, s⟩
  · rfl
  · dsimp only
    split <;> rfl
  · rfl
  · rfl

end Prog

end Lib.Guarded
