import BunkerWeb.Lib.Run
import Mathlib.Logic.Function.Basic

/-!
# Second factors of a user (`ui/app/models/totp.py`)

`verify_totp` gives passlib the last counter that was accepted, which lives in the nested dictionary
`DATA["totp_last_counter"]`. Every worker has its own `DATA`; `load_from_file` overwrites the keys
that the file has, and assignments to `DATA` itself write the file. `verify_recovery_code` tries the
codes that the request read with its user, and `/totp` then deletes the row of the code.

* The state is that of one user: `Slot` is the key in a dictionary or in the file, with the user's
  entry.
* A call goes on in the steps that other threads can come between (`Pc`). `Event.load` and
  `Event.write` are what the other requests of a worker do to its `DATA`.
* A token is the counter that passlib finds for it in the window, if any. `checkpw` is a parameter.
* `State.used` is a history variable: the counters that were accepted, and the codes that were
  accepted at `/totp`.
-/

namespace BunkerWeb.Ui.SecondFactor

abbrev Text := List Char
abbrev Bytes := List UInt8

/-- `totp_last_counter`: missing, or a dictionary with or without the user. -/
abbrev Slot := Option (Option Nat)

/-- A worker and one of its threads. -/
abbrev Thread := Nat × Nat

/-- Who asks for a recovery code. -/
inductive Site where
  | totpPage
  | profile
  deriving DecidableEq

/-- Where a thread is in a call. -/
inductive Pc where
  | idle
  /-- In `get_last_counter`, before the file is read. -/
  | getCounter (token : Option Nat)
  /-- Before `self._totp.verify`. -/
  | verify (token : Option Nat)
  /-- In `set_last_counter`, before the file is read. -/
  | setCounter (counter : Nat)
  /-- Before `"totp_last_counter" not in DATA`. -/
  | testKey (counter : Nat)
  /-- The key has an empty dictionary, before the file is written. -/
  | writeFile (counter : Nat)
  /-- Before the assignment to the nested dictionary. -/
  | putCounter (counter : Nat)
  /-- Before `verify_recovery_code`, with the codes that were read with the user. -/
  | checkCode (site : Site) (code : Bytes) (codes : List Text)
  /-- Before `use_ui_user_recovery_code`. -/
  | useCode (hashed : Text)
  deriving DecidableEq

/-- What a user can present. -/
inductive Factor where
  | counter (c : Nat)
  | code (hashed : Text)
  deriving DecidableEq

structure State where
  file : Slot
  mem : Nat → Slot
  codes : List Text
  pc : Thread → Pc
  used : List Factor

/-- A started UI: `on_starting` wrote a file without the key. -/
def State.start (codes : List Text) : State := ⟨none, fun _ => none, codes, fun _ => .idle, []⟩

inductive Event where
  | load (worker : Nat)
  | write (worker : Nat)
  | verifyTotp (t : Thread) (token : Option Nat)
  | verifyRecoveryCode (t : Thread) (site : Site) (code : Bytes)
  /-- The next step of a thread. `deleted` says that a delete is committed. -/
  | resume (t : Thread) (deleted : Bool)
  deriving DecidableEq

namespace State

variable (s : State)

/-- `load_from_file`. -/
def load (worker : Nat) : State :=
  { s with mem := Function.update s.mem worker (s.file.or (s.mem worker)) }

/-- `write_to_file`. -/
def write (worker : Nat) : State := { s with file := s.mem worker }

/-- An assignment in the memory of a worker. -/
def put (worker : Nat) (slot : Slot) : State :=
  { s with mem := Function.update s.mem worker slot }

def goto (t : Thread) (pc : Pc) : State := { s with pc := Function.update s.pc t pc }

def use (f : Factor) : State := { s with used := s.used ++ [f] }

/-- `DATA.get("totp_last_counter", {}).get(user.get_id())`. -/
def lastCounter (worker : Nat) : Option Nat := (s.mem worker).join

end State

/-- passlib's `verify` with `last_counter`. -/
def verifyToken (last token : Option Nat) : Option Nat :=
  token.filter fun c => last.all (· < c)

variable (checkpw : Bytes → Text → Bool)

/-- The loop of `verify_recovery_code`. -/
def findCode (code : Bytes) (codes : List Text) : Option Text :=
  codes.find? fun hashed => checkpw (code.take 72) hashed

/-- What an event accepts. -/
def accepted (s : State) : Event → Option Factor
  | .resume t _ =>
    match s.pc t with
    | .verify token => (verifyToken (s.lastCounter t.1) token).map .counter
    | .checkCode _ code codes => (findCode checkpw code codes).map .code
    | _ => none
  | _ => none

/-- The next step of a thread. -/
def resume (s : State) (t : Thread) (deleted : Bool) : State :=
  match s.pc t with
  | .idle => s
  | .getCounter token => (s.load t.1).goto t (.verify token)
  | .verify token =>
    match verifyToken (s.lastCounter t.1) token with
    | none => s.goto t .idle
    | some c => (s.use (.counter c)).goto t (.setCounter c)
  | .setCounter c => (s.load t.1).goto t (.testKey c)
  | .testKey c =>
    if s.mem t.1 = none then (s.put t.1 (some none)).goto t (.writeFile c)
    else s.goto t (.putCounter c)
  | .writeFile c => (s.write t.1).goto t (.putCounter c)
  | .putCounter c =>
    -- without the key this is a KeyError
    if s.mem t.1 = none then s.goto t .idle else (s.put t.1 (some (some c))).goto t .idle
  | .checkCode site code codes =>
    match findCode checkpw code codes with
    | none => s.goto t .idle
    | some hashed =>
      match site with
      | .totpPage => (s.use (.code hashed)).goto t (.useCode hashed)
      | .profile => s.goto t .idle
  | .useCode hashed =>
    (if deleted then { s with codes := s.codes.erase hashed } else s).goto t .idle

/-- One event. A busy thread takes no call. -/
def step (s : State) : Event → State
  | .load worker => s.load worker
  | .write worker => s.write worker
  | .verifyTotp t token => if s.pc t = .idle then s.goto t (.getCounter token) else s
  | .verifyRecoveryCode t site code =>
    if s.pc t = .idle then s.goto t (.checkCode site code s.codes) else s
  | .resume t deleted => resume checkpw s t deleted

end BunkerWeb.Ui.SecondFactor

/-!
## When a second factor is accepted twice

* `mem_accepted_iff`: a presented factor is accepted unless the memory of the worker has a counter
  that is at least as large. Nothing else remembers a factor.
* `forgets_step`: in a UI whose workers handle one call at a time, no counter comes into the file,
  and no worker has one when it checks a token: `set_last_counter` writes the empty dictionary
  first and then changes it in memory, and the next `load_from_file` takes the change away.
* `single_use_iff`: factors are single use exactly when used ones are remembered, and with one call
  at a time exactly when nobody presents a used one.
-/

namespace BunkerWeb.Ui.SecondFactor

open Lib.Run

variable (checkpw : Bytes → Text → Bool) {s s' : State} {t : Thread} {e : Event}

/-! ## One event -/

/-- The factor that a thread is about to check: the counter of a token in the window, or the first
code that matches. -/
def presented (s : State) (t : Thread) : Option Factor :=
  match s.pc t with
  | .verify token => token.map .counter
  | .checkCode _ code codes => (findCode checkpw code codes).map .code
  | _ => none

/-- The memory of the worker has a counter that is at least as large. -/
def Remembers (s : State) (t : Thread) : Factor → Prop
  | .counter c => ∃ last ∈ s.lastCounter t.1, c ≤ last
  | .code _ => False

instance (s : State) (t : Thread) : DecidablePred (Remembers s t)
  | .counter c => inferInstanceAs (Decidable (∃ last ∈ s.lastCounter t.1, c ≤ last))
  | .code _ => .isFalse id

theorem verifyToken_eq_some {last token : Option Nat} {c : Nat} :
    verifyToken last token = some c ↔ token = some c ∧ ¬ ∃ l ∈ last, c ≤ l := by
  cases token with
  | none => simp [verifyToken]
  | some c' =>
    cases last with
    | none => simp [verifyToken]
    | some l =>
      simp only [verifyToken, Option.filter_some, Option.all_some, decide_eq_true_eq,
        Option.mem_some_iff, exists_eq_left', Nat.not_le]
      constructor
      · intro h
        split at h
        · exact ⟨h, Option.some.inj h ▸ ‹_›⟩
        · cases h
      · rintro ⟨hc, hlt⟩
        rw [if_pos (Option.some.inj hc ▸ hlt), hc]

theorem mem_accepted_iff {f : Factor} :
    f ∈ accepted checkpw s e ↔
      ∃ t deleted, e = .resume t deleted ∧ f ∈ presented checkpw s t ∧ ¬ Remembers s t f := by
  cases e with
  | resume t deleted =>
    simp only [accepted, presented, Event.resume.injEq]
    have hthread (p : Thread → Prop) :
        (∃ t' deleted', (t = t' ∧ deleted = deleted') ∧ p t') ↔ p t := by
      refine ⟨?_, fun h => ⟨t, deleted, ⟨rfl, rfl⟩, h⟩⟩
      rintro ⟨_, _, ⟨rfl, -⟩, h⟩
      exact h
    rw [hthread]
    cases s.pc t with
    | verify token =>
      simp only [Option.mem_def, Option.map_eq_some_iff, verifyToken_eq_some]
      constructor
      · rintro ⟨c, ⟨hc, hlast⟩, rfl⟩
        exact ⟨⟨c, hc, rfl⟩, hlast⟩
      · rintro ⟨⟨c, hc, rfl⟩, hlast⟩
        exact ⟨c, ⟨hc, hlast⟩, rfl⟩
    | checkCode site code codes =>
      simp only [Option.mem_def, Option.map_eq_some_iff]
      constructor
      · rintro ⟨hashed, hcode, rfl⟩
        exact ⟨⟨hashed, hcode, rfl⟩, id⟩
      · rintro ⟨hcode, -⟩
        exact hcode
    | idle => simp
    | getCounter token => simp
    | setCounter c => simp
    | testKey c => simp
    | writeFile c => simp
    | putCounter c => simp
    | useCode hashed => simp
  | load worker => simp [accepted]
  | write worker => simp [accepted]
  | verifyTotp t token => simp [accepted]
  | verifyRecoveryCode t site code => simp [accepted]

/-- No factor is accepted that was accepted before (for a code, at `/totp`). -/
def SingleUse (s : State) (e : Event) : Prop := ∀ f ∈ accepted checkpw s e, f ∉ s.used

/-- A used factor that is presented is remembered. -/
def Remembered (s : State) : Event → Prop
  | .resume t _ => ∀ f ∈ presented checkpw s t, f ∈ s.used → Remembers s t f
  | _ => True

/-- No used factor is presented. -/
def FirstUse (s : State) : Event → Prop
  | .resume t _ => ∀ f ∈ presented checkpw s t, f ∉ s.used
  | _ => True

instance (s : State) : DecidablePred (FirstUse checkpw s)
  | .resume t _ => inferInstanceAs (Decidable (∀ f ∈ presented checkpw s t, f ∉ s.used))
  | .load _ => .isTrue trivial
  | .write _ => .isTrue trivial
  | .verifyTotp .. => .isTrue trivial
  | .verifyRecoveryCode .. => .isTrue trivial

theorem singleUse_iff_remembered : SingleUse checkpw s e ↔ Remembered checkpw s e := by
  simp only [SingleUse, mem_accepted_iff]
  cases e with
  | resume t deleted =>
    constructor
    · intro h f hf hused
      by_contra hrem
      exact h f ⟨t, deleted, rfl, hf, hrem⟩ hused
    · rintro h f ⟨t', _, heq, hf, hrem⟩ hused
      obtain ⟨rfl, -⟩ := Event.resume.inj heq
      exact hrem (h f hf hused)
  | load worker => exact ⟨fun _ => trivial, fun _ _ ⟨_, _, h, _⟩ => nomatch h⟩
  | write worker => exact ⟨fun _ => trivial, fun _ _ ⟨_, _, h, _⟩ => nomatch h⟩
  | verifyTotp t token => exact ⟨fun _ => trivial, fun _ _ ⟨_, _, h, _⟩ => nomatch h⟩
  | verifyRecoveryCode t site code =>
    exact ⟨fun _ => trivial, fun _ _ ⟨_, _, h, _⟩ => nomatch h⟩

/-! ## One call at a time -/

/-- An event of a UI whose workers have one thread, which makes no other assignments to `DATA`. -/
def Event.OneThread : Event → Prop
  | .load _ => True
  | .write _ => False
  | .verifyTotp t _ => t.2 = 0
  | .verifyRecoveryCode t _ _ => t.2 = 0
  | .resume t _ => t.2 = 0

instance : DecidablePred Event.OneThread
  | .load _ => .isTrue trivial
  | .write _ => .isFalse id
  | .verifyTotp t _ => inferInstanceAs (Decidable (t.2 = 0))
  | .verifyRecoveryCode t _ _ => inferInstanceAs (Decidable (t.2 = 0))
  | .resume t _ => inferInstanceAs (Decidable (t.2 = 0))

/-- A worker has the key only if the file has it or is about to get it, and has no counter in its
memory when it writes the file or checks a token. -/
structure WorkerForgets (file mem : Slot) (pc : Pc) : Prop where
  key : mem ≠ none → file ≠ none ∨ ∃ c, pc = .writeFile c
  written : ∀ c, pc = .writeFile c → mem = some none
  checked : ∀ token, pc = .verify token → mem.join = none

/-- No counter in the file, and workers that forget. -/
structure Forgets (s : State) : Prop where
  file : s.file.join = none
  workers : ∀ w, WorkerForgets s.file (s.mem w) (s.pc (w, 0))

theorem forgets_start (codes : List Text) : Forgets (.start codes) where
  file := rfl
  workers _ := ⟨fun h => absurd rfl h, fun _ h => (nomatch h), fun _ h => (nomatch h)⟩

/-- An event of one worker. -/
theorem Forgets.update (h : Forgets s) (w : Nat) (hfile : s'.file.join = none)
    (hkey : s.file ≠ none → s'.file ≠ none) (hmem : ∀ w', w' ≠ w → s'.mem w' = s.mem w')
    (hpc : ∀ w', w' ≠ w → s'.pc (w', 0) = s.pc (w', 0))
    (hw : WorkerForgets s'.file (s'.mem w) (s'.pc (w, 0))) : Forgets s' where
  file := hfile
  workers w' := by
    by_cases hne : w' = w
    · rw [hne]
      exact hw
    · rw [hmem w' hne, hpc w' hne]
      exact
        { h.workers w' with key := fun hm => ((h.workers w').key hm).imp_left hkey }

/-- After `load_from_file`, a worker has what the file has. -/
theorem Forgets.load_eq (h : Forgets s) {w : Nat} (hpc : ∀ c, s.pc (w, 0) ≠ .writeFile c) :
    s.file.or (s.mem w) = s.file := by
  cases hfile : s.file with
  | some slot => rfl
  | none =>
    by_contra hne
    obtain hkey | ⟨c, hc⟩ := (h.workers w).key (by simpa using hne)
    · exact hkey hfile
    · exact hpc c hc

/-- A thread that goes on without a change of the file or the memory. -/
theorem Forgets.goto (h : Forgets s) {w : Nat} {pc : Pc} (hwas : ∀ c, s.pc (w, 0) ≠ .writeFile c)
    (hwrite : ∀ c, pc ≠ .writeFile c) (hverify : ∀ token, pc ≠ .verify token) :
    Forgets (s.goto (w, 0) pc) := by
  refine h.update w h.file id (fun _ _ => rfl) (fun w' hne => ?_) ?_
  · exact Function.update_of_ne (by simpa using hne) _ _
  · simp only [State.goto, Function.update_self]
    refine ⟨fun hm => .inl ?_, fun c hc => absurd hc (hwrite c),
      fun token htoken => absurd htoken (hverify token)⟩
    obtain hkey | ⟨c, hc⟩ := (h.workers w).key hm
    · exact hkey
    · exact absurd hc (hwas c)

/-- The same after `load_from_file`. -/
theorem Forgets.loadGoto (h : Forgets s) {w : Nat} {pc : Pc}
    (hwas : ∀ c, s.pc (w, 0) ≠ .writeFile c) (hwrite : ∀ c, pc ≠ .writeFile c) :
    Forgets ((s.load w).goto (w, 0) pc) := by
  refine h.update w h.file id (fun w' hne => ?_) (fun w' hne => ?_) ?_
  · exact Function.update_of_ne hne _ _
  · exact Function.update_of_ne (by simpa using hne) _ _
  · simp only [State.goto, State.load, Function.update_self, h.load_eq hwas]
    exact ⟨.inl, fun c hc => absurd hc (hwrite c), fun _ _ => h.file⟩

theorem forgets_resume (h : Forgets s) (w : Nat) (deleted : Bool) :
    Forgets (resume checkpw s (w, 0) deleted) := by
  unfold resume
  cases hpc : s.pc (w, 0) with
  | idle => exact h
  | getCounter token => exact h.loadGoto (by simp [hpc]) (by simp)
  | verify token =>
    dsimp only
    split
    · exact h.goto (by simp [hpc]) (by simp) (by simp)
    · have huse : Forgets (s.use (.counter ‹Nat›)) := ⟨h.file, h.workers⟩
      exact huse.goto (by simp [State.use, hpc]) (by simp) (by simp)
  | setCounter c => exact h.loadGoto (by simp [hpc]) (by simp)
  | testKey c =>
    dsimp only
    split
    · refine h.update w h.file id (fun w' hne => ?_) (fun w' hne => ?_) ?_
      · exact Function.update_of_ne hne _ _
      · exact Function.update_of_ne (by simpa using hne) _ _
      · simp only [State.goto, State.put, Function.update_self]
        exact ⟨fun _ => .inr ⟨c, rfl⟩, fun _ _ => rfl, fun _ h => (nomatch h)⟩
    · exact h.goto (by simp [hpc]) (by simp) (by simp)
  | writeFile c =>
    have hmem := (h.workers w).written c hpc
    refine h.update w ?_ ?_ (fun _ _ => rfl) (fun w' hne => ?_) ?_
    · simp [State.goto, State.write, hmem]
    · simp [State.goto, State.write, hmem]
    · exact Function.update_of_ne (by simpa using hne) _ _
    · simp only [State.goto, State.write, Function.update_self, hmem]
      exact ⟨.inl, fun _ h => (nomatch h), fun _ h => (nomatch h)⟩
  | putCounter c =>
    dsimp only
    split
    · exact h.goto (by simp [hpc]) (by simp) (by simp)
    · rename_i hmem
      refine h.update w h.file id (fun w' hne => ?_) (fun w' hne => ?_) ?_
      · exact Function.update_of_ne hne _ _
      · exact Function.update_of_ne (by simpa using hne) _ _
      · simp only [State.goto, State.put, Function.update_self]
        refine ⟨fun _ => .inl ?_, fun _ h => (nomatch h), fun _ h => (nomatch h)⟩
        obtain hkey | ⟨c', hc'⟩ := (h.workers w).key hmem
        · exact hkey
        · exact nomatch hpc.symm.trans hc'
  | checkCode site code codes =>
    dsimp only
    split
    · exact h.goto (by simp [hpc]) (by simp) (by simp)
    · cases site with
      | totpPage =>
        have huse : Forgets (s.use (.code ‹Text›)) := ⟨h.file, h.workers⟩
        exact huse.goto (by simp [State.use, hpc]) (by simp) (by simp)
      | profile => exact h.goto (by simp [hpc]) (by simp) (by simp)
  | useCode hashed =>
    cases deleted with
    | false => exact h.goto (by simp [hpc]) (by simp) (by simp)
    | true =>
      have herase : Forgets { s with codes := s.codes.erase hashed } := ⟨h.file, h.workers⟩
      exact herase.goto (by simp [hpc]) (by simp) (by simp)

/-- With one call at a time, no counter comes into the file or survives in a memory. -/
theorem forgets_step (h : Forgets s) (he : e.OneThread) : Forgets (step checkpw s e) := by
  cases e with
  | load w =>
    refine h.update w h.file id (fun w' hne => ?_) (fun _ _ => rfl) ?_
    · exact Function.update_of_ne hne _ _
    · have hw := h.workers w
      simp only [step, State.load, Function.update_self]
      cases hfile : s.file with
      | none =>
        rw [hfile] at hw
        exact hw
      | some slot =>
        have hslot : slot = none := by simpa [hfile] using h.file
        rw [hslot]
        exact ⟨fun _ => .inl (by simp), fun _ _ => rfl, fun _ _ => rfl⟩
  | write w => exact he.elim
  | verifyTotp t token =>
    obtain ⟨w, n⟩ := t
    obtain rfl : n = 0 := he
    rw [step]
    split
    · rename_i hidle
      exact h.goto (by simp [hidle]) (by simp) (by simp)
    · exact h
  | verifyRecoveryCode t site code =>
    obtain ⟨w, n⟩ := t
    obtain rfl : n = 0 := he
    rw [step]
    split
    · rename_i hidle
      exact h.goto (by simp [hidle]) (by simp) (by simp)
    · exact h
  | resume t deleted =>
    obtain ⟨w, n⟩ := t
    obtain rfl : n = 0 := he
    exact forgets_resume checkpw h w deleted

/-- A worker that forgets remembers no factor that it checks. -/
theorem not_remembers (h : Forgets s) {f : Factor} (ht : t.2 = 0)
    (hf : f ∈ presented checkpw s t) : ¬ Remembers s t f := by
  obtain ⟨w, n⟩ := t
  obtain rfl : n = 0 := ht
  cases f with
  | code hashed => exact id
  | counter c =>
    unfold presented at hf
    split at hf
    · rename_i hpc
      have hlast : s.lastCounter w = none := (h.workers w).checked _ hpc
      rintro ⟨last, hmem, -⟩
      rw [hlast] at hmem
      cases hmem
    · simp at hf
    · cases hf

theorem firstUse_of_remembered (h : Forgets s) (he : e.OneThread)
    (hrem : Remembered checkpw s e) : FirstUse checkpw s e := by
  cases e with
  | resume t deleted =>
    exact fun f hf hused => not_remembers checkpw h he hf (hrem f hf hused)
  | load w => trivial
  | write w => trivial
  | verifyTotp t token => trivial
  | verifyRecoveryCode t site code => trivial

theorem remembered_of_firstUse (hfirst : FirstUse checkpw s e) : Remembered checkpw s e := by
  cases e with
  | resume t deleted => exact fun f hf hused => absurd hused (hfirst f hf)
  | load w => trivial
  | write w => trivial
  | verifyTotp t token => trivial
  | verifyRecoveryCode t site code => trivial

/-! ## Runs -/

/-- Factors are single use exactly when used ones are remembered; with one call at a time in every
worker, exactly when nobody presents a used one. -/
theorem single_use_iff (codes : List Text) (es : List Event) :
    (Meets (step checkpw) (SingleUse checkpw) (.start codes) es ↔
      Meets (step checkpw) (Remembered checkpw) (.start codes) es) ∧
    ((∀ e ∈ es, e.OneThread) →
      (Meets (step checkpw) (SingleUse checkpw) (.start codes) es ↔
        Meets (step checkpw) (FirstUse checkpw) (.start codes) es)) := by
  have hrem : Meets (step checkpw) (SingleUse checkpw) (.start codes) es ↔
      Meets (step checkpw) (Remembered checkpw) (.start codes) es :=
    ⟨Meets.mono fun _ _ => (singleUse_iff_remembered checkpw).mp,
      Meets.mono fun _ _ => (singleUse_iff_remembered checkpw).mpr⟩
  refine ⟨hrem, fun hone => hrem.trans ⟨fun h => ?_, ?_⟩⟩
  · have hboth : Meets (step checkpw) (fun s e => e.OneThread ∧ Remembered checkpw s e)
        (.start codes) es := (meets_of_forall hone).and h
    exact hboth.of_invariant (fun s e hs he => forgets_step checkpw hs he.1)
      (fun s e hs he => firstUse_of_remembered checkpw hs he.1 he.2) (forgets_start codes)
  · exact Meets.mono fun _ _ => remembered_of_firstUse checkpw

/-! ## Two tokens -/

instance (s : State) (e : Event) : Decidable (SingleUse checkpw s e) :=
  inferInstanceAs (Decidable (∀ f ∈ accepted checkpw s e, f ∉ s.used))

/-- A whole `verify_totp` of a token of counter `c` in the only thread of a worker. -/
def totpCall (worker c : Nat) : List Event :=
  .verifyTotp (worker, 0) (some c) :: List.replicate 6 (.resume (worker, 0) true)

/-- The next call, after a counter was set, reads the file again. -/
theorem token_accepted_twice :
    ¬ Meets (step fun _ _ => false) (SingleUse fun _ _ => false) (.start [])
      (totpCall 0 59000000 ++ totpCall 0 59000000) := by
  decide +kernel

theorem single_use_iff_two_tokens :
    Meets (step fun _ _ => false) (SingleUse fun _ _ => false) (.start [])
      (totpCall 0 59000000 ++ totpCall 1 59000001) :=
  ((single_use_iff (fun _ _ => false) [] (totpCall 0 59000000 ++ totpCall 1 59000001)).2
    (by decide)).mpr (by decide +kernel)

end BunkerWeb.Ui.SecondFactor
