import BunkerWeb.Lib.Run
import Mathlib.Data.List.MinMax
import Mathlib.Logic.Function.Basic

/-!
# Sessions of the web UI (`ui/main.py`, `ui/app/routes`)

A session lives in the store of the server under the value of its cookie. `login` adds it and
puts the number that the database gives it (`mark_ui_user_login`) into it. Revoked numbers go to
`DATA["REVOKED_SESSIONS"]`, a part of a JSON file that every request reads first
(`before_request`).

* A number is a Python integer, a key of a JSON object is a string (`Scalar`).
* `State.log` is a history variable: the numbers that were put in `REVOKED_SESSIONS`, with the time.
  `Content.ended` is another: a password change of the user, or a wipe asked for by another session,
  was to end the session.
* A request whose session the store has dropped is a request without session. The new cookie value
  that a session gets from time to time is not modelled. Times are microseconds.
-/

namespace BunkerWeb.Ui

abbrev Text := List Char

/-! ## `REVOKED_SESSIONS` -/

/-- A value that Python compares with a key. -/
inductive Scalar where
  | int (n : Nat)
  | str (t : Text)
  deriving DecidableEq

/-- `REVOKED_SESSIONS` in the file: missing, the legacy `list[str]`, or numbers with a time. -/
inductive Revoked where
  | missing
  | legacy (ids : List Text)
  | dict (entries : List (Text × Nat))
  deriving DecidableEq

/-- What `in` compares with. -/
def Revoked.keys : Revoked → List Scalar
  | .missing => []
  | .legacy ids => ids.map .str
  | .dict entries => entries.map fun e => .str e.1

def Revoked.entries : Revoked → List (Text × Nat)
  | .missing => []
  | .legacy _ => []
  | .dict entries => entries

/-- `SESSION_ABSOLUTE_SECONDS` and `PERMANENT_SESSION_LIFETIME`. -/
structure Config where
  absoluteSeconds : Nat
  permanentSeconds : Nat

def REVOKED_SESSION_TTL_FALLBACK_SECONDS : Nat := 30 * 24 * 3600

/-- `_revoked_session_ttl_seconds`. -/
def Config.revokedSessionTtlSeconds (cfg : Config) : Nat :=
  let ttl := max cfg.absoluteSeconds cfg.permanentSeconds
  if ttl > 0 then ttl else REVOKED_SESSION_TTL_FALLBACK_SECONDS

def second : Nat := 1000000

/-- The maximum session lifetime. -/
def Config.ttl (cfg : Config) : Nat := cfg.revokedSessionTtlSeconds * second

/-- `prune_revoked_sessions`. -/
def pruneRevokedSessions (cfg : Config) (now : Nat) : Revoked → List (Text × Nat)
  | .missing => []
  | .legacy ids => (ids.filter (· ≠ [])).map fun sid => (sid, now)
  | .dict entries => entries.filter fun e => now - e.2 < cfg.ttl

/-- `str` of a number. -/
def str (n : Nat) : Text := (toString n).toList

/-- `d[key] = value`. -/
def setKey (key : Text) (value : Nat) (d : List (Text × Nat)) : List (Text × Nat) :=
  d.filter (fun e => e.1 ≠ key) ++ [(key, value)]

/-- `add_revoked_sessions`. -/
def addRevokedSessions (cfg : Config) (now : Nat) (revoked : Revoked) (ids : List Nat) : Revoked :=
  .dict ((ids.filter (· ≠ 0)).foldl (fun d sid => setKey (str sid) now d)
    (pruneRevokedSessions cfg now revoked))

/-! ## State -/

/-- What the store has of a session. -/
structure Content where
  user : Text
  /-- `session_id`, unless `mark_ui_user_login` failed. -/
  sessionId : Option Nat
  creationDate : Nat
  ended : Bool
  deriving DecidableEq

/-- A row of `bw_ui_user_sessions`. -/
structure Row where
  id : Nat
  userName : Text
  creationDate : Nat
  deriving DecidableEq

structure State where
  revoked : Revoked
  store : Text → Option Content
  rows : List Row
  log : List (Nat × Nat)

/-- No session yet, and what the file has of earlier times. -/
def State.start (revoked : Revoked) : State := ⟨revoked, fun _ => none, [], []⟩

/-! ## Requests -/

/-- What the tests of `before_request` on the second factor, the address and the user agent say. -/
inductive Check where
  | passed
  | toTotp
  | failed
  deriving DecidableEq

/-- A request for a view. `ok` says that the database can be written, the form is complete and the
passwords are right. -/
inductive Action where
  | page
  | logout
  | login (user : Text) (ok : Bool) (cookie : Text) (marked : Option Nat)
  | editPassword (ok deleted : Bool)
  | wipeOldSessions (ok deleted : Bool)
  deriving DecidableEq

structure Request where
  now : Nat
  /-- The session cookie. -/
  cookie : Option Text
  check : Check
  action : Action
  deriving DecidableEq

inductive Response where
  | loginPage
  | loggedIn
  | loggedOut
  | expired
  | toTotp
  /-- 403, with whether the list of revoked sessions was the reason. -/
  | refused (revoked : Bool)
  /-- The view ran for the user of the session. -/
  | served
  deriving DecidableEq

variable (cfg : Config)

/-- `DATA["REVOKED_SESSIONS"] = add_revoked_sessions(…)`. -/
def State.revoke (s : State) (now : Nat) (ids : List Nat) : State :=
  { s with
    revoked := addRevokedSessions cfg now s.revoked ids
    log := s.log ++ (ids.filter (· ≠ 0)).map fun sid => (sid, now) }

/-- `session.clear()`. -/
def State.clear (s : State) (cookie : Text) : State :=
  { s with store := Function.update s.store cookie none }

/-- `logout_page` for a user. -/
def logoutPage (s : State) (now : Nat) (cookie : Text) (c : Content) : State :=
  match c.sessionId with
  | some id => (s.revoke cfg now [id]).clear cookie
  | none => s.clear cookie

/-- The numbers of `get_ui_user_sessions` other than the one of the session. -/
def State.otherIds (s : State) (c : Content) : List Nat :=
  ((s.rows.filter fun r => r.userName = c.user).map Row.id).filter fun id => some id ≠ c.sessionId

/-- `delete_ui_user_old_sessions`: the newest row of the user stays. -/
def deleteOldSessions (user : Text) (rows : List Row) : List Row :=
  rows.filter (fun r => r.userName ≠ user) ++
    ((rows.filter fun r => r.userName = user).argmax Row.creationDate).toList

/-- The history variable of the sessions that `p` names. -/
def State.markEnded (s : State) (p : Text → Content → Bool) : State :=
  { s with
    store := fun cookie => (s.store cookie).map fun c => { c with ended := c.ended || p cookie c } }

/-- The revocation of the other sessions, which `edit_profile` and `wipe_old_sessions` share. -/
def State.revokeOthers (s : State) (now : Nat) (c : Content) (deleted : Bool) : State :=
  let s' := s.revoke cfg now (s.otherIds c)
  if deleted then { s' with rows := deleteOldSessions c.user s'.rows } else s'

/-- A view, for the user of the session. -/
def view (s : State) (now : Nat) (cookie : Text) (c : Content) : Action → Response × State
  | .page => (.served, s)
  | .logout => (.loggedOut, logoutPage cfg s now cookie c)
  | .login .. => (.served, s)
  | .editPassword ok deleted =>
    (.served,
      if ok then (s.revokeOthers cfg now c deleted).markEnded fun _ c' => c'.user = c.user else s)
  | .wipeOldSessions ok deleted =>
    (.served,
      if ok then
        (s.revokeOthers cfg now c deleted).markEnded fun cookie' c' =>
          c'.user = c.user && cookie' ≠ cookie
      else s)

/-- A request without a user: `login_page`, or the redirect to it. -/
def anonymous (s : State) (now : Nat) : Action → Response × State
  | .login user ok cookie marked =>
    if ok then
      (.loggedIn,
        { s with
          store := Function.update s.store cookie (some ⟨user, marked, now, false⟩)
          rows := s.rows ++ (marked.map fun id => ⟨id, user, now⟩).toList })
    else (.loginPage, s)
  | _ => (.loginPage, s)

/-- `session["session_id"] in DATA.get("REVOKED_SESSIONS", [])`. -/
def Revoked.has (revoked : Revoked) (id : Nat) : Bool := .int id ∈ revoked.keys

/-- The absolute lifetime in `_enforce_session_lifetime`. -/
def Config.overAge (now : Nat) (c : Content) : Bool :=
  cfg.absoluteSeconds > 0 && now - c.creationDate > cfg.absoluteSeconds * second

/-- `before_request` with a user, then the view. -/
def withUser (s : State) (i : Request) (cookie : Text) (c : Content) : Response × State :=
  if cfg.overAge i.now c then (.expired, s.clear cookie)
  else
    match i.check with
    | .toTotp => (.toTotp, s)
    | .failed => (.refused false, logoutPage cfg s i.now cookie c)
    | .passed =>
      if c.sessionId.any s.revoked.has then (.refused true, logoutPage cfg s i.now cookie c)
      else view cfg s i.now cookie c i.action

/-- A request. -/
def respond (s : State) (i : Request) : Response × State :=
  match i.cookie with
  | none => anonymous s i.now i.action
  | some cookie =>
    match s.store cookie with
    | none => anonymous s i.now i.action
    | some c => withUser cfg s i cookie c

/-- The state after a request. -/
def step (s : State) (i : Request) : State := (respond cfg s i).2

end BunkerWeb.Ui
