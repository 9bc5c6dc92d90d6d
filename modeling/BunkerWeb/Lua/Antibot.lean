import BunkerWeb.Lib.Run

/-!
# The antibot challenge (`core/antibot/antibot.lua`)

`access` reads the `antibot` record of the client's session, drops it when it is too old for the
service (`check_session`), lets the request pass when the record is resolved, and otherwise prepares
a challenge (`prepare_challenge`), sends the client to it, displays it or checks the answer
(`check_challenge`). Times are milliseconds, the two settings of the service are seconds.

* `Session.data` is the record in the session that the client carries. It is replaced when the
  record was set and the session could be saved.
* `Session.solved` is a history variable: type and time of each challenge of the session that
  `check_challenge` found solved.
* The digest of the javascript challenge, the random values and the answers of the verification
  services are parameters. The path to which a client returns afterwards is left out.
-/

namespace BunkerWeb.Lua.Antibot

abbrev Text := List Char

/-! ## Data -/

/-- The values of `USE_ANTIBOT`. -/
inductive UseAntibot where
  | no
  | cookie
  | javascript
  | captcha
  | recaptcha
  | hcaptcha
  | turnstile
  | mcaptcha
  | capjs
  deriving DecidableEq

/-- The settings of a service. -/
structure Service where
  useAntibot : UseAntibot
  antibotUri : Text
  timeResolve : Nat
  timeValid : Nat

/-- The table `session_data`, without the path to return to. -/
structure Record where
  prepared : Bool
  resolved : Bool
  type : Option UseAntibot
  timeResolve : Option Nat
  timeValid : Option Nat
  random : Option Text
  captcha : Option Text
  deriving DecidableEq

/-- `{}`. -/
def Record.empty : Record := ⟨false, false, none, none, none, none, none⟩

/-- A session of a client. -/
structure Session where
  data : Record
  solved : List (UseAntibot × Nat)
  deriving DecidableEq

def Session.new : Session := ⟨.empty, []⟩

/-- The result of `get_session`: no session, a new one, or the one that the client carries. -/
inductive Opening where
  | failed
  | created
  | opened
  deriving DecidableEq

/-- Random values of a challenge. -/
structure Draw where
  random : Text
  captcha : Text

/-- The arguments of a POST. `first` is `first_value` of an argument. -/
structure PostArgs where
  truncated : Bool
  first : Text → Option Text

/-- A request, with what its environment answers while it is handled. -/
structure Request where
  service : Service
  now : Nat
  /-- A cached or fresh check of the ignore lists says so. -/
  ignored : Bool
  opening : Opening
  uri : Text
  method : Text
  isNavigation : Bool
  post : PostArgs
  /-- The verification service: no usable answer, or its verdict. -/
  siteverify : Option Bool
  draw : Draw
  redraw : Draw
  /-- `save_session` succeeds. -/
  saved : Bool

/-- What `access` returns. -/
inductive Answer where
  | notActivated
  | ignored
  | noSession
  | alreadyResolved
  | toChallenge
  | checkRedirect
  | display
  | checkError
  | unsupportedMethod
  /-- A runtime error of the method. -/
  | raised
  deriving DecidableEq

/-- The record in memory, and `sessions_updated`. -/
structure Work where
  data : Record
  updated : Bool

/-- `set_session_data`. -/
def setSessionData (data : Record) : Work := ⟨data, true⟩

/-! ## Methods -/

/-- The test of a resolved record in `check_session`, for a record resolved at `t`. -/
def Service.expired (service : Service) (now t : Nat) : Bool :=
  t > now || now - t > 1000 * service.timeValid

/-- `check_session`. `none` is arithmetic on a missing time. -/
def checkSession (service : Service) (now : Nat) (w : Work) : Option Work :=
  if w.data.timeResolve.isNone && w.data.timeValid.isNone then some (setSessionData .empty)
  else if w.data.resolved then
    w.data.timeValid.map fun t =>
      if service.expired now t then setSessionData .empty else w
  else
    w.data.timeResolve.map fun t =>
      if t > now || now - t > 1000 * service.timeResolve then setSessionData .empty else w

/-- `prepare_challenge`. -/
def prepareChallenge (i : Request) (draw : Draw) (w : Work) : Work :=
  if w.data.prepared then w
  else if i.uri ≠ i.service.antibotUri ∧ i.service.useAntibot ≠ .cookie ∧ i.isNavigation = false
  then w
  else
    let type := i.service.useAntibot
    setSessionData
      { w.data with
        prepared := true
        timeResolve := some i.now
        type := some type
        resolved := type = .cookie
        timeValid := if type = .cookie then some i.now else w.data.timeValid
        random := if type = .javascript then some draw.random else w.data.random
        captcha := if type = .captcha then some draw.captcha else w.data.captcha }

/-- What `check_challenge` returns first: `nil`, `false`, `true`, or a runtime error. -/
inductive Verdict where
  | error
  | wrong
  | resolved
  | raised
  deriving DecidableEq

/-- An argument of the answer. -/
def Request.arg (i : Request) (name : String) : Option Text :=
  if i.post.truncated then none else i.post.first name.toList

/-- The end of a solved challenge. -/
def resolve (now : Nat) (data : Record) : Verdict × Work :=
  (.resolved, setSessionData { data with resolved := true, timeValid := some now })

/-- The types whose answer is a token for a verification service. -/
def checkToken (i : Request) (name : String) (w : Work) : Verdict × Work :=
  match i.arg name, i.siteverify with
  | none, _ => (.wrong, w)
  | some _, none => (.error, w)
  | some _, some false => (.wrong, w)
  | some _, some true => resolve i.now w.data

variable (sha256Hex : Text → Text)

/-- `check_challenge`. -/
def checkChallenge (i : Request) (w : Work) : Verdict × Work :=
  if w.data.prepared = false then (.error, w)
  else
    let w : Work := { w with data := { w.data with prepared := false } }
    match w.data.type with
    | some .javascript =>
      match i.arg "challenge", w.data.random with
      | none, _ => (.wrong, w)
      | some _, none => (.raised, w)
      | some challenge, some random =>
        if "0000".toList.isPrefixOf (sha256Hex (random ++ challenge)) then resolve i.now w.data
        else (.wrong, w)
    | some .captcha =>
      match i.arg "captcha", w.data.captcha with
      | none, _ => (.wrong, w)
      | some _, none => (.raised, w)
      | some answer, some captcha =>
        if captcha ≠ answer then (.wrong, w) else resolve i.now w.data
    | some .recaptcha => checkToken i "token" w
    | some .hcaptcha => checkToken i "token" w
    | some .turnstile => checkToken i "token" w
    | some .mcaptcha => checkToken i "mcaptcha__token" w
    | some .capjs => checkToken i "token" w
    | some .no => (.error, w)
    | some .cookie => (.error, w)
    | none => (.error, w)

/-- What `access` leaves: its answer, the record, and the type of a challenge found solved. -/
structure Reply where
  answer : Answer
  work : Work
  solved : Option UseAntibot

/-- The POST case of `access`. -/
def postChallenge (i : Request) (w : Work) : Reply :=
  match checkChallenge sha256Hex i w with
  | (.error, w') => ⟨.checkError, w', none⟩
  | (.raised, w') => ⟨.raised, w', none⟩
  | (.resolved, w') => ⟨.checkRedirect, w', w'.data.type⟩
  | (.wrong, w') => ⟨.display, prepareChallenge i i.redraw w', none⟩

/-- `access` after `check_session`. -/
def afterCheck (i : Request) (w : Work) : Reply :=
  if w.data.resolved then ⟨.alreadyResolved, w, none⟩
  else
    let w := prepareChallenge i i.draw w
    if i.uri ≠ i.service.antibotUri then ⟨.toChallenge, w, none⟩
    else if w.data.resolved then ⟨.alreadyResolved, w, none⟩
    else if i.method = "GET".toList then ⟨.display, w, none⟩
    else if i.method = "POST".toList then postChallenge sha256Hex i w
    else ⟨.unsupportedMethod, w, none⟩

/-- `access` once it has a session. -/
def withSession (i : Request) (w : Work) : Reply :=
  match checkSession i.service i.now w with
  | none => ⟨.raised, w, none⟩
  | some w' => afterCheck sha256Hex i w'

/-- The log of a session after a reply. -/
def Reply.log (r : Reply) (now : Nat) : List (UseAntibot × Nat) :=
  (r.solved.map fun type => (type, now)).toList

/-- `access`, and the session that the client carries after the phase. -/
def access (i : Request) (s : Session) : Answer × Session :=
  if i.service.useAntibot = .no then (.notActivated, s)
  else if i.ignored then (.ignored, s)
  else
    match i.opening with
    | .failed => (.noSession, s)
    | .created =>
      let r := withSession sha256Hex i ⟨.empty, true⟩
      (r.answer, if i.saved then ⟨r.work.data, r.log i.now⟩ else s)
    | .opened =>
      let r := withSession sha256Hex i ⟨s.data, false⟩
      (r.answer,
        { data := if r.work.updated && i.saved then r.work.data else s.data
          solved := s.solved ++ r.log i.now })

/-- The session after a request. -/
def step (s : Session) (i : Request) : Session := (access sha256Hex i s).2

end BunkerWeb.Lua.Antibot
