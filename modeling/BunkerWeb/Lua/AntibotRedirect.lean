import BunkerWeb.Lua.Antibot
import Mathlib.Data.List.Infix

/-!
# Where the antibot sends a client (`core/antibot/antibot.lua`)

`BunkerWeb.Lua.Antibot` leaves the paths of redirects out. Here are `is_safe_relative_path`, which
each text that becomes a redirect goes through, and the functions that choose such a text:
`get_original_uri`, `get_success_uri` and `resolve_redirect_target`.

`accessRedirect` and `contentRedirect` follow `access` and `content`. `original` is
`session_data.original_uri`, the one entry of the record that `Record` does not have.
-/

namespace BunkerWeb.Lua.Antibot

/-! ## Texts -/

/-- `[%z\\1-\\31\\127]`. -/
def isControl (c : Char) : Bool := c.toNat < 32 || c.toNat == 127

/-- `p:match("^[^?]+") or p`. -/
def pathOnly (p : Text) : Text :=
  if p.takeWhile (· ≠ '?') = [] then p else p.takeWhile (· ≠ '?')

def isSafeRelativePath (p : Option Text) (antibotUri : Text) : Option Text :=
  match p with
  | none => none
  | some p =>
    if p = [] then none
    else if p.take 1 ≠ "/".toList then none
    else if p.take 2 = "//".toList ∨ p.take 2 = "/\\".toList then none
    else if "://".toList <:+: p then none
    else if p.any isControl then none
    else if pathOnly p = antibotUri then none
    else some p

def staticExtensions : List Text :=
  ["avif", "css", "gif", "ico", "jpeg", "jpg", "js", "map", "mjs", "otf", "png", "svg", "ttf",
    "webm", "webp", "woff", "woff2"].map String.toList

/-- `path:match("%.([%w]+)$")`. -/
def extension (path : Text) : Option Text :=
  let ext := path.reverse.takeWhile Char.isAlphanum
  if ext ≠ [] ∧ (path.reverse.dropWhile Char.isAlphanum).head? = some '.' then some ext.reverse
  else none

def isStaticLike (uri : Text) : Bool :=
  if uri = [] then false
  else if pathOnly uri = "/favicon.ico".toList then true
  else
    match extension (pathOnly uri) with
    | none => false
    | some ext => staticExtensions.contains (ext.map Char.toLower)

def normalizeHost (host : Option Text) : Option Text :=
  (host.map fun host => host.takeWhile (· ≠ ':')).filter (· ≠ [])

/-- `referer:match("^https?://([^/]+)(/.*)$")`. -/
def splitReferer (referer : Text) : Option (Text × Text) :=
  let rest :=
    if "http://".toList <+: referer then some (referer.drop 7)
    else if "https://".toList <+: referer then some (referer.drop 8)
    else none
  rest.bind fun rest =>
    if rest.takeWhile (· ≠ '/') ≠ [] ∧ rest.dropWhile (· ≠ '/') ≠ [] then
      some (rest.takeWhile (· ≠ '/'), rest.dropWhile (· ≠ '/'))
    else none

/-! ## What a redirect depends on -/

/-- The texts that come with a request or from the settings, and whether nginx chose the location
of the challenge. Arguments that are not texts are `none`. -/
structure Links where
  /-- `ANTIBOT_SUCCESS_URI`. -/
  successUri : Option Text
  requestUri : Option Text
  referer : Option Text
  /-- `http_host`, or else `server_name`. -/
  host : Option Text
  /-- The argument `next` of the request. -/
  nextArg : Option Text
  /-- The argument `next` of the form. -/
  postedNext : Option Text
  inLocation : Bool

def getRefererPath (x : Links) : Option Text :=
  match x.referer with
  | none => none
  | some referer =>
    if referer = [] then none
    else if referer.take 1 = "/".toList then some referer
    else
      match splitReferer referer with
      | none => none
      | some (host, path) =>
        match normalizeHost x.host, normalizeHost (some host) with
        | some current, some refererHost => if current = refererHost then some path else none
        | _, _ => none

def getOriginalUri (i : Request) (x : Links) : Text :=
  let antibotUri := i.service.antibotUri
  let requestUri := x.requestUri.getD "/".toList
  if i.uri = antibotUri then (isSafeRelativePath x.nextArg antibotUri).getD "/".toList
  else if !isStaticLike i.uri then
    (isSafeRelativePath (some requestUri) antibotUri).getD "/".toList
  else
    match getRefererPath x with
    | none => "/".toList
    | some path =>
      if !isStaticLike path then (isSafeRelativePath (some path) antibotUri).getD "/".toList
      else "/".toList

def getSuccessUri (x : Links) (antibotUri : Text) : Option Text :=
  isSafeRelativePath (x.successUri.filter (· ≠ [])) antibotUri

/-- `resolve_redirect_target`. -/
def resolveRedirectTarget (x : Links) (antibotUri : Text) (original : Option Text) : Text :=
  match getSuccessUri x antibotUri with
  | some forced => forced
  | none =>
    let sessionFull := isSafeRelativePath original antibotUri
    match (isSafeRelativePath x.postedNext antibotUri).map pathOnly with
    | some posted =>
      match sessionFull with
      | some full => if pathOnly full = posted then full else posted
      | none => posted
    | none => sessionFull.getD "/".toList

/-- The target of `access` for a client that already resolved the challenge. -/
def resolvedTarget (x : Links) (antibotUri : Text) (original : Option Text) : Text :=
  match getSuccessUri x antibotUri with
  | some forced => forced
  | none => (isSafeRelativePath original antibotUri).getD "/".toList

/-- The target of `access` for a client that has to solve a challenge. -/
def challengeTarget (escapeUri : Text → Text) (i : Request) (x : Links) : Text :=
  match (isSafeRelativePath (some (getOriginalUri i x)) i.service.antibotUri).map pathOnly with
  | none => i.service.antibotUri
  | some next =>
    if next ≠ "/".toList then i.service.antibotUri ++ "?next=".toList ++ escapeUri next
    else i.service.antibotUri

/-! ## Redirects -/

/-- Why a client is redirected, and what its record has as the path to return to. -/
inductive Redirect where
  | toChallenge
  | alreadyResolved (original : Option Text)
  | solved (original : Option Text)
  /-- The redirect of `content`, of a client that has resolved the challenge or not. -/
  | home (resolved : Bool)
  deriving DecidableEq

def Redirect.target (escapeUri : Text → Text) (i : Request) (x : Links) : Redirect → Text
  | .toChallenge => challengeTarget escapeUri i x
  | .alreadyResolved original => resolvedTarget x i.service.antibotUri original
  | .solved original => resolveRedirectTarget x i.service.antibotUri original
  | .home _ => "/".toList

/-- The client has resolved the challenge. -/
def Redirect.resolved : Redirect → Bool
  | .toChallenge => false
  | .alreadyResolved _ => true
  | .solved _ => true
  | .home resolved => resolved

/-- `original_uri` after `check_session`. -/
def checkOriginal (service : Service) (now : Nat) (data : Record) (original : Option Text) :
    Option Text :=
  if data.timeResolve.isNone && data.timeValid.isNone then none
  else if data.resolved then
    if data.timeValid.any (service.expired now) then none else original
  else if data.timeResolve.any fun t => t > now || now - t > 1000 * service.timeResolve then none
  else original

/-- `original_uri` after `prepare_challenge`. -/
def prepareOriginal (i : Request) (x : Links) (data : Record) (original : Option Text) :
    Option Text :=
  if data.prepared then original
  else if i.uri ≠ i.service.antibotUri ∧ i.service.useAntibot ≠ .cookie ∧ i.isNavigation = false
  then original
  else some (getOriginalUri i x)

section

variable (sha256Hex : Text → Text)

/-- The redirect of `access` after `check_session`. -/
def afterCheckRedirect (i : Request) (x : Links) (w : Work) (original : Option Text) :
    Option Redirect :=
  if w.data.resolved then
    if i.uri = i.service.antibotUri then some (.alreadyResolved original) else none
  else
    let original := prepareOriginal i x w.data original
    let w := prepareChallenge i i.draw w
    if i.uri ≠ i.service.antibotUri then some .toChallenge
    else if w.data.resolved then some (.alreadyResolved original)
    else if i.method = "POST".toList then
      match checkChallenge sha256Hex i w with
      | (.resolved, _) => some (.solved original)
      | _ => none
    else none

/-- The record that `access` starts from. -/
def opened (i : Request) (s : Session) : Option Work :=
  if i.service.useAntibot = .no then none
  else if i.ignored then none
  else
    match i.opening with
    | .failed => none
    | .created => some ⟨.empty, true⟩
    | .opened => some ⟨s.data, false⟩

/-- The redirect of `access`, for a session with this path to return to. -/
def accessRedirect (i : Request) (x : Links) (s : Session) (original : Option Text) :
    Option Redirect :=
  (opened i s).bind fun w =>
    let original := if i.opening = .created then none else original
    (checkSession i.service i.now w).bind fun w' =>
      afterCheckRedirect sha256Hex i x w' (checkOriginal i.service i.now w.data original)

/-- The redirect of `content`, which nginx runs in the location of the challenge for a request
that `access` neither redirected nor ended. -/
def contentRedirect (i : Request) (x : Links) (s : Session) : Option Redirect :=
  if !x.inLocation || i.service.useAntibot = .no then none
  else
    match opened i s with
    | none => some (.home false)
    | some w =>
      let r := withSession sha256Hex i w
      match r.answer with
      | .display => if r.work.data.prepared then none else some (.home r.work.data.resolved)
      | .checkError => none
      | .unsupportedMethod => none
      | _ => some (.home r.work.data.resolved)

/-- The redirect that answers a request. -/
def redirect (i : Request) (x : Links) (s : Session) (original : Option Text) : Option Redirect :=
  (accessRedirect sha256Hex i x s original).or (contentRedirect sha256Hex i x s)

end

end BunkerWeb.Lua.Antibot
