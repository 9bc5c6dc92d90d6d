import BunkerWeb.Lib.Stages
import BunkerWeb.Lua.BadBehavior

/-!
# The access phase (`confs/server-http/access-lua.conf`)

The plugins of the order are called one after the other until one returns a status or a redirect.
Each core plugin with an `access()` method first tests whether it is needed for the service; what it
does when it is (`active`) and what plugins from outside do (`others`) is arbitrary here.
`letsencrypt`, `securitytxt` and `robotstxt`, whose answer depends on the URI, are followed to the
end.
-/

namespace BunkerWeb.Lua.Access

open Lib
open BadBehavior (SecurityMode)

abbrev Text := List Char

/-! ## Settings of a service -/

/-- The settings that the tests read. -/
inductive Setting where
  | useAntibot
  | useAuthBasic
  | useBlacklist
  | useGreylist
  | useWhitelist
  | useBunkernet
  | useCors
  | useCrowdsec
  | useDnsbl
  | useLimitReq
  | useLimitReqGlobal
  | useMtls
  | useReverseScan
  | useRobotstxt
  | useSecuritytxt
  | securitytxtUri
  | autoLetsEncrypt
  | letsEncryptPassthrough
  | redirectHttpToHttps
  | autoRedirectHttpToHttps
  | whitelistCountry
  | blacklistCountry
  deriving DecidableEq

def yes : Text := "yes".toList
def no : Text := "no".toList

/-- The name of the server for requests of no service. -/
def defaultServer : Text := ['_']

/-- The service of a request. The default server has a configuration without this phase. -/
structure Site where
  serverName : Text
  isLoading : Bool
  vars : Setting → Text
  hasVariable : Setting → Bool
  isService : serverName ≠ defaultServer

/-- `is_needed`, in a phase of a request, for a plugin with these activation settings. -/
def Site.isNeeded (site : Site) (settings : List Setting) : Bool :=
  if site.isLoading then false
  else if site.serverName ≠ defaultServer then settings.any fun s => site.vars s = yes
  else settings.any site.hasVariable

/-! ## Requests and answers of plugins -/

/-- What the plugins below read of a request. -/
structure Request where
  uri : Text
  scheme : Text
  httpsConfigured : Text
  requestUri : Option Text
  httpHost : Option Text

def OK : Nat := 0
def HTTP_MOVED_PERMANENTLY : Nat := 301

/-- `plugin:ret`, without the data for reports. -/
structure Ret where
  ret : Bool
  msg : String
  status : Option Nat
  redirect : Option Text

/-- An answer that says nothing. -/
def success (msg : String) : Ret := ⟨true, msg, none, none⟩

/-- The core plugins with an `access()` method. -/
inductive CorePlugin where
  | ssl
  | whitelist
  | letsencrypt
  | blacklist
  | greylist
  | country
  | dnsbl
  | crowdsec
  | bunkernet
  | reversescan
  | limit
  | authbasic
  | mtls
  | misc
  | cors
  | securitytxt
  | robotstxt
  | antibot
  deriving DecidableEq

/-- A plugin of an order. -/
inductive Id where
  | core (p : CorePlugin)
  | other (name : Text)
  deriving DecidableEq

/-- A request of a service, and what the phase finds around it. `σ` is the context of the request,
which plugins may change. An answer `none` is a call that failed. -/
structure Phase (σ : Type*) where
  site : Site
  request : Request
  isInternal : Bool
  securityMode : SecurityMode
  denyStatus : Nat
  isWhitelisted : σ → Bool
  isBanned : σ → Bool
  active : CorePlugin → σ → σ × Option Ret
  others : Text → Option (σ → σ × Option Ret)

variable {σ : Type*} (ph : Phase σ)

/-! ## The `access()` methods -/

/-- A method that goes on only when its test says so. -/
def gate (needed : Bool) (msg : String) (p : CorePlugin) (ctx : σ) : σ × Option Ret :=
  if needed then ph.active p ctx else (ctx, some (success msg))

/-- `ssl:access` -/
def sslAccess (ctx : σ) : σ × Option Ret :=
  let vars := ph.site.vars
  if ph.request.scheme = "http".toList ∧
      ((ph.request.httpsConfigured = yes ∧ vars .autoRedirectHttpToHttps = yes) ∨
        vars .redirectHttpToHttps = yes) then
    match ph.request.httpHost, ph.request.requestUri with
    | some host, some uri =>
      (ctx, some ⟨true, "redirect to HTTPS", some HTTP_MOVED_PERMANENTLY,
        some ("https://".toList ++ host ++ uri)⟩)
    | _, _ => (ctx, some (success "no redirect to HTTPS needed"))
  else (ctx, some (success "no redirect to HTTPS needed"))

/-- The paths of challenges. -/
def acmeChallenge : Text := "/.well-known/acme-challenge/".toList

/-- `letsencrypt:access` -/
def letsencryptAccess (ctx : σ) : σ × Option Ret :=
  if ph.site.vars .letsEncryptPassthrough = no ∧ acmeChallenge <+: ph.request.uri then
    (ctx, some ⟨true, "visit from LE", some OK, none⟩)
  else (ctx, some (success "success"))

/-- `country:access` -/
def countryAccess (ctx : σ) : σ × Option Ret :=
  gate ph (¬ (ph.site.vars .whitelistCountry = [] ∧ ph.site.vars .blacklistCountry = []))
    "country not activated" .country ctx

/-- `limit:access` -/
def limitAccess (ctx : σ) : σ × Option Ret :=
  if ph.isWhitelisted ctx then (ctx, some (success "client is whitelisted"))
  else gate ph (ph.site.isNeeded [.useLimitReq, .useLimitReqGlobal]) "limit request not enabled"
    .limit ctx

/-- `securitytxt:access` -/
def securitytxtAccess (ctx : σ) : σ × Option Ret :=
  if ph.request.uri ≠ ph.site.vars .securitytxtUri ∧
      ph.request.uri ≠ "/security.txt".toList then
    (ctx, some (success "success"))
  else (ctx, some ⟨true, "security.txt requested", some OK, none⟩)

/-- `robotstxt:access` -/
def robotstxtAccess (ctx : σ) : σ × Option Ret :=
  if ph.request.uri = "/robots.txt".toList ∧ ph.site.isNeeded [.useRobotstxt] = true then
    (ctx, some ⟨true, "served robots.txt", some OK, none⟩)
  else (ctx, some (success "success"))

/-- The `access()` method of a core plugin. -/
def coreAccess : CorePlugin → σ → σ × Option Ret
  | .ssl => sslAccess ph
  | .whitelist => gate ph (ph.site.isNeeded [.useWhitelist]) "whitelist not activated" .whitelist
  | .letsencrypt => letsencryptAccess ph
  | .blacklist => gate ph (ph.site.isNeeded [.useBlacklist]) "access not needed" .blacklist
  | .greylist => gate ph (ph.site.isNeeded [.useGreylist]) "access not needed" .greylist
  | .country => countryAccess ph
  | .dnsbl => gate ph (ph.site.vars .useDnsbl = yes) "dnsbl not activated" .dnsbl
  | .crowdsec =>
    gate ph (ph.site.vars .useCrowdsec = yes) "CrowdSec plugin not enabled" .crowdsec
  | .bunkernet =>
    gate ph (ph.site.isNeeded [.useBunkernet])
      "service doesn't use BunkerNet, skipping access" .bunkernet
  | .reversescan =>
    gate ph (ph.site.vars .useReverseScan = yes) "reverse scan not activated" .reversescan
  | .limit => limitAccess ph
  | .authbasic => gate ph (ph.site.isNeeded [.useAuthBasic]) "auth basic disabled" .authbasic
  | .mtls => gate ph (ph.site.isNeeded [.useMtls]) "mTLS not enabled" .mtls
  | .misc => ph.active .misc
  | .cors => gate ph (ph.site.vars .useCors = yes) "service doesn't use CORS" .cors
  | .securitytxt => securitytxtAccess ph
  | .robotstxt => robotstxtAccess ph
  | .antibot =>
    gate ph (ph.site.vars .useAntibot ≠ no) "antibot not activated" .antibot

/-! ## The loop -/

/-- What the loop ends with. -/
structure Stop where
  status : Option Nat
  redirect : Option Text
  deriving DecidableEq

/-- One turn of the loop, on the answer of a plugin. -/
def turn (mode : SecurityMode) : Option Ret → Option Stop
  | none => none
  | some r =>
    match r.status, r.redirect with
    | some status, none =>
      match mode with
      | .detect => some ⟨none, none⟩
      | .block => some ⟨some status, none⟩
    | status, some url => some ⟨status, some url⟩
    | none, none => none

/-- The call of a plugin, if it is there and has the method. -/
def call (id : Id) : Option (σ → σ × Option Stop) :=
  let access := match id with
    | .core p => some (coreAccess ph p)
    | .other name => ph.others name
  access.map fun f ctx => ((f ctx).1, turn ph.securityMode (f ctx).2)

/-- The answer to the request. A status may come with the location of a redirect. -/
inductive Answer where
  | pass
  | exit (status : Nat) (location : Option Text)
  | redirect (location : Text)
  deriving DecidableEq

/-- The end of the phase. -/
def answer : Option Stop → Answer
  | some ⟨some status, location⟩ => .exit status location
  | some ⟨none, some location⟩ => .redirect location
  | some ⟨none, none⟩ | none => .pass

/-- The answer, and the plugins that were called. -/
structure Report where
  answer : Answer
  ran : List Id

/-- The access phase of a request. -/
def accessPhase (order : List Id) (ctx : σ) : Report :=
  if ph.isInternal then ⟨.pass, []⟩
  else if !ph.isWhitelisted ctx && ph.isBanned ctx then
    ⟨.exit (if ph.securityMode = .block then ph.denyStatus else OK) none, []⟩
  else
    let o := Stages.run (call ph) order ctx
    ⟨answer o.stop, o.ran⟩

end BunkerWeb.Lua.Access
