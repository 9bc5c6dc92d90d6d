import BunkerWeb.Lib.Datalog
import BunkerWeb.Lib.Fields
import BunkerWeb.Text
import Mathlib.Data.List.DropRight

/-!
# The Biscuit middleware of the UI (`ui/app/models/biscuit.py`)

- **Operation** (`resolveOperation`): `read` or `write`, from the method, the endpoint, the rule and
  the end of the path.
- **Token** (`createTokenForRole`): the facts about a login and the permissions of the role.
- **Middleware** (`checkAuthorization`): the skip test, then the checks about the version and the
  address, then the policies. A user whose session lost the token gets a new one.

What Flask makes of a request is a parameter: the endpoint and the rule, with the paths that the
rule takes (`Route`), whoever registered it.
-/

namespace BunkerWeb.Ui.Biscuit

open Lib Datalog

abbrev Text := List Char

/-! ## Operations -/

def read : Text := "read".toList
def write : Text := "write".toList

def GET : Text := "GET".toList
def HEAD : Text := "HEAD".toList
def OPTIONS : Text := "OPTIONS".toList
def POST : Text := "POST".toList

/-- `OPERATIONS.get(method, "read")` -/
def operations (method : Text) : Text :=
  if method = GET then read else if method = POST then write else read

def READ_ONLY_POST_ENDPOINTS : List Text :=
  ["bans.bans_fetch".toList, "reports.reports_fetch".toList, "reports.reports_filters".toList,
    "reports.report_data_fetch".toList]

def READ_ONLY_POST_RULES : List Text :=
  ["/bans/fetch".toList, "/reports/fetch".toList, "/reports/filters".toList,
    "/reports/data".toList]

def READ_ONLY_POST_PATH_SUFFIXES : List Text :=
  ["/bans/fetch".toList, "/reports/fetch".toList, "/reports/filters".toList,
    "/reports/data".toList]

/-- `_normalize_path` -/
def normalizePath (path : Text) : Text := '/' :: ['/'].intercalate (fields (· = '/') path)

/-- `_normalize_path(path).rstrip("/")` -/
def normalized (path : Text) : Text := (normalizePath path).rdropWhile (· = '/')

/-- The rule, or the empty text without one. -/
def normalizedRule : Option Text → Text
  | none | some [] => []
  | some rule => normalized rule

/-- The path ends like one of the listed views. -/
def endsReadOnly (path : Text) : Bool :=
  READ_ONLY_POST_PATH_SUFFIXES.any fun suffix => suffix.isSuffixOf (normalized path)

def resolveOperation (method path : Text) (endpoint rule : Option Text) : Text :=
  if method = POST ∧ ∃ e ∈ endpoint, e ∈ READ_ONLY_POST_ENDPOINTS then read
  else if method = POST ∧ normalizedRule rule ∈ READ_ONLY_POST_RULES then read
  else if method = POST ∧ endsReadOnly path then read
  else operations method

/-! ## Requests -/

/-- An endpoint and its rule, with the paths that the rule takes. -/
structure Route where
  endpoint : Text
  rule : Text
  accepts : Text → Bool
  /-- Rules begin with a slash. -/
  nonempty : rule ≠ []

/-- A request. Without a route it ends in 404 or 405. -/
structure Request where
  method : Text
  path : Text
  route : Option Route
  remoteAddr : Text
  isPrivate : Bool
  host : Text
  routed : ∀ r ∈ route, r.accepts path = true

def STATIC_PATH_PREFIXES : List Text :=
  ["/css/".toList, "/img/".toList, "/js/".toList, "/json/".toList, "/fonts/".toList,
    "/libs/".toList, "/locales/".toList]

/-- The test in front of everything else. -/
def skips (path : Text) : Bool :=
  (STATIC_PATH_PREFIXES ++ ["/logout".toList]).any fun start => start.isPrefixOf path

/-! ## Facts -/

inductive Value where
  | str (s : Text)
  | date (seconds : Nat)
  | array (elems : List Text)
deriving DecidableEq

instance : Inhabited Value := ⟨.array []⟩

inductive Pred where
  | user
  | time
  | clientIp
  | domain
  | version
  | role
  | resource
  | operation
deriving DecidableEq

inductive Var where
  | resourcePath
  | roleName
  | permissions
  | operationName
deriving DecidableEq

abbrev Token := List (Fact Pred Value)

/-! ## Tokens -/

inductive Role where
  | superAdmin
  | admin
  | writer
  | reader
deriving DecidableEq

def Role.name : Role → Text
  | .superAdmin => "super_admin".toList
  | .admin => "admin".toList
  | .writer => "writer".toList
  | .reader => "reader".toList

/-- The permissions of `_apply_core_role_permissions`. -/
def Role.permissions : Role → List Text
  | .superAdmin => [read, write]
  | .admin => [read, write]
  | .writer => [read, write]
  | .reader => [read]

/-- What a token says about the request that got it. -/
structure Login where
  user : Text
  time : Nat
  clientIp : Text
  host : Text
  version : Text

/-- `create_token_for_role` -/
def createTokenForRole (role : Role) (login : Login) : Token :=
  [⟨.user, [.str login.user]⟩, ⟨.time, [.date login.time]⟩, ⟨.clientIp, [.str login.clientIp]⟩,
    ⟨.domain, [.str (login.host.take 255)]⟩, ⟨.version, [.str login.version]⟩,
    ⟨.role, [.str role.name, .array role.permissions]⟩]

/-! ## Middleware -/

structure Server where
  version : Text
  checkPrivateIp : Bool

/-- `check if version("...")` -/
def versionCheck (server : Server) : Query Pred Var Value :=
  ⟨[⟨.version, [.const (.str server.version)]⟩], [], by simp⟩

/-- `check if client_ip({client_ip})` -/
def clientIpCheck (clientIp : Text) : Query Pred Var Value :=
  ⟨[⟨.clientIp, [.const (.str clientIp)]⟩], [], by simp⟩

/-- The checks of the first phase. -/
def checks (server : Server) (i : Request) : List (Query Pred Var Value) :=
  [versionCheck server] ++
    if server.checkPrivateIp || !i.isPrivate then [clientIpCheck i.remoteAddr] else []

/-- `allow if resource($resource_path)` with a test on it. -/
def resourcePolicy (passes : Text → Bool) : Policy Pred Var Value where
  effect := .allow
  query :=
    { body := [⟨.resource, [.var .resourcePath]⟩]
      tests := [⟨[.resourcePath], fun
        | [.str resource] => passes resource
        | _ => false⟩]
      safe := by simp }

/-- `allow if role($role_name, $permissions), operation($operation_name),
$permissions.contains($operation_name)` -/
def rolePolicy : Policy Pred Var Value where
  effect := .allow
  query :=
    { body := [⟨.role, [.var .roleName, .var .permissions]⟩, ⟨.operation, [.var .operationName]⟩]
      tests := [⟨[.permissions, .operationName], fun
        | [.array elems, .str operation] => operation ∈ elems
        | _ => false⟩]
      safe := by simp }

def policies : List (Policy Pred Var Value) :=
  [resourcePolicy fun resource => "/profile".toList.isPrefixOf resource,
    resourcePolicy fun resource => resource = "/set_theme".toList,
    resourcePolicy fun resource => resource = "/set_language".toList,
    resourcePolicy fun resource => resource = "/set_columns_preferences".toList,
    resourcePolicy fun resource => resource = "/clear_notifications".toList,
    rolePolicy]

/-- `route_rule or request.path` -/
def Request.resource (i : Request) : Text :=
  ((i.route.map Route.rule).filter (· ≠ [])).getD i.path

def Request.operation (i : Request) : Text :=
  resolveOperation i.method i.path (i.route.map Route.endpoint) (i.route.map Route.rule)

/-- The facts that the middleware adds. -/
def Request.facts (i : Request) : Token :=
  [⟨.resource, [.str i.resource]⟩, ⟨.operation, [.str i.operation]⟩]

/-- What the middleware answers. -/
inductive Outcome where
  | skipped
  | anonymous
  | authorized
  | toLogout
  | loggedOut
  | unauthorized
deriving DecidableEq

/-- The request goes on to its view. -/
def Outcome.letsIn : Outcome → Bool
  | .skipped => true
  | .anonymous => true
  | .authorized => true
  | _ => false

/-- The two phases for a token. -/
def authorizeToken (server : Server) (i : Request) (token : Token) : Outcome :=
  if ∀ check ∈ checks server i, check.Holds token then
    if authorize (token ++ i.facts) policies then .authorized else .unauthorized
  else .toLogout

/-- `_check_authorization`, for the user of the session and the token in it. `keyFile` says that a
new token can be signed. -/
def checkAuthorization (server : Server) (now : Nat) (keyFile : Bool) (user : Option (Text × Role))
    (token : Option Token) (i : Request) : Outcome :=
  if skips i.path then .skipped
  else
    match token with
    | some token => authorizeToken server i token
    | none =>
      match user with
      | none => .anonymous
      | some (name, role) =>
        if keyFile then
          authorizeToken server i
            (createTokenForRole role ⟨name, now, i.remoteAddr, i.host, server.version⟩)
        else .loggedOut

end BunkerWeb.Ui.Biscuit
