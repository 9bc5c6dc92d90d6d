import BunkerWeb.Lib.Fields
import BunkerWeb.Lib.PathPattern
import BunkerWeb.Text

/-!
# The endpoints of the API and how a request finds them

- **Configuration** (`ApiConfig`, `docsUrl` and its likes): the settings that move the application
  below a root path and name the documentation pages.
- **Routes** (`protectedRoutes`): the endpoints that depend on the guard, in the order in which the
  routers are included.
- **Routing** (`routePath`, `endpoint`): the framework removes the root path where a segment ends,
  and serves its documentation pages before any router.
-/

namespace BunkerWeb.Api

open Lib

/-- A text, as its characters. -/
abbrev Text := List Char

/-- `str.lower` and `str.upper`; their tables for all of Unicode are not modelled. -/
class Casing where
  lower : Text → Text
  upper : Text → Text

/-- The casing of texts in ASCII. -/
@[reducible] def asciiCasing : Casing := ⟨List.map Char.toLower, List.map Char.toUpper⟩

/-! ## Configuration -/

/-- The settings about paths, as they are given. -/
structure ApiConfig where
  apiRootPath : Option Text
  apiDocsUrl : Option Text
  apiRedocUrl : Option Text
  apiOpenapiUrl : Option Text

/-- The defaults. -/
def ApiConfig.default : ApiConfig :=
  ⟨none, some "/docs".toList, some "/redoc".toList, some "/openapi.json".toList⟩

/-- The texts that switch a URL off. -/
def offWords : List Text :=
  ["".toList, "no".toList, "none".toList, "disabled".toList, "off".toList, "false".toList,
    "0".toList]

/-- `_maybe_url` -/
def maybeUrl [Casing] (value default : Option Text) : Option Text :=
  match value with
  | none => default
  | some v => if Casing.lower (stripChars v) ∈ offWords then none else some v

/-- `docs_url` -/
def ApiConfig.docsUrl [Casing] (cfg : ApiConfig) : Option Text :=
  maybeUrl cfg.apiDocsUrl (some "/docs".toList)

/-- `redoc_url` -/
def ApiConfig.redocUrl [Casing] (cfg : ApiConfig) : Option Text :=
  maybeUrl cfg.apiRedocUrl (some "/redoc".toList)

/-- `openapi_url` -/
def ApiConfig.openapiUrl [Casing] (cfg : ApiConfig) : Option Text :=
  maybeUrl cfg.apiOpenapiUrl (some "/openapi.json".toList)

/-! ## Routes -/

/-- A route: its method and the pattern of its path. -/
structure Route where
  method : Text
  pattern : List (Place Char)
deriving DecidableEq

def GET : Text := "GET".toList
def POST : Text := "POST".toList
def PATCH : Text := "PATCH".toList
def DELETE : Text := "DELETE".toList
def HEAD : Text := "HEAD".toList

/-- A fixed segment. -/
def seg (s : String) : Place Char := .lit s.toList

/-- `routers/instances.py` -/
def instancesRoutes : List Route :=
  [⟨GET, [seg "instances", seg "ping"]⟩,
    ⟨POST, [seg "instances", seg "reload"]⟩,
    ⟨POST, [seg "instances", seg "stop"]⟩,
    ⟨GET, [seg "instances", .param, seg "ping"]⟩,
    ⟨POST, [seg "instances", .param, seg "reload"]⟩,
    ⟨POST, [seg "instances", .param, seg "stop"]⟩,
    ⟨GET, [seg "instances"]⟩,
    ⟨POST, [seg "instances"]⟩,
    ⟨GET, [seg "instances", .param]⟩,
    ⟨PATCH, [seg "instances", .param]⟩,
    ⟨DELETE, [seg "instances", .param]⟩,
    ⟨DELETE, [seg "instances"]⟩]

/-- `routers/bans.py` -/
def bansRoutes : List Route :=
  [⟨GET, [seg "bans"]⟩,
    ⟨POST, [seg "bans"]⟩,
    ⟨POST, [seg "bans", seg "ban"]⟩,
    ⟨DELETE, [seg "bans"]⟩,
    ⟨POST, [seg "bans", seg "unban"]⟩]

/-- `routers/global_settings.py`, under both of its prefixes. -/
def globalSettingsRoutes : List Route :=
  [⟨GET, [seg "global_settings"]⟩,
    ⟨PATCH, [seg "global_settings"]⟩,
    ⟨GET, [seg "global_config"]⟩,
    ⟨PATCH, [seg "global_config"]⟩]

/-- `routers/services.py` -/
def servicesRoutes : List Route :=
  [⟨GET, [seg "services"]⟩,
    ⟨GET, [seg "services", .param]⟩,
    ⟨POST, [seg "services"]⟩,
    ⟨PATCH, [seg "services", .param]⟩,
    ⟨DELETE, [seg "services", .param]⟩,
    ⟨POST, [seg "services", .param, seg "convert"]⟩]

/-- `routers/configs.py` -/
def configsRoutes : List Route :=
  [⟨GET, [seg "configs"]⟩,
    ⟨POST, [seg "configs", seg "upload"]⟩,
    ⟨GET, [seg "configs", .param, .param, .param]⟩,
    ⟨POST, [seg "configs"]⟩,
    ⟨PATCH, [seg "configs", .param, .param, .param]⟩,
    ⟨PATCH, [seg "configs", .param, .param, .param, seg "upload"]⟩,
    ⟨DELETE, [seg "configs"]⟩,
    ⟨DELETE, [seg "configs", .param, .param, .param]⟩]

/-- `routers/plugins.py` -/
def pluginsRoutes : List Route :=
  [⟨GET, [seg "plugins"]⟩,
    ⟨DELETE, [seg "plugins", .param]⟩,
    ⟨POST, [seg "plugins", seg "upload"]⟩]

/-- `routers/cache.py` -/
def cacheRoutes : List Route :=
  [⟨GET, [seg "cache"]⟩,
    ⟨GET, [seg "cache", .param, .param, .param, .param]⟩,
    ⟨DELETE, [seg "cache"]⟩,
    ⟨DELETE, [seg "cache", .param, .param, .param, .param]⟩]

/-- `routers/jobs.py` -/
def jobsRoutes : List Route :=
  [⟨GET, [seg "jobs"]⟩,
    ⟨POST, [seg "jobs", seg "run"]⟩]

/-- The routes with the guard among their dependencies, as `routers/core.py` includes them. -/
def protectedRoutes : List Route :=
  instancesRoutes ++ bansRoutes ++ globalSettingsRoutes ++ servicesRoutes ++ configsRoutes ++
    pluginsRoutes ++ cacheRoutes ++ jobsRoutes

/-! ## Routing -/

/-- The path is one of the route. -/
def Route.accepts (r : Route) (path : Text) : Bool := Pattern.accepts '/' r.pattern path

/-- The framework's path for routing: the root path is removed where a segment ends. -/
def routePath (root path : Text) : Text :=
  if root = [] ∨ ¬ root <+: path then path
  else match path.drop root.length with
    | [] => []
    | c :: rest => if c = '/' then c :: rest else path

/-- The documentation pages that the framework registers. -/
def documentation [Casing] (cfg : ApiConfig) : List Text :=
  match cfg.openapiUrl with
  | none => []
  | some openapi =>
    [openapi] ++
      (match cfg.docsUrl with
        | some docs => [docs, "/docs/oauth2-redirect".toList]
        | none => []) ++
      cfg.redocUrl.toList

section

-- How the framework reads the URL of a page as a pattern; the settings may hold any text.
variable [Casing] (answers : Text → Text → Bool)

/-- A documentation page takes the request. -/
def pageTakes (cfg : ApiConfig) (method path : Text) : Bool :=
  (method = GET || method = HEAD) && (documentation cfg).any fun url => answers url path

/-- The protected endpoint that a request is routed to. -/
def endpoint (cfg : ApiConfig) (method path : Text) : Option Route :=
  let path := routePath (cfg.apiRootPath.getD []) path
  if pageTakes answers cfg method path then none
  else protectedRoutes.find? fun r => r.method = method && r.accepts path

end

/-- `[seg for seg in path.split("/") if seg]` -/
def segments (path : Text) : List Text := fields (· = '/') path

/-- The id in a path of the route: the segment at its first parameter, behind the router's. -/
def Route.pathId (r : Route) (path : Text) : Option Text :=
  match r.pattern with
  | _ :: .param :: _ => (segments path)[1]?
  | _ => none

end BunkerWeb.Api
