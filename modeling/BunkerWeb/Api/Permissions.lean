import BunkerWeb.Api.Routes

/-!
# What a request needs

`auth/biscuit.py` reads the type of the resource, the permission and the id of the resource off the
path and the method. The functions here follow the ones there, case by case.
-/

namespace BunkerWeb.Api

/-- A verb of `PERM_VERB_BY_METHOD`. -/
inductive Verb where
  | read
  | create
  | update
  | delete
deriving DecidableEq

def Verb.text : Verb → Text
  | .read => "read".toList
  | .create => "create".toList
  | .update => "update".toList
  | .delete => "delete".toList

def OPTIONS : Text := "OPTIONS".toList
def PUT : Text := "PUT".toList

/-- `PERM_VERB_BY_METHOD.get` -/
def permVerbByMethod (method : Text) : Option Verb :=
  if method = GET ∨ method = OPTIONS then some .read
  else if method = POST then some .create
  else if method = PUT ∨ method = PATCH then some .update
  else if method = DELETE then some .delete
  else none

/-- A type of resource and the permission it takes, if there is one. -/
abbrev Required := Text × Option Text

/-- `_resolve_bans` -/
def resolveBans (p method : Text) : Required :=
  let verb : Option Text :=
    match permVerbByMethod method with
    | some .read => some "ban_read".toList
    | some .update => some "ban_update".toList
    | some .delete => some "ban_delete".toList
    | some .create => some "ban_created".toList
    | none => none
  ("bans".toList,
    if p = "/bans".toList then
      if method = GET then some "ban_read".toList
      else if method = POST then some "ban_created".toList
      else if method = DELETE then some "ban_delete".toList
      else verb
    else if p = "/bans/ban".toList ∧ method = POST then some "ban_created".toList
    else if p = "/bans/unban".toList ∧ method = POST then some "ban_delete".toList
    else verb)

/-- The path of an action on one instance. -/
def instanceAction (p : Text) (actions : List Text) : Bool :=
  match segments p with
  | [first, _, action] => first = "instances".toList && action ∈ actions
  | _ => false

/-- `_resolve_instances` -/
def resolveInstances (p method : Text) : Required :=
  ("instances".toList,
    if (method = GET ∨ method = OPTIONS) ∧ (p = "/instances/health".toList ∨
        p = "/instances/ping".toList ∨ instanceAction p ["ping".toList]) then
      some "instances_read".toList
    else if method = POST ∧ (p ∈ ["/instances/reload".toList, "/reload".toList,
        "/instances/stop".toList, "/stop".toList] ∨
        instanceAction p ["reload".toList, "stop".toList]) then
      some "instances_execute".toList
    else (permVerbByMethod method).map fun verb => "instances_".toList ++ verb.text)

/-- `_resolve_global_settings` -/
def resolveGlobalSettings (method : Text) : Required :=
  ("global_settings".toList,
    match permVerbByMethod method with
    | some .read => some "global_settings_read".toList
    | some .create | some .update => some "global_settings_update".toList
    | some .delete | none => none)

/-- `len(parts) == 2 and parts[0] == name` -/
def oneBelow (name p : Text) : Bool := (segments p).length = 2 && (segments p).head? = some name

/-- `_resolve_services` -/
def resolveServices (p method : Text) : Required :=
  let services := "services".toList
  (services,
    if p = "/services/convert".toList ∧ method = POST then some "service_convert".toList
    else if p = "/services/export".toList ∧ (method = GET ∨ method = OPTIONS) then
      some "service_export".toList
    else if (method = GET ∨ method = OPTIONS) ∧ (p = "/services".toList ∨ oneBelow services p) then
      some "service_read".toList
    else if method = POST ∧ p = "/services".toList then some "service_create".toList
    else if (method = PUT ∨ method = PATCH) ∧ oneBelow services p then
      some "service_update".toList
    else if method = DELETE ∧ oneBelow services p then some "service_delete".toList
    else (permVerbByMethod method).map fun verb => "service_".toList ++ verb.text)

/-- `len(parts) >= n and parts[0] == name` -/
def below (n : Nat) (name p : Text) : Bool :=
  n ≤ (segments p).length && (segments p).head? = some name

/-- `_resolve_configs` -/
def resolveConfigs (p method : Text) : Required :=
  let configs := "configs".toList
  (configs,
    if (method = GET ∨ method = OPTIONS) ∧ p = "/configs".toList then some "configs_read".toList
    else if (method = GET ∨ method = OPTIONS) ∧ below 2 configs p then some "config_read".toList
    else if method = POST ∧ (p = "/configs".toList ∨ p = "/configs/upload".toList) then
      some "config_create".toList
    else if (method = PUT ∨ method = PATCH) ∧ below 2 configs p then some "config_update".toList
    else if method = DELETE ∧ below 1 configs p then some "config_delete".toList
    else (permVerbByMethod method).map fun verb => "config_".toList ++ verb.text)

/-- `_resolve_plugins` -/
def resolvePlugins (p method : Text) : Required :=
  let plugins := "plugins".toList
  (plugins,
    if (method = GET ∨ method = OPTIONS) ∧ (p = "/plugins".toList ∨ oneBelow plugins p) then
      some "plugin_read".toList
    else if method = POST ∧ p = "/plugins/upload".toList then some "plugin_create".toList
    else if method = DELETE ∧ oneBelow plugins p then some "plugin_delete".toList
    else match permVerbByMethod method with
      | some .read => some "plugin_read".toList
      | some .create | some .update => some "plugin_create".toList
      | some .delete => some "plugin_delete".toList
      | none => none)

/-- `_resolve_cache` -/
def resolveCache (method : Text) : Required :=
  ("cache".toList,
    if method = GET ∨ method = OPTIONS then some "cache_read".toList
    else if method = DELETE then some "cache_delete".toList
    else none)

/-- `_resolve_jobs` -/
def resolveJobs (p method : Text) : Required :=
  ("jobs".toList,
    if (method = GET ∨ method = OPTIONS) ∧ (p = "/jobs".toList ∨ p = "/jobs/errors".toList) then
      some "job_read".toList
    else if method = POST ∧ p = "/jobs/run".toList then some "job_run".toList
    else match permVerbByMethod method with
      | some .read => some "job_read".toList
      | _ => none)

/-- A path behind a separator, as the functions below first make it. -/
def rooted (path : Text) : Text := if "/".toList <+: path then path else '/' :: path

/-- `_resolve_resource_and_perm` -/
def resolveResourceAndPerm [Casing] (path method : Text) : Option Text × Option Text :=
  let p := match (rooted path).rdropWhile (· = '/') with
    | [] => "/".toList
    | p => p
  match segments p with
  | [] => (none, none)
  | part :: _ =>
    let first := Casing.lower part
    let method := Casing.upper method
    let required : Required :=
      if first = "bans".toList ∨ "/bans".toList <+: p then resolveBans p method
      else if first ∈ ["instances".toList, "reload".toList, "stop".toList] then
        resolveInstances p method
      else if first ∈ ["global_settings".toList, "global_config".toList] then
        resolveGlobalSettings method
      else if first = "services".toList then resolveServices p method
      else if first = "configs".toList then resolveConfigs p method
      else if first = "plugins".toList then resolvePlugins p method
      else if first = "jobs".toList then resolveJobs p method
      else if first = "cache".toList then resolveCache method
      else (first, (permVerbByMethod method).map fun verb => first ++ '_' :: verb.text)
    (some required.1, required.2)

/-- The first segments of paths without an id. -/
def withoutId : List Text :=
  ["reload".toList, "stop".toList, "ban".toList, "unban".toList, "bans".toList,
    "global_settings".toList, "global-settings".toList]

/-- The second segments that are actions, behind these first ones. -/
def actions : List (List Text × List Text) :=
  [(["services".toList], ["convert".toList, "export".toList]),
    (["configs".toList, "plugins".toList], ["upload".toList]),
    (["jobs".toList], ["run".toList, "errors".toList]),
    (["instances".toList], ["ping".toList, "reload".toList, "stop".toList])]

/-- `_extract_resource_id` -/
def extractResourceId (path : Text) (rtype : Option Text) : Option Text :=
  if rtype.getD [] = [] then none
  else match segments (rooted path) with
    | [] => none
    | [_] => none
    | first :: second :: _ =>
      if first ∈ withoutId then none
      else if actions.any fun a => first ∈ a.1 && second ∈ a.2 then none
      else some second

end BunkerWeb.Api
