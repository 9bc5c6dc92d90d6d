import BunkerWeb.Ui.Biscuit
import BunkerWeb.Lib.PathPattern

/-!
# What a reader may ask for

- **Operation** (`operation_eq_read_iff`): everything reads except for a POST whose endpoint and rule
  are not listed and whose path does not end like a listed one.
- **Policies** (`policies_iff`): an exempted page, or an operation that the role has.
- **A visit of a reader** (`letsIn_visit_iff`): skipped, or with a current token one of the two.
- **Result** (`reader_guarded_iff`): the requests for which the middleware keeps a reader to reading,
  with an operation that the parameters in the path do not change.
-/

namespace BunkerWeb.Ui.Biscuit

open Lib Datalog

variable {server : Server} {role : Role} {login : Login} {i : Request} {r : Route}

/-! ## Operations -/

theorem read_ne_write : read ≠ write := by decide

theorem operations_eq_read_iff {method : Text} : operations method = read ↔ method ≠ POST := by
  by_cases hpost : method = POST
  · rw [hpost]
    exact iff_of_false (by decide) (by simp)
  · refine iff_of_true ?_ hpost
    unfold operations
    split
    · rfl
    · rfl

theorem operation_eq_read_iff {method path : Text} {endpoint rule : Option Text} :
    resolveOperation method path endpoint rule = read ↔
      method ≠ POST ∨ (∃ e ∈ endpoint, e ∈ READ_ONLY_POST_ENDPOINTS) ∨
        normalizedRule rule ∈ READ_ONLY_POST_RULES ∨ endsReadOnly path = true := by
  unfold resolveOperation
  split
  · exact iff_of_true rfl (.inr (.inl ‹_ ∧ _›.2))
  · rename_i hendpoint
    split
    · exact iff_of_true rfl (.inr (.inr (.inl ‹_ ∧ _›.2)))
    · rename_i hrule
      split
      · exact iff_of_true rfl (.inr (.inr (.inr ‹_ ∧ _›.2)))
      · rename_i hpath
        rw [operations_eq_read_iff]
        refine ⟨.inl, ?_⟩
        rintro (hpost | hlisted | hlisted | hlisted) hpost'
        · exact hpost hpost'
        · exact hendpoint ⟨hpost', hlisted⟩
        · exact hrule ⟨hpost', hlisted⟩
        · exact hpath ⟨hpost', hlisted⟩

/-- There are two operations. -/
theorem operation_ne_read_iff {method path : Text} {endpoint rule : Option Text} :
    resolveOperation method path endpoint rule ≠ read ↔
      resolveOperation method path endpoint rule = write := by
  unfold resolveOperation operations
  repeat' split
  all_goals simp [read_ne_write, read_ne_write.symm]

/-! ## The policies -/

/-- The account pages of the policies. -/
def Exempted (resource : Text) : Prop :=
  "/profile".toList.isPrefixOf resource = true ∨ resource = "/set_theme".toList ∨
    resource = "/set_language".toList ∨ resource = "/set_columns_preferences".toList ∨
    resource = "/clear_notifications".toList

instance : DecidablePred Exempted := fun _ => inferInstanceAs (Decidable (_ ∨ _))

/-- The facts of a request and a token that policies ask for. -/
theorem mem_facts {args : List Value} :
    ((⟨.resource, args⟩ : Fact Pred Value) ∈ createTokenForRole role login ++ i.facts ↔
      args = [.str i.resource]) ∧
    ((⟨.operation, args⟩ : Fact Pred Value) ∈ createTokenForRole role login ++ i.facts ↔
      args = [.str i.operation]) ∧
    ((⟨.role, args⟩ : Fact Pred Value) ∈ createTokenForRole role login ++ i.facts ↔
      args = [.str role.name, .array role.permissions]) := by
  simp [createTokenForRole, Request.facts]

theorem resourcePolicy_holds {passes : Text → Bool} :
    (resourcePolicy passes).query.Holds (createTokenForRole role login ++ i.facts) ↔
      passes i.resource = true := by
  simp only [Query.Holds, resourcePolicy, List.forall_mem_singleton, Atom.ground, List.map_cons,
    List.map_nil, Term.value, mem_facts.1]
  constructor
  · rintro ⟨σ, hσ, htest⟩
    rwa [hσ] at htest
  · intro h
    exact ⟨fun _ => .str i.resource, rfl, h⟩

/-- The values of the variables of the policy about a role. -/
def assignment (role : Role) (i : Request) : Var → Value
  | .roleName => .str role.name
  | .permissions => .array role.permissions
  | .operationName => .str i.operation
  | .resourcePath => default

theorem rolePolicy_holds :
    rolePolicy.query.Holds (createTokenForRole role login ++ i.facts) ↔
      i.operation ∈ role.permissions := by
  simp only [Query.Holds, rolePolicy, List.forall_mem_cons, List.not_mem_nil, false_implies,
    implies_true, and_true, Atom.ground, List.map_cons, List.map_nil, Term.value, mem_facts.2.1,
    mem_facts.2.2]
  constructor
  · rintro ⟨σ, ⟨hrole, hop⟩, htest⟩
    simp only [List.cons.injEq, and_true] at hrole hop
    rw [hrole.2, hop] at htest
    simpa using htest
  · intro h
    exact ⟨assignment role i, ⟨rfl, rfl⟩, by simpa [assignment] using h⟩

/-- The second phase lets an exempted page and the operations of the role pass. -/
theorem policies_iff (role : Role) (login : Login) (i : Request) :
    authorize (createTokenForRole role login ++ i.facts) policies = true ↔
      Exempted i.resource ∨ i.operation ∈ role.permissions := by
  rw [authorize_of_allow (by simp [policies, resourcePolicy, rolePolicy])]
  simp only [policies, List.mem_cons, List.not_mem_nil, or_false, exists_eq_or_imp, exists_eq_left,
    resourcePolicy_holds, rolePolicy_holds, decide_eq_true_eq, Exempted, or_assoc]

/-! ## A visit -/

/-- The first phase: the version and, when it counts, the address are those of the login. -/
theorem checks_iff :
    (∀ check ∈ checks server i, check.Holds (createTokenForRole role login)) ↔
      login.version = server.version ∧
        (server.checkPrivateIp = true ∨ i.isPrivate = false → login.clientIp = i.remoteAddr) := by
  have hversion : (versionCheck server).Holds (createTokenForRole role login) ↔
      login.version = server.version := by
    rw [eq_comm]
    simp [Query.Holds, versionCheck, createTokenForRole, Atom.ground, Term.value]
  have haddress : (clientIpCheck i.remoteAddr).Holds (createTokenForRole role login) ↔
      login.clientIp = i.remoteAddr := by
    rw [eq_comm]
    simp [Query.Holds, clientIpCheck, createTokenForRole, Atom.ground, Term.value]
  by_cases hcounts : server.checkPrivateIp = true ∨ i.isPrivate = false
  · simp [checks, hcounts, hversion, haddress]
  · simp [checks, hcounts, hversion]

/-- A request of a user whose role is reader, with the token of the login in the session, if the
session still has it. -/
structure Visit where
  server : Server
  now : Nat
  keyFile : Bool
  user : Text
  login : Option Login
  request : Request

/-- The middleware's answer. -/
def Visit.run (v : Visit) : Outcome :=
  checkAuthorization v.server v.now v.keyFile (some (v.user, .reader))
    (v.login.map (createTokenForRole .reader)) v.request

/-- The token is of this version and this address, or a new one can be signed. -/
def Visit.Current (v : Visit) : Prop :=
  match v.login with
  | some login => login.version = v.server.version ∧
      (v.server.checkPrivateIp = true ∨ v.request.isPrivate = false →
        login.clientIp = v.request.remoteAddr)
  | none => v.keyFile = true

instance (v : Visit) : Decidable v.Current := by
  unfold Visit.Current
  split <;> infer_instance

/-- Both phases for a reader's token. -/
theorem authorizeToken_letsIn :
    (authorizeToken server i (createTokenForRole .reader login)).letsIn = true ↔
      (login.version = server.version ∧
        (server.checkPrivateIp = true ∨ i.isPrivate = false → login.clientIp = i.remoteAddr)) ∧
      (Exempted i.resource ∨ i.operation = read) := by
  have hpolicies := policies_iff .reader login i
  rw [show Role.reader.permissions = [read] from rfl, List.mem_singleton] at hpolicies
  rw [← checks_iff, ← hpolicies, authorizeToken]
  by_cases hchecks : ∀ check ∈ checks server i, check.Holds (createTokenForRole .reader login)
  · rw [if_pos hchecks, and_iff_right hchecks]
    split <;> simp_all [Outcome.letsIn]
  · rw [if_neg hchecks]
    simp [Outcome.letsIn, hchecks]

theorem letsIn_visit_iff (v : Visit) :
    v.run.letsIn = true ↔ skips v.request.path = true ∨
      v.Current ∧ (Exempted v.request.resource ∨ v.request.operation = read) := by
  unfold Visit.run checkAuthorization Visit.Current
  by_cases hskip : skips v.request.path = true
  · simp [hskip, Outcome.letsIn]
  · rw [if_neg hskip]
    cases v.login with
    | some login => simp [authorizeToken_letsIn, hskip]
    | none =>
      cases v.keyFile with
      | true => simp [authorizeToken_letsIn, hskip]
      | false => simp [hskip, Outcome.letsIn]

/-! ## Keeping a reader to reading -/

/-- A route on which a reader may use the method. -/
def Allowed (method : Text) (r : Route) : Prop :=
  method ∈ [GET, HEAD, OPTIONS] ∨ r.endpoint ∈ READ_ONLY_POST_ENDPOINTS ∨ Exempted r.rule

instance (method : Text) (r : Route) : Decidable (Allowed method r) :=
  inferInstanceAs (Decidable (_ ∨ _))

/-- The operation of a request for the route. -/
def Route.operation (r : Route) (method path : Text) : Text :=
  resolveOperation method path (some r.endpoint) (some r.rule)

/-- A reader gets to a view only when that is allowed, and the operation is the same for all paths
of the route. -/
def Guarded (v : Visit) (r : Route) : Prop :=
  (v.run.letsIn = true → Allowed v.request.method r) ∧
    ∀ path, r.accepts path = true →
      r.operation v.request.method path = r.operation v.request.method v.request.path

/-- The request stays clear of what the code takes for reading. -/
structure Clear (v : Visit) (r : Route) : Prop where
  /-- The path is not below the skipped ones. -/
  skip : skips v.request.path = true → Allowed v.request.method r
  /-- The method is listed in `OPERATIONS`. -/
  method : v.Current → v.request.method ≠ POST → Allowed v.request.method r
  /-- No other endpoint stands under a listed rule. -/
  rule : v.Current → normalized r.rule ∈ READ_ONLY_POST_RULES → Allowed v.request.method r
  /-- The path does not end like a listed one. -/
  path : v.Current → endsReadOnly v.request.path = true → Allowed v.request.method r
  /-- The paths of a route that is decided by them end alike. -/
  params : v.request.method = POST → r.endpoint ∉ READ_ONLY_POST_ENDPOINTS →
    normalized r.rule ∉ READ_ONLY_POST_RULES → ∀ path, r.accepts path = true →
      endsReadOnly path = endsReadOnly v.request.path

theorem normalizedRule_some {rule : Text} (h : rule ≠ []) :
    normalizedRule (some rule) = normalized rule := by
  cases rule with
  | nil => exact absurd rfl h
  | cons c rule => rfl

theorem Route.operation_eq_read_iff {method path : Text} :
    r.operation method path = read ↔
      method ≠ POST ∨ r.endpoint ∈ READ_ONLY_POST_ENDPOINTS ∨
        normalized r.rule ∈ READ_ONLY_POST_RULES ∨ endsReadOnly path = true := by
  rw [Route.operation, Biscuit.operation_eq_read_iff, normalizedRule_some r.nonempty]
  simp

/-- Equal operations read alike. -/
theorem Route.operation_eq_iff {method path path' : Text} :
    r.operation method path = r.operation method path' ↔
      (r.operation method path = read ↔ r.operation method path' = read) := by
  constructor
  · intro h
    rw [h]
  · intro h
    have hwrite (p : Text) (hp : r.operation method p ≠ read) : r.operation method p = write :=
      operation_ne_read_iff.mp hp
    by_cases hread : r.operation method path = read
    · rw [hread, h.mp hread]
    · rw [hwrite path hread, hwrite path' (mt h.mpr hread)]

/-- A reader is kept to reading, by an operation of the route, exactly on clear requests. -/
theorem reader_guarded_iff (v : Visit) (r : Route) (h : v.request.route = some r) :
    Guarded v r ↔ Clear v r := by
  have hresource : v.request.resource = r.rule := by
    simp [Request.resource, h, Option.filter_some, r.nonempty]
  have hoperation : v.request.operation = r.operation v.request.method v.request.path := by
    simp [Request.operation, Route.operation, h]
  have hin := letsIn_visit_iff v
  rw [hresource, hoperation, Route.operation_eq_read_iff] at hin
  constructor
  · rintro ⟨hallowed, hsame⟩
    refine ⟨fun hskip => hallowed (hin.mpr (.inl hskip)),
      fun hc hm => hallowed (hin.mpr (.inr ⟨hc, .inr (.inl hm)⟩)),
      fun hc hr => hallowed (hin.mpr (.inr ⟨hc, .inr (.inr (.inr (.inl hr)))⟩)),
      fun hc hp => hallowed (hin.mpr (.inr ⟨hc, .inr (.inr (.inr (.inr hp)))⟩)), ?_⟩
    intro hpost hendpoint hrule path hpath
    have heq := Route.operation_eq_iff.mp (hsame path hpath)
    simp only [Route.operation_eq_read_iff, hpost, hendpoint, hrule, ne_eq, not_true_eq_false,
      false_or] at heq
    exact Bool.eq_iff_iff.mpr heq
  · intro hclear
    constructor
    · intro hlets
      obtain hskip | ⟨hc, hexempted | hm | hendpoint | hr | hp⟩ := hin.mp hlets
      · exact hclear.skip hskip
      · exact .inr (.inr hexempted)
      · exact hclear.method hc hm
      · exact .inr (.inl hendpoint)
      · exact hclear.rule hc hr
      · exact hclear.path hc hp
    · intro path hpath
      rw [Route.operation_eq_iff, Route.operation_eq_read_iff, Route.operation_eq_read_iff]
      by_cases hpost : v.request.method = POST
      · by_cases hendpoint : r.endpoint ∈ READ_ONLY_POST_ENDPOINTS
        · simp [hendpoint]
        · by_cases hrule : normalized r.rule ∈ READ_ONLY_POST_RULES
          · simp [hrule]
          · rw [hclear.params hpost hendpoint hrule path hpath]
      · simp [hpost]

/-! ## Two requests of a reader -/

/-- `configs_edit` -/
def configsEdit : Route where
  endpoint := "configs.configs_edit".toList
  rule := "/configs/<string:service>/<string:config_type>/<string:name>".toList
  accepts := Pattern.accepts '/' [.lit "configs".toList, .param, .param, .param]
  nonempty := by decide

/-- `bans_fetch` -/
def bansFetch : Route where
  endpoint := "bans.bans_fetch".toList
  rule := "/bans/fetch".toList
  accepts := Pattern.accepts '/' [.lit "bans".toList, .lit "fetch".toList]
  nonempty := by decide

/-- A POST of a reader who logged in from the same address. -/
def postOf (r : Route) (path : Text) (h : r.accepts path = true) : Visit where
  server := ⟨"1.6.0".toList, true⟩
  now := 1000
  keyFile := true
  user := "auditor".toList
  login := some ⟨"auditor".toList, 900, "198.51.100.7".toList, "ui.example.com".toList,
    "1.6.0".toList⟩
  request := ⟨POST, path, some r, "198.51.100.7".toList, false, "ui.example.com".toList, by
    rintro _ ⟨⟩
    exact h⟩

/-- The configuration `fetch` of type `bans` of a service. -/
def configNamedFetch : Visit :=
  postOf configsEdit "/configs/app1/bans/fetch".toList (by decide +kernel)

/-- The parameters of the path make the edition of a configuration a reading request. -/
theorem reader_posts_configuration : ¬ Guarded configNamedFetch configsEdit := by
  rintro ⟨hallowed, -⟩
  have hlets : configNamedFetch.run.letsIn = true := by decide +kernel
  have hnot : ¬ Allowed configNamedFetch.request.method configsEdit := by decide +kernel
  exact hnot (hallowed hlets)

/-- A table that is fetched by POST. -/
theorem reader_guarded_iff_bans_fetch :
    Guarded (postOf bansFetch "/bans/fetch".toList (by decide +kernel)) bansFetch ↔
      Clear (postOf bansFetch "/bans/fetch".toList (by decide +kernel)) bansFetch :=
  reader_guarded_iff (postOf bansFetch "/bans/fetch".toList (by decide +kernel)) bansFetch rfl

end BunkerWeb.Ui.Biscuit
