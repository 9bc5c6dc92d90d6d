import BunkerWeb.Api.Biscuit

/-!
# Which granted rows let a request in

- **The facts of a token** (`mem_login`): predicate by predicate.
- **The three policies** (`fineGrained_iff`): a request with a fine-grained permission is authorized
  when a row of that type and permission has no id, the id `*`, or the id that the guard reads off
  the path.
- **A visit** (`letsIn_iff`): a login and a request while the token is fresh.
- **Result** (`exact_iff`): the rows and requests for which the answer is the one that the granted
  rows give.
-/

namespace BunkerWeb.Api

open Datalog

section

variable [Casing] {server : Server} {visitor : Visitor} {now : Nat} {rows : List Row}
  {token : Token}

/-! ## The facts of a token -/

theorem login_eq_some :
    login server visitor now false rows = some token ↔ ∃ role,
      roleFact (reads rows) (writes rows) = some role ∧
        identity server visitor now ++ [role] ++ rows.map Row.fact = token := by
  simp only [login, Bool.false_eq_true, if_false, Option.map_eq_some_iff]

/-- A user logs in when some permission is named as one that reads. -/
theorem login_isSome : (login server visitor now false rows).isSome = reads rows := by
  cases hr : reads rows <;> cases hw : writes rows <;> simp [login, roleFact, hr, hw]

omit [Casing] in
theorem roleFact_pred {read write : Bool} {f : Fact Pred Value}
    (h : roleFact read write = some f) : f.pred = .role := by
  unfold roleFact at h
  split at h
  · cases h; rfl
  · split at h
    · cases h; rfl
    · cases h

/-- The predicates in a token of a user. -/
theorem pred_of_mem_login (h : login server visitor now false rows = some token)
    {f : Fact Pred Value} (hf : f ∈ token) :
    f.pred ∈ [Pred.user, .time, .clientIp, .domain, .version, .role, .apiPerm] := by
  obtain ⟨role, hrole, rfl⟩ := login_eq_some.1 h
  have hpred := roleFact_pred hrole
  simp only [List.mem_append, List.mem_singleton, List.mem_map] at hf
  rcases hf with (hf | rfl) | ⟨row, -, rfl⟩
  · simp only [identity, List.mem_cons, List.not_mem_nil, or_false] at hf
    rcases hf with rfl | rfl | rfl | rfl | rfl <;> simp
  · simp [hpred]
  · simp [Row.fact]

/-- The facts about permissions are those of the rows. -/
theorem mem_login (h : login server visitor now false rows = some token) {args : List Value} :
    (⟨.apiPerm, args⟩ : Fact Pred Value) ∈ token ↔ ∃ row ∈ rows, row.fact = ⟨.apiPerm, args⟩ := by
  obtain ⟨role, hrole, rfl⟩ := login_eq_some.1 h
  have hne : (⟨.apiPerm, args⟩ : Fact Pred Value) ≠ role := by
    rintro rfl
    cases roleFact_pred hrole
  simp [identity, hne]

omit [Casing] in
theorem fact_eq_iff {row : Row} {rtype rid perm : Text} :
    row.fact = ⟨.apiPerm, [.str rtype, .str rid, .str perm]⟩ ↔
      row.resourceType = rtype ∧ row.rid = rid ∧ row.permission = perm := by
  simp [Row.fact]

/-! ## The policies -/

variable {path method rtype perm : Text}

/-- A row of the type and the permission. -/
def Row.Matches (rtype perm : Text) (row : Row) : Prop :=
  row.resourceType = rtype ∧ row.permission = perm

/-- A fact that only the guard adds. -/
theorem mem_request (h : login server visitor now false rows = some token) {p : Pred}
    (hp : p ∈ [Pred.admin, .requiredPerm, .resourceType, .resourceId]) {args : List Value} :
    (⟨p, args⟩ : Fact Pred Value) ∈ token ++ requestFacts path method rtype perm ↔
      p = .requiredPerm ∧ args = [.str perm] ∨ p = .resourceType ∧ args = [.str rtype] ∨
        ∃ rid, extractResourceId path (some rtype) = some rid ∧
          p = .resourceId ∧ args = [.str rid] := by
  have hnot : (⟨p, args⟩ : Fact Pred Value) ∉ token := fun hf => by
    have := pred_of_mem_login h hf
    cases p <;> simp at hp this
  have hop : p ≠ .operation ∧ p ≠ .resource := by
    constructor <;> rintro rfl <;> simp at hp
  cases hid : extractResourceId path (some rtype) <;>
    simp [requestFacts, hnot, hop, hid] <;> tauto

/-- A fact about permissions comes from a row. -/
theorem mem_perm (h : login server visitor now false rows = some token) {args : List Value} :
    (⟨.apiPerm, args⟩ : Fact Pred Value) ∈ token ++ requestFacts path method rtype perm ↔
      ∃ row ∈ rows, row.fact = ⟨.apiPerm, args⟩ := by
  rw [List.mem_append, mem_login h]
  cases hid : extractResourceId path (some rtype) <;> simp [requestFacts, hid]

theorem admin_holds (h : login server visitor now false rows = some token) :
    ¬ adminPolicy.query.Holds (token ++ requestFacts path method rtype perm) := by
  rintro ⟨σ, hbody, -⟩
  have hadmin := hbody _ List.mem_cons_self
  rw [Atom.ground, mem_request h (by decide)] at hadmin
  simp at hadmin

/-- The values of the variables of a policy about a resource. -/
def assignment (rtype perm rid : Text) : Var → Value
  | .rt => .str rtype
  | .perm => .str perm
  | .rid => .str rid
  | _ => default

theorem global_holds (h : login server visitor now false rows = some token) :
    globalPolicy.query.Holds (token ++ requestFacts path method rtype perm) ↔
      ∃ row ∈ rows, row.Matches rtype perm ∧ row.rid = "*".toList := by
  simp only [Query.Holds, globalPolicy, List.forall_mem_cons, List.not_mem_nil, false_implies,
    implies_true, and_true, Atom.ground, List.map_cons, List.map_nil, Term.value, mem_perm h,
    mem_request h (show Pred.requiredPerm ∈ _ by decide),
    mem_request h (show Pred.resourceType ∈ _ by decide)]
  constructor
  · rintro ⟨σ, ⟨row, hrow, hfact⟩, hperm, htype⟩
    simp only [true_and, reduceCtorEq, false_and, and_false, exists_false, or_false,
      false_or, List.cons.injEq, and_true] at hperm htype
    rw [hperm, htype, fact_eq_iff] at hfact
    exact ⟨row, hrow, ⟨hfact.1, hfact.2.2⟩, hfact.2.1⟩
  · rintro ⟨row, hrow, ⟨htype, hperm⟩, hrid⟩
    refine ⟨assignment rtype perm [], ⟨row, hrow, ?_⟩, ?_, ?_⟩
    · exact fact_eq_iff.2 ⟨htype, hrid, hperm⟩
    · simp [assignment]
    · simp [assignment]

theorem specific_holds (h : login server visitor now false rows = some token) :
    specificPolicy.query.Holds (token ++ requestFacts path method rtype perm) ↔
      ∃ row ∈ rows, row.Matches rtype perm ∧
        extractResourceId path (some rtype) = some row.rid := by
  simp only [Query.Holds, specificPolicy, List.forall_mem_cons, List.not_mem_nil, false_implies,
    implies_true, and_true, Atom.ground, List.map_cons, List.map_nil, Term.value, mem_perm h,
    mem_request h (show Pred.requiredPerm ∈ _ by decide),
    mem_request h (show Pred.resourceType ∈ _ by decide),
    mem_request h (show Pred.resourceId ∈ _ by decide)]
  constructor
  · rintro ⟨σ, ⟨row, hrow, hfact⟩, hperm, htype, hrid⟩
    simp only [true_and, reduceCtorEq, false_and, and_false, exists_false, or_false,
      false_or, List.cons.injEq, and_true] at hperm htype hrid
    obtain ⟨rid, hid, hrid⟩ := hrid
    rw [hperm, htype, hrid, fact_eq_iff] at hfact
    exact ⟨row, hrow, ⟨hfact.1, hfact.2.2⟩, by rw [hid, hfact.2.1]⟩
  · rintro ⟨row, hrow, ⟨htype, hperm⟩, hid⟩
    refine ⟨assignment rtype perm row.rid, ⟨row, hrow, ?_⟩, ?_, ?_, ?_⟩
    · exact fact_eq_iff.2 ⟨htype, rfl, hperm⟩
    · simp [assignment]
    · simp [assignment]
    · simp [assignment, hid]

/-- The id of a row lets it speak for every resource. -/
def Row.Wide (row : Row) : Prop :=
  row.resourceId = none ∨ row.resourceId = some [] ∨ row.resourceId = some "*".toList

/-- The guard reads the id of the row off the path. -/
def Row.Keyed (path rtype : Text) (row : Row) : Prop :=
  row.resourceId ≠ none ∧ row.resourceId = extractResourceId path (some rtype)

omit [Casing] in
theorem rid_eq_star {row : Row} : row.rid = "*".toList ↔ row.Wide := by
  unfold Row.rid Row.Wide
  split <;> simp_all

omit [Casing] in
theorem rid_cases (row : Row) : row.Wide ∨ row.resourceId = some row.rid := by
  unfold Row.rid Row.Wide
  split <;> simp_all

/-- With a fine-grained permission, the rows of that type and permission decide. -/
theorem fineGrained_iff (h : login server visitor now false rows = some token)
    (hfine : fineGrained path method = some (rtype, perm)) :
    routeAuthorized token path method = true ↔
      ∃ row ∈ rows, row.Matches rtype perm ∧
        (row.Wide ∨ row.Keyed path rtype) := by
  rw [routeAuthorized, hfine]
  simp only
  rw [authorize_of_allow (by simp [adminPolicy, globalPolicy, specificPolicy])]
  simp only [List.mem_cons, List.not_mem_nil, or_false, exists_eq_or_imp, exists_eq_left,
    admin_holds h, false_or, global_holds h, specific_holds h, rid_eq_star]
  constructor
  · rintro (⟨row, hrow, hm, hwide⟩ | ⟨row, hrow, hm, hid⟩)
    · exact ⟨row, hrow, hm, .inl hwide⟩
    · rcases rid_cases row with hwide | hrid
      · exact ⟨row, hrow, hm, .inl hwide⟩
      · exact ⟨row, hrow, hm, .inr ⟨by simp [hrid], by rw [hid, hrid]⟩⟩
  · rintro ⟨row, hrow, hm, hwide | ⟨hne, hid⟩⟩
    · exact .inl ⟨row, hrow, hm, hwide⟩
    · rcases rid_cases row with hwide | hrid
      · exact .inl ⟨row, hrow, hm, hwide⟩
      · exact .inr ⟨row, hrow, hm, by rw [← hid, hrid]⟩

/-! ## A login and a request -/

/-- One visitor logs in and makes a request to the same server while the token is fresh. -/
structure Visit where
  server : Server
  visitor : Visitor
  loginAt : Nat
  requestAt : Nat
  fresh : server.ttlSeconds = 0 ∨ requestAt ≤ loginAt + server.ttlSeconds

/-- The login, then the request with the token that it gave. -/
def Visit.run (v : Visit) (cfg : ApiConfig) (rows : List Row) (method path : Text) : Outcome :=
  match login v.server v.visitor v.loginAt false rows with
  | none => .refused 403
  | some token => biscuitGuard cfg v.server v.visitor v.requestAt (some token) method path

/-- The token of the visit passes the first phase. -/
theorem checks_hold (v : Visit)
    (h : login v.server v.visitor v.loginAt false rows = some token) :
    ∀ check ∈ checks v.server v.visitor v.requestAt, check.Holds token := by
  obtain ⟨role, -, rfl⟩ := login_eq_some.1 h
  have hmem : ∀ f ∈ identity v.server v.visitor v.loginAt,
      f ∈ identity v.server v.visitor v.loginAt ++ [role] ++ rows.map Row.fact := by
    intro f hf
    exact List.mem_append_left _ (List.mem_append_left _ hf)
  intro check hcheck
  simp only [checks, List.mem_append, List.mem_singleton] at hcheck
  rcases hcheck with (rfl | hcheck) | hcheck
  · refine ⟨fun _ => default, ?_, by simp [versionCheck]⟩
    simp only [versionCheck, List.forall_mem_singleton]
    exact hmem _ (by simp [identity, Atom.ground, Term.value])
  · split at hcheck
    · next httl =>
      obtain rfl := List.mem_singleton.1 hcheck
      refine ⟨fun _ => .date v.loginAt, ?_, ?_⟩
      · simp only [timeCheck, List.forall_mem_singleton]
        exact hmem _ (by simp [identity, Atom.ground, Term.value])
      · have hle : v.requestAt - v.server.ttlSeconds ≤ v.loginAt := by
          rcases v.fresh with h0 | hle <;> omega
        simpa [timeCheck] using hle
    · cases hcheck
  · split at hcheck
    · obtain rfl := List.mem_singleton.1 hcheck
      refine ⟨fun _ => default, ?_, by simp [clientIpCheck]⟩
      simp only [clientIpCheck, List.forall_mem_singleton]
      exact hmem _ (by simp [identity, Atom.ground, Term.value])
    · cases hcheck

/-- A visit gets in when the user can log in, and a row opens the request or it is skipped. -/
theorem letsIn_iff (v : Visit) {cfg : ApiConfig} {rows : List Row}
    (hfine : fineGrained (guardPath cfg path) method = some (rtype, perm)) :
    (v.run cfg rows method path).letsIn = true ↔
      reads rows = true ∧ (skips cfg path = true ∨ ∃ row ∈ rows, row.Matches rtype perm ∧
        (row.Wide ∨ row.Keyed (guardPath cfg path) rtype)) := by
  have hsome : (login v.server v.visitor v.loginAt false rows).isSome = reads rows := login_isSome
  cases hlogin : login v.server v.visitor v.loginAt false rows with
  | none =>
    rw [hlogin] at hsome
    simp [Visit.run, hlogin, Outcome.letsIn, ← hsome]
  | some token =>
    rw [hlogin] at hsome
    simp only [Visit.run, hlogin, biscuitGuard, ← hsome, Option.isSome_some, true_and]
    by_cases hskip : skips cfg path = true
    · simp [hskip, Outcome.letsIn]
    · rw [if_neg hskip, if_pos (checks_hold v hlogin)]
      have hroute := fineGrained_iff hlogin hfine
      by_cases hok : routeAuthorized token (guardPath cfg path) method = true
      · rw [if_pos hok]
        simpa [Outcome.letsIn, hskip] using hroute.1 hok
      · rw [if_neg hok]
        simpa [Outcome.letsIn, hskip] using fun h => hok (hroute.2 h)

/-! ## The rows and requests with the right answer -/

/-- The granted rows cover the request: one of its type and permission has no id, or the id in
the path. -/
def Covered (rows : List Row) (rtype perm : Text) (id : Option Text) : Prop :=
  ∃ row ∈ rows, row.Matches rtype perm ∧ (row.resourceId = none ∨ row.resourceId = id)

/-- The rows and the request stay clear of what the code does differently. -/
structure Exact (cfg : ApiConfig) (rows : List Row) (rtype perm path : Text)
    (id : Option Text) : Prop where
  /-- A user whose rows cover the request has a permission that is named as reading. -/
  login : Covered rows rtype perm id → reads rows = true
  /-- The request is not one that the guard skips. -/
  skip : reads rows = true → skips cfg path = true → Covered rows rtype perm id
  /-- No row opens every resource through an empty id or the id `*`. -/
  wide : reads rows = true → (∃ row ∈ rows, row.Matches rtype perm ∧
    (row.resourceId = some [] ∨ row.resourceId = some "*".toList)) → Covered rows rtype perm id
  /-- No row has another id that the guard reads off the path. -/
  foreign : reads rows = true →
    (∃ row ∈ rows, row.Matches rtype perm ∧ row.Keyed (guardPath cfg path) rtype) →
    Covered rows rtype perm id
  /-- No row depends on an id that the guard takes for an action. -/
  hidden : reads rows = true →
    (∃ row ∈ rows, row.Matches rtype perm ∧ row.resourceId ≠ none ∧ row.resourceId = id) →
    skips cfg path = true ∨ ∃ row ∈ rows, row.Matches rtype perm ∧
      (row.Wide ∨ row.Keyed (guardPath cfg path) rtype)

/-- The visit gets in exactly when the granted rows cover the request, if and only if the rows and
the request are clear. -/
theorem exact_iff (answers : Text → Text → Bool) (v : Visit) (cfg : ApiConfig) (rows : List Row)
    {r : Route} (_hrouted : endpoint answers cfg method path = some r)
    (hfine : fineGrained (guardPath cfg path) method = some (rtype, perm)) :
    let id := r.pathId (routePath (cfg.apiRootPath.getD []) path)
    ((v.run cfg rows method path).letsIn = true ↔ Covered rows rtype perm id) ↔
      Exact cfg rows rtype perm path id := by
  intro id
  rw [letsIn_iff v hfine]
  constructor
  · intro h
    refine ⟨fun hc => (h.2 hc).1, fun hr hs => h.1 ⟨hr, .inl hs⟩, ?_, ?_, ?_⟩
    · rintro hr ⟨row, hrow, hm, hid⟩
      exact h.1 ⟨hr, .inr ⟨row, hrow, hm, .inl (.inr hid)⟩⟩
    · rintro hr ⟨row, hrow, hm, hkey⟩
      exact h.1 ⟨hr, .inr ⟨row, hrow, hm, .inr hkey⟩⟩
    · rintro hr ⟨row, hrow, hm, -, hid⟩
      exact (h.2 ⟨row, hrow, hm, .inr hid⟩).2
  · intro h
    constructor
    · rintro ⟨hr, hskip | ⟨row, hrow, hm, (hnone | hid) | hkey⟩⟩
      · exact h.skip hr hskip
      · exact ⟨row, hrow, hm, .inl hnone⟩
      · exact h.wide hr ⟨row, hrow, hm, hid⟩
      · exact h.foreign hr ⟨row, hrow, hm, hkey⟩
    · intro hc
      have hr := h.login hc
      refine ⟨hr, ?_⟩
      obtain ⟨row, hrow, hm, hid⟩ := hc
      by_cases hnone : row.resourceId = none
      · exact .inr ⟨row, hrow, hm, .inl (.inl hnone)⟩
      · exact h.hidden hr ⟨row, hrow, hm, hnone, hid.resolve_left hnone⟩

end

/-! ## A user who may only ban -/

/-- The user's only permission. -/
def banRow : Row := ⟨"bans".toList, none, "ban_created".toList⟩

/-- A visit from a public address. -/
def banVisit : Visit where
  server := ⟨"1.6.0".toList, 3600, true⟩
  visitor := ⟨"banner".toList, "198.51.100.7".toList, false, none⟩
  loginAt := 100
  requestAt := 101
  fresh := by decide

/-- The user has the permission that the request takes, and cannot log in. -/
theorem write_only_user_is_refused : ¬ ∀ [Casing] (answers : Text → Text → Bool) (v : Visit)
    (cfg : ApiConfig) (rows : List Row) (method path rtype perm : Text) (r : Route),
    endpoint answers cfg method path = some r →
    fineGrained (guardPath cfg path) method = some (rtype, perm) →
    ((v.run cfg rows method path).letsIn = true ↔
      Covered rows rtype perm (r.pathId (routePath (cfg.apiRootPath.getD []) path))) := by
  intro h
  have hfine : @fineGrained asciiCasing (guardPath ApiConfig.default "/bans/ban".toList) POST =
      some ("bans".toList, "ban_created".toList) := by decide +kernel
  have hrouted : @endpoint asciiCasing (fun url path => url = path) ApiConfig.default POST
      "/bans/ban".toList = some ⟨POST, [seg "bans", seg "ban"]⟩ := by decide +kernel
  have hcov := @h asciiCasing _ banVisit ApiConfig.default [banRow] _ _ _ _ _ hrouted hfine
  have hin := hcov.2 ⟨banRow, List.mem_singleton_self _, ⟨rfl, rfl⟩, .inl rfl⟩
  have hreads := ((@letsIn_iff asciiCasing _ _ _ _ banVisit _ _ hfine).1 hin).1
  revert hreads
  decide +kernel

/-- A reader of one service, about that service. -/
theorem exact_iff_reader :
    let rows : List Row := [⟨"services".toList, some "app1".toList, "service_read".toList⟩]
    let id := Route.pathId ⟨GET, [seg "services", .param]⟩
      (routePath (ApiConfig.default.apiRootPath.getD []) "/services/app1".toList)
    ((@Visit.run asciiCasing banVisit ApiConfig.default rows GET "/services/app1".toList).letsIn =
        true ↔ Covered rows "services".toList "service_read".toList id) ↔
      @Exact asciiCasing ApiConfig.default rows "services".toList "service_read".toList
        "/services/app1".toList id := by
  have hfine : @fineGrained asciiCasing (guardPath ApiConfig.default "/services/app1".toList) GET =
      some ("services".toList, "service_read".toList) := by decide +kernel
  have hrouted : @endpoint asciiCasing (fun url path => url = path) ApiConfig.default GET
      "/services/app1".toList = some ⟨GET, [seg "services", .param]⟩ := by decide +kernel
  exact @exact_iff asciiCasing _ _ _ _ _ banVisit _ _ _ hrouted hfine

end BunkerWeb.Api
