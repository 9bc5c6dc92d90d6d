import Mathlib.Data.List.Infix
import Mathlib.Logic.Function.Basic

/-!
# Cross-origin requests (`core/cors/cors.lua`)

`access` decides whether a request with an `Origin` header is denied, `header` which origin the
response admits. Both read `CORS_ALLOW_ORIGIN`: `*`, `self`, or a regular expression.

`cors_iff` says for which settings and origins the two do what is documented. `access` takes the
origin of the service for a regular expression too, and `header` echoes the origin of a request
without a look at the expression.

`regexMatch origin expression` is `utils.regex_match`, which is `nil` for an invalid expression.
-/

namespace BunkerWeb.Lua.Cors

/-- A service: its settings, its name, and whether it is served with HTTPS. -/
structure Service where
  setting : String → String
  serverName : String
  httpsConfigured : Bool

structure Request where
  origin : Option String
  method : String

/-- The values of each header of a response. -/
abbrev Headers := String → List String

/-- What `access` returns. -/
inductive Answer where
  | notUsed
  | denied (origin : String)
  | preflight
  | standard
  deriving DecidableEq

/-- `self.all_headers`. -/
def allHeaders : List (String × String) :=
  [("CORS_EXPOSE_HEADERS", "Access-Control-Expose-Headers"),
    ("CROSS_ORIGIN_OPENER_POLICY", "Cross-Origin-Opener-Policy"),
    ("CROSS_ORIGIN_EMBEDDER_POLICY", "Cross-Origin-Embedder-Policy"),
    ("CROSS_ORIGIN_RESOURCE_POLICY", "Cross-Origin-Resource-Policy")]

/-- `self.preflight_headers`. -/
def preflightHeaders : List (String × String) :=
  [("CORS_MAX_AGE", "Access-Control-Max-Age"),
    ("CORS_ALLOW_CREDENTIALS", "Access-Control-Allow-Credentials"),
    ("CORS_ALLOW_METHODS", "Access-Control-Allow-Methods"),
    ("CORS_ALLOW_HEADERS", "Access-Control-Allow-Headers")]

def allowOriginHeader : String := "Access-Control-Allow-Origin"

namespace Service

variable (s : Service)

/-- The origin of the service. -/
def ownOrigin : String :=
  if s.httpsConfigured then "https://" ++ s.serverName else "http://" ++ s.serverName

/-- A turn of the loop over `all_headers`. -/
def setHeader (h : Headers) (e : String × String) : Headers :=
  if s.setting e.1 ≠ "" then Function.update h e.2 [s.setting e.1] else h

/-- A turn of the loop over `preflight_headers`. -/
def setPreflightHeader (h : Headers) (e : String × String) : Headers :=
  if e.1 = "CORS_ALLOW_CREDENTIALS" then
    if s.setting e.1 = "yes" then Function.update h e.2 ["true"] else h
  else s.setHeader h e

/-- The value of `Access-Control-Allow-Origin` for a request with this origin. -/
def allowOriginValue (origin : String) : String :=
  if s.setting "CORS_ALLOW_ORIGIN" = "*" then "*"
  else if s.setting "CORS_ALLOW_ORIGIN" = "self" then s.ownOrigin
  else origin

/-- `header`: the headers of the response afterwards. -/
def header (r : Request) (h : Headers) : Headers :=
  if s.setting "USE_CORS" ≠ "yes" then h
  else
    match r.origin with
    | none => h
    | some origin =>
      let h := Function.update h "Vary" (h "Vary" ++ ["Origin"])
      let h := Function.update h allowOriginHeader [s.allowOriginValue origin]
      let h := allHeaders.foldl s.setHeader h
      if r.method = "OPTIONS" then
        let h := preflightHeaders.foldl s.setPreflightHeader h
        let h := Function.update h "Content-Type" ["text/html; charset=UTF-8"]
        Function.update h "Content-Length" ["0"]
      else h

/-- `allow_origin` in `access`. -/
def allowOrigin : String :=
  if s.setting "CORS_ALLOW_ORIGIN" = "self" then s.ownOrigin else s.setting "CORS_ALLOW_ORIGIN"

def access (regexMatch : String → String → Bool) (r : Request) : Answer :=
  if s.setting "USE_CORS" ≠ "yes" then .notUsed
  else
    match r.origin with
    | none => .standard
    | some origin =>
      if s.setting "CORS_DENY_REQUEST" = "yes" ∧ s.allowOrigin ≠ "*" ∧
          ¬ regexMatch origin s.allowOrigin then .denied origin
      else if r.method = "OPTIONS" then .preflight
      else .standard

end Service

/-! ## The header that admits an origin -/

section

variable {s : Service} {h : Headers} {name : String}

theorem setHeader_frame {e : String × String} (hne : name ≠ e.2) : s.setHeader h e name = h name := by
  unfold Service.setHeader
  split
  next => rw [Function.update_of_ne hne]
  next => rfl

theorem setPreflightHeader_frame {e : String × String} (hne : name ≠ e.2) :
    s.setPreflightHeader h e name = h name := by
  unfold Service.setPreflightHeader
  split
  next =>
    split
    next => rw [Function.update_of_ne hne]
    next => rfl
  next => exact setHeader_frame hne

/-- A loop that sets some headers leaves the others as they are. -/
theorem foldl_frame {step : Headers → String × String → Headers}
    (hstep : ∀ h e, name ≠ e.2 → step h e name = h name) {l : List (String × String)}
    (hl : ∀ e ∈ l, name ≠ e.2) (h : Headers) : l.foldl step h name = h name := by
  induction l generalizing h with
  | nil => rfl
  | cons e l ih =>
    rw [List.foldl_cons, ih fun e he => hl e (List.mem_cons_of_mem _ he)]
    exact hstep h e (hl e List.mem_cons_self)

/-- The response has one value of the header, whatever else is in it. -/
theorem header_allowOrigin {r : Request} {origin : String}
    (huse : s.setting "USE_CORS" = "yes") (horigin : r.origin = some origin) (h : Headers) :
    s.header r h allowOriginHeader = [s.allowOriginValue origin] := by
  have hall : allHeaders.foldl s.setHeader (Function.update
      (Function.update h "Vary" (h "Vary" ++ ["Origin"])) allowOriginHeader
      [s.allowOriginValue origin]) allowOriginHeader = [s.allowOriginValue origin] := by
    rw [foldl_frame (fun h e => setHeader_frame) (by decide), Function.update_self]
  rw [Service.header, if_neg (not_not.mpr huse), horigin]
  show (if r.method = "OPTIONS" then _ else _ : Headers) allowOriginHeader = _
  split
  next =>
    rw [Function.update_of_ne (by decide), Function.update_of_ne (by decide),
      foldl_frame (fun h e => setPreflightHeader_frame) (by decide), hall]
  next => exact hall

end

/-! ## The property -/

/-- A browser takes the values of `Access-Control-Allow-Origin` for this origin. -/
def Admits (values : List String) (origin : String) : Prop := values = ["*"] ∨ values = [origin]

instance (values : List String) (origin : String) : Decidable (Admits values origin) :=
  inferInstanceAs (Decidable (_ ∨ _))

/-- The origins that `CORS_ALLOW_ORIGIN` stands for. -/
def Service.Allowed (s : Service) (regexMatch : String → String → Bool) (origin : String) : Prop :=
  if s.setting "CORS_ALLOW_ORIGIN" = "*" then True
  else if s.setting "CORS_ALLOW_ORIGIN" = "self" then origin = s.ownOrigin
  else regexMatch origin (s.setting "CORS_ALLOW_ORIGIN") = true

instance (s : Service) (regexMatch : String → String → Bool) (origin : String) :
    Decidable (s.Allowed regexMatch origin) :=
  inferInstanceAs (Decidable (if s.setting "CORS_ALLOW_ORIGIN" = "*" then True
    else if s.setting "CORS_ALLOW_ORIGIN" = "self" then origin = s.ownOrigin
    else regexMatch origin (s.setting "CORS_ALLOW_ORIGIN") = true))

/-- The response to a request admits its origin if and only if it is allowed, and the request is
denied if it is not and `CORS_DENY_REQUEST` says so. -/
def CorsExact (regexMatch : String → String → Bool) (s : Service) (r : Request) (origin : String) :
    Prop :=
  (∀ h, Admits (s.header r h allowOriginHeader) origin ↔ s.Allowed regexMatch origin) ∧
    (s.setting "CORS_DENY_REQUEST" = "yes" → ¬ s.Allowed regexMatch origin →
      s.access regexMatch r = .denied origin)

/-- Any origin; or `self` and an origin that is the one of the service, or that does not contain it
as an expression, if requests are denied at all; or an expression that the origin matches. -/
def Told (regexMatch : String → String → Bool) (s : Service) (origin : String) : Prop :=
  s.setting "CORS_ALLOW_ORIGIN" = "*" ∨
    (s.setting "CORS_ALLOW_ORIGIN" = "self" ∧ (origin = s.ownOrigin ∨
      s.setting "CORS_DENY_REQUEST" ≠ "yes" ∨ regexMatch origin s.ownOrigin = false)) ∨
    (s.setting "CORS_ALLOW_ORIGIN" ≠ "*" ∧ s.setting "CORS_ALLOW_ORIGIN" ≠ "self" ∧
      regexMatch origin (s.setting "CORS_ALLOW_ORIGIN") = true)

section

variable {regexMatch : String → String → Bool} {s : Service} {r : Request} {origin : String}

theorem ownOrigin_ne (s : Service) : s.ownOrigin ≠ "*" := by
  intro he
  have hlist := congrArg String.toList he
  unfold Service.ownOrigin at hlist
  split at hlist <;> simp at hlist

theorem admits_star (origin : String) : Admits ["*"] origin := .inl rfl

theorem admits_self (origin : String) : Admits [origin] origin := .inr rfl

theorem admits_own : Admits [s.ownOrigin] origin ↔ origin = s.ownOrigin := by
  rw [Admits, List.singleton_inj, or_iff_right (by simp [ownOrigin_ne]), List.singleton_inj]
  exact eq_comm

/-- When a request is denied. -/
theorem access_eq_denied (huse : s.setting "USE_CORS" = "yes") (horigin : r.origin = some origin)
    (hdeny : s.setting "CORS_DENY_REQUEST" = "yes") :
    s.access regexMatch r = .denied origin ↔
      s.allowOrigin ≠ "*" ∧ regexMatch origin s.allowOrigin = false := by
  rw [Service.access, if_neg (not_not.mpr huse), horigin]
  simp only [hdeny, true_and, Bool.not_eq_true]
  split
  next h => simp [h]
  next h =>
    refine iff_of_false ?_ h
    split <;> simp

/-- The settings and the origins for which access and header do what is documented. -/
theorem cors_iff (huse : s.setting "USE_CORS" = "yes") (horigin : r.origin = some origin) :
    CorsExact regexMatch s r origin ↔ Told regexMatch s origin := by
  have hheader := fun h => header_allowOrigin huse horigin h
  simp only [CorsExact, hheader, forall_const, Told, Service.Allowed, Service.allowOriginValue]
  by_cases hstar : s.setting "CORS_ALLOW_ORIGIN" = "*"
  · simp [hstar, admits_star]
  · by_cases hself : s.setting "CORS_ALLOW_ORIGIN" = "self"
    · -- The header is exact, and the expression decides whether another origin is denied.
      have hallow : s.allowOrigin = s.ownOrigin := if_pos hself
      simp only [hself, String.reduceEq, if_false, if_true, admits_own, iff_self, true_and, false_or,
        ne_eq, not_true, not_false_eq_true, false_and, or_false]
      constructor
      · intro h
        by_cases hown : origin = s.ownOrigin
        · exact .inl hown
        · by_cases hdeny : s.setting "CORS_DENY_REQUEST" = "yes"
          · have hdenied := (access_eq_denied huse horigin hdeny).mp (h hdeny hown)
            exact .inr (.inr (hallow ▸ hdenied.2))
          · exact .inr (.inl hdeny)
      · intro h hdeny hown
        rw [access_eq_denied huse horigin hdeny, hallow]
        exact ⟨ownOrigin_ne s, (h.resolve_left hown).resolve_left (not_not.mpr hdeny)⟩
    · -- The header is the origin itself.
      simp only [hstar, hself, if_false, admits_self, true_iff, false_or, false_and, ne_eq,
        not_false_eq_true, true_and]
      exact ⟨fun h => h.1, fun h => ⟨h, fun _ hnot => absurd h hnot⟩⟩

end

/-! ## Examples -/

/-- `www.example.com` with these settings. -/
def sampleService (allowOrigin deny : String) : Service where
  setting name :=
    if name = "USE_CORS" then "yes"
    else if name = "CORS_ALLOW_ORIGIN" then allowOrigin
    else if name = "CORS_DENY_REQUEST" then deny
    else ""
  serverName := "www.example.com"
  httpsConfigured := true

/-- The expression is found in the origin, letter by letter. -/
def search (origin expression : String) : Bool := decide (expression.toList <:+: origin.toList)

theorem cors_own_origin :
    CorsExact search (sampleService "self" "yes") ⟨some "https://www.example.com", "GET"⟩
      "https://www.example.com" :=
  (cors_iff rfl rfl).mpr (.inr (.inl ⟨rfl, .inl rfl⟩))

/-- With `self`, an origin that contains the one of the service is not denied; with an expression,
the response admits any origin. -/
theorem foreign_origins_pass :
    ¬ CorsExact search (sampleService "self" "yes")
        ⟨some "https://www.example.com.evil.test", "GET"⟩ "https://www.example.com.evil.test" ∧
    ¬ CorsExact search (sampleService "https://app.example.com" "no")
        ⟨some "https://evil.test", "GET"⟩ "https://evil.test" := by
  constructor
  · intro h
    have hdenied := h.2 rfl (by decide +kernel)
    revert hdenied
    decide +kernel
  · intro h
    have hallowed := (h.1 fun _ => []).mp (by decide +kernel)
    revert hallowed
    decide +kernel

end BunkerWeb.Lua.Cors
