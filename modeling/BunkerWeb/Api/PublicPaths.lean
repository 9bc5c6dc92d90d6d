import BunkerWeb.Api.Routes

/-!
# What the guards let pass without credentials

Both guards strip the root path as a prefix, then compare the rest with fixed and configured URLs.

- **The two paths** (`routed_cases`, `exists_path`): what the router and the guards see of one
  request. They differ only where the root path ends inside a segment.
- **Fixed URLs** (`skipsText_of_routed`): the fixed ones open no protected endpoint, so that on a
  path with an endpoint the test is about the configured ones.
- **Result** (`skips_only_public_iff`): the configurations for which nothing protected is skipped,
  told from the URLs and the table of routes.
-/

namespace BunkerWeb.Api

open Lib

/-! ## The test -/

/-- The path that the guards look at: without the root path, as a prefix. -/
def guardPath (cfg : ApiConfig) (path : Text) : Text :=
  let root := cfg.apiRootPath.getD []
  if root ≠ [] ∧ root <+: path then
    match path.drop root.length with
    | [] => "/".toList
    | rest => rest
  else path

/-- `url and path.startswith(url)` -/
def startsWithUrl (url : Option Text) (path : Text) : Bool :=
  url.any fun u => u ≠ [] && u <+: path

/-- `url and path == url` -/
def equalsUrl (url : Option Text) (path : Text) : Bool := url.any fun u => u ≠ [] && path = u

section

variable [Casing]

/-- The test on a path without its root. -/
def skipsText (cfg : ApiConfig) (path : Text) : Bool :=
  path ∈ ["/health".toList, "/ping".toList] || equalsUrl cfg.openapiUrl path ||
    startsWithUrl cfg.docsUrl path || startsWithUrl cfg.redocUrl path || "/auth".toList <+: path

/-- The guards return without checking credentials. -/
def skips (cfg : ApiConfig) (path : Text) : Bool := skipsText cfg (guardPath cfg path)

/-! ## The two paths -/

omit [Casing] in
/-- The router and the guards see one path, or the root path ends inside a segment of it. -/
theorem routed_cases {cfg : ApiConfig} {path q : Text}
    (h : routePath (cfg.apiRootPath.getD []) path = q) (hq : q ≠ []) :
    guardPath cfg path = q ∨ path = q ∧ cfg.apiRootPath.getD [] ≠ [] ∧
      q = cfg.apiRootPath.getD [] ++ guardPath cfg path ∧
        ∃ c rest, guardPath cfg path = c :: rest ∧ c ≠ '/' := by
  simp only [routePath, guardPath] at h ⊢
  generalize cfg.apiRootPath.getD [] = root at h ⊢
  by_cases hroot : root = [] ∨ ¬ root <+: path
  · rw [if_pos hroot] at h
    rw [if_neg (by rcases hroot with h | h <;> simp [h])]
    exact .inl h
  · rw [if_neg hroot] at h
    rw [not_or, not_not] at hroot
    rw [if_pos hroot]
    obtain ⟨hne, rest, rfl⟩ := hroot
    rw [List.drop_left] at h ⊢
    cases rest with
    | nil => exact absurd h.symm hq
    | cons c rest =>
      by_cases hc : c = '/'
      · simp only [hc, if_true] at h
        exact .inl (by rw [hc]; exact h)
      · simp only [hc, if_false] at h
        exact .inr ⟨h, hne, h.symm, c, rest, rfl, hc⟩

omit [Casing] in
/-- Behind the root path, both see any path that begins with a separator. -/
theorem exists_path (cfg : ApiConfig) (rest : Text) :
    ∃ path, routePath (cfg.apiRootPath.getD []) path = '/' :: rest ∧
      guardPath cfg path = '/' :: rest := by
  refine ⟨cfg.apiRootPath.getD [] ++ '/' :: rest, ?_⟩
  simp only [routePath, guardPath]
  generalize cfg.apiRootPath.getD [] = root
  by_cases hroot : root = []
  · simp [hroot]
  · rw [if_neg (by simp [hroot]), if_pos ⟨hroot, List.prefix_append _ _⟩, List.drop_left]
    simp

omit [Casing] in
/-- Where the root path ends inside a segment, the guards see only what follows. -/
theorem split_path {cfg : ApiConfig} {c : Char} {rest : Text}
    (hroot : cfg.apiRootPath.getD [] ≠ []) (hc : c ≠ '/') :
    routePath (cfg.apiRootPath.getD []) (cfg.apiRootPath.getD [] ++ c :: rest) =
        cfg.apiRootPath.getD [] ++ c :: rest ∧
      guardPath cfg (cfg.apiRootPath.getD [] ++ c :: rest) = c :: rest := by
  simp only [routePath, guardPath]
  generalize cfg.apiRootPath.getD [] = root at hroot
  rw [if_neg (by simp [hroot]), if_pos ⟨hroot, List.prefix_append _ _⟩, List.drop_left]
  simp [hc]

/-! ## Fixed URLs -/

omit [Casing] in
theorem separated {r : Route} (hr : r ∈ protectedRoutes) : Pattern.Separated '/' r.pattern := by
  have h : ∀ r ∈ protectedRoutes, ∀ s ∈ r.pattern, s.free '/' = true := by decide
  exact h r hr

omit [Casing] in
theorem path_of_routed {r : Route} (hr : r ∈ protectedRoutes) {q : Text}
    (hq : r.accepts q = true) : ∃ rest, q = '/' :: rest := by
  have h : ∀ r ∈ protectedRoutes, r.accepts [] = false := by decide
  cases q with
  | nil =>
    rw [h r hr] at hq
    cases hq
  | cons c rest => exact ⟨rest, by rw [Pattern.head_of_accepts hq c rfl]⟩

omit [Casing] in
/-- No endpoint of the protected routers has a path that is skipped by name. -/
theorem not_fixed {r : Route} (hr : r ∈ protectedRoutes) {q : Text} (hq : r.accepts q = true) :
    q ≠ "/health".toList ∧ q ≠ "/ping".toList ∧ ¬ "/auth".toList <+: q := by
  have hbegins : ∀ r ∈ protectedRoutes, Pattern.begins '/' r.pattern "/auth".toList = false := by
    decide
  have hnamed : ∀ r ∈ protectedRoutes, r.accepts "/health".toList = false ∧
      r.accepts "/ping".toList = false := by decide
  refine ⟨?_, ?_, fun hp => ?_⟩
  · rintro rfl
    rw [(hnamed r hr).1] at hq
    cases hq
  · rintro rfl
    rw [(hnamed r hr).2] at hq
    cases hq
  · have := (Pattern.begins_iff (x := 'a') (by decide) (separated hr)).2 ⟨q, hq, hp⟩
    rw [hbegins r hr] at this
    cases this

/-- The configured part of the test. -/
def configured (cfg : ApiConfig) (path : Text) : Prop :=
  equalsUrl cfg.openapiUrl path = true ∨ startsWithUrl cfg.docsUrl path = true ∨
    startsWithUrl cfg.redocUrl path = true

theorem skipsText_iff {cfg : ApiConfig} {path : Text} (hh : path ≠ "/health".toList)
    (hp : path ≠ "/ping".toList) (ha : ¬ "/auth".toList <+: path) :
    skipsText cfg path = true ↔ configured cfg path := by
  simp only [skipsText, configured, List.mem_cons, hh, hp, List.not_mem_nil, or_self, ha,
    Bool.or_eq_true, decide_false, Bool.false_eq_true, false_or, or_false, or_assoc]

/-- On the path of an endpoint, the test is about the configured URLs. -/
theorem skipsText_of_routed {cfg : ApiConfig} {r : Route} (hr : r ∈ protectedRoutes) {q : Text}
    (hq : r.accepts q = true) : skipsText cfg q = true ↔ configured cfg q := by
  obtain ⟨hh, hp, ha⟩ := not_fixed hr hq
  exact skipsText_iff hh hp ha

/-- So it is on what follows the root path inside a segment. -/
theorem skipsText_of_split {cfg : ApiConfig} {c : Char} {rest : Text} (hc : c ≠ '/') :
    skipsText cfg (c :: rest) = true ↔ configured cfg (c :: rest) := by
  refine skipsText_iff ?_ ?_ ?_
  · exact fun h => hc (List.cons.inj h).1
  · exact fun h => hc (List.cons.inj h).1
  · exact fun h => hc (List.cons_prefix_cons.1 h).1.symm

/-- The route has a path, and some request that is routed there is skipped. -/
theorem exists_skips_iff {cfg : ApiConfig} {r : Route} (hr : r ∈ protectedRoutes) {q : Text}
    (hq : r.accepts q = true) :
    (∃ path, routePath (cfg.apiRootPath.getD []) path = q ∧ skips cfg path = true) ↔
      configured cfg q ∨ ∃ c rest, c ≠ '/' ∧ cfg.apiRootPath.getD [] ≠ [] ∧
        q = cfg.apiRootPath.getD [] ++ c :: rest ∧ configured cfg (c :: rest) := by
  obtain ⟨rest, rfl⟩ := path_of_routed hr hq
  constructor
  · rintro ⟨path, hpath, hskip⟩
    rcases routed_cases hpath (List.cons_ne_nil _ _) with hg | ⟨-, hroot, hsplit, c, t, hg, hc⟩
    · rw [skips, hg] at hskip
      exact .inl ((skipsText_of_routed hr hq).1 hskip)
    · rw [skips, hg] at hskip
      exact .inr ⟨c, t, hc, hroot, hg ▸ hsplit, (skipsText_of_split hc).1 hskip⟩
  · rintro (h | ⟨c, t, hc, hroot, hsplit, h⟩)
    · obtain ⟨path, hpath, hg⟩ := exists_path cfg rest
      exact ⟨path, hpath, by rw [skips, hg]; exact (skipsText_of_routed hr hq).2 h⟩
    · obtain ⟨hpath, hg⟩ := @split_path cfg c t hroot hc
      rw [hsplit]
      exact ⟨_, hpath, by rw [skips, hg]; exact (skipsText_of_split hc).2 h⟩

/-! ## The URLs as prefixes of routed paths -/

/-- The beginnings of routed paths that a URL stands for: itself, and behind a root path that ends
inside a segment. -/
def reached (cfg : ApiConfig) (u : Text) : List Text :=
  if u = [] then []
  else if cfg.apiRootPath.getD [] ≠ [] ∧ u.head? ≠ some '/' then
    [u, cfg.apiRootPath.getD [] ++ u]
  else [u]

/-- The beginnings that the documentation URLs open. -/
def openPrefixes (cfg : ApiConfig) : List Text :=
  (cfg.docsUrl.toList ++ cfg.redocUrl.toList).flatMap (reached cfg)

/-- The paths that the URL of the schema opens. -/
def openPaths (cfg : ApiConfig) : List Text := cfg.openapiUrl.toList.flatMap (reached cfg)

omit [Casing] in
theorem mem_reached {cfg : ApiConfig} {f u : Text} :
    f ∈ reached cfg u ↔ u ≠ [] ∧ (f = u ∨ cfg.apiRootPath.getD [] ≠ [] ∧ u.head? ≠ some '/' ∧
      f = cfg.apiRootPath.getD [] ++ u) := by
  unfold reached
  by_cases hu : u = []
  · simp [hu]
  · by_cases hr : cfg.apiRootPath.getD [] ≠ [] ∧ u.head? ≠ some '/'
    · rw [if_neg hu, if_pos hr]
      simp only [List.mem_cons, List.not_mem_nil, or_false, hu, hr, ne_eq, not_false_eq_true,
        true_and]
    · rw [if_neg hu, if_neg hr, List.mem_singleton]
      constructor
      · exact fun h => ⟨hu, .inl h⟩
      · rintro ⟨-, h | ⟨h₁, h₂, -⟩⟩
        · exact h
        · exact absurd ⟨h₁, h₂⟩ hr

omit [Casing] in
/-- A path begins with what a URL opens when it, or what follows the root path inside a segment of
it, begins with the URL. -/
theorem exists_prefix_reached {cfg : ApiConfig} {url : Option Text} {q : Text} :
    (∃ f ∈ url.toList.flatMap (reached cfg), f <+: q) ↔
      startsWithUrl url q = true ∨ ∃ c rest, c ≠ '/' ∧ cfg.apiRootPath.getD [] ≠ [] ∧
        q = cfg.apiRootPath.getD [] ++ c :: rest ∧ startsWithUrl url (c :: rest) = true := by
  cases url with
  | none => simp [startsWithUrl]
  | some u =>
    simp only [Option.toList_some, List.flatMap_cons, List.flatMap_nil, List.append_nil,
      mem_reached, startsWithUrl, Option.any_some, Bool.and_eq_true, decide_eq_true_iff]
    constructor
    · rintro ⟨f, ⟨hu, rfl | ⟨hroot, hhead, rfl⟩⟩, hp⟩
      · exact .inl ⟨hu, hp⟩
      · obtain ⟨t, rfl⟩ := hp
        obtain ⟨c, u, rfl⟩ := List.exists_cons_of_ne_nil hu
        refine .inr ⟨c, u ++ t, fun hc => hhead (by rw [hc]; rfl), hroot, ?_, hu, ?_⟩
        · rw [List.append_assoc, List.cons_append]
        · exact List.prefix_append (c :: u) t
    · rintro (⟨hu, hp⟩ | ⟨c, rest, hc, hroot, rfl, hu, hp⟩)
      · exact ⟨u, ⟨hu, .inl rfl⟩, hp⟩
      · obtain ⟨d, u, rfl⟩ := List.exists_cons_of_ne_nil hu
        obtain ⟨rfl, -⟩ := List.cons_prefix_cons.1 hp
        refine ⟨_, ⟨hu, .inr ⟨hroot, ?_, rfl⟩⟩, (List.prefix_append_right_inj _).2 hp⟩
        simpa using hc

omit [Casing] in
theorem mem_paths_reached {cfg : ApiConfig} {url : Option Text} {q : Text} :
    q ∈ url.toList.flatMap (reached cfg) ↔
      equalsUrl url q = true ∨ ∃ c rest, c ≠ '/' ∧ cfg.apiRootPath.getD [] ≠ [] ∧
        q = cfg.apiRootPath.getD [] ++ c :: rest ∧ equalsUrl url (c :: rest) = true := by
  cases url with
  | none => simp [equalsUrl]
  | some u =>
    simp only [Option.toList_some, List.flatMap_cons, List.flatMap_nil, List.append_nil,
      mem_reached, equalsUrl, Option.any_some, Bool.and_eq_true, decide_eq_true_iff]
    constructor
    · rintro ⟨hu, rfl | ⟨hroot, hhead, rfl⟩⟩
      · exact .inl ⟨hu, rfl⟩
      · obtain ⟨c, u, rfl⟩ := List.exists_cons_of_ne_nil hu
        exact .inr ⟨c, u, fun hc => hhead (by rw [hc]; rfl), hroot, rfl, hu, rfl⟩
    · rintro (⟨hu, rfl⟩ | ⟨c, rest, hc, hroot, rfl, hu, rfl⟩)
      · exact ⟨hu, .inl rfl⟩
      · exact ⟨hu, .inr ⟨hroot, by simpa using hc, rfl⟩⟩

/-- A request for the path of an endpoint can be skipped exactly when the path is open. -/
theorem exists_skips_iff_open {cfg : ApiConfig} {r : Route} (hr : r ∈ protectedRoutes) {q : Text}
    (hq : r.accepts q = true) :
    (∃ path, routePath (cfg.apiRootPath.getD []) path = q ∧ skips cfg path = true) ↔
      (∃ f ∈ openPrefixes cfg, f <+: q) ∨ q ∈ openPaths cfg := by
  have hsplit : (∃ f ∈ openPrefixes cfg, f <+: q) ↔
      (∃ f ∈ cfg.docsUrl.toList.flatMap (reached cfg), f <+: q) ∨
        ∃ f ∈ cfg.redocUrl.toList.flatMap (reached cfg), f <+: q := by
    simp only [openPrefixes, List.flatMap_append, List.mem_append, or_and_right, exists_or]
  rw [exists_skips_iff hr hq, hsplit, exists_prefix_reached, exists_prefix_reached, openPaths,
    mem_paths_reached]
  simp only [configured]
  constructor
  · rintro ((h | h | h) | ⟨c, t, hc, hroot, hq, h | h | h⟩)
    · exact .inr (.inl h)
    · exact .inl (.inl (.inl h))
    · exact .inl (.inr (.inl h))
    · exact .inr (.inr ⟨c, t, hc, hroot, hq, h⟩)
    · exact .inl (.inl (.inr ⟨c, t, hc, hroot, hq, h⟩))
    · exact .inl (.inr (.inr ⟨c, t, hc, hroot, hq, h⟩))
  · rintro (((h | ⟨c, t, hc, hroot, hq, h⟩) | h | ⟨c, t, hc, hroot, hq, h⟩) |
      h | ⟨c, t, hc, hroot, hq, h⟩)
    · exact .inl (.inr (.inl h))
    · exact .inr ⟨c, t, hc, hroot, hq, .inr (.inl h)⟩
    · exact .inl (.inr (.inr h))
    · exact .inr ⟨c, t, hc, hroot, hq, .inr (.inr h)⟩
    · exact .inl (.inl h)
    · exact .inr ⟨c, t, hc, hroot, hq, .inl h⟩

/-! ## The configurations that skip nothing protected -/

variable (answers : Text → Text → Bool)

/-- No endpoint is open. An endpoint that is read may be hidden behind a documentation page. -/
structure Closed (cfg : ApiConfig) : Prop where
  /-- No other method has a path that begins as the documentation URLs do. -/
  noPrefix : ∀ r ∈ protectedRoutes, r.method ≠ GET →
    ∀ f ∈ openPrefixes cfg, Pattern.begins '/' r.pattern f = false
  /-- No other method has the path of the schema. -/
  noPath : ∀ r ∈ protectedRoutes, r.method ≠ GET → ∀ q ∈ openPaths cfg, r.accepts q = false
  /-- An open path that is read is a documentation page itself. -/
  pages : ∀ r ∈ protectedRoutes, r.method = GET → ∀ q, r.accepts q = true →
    (∃ f ∈ openPrefixes cfg, f <+: q) ∨ q ∈ openPaths cfg → pageTakes answers cfg GET q = true

omit [Casing] in
theorem method_ne_head {r : Route} (hr : r ∈ protectedRoutes) : r.method ≠ HEAD := by
  have h : ∀ r ∈ protectedRoutes, r.method ≠ HEAD := by decide
  exact h r hr

/-- Pages take no other method of an endpoint than `GET`. -/
theorem pageTakes_eq_false {cfg : ApiConfig} {r : Route} (hr : r ∈ protectedRoutes)
    (hm : r.method ≠ GET) (q : Text) : pageTakes answers cfg r.method q = false := by
  simp [pageTakes, hm, method_ne_head hr]

theorem endpoint_isSome_iff {cfg : ApiConfig} {method path : Text} :
    endpoint answers cfg method path ≠ none ↔
      ∃ r ∈ protectedRoutes, r.method = method ∧
        r.accepts (routePath (cfg.apiRootPath.getD []) path) = true ∧
        pageTakes answers cfg method (routePath (cfg.apiRootPath.getD []) path) = false := by
  simp only [endpoint]
  generalize routePath (cfg.apiRootPath.getD []) path = q
  by_cases hp : pageTakes answers cfg method q = true
  · simp [hp]
  · rw [if_neg hp, Ne, List.find?_eq_none]
    simp [hp]

/-- The guards skip no request for a protected endpoint exactly when none is open. -/
theorem skips_only_public_iff (cfg : ApiConfig) :
    (∀ method path, skips cfg path = true → endpoint answers cfg method path = none) ↔
      Closed answers cfg := by
  -- the law, endpoint by endpoint
  have hlaw : (∀ method path, skips cfg path = true → endpoint answers cfg method path = none) ↔
      ∀ r ∈ protectedRoutes, ∀ q, r.accepts q = true → pageTakes answers cfg r.method q = false →
        ¬ ((∃ f ∈ openPrefixes cfg, f <+: q) ∨ q ∈ openPaths cfg) := by
    constructor
    · intro h r hr q hq hpage hopen
      obtain ⟨path, rfl, hskip⟩ := (exists_skips_iff_open hr hq).2 hopen
      exact (endpoint_isSome_iff answers).2 ⟨r, hr, rfl, hq, hpage⟩ (h r.method path hskip)
    · intro h method path hskip
      by_contra hne
      obtain ⟨r, hr, rfl, hq, hpage⟩ := (endpoint_isSome_iff answers).1 hne
      exact h r hr _ hq hpage ((exists_skips_iff_open hr hq).1 ⟨path, rfl, hskip⟩)
  rw [hlaw]
  constructor
  · intro h
    refine ⟨fun r hr hm f hf => ?_, fun r hr hm q hq => ?_, fun r hr hm q hq hopen => ?_⟩
    · rw [← Bool.not_eq_true]
      intro hb
      obtain ⟨q, hq, hp⟩ := (Pattern.begins_iff (x := 'a') (by decide) (separated hr)).1 hb
      exact h r hr q hq (pageTakes_eq_false answers hr hm q) (.inl ⟨f, hf, hp⟩)
    · rw [← Bool.not_eq_true]
      intro ha
      exact h r hr q ha (pageTakes_eq_false answers hr hm q) (.inr hq)
    · by_contra hpage
      exact h r hr q hq (by rw [hm, Bool.eq_false_iff]; exact hpage) hopen
  · intro h r hr q hq hpage hopen
    by_cases hm : r.method = GET
    · rw [hm, h.pages r hr hm q hq hopen] at hpage
      cases hpage
    · rcases hopen with ⟨f, hf, hp⟩ | hmem
      · have := (Pattern.begins_iff (x := 'a') (by decide) (separated hr)).2 ⟨q, hq, hp⟩
        rw [h.noPrefix r hr hm f hf] at this
        cases this
      · rw [h.noPath r hr hm q hmem] at hq
        cases hq

/-- Enough for a configuration: its URLs are apart from every route. -/
theorem closed_of_apart {cfg : ApiConfig}
    (hbegins : ∀ r ∈ protectedRoutes, ∀ f ∈ openPrefixes cfg,
      Pattern.begins '/' r.pattern f = false)
    (hpath : ∀ r ∈ protectedRoutes, ∀ q ∈ openPaths cfg, r.accepts q = false) :
    Closed answers cfg where
  noPrefix r hr _ := hbegins r hr
  noPath r hr _ := hpath r hr
  pages r hr _ q hq hopen := by
    rcases hopen with ⟨f, hf, hp⟩ | hmem
    · have := (Pattern.begins_iff (x := 'a') (by decide) (separated hr)).2 ⟨q, hq, hp⟩
      rw [hbegins r hr f hf] at this
      cases this
    · rw [hpath r hr q hmem] at hq
      cases hq

end

/-- The defaults are closed, whatever the framework makes of them. -/
example (answers : Text → Text → Bool) : @Closed asciiCasing answers ApiConfig.default :=
  @closed_of_apart asciiCasing answers ApiConfig.default (by decide) (by decide)

/-- With the documentation below `/`, everything is open. -/
theorem root_documentation_opens : ¬ ∀ [Casing] (answers : Text → Text → Bool) (cfg : ApiConfig)
    (method path : Text), skips cfg path = true → endpoint answers cfg method path = none := by
  intro h
  have := @h asciiCasing (fun url path => url = path)
    ⟨none, some "/".toList, some "/redoc".toList, some "/openapi.json".toList⟩
    DELETE "/services/app1.example.com".toList (by decide)
  revert this
  decide

end BunkerWeb.Api
