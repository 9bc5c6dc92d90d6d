import BunkerWeb.Lua.AccessPhase

/-!
# Plugins that are off

- **One plugin** (`call_of_quiet`, `call_of_loud`): with its settings off, a core plugin leaves the
  context alone; it says nothing, but for `letsencrypt` and `securitytxt` on some URIs.
- **The loop** (`sameDecision_iff`): the phase with the plugin decides as the phase without it when
  the plugin is quiet, when the loop does not come to it, or when a stop in detect mode hides
  nothing.
-/

namespace BunkerWeb.Lua.Access

open Lib
open BadBehavior (SecurityMode)

/-- The settings that activate a plugin, with their values when it is off. -/
def activation : CorePlugin → List (Setting × Text)
  | .ssl => [(.redirectHttpToHttps, no), (.autoRedirectHttpToHttps, no)]
  | .whitelist => [(.useWhitelist, no)]
  | .letsencrypt => [(.autoLetsEncrypt, no)]
  | .blacklist => [(.useBlacklist, no)]
  | .greylist => [(.useGreylist, no)]
  | .country => [(.whitelistCountry, []), (.blacklistCountry, [])]
  | .dnsbl => [(.useDnsbl, no)]
  | .crowdsec => [(.useCrowdsec, no)]
  | .bunkernet => [(.useBunkernet, no)]
  | .reversescan => [(.useReverseScan, no)]
  | .limit => [(.useLimitReq, no), (.useLimitReqGlobal, no)]
  | .authbasic => [(.useAuthBasic, no)]
  | .mtls => [(.useMtls, no)]
  | .misc => []
  | .cors => [(.useCors, no)]
  | .securitytxt => [(.useSecuritytxt, no)]
  | .robotstxt => [(.useRobotstxt, no)]
  | .antibot => [(.useAntibot, no)]

/-- The plugin is off for the service. -/
def Off (site : Site) (p : CorePlugin) : Prop :=
  activation p ≠ [] ∧ ∀ s ∈ activation p, site.vars s.1 = s.2

variable {σ : Type*} (ph : Phase σ)

/-- The plugin has nothing to say about the request while it is off. -/
def Quiet : CorePlugin → Prop
  | .letsencrypt =>
    ph.site.vars .letsEncryptPassthrough ≠ no ∨ ¬ acmeChallenge <+: ph.request.uri
  | .securitytxt =>
    ph.request.uri ≠ ph.site.vars .securitytxtUri ∧ ph.request.uri ≠ "/security.txt".toList
  | _ => True

/-- Two reports about a request agree, `p` aside. -/
def SameDecision (p : CorePlugin) (r r' : Report) : Prop :=
  r.answer = r'.answer ∧ ∀ id, id ≠ .core p → (id ∈ r.ran ↔ id ∈ r'.ran)

/-! ## One plugin -/

variable {ph} {p : CorePlugin}

theorem isNeeded_of_off {site : Site} {settings : List Setting}
    (h : ∀ s ∈ settings, site.vars s = no) : site.isNeeded settings = false := by
  unfold Site.isNeeded
  split
  · rfl
  · rw [if_pos site.isService, List.any_eq_false]
    intro s hs
    rw [h s hs]
    decide

theorem gate_of_off {msg : String} {needed : Bool} (h : needed = false) (ctx : σ) :
    gate ph needed msg p ctx = (ctx, some (success msg)) := by
  rw [gate, h, if_neg Bool.false_ne_true]

@[simp] theorem turn_success (mode : SecurityMode) (msg : String) :
    turn mode (some (success msg)) = none := rfl

/-- A method that only says that all is well. -/
theorem call_of_success (msg : σ → String)
    (h : ∀ ctx, coreAccess ph p ctx = (ctx, some (success (msg ctx)))) :
    call ph (.core p) = some fun ctx => (ctx, none) := by
  simp [call, h]

/-- A method behind its gate. -/
theorem call_of_gate {needed : Bool} {msg : String}
    (h : coreAccess ph p = gate ph needed msg p) (hoff : needed = false) :
    call ph (.core p) = some fun ctx => (ctx, none) :=
  call_of_success (fun _ => msg) fun ctx => by rw [h, gate_of_off hoff]

/-- A method whose gate is `is_needed` on its settings. -/
theorem call_of_unneeded {settings : List Setting} {msg : String}
    (h : coreAccess ph p = gate ph (ph.site.isNeeded settings) msg p)
    (hoff : ∀ s ∈ settings, ph.site.vars s = no) :
    call ph (.core p) = some fun ctx => (ctx, none) :=
  call_of_gate h (isNeeded_of_off hoff)

/-- A method whose gate is one setting. -/
theorem call_of_not_yes {s : Setting} {msg : String}
    (h : coreAccess ph p = gate ph (ph.site.vars s = yes) msg p)
    (hoff : ph.site.vars s = no) :
    call ph (.core p) = some fun ctx => (ctx, none) :=
  call_of_gate h (by rw [hoff]; decide)

theorem ssl_of_off (hoff : Off ph.site .ssl) (ctx : σ) :
    sslAccess ph ctx = (ctx, some (success "no redirect to HTTPS needed")) := by
  have hyes : no ≠ yes := by decide
  have h := hoff.2
  simp only [activation, List.mem_cons, List.not_mem_nil, or_false, forall_eq_or_imp,
    forall_eq] at h
  simp only [sslAccess, h, hyes, and_false, or_self, if_false]

theorem limit_of_off (hoff : Off ph.site .limit) (ctx : σ) :
    ∃ msg, limitAccess ph ctx = (ctx, some (success msg)) := by
  have h : ∀ s ∈ [Setting.useLimitReq, .useLimitReqGlobal], ph.site.vars s = no := by
    simpa [activation] using hoff.2
  rw [limitAccess, gate_of_off (isNeeded_of_off h)]
  split
  · exact ⟨_, rfl⟩
  · exact ⟨_, rfl⟩

/-- A quiet plugin that is off goes on. -/
theorem call_of_quiet (hoff : Off ph.site p) (hquiet : Quiet ph p) :
    call ph (.core p) = some fun ctx => (ctx, none) := by
  have h := hoff.2
  cases p with
  | ssl => exact call_of_success _ (ssl_of_off hoff)
  | whitelist => exact call_of_unneeded rfl (by simpa [activation] using h)
  | letsencrypt =>
    refine call_of_success (fun _ => "success") fun ctx => ?_
    rw [coreAccess, letsencryptAccess, if_neg]
    rintro ⟨hpass, huri⟩
    exact hquiet.elim (fun h => h hpass) fun h => h huri
  | blacklist => exact call_of_unneeded rfl (by simpa [activation] using h)
  | greylist => exact call_of_unneeded rfl (by simpa [activation] using h)
  | country => exact call_of_gate rfl (by simpa [activation] using h)
  | dnsbl => exact call_of_not_yes rfl (by simpa [activation] using h)
  | crowdsec => exact call_of_not_yes rfl (by simpa [activation] using h)
  | bunkernet => exact call_of_unneeded rfl (by simpa [activation] using h)
  | reversescan => exact call_of_not_yes rfl (by simpa [activation] using h)
  | limit =>
    choose msg hmsg using limit_of_off hoff
    exact call_of_success msg hmsg
  | authbasic => exact call_of_unneeded rfl (by simpa [activation] using h)
  | mtls => exact call_of_unneeded rfl (by simpa [activation] using h)
  | misc => exact absurd rfl hoff.1
  | cors => exact call_of_not_yes rfl (by simpa [activation] using h)
  | securitytxt =>
    refine call_of_success (fun _ => "success") fun ctx => ?_
    exact if_pos hquiet
  | robotstxt =>
    refine call_of_success (fun _ => "success") fun ctx => ?_
    have hneed : ph.site.isNeeded [.useRobotstxt] = false :=
      isNeeded_of_off (by simpa [activation] using h)
    rw [coreAccess, robotstxtAccess, if_neg (by simp [hneed])]
  | antibot =>
    exact call_of_gate rfl (by simpa [activation] using h)

/-- A plugin that is off and not quiet ends the loop with the status of success. -/
theorem call_of_loud (hloud : ¬ Quiet ph p) :
    ∃ msg, call ph (.core p) =
      some fun ctx => (ctx, turn ph.securityMode (some ⟨true, msg, some OK, none⟩)) := by
  cases p with
  | letsencrypt =>
    rw [Quiet, not_or, not_not, not_not] at hloud
    refine ⟨"visit from LE", ?_⟩
    have h : letsencryptAccess ph =
        fun ctx => (ctx, some ⟨true, "visit from LE", some OK, none⟩) := by
      funext ctx
      rw [letsencryptAccess, if_pos hloud]
    rw [call, coreAccess, h]
    rfl
  | securitytxt =>
    refine ⟨"security.txt requested", ?_⟩
    have h : securitytxtAccess ph =
        fun ctx => (ctx, some ⟨true, "security.txt requested", some OK, none⟩) := by
      funext ctx
      exact if_neg hloud
    rw [call, coreAccess, h]
    rfl
  | _ => exact absurd trivial hloud

/-! ## The loop -/

variable (ph)

/-- The loop of the phase comes to the plugin: nothing before it answers the request. -/
def Arrives (p : CorePlugin) (order : List Id) (ctx : σ) : Prop :=
  ph.isInternal = false ∧ (ph.isWhitelisted ctx = true ∨ ph.isBanned ctx = false) ∧
    .core p ∈ order ∧
      (Stages.run (call ph) (order.takeWhile (· ≠ .core p)) ctx).stop = none

/-- No plugin that could be called stands behind this one. -/
def Last (p : CorePlugin) (order : List Id) : Prop :=
  ∀ id ∈ (order.dropWhile (· ≠ .core p)).tail, call ph id = none

variable {ph} {order : List Id} {ctx : σ}

/-- What stands before the plugin and behind it, in an order without repetition. -/
theorem order_split {l l' : List Id} (h : (l ++ .core p :: l').Nodup) :
    (l ++ .core p :: l').takeWhile (· ≠ .core p) = l ∧
      ((l ++ .core p :: l').dropWhile (· ≠ .core p)).tail = l' := by
  have hl : ∀ id ∈ l, decide (id ≠ .core p) = true := by
    intro id hid
    simpa using (List.nodup_append.1 h).2.2 id hid _ List.mem_cons_self
  rw [List.takeWhile_append_of_pos hl, List.dropWhile_append_of_pos hl,
    List.takeWhile_cons_of_neg (by simp), List.dropWhile_cons_of_neg (by simp)]
  exact ⟨List.append_nil l, rfl⟩

/-- The phase comes to the loop, or answers without the plugins. -/
theorem accessPhase_cases (ph : Phase σ) (ctx : σ) :
    ¬ (ph.isInternal = false ∧ (ph.isWhitelisted ctx = true ∨ ph.isBanned ctx = false)) ∧
        (∀ l l', accessPhase ph l ctx = accessPhase ph l' ctx) ∨
      (ph.isInternal = false ∧ (ph.isWhitelisted ctx = true ∨ ph.isBanned ctx = false)) ∧
        ∀ l, accessPhase ph l ctx =
          ⟨answer (Stages.run (call ph) l ctx).stop, (Stages.run (call ph) l ctx).ran⟩ := by
  unfold accessPhase
  cases ph.isInternal
  · cases hw : ph.isWhitelisted ctx
    · cases hb : ph.isBanned ctx
      · exact .inr ⟨⟨rfl, .inr rfl⟩, fun l => by simp⟩
      · exact .inl ⟨by simp, fun l l' => by simp⟩
    · exact .inr ⟨⟨rfl, .inl rfl⟩, fun l => by simp⟩
  · exact .inl ⟨by simp, fun l l' => by simp⟩

theorem sameDecision_refl (r : Report) : SameDecision p r r := ⟨rfl, fun _ _ => Iff.rfl⟩

/-- A quiet plugin makes no difference. -/
theorem same_of_quiet (hcall : call ph (.core p) = some fun ctx => (ctx, none))
    (l l' : List Id) (ctx : σ) :
    (Stages.run (call ph) (l ++ .core p :: l') ctx).stop =
        (Stages.run (call ph) (l ++ l') ctx).stop ∧
      ∀ id, id ≠ .core p → (id ∈ (Stages.run (call ph) (l ++ .core p :: l') ctx).ran ↔
        id ∈ (Stages.run (call ph) (l ++ l') ctx).ran) := by
  rw [Stages.run_append, Stages.run_append]
  cases hstop : (Stages.run (call ph) l ctx).stop with
  | some b => simp [Stages.andThen_of_stop hstop]
  | none =>
    rw [Stages.andThen_of_none hstop, Stages.andThen_of_none hstop, Stages.run_cons_silent hcall]
    refine ⟨rfl, fun id hid => ?_⟩
    simp [hid]

/-- A plugin that is never reached makes no difference. -/
theorem same_of_stopped {l l' : List Id} (h : (Stages.run (call ph) l ctx).stop ≠ none) :
    Stages.run (call ph) (l ++ .core p :: l') ctx = Stages.run (call ph) (l ++ l') ctx := by
  obtain ⟨b, hb⟩ := Option.ne_none_iff_exists'.1 h
  rw [Stages.run_append, Stages.run_append, Stages.andThen_of_stop hb, Stages.andThen_of_stop hb]

/-- A loud plugin that is reached decides, unless detect mode makes nothing of its answer and no
other plugin was left. -/
theorem same_of_loud_iff {msg : String}
    (hcall : call ph (.core p) =
      some fun ctx => (ctx, turn ph.securityMode (some ⟨true, msg, some OK, none⟩)))
    {l l' : List Id} (hnodup : (l ++ .core p :: l').Nodup)
    (hreach : (Stages.run (call ph) l ctx).stop = none) :
    (answer (Stages.run (call ph) (l ++ .core p :: l') ctx).stop =
        answer (Stages.run (call ph) (l ++ l') ctx).stop ∧
      ∀ id, id ≠ .core p → (id ∈ (Stages.run (call ph) (l ++ .core p :: l') ctx).ran ↔
        id ∈ (Stages.run (call ph) (l ++ l') ctx).ran)) ↔
      ph.securityMode = .detect ∧ ∀ id ∈ l', call ph id = none := by
  obtain ⟨-, hnodup', hdis⟩ := List.nodup_append.1 hnodup
  have hnot := (List.nodup_cons.1 hnodup').1
  -- where the two runs part
  have hwith : ∃ b, turn ph.securityMode (some ⟨true, msg, some OK, none⟩) = some b ∧
      answer (some b) = if ph.securityMode = .detect then .pass else .exit OK none := by
    cases ph.securityMode
    · exact ⟨_, rfl, rfl⟩
    · exact ⟨_, rfl, rfl⟩
  obtain ⟨b, hb, hanswer⟩ := hwith
  rw [hb] at hcall
  rw [Stages.run_append, Stages.run_append, Stages.andThen_of_none hreach,
    Stages.andThen_of_none hreach, Stages.run_cons_stops hcall]
  simp only [hanswer]
  generalize (Stages.run (call ph) l ctx).state = ctx'
  constructor
  · rintro ⟨hsame, hran⟩
    have hnil : (Stages.run (call ph) l' ctx').ran = [] := by
      by_contra hne
      obtain ⟨id, hid⟩ := List.exists_mem_of_ne_nil _ hne
      have hmem := Stages.ran_subset id hid
      have hcore : id ≠ .core p := fun he => hnot (he ▸ hmem)
      have hl := (hran id hcore).2 (List.mem_append_right _ hid)
      rw [List.mem_append, List.mem_singleton] at hl
      exact hdis id (Stages.ran_subset id (hl.resolve_right hcore)) id
        (List.mem_cons_of_mem _ hmem) rfl
    rw [Stages.stop_of_ran_nil hnil] at hsame
    refine ⟨?_, Stages.ran_eq_nil.1 hnil⟩
    by_contra hmode
    rw [if_neg hmode] at hsame
    cases hsame
  · rintro ⟨hmode, hnone⟩
    have hnil : (Stages.run (call ph) l' ctx').ran = [] := Stages.ran_eq_nil.2 hnone
    rw [Stages.stop_of_ran_nil hnil, hnil, if_pos hmode]
    refine ⟨rfl, fun id hid => ?_⟩
    simp [hid]

/-- With the plugin off, the phase decides as without it exactly when the plugin is quiet, or the
loop does not come to it, or the mode is to detect and no other plugin was left. -/
theorem sameDecision_iff (ph : Phase σ) (p : CorePlugin) (hoff : Off ph.site p) (order : List Id)
    (hnodup : order.Nodup) (ctx : σ) :
    SameDecision p (accessPhase ph order ctx)
        (accessPhase ph (order.filter (· ≠ .core p)) ctx) ↔
      Quiet ph p ∨ ¬ Arrives ph p order ctx ∨
        ph.securityMode = .detect ∧ Last ph p order := by
  by_cases hmem : Id.core p ∈ order
  swap
  · -- the plugin is in no place of the order
    have hfilter : order.filter (· ≠ .core p) = order := by
      rw [List.filter_eq_self]
      intro id hid
      simpa using fun he : id = .core p => hmem (he ▸ hid)
    rw [hfilter]
    exact ⟨fun _ => .inr (.inl fun h => hmem h.2.2.1), fun _ => sameDecision_refl _⟩
  obtain ⟨l, l', rfl⟩ := List.append_of_mem hmem
  obtain ⟨hbefore, hbehind⟩ := order_split hnodup
  rw [Stages.filter_ne_of_nodup hnodup]
  rcases accessPhase_cases ph ctx with ⟨hout, hsame⟩ | ⟨hin, hloop⟩
  · rw [hsame _ (l ++ l')]
    exact ⟨fun _ => .inr (.inl fun h => hout ⟨h.1, h.2.1⟩), fun _ => sameDecision_refl _⟩
  · rw [SameDecision, hloop, hloop, Last, hbehind]
    have harrives : Arrives ph p (l ++ .core p :: l') ctx ↔
        (Stages.run (call ph) l ctx).stop = none := by
      rw [Arrives, hbefore]
      exact ⟨fun h => h.2.2.2, fun h => ⟨hin.1, hin.2, hmem, h⟩⟩
    rw [harrives]
    by_cases hreach : (Stages.run (call ph) l ctx).stop = none
    swap
    · rw [same_of_stopped hreach]
      exact ⟨fun _ => .inr (.inl hreach), fun _ => ⟨rfl, fun _ _ => Iff.rfl⟩⟩
    by_cases hquiet : Quiet ph p
    · obtain ⟨hstop, hran⟩ := same_of_quiet (call_of_quiet hoff hquiet) l l' ctx
      exact ⟨fun _ => .inl hquiet, fun _ => ⟨by rw [hstop], hran⟩⟩
    · obtain ⟨msg, hcall⟩ := call_of_loud hquiet
      have hloud := same_of_loud_iff hcall hnodup hreach
      simp only [hquiet, hreach, not_true_eq_false, false_or]
      exact hloud

/-! ## A service without security.txt -/

/-- `order.json`, with the plugin that it leaves out. -/
def defaultOrder : List Id :=
  [.core .ssl, .core .whitelist, .core .letsencrypt, .core .blacklist, .core .greylist,
    .core .country, .core .dnsbl, .core .crowdsec, .core .bunkernet, .core .reversescan,
    .core .limit, .core .authbasic, .core .misc, .core .cors, .core .securitytxt,
    .core .robotstxt, .core .antibot, .core .mtls]

/-- The default settings but for the antibot challenge, and a request for `/security.txt`. -/
def securityPhase : Phase Unit where
  site :=
    { serverName := "www.example.com".toList
      isLoading := false
      vars := fun
        | .useBlacklist | .useWhitelist | .useBunkernet | .useLimitReq | .useDnsbl => yes
        | .autoRedirectHttpToHttps => yes
        | .useAntibot => "javascript".toList
        | .securitytxtUri => "/.well-known/security.txt".toList
        | .whitelistCountry | .blacklistCountry => []
        | _ => no
      hasVariable := fun _ => false
      isService := by decide }
  request :=
    { uri := "/security.txt".toList
      scheme := "http".toList
      httpsConfigured := no
      requestUri := none
      httpHost := none }
  isInternal := false
  securityMode := .block
  denyStatus := 403
  isWhitelisted := fun _ => false
  isBanned := fun _ => false
  active := fun
    | .antibot => fun ctx =>
      (ctx, some ⟨true, "redirecting client to the challenge uri", none, some "/challenge".toList⟩)
    | _ => fun ctx => (ctx, some (success "success"))
  others := fun _ => none

/-- `securitytxt` is off, and the challenge is skipped all the same. -/
theorem securitytxt_hides_antibot : ¬ ∀ (ph : Phase Unit) (p : CorePlugin), Off ph.site p →
    ∀ order : List Id, order.Nodup → ∀ ctx, SameDecision p (accessPhase ph order ctx)
      (accessPhase ph (order.filter (· ≠ .core p)) ctx) := by
  intro h
  have hoff : Off securityPhase.site .securitytxt := ⟨by decide, by decide⟩
  have hanswer := (h securityPhase .securitytxt hoff defaultOrder (by decide) ()).1
  revert hanswer
  decide

/-- The condition for `robotstxt`, off by default. -/
theorem sameDecision_iff_robotstxt :
    SameDecision .robotstxt (accessPhase securityPhase defaultOrder ())
        (accessPhase securityPhase (defaultOrder.filter (· ≠ .core .robotstxt)) ()) ↔
      Quiet securityPhase .robotstxt ∨ ¬ Arrives securityPhase .robotstxt defaultOrder () ∨
        securityPhase.securityMode = .detect ∧ Last securityPhase .robotstxt defaultOrder :=
  sameDecision_iff securityPhase .robotstxt ⟨by decide, by decide⟩ defaultOrder (by decide) ()

end BunkerWeb.Lua.Access
