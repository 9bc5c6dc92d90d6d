import BunkerWeb.Ui.Sessions

/-!
# What the list of revoked sessions does

* `revoked_is_listed`: in every run, a number that was put in `REVOKED_SESSIONS` less than the
  maximum lifetime ago is a key of it, as its decimal string.
* `has_eq_false`: the test of `before_request` looks for the integer, so it never finds one, and no
  request is refused because of the list (`view_runs_iff`).
* So revoked sessions are rejected exactly in the runs in which nobody uses a session that a
  password change or a wipe was to end (`rejects_iff`). `logout_page` also empties the session
  that it revokes, which is why a logout works.
-/

namespace BunkerWeb.Ui

open Lib.Run

variable {cfg : Config} {s : State} {i : Request} {c : Content} {now : Nat}

/-! ## The list -/

@[simp] theorem mem_setKey {key : Text} {value : Nat} {d : List (Text × Nat)} {e : Text × Nat} :
    e ∈ setKey key value d ↔ e ∈ d ∧ e.1 ≠ key ∨ e = (key, value) := by
  simp [setKey]

/-- A key stays. Its time is the old one or `now`. -/
theorem mem_foldl_setKey {ids : List Nat} {d : List (Text × Nat)} {key : Text} {t : Nat}
    (ht : t ≤ now) (h : ∃ ts, t ≤ ts ∧ (key, ts) ∈ d) :
    ∃ ts, t ≤ ts ∧ (key, ts) ∈ ids.foldl (fun d sid => setKey (str sid) now d) d := by
  induction ids generalizing d with
  | nil => exact h
  | cons sid ids ih =>
    apply ih
    by_cases hkey : key = str sid
    · exact ⟨now, ht, mem_setKey.mpr (.inr (by rw [hkey]))⟩
    · obtain ⟨ts, hts, hmem⟩ := h
      exact ⟨ts, hts, mem_setKey.mpr (.inl ⟨hmem, hkey⟩)⟩

/-- The new numbers get a key. -/
theorem mem_foldl_of_mem {ids : List Nat} {d : List (Text × Nat)} {sid : Nat} (h : sid ∈ ids) :
    ∃ ts, now ≤ ts ∧ (str sid, ts) ∈ ids.foldl (fun d sid => setKey (str sid) now d) d := by
  induction ids generalizing d with
  | nil => cases h
  | cons sid' ids ih =>
    rw [List.foldl_cons]
    obtain rfl | h := List.mem_cons.mp h
    · have hnew : (str sid, now) ∈ setKey (str sid) now d := mem_setKey.mpr (.inr rfl)
      exact mem_foldl_setKey (Nat.le_refl now) ⟨now, Nat.le_refl now, hnew⟩
    · exact ih h

/-- Every number of the history is listed until the lifetime has passed. -/
def Listed (cfg : Config) (now : Nat) (s : State) : Prop :=
  ∀ e ∈ s.log, e.2 ≤ now ∧
    (now - e.2 < cfg.ttl → ∃ ts, e.2 ≤ ts ∧ (str e.1, ts) ∈ s.revoked.entries)

theorem Listed.mono {now' : Nat} (h : Listed cfg now s) (hle : now ≤ now') :
    Listed cfg now' s := by
  intro e he
  obtain ⟨hnow, hlist⟩ := h e he
  exact ⟨Nat.le_trans hnow hle, fun hlt => hlist (by omega)⟩

/-- Only the list and its history count. -/
theorem Listed.congr {s' : State} (h : Listed cfg now s) (hrev : s'.revoked = s.revoked)
    (hlog : s'.log = s.log) : Listed cfg now s' := by
  rw [Listed, hrev, hlog]
  exact h

theorem Listed.revoke (h : Listed cfg now s) (ids : List Nat) :
    Listed cfg now (s.revoke cfg now ids) := by
  intro e he
  obtain he | he := List.mem_append.mp he
  · obtain ⟨hnow, hlist⟩ := h e he
    refine ⟨hnow, fun hlt => ?_⟩
    obtain ⟨ts, hts, hmem⟩ := hlist hlt
    -- an entry that is young enough is not pruned
    have hkept : (str e.1, ts) ∈ pruneRevokedSessions cfg now s.revoked := by
      cases hrev : s.revoked with
      | missing => rw [hrev] at hmem; cases hmem
      | legacy ids => rw [hrev] at hmem; cases hmem
      | dict entries =>
        rw [hrev] at hmem
        exact List.mem_filter.mpr ⟨hmem, by simp only [decide_eq_true_eq]; omega⟩
    exact mem_foldl_setKey hnow ⟨ts, hts, hkept⟩
  · obtain ⟨sid, hsid, rfl⟩ := List.mem_map.mp he
    exact ⟨Nat.le_refl now, fun _ => mem_foldl_of_mem hsid⟩

/-- What a request does to the list: nothing, or one `add_revoked_sessions` at its time. -/
theorem step_list (cfg : Config) (s : State) (i : Request) :
    ((step cfg s i).revoked = s.revoked ∧ (step cfg s i).log = s.log) ∨
      ∃ ids, (step cfg s i).revoked = (s.revoke cfg i.now ids).revoked ∧
        (step cfg s i).log = (s.revoke cfg i.now ids).log := by
  have hlogout (cookie : Text) (c : Content) :
      ((logoutPage cfg s i.now cookie c).revoked = s.revoked ∧
        (logoutPage cfg s i.now cookie c).log = s.log) ∨
      ∃ ids, (logoutPage cfg s i.now cookie c).revoked = (s.revoke cfg i.now ids).revoked ∧
        (logoutPage cfg s i.now cookie c).log = (s.revoke cfg i.now ids).log := by
    unfold logoutPage
    split
    · exact .inr ⟨_, rfl, rfl⟩
    · exact .inl ⟨rfl, rfl⟩
  have hothers (c : Content) (deleted : Bool) (p : Text → Content → Bool) :
      ∃ ids, ((s.revokeOthers cfg i.now c deleted).markEnded p).revoked =
          (s.revoke cfg i.now ids).revoked ∧
        ((s.revokeOthers cfg i.now c deleted).markEnded p).log =
          (s.revoke cfg i.now ids).log := by
    refine ⟨s.otherIds c, ?_⟩
    cases deleted <;> exact ⟨rfl, rfl⟩
  have hanonymous : (anonymous s i.now i.action).2.revoked = s.revoked ∧
      (anonymous s i.now i.action).2.log = s.log := by
    unfold anonymous
    split
    · split <;> exact ⟨rfl, rfl⟩
    · exact ⟨rfl, rfl⟩
  unfold step respond
  split
  · exact .inl hanonymous
  · split
    · exact .inl hanonymous
    · unfold withUser
      split
      · exact .inl ⟨rfl, rfl⟩
      · split
        · exact .inl ⟨rfl, rfl⟩
        · exact hlogout _ _
        · split
          · exact hlogout _ _
          · cases i.action with
            | page => exact .inl ⟨rfl, rfl⟩
            | logout => exact hlogout _ _
            | login user ok cookie marked => exact .inl ⟨rfl, rfl⟩
            | editPassword ok deleted =>
              cases ok with
              | false => exact .inl ⟨rfl, rfl⟩
              | true => exact .inr (hothers _ _ _)
            | wipeOldSessions ok deleted =>
              cases ok with
              | false => exact .inl ⟨rfl, rfl⟩
              | true => exact .inr (hothers _ _ _)

theorem listed_step (h : Listed cfg now s) (hle : now ≤ i.now) :
    Listed cfg i.now (step cfg s i) := by
  have h' := h.mono hle
  obtain ⟨hrev, hlog⟩ | ⟨ids, hrev, hlog⟩ := step_list cfg s i
  · exact h'.congr hrev hlog
  · exact (h'.revoke ids).congr hrev hlog

theorem listed_run {is : List Request} (h : Listed cfg now s)
    (hclock : (now :: is.map Request.now).IsChain (· ≤ ·)) {last : Nat}
    (hlast : ∀ t ∈ now :: is.map Request.now, t ≤ last) :
    Listed cfg last (run (step cfg) s is) := by
  induction is generalizing s now with
  | nil => exact h.mono (hlast now (by simp))
  | cons i is ih =>
    rw [List.map_cons, List.isChain_cons_cons] at hclock
    exact ih (listed_step h hclock.1) hclock.2 fun t ht => hlast t (List.mem_cons_of_mem _ ht)

/-- The list is complete: a number revoked less than the maximum lifetime ago is in it, as text. -/
theorem revoked_is_listed (cfg : Config) (revoked : Revoked) (is : List Request)
    (hclock : (is.map Request.now).IsChain (· ≤ ·)) {last : Nat}
    (hlast : ∀ i ∈ is, i.now ≤ last) {e : Nat × Nat}
    (he : e ∈ (run (step cfg) (.start revoked) is).log) (hlt : last - e.2 < cfg.ttl) :
    Scalar.str (str e.1) ∈ (run (step cfg) (.start revoked) is).revoked.keys := by
  have h0 : Listed cfg 0 (.start revoked) := fun e he => nomatch he
  have hclock' : (0 :: is.map Request.now).IsChain (· ≤ ·) := by
    cases is with
    | nil => exact .singleton _
    | cons i is => exact List.isChain_cons_cons.mpr ⟨Nat.zero_le _, hclock⟩
  have hlast' : ∀ t ∈ 0 :: is.map Request.now, t ≤ last := by simpa using hlast
  obtain ⟨-, hlist⟩ := listed_run h0 hclock' hlast' e he
  obtain ⟨ts, -, hmem⟩ := hlist hlt
  cases hrev : (run (step cfg) (.start revoked) is).revoked with
  | missing => rw [hrev] at hmem; cases hmem
  | legacy ids => rw [hrev] at hmem; cases hmem
  | dict entries =>
    rw [hrev] at hmem
    exact List.mem_map.mpr ⟨_, hmem, rfl⟩

/-! ## The test -/

/-- No integer is a key of the list. -/
theorem has_eq_false (revoked : Revoked) (id : Nat) : revoked.has id = false := by
  cases revoked <;> simp [Revoked.has, Revoked.keys]

/-- The session of a request. -/
def session (s : State) (i : Request) : Option Content := i.cookie.bind s.store

theorem respond_of_session (cfg : Config) (h : c ∈ session s i) :
    ∃ cookie, respond cfg s i = withUser cfg s i cookie c := by
  obtain ⟨cookie, hcookie, hc⟩ := Option.bind_eq_some_iff.mp h
  exact ⟨cookie, by simp [respond, hcookie, hc]⟩

/-- A view runs whenever the other tests pass. -/
theorem view_runs_iff (h : c ∈ session s i) :
    (respond cfg s i).1 = .served ↔
      cfg.overAge i.now c = false ∧ i.check = .passed ∧ i.action ≠ .logout := by
  obtain ⟨cookie, hr⟩ := respond_of_session cfg h
  have hany : c.sessionId.any s.revoked.has = false := by
    cases c.sessionId with
    | none => rfl
    | some id => exact has_eq_false _ _
  rw [hr, withUser]
  cases cfg.overAge i.now c with
  | true => simp
  | false =>
    cases i.check with
    | toTotp => simp
    | failed => simp
    | passed =>
      rw [hany]
      cases i.action <;> simp [view]

theorem never_refused_revoked (h : c ∈ session s i) : (respond cfg s i).1 ≠ .refused true := by
  obtain ⟨cookie, hr⟩ := respond_of_session cfg h
  have hany : c.sessionId.any s.revoked.has = false := by
    cases c.sessionId with
    | none => rfl
    | some id => exact has_eq_false _ _
  rw [hr, withUser, hany]
  cases cfg.overAge i.now c with
  | true => simp
  | false =>
    cases i.check with
    | toTotp => simp
    | failed => simp
    | passed => cases i.action <;> simp [view]

/-! ## Runs -/

variable (cfg) in
/-- The session is neither to be ended nor revoked less than the maximum lifetime ago. -/
def Alive (s : State) (now : Nat) (c : Content) : Prop :=
  c.ended = false ∧ ∀ e ∈ s.log, some e.1 = c.sessionId → cfg.ttl ≤ now - e.2

instance (s : State) (now : Nat) (c : Content) : Decidable (Alive cfg s now c) :=
  inferInstanceAs (Decidable (_ ∧ _))

variable (cfg) in
/-- A view runs only for a session that is alive, and the list is the reason of a refusal only
when the session was revoked after it was opened. -/
def Rejects (s : State) (i : Request) : Prop :=
  ∀ c ∈ session s i,
    ((respond cfg s i).1 = .served → Alive cfg s i.now c) ∧
    ((respond cfg s i).1 = .refused true →
      ∃ e ∈ s.log, some e.1 = c.sessionId ∧ c.creationDate ≤ e.2)

variable (cfg) in
/-- Whoever passes the other tests, except for `/logout`, has a session that is alive. -/
def Unused (s : State) (i : Request) : Prop :=
  ∀ c ∈ session s i, cfg.overAge i.now c = false → i.check = .passed → i.action ≠ .logout →
    Alive cfg s i.now c

instance (s : State) (i : Request) : Decidable (Unused cfg s i) :=
  inferInstanceAs (Decidable (∀ c ∈ session s i, _ → _ → _ → _))

theorem rejects_step (s : State) (i : Request) : Rejects cfg s i ↔ Unused cfg s i := by
  constructor
  · intro h c hc hage hcheck haction
    exact (h c hc).1 ((view_runs_iff hc).mpr ⟨hage, hcheck, haction⟩)
  · intro h c hc
    refine ⟨fun hserved => ?_, fun href => absurd href (never_refused_revoked hc)⟩
    obtain ⟨hage, hcheck, haction⟩ := (view_runs_iff hc).mp hserved
    exact h c hc hage hcheck haction

/-- Revoked sessions are rejected in the runs in which nobody uses one. -/
theorem rejects_iff (cfg : Config) (revoked : Revoked) (is : List Request) :
    Meets (step cfg) (Rejects cfg) (.start revoked) is ↔
      Meets (step cfg) (Unused cfg) (.start revoked) is :=
  ⟨Meets.mono fun s i => (rejects_step s i).mp, Meets.mono fun s i => (rejects_step s i).mpr⟩

/-! ## A session that outlives the password -/

/-- The default lifetimes. -/
def defaultConfig : Config := ⟨168 * 3600, 12 * 3600⟩

def loginFrom (now : Nat) (cookie : String) (id : Nat) : Request :=
  ⟨now * second, none, .passed, .login "admin".toList true cookie.toList (some id)⟩

def requestFrom (now : Nat) (cookie : String) (action : Action) : Request :=
  ⟨now * second, some cookie.toList, .passed, action⟩

/-- A session on another machine, then one in which the password is changed. -/
def passwordChange : List Request :=
  [loginFrom 1000 "Tk3v" 1, loginFrom 5000 "pX9c" 2,
    requestFrom 5060 "pX9c" (.editPassword true true), requestFrom 5061 "pX9c" .logout,
    requestFrom 5120 "Tk3v" .page]

/-- The session of the other machine goes on. -/
theorem session_outlives_password :
    ¬ Meets (step defaultConfig) (Rejects defaultConfig) (.start .missing) passwordChange := by
  intro h
  have hunused : ¬ Meets (step defaultConfig) (Unused defaultConfig) (.start .missing)
      passwordChange := by decide +kernel
  exact hunused (h.mono fun s i => (rejects_step s i).mp)

/-- Its number is in the list, as text. -/
example : (run (step defaultConfig) (.start .missing) passwordChange).revoked =
    .dict [(['1'], 5060 * second), (['2'], 5061 * second)] := by decide +kernel

end BunkerWeb.Ui
