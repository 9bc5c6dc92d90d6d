import BunkerWeb.Lua.Antibot

/-!
# What a passed antibot gate means

A session holds one record for all the services that share it, and `access` does not compare the
type in the record with the type of the service.

* `Backed`: a resolved record was resolved by a cookie, or by a challenge of its own type that the
  history of the session has with its time. Every request of every service keeps this (`backed_step`).
* `passes_iff`: a challenged request passes exactly when the record is resolved and recent enough.
* So the gate keeps its promise in a run in which no service is shown a record of another type
  (`passed_by_own_challenge`). A record of a cookie opens every other service
  (`cookie_passes_javascript`).
-/

namespace BunkerWeb.Lua.Antibot

open Lib.Run

variable {sha256Hex : Text → Text} {i : Request} {w w' : Work} {log : List (UseAntibot × Nat)}

/-! ## The record and the history -/

/-- A resolved record comes from a cookie or from a challenge in the history. -/
def Backed (log : List (UseAntibot × Nat)) (data : Record) : Prop :=
  data.resolved = true →
    ∃ type t, data.type = some type ∧ data.timeValid = some t ∧
      (type = .cookie ∨ (type, t) ∈ log)

theorem backed_empty : Backed log .empty := fun h => absurd h (by decide)

theorem Backed.append {data : Record} (h : Backed log data) (log' : List (UseAntibot × Nat)) :
    Backed (log ++ log') data := by
  intro hres
  obtain ⟨type, t, htype, ht, hor⟩ := h hres
  exact ⟨type, t, htype, ht, hor.imp_right (List.mem_append_left _)⟩

/-- `check_session` keeps the record or starts again. -/
theorem checkSession_cases {service : Service} {now : Nat}
    (h : checkSession service now w = some w') : w' = w ∨ w' = setSessionData .empty := by
  unfold checkSession at h
  split at h
  · exact .inr (Option.some.inj h).symm
  · split at h
    · obtain ⟨t, -, rfl⟩ := Option.map_eq_some_iff.mp h
      exact (ite_eq_or_eq _ _ _).symm
    · obtain ⟨t, -, rfl⟩ := Option.map_eq_some_iff.mp h
      exact (ite_eq_or_eq _ _ _).symm

theorem prepareChallenge_backed (draw : Draw) (h : Backed log w.data) :
    Backed log (prepareChallenge i draw w).data := by
  unfold prepareChallenge
  split
  · exact h
  · split
    · exact h
    · intro hres
      have hcookie : i.service.useAntibot = .cookie := by simpa [setSessionData] using hres
      exact ⟨_, i.now, rfl, by simp [setSessionData, hcookie], .inl hcookie⟩

/-- A challenge of another type than `cookie` is not resolved by its preparation. -/
theorem prepareChallenge_unresolved (draw : Draw) (hkind : i.service.useAntibot ≠ .cookie)
    (h : w.data.resolved = false) : (prepareChallenge i draw w).data.resolved = false := by
  unfold prepareChallenge
  split
  · exact h
  · split
    · exact h
    · simp [setSessionData, hkind]

/-- A check ends with a solved challenge of the type in the record, or changes at most `prepared`. -/
def Checks (i : Request) (data : Record) (r : Verdict × Work) : Prop :=
  (∃ type, data.type = some type ∧ r = resolve i.now data) ∨
    r.1 ≠ .resolved ∧ r.2.data = data

theorem checkToken_checks {name : String} {type : UseAntibot} (h : w.data.type = some type) :
    Checks i w.data (checkToken i name w) := by
  unfold checkToken
  split
  · exact .inr ⟨by simp, rfl⟩
  · exact .inr ⟨by simp, rfl⟩
  · exact .inr ⟨by simp, rfl⟩
  · exact .inl ⟨type, h, rfl⟩

theorem checkChallenge_checks (sha256Hex : Text → Text) (i : Request) (w : Work) :
    Checks i { w.data with prepared := false } (checkChallenge sha256Hex i w) := by
  by_cases hprep : w.data.prepared = false
  · rw [checkChallenge, if_pos hprep]
    exact .inr ⟨by simp, by rw [← hprep]⟩
  · rw [checkChallenge, if_neg hprep]
    dsimp only
    -- the types with a token share one method, the other two compare with the record
    split
    · rename_i htype
      split
      · exact .inr ⟨by simp, rfl⟩
      · exact .inr ⟨by simp, rfl⟩
      · split
        · exact .inl ⟨_, htype, rfl⟩
        · exact .inr ⟨by simp, rfl⟩
    · rename_i htype
      split
      · exact .inr ⟨by simp, rfl⟩
      · exact .inr ⟨by simp, rfl⟩
      · split
        · exact .inr ⟨by simp, rfl⟩
        · exact .inl ⟨_, htype, rfl⟩
    · exact checkToken_checks (w := ⟨{ w.data with prepared := false }, w.updated⟩) ‹_›
    · exact checkToken_checks (w := ⟨{ w.data with prepared := false }, w.updated⟩) ‹_›
    · exact checkToken_checks (w := ⟨{ w.data with prepared := false }, w.updated⟩) ‹_›
    · exact checkToken_checks (w := ⟨{ w.data with prepared := false }, w.updated⟩) ‹_›
    · exact checkToken_checks (w := ⟨{ w.data with prepared := false }, w.updated⟩) ‹_›
    · exact .inr ⟨by simp, rfl⟩
    · exact .inr ⟨by simp, rfl⟩
    · exact .inr ⟨by simp, rfl⟩

/-! ## One request -/

/-- What a reply leaves is backed by the history with what it adds. -/
def Reply.Keeps (r : Reply) (log : List (UseAntibot × Nat)) (now : Nat) : Prop :=
  Backed (log ++ r.log now) r.work.data

theorem keeps_of_backed {answer : Answer} {now : Nat} (h : Backed log w.data) :
    (Reply.mk answer w none).Keeps log now := h.append _

theorem postChallenge_keeps (h : Backed log w.data) :
    (postChallenge sha256Hex i w).Keeps log i.now := by
  have hprep : Backed log { w.data with prepared := false } := h
  unfold postChallenge
  obtain ⟨type, htype, hr⟩ | ⟨hne, hdata⟩ := checkChallenge_checks sha256Hex i w
  · rw [hr]
    intro _
    refine ⟨type, i.now, htype, rfl, .inr (List.mem_append_right _ ?_)⟩
    simp [Reply.log, resolve, setSessionData, show w.data.type = some type from htype]
  · rcases hc : checkChallenge sha256Hex i w with ⟨verdict, w'⟩
    rw [hc] at hne hdata
    have hw' : Backed log w'.data := by rw [show w'.data = _ from hdata]; exact hprep
    cases verdict with
    | error => exact keeps_of_backed hw'
    | wrong => exact keeps_of_backed (prepareChallenge_backed _ hw')
    | resolved => exact absurd rfl hne
    | raised => exact keeps_of_backed hw'

theorem afterCheck_keeps (h : Backed log w.data) :
    (afterCheck sha256Hex i w).Keeps log i.now := by
  have hprep := prepareChallenge_backed (i := i) i.draw h
  unfold afterCheck
  split
  · exact keeps_of_backed h
  · dsimp only
    split
    · exact keeps_of_backed hprep
    · split
      · exact keeps_of_backed hprep
      · split
        · exact keeps_of_backed hprep
        · split
          · exact postChallenge_keeps hprep
          · exact keeps_of_backed hprep

theorem withSession_keeps (h : Backed log w.data) :
    (withSession sha256Hex i w).Keeps log i.now := by
  unfold withSession
  cases hc : checkSession i.service i.now w with
  | none => exact keeps_of_backed h
  | some w' =>
    obtain rfl | rfl := checkSession_cases hc
    · exact afterCheck_keeps h
    · exact afterCheck_keeps backed_empty

/-- Every request of every service keeps the record backed. -/
theorem backed_step (s : Session) (i : Request) (h : Backed s.solved s.data) :
    Backed (step sha256Hex s i).solved (step sha256Hex s i).data := by
  unfold step access
  split
  · exact h
  · split
    · exact h
    · split
      · exact h
      · dsimp only
        split
        · have h0 : Backed [] (Work.mk .empty true).data := backed_empty
          exact withSession_keeps h0
        · exact h
      · dsimp only
        split
        · exact withSession_keeps h
        · exact h.append _

/-! ## What passes -/

/-- A request that has to solve a challenge. -/
def Request.Challenged (i : Request) : Prop :=
  i.service.useAntibot ≠ .no ∧ i.service.useAntibot ≠ .cookie ∧ i.ignored = false

instance : DecidablePred Request.Challenged := fun _ => inferInstanceAs (Decidable (_ ∧ _))

/-- The record is resolved, and recently enough for the service. -/
def Record.Valid (data : Record) (service : Service) (now : Nat) : Prop :=
  data.resolved = true ∧ ∃ t ∈ data.timeValid, service.expired now t = false

instance (data : Record) (service : Service) (now : Nat) : Decidable (data.Valid service now) :=
  inferInstanceAs (Decidable (_ ∧ _))

theorem checkSession_of_valid (h : w.data.Valid i.service i.now) :
    checkSession i.service i.now w = some w := by
  obtain ⟨hres, t, ht, hexp⟩ := h
  rw [Option.mem_def] at ht
  simp [checkSession, hres, ht, hexp]

theorem valid_of_checkSession (h : checkSession i.service i.now w = some w')
    (hres : w'.data.resolved = true) : w.data.Valid i.service i.now := by
  have hne : w' ≠ setSessionData .empty := by
    rintro rfl
    exact absurd hres (by decide)
  obtain rfl := (checkSession_cases h).resolve_right hne
  unfold checkSession at h
  split at h
  · exact absurd (Option.some.inj h).symm hne
  · obtain ⟨t, ht, hw⟩ := Option.map_eq_some_iff.mp h
    refine ⟨hres, t, ht, ?_⟩
    by_contra hexp
    rw [if_pos (by simpa using hexp)] at hw
    exact hne hw.symm

theorem postChallenge_ne_passed : (postChallenge sha256Hex i w).answer ≠ .alreadyResolved := by
  unfold postChallenge
  split <;> simp

theorem afterCheck_passed (hi : i.Challenged) :
    (afterCheck sha256Hex i w).answer = .alreadyResolved ↔ w.data.resolved = true := by
  unfold afterCheck
  by_cases hres : w.data.resolved = true
  · simp [hres]
  · have hprep := prepareChallenge_unresolved i.draw hi.2.1 (Bool.eq_false_iff.mpr hres)
    rw [if_neg hres]
    dsimp only
    rw [if_neg (show ¬ (prepareChallenge i i.draw w).data.resolved = true by simp [hprep])]
    refine iff_of_false (fun h => ?_) hres
    split at h
    · cases h
    · split at h
      · cases h
      · split at h
        · exact postChallenge_ne_passed h
        · cases h

theorem withSession_passed (hi : i.Challenged) :
    (withSession sha256Hex i w).answer = .alreadyResolved ↔ w.data.Valid i.service i.now := by
  unfold withSession
  constructor
  · intro h
    cases hc : checkSession i.service i.now w with
    | none =>
      rw [hc] at h
      cases h
    | some w' =>
      rw [hc] at h
      exact valid_of_checkSession hc ((afterCheck_passed hi).mp h)
  · intro h
    rw [checkSession_of_valid h]
    exact (afterCheck_passed hi).mpr h.1

/-- A challenged request passes with a valid record of the session that it opens. -/
theorem passes_iff (s : Session) (hi : i.Challenged) :
    (access sha256Hex i s).1 = .alreadyResolved ↔
      i.opening = .opened ∧ s.data.Valid i.service i.now := by
  unfold access
  rw [if_neg hi.1, if_neg (show ¬ i.ignored = true by simp [hi.2.2])]
  cases ho : i.opening with
  | failed => simp
  | created =>
    simp only [withSession_passed hi, reduceCtorEq, false_and, iff_false]
    rintro ⟨hres, -⟩
    exact absurd hres (by decide)
  | opened => simp [withSession_passed hi]

/-! ## The gate over a history -/

variable (sha256Hex) in
/-- A challenged request passes only after a challenge of the type of its service, which the
session solved in time. -/
def Gate (s : Session) (i : Request) : Prop :=
  i.Challenged → (access sha256Hex i s).1 = .alreadyResolved →
    ∃ t, (i.service.useAntibot, t) ∈ s.solved ∧ t ≤ i.now ∧
      i.now - t ≤ 1000 * i.service.timeValid

/-- The session shows a challenged request no valid record of another type. -/
def OwnRecord (s : Session) (i : Request) : Prop :=
  i.Challenged → i.opening = .opened → s.data.Valid i.service i.now →
    s.data.type = some i.service.useAntibot

instance (s : Session) (i : Request) : Decidable (OwnRecord s i) :=
  inferInstanceAs (Decidable (_ → _ → _ → _))

theorem gate_of_ownRecord (s : Session) (i : Request) (h : Backed s.solved s.data)
    (hown : OwnRecord s i) : Gate sha256Hex s i := by
  intro hi hpass
  obtain ⟨hopen, hvalid⟩ := (passes_iff s hi).mp hpass
  have htype := hown hi hopen hvalid
  obtain ⟨hres, t, ht, hexp⟩ := hvalid
  obtain ⟨type, t', htype', ht', hor⟩ := h hres
  obtain rfl : type = i.service.useAntibot := Option.some.inj (htype'.symm.trans htype)
  obtain rfl : t' = t := Option.some.inj (ht'.symm.trans ht)
  have hlim : t' ≤ i.now ∧ i.now - t' ≤ 1000 * i.service.timeValid := by
    simpa [Service.expired] using hexp
  exact ⟨t', hor.resolve_left hi.2.1, hlim⟩

/-- What the other way shows: the request passes on a record of another type. -/
theorem foreign_record_passes {s : Session} (h : ¬ OwnRecord s i) :
    (access sha256Hex i s).1 = .alreadyResolved ∧
      s.data.type ≠ some i.service.useAntibot := by
  simp only [OwnRecord, Classical.not_imp] at h
  obtain ⟨hi, hopen, hvalid, htype⟩ := h
  exact ⟨(passes_iff s hi).mpr ⟨hopen, hvalid⟩, htype⟩

/-- In a history that shows no service a record of another type, the gate is passed only by a
challenge of the service's type, solved in the session and in time. -/
theorem passed_by_own_challenge (sha256Hex : Text → Text) (is : List Request)
    (h : Meets (step sha256Hex) OwnRecord .new is) :
    Meets (step sha256Hex) (Gate sha256Hex) .new is :=
  h.of_invariant (fun s i hs _ => backed_step s i hs) gate_of_ownRecord backed_empty

/-! ## Two histories -/

def cookieService : Service := ⟨.cookie, "/challenge".toList, 60, 86400⟩

def javascriptService : Service := ⟨.javascript, "/challenge".toList, 60, 86400⟩

def captchaService : Service := ⟨.captcha, "/challenge".toList, 60, 86400⟩

/-- A GET of a browser for the page `uri`. -/
def visit (service : Service) (now : Nat) (opening : Opening) (uri : String) : Request :=
  { service, now, opening
    ignored := false
    uri := uri.toList
    method := "GET".toList
    isNavigation := true
    post := ⟨false, fun _ => none⟩
    siteverify := none
    draw := ⟨"k3wU5Tq0aRzB7nXcV1yM".toList, "p7d2qa".toList⟩
    redraw := ⟨"Zc8Hn4LsD0oE6uJfY2iG".toList, "m4x9rt".toList⟩
    saved := true }

/-- The answer to the captcha of `visit`. -/
def answerCaptcha (now : Nat) : Request :=
  { visit captchaService now .opened "/challenge" with
    method := "POST".toList
    post := ⟨false, fun name => if name = "captcha".toList then some "p7d2qa".toList else none⟩ }

/-- A page of a cookie service, then one of a service that asks for the javascript challenge. -/
def cookieThenJavascript : List Request :=
  [visit cookieService 1000000 .created "/", visit javascriptService 1000500 .opened "/admin"]

/-- The client never saw the javascript challenge, whatever the digest. -/
theorem cookie_passes_javascript :
    cookieThenJavascript.Pairwise (fun i j => i.now ≤ j.now) ∧
      ∀ sha256Hex, ¬ Meets (step sha256Hex) (Gate sha256Hex) .new cookieThenJavascript := by
  refine ⟨by decide, fun sha256Hex h => ?_⟩
  obtain ⟨-, hgate, -⟩ := h
  obtain ⟨t, ht, -⟩ := hgate (by decide) rfl
  exact List.not_mem_nil ht

/-- A page, its captcha, the answer and the page again. -/
def captchaHistory : List Request :=
  [visit captchaService 1000000 .created "/", visit captchaService 1000100 .opened "/challenge",
    answerCaptcha 1009000, visit captchaService 1009200 .opened "/"]

theorem passed_by_own_challenge_captcha :
    Meets (step fun _ => []) (Gate fun _ => []) .new captchaHistory :=
  passed_by_own_challenge (fun _ => []) captchaHistory (by decide +kernel)

end BunkerWeb.Lua.Antibot
