import BunkerWeb.Lua.BanLookup
import BunkerWeb.Lua.Banning
import BunkerWeb.Lua.Counting
import BunkerWeb.Lua.Unban

/-!
# Requests that must not ban

A request recorded in detect mode, or from a whitelisted address, raises the counter of its key as
any other does. The loop that adds bans checks the mode and the whitelist; the script of
`redis_increase`, which writes a ban of its own when the counter in Redis reaches the threshold,
is given neither.

`Throughout` looks at the bans after every turn of the three loops of a tick, so that a ban counts
even when a later turn takes it away again. `detect_mode_never_bans_iff`: over a run, a ban key
all of whose requests are exempt stays absent if and only if no turn meets `ScriptBans`.
-/

namespace BunkerWeb.Lua.BadBehavior

open Lib

def Incr.banKey (i : Incr) : String := Lua.banKey i.banScope i.serverName i.ip

/-- The request is one that does not ban: of a service in detect mode, or of an address that the
whitelist lookup of the tick does not find missing. -/
def Exempt (env : TickEnv) (i : Incr) : Prop :=
  i.securityMode = .detect ∨ env.whitelisted i.ip i.serverName ≠ some false

/-- The key is neither in the dictionary nor in Redis. -/
def Absent (key : String) (bans : BanStores) : Prop :=
  bans.datastore key = none ∧ bans.redis key = none

/-- In this turn of the loop on increases the Redis script brings the counter of the increment to
its threshold. -/
structure ScriptBans (key : String) (env : TickEnv) (now : Nat) (st : State) (i : Incr) : Prop where
  key_eq : i.banKey = key
  counted : ¬ Skipped env now st.bans i
  useRedis : i.useRedis = true
  redisUp : env.redisUp = true
  reached : i.threshold ≤ (st.redisCounts.get now (redisCountKey i.key)).getD 0 + 1

/-- `P` holds of the bans after every turn of the three loops of `timer`, and before the first. -/
structure Throughout (P : BanStores → Prop) (env : TickEnv) (now : Nat) (st : State) : Prop where
  decreases : ∀ l l', st.decrs = l ++ l' →
    P (l.foldl (decrTurn env now) { st with decrs := [] }).bans
  increases : ∀ l l', (takeDecreases env now st).incrs = l ++ l' →
    P (l.foldl (incrTurn env now) ({ takeDecreases env now st with incrs := [] }, [])).1.bans
  decisions : ∀ l l', env.pairs (countersOf (countedBy env now st)).items = l ++ l' →
    P (l.foldl (fun (ok, bans) e => let (ok', bans) := banTurn env now bans e.2; (ok && ok', bans))
      (true, (takeIncreases env now (takeDecreases env now st)).1.bans)).2

/-- No turn of the loop on increases has the Redis script ban `key`. -/
def NoScriptBan (key : String) (env : TickEnv) (now : Nat) (st : State) : Prop :=
  Run.Meets (incrTurn env now) (fun acc i => ¬ ScriptBans key env now acc.1 i)
    ({ takeDecreases env now st with incrs := [] }, []) (takeDecreases env now st).incrs

/-- The state after a tick, with what was recorded before it. -/
def afterTick (st : State) (t : Tick) : State := (timer t.env t.now (record t.batch st)).1

section

variable {key : String} {env : TickEnv} {now : Nat}

/-! ## One turn -/

theorem decrTurn_bans (env : TickEnv) (now : Nat) (st : State) (d : Decr) :
    (decrTurn env now st d).bans = st.bans ∧ (decrTurn env now st d).incrs = st.incrs := by
  unfold decrTurn
  split
  · unfold decrease redisDecrease
    cases d.useRedis && env.redisUp <;> exact ⟨rfl, rfl⟩
  · exact ⟨rfl, rfl⟩

theorem decrTurn_foldl_bans (l : List Decr) (st : State) :
    (l.foldl (decrTurn env now) st).bans = st.bans ∧
      (l.foldl (decrTurn env now) st).incrs = st.incrs := by
  induction l generalizing st with
  | nil => exact ⟨rfl, rfl⟩
  | cons d l ih =>
    obtain ⟨h1, h2⟩ := decrTurn_bans env now st d
    rw [List.foldl_cons, (ih _).1, (ih _).2, h1, h2]
    exact ⟨rfl, rfl⟩

theorem takeDecreases_bans (st : State) :
    (takeDecreases env now st).bans = st.bans ∧ (takeDecreases env now st).incrs = st.incrs :=
  decrTurn_foldl_bans _ _

/-- A lookup does not bring a key that is nowhere. -/
theorem absent_isBanned {bans : BanStores} (env : TickEnv) (now : Nat) (h : Absent key bans)
    (ip : String) (serverName : Option String) :
    Absent key (isBanned env.toBanEnv now ip serverName bans).2 := by
  refine ⟨?_, by rw [isBanned_frame]; exact h.2⟩
  rcases isBanned_datastore env.toBanEnv now ip serverName bans key with hold | hgone | hcopy
  · exact hold.trans h.1
  · exact hgone
  · exact absurd (Store.get_of_none h.2) hcopy.2

theorem increase_bans (i : Incr) (st : State) :
    (increase env now i st).2.bans =
      if (i.useRedis && env.redisUp) = true ∧
          i.threshold ≤ (st.redisCounts.get now (redisCountKey i.key)).getD 0 + 1 then
        { st.bans with
          redis := st.bans.redis.put i.banKey ⟨.text "bad behavior",
            if i.banTime = 0 then none else some (now + 1000 * i.banTime)⟩ }
      else st.bans := by
  unfold increase redisIncrease
  by_cases hu : (i.useRedis && env.redisUp) = true
  · by_cases hr : i.threshold ≤ (st.redisCounts.get now (redisCountKey i.key)).getD 0 + 1
    · simp only [hu, hr, if_true, and_self]
      rfl
    · simp only [hu, hr, if_true, if_false, and_false]
  · simp only [hu, Bool.false_eq_true, if_false, false_and]

theorem incrTurn_eq (acc : State × List Counted) (i : Incr) :
    incrTurn env now acc i =
      if Skipped env now acc.1.bans i then
        ({ acc.1 with bans := (isBanned env.toBanEnv now i.ip (some i.serverName) acc.1.bans).2 },
          acc.2)
      else
        let st := { acc.1 with
          bans := (isBanned env.toBanEnv now i.ip (some i.serverName) acc.1.bans).2 }
        let c : Counted := ⟨i, (increase env now i st).1⟩
        ({ (increase env now i st).2 with
            decrs := (increase env now i st).2.decrs ++ [c.decr now] }, acc.2 ++ [c]) := by
  rfl

/-- A turn of the loop on increases keeps an absent key absent unless the script bans it. -/
theorem absent_incrTurn_iff {acc : State × List Counted} (h : Absent key acc.1.bans) (i : Incr) :
    Absent key (incrTurn env now acc i).1.bans ↔ ¬ ScriptBans key env now acc.1 i := by
  have hlookup := absent_isBanned env now h i.ip (some i.serverName)
  rw [incrTurn_eq]
  by_cases hskip : Skipped env now acc.1.bans i
  · rw [if_pos hskip]
    exact ⟨fun _ hs => hs.counted hskip, fun _ => hlookup⟩
  rw [if_neg hskip]
  dsimp only
  rw [increase_bans]
  dsimp only
  split
  · rename_i hscript
    obtain ⟨hup, hreached⟩ := hscript
    obtain ⟨hu, hup⟩ := Bool.and_eq_true_iff.mp hup
    by_cases hk : i.banKey = key
    · refine iff_of_false (fun ha => ?_) (not_not_intro ⟨hk, hskip, hu, hup, hreached⟩)
      rw [Absent, hk] at ha
      simp at ha
    · exact iff_of_true ⟨hlookup.1, (Store.put_of_ne _ _ (Ne.symm hk)).trans hlookup.2⟩
        fun hs => hk hs.key_eq
  · rename_i hscript
    refine iff_of_true hlookup fun hs => hscript ⟨?_, hs.reached⟩
    rw [hs.useRedis, hs.redisUp]
    rfl

/-- A turn of the last loop bans no exempt request. -/
theorem absent_banTurn {bans : BanStores} (h : Absent key bans) {c : Counted}
    (hex : c.incr.banKey = key → Exempt env c.incr) :
    Absent key (banTurn env now bans c).2 := by
  unfold banTurn
  split
  · split
    · exact h
    · obtain ⟨h1, h2⟩ := removeBan_frame env.toBanEnv now c.incr.ip
        c.incr.serverName c.incr.banScope bans key
      exact ⟨h1.elim (·.trans h.1) id, h2.elim (·.trans h.2) id⟩
    · rename_i hwl
      cases hmode : c.incr.securityMode with
      | detect => exact h
      | block =>
        have hne : key ≠ c.incr.banKey := fun hk => by
          rcases hex hk.symm with hd | hw
          · rw [hmode] at hd; cases hd
          · exact hw hwl
        obtain ⟨h1, h2⟩ := addBan_frame env.toBanEnv now "bad behavior" c.incr.banTime
          c.incr.serverName c.incr.country c.incr.banScope bans (fun _ => hne)
        exact ⟨h1.trans h.1, h2.trans h.2⟩
  · exact h

/-! ## One tick -/

/-- What is counted was recorded, and the list of the recorded requests is not written to. -/
theorem incrTurn_foldl_counted (l : List Incr) (acc : State × List Counted) :
    (l.foldl (incrTurn env now) acc).1.incrs = acc.1.incrs ∧
      ∀ c ∈ (l.foldl (incrTurn env now) acc).2, c ∈ acc.2 ∨ c.incr ∈ l := by
  induction l generalizing acc with
  | nil => exact ⟨rfl, fun c hc => .inl hc⟩
  | cons i l ih =>
    obtain ⟨hincrs, hcounted⟩ := ih (incrTurn env now acc i)
    rw [List.foldl_cons, hincrs]
    have hturn : (incrTurn env now acc i).1.incrs = acc.1.incrs ∧
        ∀ c ∈ (incrTurn env now acc i).2, c ∈ acc.2 ∨ c.incr = i := by
      rw [incrTurn_eq]
      split
      · exact ⟨rfl, fun c hc => .inl hc⟩
      · refine ⟨?_, fun c hc => ?_⟩
        · unfold increase redisIncrease
          cases i.useRedis && env.redisUp <;> rfl
        · rcases List.mem_append.mp hc with hc | hc
          · exact .inl hc
          · exact .inr (List.mem_singleton.mp hc ▸ rfl)
    refine ⟨hturn.1, fun c hc => ?_⟩
    rcases hcounted c hc with hc | hc
    · rcases hturn.2 c hc with hc | rfl
      · exact .inl hc
      · exact .inr List.mem_cons_self
    · exact .inr (List.mem_cons_of_mem _ hc)

theorem incr_of_countedBy {st : State} {c : Counted} (h : c ∈ countedBy env now st) :
    c.incr ∈ st.incrs := by
  rcases (incrTurn_foldl_counted _ _).2 c h with h | h
  · cases h
  · rwa [(takeDecreases_bans st).2] at h

/-- The entries that the last loop goes through are increments of the tick. -/
theorem incr_of_counters {st : State} {e : String × Counted}
    (h : e ∈ env.pairs (countersOf (countedBy env now st)).items) : e.2.incr ∈ st.incrs := by
  obtain ⟨c, hc, hce⟩ := List.mem_map.mp (Dict.mem_of_lastOf (mem_counters_iff.mp h))
  obtain ⟨-, rfl⟩ := Prod.mk.inj hce
  exact incr_of_countedBy hc

theorem absent_foldl_incrTurn {l : List Incr} {acc : State × List Counted}
    (h : Absent key acc.1.bans) :
    (∀ l₁ l₂, l = l₁ ++ l₂ → Absent key (l₁.foldl (incrTurn env now) acc).1.bans) ↔
      Run.Meets (incrTurn env now) (fun acc i => ¬ ScriptBans key env now acc.1 i) acc l := by
  induction l generalizing acc with
  | nil =>
    refine iff_of_true (fun l₁ l₂ hl => ?_) trivial
    obtain ⟨rfl, rfl⟩ := List.append_eq_nil_iff.mp hl.symm
    exact h
  | cons i l ih =>
    rw [Run.meets_cons, ← absent_incrTurn_iff h]
    constructor
    · intro hall
      have hi := hall [i] l rfl
      exact ⟨hi, (ih hi).mp fun l₁ l₂ hl => hall (i :: l₁) l₂ (by rw [hl]; rfl)⟩
    · rintro ⟨hi, hrest⟩ l₁ l₂ hl
      cases l₁ with
      | nil => exact h
      | cons j l₁ =>
        obtain ⟨rfl, htail⟩ := List.cons.inj hl
        exact (ih hi).mpr hrest l₁ l₂ htail

theorem absent_foldl_banTurn {l : List (String × Counted)} {bans : BanStores} (ok : Bool)
    (h : Absent key bans) (hex : ∀ e ∈ l, e.2.incr.banKey = key → Exempt env e.2.incr) :
    Absent key (l.foldl
      (fun (ok, bans) e => let (ok', bans) := banTurn env now bans e.2; (ok && ok', bans))
      (ok, bans)).2 := by
  induction l generalizing ok bans with
  | nil => exact h
  | cons e l ih =>
    exact ih _ (absent_banTurn h (hex e List.mem_cons_self))
      fun x hx => hex x (List.mem_cons_of_mem _ hx)

/-- In a tick whose requests for `key` are exempt, the key stays absent if and only if the script
never bans it. -/
theorem throughout_absent_iff {st : State} (h : Absent key st.bans)
    (hex : ∀ i ∈ st.incrs, i.banKey = key → Exempt env i) :
    Throughout (Absent key) env now st ↔ NoScriptBan key env now st := by
  have h1 : Absent key (takeDecreases env now st).bans := by
    rw [(takeDecreases_bans st).1]
    exact h
  have hincr := @absent_foldl_incrTurn key env now (takeDecreases env now st).incrs
    ({ takeDecreases env now st with incrs := [] }, []) h1
  refine ⟨fun ht => hincr.mp ht.increases, fun hn => ⟨fun l l' _ => ?_, hincr.mpr hn, ?_⟩⟩
  · rw [(decrTurn_foldl_bans _ _).1]
    exact h
  · intro l l' hl
    refine absent_foldl_banTurn _ (hincr.mpr hn _ [] (List.append_nil _).symm) fun e he => ?_
    exact hex _ (incr_of_counters (hl ▸ List.mem_append_left _ he))

/-- The bans after a tick are those after its last turn. -/
theorem Throughout.afterTick {P : BanStores → Prop} {st : State}
    (h : Throughout P env now st) : P (timer env now st).1.bans :=
  h.decisions _ [] (List.append_nil _).symm

theorem timer_incrs (st : State) : (timer env now st).1.incrs = [] :=
  (incrTurn_foldl_counted _ _).1

end

/-! ## Runs -/

/-- **Exempt requests.** In every run of ticks in which every recorded request of a ban key is
exempt, from a state without the key: after every turn of every tick the key is neither in the
dictionary nor in Redis, if and only if in no turn the Redis script bans it. -/
theorem detect_mode_never_bans_iff {key : String} {st : State} (h0 : Absent key st.bans)
    {ticks : List Tick}
    (hex : ∀ t ∈ ticks, ∀ i ∈ st.incrs ++ t.batch, i.banKey = key → Exempt t.env i) :
    (∀ pre t post, ticks = pre ++ t :: post →
      Throughout (Absent key) t.env t.now (record t.batch (Run.run afterTick st pre))) ↔
    Run.Meets afterTick (fun st t => NoScriptBan key t.env t.now (record t.batch st)) st ticks := by
  induction ticks generalizing st with
  | nil => exact iff_of_true (fun pre t post h => by simp at h) trivial
  | cons t ticks ih =>
    have htick := @throughout_absent_iff key t.env t.now (record t.batch st) h0
      (hex t List.mem_cons_self)
    have hnext : Throughout (Absent key) t.env t.now (record t.batch st) →
        (∀ t' ∈ ticks, ∀ i ∈ (afterTick st t).incrs ++ t'.batch, i.banKey = key →
          Exempt t'.env i) := by
      intro _ t' ht' i hi
      rw [afterTick, timer_incrs, List.nil_append] at hi
      exact hex t' (List.mem_cons_of_mem _ ht') i (List.mem_append_right _ hi)
    rw [Run.meets_cons]
    constructor
    · intro hall
      have ht := hall [] t ticks rfl
      refine ⟨htick.mp ht, (ih ht.afterTick (hnext ht)).mp fun pre t' post hp => ?_⟩
      exact hall (t :: pre) t' post (by rw [hp]; rfl)
    · rintro ⟨hn, hrest⟩ pre t' post hp
      have ht := htick.mpr hn
      cases pre with
      | nil =>
        obtain ⟨rfl, -⟩ := List.cons.inj hp
        exact ht
      | cons t₁ pre =>
        obtain ⟨rfl, htail⟩ := List.cons.inj hp
        exact (ih ht.afterTick (hnext ht)).mpr hrest pre t' post htail

/-- A request for a service in detect mode, on an instance that counts in Redis. -/
def detectedRequest (threshold : Nat) : Incr where
  ip := "1.2.3.4"
  countTime := 60
  banTime := 86400
  threshold := threshold
  useRedis := true
  serverName := "www"
  securityMode := .detect
  country := "XX"
  timestamp := 0
  status := "404"
  banScope := .service

/-- An instance whose Redis answers, with no address on the whitelist. -/
def redisEnv : TickEnv := { plainEnv with useRedis := true, redisUp := true, isIp := fun _ => true }

def unusedState : State :=
  ⟨Store.empty, Store.empty, ⟨Store.empty, Store.empty, Store.empty⟩, [], []⟩

/-- Below the threshold nothing is banned. -/
theorem detect_mode_never_bans_below :
    Throughout (Absent (serviceBanKey "www" "1.2.3.4")) redisEnv 500
      (record [detectedRequest 2] unusedState) := by
  have hmeets : Run.Meets afterTick
      (fun st t => NoScriptBan (serviceBanKey "www" "1.2.3.4") t.env t.now (record t.batch st))
      unusedState [⟨redisEnv, 500, [detectedRequest 2]⟩] :=
    ⟨⟨fun h => absurd h.reached (by decide), trivial⟩, trivial⟩
  refine (detect_mode_never_bans_iff ⟨rfl, rfl⟩ fun t ht i hi _ => .inl ?_).mpr hmeets [] _ [] rfl
  obtain rfl := List.mem_singleton.mp ht
  obtain rfl := List.mem_singleton.mp hi
  rfl

/-- One request in detect mode for a service that allows none: the script bans its address. -/
theorem detect_mode_bans :
    Exempt redisEnv (detectedRequest 1) ∧
      bannedAt (timer redisEnv 500 (record [detectedRequest 1] unusedState)).1.bans 500
        (serviceBanKey "www" "1.2.3.4") = false ∧
      (timer redisEnv 500 (record [detectedRequest 1] unusedState)).1.bans.redis.get 500
        (serviceBanKey "www" "1.2.3.4") = some (.text "bad behavior") ∧
      (isBanned redisEnv.toBanEnv 600 "1.2.3.4" (some "www")
        (timer redisEnv 500 (record [detectedRequest 1] unusedState)).1.bans).1 = some true := by
  exact ⟨.inl rfl, by decide, by decide, by decide⟩

end BunkerWeb.Lua.BadBehavior
