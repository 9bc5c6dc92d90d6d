import BunkerWeb.Lib.Dict
import BunkerWeb.Lib.Loop

/-!
# The errors of the ban timer (`badbehavior.lua`)

What the settings of a service are, as texts, goes through `tonumber` into the increments that `log`
queues, and the timer adds and compares what comes out. An operation on a value that is missing
raises an error (`Raised`), which ends the tick; one in `log` ends it for the request only.

Numbers and the stores are parameters: `tonumber` with the operations of Lua, `cjson`, which refuses
numbers that are not finite, the datastore, Redis, and the functions of `utils.lua`, each of which
may fail. Numbers are read from a queue as they were written there.
-/

namespace BunkerWeb.Lua.BanTimer

open Lib

/-! ## Settings -/

/-- The settings of `badbehavior/plugin.json`, of a service. -/
structure Settings where
  useBadBehavior : String
  statusCodes : String
  threshold : String
  countTime : String
  banTime : String
  banScope : String

/-- `$` of Python is before a line break at the end, too. -/
def withoutBreak (text : List Char) : List Char :=
  if text.getLast? = some '\n' then text.dropLast else text

/-- `^(a|b)$`. -/
def isOneOf (texts : List String) (text : String) : Bool :=
  texts.any fun t => withoutBreak text.toList == t.toList || text == t

/-- `( *[1-5]\d{2} *)*`, with at least one code if there is none yet. -/
def areCodes (decimal : Char → Bool) : Bool → List Char → Bool
  | found, [] => found
  | found, ' ' :: rest => areCodes decimal found rest
  | _, a :: b :: c :: rest =>
    decide (a ∈ ['1', '2', '3', '4', '5']) && decimal b && decimal c && areCodes decimal true rest
  | _, _ => false

/-- `re_search` of `__check_var` with the `regex` of each setting; `\d` is any decimal digit. Those
of the threshold and of the count time do not say how a text ends. -/
structure Settings.Accepted (decimal : Char → Bool) (s : Settings) : Prop where
  useBadBehavior : isOneOf ["yes", "no"] s.useBadBehavior = true
  statusCodes : areCodes decimal false (withoutBreak s.statusCodes.toList) = true
  threshold : ∃ c ∈ s.threshold.toList.head?, c ∈ "123456789".toList
  countTime : ∃ c ∈ s.countTime.toList.head?, decimal c = true
  banTime : withoutBreak s.banTime.toList ≠ [] ∧
    (withoutBreak s.banTime.toList).all decimal = true
  banScope : isOneOf ["service", "global"] s.banScope = true

/-! ## Numbers and stores -/

section

variable {Num σ : Type}

/-- The numbers of Lua. -/
structure Numbers (Num : Type) where
  tonumber : String → Option Num
  zero : Num
  /-- `cjson.encode` takes the number. -/
  finite : Num → Bool
  /-- `timestamp + count_time`. -/
  plus : Nat → Num → Num
  finite_plus : ∀ timestamp n, finite n = true → finite (plus timestamp n) = true
  /-- `timestamp > decr["timestamp"]`. -/
  isPast : Nat → Num → Bool
  /-- `counter >= threshold`. -/
  isReached : Nat → Num → Bool

/-- An element of `plugin_badbehavior_incr`; `tonumber` may have left out two of its fields. -/
structure Incr (Num : Type) where
  ip : String
  countTime : Option Num
  banTime : Num
  threshold : Option Num
  useRedis : Bool
  serverName : String
  securityMode : String
  country : String
  timestamp : Nat
  status : String
  banScope : String

/-- An element of `plugin_badbehavior_decr`. -/
structure Decr (Num : Type) where
  ip : String
  oldCounter : Nat
  countTime : Num
  threshold : Option Num
  useRedis : Bool
  timestamp : Num
  serverName : String
  status : String
  banScope : String

/-- A value of `counters`. -/
structure Counted (Num : Type) where
  incr : Incr Num
  counter : Nat

/-- `key_suffix`, `counter_key`. -/
def keySuffix (banScope serverName ip : String) : String :=
  if banScope = "service" then serverName ++ "_" ++ ip else ip

def countKey (suffix : String) : String := "plugin_badbehavior_count_" ++ suffix

/-- What the plugin calls, on a state of its own. -/
structure Stores (Num σ : Type) where
  /-- `is_banned(ip, server_name)` is true. -/
  isBanned : σ → String → String → Bool × σ
  redisIncrease : σ → Incr Num → Option Nat × σ
  redisDecrease : σ → Decr Num → Option Int × σ
  get : σ → String → Option Nat
  set : σ → String → Nat → Option Num → Bool × σ
  delete : σ → String → σ
  /-- Whether a list takes another element. -/
  push : σ → Bool × σ
  isIpWhitelisted : σ → String → String → Option Bool × σ
  removeBan : σ → Incr Num → σ
  addBan : σ → Incr Num → Bool × σ
  /-- The order of `pairs`. -/
  pairs : List (String × Counted Num) → List (String × Counted Num)
  pairs_perm : ∀ l, (pairs l).Perm l

structure State (Num σ : Type) where
  store : σ
  incrs : List (Incr Num)
  decrs : List (Decr Num)

inductive Raised
  | arithmeticOnNil
  | compareWithNil
  | cannotSerialise
  deriving DecidableEq

variable (N : Numbers Num) (S : Stores Num σ)

def Incr.numbers (i : Incr Num) : List Num := i.countTime.toList ++ i.banTime :: i.threshold.toList

def Decr.numbers (d : Decr Num) : List Num := d.countTime :: d.timestamp :: d.threshold.toList

/-! ## `log` -/

/-- What `log` reads beside the settings. -/
structure Request where
  ip : String
  serverName : String
  status : Nat
  whitelisted : Bool
  banned : Bool
  useRedis : Bool
  securityMode : String
  country : String
  timestamp : Nat

/-- `status_codes:match(status)`, of a status without magic characters. -/
def Settings.counts (s : Settings) (status : Nat) : Prop :=
  (toString status).toList <:+: s.statusCodes.toList

instance (s : Settings) (status : Nat) : Decidable (s.counts status) :=
  inferInstanceAs (Decidable (_ <:+: _))

def Request.incr (r : Request) (s : Settings) : Incr Num where
  ip := r.ip
  countTime := N.tonumber s.countTime
  banTime := (N.tonumber s.banTime).getD N.zero
  threshold := N.tonumber s.threshold
  useRedis := r.useRedis
  serverName := r.serverName
  securityMode := r.securityMode
  country := r.country
  timestamp := r.timestamp
  status := toString r.status
  -- The default server bans on every service.
  banScope := if r.serverName = "_" then "global" else s.banScope

/-- `badbehavior:log`, with the settings of the service. -/
def log (settings : String → Settings) (st : State Num σ) (r : Request) : State Num σ :=
  let s := settings r.serverName
  if r.whitelisted then st
  else if s.useBadBehavior ≠ "yes" then st
  else if ¬ s.counts r.status then st
  else if r.banned then st
  else
    let incr := r.incr N s
    -- The error of `encode` is caught by `call_plugin`.
    if incr.numbers.all N.finite then
      let (ok, store) := S.push st.store
      { st with store, incrs := if ok then st.incrs ++ [incr] else st.incrs }
    else st

/-! ## `timer` -/

/-- `badbehavior:increase`: `none` if the counter cannot be stored. -/
def increase (store : σ) (i : Incr Num) : Option Nat × σ :=
  let key := countKey (keySuffix i.banScope i.serverName i.ip)
  let (redisCounter, store) := if i.useRedis then S.redisIncrease store i else (none, store)
  let counter := redisCounter.getD ((S.get store key).getD 0 + 1)
  let (ok, store) := S.set store key counter i.countTime
  (if ok then some counter else none, store)

/-- `badbehavior:decrease`. -/
def decrease (store : σ) (d : Decr Num) : Bool × σ :=
  let key := countKey (keySuffix d.banScope d.serverName d.ip)
  let (redisCounter, store) := if d.useRedis then S.redisDecrease store d else (none, store)
  let counter : Int := redisCounter.getD ((S.get store key).getD 0 - 1)
  if counter ≤ 0 then (true, S.delete store key)
  else S.set store key counter.toNat (some d.countTime)

/-- One turn of the loop on decrease operations. -/
def decrTurn (now : Nat) (acc : State Num σ × Bool) (d : Decr Num) :
    Except Raised (State Num σ × Bool) :=
  let (st, ret) := acc
  if N.isPast now d.timestamp then
    let (ok, store) := decrease S st.store d
    .ok ({ st with store }, ret && ok)
  else if d.numbers.all N.finite then
    let (ok, store) := S.push st.store
    .ok ({ st with store, decrs := if ok then st.decrs ++ [d] else st.decrs }, ret && ok)
  else .error .cannotSerialise

/-- `decr_payload`; adds the count time. -/
def decrPayload (now : Nat) (i : Incr Num) (counter : Nat) : Except Raised (Decr Num) :=
  match i.countTime with
  | none => .error .arithmeticOnNil
  | some countTime =>
    .ok
      { ip := i.ip
        oldCounter := counter
        countTime
        threshold := i.threshold
        useRedis := i.useRedis
        timestamp := N.plus now countTime
        serverName := i.serverName
        status := i.status
        banScope := i.banScope }

/-- A counted increment: its decrease is queued, and its data go into `counters`. -/
def count (now : Nat) (acc : State Num σ × Dict String (Counted Num) × Bool) (i : Incr Num)
    (counter : Nat) : Except Raised (State Num σ × Dict String (Counted Num) × Bool) := do
  let (st, counters, ret) := acc
  let decr ← decrPayload N now i counter
  if decr.numbers.all N.finite then
    let (ok, store) := S.push st.store
    return ({ st with store, decrs := if ok then st.decrs ++ [decr] else st.decrs },
      counters.insert (keySuffix i.banScope i.serverName i.ip) ⟨i, counter⟩, ret && ok)
  else throw .cannotSerialise

/-- One turn of the loop on increase operations, with `counters`. -/
def incrTurn (now : Nat) (acc : State Num σ × Dict String (Counted Num) × Bool) (i : Incr Num) :
    Except Raised (State Num σ × Dict String (Counted Num) × Bool) :=
  let (st, counters, ret) := acc
  let (banned, store) := S.isBanned st.store i.ip i.serverName
  if banned then .ok ({ st with store }, counters, ret)
  else
    match increase S store i with
    | (none, store) => .ok ({ st with store }, counters, false)
    | (some counter, store) => count N S now ({ st with store }, counters, ret) i counter

/-- One entry of `counters`: a ban, if the threshold is reached. -/
def banTurn (acc : σ × Bool) (data : Counted Num) : Except Raised (σ × Bool) :=
  let (store, ret) := acc
  match data.incr.threshold with
  | none => .error .compareWithNil
  | some threshold =>
    if N.isReached data.counter threshold then
      match S.isIpWhitelisted store data.incr.ip data.incr.serverName with
      | (none, store) => .ok (store, ret)
      | (some true, store) => .ok (S.removeBan store data.incr, ret)
      | (some false, store) =>
        if data.incr.securityMode = "block" then
          let (ok, store) := S.addBan store data.incr
          .ok (store, ret && ok)
        else .ok (store, ret)
    else .ok (store, ret)

/-- `badbehavior:timer` on worker 0: `ret`, unless an error is raised. -/
def timer (now : Nat) (st : State Num σ) : Except Raised (State Num σ × Bool) := do
  let (st, ret) ← st.decrs.foldlM (decrTurn N S now) ({ st with decrs := [] }, true)
  let (st, counters, ret) ←
    st.incrs.foldlM (incrTurn N S now) ({ st with incrs := [] }, ∅, ret)
  let (store, ret) ←
    (S.pairs counters.items).foldlM (fun acc e => banTurn N S acc e.2) (st.store, ret)
  return ({ st with store }, ret)

/-! ## Runs -/

inductive Event
  | request (r : Request)
  | tick (now : Nat)

/-- Requests and ticks in any order, up to an error in a tick. -/
def run (settings : String → Settings) (st : State Num σ) (events : List Event) :
    Except Raised (State Num σ) :=
  events.foldlM (fun st e =>
    match e with
    | .request r => .ok (log N S settings st r)
    | .tick now => (timer N S now st).map Prod.fst) st

end

end BunkerWeb.Lua.BanTimer

/-!
## Which settings break the ban timer

An increment that `log` queues has all of its numbers or misses what `tonumber` did not read; one
that has them never raises an error in the timer (`timer_good`), and one that misses its count time
or its threshold does. The searched expressions of both settings accept texts with anything behind
the digits, so that a service can stop the bans of all others (`count_time_with_unit`).
-/

namespace BunkerWeb.Lua.BanTimer

open Lib

section

variable {Num σ : Type} {N : Numbers Num} {S : Stores Num σ} {settings : String → Settings}
  {st : State Num σ} {now : Nat}

/-- No tick of any run raises an error, whatever the stores do. -/
def NeverRaises (N : Numbers Num) (settings : String → Settings) : Prop :=
  ∀ (σ : Type) (S : Stores Num σ) (store : σ) (events : List Event),
    ∃ st, run N S settings ⟨store, [], []⟩ events = .ok st

/-- If the service queues increments, their count time and their threshold are there. -/
def Settings.Readable (N : Numbers Num) (s : Settings) : Prop :=
  s.useBadBehavior = "yes" → (∃ status, s.counts status) →
    (∀ n ∈ N.tonumber s.countTime, N.finite n = true) →
    N.finite ((N.tonumber s.banTime).getD N.zero) = true →
    (∀ n ∈ N.tonumber s.threshold, N.finite n = true) →
    (N.tonumber s.countTime).isSome ∧ (N.tonumber s.threshold).isSome

/-! ## Increments with all of their numbers -/

/-- The timer can work on the increment. -/
structure Incr.Whole (N : Numbers Num) (i : Incr Num) : Prop where
  countTime : i.countTime.isSome
  threshold : i.threshold.isSome
  finite : i.numbers.all N.finite = true

structure Good (N : Numbers Num) (st : State Num σ) : Prop where
  incrs : ∀ i ∈ st.incrs, i.Whole N
  decrs : ∀ d ∈ st.decrs, d.numbers.all N.finite = true

theorem numbers_incr {r : Request} {s : Settings} :
    (r.incr N s).numbers.all N.finite = true ↔
      (∀ n ∈ N.tonumber s.countTime, N.finite n = true) ∧
        N.finite ((N.tonumber s.banTime).getD N.zero) = true ∧
        ∀ n ∈ N.tonumber s.threshold, N.finite n = true := by
  simp [Incr.numbers, Request.incr]

theorem log_good (h : Good N st) {r : Request} (hs : (settings r.serverName).Readable N) :
    Good N (log N S settings st r) := by
  unfold log
  dsimp only
  split
  · exact h
  split
  · exact h
  next huse =>
  split
  · exact h
  next hstatus =>
  split
  · exact h
  split
  next hfinite =>
    obtain ⟨hcount, hban, hthreshold⟩ := numbers_incr.mp hfinite
    obtain ⟨hsome, hsome'⟩ := hs (not_not.mp huse) ⟨r.status, not_not.mp hstatus⟩ hcount hban
      hthreshold
    refine ⟨fun i hi => ?_, h.decrs⟩
    dsimp only at hi
    split at hi
    · rcases List.mem_append.mp hi with hi | hi
      · exact h.incrs i hi
      · rw [List.mem_singleton.mp hi]
        exact ⟨hsome, hsome', hfinite⟩
    · exact h.incrs i hi
  next => exact h

theorem decrTurn_good {acc : State Num σ × Bool} (hacc : Good N acc.1) {d : Decr Num}
    (hd : d.numbers.all N.finite = true) :
    ∃ acc', decrTurn N S now acc d = .ok acc' ∧ Good N acc'.1 := by
  unfold decrTurn
  dsimp only
  split
  · exact ⟨_, rfl, ⟨hacc.incrs, hacc.decrs⟩⟩
  · refine ⟨_, rfl, ⟨hacc.incrs, fun d' hd' => ?_⟩⟩
    dsimp only at hd'
    split at hd'
    · rcases List.mem_append.mp hd' with hd' | hd'
      · exact hacc.decrs d' hd'
      · rwa [List.mem_singleton.mp hd']
    · exact hacc.decrs d' hd'

/-- What is to be taken back later is finite, too. -/
theorem decrPayload_whole (now : Nat) {i : Incr Num} (hi : i.Whole N) (counter : Nat) :
    ∃ d, decrPayload N now i counter = .ok d ∧ d.numbers.all N.finite = true := by
  obtain ⟨countTime, hcount⟩ := Option.isSome_iff_exists.mp hi.countTime
  have hfinite := hi.finite
  rw [Incr.numbers, hcount] at hfinite
  simp only [Option.toList_some, List.cons_append, List.nil_append, List.all_cons,
    Bool.and_eq_true] at hfinite
  obtain ⟨hcountTime, -, hthreshold⟩ := hfinite
  unfold decrPayload
  rw [hcount]
  refine ⟨_, rfl, ?_⟩
  simp only [Decr.numbers, List.all_cons, Bool.and_eq_true]
  exact ⟨hcountTime, N.finite_plus now countTime hcountTime, hthreshold⟩

/-- The counted increments have thresholds. -/
def CountersGood (counters : Dict String (Counted Num)) : Prop :=
  ∀ key data, counters.lookup key = some data → data.incr.threshold.isSome

theorem count_good {counters : Dict String (Counted Num)} {ret : Bool} (hst : Good N st)
    (hcounters : CountersGood counters) {i : Incr Num} (hi : i.Whole N) (counter : Nat) :
    ∃ acc', count N S now (st, counters, ret) i counter = .ok acc' ∧ Good N acc'.1 ∧
      CountersGood acc'.2.1 := by
  obtain ⟨d, hd, hfinite⟩ := decrPayload_whole now hi counter
  unfold count
  dsimp only
  rw [hd]
  refine ⟨_, if_pos hfinite, ⟨hst.incrs, fun d' hd' => ?_⟩, fun key data hdata => ?_⟩
  · dsimp only at hd'
    split at hd'
    · rcases List.mem_append.mp hd' with hd' | hd'
      · exact hst.decrs d' hd'
      · rwa [List.mem_singleton.mp hd']
    · exact hst.decrs d' hd'
  · dsimp only at hdata
    by_cases hkey : key = keySuffix i.banScope i.serverName i.ip
    · rw [hkey, AList.lookup_insert] at hdata
      cases hdata
      exact hi.threshold
    · rw [AList.lookup_insert_ne hkey] at hdata
      exact hcounters key data hdata

theorem incrTurn_good {acc : State Num σ × Dict String (Counted Num) × Bool}
    (hacc : Good N acc.1 ∧ CountersGood acc.2.1) {i : Incr Num} (hi : i.Whole N) :
    ∃ acc', incrTurn N S now acc i = .ok acc' ∧ Good N acc'.1 ∧ CountersGood acc'.2.1 := by
  unfold incrTurn
  dsimp only
  split
  · exact ⟨_, rfl, ⟨hacc.1.incrs, hacc.1.decrs⟩, hacc.2⟩
  split
  · exact ⟨_, rfl, ⟨hacc.1.incrs, hacc.1.decrs⟩, hacc.2⟩
  next counter store hincrease =>
    have hst : Good N ({ acc.1 with store } : State Num σ) := ⟨hacc.1.incrs, hacc.1.decrs⟩
    exact count_good hst hacc.2 hi counter

theorem banTurn_good (acc : σ × Bool) {data : Counted Num} (h : data.incr.threshold.isSome) :
    ∃ acc', banTurn N S acc data = .ok acc' := by
  obtain ⟨threshold, hthreshold⟩ := Option.isSome_iff_exists.mp h
  unfold banTurn
  rw [hthreshold]
  dsimp only
  split
  · split
    · exact ⟨_, rfl⟩
    · exact ⟨_, rfl⟩
    · split <;> exact ⟨_, rfl⟩
  · exact ⟨_, rfl⟩

/-- A tick that finds whole increments comes to its end. -/
theorem timer_good (h : Good N st) : ∃ r, timer N S now st = .ok r ∧ Good N r.1 := by
  obtain ⟨⟨st₁, ret₁⟩, hdecr, hgood₁⟩ :
      ∃ acc, st.decrs.foldlM (decrTurn N S now) ({ st with decrs := [] }, true) = .ok acc ∧
        Good N acc.1 :=
    foldlM_total (fun acc : State Num σ × Bool => Good N acc.1)
      (fun d hd acc hacc => decrTurn_good hacc (h.decrs d hd)) ⟨h.incrs, by simp⟩
  obtain ⟨⟨st₂, counters, ret₂⟩, hincr, hgood₂, hcounters⟩ :
      ∃ acc, st₁.incrs.foldlM (incrTurn N S now) ({ st₁ with incrs := [] }, ∅, ret₁) = .ok acc ∧
        Good N acc.1 ∧ CountersGood acc.2.1 :=
    foldlM_total
      (fun acc : State Num σ × Dict String (Counted Num) × Bool =>
        Good N acc.1 ∧ CountersGood acc.2.1)
      (fun i hi acc hacc => incrTurn_good hacc (hgood₁.incrs i hi))
      ⟨⟨by simp, hgood₁.decrs⟩, fun key data hdata => by cases hdata⟩
  obtain ⟨⟨store, ret₃⟩, hban, -⟩ :
      ∃ acc, (S.pairs counters.items).foldlM
        (fun (acc : σ × Bool) (e : String × Counted Num) => banTurn N S acc e.2)
        (st₂.store, ret₂) = .ok acc ∧ True :=
    foldlM_total (fun _ => True) (fun e he acc _ => by
      have hmem : (e.1, e.2) ∈ counters.items := (S.pairs_perm _).mem_iff.mp he
      obtain ⟨acc', hacc'⟩ := banTurn_good acc (hcounters e.1 e.2 (Dict.mem_items.mp hmem))
      exact ⟨acc', hacc', trivial⟩) trivial
  refine ⟨({ st₂ with store }, ret₃), ?_, ⟨hgood₂.incrs, hgood₂.decrs⟩⟩
  unfold timer
  simp only [hdecr, hincr, hban, bind, Except.bind, pure, Except.pure]

theorem run_good (hs : ∀ server, (settings server).Readable N) (h : Good N st)
    (events : List Event) : ∃ st', run N S settings st events = .ok st' := by
  obtain ⟨st', hrun, -⟩ : ∃ st', run N S settings st events = .ok st' ∧ Good N st' := by
    refine foldlM_total (Good N) (fun e _ st hst => ?_) h
    cases e with
    | request r => exact ⟨_, rfl, log_good hst (hs r.serverName)⟩
    | tick now =>
      obtain ⟨r, hr, hgood⟩ := timer_good (S := S) hst
      refine ⟨r.1, ?_, hgood⟩
      show (timer N S now st).map Prod.fst = _
      rw [hr]
      rfl
  exact ⟨st', hrun⟩

/-! ## An increment that misses a number -/

/-- Stores where everything goes well and nobody is banned. -/
def quietStores (Num : Type) : Stores Num Unit where
  isBanned := fun _ _ _ => (false, ())
  redisIncrease := fun _ _ => (none, ())
  redisDecrease := fun _ _ => (none, ())
  get := fun _ _ => none
  set := fun _ _ _ _ => (true, ())
  delete := fun _ _ => ()
  push := fun _ => (true, ())
  isIpWhitelisted := fun _ _ _ => (some false, ())
  removeBan := fun _ _ => ()
  addBan := fun _ _ => (true, ())
  pairs := id
  pairs_perm := List.Perm.refl

def suspicious (server : String) (status : Nat) : Request where
  ip := "192.0.2.7"
  serverName := server
  status := status
  whitelisted := false
  banned := false
  useRedis := false
  securityMode := "block"
  country := "local"
  timestamp := 0

theorem increase_quiet (i : Incr Num) : increase (quietStores Num) () i = (some 1, ()) := by
  unfold increase
  cases i.useRedis <;> rfl

theorem incrTurn_quiet (st : State Num Unit) (counters : Dict String (Counted Num)) (ret : Bool)
    (i : Incr Num) : incrTurn N (quietStores Num) now (st, counters, ret) i =
      count N (quietStores Num) now (st, counters, ret) i 1 := by
  unfold incrTurn
  show (match increase (quietStores Num) () i with
    | (none, store) => Except.ok ({ st with store }, counters, false)
    | (some counter, store) =>
      count N (quietStores Num) now ({ st with store }, counters, ret) i counter) = _
  rw [increase_quiet]

/-- One increment without its count time or without its threshold ends the tick. -/
theorem timer_raises {i : Incr Num} (hi : i.countTime = none ∨ i.threshold = none)
    (hfinite : i.numbers.all N.finite = true) :
    ∃ e, timer N (quietStores Num) now ⟨(), [i], []⟩ = .error e := by
  unfold timer
  simp only [List.foldlM_cons, List.foldlM_nil, incrTurn_quiet, count, pure, Except.pure, bind,
    Except.bind]
  cases hcount : i.countTime with
  | none =>
    rw [decrPayload, hcount]
    exact ⟨.arithmeticOnNil, rfl⟩
  | some countTime =>
    have hthreshold : i.threshold = none := hi.resolve_left (by simp [hcount])
    have hpayload : ∃ d, decrPayload N now i 1 = .ok d ∧ d.numbers.all N.finite = true := by
      rw [Incr.numbers, hcount, hthreshold] at hfinite
      unfold decrPayload
      rw [hcount]
      refine ⟨_, rfl, ?_⟩
      simp only [Option.toList_some, List.cons_append, List.nil_append, List.all_cons,
        Bool.and_eq_true] at hfinite
      simp only [Decr.numbers, hthreshold, List.all_cons, Bool.and_eq_true]
      exact ⟨hfinite.1, N.finite_plus now countTime hfinite.1, rfl⟩
    obtain ⟨d, hd, hdFinite⟩ := hpayload
    rw [hd]
    dsimp only
    rw [if_pos hdFinite]
    -- The only entry of `counters` is that of the increment.
    have hban : ∀ acc, banTurn N (quietStores Num) acc ⟨i, 1⟩ = .error .compareWithNil :=
      fun acc => by rw [banTurn, hthreshold]
    refine ⟨.compareWithNil, ?_⟩
    have hitems : (quietStores Num).pairs (Dict.items
        (AList.insert (keySuffix i.banScope i.serverName i.ip) (⟨i, 1⟩ : Counted Num) ∅)) =
        [(keySuffix i.banScope i.serverName i.ip, ⟨i, 1⟩)] := rfl
    simp only [hitems, List.foldlM_cons, hban, bind, Except.bind]

/-- A request to a service that misses a number, and the next tick. -/
theorem readable_of_neverRaises (h : NeverRaises N settings) (server : String) :
    (settings server).Readable N := by
  intro huse hstatus hcount hban hthreshold
  obtain ⟨status, hstatus⟩ := hstatus
  by_contra hno
  obtain ⟨st, hrun⟩ := h Unit (quietStores Num) () [.request (suspicious server status), .tick 0]
  have hfinite : ((suspicious server status).incr N (settings server)).numbers.all N.finite =
      true := numbers_incr.mpr ⟨hcount, hban, hthreshold⟩
  have hlog : log N (quietStores Num) settings ⟨(), [], []⟩ (suspicious server status) =
      ⟨(), [(suspicious server status).incr N (settings server)], []⟩ := by
    unfold log
    simp only [suspicious, Bool.false_eq_true, if_false, huse, ne_eq, not_true_eq_false, hstatus]
    exact if_pos hfinite
  have hmissing : ((suspicious server status).incr N (settings server)).countTime = none ∨
      ((suspicious server status).incr N (settings server)).threshold = none := by
    by_contra hboth
    rw [not_or] at hboth
    exact hno ⟨Option.isSome_iff_ne_none.mpr hboth.1, Option.isSome_iff_ne_none.mpr hboth.2⟩
  obtain ⟨e, he⟩ : ∃ e, timer N (quietStores Num) 0 _ = .error e :=
    timer_raises hmissing hfinite
  unfold run at hrun
  simp only [List.foldlM_cons, hlog, he, bind, Except.bind, Except.map] at hrun
  cases hrun

end

/-- **Ban timer.** No tick raises an error in any run, if and only if the count time and the
threshold of each service that queues increments can be read as numbers. -/
theorem never_raises_iff {Num : Type} (N : Numbers Num) (settings : String → Settings) :
    NeverRaises N settings ↔ ∀ server, (settings server).Readable N :=
  ⟨readable_of_neverRaises, fun hs _ _ _ events => run_good hs ⟨by simp, by simp⟩ events⟩

/-! ## A count time with a unit -/

/-- Whole numbers, which are the texts of digits. -/
def wholeNumbers : Numbers Nat where
  tonumber := fun text =>
    if text.toList ≠ [] ∧ text.toList.all (·.isDigit) = true then
      some (Nat.ofDigitChars 10 text.toList 0)
    else none
  zero := 0
  finite := fun _ => true
  plus := fun timestamp n => timestamp + n
  finite_plus := fun _ _ _ => rfl
  isPast := fun timestamp n => decide (n < timestamp)
  isReached := fun counter n => decide (n ≤ counter)

def defaults : Settings where
  useBadBehavior := "yes"
  statusCodes := "400 401 403 404 405 429 444"
  threshold := "10"
  countTime := "60"
  banTime := "86400"
  banScope := "service"

/-- One service gives its count time in seconds. -/
def withUnit (server : String) : Settings :=
  if server = "shop" then { defaults with countTime := "60s" } else defaults

theorem count_time_with_unit :
    (∀ server, (withUnit server).Accepted Char.isDigit) ∧ ¬ NeverRaises wholeNumbers withUnit := by
  constructor
  · intro server
    have hdefaults : defaults.Accepted Char.isDigit :=
      ⟨by decide +kernel, by decide +kernel, ⟨'1', rfl, by decide⟩, ⟨'6', rfl, by decide⟩,
        by decide +kernel, by decide +kernel⟩
    unfold withUnit
    split
    · exact { hdefaults with countTime := ⟨'6', rfl, by decide⟩ }
    · exact hdefaults
  · intro h
    have hread := readable_of_neverRaises h "shop" rfl ⟨404, by decide +kernel⟩ (fun _ _ => rfl) rfl
      (fun _ _ => rfl)
    exact absurd hread.1 (by decide +kernel)

end BunkerWeb.Lua.BanTimer
