import BunkerWeb.Lib.Run
import Mathlib.Algebra.Ring.Int.Defs
import Mathlib.Data.Fintype.Basic
import Mathlib.Logic.Function.Basic

/-!
# The facets of the shared requests (`metrics.lua`)

The workers of all instances push the requests they have blocked onto one list in Redis, and count
them in one hash for each facet: how many requests of the list have which value. Every command is
atomic; a cycle of a worker is many commands.

- **The cycle** (`advance`): the commands of one worker, in the order of the code: the facets are
  counted from the list if nobody has done that yet, new requests are pushed and counted, and the
  list is cut down to its cap.
- **The system** (`step`): the workers take turns, one command at a time.
-/

namespace BunkerWeb.Lua.Facets

open Lib

/-- `REQUEST_FACET_FIELDS`. -/
inductive Field where
  | ip
  | country
  | method
  | url
  | status
  | reason
  | serverName
  | securityMode
  deriving DecidableEq, Repr

def requestFacetFields : List Field :=
  [.ip, .country, .method, .url, .status, .reason, .serverName, .securityMode]

theorem mem_requestFacetFields (f : Field) : f ∈ requestFacetFields := by cases f <;> decide

/-- The fields of a request that have a facet, as texts; `none` for one that is missing or null. -/
abbrev Request := Field → Option String

/-- `get_request_facet_value`. -/
def getRequestFacetValue (request : Request) (field : Field) : String :=
  match request field with
  | none => "N/A"
  | some "" => "N/A"
  | some value => value

/-- A counter of a facet. -/
abbrev Counter := Field × String

/-- The counters that count a request. -/
def countersOf (request : Request) : List Counter :=
  requestFacetFields.map fun field => (field, getRequestFacetValue request field)

/-- An entry of the list; `none` is a text that does not decode to a request. -/
abbrev Entry := Option Request

def Entry.counters (e : Entry) : List Counter := e.elim [] countersOf

/-- What Redis holds: the list `requests`, the hashes `requests:facet:*` and the key
`requests:facets:initialized`. -/
structure Redis where
  requests : List Entry
  facets : Field → String → Option Int
  initialized : Bool

/-- What a counter holds; a counter that is not there counts 0. -/
def Redis.stored (redis : Redis) (c : Counter) : Int := (redis.facets c.1 c.2).getD 0

/-- `HINCRBY`. -/
def Redis.hincrby (redis : Redis) (c : Counter) (increment : Int) : Redis :=
  { redis with
    facets := Function.update redis.facets c.1
      (Function.update (redis.facets c.1) c.2 (some (redis.stored c + increment))) }

/-- `HDEL`. -/
def Redis.hdel (redis : Redis) (c : Counter) : Redis :=
  { redis with
    facets := Function.update redis.facets c.1 (Function.update (redis.facets c.1) c.2 none) }

/-- `DEL` of a facet. -/
def Redis.delFacet (redis : Redis) (field : Field) : Redis :=
  { redis with facets := Function.update redis.facets field fun _ => none }

theorem facets_hincrby (redis : Redis) (c d : Counter) (n : Int) :
    (redis.hincrby c n).facets d.1 d.2 =
      if d = c then some (redis.stored c + n) else redis.facets d.1 d.2 := by
  obtain ⟨f, v⟩ := c
  obtain ⟨g, u⟩ := d
  by_cases hf : g = f
  · subst hf
    by_cases hv : u = v <;> simp [Redis.hincrby, hv]
  · simp [Redis.hincrby, hf]

theorem facets_hdel (redis : Redis) (c d : Counter) :
    (redis.hdel c).facets d.1 d.2 = if d = c then none else redis.facets d.1 d.2 := by
  obtain ⟨f, v⟩ := c
  obtain ⟨g, u⟩ := d
  by_cases hf : g = f
  · subst hf
    by_cases hv : u = v <;> simp [Redis.hdel, hv]
  · simp [Redis.hdel, hf]

theorem facets_delFacet (redis : Redis) (f : Field) (d : Counter) :
    (redis.delFacet f).facets d.1 d.2 = if d.1 = f then none else redis.facets d.1 d.2 := by
  by_cases hf : d.1 = f <;> simp [Redis.delFacet, hf]

/-- Where a worker is in its cycle; `queue` are the requests that it has still to push. -/
inductive Phase where
  | idle
  /-- `initialize_request_facets`: the facets to delete, then the length of the list. -/
  | initClear (fields : List Field) (queue : List Request)
  /-- At the head of the loop over the chunks. -/
  | initRange (start nbRequests : Nat) (queue : List Request)
  /-- The counters of the chunk that are still to be incremented. -/
  | initIncr (todo : List Counter) (start nbRequests : Nat) (queue : List Request)
  /-- At the head of the loop over the queue. -/
  | push (queue : List Request)
  /-- `incr_request_facets`. -/
  | pushIncr (todo : List Counter) (queue : List Request)
  /-- At the head of the loop that trims the list; `left` iterations are left. -/
  | trim (left : Nat)
  /-- `decr_request_facets`. -/
  | trimDecr (todo : List Counter) (left : Nat)
  /-- Before `HDEL` of a counter that was not positive. -/
  | trimHdel (c : Counter) (todo : List Counter) (left : Nat)
  /-- Before `DEL requests`, for a cap of 0. -/
  | capDel
  /-- `clear_request_facets` after that. -/
  | capClear (fields : List Field)

def chunkSize : Nat := 1000

section

variable (cap : Nat)

/-- The next command of a worker, or the end of a loop; `queue` are the requests that are not synced
when a cycle begins. -/
def advance (redis : Redis) (queue : List Request) : Phase → Redis × Phase
  | .idle =>
    (redis, if redis.initialized then .push queue else .initClear requestFacetFields queue)
  | .initClear (field :: fields) q => (redis.delFacet field, .initClear fields q)
  | .initClear [] q => (redis, .initRange 0 redis.requests.length q)
  | .initRange start n q =>
    if start < n then
      (redis, .initIncr (((redis.requests.drop start).take chunkSize).flatMap Entry.counters)
        (start + chunkSize) n q)
    else ({ redis with initialized := true }, .push q)
  | .initIncr (c :: todo) start n q => (redis.hincrby c 1, .initIncr todo start n q)
  | .initIncr [] start n q => (redis, .initRange start n q)
  | .push (request :: q) =>
    ({ redis with requests := redis.requests ++ [some request] }, .pushIncr (countersOf request) q)
  | .push [] =>
    let nbRequests := redis.requests.length
    (redis,
      if nbRequests ≤ cap then .idle else if cap = 0 then .capDel else .trim (nbRequests - cap))
  | .pushIncr (c :: todo) q => (redis.hincrby c 1, .pushIncr todo q)
  | .pushIncr [] q => (redis, .push q)
  | .trim 0 => (redis, .idle)
  | .trim (left + 1) =>
    match redis.requests with
    | [] => (redis, .idle)
    | e :: rest => ({ redis with requests := rest }, .trimDecr e.counters left)
  | .trimDecr (c :: todo) left =>
    -- The answer of `HINCRBY` is the new count.
    let count := redis.stored c - 1
    (redis.hincrby c (-1), if count ≤ 0 then .trimHdel c todo left else .trimDecr todo left)
  | .trimDecr [] left => (redis, .trim left)
  | .trimHdel c todo left => (redis.hdel c, .trimDecr todo left)
  | .capDel => ({ redis with requests := [] }, .capClear requestFacetFields)
  | .capClear (field :: fields) => (redis.delFacet field, .capClear fields)
  | .capClear [] => ({ redis with initialized := true }, .idle)

structure State (W : Type*) where
  redis : Redis
  phases : W → Phase

variable {W : Type*} [DecidableEq W]

/-- A worker moves. -/
def step (s : State W) (c : W × List Request) : State W :=
  let r := advance cap s.redis c.2 (s.phases c.1)
  ⟨r.1, Function.update s.phases c.1 r.2⟩

end

/-- No cycle is in progress. -/
def State.Idle {W : Type*} (s : State W) : Prop := ∀ w, s.phases w = .idle

/-- The entry has the value of a counter. -/
def Entry.has (e : Entry) (c : Counter) : Bool := e.any fun r => getRequestFacetValue r c.1 = c.2

/-- How many entries of a list have the value of a counter. -/
def countOf (requests : List Entry) (c : Counter) : Nat := requests.countP (Entry.has · c)

/-- Every facet has exactly the values of the list, each with the number of its entries. -/
def Redis.Exact (redis : Redis) : Prop :=
  ∀ c : Counter, redis.facets c.1 c.2 =
    if countOf redis.requests c = 0 then none else some (countOf redis.requests c : Int)

end BunkerWeb.Lua.Facets

/-!
## What a worker owes the facets

In the middle of its cycle a worker owes the facets something: the counters of a request that it has
pushed or taken off the list, or of the list that it counts anew.

- **The debt** (`debt`): what the rest of the cycle adds to a counter.
- **One command** (`advance_balanced`, `advance_covers`, `advance_trims`): what it does to the debt,
  to the counters that are not positive and to the length of the list.
- **The others** (`requests_advance`, `stored_advance`): when it does nothing to what they owe.
-/

namespace BunkerWeb.Lua.Facets

open Lib

/-! ## Counting -/

theorem count_countersOf (r : Request) (c : Counter) :
    (countersOf r).count c = if getRequestFacetValue r c.1 = c.2 then 1 else 0 := by
  obtain ⟨f, v⟩ := c
  cases f <;> simp [countersOf, requestFacetFields, List.count_cons]

theorem count_counters (e : Entry) (c : Counter) :
    e.counters.count c = if e.has c then 1 else 0 := by
  cases e with
  | none => rfl
  | some r => simpa [Entry.counters, Entry.has] using count_countersOf r c

theorem countOf_eq (requests : List Entry) (c : Counter) :
    countOf requests c = (requests.flatMap Entry.counters).count c := by
  induction requests with
  | nil => rfl
  | cons e requests ih =>
    rw [List.flatMap_cons, List.count_append, count_counters, ← ih, countOf, List.countP_cons,
      countOf]
    omega

@[simp] theorem countOf_nil (c : Counter) : countOf [] c = 0 := rfl

@[simp] theorem countOf_cons (e : Entry) (requests : List Entry) (c : Counter) :
    countOf (e :: requests) c = e.counters.count c + countOf requests c := by
  simp [countOf_eq]

@[simp] theorem countOf_append (l l' : List Entry) (c : Counter) :
    countOf (l ++ l') c = countOf l c + countOf l' c := by
  simp [countOf_eq]

theorem stored_hincrby (redis : Redis) (c d : Counter) (n : Int) :
    (redis.hincrby c n).stored d = redis.stored d + if d = c then n else 0 := by
  rw [Redis.stored, facets_hincrby]
  split_ifs with hd
  · rw [hd, Option.getD_some]
  · exact (add_zero _).symm

theorem stored_hdel (redis : Redis) (c d : Counter) :
    (redis.hdel c).stored d = if d = c then 0 else redis.stored d := by
  rw [Redis.stored, facets_hdel]
  split_ifs <;> rfl

theorem stored_delFacet (redis : Redis) (f : Field) (d : Counter) :
    (redis.delFacet f).stored d = if d.1 = f then 0 else redis.stored d := by
  rw [Redis.stored, facets_delFacet]
  split_ifs <;> rfl

theorem requests_hincrby (redis : Redis) (c : Counter) (n : Int) :
    (redis.hincrby c n).requests = redis.requests := rfl

theorem requests_delFacet (redis : Redis) (f : Field) :
    (redis.delFacet f).requests = redis.requests := rfl

theorem stored_hdel_of_zero {redis : Redis} {c : Counter} (h : redis.stored c = 0) (d : Counter) :
    (redis.hdel c).stored d = redis.stored d := by
  rw [stored_hdel]
  split_ifs with hd
  · rw [hd, h]
  · rfl

/-! ## What a command pays off -/

/-- An increment pays off the first of the counters to increment. -/
theorem stored_hincrby_count (redis : Redis) (d : Counter) (todo : List Counter) (c : Counter) :
    (redis.hincrby d 1).stored c + todo.count c = redis.stored c + (d :: todo).count c := by
  simp only [stored_hincrby, List.count_cons, beq_iff_eq, eq_comm (a := d)]
  split_ifs <;> omega

/-- A decrement pays off the first of the counters to decrement. -/
theorem stored_hincrby_neg_count (redis : Redis) (d : Counter) (todo : List Counter)
    (c : Counter) :
    (redis.hincrby d (-1)).stored c - todo.count c = redis.stored c - (d :: todo).count c := by
  simp only [stored_hincrby, List.count_cons, beq_iff_eq, eq_comm (a := d)]
  split_ifs <;> omega

/-- The deletion of a facet pays off the first of the facets to delete. -/
theorem stored_delFacet_cons (redis : Redis) (f : Field) (fields : List Field) (c : Counter) :
    ((redis.delFacet f).stored c - if c.1 ∈ fields then (redis.delFacet f).stored c else 0) =
      redis.stored c - if c.1 ∈ f :: fields then redis.stored c else 0 := by
  by_cases hf : c.1 = f <;> simp [stored_delFacet, hf]

/-- The list from an entry on is the chunk there and what is behind it. -/
theorem countOf_drop (requests : List Entry) (start : Nat) (c : Counter) :
    countOf (requests.drop start) c =
      (((requests.drop start).take chunkSize).flatMap Entry.counters).count c +
        countOf (requests.drop (start + chunkSize)) c := by
  rw [← countOf_eq, ← List.drop_drop, ← countOf_append, List.take_append_drop]

/-! ## What a worker owes -/

/-- It has still to read the list, from its `start` on. -/
def Phase.reads : Phase → Bool
  | .initClear _ _ => true
  | .initRange start n _ => start < n
  | .initIncr _ start n _ => start < n
  | _ => false

def Phase.start : Phase → Nat
  | .initRange start _ _ => start
  | .initIncr _ start _ _ => start
  | _ => 0

/-- The facets that it has still to delete. -/
def Phase.clears : Phase → List Field
  | .initClear fields _ => fields
  | .capClear fields => fields
  | _ => []

/-- The counters that it has still to increment. -/
def Phase.incrs : Phase → List Counter
  | .initIncr todo _ _ _ => todo
  | .pushIncr todo _ => todo
  | _ => []

/-- The counters that it has still to decrement. -/
def Phase.decrs : Phase → List Counter
  | .trimDecr todo _ => todo
  | .trimHdel _ todo _ => todo
  | _ => []

/-- What the rest of the cycle adds to a counter, if the list and the facets stay as they are. -/
def debt (redis : Redis) (p : Phase) (c : Counter) : Int :=
  (if p.reads then (countOf (redis.requests.drop p.start) c : Int) else 0) + p.incrs.count c -
    p.decrs.count c - if c.1 ∈ p.clears then redis.stored c else 0

section

variable (redis : Redis) (c : Counter)

attribute [local simp] Phase.reads Phase.start Phase.incrs Phase.decrs Phase.clears

@[simp] theorem debt_idle : debt redis .idle c = 0 := by
  simp [debt]

@[simp] theorem debt_initClear (fields : List Field) (q : List Request) :
    debt redis (.initClear fields q) c =
      countOf redis.requests c - if c.1 ∈ fields then redis.stored c else 0 := by
  simp [debt]
  rfl

@[simp] theorem debt_initRange (start n : Nat) (q : List Request) :
    debt redis (.initRange start n q) c =
      if start < n then (countOf (redis.requests.drop start) c : Int) else 0 := by
  simp [debt]

@[simp] theorem debt_initIncr (todo : List Counter) (start n : Nat) (q : List Request) :
    debt redis (.initIncr todo start n q) c =
      (if start < n then (countOf (redis.requests.drop start) c : Int) else 0) + todo.count c := by
  simp [debt]

@[simp] theorem debt_push (q : List Request) : debt redis (.push q) c = 0 := by
  simp [debt]

@[simp] theorem debt_pushIncr (todo : List Counter) (q : List Request) :
    debt redis (.pushIncr todo q) c = todo.count c := by
  simp [debt]

@[simp] theorem debt_trim (left : Nat) : debt redis (.trim left) c = 0 := by
  simp [debt]

@[simp] theorem debt_trimDecr (todo : List Counter) (left : Nat) :
    debt redis (.trimDecr todo left) c = -todo.count c := by
  simp [debt]

@[simp] theorem debt_trimHdel (d : Counter) (todo : List Counter) (left : Nat) :
    debt redis (.trimHdel d todo left) c = -todo.count c := by
  simp [debt]

@[simp] theorem debt_capDel : debt redis .capDel c = 0 := by
  simp [debt]

@[simp] theorem debt_capClear (fields : List Field) :
    debt redis (.capClear fields) c = -if c.1 ∈ fields then redis.stored c else 0 := by
  simp [debt]
  rfl

end

/-- A worker that reads knows the length of the list. -/
def Phase.Ok (redis : Redis) : Phase → Prop
  | .initRange start n _ => start < n → n = redis.requests.length
  | .initIncr _ start n _ => start < n → n = redis.requests.length
  | _ => True

section

variable {cap : Nat} {redis : Redis} {queue : List Request} {p : Phase}

/-- A step of a worker changes what a counter holds and what the worker owes it by as much as the
number of entries, unless the worker begins to count anew. -/
theorem advance_balanced (cap : Nat) (queue : List Request) (hok : p.Ok redis)
    (hidle : p = .idle → redis.initialized = true)
    (hdel : p ≠ .capDel) (hzero : ∀ c todo left, p = .trimHdel c todo left → redis.stored c = 0)
    (c : Counter) :
    let r := advance cap redis queue p
    r.1.stored c + debt r.1 r.2 c - countOf r.1.requests c =
      redis.stored c + debt redis p c - countOf redis.requests c := by
  cases p with
  | idle => simp [advance, hidle rfl]
  | initClear fields q =>
    cases fields with
    | nil =>
      have hempty : ¬ 0 < redis.requests.length → countOf redis.requests c = 0 := fun h => by
        have hnil : redis.requests = [] := List.length_eq_zero_iff.mp (by omega)
        rw [hnil, countOf_nil]
      by_cases hlen : 0 < redis.requests.length
      · simp [advance, hlen]
      · simp [advance, hlen, hempty hlen]
    | cons f fields =>
      have hpaid := stored_delFacet_cons redis f fields c
      simp only [advance, debt_initClear, requests_delFacet]
      omega
  | initRange start n q =>
    by_cases hlt : start < n
    · have hn := hok hlt
      have hsplit := countOf_drop redis.requests start c
      have hrest : ¬ start + chunkSize < n →
          countOf (redis.requests.drop (start + chunkSize)) c = 0 := fun h => by
        rw [List.drop_eq_nil_of_le (by omega), countOf_nil]
      simp only [advance, hlt, if_true, debt_initIncr, debt_initRange]
      split_ifs with hnext
      · omega
      · have := hrest hnext
        omega
    · simp [advance, hlt, Redis.stored]
  | initIncr todo start n q =>
    cases todo with
    | nil => simp [advance]
    | cons d todo =>
      have hpaid := stored_hincrby_count redis d todo c
      simp only [advance, debt_initIncr, requests_hincrby]
      omega
  | push q =>
    cases q with
    | nil =>
      simp only [advance]
      split_ifs <;> simp
    | cons r q =>
      simp only [advance, debt_pushIncr, debt_push, countOf_append, countOf_cons, countOf_nil,
        Redis.stored]
      simp only [Entry.counters, Option.elim_some]
      omega
  | pushIncr todo q =>
    cases todo with
    | nil => simp [advance]
    | cons d todo =>
      have hpaid := stored_hincrby_count redis d todo c
      simp only [advance, debt_pushIncr, requests_hincrby]
      omega
  | trim left =>
    cases left with
    | zero => simp [advance]
    | succ left =>
      cases hlist : redis.requests with
      | nil => simp [advance, hlist]
      | cons e rest =>
        simp only [advance, hlist, debt_trimDecr, debt_trim, countOf_cons, Redis.stored]
        omega
  | trimDecr todo left =>
    cases todo with
    | nil => simp [advance]
    | cons d todo =>
      have hpaid := stored_hincrby_neg_count redis d todo c
      have hdebt : debt (redis.hincrby d (-1))
          (if redis.stored d - 1 ≤ 0 then .trimHdel d todo left
            else .trimDecr todo left) c = -todo.count c := by
        split_ifs <;> simp
      simp only [advance, hdebt, debt_trimDecr, requests_hincrby]
      omega
  | trimHdel d todo left =>
    simp only [advance, debt_trimDecr, debt_trimHdel, stored_hdel_of_zero (hzero d todo left rfl)]
    rfl
  | capDel => exact absurd rfl hdel
  | capClear fields =>
    cases fields with
    | nil => simp [advance, Redis.stored]
    | cons f fields =>
      have hpaid := stored_delFacet_cons redis f fields c
      simp only [advance, debt_capClear, requests_delFacet]
      omega

theorem advance_ok (hok : p.Ok redis) :
    (advance cap redis queue p).2.Ok (advance cap redis queue p).1 := by
  cases p with
  | idle => simp only [advance]; split_ifs <;> trivial
  | initClear fields q => cases fields with
    | nil => exact fun _ => rfl
    | cons f fields => trivial
  | initRange start n q =>
    by_cases hlt : start < n
    · simp only [advance, hlt, if_true]
      exact fun _ => hok hlt
    · simp only [advance, hlt, if_false]
      trivial
  | initIncr todo start n q => cases todo <;> exact hok
  | push q => cases q with
    | nil => simp only [advance]; split_ifs <;> trivial
    | cons r q => trivial
  | pushIncr todo q => cases todo <;> trivial
  | trim left => cases left with
    | zero => trivial
    | succ left => simp only [advance]; split <;> trivial
  | trimDecr todo left => cases todo with
    | nil => trivial
    | cons c todo => simp only [advance]; split_ifs <;> trivial
  | capClear fields => cases fields <;> trivial
  | _ => trivial

/-! ## Counters that are not positive -/

/-- The worker is about to remove the counter. -/
def Phase.Covers (c : Counter) : Phase → Prop
  | .trimHdel d _ _ => d = c
  | .initClear fields _ => c.1 ∈ fields
  | .capClear fields => c.1 ∈ fields
  | _ => False

/-- A counter that is there and not positive. -/
def Redis.NotPositive (redis : Redis) (c : Counter) : Prop :=
  ∃ x, redis.facets c.1 c.2 = some x ∧ x ≤ 0

theorem notPositive_hincrby {c d : Counter} {n : Int} (h : (redis.hincrby d n).NotPositive c) :
    c = d ∧ redis.stored d + n ≤ 0 ∨ redis.NotPositive c := by
  obtain ⟨x, hx, hle⟩ := h
  rw [facets_hincrby] at hx
  split_ifs at hx with hc
  · cases hx
    exact .inl ⟨hc, hle⟩
  · exact .inr ⟨x, hx, hle⟩

theorem notPositive_hdel {c d : Counter} (h : (redis.hdel d).NotPositive c) :
    c ≠ d ∧ redis.NotPositive c := by
  obtain ⟨x, hx, hle⟩ := h
  rw [facets_hdel] at hx
  split_ifs at hx with hc
  exact ⟨hc, x, hx, hle⟩

theorem notPositive_delFacet {c : Counter} {f : Field} (h : (redis.delFacet f).NotPositive c) :
    c.1 ≠ f ∧ redis.NotPositive c := by
  obtain ⟨x, hx, hle⟩ := h
  rw [facets_delFacet] at hx
  split_ifs at hx with hf
  exact ⟨hf, x, hx, hle⟩

theorem notPositive_of_stored {c : Counter} (h : redis.stored c < 0) : redis.NotPositive c := by
  rw [Redis.stored] at h
  cases hx : redis.facets c.1 c.2 with
  | none => simp [hx] at h
  | some x => exact ⟨x, hx, by rw [hx, Option.getD_some] at h; omega⟩

/-- A counter that is not positive after a command is about to be removed by the worker, or it was
not positive before, and the worker was not about to remove it. -/
theorem advance_covers {c : Counter} (h : (advance cap redis queue p).1.NotPositive c) :
    (advance cap redis queue p).2.Covers c ∨
      redis.NotPositive c ∧ ¬ p.Covers c ∧ ¬ (p = .idle ∧ redis.initialized = false) := by
  have hincr {d : Counter} (h : (redis.hincrby d 1).NotPositive c) : redis.NotPositive c := by
    rcases notPositive_hincrby h with ⟨rfl, hle⟩ | h
    · exact notPositive_of_stored (by omega)
    · exact h
  cases p with
  | idle =>
    cases hinit : redis.initialized with
    | true => exact .inr ⟨h, id, by simp⟩
    | false => exact .inl (by simp [advance, hinit, Phase.Covers, mem_requestFacetFields])
  | initClear fields q => cases fields with
    | nil => exact .inr ⟨h, by simp [Phase.Covers], nofun⟩
    | cons f fields =>
      obtain ⟨hne, hold⟩ := notPositive_delFacet h
      by_cases hc : c.1 ∈ fields
      · exact .inl hc
      · exact .inr ⟨hold, by simp [Phase.Covers, hne, hc], nofun⟩
  | initRange start n q =>
    refine .inr ⟨?_, id, nofun⟩
    simp only [advance] at h
    split_ifs at h <;> exact h
  | initIncr todo start n q => cases todo with
    | nil => exact .inr ⟨h, id, nofun⟩
    | cons d todo => exact .inr ⟨hincr h, id, nofun⟩
  | push q => cases q <;> exact .inr ⟨h, id, nofun⟩
  | pushIncr todo q => cases todo with
    | nil => exact .inr ⟨h, id, nofun⟩
    | cons d todo => exact .inr ⟨hincr h, id, nofun⟩
  | trim left =>
    refine .inr ⟨?_, id, nofun⟩
    cases left with
    | zero => exact h
    | succ left =>
      simp only [advance] at h
      split at h <;> exact h
  | trimDecr todo left => cases todo with
    | nil => exact .inr ⟨h, id, nofun⟩
    | cons d todo =>
      rcases notPositive_hincrby h with ⟨rfl, hle⟩ | h
      · have hle : redis.stored c - 1 ≤ 0 := hle
        exact .inl (by simp only [advance, hle, if_true]; rfl)
      · exact .inr ⟨h, id, nofun⟩
  | trimHdel d todo left =>
    obtain ⟨hne, hold⟩ := notPositive_hdel h
    exact .inr ⟨hold, fun hd => hne hd.symm, nofun⟩
  | capDel => exact .inl (by simp [advance, Phase.Covers, mem_requestFacetFields])
  | capClear fields => cases fields with
    | nil => exact .inr ⟨h, by simp [Phase.Covers], nofun⟩
    | cons f fields =>
      obtain ⟨hne, hold⟩ := notPositive_delFacet h
      by_cases hc : c.1 ∈ fields
      · exact .inl hc
      · exact .inr ⟨hold, by simp [Phase.Covers, hne, hc], nofun⟩

/-- A worker that is about to remove a counter has just found it not to be positive. -/
theorem advance_fresh {c : Counter} {todo : List Counter} {left : Nat}
    (h : (advance cap redis queue p).2 = .trimHdel c todo left) :
    (advance cap redis queue p).1.stored c ≤ 0 := by
  cases p with
  | trimDecr todo' left' => cases todo' with
    | nil => cases h
    | cons d todo' =>
      simp only [advance] at h ⊢
      split_ifs at h with hle
      · cases h
        rw [stored_hincrby, if_pos rfl]
        omega
  | idle => simp only [advance] at h; split_ifs at h
  | initClear fields q => cases fields <;> cases h
  | initRange start n q => simp only [advance] at h; split_ifs at h
  | initIncr todo' start n q => cases todo' <;> cases h
  | push q => cases q with
    | nil => simp only [advance] at h; split_ifs at h
    | cons r q => cases h
  | pushIncr todo' q => cases todo' <;> cases h
  | trim left' => cases left' with
    | zero => cases h
    | succ left' => simp only [advance] at h; split at h <;> cases h
  | trimHdel d todo' left' => cases h
  | capDel => cases h
  | capClear fields => cases fields <;> cases h

/-! ## The cap -/

/-- The worker brings a list of `n` entries down to its cap before its cycle is over. -/
def Phase.Trims (cap n : Nat) : Phase → Prop
  | .idle => False
  | .trim left => n ≤ cap + left
  | .trimDecr _ left => n ≤ cap + left
  | .trimHdel _ _ left => n ≤ cap + left
  | .capClear _ => False
  | _ => True

theorem Phase.Trims.mono {n n' : Nat} (h : n' ≤ n) (hp : p.Trims cap n) : p.Trims cap n' := by
  cases p <;> first | exact hp | exact h.trans hp

/-- A worker leaves a list that is short enough or that it trims itself, or a shorter one than
before, which it was not going to trim. -/
theorem advance_trims (cap : Nat) (redis : Redis) (queue : List Request) (p : Phase) :
    let r := advance cap redis queue p
    r.1.requests.length ≤ cap ∨ r.2.Trims cap r.1.requests.length ∨
      r.1.requests.length ≤ redis.requests.length ∧ ¬ p.Trims cap redis.requests.length ∧
        ¬ (p = .idle ∧ redis.initialized = false) := by
  cases p with
  | idle => cases hinit : redis.initialized <;> simp [advance, hinit, Phase.Trims]
  | initClear fields q => cases fields <;> exact .inr (.inl trivial)
  | initRange start n q =>
    refine .inr (.inl ?_)
    simp only [advance]
    split_ifs <;> trivial
  | initIncr todo start n q => cases todo <;> exact .inr (.inl trivial)
  | push q => cases q with
    | nil =>
      by_cases hle : redis.requests.length ≤ cap
      · exact .inl hle
      · refine .inr (.inl ?_)
        simp only [advance, hle, if_false]
        split_ifs
        · trivial
        · simp only [Phase.Trims]
          omega
    | cons r q => exact .inr (.inl trivial)
  | pushIncr todo q => cases todo <;> exact .inr (.inl trivial)
  | trim left => cases left with
    | zero =>
      by_cases hle : redis.requests.length ≤ cap
      · exact .inl hle
      · exact .inr (.inr ⟨le_rfl, hle, nofun⟩)
    | succ left => cases hlist : redis.requests with
      | nil => simp [advance, hlist]
      | cons e rest =>
        simp only [advance, hlist, Phase.Trims, List.length_cons]
        by_cases hle : rest.length ≤ cap + left
        · exact .inr (.inl hle)
        · exact .inr (.inr ⟨by omega, by omega, nofun⟩)
  | trimDecr todo left =>
    by_cases hle : redis.requests.length ≤ cap + left
    · refine .inr (.inl ?_)
      cases todo with
      | nil => exact hle
      | cons d todo => simp only [advance]; split_ifs <;> exact hle
    · refine .inr (.inr ⟨?_, hle, nofun⟩)
      cases todo <;> exact le_rfl
  | trimHdel d todo left =>
    by_cases hle : redis.requests.length ≤ cap + left
    · exact .inr (.inl hle)
    · exact .inr (.inr ⟨le_rfl, hle, nofun⟩)
  | capDel => exact .inl (Nat.zero_le _)
  | capClear fields => cases fields <;> exact .inr (.inr ⟨le_rfl, id, nofun⟩)

/-! ## What a worker may meet -/

/-- The next command changes the list. -/
def Phase.changesList (redis : Redis) : Phase → Bool
  | .push (_ :: _) => true
  | .trim (_ + 1) => !redis.requests.isEmpty
  | .capDel => !redis.requests.isEmpty
  | _ => false

/-- The next command changes counters of the facet. -/
def Phase.Changes (redis : Redis) (f : Field) : Phase → Prop
  | .initClear (g :: _) _ => g = f ∧ ∃ v, redis.stored (f, v) ≠ 0
  | .capClear (g :: _) => g = f ∧ ∃ v, redis.stored (f, v) ≠ 0
  | .initIncr (c :: _) _ _ _ => c.1 = f
  | .pushIncr (c :: _) _ => c.1 = f
  | .trimDecr (c :: _) _ => c.1 = f
  | _ => False

theorem requests_advance (h : p.changesList redis = false) :
    (advance cap redis queue p).1.requests = redis.requests := by
  cases p with
  | initClear fields q => cases fields <;> rfl
  | initRange start n q => simp only [advance]; split_ifs <;> rfl
  | initIncr todo start n q => cases todo <;> rfl
  | push q => cases q with
    | nil => rfl
    | cons r q => cases h
  | pushIncr todo q => cases todo <;> rfl
  | trim left => cases left with
    | zero => rfl
    | succ left => cases hlist : redis.requests <;> simp_all [advance, Phase.changesList]
  | trimDecr todo left => cases todo <;> rfl
  | capDel => simp_all [advance, Phase.changesList]
  | capClear fields => cases fields <;> rfl
  | _ => rfl

theorem stored_advance (hzero : ∀ c todo left, p = .trimHdel c todo left → redis.stored c = 0)
    {c : Counter} (h : ¬ p.Changes redis c.1) :
    (advance cap redis queue p).1.stored c = redis.stored c := by
  have hdel {f : Field} (hf : ¬ (f = c.1 ∧ ∃ v, redis.stored (c.1, v) ≠ 0)) :
      (redis.delFacet f).stored c = redis.stored c := by
    rw [stored_delFacet]
    split_ifs with hc
    · by_contra hne
      exact hf ⟨hc.symm, c.2, Ne.symm hne⟩
    · rfl
  have hincr {d : Counter} {n : Int} (hd : ¬ d.1 = c.1) :
      (redis.hincrby d n).stored c = redis.stored c := by
    rw [stored_hincrby, if_neg fun hc => hd (congrArg Prod.fst hc).symm, add_zero]
  cases p with
  | initClear fields q => cases fields with
    | nil => rfl
    | cons f fields => exact hdel h
  | initRange start n q => simp only [advance]; split_ifs <;> rfl
  | initIncr todo start n q => cases todo with
    | nil => rfl
    | cons d todo => exact hincr h
  | push q => cases q <;> rfl
  | pushIncr todo q => cases todo with
    | nil => rfl
    | cons d todo => exact hincr h
  | trim left => cases left with
    | zero => rfl
    | succ left => simp only [advance]; split <;> rfl
  | trimDecr todo left => cases todo with
    | nil => rfl
    | cons d todo => exact hincr h
  | trimHdel d todo left => exact stored_hdel_of_zero (hzero d todo left rfl) c
  | capClear fields => cases fields with
    | nil => rfl
    | cons f fields => exact hdel h
  | _ => rfl

end

end BunkerWeb.Lua.Facets
