import BunkerWeb.Cli.FanOut
import BunkerWeb.Lib.Parties
import BunkerWeb.Lib.Run
import Mathlib.Algebra.Order.Group.Multiset
import Mathlib.Tactic.Abel

/-!
# The reports to BunkerNet (`bunkernet.lua`, `bunkernet-send.py`)

The log phase of an instance appends a report to a list in the shared dictionary. The job asks every
instance for its list, which the instance hands out one element after the other, merges the answers
with the reports it has cached, sends batches to the BunkerNet API and caches what is left.

- **An instance** (`log`, `receive`, `pop`): a command on the list is atomic, and others come between
  those of one answer, also those of other requests.
- **The job** (`mergeReports`, `sendReports`, `runJob`): from the answers in the order in which they
  complete to the batches that the API takes and the reports that are cached.
- **The system** (`State`, `step`): instances, requests and jobs in any order. `accepted` is what the
  API took.

Left out are the registration, the pauses between batches and what is logged. The dates of reports are
numbers, in the order of `datetime`.
-/

namespace BunkerWeb.BunkerNet

open Lib Cli

variable {κ ι ρ : Type}

/-! ## The job -/

/-- A value in the answer of `/bunkernet/reports`. -/
inductive Field (ρ : Type) where
  | text (s : Text)
  | reports (l : List ρ)

/-- The JSON object that the instance answers with. -/
def answer (l : List ρ) : Body (Field ρ) :=
  .object [("status".toList, .text "success".toList), ("msg".toList, .reports l)]

/-- The answer of the instance when no plugin has one. -/
def notFound : Body (Field ρ) :=
  .object [("status".toList, .text "error".toList), ("msg".toList, .text "not found".toList)]

/-- `data.get("msg", [])` of an answer whose status is `success`. -/
def messageOf (data : Body (Field ρ)) : List ρ :=
  match data with
  | .other _ _ => []
  | .object entries =>
    match (entries.find? (·.1 = "status".toList)).map Prod.snd with
    | some (.text status) =>
      if status = "success".toList then
        match (entries.find? (·.1 = "msg".toList)).map Prod.snd with
        | some (.reports l) => l
        | _ => []
      else []
    | _ => []

/-- `instance_reports`. -/
def instanceReports (sent : Bool × Option (Dict Text (Body (Field ρ)))) : List ρ :=
  match sent with
  | (true, some data) => data.items.flatMap fun e => messageOf e.2
  | _ => []

/-- What `reports.json` holds. -/
structure Cached (ρ : Type) where
  created : Nat
  reports : List ρ

def BATCH_SIZE : Nat := 100

/-- `heapq.merge(cached, instance_reports, key=date)`. -/
def mergeReports (date : ρ → Nat) (cached reports : List ρ) : List ρ :=
  cached.merge reports fun a b => date a ≤ date b

/-- The loop over the batches once it is not forced, in at most `fuel` turns; `accepts n` says whether
the API takes the `n`-th batch. The batches that it takes, and what is left. -/
def sendBatches (accepts : Nat → Bool) : (fuel n : Nat) → List ρ → List (List ρ) × List ρ
  | 0, _, reports => ([], reports)
  | fuel + 1, n, reports =>
    if BATCH_SIZE ≤ reports.length then
      if accepts n then
        let (batches, rest) := sendBatches accepts fuel (n + 1) (reports.drop BATCH_SIZE)
        (reports.take BATCH_SIZE :: batches, rest)
      else ([], reports)
    else ([], reports)

/-- `while force_send or remaining >= BATCH_SIZE`. -/
def sendReports (forceSend : Bool) (accepts : Nat → Bool) (reports : List ρ) :
    List (List ρ) × List ρ :=
  if forceSend then
    if accepts 0 then
      let (batches, rest) := sendBatches accepts reports.length 1 (reports.drop BATCH_SIZE)
      (reports.take BATCH_SIZE :: batches, rest)
    else ([], reports)
  else sendBatches accepts reports.length 0 reports

/-- `timedelta(hours=24)`. -/
def maxAge : Nat := 24 * 3600

/-- The job, from the answers on: the batches that were taken, and `reports.json` after it. -/
def runJob (date : ρ → Nat) (now : Nat) (accepts : Nat → Bool) (cached : Option (Cached ρ))
    (sent : Bool × Option (Dict Text (Body (Field ρ)))) : List (List ρ) × Option (Cached ρ) :=
  let data := cached.getD ⟨now, []⟩
  let reports := mergeReports date data.reports (instanceReports sent)
  let (batches, rest) := sendReports (decide (data.created + maxAge < now)) accepts reports
  (batches, if rest = [] then none else some ⟨data.created, rest⟩)

/-! ## The system -/

/-- The function that answers a request: `popping left reports` is in its loop, `failed` is one whose
`lpop` found no report, which ends it since no error comes with it. -/
inductive Handler (ρ : Type) where
  | popping (left : Nat) (reports : List ρ)
  | failed

structure State (κ ι ρ : Type) where
  /-- `plugin_bunkernet_reports` in the shared dictionary of an instance. -/
  queue : ι → List ρ
  /-- The requests that have reached their instance. -/
  handler : κ → Option (Handler ρ)
  /-- The requests that nobody waits for. -/
  closed : κ → Bool
  cached : Option (Cached ρ)
  accepted : List (List ρ)

inductive Event (κ ι ρ : Type) where
  /-- `rpush` of a report. -/
  | log (i : ι) (report : ρ)
  /-- The instance gets the request and reads the length of its list. -/
  | receive (r : κ)
  /-- A turn of the loop of a request. -/
  | pop (r : κ)
  /-- The sender gives up: a timeout, or an error after which `API.request` tries another scheme. -/
  | abort (r : κ)
  /-- The requests of a job have completed in the order `order`, those that are `delivered` with the
  answer of the instance, and the job goes on. `saved` says whether it can write its cache. -/
  | send (order : List κ) (delivered : κ → Bool) (now : Nat) (accepts : Nat → Bool) (saved : Bool)

variable (date : ρ → Nat) (target : κ → ι) (instances : ι → Instance)

/-- The reports that a request has popped for somebody who waits. -/
def State.popped (s : State κ ι ρ) (r : κ) : List ρ :=
  if s.closed r then []
  else
    match s.handler r with
    | some (.popping _ reports) => reports
    | _ => []

/-- What becomes of a request. -/
def State.outcome (s : State κ ι ρ) (delivered : κ → Bool) (r : κ) : Outcome (Field ρ) :=
  if s.closed r || !delivered r then .notSent
  else
    match s.handler r with
    | some (.popping 0 reports) => .answered 200 (answer reports)
    | some .failed => .answered 404 notFound
    | _ => .notSent

/-- What `send_to_apis` returns. -/
def State.responses (s : State κ ι ρ) (order : List κ) (delivered : κ → Bool) :
    Bool × Option (Dict Text (Body (Field ρ))) :=
  sendToApis true (order.map fun r => (instances (target r), s.outcome delivered r))

section Step

variable [DecidableEq κ] [DecidableEq ι]

def step (s : State κ ι ρ) : Event κ ι ρ → State κ ι ρ
  | .log i report => { s with queue := Function.update s.queue i (s.queue i ++ [report]) }
  | .receive r =>
    match s.handler r with
    | none =>
      { s with
        handler := Function.update s.handler r (some (.popping (s.queue (target r)).length [])) }
    | some _ => s
  | .pop r =>
    match s.handler r with
    | some (.popping (left + 1) reports) =>
      match s.queue (target r) with
      | [] => { s with handler := Function.update s.handler r (some .failed) }
      | report :: rest =>
        { s with
          queue := Function.update s.queue (target r) rest
          handler := Function.update s.handler r (some (.popping left (reports ++ [report]))) }
    | _ => s
  | .abort r => { s with closed := Function.update s.closed r true }
  | .send order delivered now accepts saved =>
    let (batches, cached) :=
      runJob date now accepts s.cached (s.responses target instances order delivered)
    { s with
      closed := fun r => s.closed r || decide (r ∈ order)
      cached := if saved then cached else s.cached
      accepted := s.accepted ++ batches }

end Step

/-! ## The batches -/

section Batches

variable {accepts : Nat → Bool}

theorem sendBatches_flatten (fuel n : Nat) (reports : List ρ) :
    (sendBatches accepts fuel n reports).1.flatten ++ (sendBatches accepts fuel n reports).2 =
      reports := by
  induction fuel generalizing n reports with
  | zero => rfl
  | succ fuel ih =>
    rw [sendBatches]
    split
    · split
      · show (reports.take BATCH_SIZE :: _).flatten ++ _ = reports
        rw [List.flatten_cons, List.append_assoc, ih, List.take_append_drop]
      · rfl
    · rfl

theorem length_of_mem_sendBatches (fuel n : Nat) (reports : List ρ) :
    ∀ batch ∈ (sendBatches accepts fuel n reports).1, batch.length = BATCH_SIZE := by
  induction fuel generalizing n reports with
  | zero => simp [sendBatches]
  | succ fuel ih =>
    rw [sendBatches]
    split
    next hlength =>
      split
      · exact List.forall_mem_cons.mpr ⟨List.length_take_of_le hlength, ih _ _⟩
      · simp
    · simp

theorem accepts_of_lt_sendBatches (fuel n : Nat) (reports : List ρ) :
    ∀ k < (sendBatches accepts fuel n reports).1.length, accepts (n + k) = true := by
  induction fuel generalizing n reports with
  | zero => simp [sendBatches]
  | succ fuel ih =>
    rw [sendBatches]
    split
    · split
      next haccepts =>
        rintro (_ | k) hk
        · exact haccepts
        · rw [Nat.add_comm k, ← Nat.add_assoc]
          exact ih (n + 1) _ k (Nat.lt_of_succ_lt_succ hk)
      · simp
    · simp

/-- With a turn for every report the loop ends by itself. -/
theorem sendBatches_end (accepts : Nat → Bool) (fuel n : Nat) {reports : List ρ}
    (hfuel : reports.length ≤ fuel) :
    (sendBatches accepts fuel n reports).2.length < BATCH_SIZE ∨
      accepts (n + (sendBatches accepts fuel n reports).1.length) = false := by
  induction fuel generalizing n reports with
  | zero =>
    left
    simp [sendBatches, BATCH_SIZE, List.eq_nil_of_length_eq_zero (Nat.le_zero.mp hfuel)]
  | succ fuel ih =>
    rw [sendBatches]
    split
    next hlength =>
      split
      · have hdrop : (reports.drop BATCH_SIZE).length ≤ fuel := by
          rw [List.length_drop]
          unfold BATCH_SIZE at hlength ⊢
          omega
        rcases ih (n + 1) hdrop with h | h
        · exact .inl h
        · refine .inr ?_
          rw [← h]
          show accepts (n + (_ + 1)) = _
          rw [Nat.add_right_comm, Nat.add_assoc]
      next haccepts => exact .inr (by simpa using haccepts)
    next hlength => exact .inl (Nat.lt_of_not_le hlength)

/-- What a forced batch changes is the first batch only. -/
theorem sendReports_eq (forceSend : Bool) (reports : List ρ) :
    sendReports forceSend accepts reports =
      if forceSend then
        if accepts 0 then
          (reports.take BATCH_SIZE :: (sendBatches accepts reports.length 1 (reports.drop BATCH_SIZE)).1,
            (sendBatches accepts reports.length 1 (reports.drop BATCH_SIZE)).2)
        else ([], reports)
      else sendBatches accepts reports.length 0 reports := rfl

theorem sendReports_flatten (forceSend : Bool) (reports : List ρ) :
    (sendReports forceSend accepts reports).1.flatten ++ (sendReports forceSend accepts reports).2 =
      reports := by
  rw [sendReports_eq]
  split
  · split
    · show (reports.take BATCH_SIZE :: _).flatten ++ _ = reports
      rw [List.flatten_cons, List.append_assoc, sendBatches_flatten, List.take_append_drop]
    · rfl
  · exact sendBatches_flatten _ _ _

end Batches

/-- **No report is dropped between the batches.** For every list of reports, every pattern of answers
of the API, and whether a batch is forced or not: the batches that were taken and then what is left are
the reports in their order, the API took each of the batches, all of them but a forced one have the
full size, and the job stops only at a refusal or when less than a batch is left. -/
theorem reports_batched (forceSend : Bool) (accepts : Nat → Bool) (reports : List ρ) :
    (sendReports forceSend accepts reports).1.flatten ++ (sendReports forceSend accepts reports).2 =
        reports ∧
      (∀ k < (sendReports forceSend accepts reports).1.length, accepts k = true) ∧
      (∀ batch ∈ (sendReports forceSend accepts reports).1.drop (if forceSend then 1 else 0),
        batch.length = BATCH_SIZE) ∧
      ((sendReports forceSend accepts reports).2.length < BATCH_SIZE ∨
        accepts (sendReports forceSend accepts reports).1.length = false) := by
  refine ⟨sendReports_flatten forceSend reports, ?_⟩
  rw [sendReports_eq]
  cases forceSend with
  | false =>
    refine ⟨fun k hk => ?_, length_of_mem_sendBatches _ _ _, ?_⟩
    · simpa using accepts_of_lt_sendBatches _ 0 _ k hk
    · simpa using sendBatches_end accepts _ 0 (Nat.le_refl reports.length)
  | true =>
    rw [if_pos rfl]
    by_cases haccepts : accepts 0 = true
    · rw [if_pos haccepts]
      refine ⟨?_, length_of_mem_sendBatches _ _ _, ?_⟩
      · rintro (_ | k) hk
        · exact haccepts
        · rw [Nat.add_comm]
          exact accepts_of_lt_sendBatches _ 1 _ k (Nat.lt_of_succ_lt_succ hk)
      · have hdrop : (reports.drop BATCH_SIZE).length ≤ reports.length := by
          rw [List.length_drop]
          exact Nat.sub_le _ _
        have hend := sendBatches_end accepts reports.length 1 hdrop
        rwa [Nat.add_comm] at hend
    · rw [if_neg haccepts]
      exact ⟨by simp, by simp, .inr (by simpa using haccepts)⟩

/-! ## The account -/

/-- The reports in `reports.json`. -/
def cachedReports (cached : Option (Cached ρ)) : List ρ := (cached.map Cached.reports).getD []

/-- The job sends or caches what was cached and what it got. -/
theorem runJob_account (now : Nat) (accepts : Nat → Bool) (cached : Option (Cached ρ))
    (sent : Bool × Option (Dict Text (Body (Field ρ)))) :
    (((runJob date now accepts cached sent).1.flatten : Multiset ρ) +
        (cachedReports (runJob date now accepts cached sent).2 : Multiset ρ)) =
      (cachedReports cached : Multiset ρ) + (instanceReports sent : Multiset ρ) := by
  have hcached : (cached.getD ⟨now, []⟩).reports = cachedReports cached := by
    cases cached <;> rfl
  have hrest (rest : List ρ) (created : Nat) :
      cachedReports (if rest = [] then none else some ⟨created, rest⟩) = rest := by
    by_cases h : rest = [] <;> simp [h, cachedReports]
  rw [runJob, hrest, Multiset.coe_add, sendReports_flatten, mergeReports, hcached, Multiset.coe_add,
    Multiset.coe_eq_coe]
  exact List.merge_perm_append _

/-- The request has its answer. -/
def State.answered (s : State κ ι ρ) (delivered : κ → Bool) (r : κ) : Bool :=
  !s.closed r && delivered r &&
    match s.handler r with
    | some (.popping 0 _) => true
    | _ => false

section Responses

variable {s : State κ ι ρ} {delivered : κ → Bool} {r : κ}

theorem outcome_of_answered (h : s.answered delivered r = true) :
    s.outcome delivered r = .answered 200 (answer (s.popped r)) := by
  unfold State.answered at h
  rw [Bool.and_eq_true, Bool.and_eq_true, Bool.not_eq_true'] at h
  obtain ⟨⟨hclosed, hdelivered⟩, hhandler⟩ := h
  unfold State.outcome State.popped
  rw [hclosed, hdelivered]
  match hr : s.handler r with
  | some (.popping 0 reports) => rfl
  | some (.popping (_ + 1) _) => simp [hr] at hhandler
  | some .failed => simp [hr] at hhandler
  | none => simp [hr] at hhandler

theorem outcome_of_not_answered (h : s.answered delivered r = false) :
    s.outcome delivered r = .notSent ∨ s.outcome delivered r = .answered 404 notFound := by
  unfold State.answered at h
  unfold State.outcome
  cases hclosed : s.closed r
  · cases hdelivered : delivered r
    · exact .inl rfl
    · match hr : s.handler r with
      | some (.popping 0 reports) => simp [hclosed, hdelivered, hr] at h
      | some (.popping (_ + 1) _) => exact .inl rfl
      | some .failed => exact .inr rfl
      | none => exact .inl rfl
  · exact .inl rfl

theorem responses_fst (order : List κ) :
    (s.responses target instances order delivered).1 = order.all (s.answered delivered) := by
  suffices h : ∀ acc : Bool × Dict Text (Body (Field ρ)),
      ((order.map fun r => (instances (target r), s.outcome delivered r)).foldl
        (complete true) acc).1 = (acc.1 && order.all (s.answered delivered)) from
    (h (true, ∅)).trans (Bool.true_and _)
  induction order with
  | nil => simp
  | cons r order ih =>
    intro acc
    rw [List.map_cons, List.foldl_cons, ih, List.all_cons, ← Bool.and_assoc]
    congr 1
    cases hr : s.answered delivered r
    · rcases outcome_of_not_answered hr with h | h <;> simp [complete, h, notFound]
    · simp [complete, outcome_of_answered hr, answer]

/-- With an answer of every instance, and a host name for each, the reports are those in the
answers. -/
theorem instanceReports_of_answered {order : List κ}
    (hhosts : (order.map fun r => (instances (target r)).hostname).Nodup)
    (hall : order.all (s.answered delivered) = true) :
    (instanceReports (s.responses target instances order delivered)).Perm
      (order.flatMap s.popped) := by
  have hkept : (order.map fun r => (instances (target r), s.outcome delivered r)).filterMap kept =
      order.map fun r => ((instances (target r)).hostname, answer (s.popped r)) := by
    rw [List.filterMap_map, ← List.filterMap_eq_map]
    refine List.filterMap_congr fun r hr => ?_
    rw [Function.comp_apply, outcome_of_answered (List.all_eq_true.mp hall r hr)]
    rfl
  have hsnd : (s.responses target instances order delivered).2 =
      some ((∅ : Dict Text (Body (Field ρ))).setAll
        (order.map fun r => ((instances (target r)).hostname, answer (s.popped r)))) := by
    rw [← hkept]
    exact congrArg some (foldl_complete_snd _)
  have hresponses : s.responses target instances order delivered =
      (true, some ((∅ : Dict Text (Body (Field ρ))).setAll
        (order.map fun r => ((instances (target r)).hostname, answer (s.popped r))))) :=
    Prod.ext ((responses_fst target instances order).trans hall) hsnd
  rw [hresponses]
  show (List.flatMap _ (Dict.items _)).Perm _
  refine ((Dict.items_setAll_perm ?_).flatMap_right _).trans ?_
  · rw [List.map_map]
    exact hhosts
  · rw [List.flatMap_map]
    exact .refl _

theorem instanceReports_of_not_answered {order : List κ}
    (hall : order.all (s.answered delivered) = false) :
    instanceReports (s.responses target instances order delivered) = [] := by
  rw [← responses_fst target instances order] at hall
  unfold instanceReports
  split
  next h => rw [h] at hall; cases hall
  · rfl

end Responses

/-- The reports that a step puts into a list. -/
def Event.logged : Event κ ι ρ → Multiset ρ
  | .log _ report => {report}
  | _ => 0

/-- The reports that a step takes out of the system: those of a request that nobody waits for any
longer, those of a request that fails, and, when one of the instances of a job has not answered, those
that the other ones have answered. -/
def State.lost (s : State κ ι ρ) : Event κ ι ρ → Multiset ρ
  | .log _ _ | .receive _ => 0
  | .pop r =>
    match s.handler r, s.queue (target r) with
    | some (.popping (_ + 1) _), [] => s.popped r
    | some (.popping (_ + 1) _), report :: _ => if s.closed r then {report} else 0
    | _, _ => 0
  | .abort r => s.popped r
  | .send order delivered _ _ _ =>
    if order.all (s.answered delivered) then 0
    else (order.map fun r => (s.popped r : Multiset ρ)).sum

/-- A job asks each instance once, no two of which have one host name, and it can write its cache. -/
def Sound : Event κ ι ρ → Prop
  | .send order _ _ _ saved =>
    order.Nodup ∧ (order.map fun r => (instances (target r)).hostname).Nodup ∧ saved = true
  | _ => True

def State.inQueues [Fintype ι] (s : State κ ι ρ) : Multiset ρ := ∑ i, (s.queue i : Multiset ρ)

def State.inAnswers [Fintype κ] (s : State κ ι ρ) : Multiset ρ := ∑ r, (s.popped r : Multiset ρ)

/-- The reports that the job has. -/
def State.kept (s : State κ ι ρ) : Multiset ρ :=
  (s.accepted.flatten : Multiset ρ) + (cachedReports s.cached : Multiset ρ)

/-- The reports that are somewhere: in a list, in an answer, in the cache or taken by the API. -/
def State.total [Fintype κ] [Fintype ι] (s : State κ ι ρ) : Multiset ρ :=
  s.inQueues + s.inAnswers + s.kept

section Changes

variable {s s' : State κ ι ρ}

theorem inQueues_change [Fintype ι] [DecidableEq ι] (s s' : State κ ι ρ) {i : ι}
    (h : ∀ j, j ≠ i → s'.queue j = s.queue j) :
    s'.inQueues + (s.queue i : Multiset ρ) = s.inQueues + (s'.queue i : Multiset ρ) :=
  Parties.sum_change fun j hj => congrArg ((↑) : List ρ → Multiset ρ) (h j hj)

theorem inAnswers_change [Fintype κ] [DecidableEq κ] (s s' : State κ ι ρ) {r : κ}
    (h : ∀ j, j ≠ r → s'.popped j = s.popped j) :
    s'.inAnswers + (s.popped r : Multiset ρ) = s.inAnswers + (s'.popped r : Multiset ρ) :=
  Parties.sum_change fun j hj => congrArg ((↑) : List ρ → Multiset ρ) (h j hj)

theorem inAnswers_congr [Fintype κ] (h : ∀ r, s'.popped r = s.popped r) :
    s'.inAnswers = s.inAnswers :=
  Finset.sum_congr rfl fun r _ => congrArg ((↑) : List ρ → Multiset ρ) (h r)

/-- The account of a step from those of its parts. -/
theorem total_change [Fintype κ] [Fintype ι] {x y u v w lost logged : Multiset ρ}
    (hqueues : s'.inQueues + x = s.inQueues + y) (hanswers : s'.inAnswers + u = s.inAnswers + v)
    (hkept : s'.kept = s.kept + w) (h : lost + (y + v + w) = logged + (x + u)) :
    s'.total + lost = s.total + logged := by
  refine add_right_cancel (b := x + u) ?_
  calc s'.total + lost + (x + u)
      = (s'.inQueues + x) + (s'.inAnswers + u) + s'.kept + lost := by
        unfold State.total; abel
    _ = s.inQueues + s.inAnswers + s.kept + (lost + (y + v + w)) := by
        rw [hqueues, hanswers, hkept]; abel
    _ = s.total + logged + (x + u) := by
        rw [h, State.total, ← add_assoc (s.inQueues + s.inAnswers + s.kept)]

end Changes

section Account

variable [DecidableEq κ] [DecidableEq ι]

/-- What a request has popped, after a step of its function or of another one. -/
theorem popped_update {κ ι ρ : Type} [DecidableEq κ] (s : State κ ι ρ) (queue : ι → List ρ) (r : κ)
    (h : Handler ρ) (j : κ) :
    State.popped { s with queue := queue, handler := Function.update s.handler r (some h) } j =
      if j = r then
        if s.closed r then []
        else
          match h with
          | .popping _ reports => reports
          | .failed => []
      else s.popped j := by
  by_cases hj : j = r
  · subst hj
    cases h <;> simp [State.popped]
  · simp [State.popped, hj]

variable {date target instances}

theorem kept_send (s : State κ ι ρ) (order : List κ) (delivered : κ → Bool) (now : Nat)
    (accepts : Nat → Bool) :
    (step date target instances s (.send order delivered now accepts true)).kept =
      s.kept + (instanceReports (s.responses target instances order delivered) : Multiset ρ) := by
  let sent := s.responses target instances order delivered
  show ((s.accepted ++ (runJob date now accepts s.cached sent).1).flatten : Multiset ρ) +
    (cachedReports (runJob date now accepts s.cached sent).2 : Multiset ρ) = _
  rw [List.flatten_append, ← Multiset.coe_add, add_assoc, runJob_account, State.kept, add_assoc]

variable [Fintype κ] [Fintype ι]

/-- **A step loses what `lost` says and nothing else**: one case for each event. -/
theorem total_step (s : State κ ι ρ) (event : Event κ ι ρ) (hsound : Sound target instances event) :
    (step date target instances s event).total + s.lost target event = s.total + event.logged := by
  cases event with
  | log i report =>
    have hqueues := inQueues_change s (step date target instances s (.log i report)) (i := i)
      fun j hj => Function.update_of_ne hj _ _
    have hnew : ((step date target instances s (.log i report)).queue i : Multiset ρ) =
        (s.queue i : Multiset ρ) + {report} := by
      show ((Function.update s.queue i _ i : List ρ) : Multiset ρ) = _
      rw [Function.update_self, ← Multiset.coe_add, Multiset.coe_singleton]
    rw [hnew] at hqueues
    refine total_change (u := 0) (v := 0) (w := 0) hqueues rfl (add_zero _).symm ?_
    simp [State.lost, Event.logged, add_comm]
  | receive r =>
    match hr : s.handler r with
    | some _ =>
      rw [step, hr]
      exact rfl
    | none =>
      have hanswers : (step date target instances s (.receive r)).inAnswers = s.inAnswers := by
        refine inAnswers_congr fun j => ?_
        rw [step, hr]
        refine (popped_update s s.queue r _ j).trans ?_
        split
        next hj => simp [State.popped, hj, hr]
        · rfl
      refine total_change (x := 0) (y := 0) (u := 0) (v := 0) (w := 0) ?_ (congrArg (· + 0) hanswers)
        ?_ rfl
      · rw [step, hr]; rfl
      · rw [step, hr]; exact (add_zero _).symm
  | pop r =>
    match hr : s.handler r with
    | none => rw [step, State.lost, hr]; rfl
    | some .failed => rw [step, State.lost, hr]; rfl
    | some (.popping 0 _) => rw [step, State.lost, hr]; rfl
    | some (.popping (left + 1) reports) =>
      have hpopped : s.popped r = if s.closed r then [] else reports := by simp [State.popped, hr]
      match hq : s.queue (target r) with
      | [] =>
        have hstep : step date target instances s (.pop r) =
            { s with handler := Function.update s.handler r (some .failed) } := by
          rw [step, hr]; simp only [hq]
        rw [hstep, State.lost, hr, hq]
        have hanswers := inAnswers_change s
          { s with handler := Function.update s.handler r (some .failed) } (r := r) fun j hj => by
            rw [popped_update, if_neg hj]
        rw [popped_update, if_pos rfl, ite_self, Multiset.coe_nil] at hanswers
        refine total_change (x := 0) (y := 0) (w := 0) rfl hanswers (add_zero _).symm ?_
        simp [Event.logged]
      | report :: rest =>
        have hstep : step date target instances s (.pop r) =
            { s with
              queue := Function.update s.queue (target r) rest
              handler := Function.update s.handler r
                (some (.popping left (reports ++ [report]))) } := by
          rw [step, hr]; simp only [hq]
        rw [hstep, State.lost, hr, hq]
        have hqueues := inQueues_change s
          { s with
            queue := Function.update s.queue (target r) rest
            handler := Function.update s.handler r
              (some (.popping left (reports ++ [report]))) }
          (i := target r) fun j hj => by simp [hj]
        have hanswers := inAnswers_change s
          { s with
            queue := Function.update s.queue (target r) rest
            handler := Function.update s.handler r
              (some (.popping left (reports ++ [report]))) }
          (r := r) fun j hj => by
            rw [popped_update, if_neg hj]
        rw [popped_update, if_pos rfl, hpopped] at hanswers
        have hrest : Function.update s.queue (target r) rest (target r) = rest :=
          Function.update_self ..
        rw [hq] at hqueues
        simp only [hrest] at hqueues
        refine total_change hqueues hanswers (add_zero _).symm ?_
        rw [← Multiset.cons_coe, ← Multiset.singleton_add]
        cases s.closed r
        · show 0 + ((rest : Multiset ρ) + ((reports ++ [report] : List ρ) : Multiset ρ) + 0) =
            0 + ({report} + (rest : Multiset ρ) + (reports : Multiset ρ))
          rw [← Multiset.coe_add, Multiset.coe_singleton]
          abel
        · simp [Event.logged]
  | abort r =>
    have hanswers := inAnswers_change s (step date target instances s (.abort r)) (r := r)
      fun j hj => by
        simp [step, State.popped, hj]
    have hnew : (step date target instances s (.abort r)).popped r = [] := by
      simp [step, State.popped]
    rw [hnew, Multiset.coe_nil] at hanswers
    refine total_change (x := 0) (y := 0) (w := 0) rfl hanswers (add_zero _).symm ?_
    simp [State.lost, Event.logged]
  | send order delivered now accepts saved =>
    obtain ⟨hnodup, hhosts, rfl⟩ := hsound
    have hanswers : (step date target instances s (.send order delivered now accepts true)).inAnswers +
        (order.map fun r => (s.popped r : Multiset ρ)).sum = s.inAnswers + 0 := by
      refine (Parties.sum_clear hnodup (fun r hr => ?_) fun r hr => ?_).trans (add_zero _).symm
      · simp [step, State.popped, hr]
      · simp [step, State.popped, hr]
    refine total_change (x := 0) (y := 0) rfl hanswers (kept_send s order delivered now accepts) ?_
    cases hall : order.all (s.answered delivered)
    · simp [State.lost, Event.logged, hall, instanceReports_of_not_answered]
    · have hperm := Multiset.coe_eq_coe.mpr
        (instanceReports_of_answered target instances hhosts hall)
      have hsum : (order.map fun r => (s.popped r : Multiset ρ)).sum =
          (order.flatMap s.popped : Multiset ρ) := by
        rw [List.flatMap, ← Multiset.coe_join, List.map_map]
        rfl
      rw [hperm, hsum]
      simp [State.lost, Event.logged, hall]

/-- **Every report is accounted for.** In every run, with any number of instances and requests, their
turns in any order, any answers of the API and any jobs that ask each instance once and can write their
cache: each report that was logged is, as often as it was logged, in the list of an instance, in an
answer that is waited for, in the cache or in one batch that the API took, or it was lost as `lost` says,
with a request that was given up or failed or in a job of which one instance did not answer. -/
theorem reports_accounted (date : ρ → Nat) (target : κ → ι) (instances : ι → Instance)
    (s : State κ ι ρ) (events : List (Event κ ι ρ))
    (hsound : Run.Meets (step date target instances) (fun _ => Sound target instances) s events) :
    (Run.run (step date target instances) s events).total +
        Parties.along (step date target instances) (State.lost target) s events =
      s.total + Parties.along (step date target instances) (fun _ event => event.logged) s events :=
  Parties.balance (fun s event h => total_step s event h) hsound

end Account

/-! ## A run -/

/-- Two instances. -/
def pair : Bool → Instance
  | true => bunkerweb
  | false =>
    { bunkerweb with
      hostname := "bw".toList
      canonical := ⟨by decide, @of_decide_eq_true _ (List.decidableBAll _ _) rfl, by decide⟩ }

def empty : State Bool Bool Nat := ⟨fun _ => [], fun _ => none, fun _ => false, none, []⟩

/-- Each instance logs a report and pops it, and the answer of one of them does not come. -/
def half : List (Event Bool Bool Nat) :=
  [.log true 1, .log false 2, .receive true, .receive false, .pop false, .pop true,
    .send [true, false] id 0 (fun _ => true) true]

theorem sound_half :
    Run.Meets (step id id pair) (fun _ => (Sound id pair : Event Bool Bool Nat → Prop)) empty
      half := by
  refine ⟨trivial, trivial, trivial, trivial, trivial, trivial, ?_, trivial⟩
  exact ⟨by decide, by decide, rfl⟩

/-- The job drops the report of the instance that answered too. -/
theorem half_lost :
    (Run.run (step id id pair) empty half).total +
        Parties.along (step id id pair) (State.lost id) empty half = {1, 2} ∧
      Parties.along (step id id pair) (State.lost id) empty half = {1, 2} :=
  ⟨(reports_accounted id id pair empty half sound_half).trans (by decide), by decide⟩

end BunkerWeb.BunkerNet
