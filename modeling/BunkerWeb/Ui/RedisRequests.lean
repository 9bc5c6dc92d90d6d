import Mathlib.Data.List.TakeDrop

/-!
# The scan of the requests in Redis (`instance.py`, `_iter_redis_requests`)

The list is read in chunks, and several `LRANGE` are sent in one pipeline. The length is asked for
first, so that no range is sent that starts behind the end; without it, the scan ends at the first
chunk that is not full.

- **The loops** (`issue`, `consume`, `iterRedisRequests`): the ranges of a batch, their results, and
  the batches.
- **One batch** (`batch_spec`): what it yields and what is left are what was left before.
- **The result** (`iterRedisRequests_complete`): the scan ends, and yields the reports from the start
  index on.
-/

namespace BunkerWeb.Ui.RedisRequests

/-- What `json.loads` returns. -/
inductive Loaded (ρ : Type)
  | dict (report : ρ)
  | other
  deriving DecidableEq, Repr

variable {α ρ : Type}

/-- `LRANGE`: both bounds belong to the range, and negative ones count from the end. -/
def lrange (l : List α) (start stop : Int) : List α :=
  let start := if start < 0 then max 0 (start + l.length) else start
  let stop := if stop < 0 then stop + l.length else stop
  (l.drop start.toNat).take (stop + 1 - start).toNat

/-- An entry, if it decodes to an object. -/
def report (loads : α → Option (Loaded ρ)) (raw : α) : Option ρ :=
  match loads raw with
  | some (.dict report) => some report
  | _ => none

/-- The ranges that are put into a pipeline, and the index after them. -/
def issue (total : Option Nat) (chunkSize : Nat) : Nat → Nat → List (Int × Int) × Nat
  | 0, s => ([], s)
  | pipelineBatch + 1, s =>
    if total.any (· ≤ s) then ([], s)
    else
      let (ranges, next) := issue total chunkSize pipelineBatch (s + chunkSize)
      (((s : Int), (s : Int) + chunkSize - 1) :: ranges, next)

/-- The reports of the results of a pipeline, and whether the scan stops there. -/
def consume (loads : α → Option (Loaded ρ)) (chunkSize : Nat) : List (List α) → List ρ × Bool
  | [] => ([], false)
  | chunk :: results =>
    if chunk.isEmpty then ([], true)
    else
      let reports := chunk.filterMap (report loads)
      if chunk.length < chunkSize then (reports, true)
      else
        let (rest, stop) := consume loads chunkSize results
        (reports ++ rest, stop)

/-- `while True`, for a number of passes; none if they are not enough. -/
def scan (loads : α → Option (Loaded ρ)) (l : List α) (total : Option Nat)
    (chunkSize pipelineBatch : Nat) : Nat → Nat → Option (List ρ)
  | 0, _ => none
  | passes + 1, start =>
    if total.any (· ≤ start) then some []
    else
      let (ranges, next) := issue total chunkSize pipelineBatch start
      if ranges.isEmpty then some []
      else
        let (reports, stop) := consume loads chunkSize (ranges.map fun r => lrange l r.1 r.2)
        if stop then some reports
        else (scan loads l total chunkSize pipelineBatch passes next).map (reports ++ ·)

/-- `_iter_redis_requests`, over a list that does not change. -/
def iterRedisRequests (loads : α → Option (Loaded ρ)) (l : List α) (llenFails : Bool)
    (chunkSize : Nat) (startIndex : Int) (pipelineBatch passes : Nat) : Option (List ρ) :=
  let start := (max 0 startIndex).toNat
  let total := if llenFails then none else some l.length
  scan loads l total chunkSize pipelineBatch passes start

/-! ## Ranges -/

variable {loads : α → Option (Loaded ρ)} {l : List α} {total : Option Nat}
  {chunkSize pipelineBatch start : Nat}

/-- A range of a pipeline is a chunk of the list. -/
theorem lrange_chunk (l : List α) (s : Nat) (hsize : 0 < chunkSize) :
    lrange l s (s + chunkSize - 1) = (l.drop s).take chunkSize := by
  have hstart : ¬(s : Int) < 0 := by omega
  have hstop : ¬(s : Int) + chunkSize - 1 < 0 := by omega
  have hlength : ((s : Int) + chunkSize - 1 + 1 - s).toNat = chunkSize := by omega
  simp only [lrange, if_neg hstart, if_neg hstop, hlength, Int.toNat_natCast]

/-- The reports from an index on. -/
def remaining (loads : α → Option (Loaded ρ)) (l : List α) (start : Nat) : List ρ :=
  (l.drop start).filterMap (report loads)

theorem remaining_of_le (h : l.length ≤ start) : remaining loads l start = [] := by
  rw [remaining, List.drop_eq_nil_of_le h]
  rfl

/-- What a chunk has, and what is behind it. -/
theorem remaining_chunk (loads : α → Option (Loaded ρ)) (l : List α) (start chunkSize : Nat) :
    remaining loads l start =
      ((l.drop start).take chunkSize).filterMap (report loads) ++
        remaining loads l (start + chunkSize) := by
  rw [remaining, remaining, ← List.filterMap_append, ← List.drop_drop, List.take_append_drop]

/-! ## One batch -/

/-- What the results of the ranges from `start` on give, if `next` comes after them: all that is left
if the scan stops, and else what stands before `next`, which is inside the list. -/
def Accounts (loads : α → Option (Loaded ρ)) (l : List α) (start next : Nat) (reports : List ρ)
    (stop : Bool) : Prop :=
  if stop then remaining loads l start = reports
  else remaining loads l start = reports ++ remaining loads l next ∧
    (start < next → next ≤ l.length)

theorem issue_succ (h : ¬total.any (· ≤ start) = true) :
    issue total chunkSize (pipelineBatch + 1) start =
      (((start : Int), (start : Int) + chunkSize - 1) ::
          (issue total chunkSize pipelineBatch (start + chunkSize)).1,
        (issue total chunkSize pipelineBatch (start + chunkSize)).2) := by
  rw [issue, if_neg h]

theorem consume_cons (chunk : List α) (results : List (List α)) :
    consume loads chunkSize (chunk :: results) =
      if chunk = [] then ([], true)
      else if chunk.length < chunkSize then (chunk.filterMap (report loads), true)
      else (chunk.filterMap (report loads) ++ (consume loads chunkSize results).1,
        (consume loads chunkSize results).2) := by
  rw [consume]
  simp only [List.isEmpty_iff]

/-- A batch accounts for what was left, and moves on if it has a range. -/
theorem batch_spec (loads : α → Option (Loaded ρ)) (l : List α) (total : Option Nat)
    (hsize : 0 < chunkSize) (pipelineBatch start : Nat) :
    let batch := issue total chunkSize pipelineBatch start
    let result := consume loads chunkSize (batch.1.map fun r => lrange l r.1 r.2)
    Accounts loads l start batch.2 result.1 result.2 ∧ start ≤ batch.2 ∧
      (batch.1 ≠ [] → start < batch.2) := by
  induction pipelineBatch generalizing start with
  | zero => simp [issue, consume, Accounts]
  | succ pipelineBatch ih =>
    by_cases htotal : total.any (· ≤ start) = true
    · simp [issue, htotal, consume, Accounts]
    · obtain ⟨haccounts, hle, -⟩ := ih (start + chunkSize)
      dsimp only
      rw [issue_succ htotal, List.map_cons, lrange_chunk l start hsize, consume_cons]
      refine ⟨?_, by omega, fun _ => by omega⟩
      have hchunk := remaining_chunk loads l start chunkSize
      split
      next hempty =>
        have hend : l.length ≤ start := by
          rcases List.take_eq_nil_iff.mp hempty with hzero | hdrop
          · omega
          · exact List.drop_eq_nil_iff.mp hdrop
        show remaining loads l start = []
        exact remaining_of_le hend
      next =>
        split
        next hshort =>
          have hend : l.length ≤ start + chunkSize := by
            rw [List.length_take, List.length_drop] at hshort
            omega
          show remaining loads l start = _
          rw [hchunk, remaining_of_le hend, List.append_nil]
        next hfull =>
          have hinside : start + chunkSize ≤ l.length := by
            rw [List.length_take, List.length_drop] at hfull
            omega
          unfold Accounts at haccounts ⊢
          split at haccounts
          next hstop => rw [if_pos hstop, hchunk, haccounts]
          next hgoes =>
            rw [if_neg hgoes, hchunk, haccounts.1, List.append_assoc]
            refine ⟨rfl, fun _ => ?_⟩
            obtain hlt | heq := Nat.lt_or_eq_of_le hle
            · exact haccounts.2 hlt
            · omega

/-! ## The scan -/

/-- A batch is not empty inside the list. -/
theorem issue_ne_nil (chunkSize : Nat) (hbatch : 0 < pipelineBatch) (htotal : ¬total.any (· ≤ start) = true) :
    (issue total chunkSize pipelineBatch start).1 ≠ [] := by
  obtain ⟨n, rfl⟩ := Nat.exists_eq_succ_of_ne_zero (Nat.ne_of_gt hbatch)
  rw [issue_succ htotal]
  exact List.cons_ne_nil _ _

theorem scan_complete (hsize : 0 < chunkSize) (hbatch : 0 < pipelineBatch)
    (htotal : ∀ n, total = some n → n = l.length) {passes : Nat}
    (hpasses : l.length - start < passes) :
    scan loads l total chunkSize pipelineBatch passes start = some (remaining loads l start) := by
  induction passes generalizing start with
  | zero => omega
  | succ passes ih =>
    rw [scan]
    split
    next hend =>
      obtain ⟨n, hn, hle⟩ := (Option.any_eq_true _ _).mp hend
      rw [remaining_of_le (by rw [← htotal n hn]; exact of_decide_eq_true hle)]
    next hinside =>
      obtain ⟨haccounts, -, hadvance⟩ :=
        batch_spec loads l total hsize pipelineBatch start
      have hissued := issue_ne_nil chunkSize hbatch hinside
      dsimp only
      rw [if_neg (by simpa using hissued)]
      unfold Accounts at haccounts
      split
      next hstop =>
        rw [if_pos hstop] at haccounts
        rw [haccounts]
      next hgoes =>
        rw [if_neg hgoes] at haccounts
        have hlt := hadvance hissued
        have hle := haccounts.2 hlt
        rw [ih (by omega), Option.map_some, ← haccounts.1]

/-- **The scan is complete.** Whatever the start index is, and whether `LLEN` fails or not, with a
pass for each entry and one more the scan is at its end, and has yielded the entries from the start
index on that decode to objects, in the order of the list. -/
theorem iterRedisRequests_complete (loads : α → Option (Loaded ρ)) (l : List α) (llenFails : Bool)
    (startIndex : Int) (hsize : 0 < chunkSize) (hbatch : 0 < pipelineBatch) {passes : Nat}
    (hpasses : l.length < passes) :
    iterRedisRequests loads l llenFails chunkSize startIndex pipelineBatch passes =
      some ((l.drop (max 0 startIndex).toNat).filterMap (report loads)) := by
  unfold iterRedisRequests
  refine scan_complete hsize hbatch ?_ (by omega)
  intro n hn
  cases llenFails with
  | false => exact (Option.some.inj hn).symm
  | true => cases hn

/-- Two full batches of two full chunks, without the length. -/
theorem iterRedisRequests_full_batches :
    iterRedisRequests (fun n : Nat => if n % 3 = 0 then none else some (if n % 2 = 0 then .dict n
      else .other)) [1, 2, 3, 4, 5, 6, 7, 8] true 2 (-3) 2 9 = some [2, 4, 8] :=
  (iterRedisRequests_complete _ _ true (-3) (by decide) (by decide) (by decide)).trans rfl

end BunkerWeb.Ui.RedisRequests
