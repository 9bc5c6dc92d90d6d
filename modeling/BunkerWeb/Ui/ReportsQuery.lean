import BunkerWeb.Lib.Dict
import BunkerWeb.Lib.Heapq
import BunkerWeb.Ui.RedisRequests
import Mathlib.Algebra.Order.Ring.Rat
import Mathlib.Data.Prod.Lex
import Mathlib.Data.String.Basic

/-!
# Pages of reports (`get_reports_query` of `ui/app/models/instance.py`)

The requests are a list in Redis, and a query without a filter wants a page of it in the order of the
dates. There are three ways to it.

- **The position in the list** (`fastPage`), if no pane has to be counted.
- **A bounded heap** (`heapReports`) of the reports that are read one by one, with its own rule for
  reports of one date.
- **A stable sort** (`sortReports`), of what the heap has kept or of everything.

The panes are counted either by the hashes that the metrics plugin keeps (`panesFromFacets`), or on the
way (`streamPane`).
-/

namespace BunkerWeb.Ui.ReportsQuery

open Lib Lib.Heapq RedisRequests

/-! ## Reports -/

/-- `report.get("id")`. Values that are equal have one text. -/
inductive Id
  | none
  | hashable (value : String)
  | unhashable
  deriving DecidableEq, Repr

/-- `report.get("date", 0)`, by what `float` makes of it. Infinite floats and those that are not a
number are left out. -/
inductive Date
  | float (value : ℚ)
  /-- None, or an empty value that `float` refuses. -/
  | empty
  | refused
  deriving DecidableEq, Repr

/-- `float(x.get("date", 0))`; none if that raises. -/
def Date.sortKey : Date → Option ℚ
  | .float value => some value
  | _ => none

/-- `float(report.get("date", 0) or 0)`. -/
def Date.heapKey : Date → Option ℚ
  | .float value => some value
  | .empty => some 0
  | .refused => none

/-- A field that a pane shows. -/
inductive Field
  | absent
  | null
  | text (value : String)
  /-- Another value, as `tostring` of Lua and `str` of Python write it. -/
  | other (tostring str : String) (written : tostring ≠ "")
  deriving DecidableEq, Repr

/-- `get_request_facet_value` of the metrics plugin. -/
def Field.facetValue : Field → String
  | .absent => "N/A"
  | .null => "N/A"
  | .text value => if value = "" then "N/A" else value
  | .other tostring _ _ => tostring

/-- `str(report.get(field, "N/A"))`. -/
def Field.paneValue : Field → String
  | .absent => "N/A"
  | .null => "None"
  | .text value => value
  | .other _ str _ => str

structure Report where
  id : Id
  date : Date
  fields : List (String × Field)
  deriving DecidableEq, Repr

def Report.field (r : Report) (name : String) : Field := (r.fields.lookup name).getD .absent

/-- The reports whose id has not been seen before; none if an id cannot be hashed. -/
def dedup (seenIds : List String) : List Report → Option (List Report)
  | [] => some []
  | r :: reports =>
    match r.id with
    | .none => (dedup seenIds reports).map (r :: ·)
    | .hashable id =>
      if id ∈ seenIds then dedup seenIds reports
      else (dedup (id :: seenIds) reports).map (r :: ·)
    | .unhashable => none

inductive OrderDir
  | asc
  | desc
  deriving DecidableEq, Repr

/-- What comes first, or may. -/
def OrderDir.Le (dir : OrderDir) (a b : ℚ) : Prop :=
  match dir with
  | .asc => a ≤ b
  | .desc => b ≤ a

instance (dir : OrderDir) (a b : ℚ) : Decidable (dir.Le a b) := by
  cases dir <;> unfold OrderDir.Le <;> infer_instance

/-- The date of a report that can be sorted. -/
def Report.time (r : Report) : ℚ := r.date.sortKey.getD 0

/-- `_sort_reports` by the date; none if a date has no key. -/
def sortReports (dir : OrderDir) (reports : List Report) : Option (List Report) :=
  if reports.all (·.date.sortKey.isSome) then
    some (reports.insertionSort fun a b => dir.Le a.time b.time)
  else none

/-! ## The heap -/

structure Item where
  heapKey : ℚ
  heapSeq : Nat
  report : Report
  deriving DecidableEq, Repr

/-- How tuples are compared, before two of them are equal. -/
def Item.key (item : Item) : ℚ ×ₗ Nat := toLex (item.heapKey, item.heapSeq)

/-- The items, in the order in which they are offered. -/
def items (dir : OrderDir) (reports : List Report) : Option (List Item) :=
  reports.zipIdx.mapM fun r => r.1.date.heapKey.map fun date =>
    { heapKey := match dir with
        | .asc => -date
        | .desc => date
      heapSeq := r.2
      report := r.1 }

/-- `top_reports`, in the order of the list. -/
def heapReports (dir : OrderDir) (topK : Nat) (reports : List Report) : Option (List Report) :=
  (items dir reports).map fun items =>
    (items.foldl (offer Item.key Item.heapKey topK) []).map Item.report

/-! ## Panes -/

structure Count where
  total : Int
  count : Int
  deriving DecidableEq, Repr

abbrev Pane := Dict String Count

/-- `_REPORT_PANE_FIELDS`. -/
def reportPaneFields : List String :=
  ["ip", "country", "method", "url", "status", "reason", "server_name", "security_mode"]

/-- `_REPORT_PANE_MAX_VALUES`. -/
def reportPaneMaxValues : Nat := 200

/-- The items of a hash; a count that is not a number has none. -/
def facetItems (pairs : List (String × Option Int)) : List (Int × String) :=
  pairs.filterMap fun e =>
    match e.2 with
    | none => none
    | some count => if count ≤ 0 then none else some (count, if e.1 = "" then "N/A" else e.1)

def facetPane (maxValues : Nat) (items : List (Int × String)) : Pane :=
  let topHeap := items.foldl (offer toLex toLex maxValues) []
  let sorted := topHeap.insertionSort fun a b => toLex (-a.1, a.2) ≤ toLex (-b.1, b.2)
  Dict.setAll ∅ (sorted.map fun item => (item.2, ⟨item.1, item.1⟩))

/-- `_get_redis_pane_counts_from_facets`. -/
def panesFromFacets (facets : String → List (String × Option Int)) : Option (String → Pane) :=
  if reportPaneFields.any fun field => facetItems (facets field) ≠ [] then
    some fun field =>
      if field ∈ reportPaneFields then
        facetPane reportPaneMaxValues (facetItems (facets field))
      else ∅
  else none

/-- What a report does to a pane. -/
def countValue (maxValues : Nat) (pane : Pane) (value : String) : Pane :=
  match pane.lookup value with
  | some c => pane.insert value ⟨c.total + 1, c.count + 1⟩
  | none =>
    if maxValues ≠ 0 ∧ maxValues ≤ pane.entries.length then pane else pane.insert value ⟨1, 1⟩

/-- The pane of the streaming pass. -/
def streamPane (reports : List Report) (field : String) : Pane :=
  (reports.map fun r => (r.field field).paneValue).foldl (countValue reportPaneMaxValues) ∅

/-! ## The query -/

/-- What Redis has. -/
structure Redis (α : Type) where
  requests : List α
  loads : α → Option (Loaded Report)
  /-- The hashes `requests:facet:…`, with the counts as far as they are numbers. -/
  facets : String → List (String × Option Int)

/-- `_get_redis_scan_start_index`. -/
def redisScanStartIndex (totalRequests maxRequests : Nat) : Nat :=
  if maxRequests = 0 then 0 else totalRequests - maxRequests

variable {α : Type}

/-- `_get_redis_requests_fast_page`; none if it raises. -/
def fastPage (redis : Redis α) (maxRequests start : Nat) (length : Int) (dir : OrderDir) :
    Option (Nat × List Report) :=
  let totalRequests := redis.requests.length
  let scanStart := redisScanStartIndex totalRequests maxRequests
  let cappedTotal := totalRequests - scanStart
  if length ≤ 0 then some (0, [])
  else if totalRequests = 0 then some (0, [])
  else if cappedTotal = 0 ∨ cappedTotal ≤ start then some (cappedTotal, [])
  else
    let fetchCount : Int := min length (cappedTotal - start)
    if fetchCount ≤ 0 then some (cappedTotal, [])
    else
      let rawChunk :=
        match dir with
        | .asc =>
          let startIdx : Int := scanStart + start
          lrange redis.requests startIdx (startIdx + fetchCount - 1)
        | .desc =>
          let endIdx : Int := totalRequests - 1 - start
          let startIdx : Int := max scanStart (endIdx - fetchCount + 1)
          (lrange redis.requests startIdx endIdx).reverse
      (dedup [] (rawChunk.filterMap (report redis.loads))).map fun reports => (cappedTotal, reports)

/-- `reports[start:stop]`. -/
def slice (reports : List Report) (start : Nat) (stop : Int) : List Report :=
  let stop := if stop < 0 then max 0 (stop + reports.length) else stop
  (reports.take stop.toNat).drop start

structure Result where
  total : Nat
  filtered : Nat
  data : List Report
  paneCounts : String → Pane

/-- `get_reports_query` by the date, without a filter, and with data. The start is not negative. None
means that the instances are asked. -/
def getReportsQuery (redis : Redis α) (maxRedisRequests start : Nat) (length : Int) (dir : OrderDir)
    (includePaneCounts : Bool) : Option Result :=
  if maxRedisRequests = 0 then some ⟨0, 0, [], fun _ => ∅⟩
  else
    let precomputed := if includePaneCounts then panesFromFacets redis.facets else none
    if length ≠ -1 ∧ (!includePaneCounts || precomputed.isSome) then
      (fastPage redis maxRedisRequests start length dir).map fun page =>
        ⟨page.1, page.1, page.2, precomputed.getD fun _ => ∅⟩
    else do
      let scanStart := redisScanStartIndex redis.requests.length maxRedisRequests
      let scanned ← iterRedisRequests redis.loads redis.requests false 2000 scanStart 25
        (redis.requests.length + 1)
      let reports ← dedup [] scanned
      let useHeap := length ≠ -1 ∧ 0 < start + length
      let selected ←
        if useHeap then heapReports dir (start + length).toNat reports else some reports
      let sorted ← sortReports dir selected
      return {
        total := reports.length
        filtered := reports.length
        data := if length = -1 then sorted else slice sorted start (start + length)
        paneCounts := precomputed.getD fun field =>
          if includePaneCounts ∧ field ∈ reportPaneFields then streamPane reports field else ∅ }

/-! ## What is asked for -/

/-- The last entries, as many as the cap allows. -/
def cappedWindow (redis : Redis α) (maxRedisRequests : Nat) : List α :=
  redis.requests.drop (redis.requests.length - maxRedisRequests)

/-- The reports of the table: those entries of the window that decode, each id once. -/
def tableReports (redis : Redis α) (maxRedisRequests : Nat) : Option (List Report) :=
  dedup [] ((cappedWindow redis maxRedisRequests).filterMap (report redis.loads))

/-- A page of all of them in the order of the dates, and how many they are. -/
def sortedPage (redis : Redis α) (maxRedisRequests start : Nat) (length : Int) (dir : OrderDir) :
    Option (Nat × List Report) := do
  let reports ← tableReports redis maxRedisRequests
  let sorted ← sortReports dir reports
  return (reports.length, if length = -1 then sorted else slice sorted start (start + length))

/-! ## Without duplicates -/

/-- The id as far as it can be compared. -/
def Id.value? : Id → Option String
  | .hashable value => some value
  | _ => Option.none

def ids (reports : List Report) : List String := reports.filterMap (·.id.value?)

section

variable {reports kept : List Report} {seenIds : List String}

theorem dedup_sublist (h : dedup seenIds reports = some kept) : kept.Sublist reports := by
  induction reports generalizing seenIds kept with
  | nil =>
    obtain rfl := Option.some.inj h
    exact .refl _
  | cons r reports ih =>
    rw [dedup] at h
    split at h
    next =>
      obtain ⟨rest, hrest, rfl⟩ := Option.map_eq_some_iff.mp h
      exact (ih hrest).cons_cons r
    next =>
      split at h
      next => exact (ih h).cons r
      next =>
        obtain ⟨rest, hrest, rfl⟩ := Option.map_eq_some_iff.mp h
        exact (ih hrest).cons_cons r
    next => cases h

/-- Nothing is dropped, and nothing raises. -/
theorem dedup_self_iff : dedup seenIds reports = some reports ↔
    (∀ r ∈ reports, r.id ≠ .unhashable) ∧ (ids reports).Nodup ∧ ∀ id ∈ ids reports, id ∉ seenIds := by
  induction reports generalizing seenIds with
  | nil => simp [dedup, ids]
  | cons r reports ih =>
    rw [dedup]
    cases hid : r.id with
    | none =>
      have hids : ids (r :: reports) = ids reports := by simp [ids, hid, Id.value?]
      rw [hids, List.forall_mem_cons, hid]
      simp only [Option.map_eq_some_iff, List.cons.injEq, true_and, exists_eq_right, ih, ne_eq,
        reduceCtorEq, not_false_eq_true]
    | hashable id =>
      have hids : ids (r :: reports) = id :: ids reports := by simp [ids, hid, Id.value?]
      rw [hids, List.forall_mem_cons, hid, List.nodup_cons, List.forall_mem_cons]
      dsimp only
      split
      next hseen =>
        refine iff_of_false (fun h => ?_) fun h => h.2.2.1 hseen
        have hle := (dedup_sublist h).length_le
        rw [List.length_cons] at hle
        omega
      next hnew =>
        simp only [Option.map_eq_some_iff, List.cons.injEq, true_and, exists_eq_right, ih,
          List.mem_cons, not_or]
        constructor
        · rintro ⟨hhash, hnodup, hids⟩
          exact ⟨⟨nofun, hhash⟩, ⟨fun hmem => (hids id hmem).1 rfl, hnodup⟩, hnew,
            fun i hi => (hids i hi).2⟩
        · rintro ⟨⟨-, hhash⟩, ⟨hfirst, hnodup⟩, -, hids⟩
          exact ⟨hhash, hnodup, fun i hi => ⟨fun heq => hfirst (heq ▸ hi), hids i hi⟩⟩
    | unhashable => simp [hid]

/-- Only an id that cannot be hashed raises. -/
theorem exists_dedup (h : ∀ r ∈ reports, r.id ≠ .unhashable) :
    ∃ kept, dedup seenIds reports = some kept := by
  induction reports generalizing seenIds with
  | nil => exact ⟨[], rfl⟩
  | cons r reports ih =>
    have ih : ∀ seenIds, ∃ kept, dedup seenIds reports = some kept := fun _ =>
      ih fun r' hr' => h r' (List.mem_cons_of_mem _ hr')
    rw [dedup]
    cases hid : r.id with
    | none =>
      obtain ⟨kept, hkept⟩ := ih seenIds
      exact ⟨r :: kept, by simp [hkept]⟩
    | hashable id =>
      by_cases hseen : id ∈ seenIds
      · obtain ⟨kept, hkept⟩ := ih seenIds
        exact ⟨kept, by simp [hseen, hkept]⟩
      · obtain ⟨kept, hkept⟩ := ih (id :: seenIds)
        exact ⟨r :: kept, by simp [hseen, hkept]⟩
    | unhashable => exact absurd hid (h r List.mem_cons_self)

/-- The first report is always kept, and its id can be hashed. -/
theorem dedup_cons {r : Report} (h : dedup [] (r :: reports) = some kept) :
    r ∈ kept ∧ r.id ≠ .unhashable := by
  rw [dedup] at h
  split at h
  next hid =>
    obtain ⟨rest, -, rfl⟩ := Option.map_eq_some_iff.mp h
    exact ⟨List.mem_cons_self, by simp [hid]⟩
  next id hid =>
    rw [if_neg List.not_mem_nil] at h
    obtain ⟨rest, -, rfl⟩ := Option.map_eq_some_iff.mp h
    exact ⟨List.mem_cons_self, by simp [hid]⟩
  next => cases h

end

/-! ## The paths -/

section

variable {redis : Redis α} {maxRedisRequests start : Nat} {length : Int} {dir : OrderDir}

/-- The window in the order in which its entries are shown. -/
def shown (redis : Redis α) (maxRedisRequests : Nat) : OrderDir → List α
  | .asc => cappedWindow redis maxRedisRequests
  | .desc => (cappedWindow redis maxRedisRequests).reverse

theorem length_cappedWindow (redis : Redis α) (maxRedisRequests : Nat) :
    (cappedWindow redis maxRedisRequests).length =
      redis.requests.length - (redis.requests.length - maxRedisRequests) :=
  List.length_drop

/-- A range from the end, backwards. -/
theorem reverse_take_drop {l : List α} {s n skip : Nat} (h : s + (skip + n) ≤ l.length) :
    ((l.drop (l.length - skip - n)).take n).reverse = ((l.drop s).reverse.drop skip).take n := by
  apply List.ext_getElem
  · simp only [List.length_reverse, List.length_take, List.length_drop]
    omega
  · intro i h₁ h₂
    simp only [List.length_reverse, List.length_take, List.length_drop] at h₁
    simp only [List.getElem_reverse, List.getElem_take, List.getElem_drop, List.length_take,
      List.length_drop]
    congr 1
    omega

/-- The fast path reads a part of what is shown, and counts the whole window. -/
theorem fastPage_eq (hcap : maxRedisRequests ≠ 0) (hlength : 0 < length) :
    fastPage redis maxRedisRequests start length dir =
      (dedup [] ((((shown redis maxRedisRequests dir).drop start).take length.toNat).filterMap
        (report redis.loads))).map fun reports =>
          ((cappedWindow redis maxRedisRequests).length, reports) := by
  have hwindow := length_cappedWindow redis maxRedisRequests
  unfold fastPage redisScanStartIndex
  simp only [if_neg hcap, if_neg (not_le.mpr hlength)]
  rw [← hwindow]
  generalize hn : redis.requests.length = n at *
  have hshown : (shown redis maxRedisRequests dir).length =
      (cappedWindow redis maxRedisRequests).length := by
    cases dir
    · rfl
    · exact List.length_reverse
  have hpast (h : (cappedWindow redis maxRedisRequests).length ≤ start) :
      (shown redis maxRedisRequests dir).drop start = [] :=
    List.drop_eq_nil_of_le (by omega)
  split
  next hzero =>
    rw [hpast (by omega), List.take_nil,
      show (cappedWindow redis maxRedisRequests).length = 0 by omega]
    rfl
  next hpos =>
    split
    next hend =>
      rw [hpast (by omega), List.take_nil]
      rfl
    next hinside =>
      rw [if_neg (by omega)]
      obtain ⟨k, rfl⟩ : ∃ k : Nat, length = k := ⟨length.toNat, by omega⟩
      generalize hm : (cappedWindow redis maxRedisRequests).length = m at *
      obtain ⟨fetch, hfetch⟩ : ∃ fetch : Nat, fetch = min k (m - start) := ⟨_, rfl⟩
      have hcast : min (k : Int) ((m : Int) - start) = fetch := by omega
      have htake : ((shown redis maxRedisRequests dir).drop start).take fetch =
          ((shown redis maxRedisRequests dir).drop start).take k := by
        rw [List.take_eq_take_iff, List.length_drop, hshown]
        omega
      rw [hcast, Int.toNat_natCast, ← htake]
      congr 3
      cases dir with
      | asc =>
        dsimp only [shown]
        rw [← Nat.cast_add, lrange_chunk _ _ (by omega), cappedWindow, List.drop_drop, hn]
      | desc =>
        dsimp only [shown]
        have hstart : max ((n - maxRedisRequests : Nat) : Int) ((n : Int) - 1 - start - fetch + 1) =
            ((n - start - fetch : Nat) : Int) := by omega
        have hstop : (n : Int) - 1 - start = ((n - start - fetch : Nat) : Int) + fetch - 1 := by omega
        rw [hstart, hstop, lrange_chunk _ _ (by omega), cappedWindow, hn, ← hn]
        exact reverse_take_drop (by omega)

/-- The path that reads the reports one by one, without the panes. -/
def heapPage (redis : Redis α) (maxRedisRequests start : Nat) (length : Int) (dir : OrderDir) :
    Option (Nat × List Report) := do
  let reports ← tableReports redis maxRedisRequests
  let selected ← if length ≠ -1 ∧ 0 < start + length then
      heapReports dir (start + length).toNat reports
    else some reports
  let sorted ← sortReports dir selected
  return (reports.length, if length = -1 then sorted else slice sorted start (start + length))

/-- The page of a result. -/
def Result.page (r : Result) : Nat × Nat × List Report := (r.total, r.filtered, r.data)

theorem scan_eq (redis : Redis α) {start : Nat} :
    iterRedisRequests redis.loads redis.requests false 2000 start 25 (redis.requests.length + 1) =
      some ((redis.requests.drop start).filterMap (report redis.loads)) := by
  have hstart : (max 0 (start : Int)).toNat = start := by omega
  unfold iterRedisRequests
  rw [hstart]
  exact scan_complete (by decide) (by decide) (fun n hn => (Option.some.inj hn).symm) (by omega)

variable {includePaneCounts : Bool}

/-- The first path is taken, or the others are. -/
theorem query_page (hcap : maxRedisRequests ≠ 0) :
    (getReportsQuery redis maxRedisRequests start length dir includePaneCounts).map Result.page =
      ((if length ≠ -1 ∧ (includePaneCounts = false ∨ (panesFromFacets redis.facets).isSome) then
          fastPage redis maxRedisRequests start length dir
        else heapPage redis maxRedisRequests start length dir).map fun page =>
          (page.1, page.1, page.2)) := by
  have hpath : (length ≠ -1 ∧ (!includePaneCounts ||
      (if includePaneCounts then panesFromFacets redis.facets else none).isSome) = true) ↔
      length ≠ -1 ∧ (includePaneCounts = false ∨ (panesFromFacets redis.facets).isSome) := by
    cases includePaneCounts <;> simp
  unfold getReportsQuery
  rw [if_neg hcap]
  dsimp only
  rw [if_congr hpath rfl rfl]
  split
  next => rw [Option.map_map]; rfl
  next =>
    rw [scan_eq, Option.bind_eq_bind, Option.bind_some]
    have htable : dedup [] ((redis.requests.drop
        (redisScanStartIndex redis.requests.length maxRedisRequests)).filterMap
          (report redis.loads)) = tableReports redis maxRedisRequests := by
      rw [redisScanStartIndex, if_neg hcap]
      rfl
    rw [htable]
    unfold heapPage
    cases tableReports redis maxRedisRequests with
    | none => rfl
    | some reports =>
      simp only [Option.bind_eq_bind, Option.bind_some]
      split
      next =>
        cases heapReports dir (start + length).toNat reports with
        | none => rfl
        | some selected =>
          cases hsorted : sortReports dir selected <;> simp [hsorted, Result.page]
      next => cases sortReports dir reports <;> simp [Result.page]

end

end BunkerWeb.Ui.ReportsQuery
