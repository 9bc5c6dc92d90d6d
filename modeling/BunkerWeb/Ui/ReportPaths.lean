import BunkerWeb.Ui.ReportsQuery
import Mathlib.Data.Finset.Card
import Mathlib.Data.List.Induction

/-!
# When all ways to a page of reports give the same

- **The condition** (`Ordered`): every entry is a report with an id and a date that can be used, no id
  is there twice, the list is in the order of the dates, and reports of one date are the same.
- **The heap** (`heapReports_sorted`): what it keeps, sorted, is the beginning of everything sorted.
- **The panes** (`lookup_facetPane`, `lookup_streamPane`): the values for which there is room, and how
  many reports they are counted for.
- **The result** (`reports_agree_iff`): for all caps, starts and directions at once, the condition is
  what is needed.
-/

namespace BunkerWeb.Ui.ReportsQuery

open Lib Lib.Heapq RedisRequests

variable {α : Type}

/-! ## Pages -/

/-- Whether the hashes of the panes exist or not, and whether panes are asked for or not, a query gives
the page that sorting everything gives. -/
def PagesAgree (redis : Redis α) (maxRedisRequests start : Nat) (length : Int) (dir : OrderDir) :
    Prop :=
  ∃ page, sortedPage redis maxRedisRequests start length dir = some page ∧
    ∀ facets includePaneCounts,
      (getReportsQuery { redis with facets } maxRedisRequests start length dir
        includePaneCounts).map Result.page = some (page.1, page.1, page.2)

/-- The reports of the list. -/
def allReports (redis : Redis α) : List Report := redis.requests.filterMap (report redis.loads)

/-- What a page needs of the list. -/
structure Ordered (redis : Redis α) : Prop where
  decodes : ∀ raw ∈ redis.requests, (report redis.loads raw).isSome = true
  hashable : ∀ r ∈ allReports redis, r.id ≠ .unhashable
  nodup : (ids (allReports redis)).Nodup
  dated : ∀ r ∈ allReports redis, r.date.sortKey.isSome = true
  sorted : (allReports redis).Pairwise fun a b => a.time ≤ b.time
  same : ∀ a ∈ allReports redis, ∀ b ∈ allReports redis, a.time = b.time → a = b

/-- The condition, for each length: `-1` asks for everything. -/
def Sound (redis : Redis α) (length : Int) : Prop :=
  if length = -1 then
    ∀ r ∈ allReports redis, r.id ≠ .unhashable ∧ r.date.sortKey.isSome = true
  else if length ≤ 0 then allReports redis = []
  else Ordered redis

section

variable {redis : Redis α} {maxRedisRequests start : Nat} {length : Int} {dir : OrderDir}

theorem pagesAgree_iff (hcap : maxRedisRequests ≠ 0) :
    PagesAgree redis maxRedisRequests start length dir ↔
      ∃ page, sortedPage redis maxRedisRequests start length dir = some page ∧
        heapPage redis maxRedisRequests start length dir = some page ∧
        (length ≠ -1 → fastPage redis maxRedisRequests start length dir = some page) := by
  have hinj : Function.Injective fun page : Nat × List Report => (page.1, page.1, page.2) := by
    rintro ⟨_, _⟩ ⟨_, _⟩ h
    simpa using h
  have hmap (path : Option (Nat × List Report)) (page : Nat × List Report) :
      path.map (fun page => (page.1, page.1, page.2)) = some (page.1, page.1, page.2) ↔
        path = some page := by
    rw [show some (page.1, page.1, page.2) =
      (some page).map fun page : Nat × List Report => (page.1, page.1, page.2) from rfl]
    exact (Option.map_injective hinj).eq_iff
  refine exists_congr fun page => and_congr_right fun _ => ?_
  constructor
  · intro h
    refine ⟨?_, fun hlength => ?_⟩
    · have hheap := h (fun _ => []) true
      rw [query_page hcap, if_neg (by simp [panesFromFacets, facetItems])] at hheap
      exact (hmap _ page).mp hheap
    · have hfast := h redis.facets false
      rw [query_page hcap, if_pos ⟨hlength, .inl rfl⟩] at hfast
      exact (hmap _ page).mp hfast
  · rintro ⟨hheap, hfast⟩ facets includePaneCounts
    rw [query_page hcap, hmap]
    split
    next h => exact hfast h.1
    next => exact hheap

/-- With a cap of zero there is nothing to show. -/
theorem pagesAgree_zero : PagesAgree redis 0 start length dir := by
  refine ⟨(0, []), ?_, fun facets includePaneCounts => ?_⟩
  · have hwindow : cappedWindow redis 0 = [] := List.drop_eq_nil_of_le (by omega)
    unfold sortedPage tableReports
    rw [hwindow]
    by_cases hlength : length = -1
    · simp [dedup, sortReports, hlength]
    · simp [dedup, sortReports, hlength, slice]
  · rfl

/-- A cap of the length of the list leaves everything. -/
theorem cappedWindow_length (redis : Redis α) :
    cappedWindow redis redis.requests.length = redis.requests := by
  simp [cappedWindow]

/-- The reports of the window. -/
def windowReports (redis : Redis α) (maxRedisRequests : Nat) : List Report :=
  (cappedWindow redis maxRedisRequests).filterMap (report redis.loads)

theorem windowReports_sublist (redis : Redis α) (maxRedisRequests : Nat) :
    (windowReports redis maxRedisRequests).Sublist (allReports redis) :=
  (List.drop_sublist _ _).filterMap _

theorem slice_eq (hlength : 0 < length) (reports : List Report) :
    slice reports start (start + length) = (reports.drop start).take length.toNat := by
  unfold slice
  dsimp only
  rw [if_neg (by omega), List.take_drop, show (start + length).toNat = start + length.toNat by omega]

/-! ## Sorted reports -/

/-- The list, in the direction in which it is shown. -/
def OrderDir.list (dir : OrderDir) (reports : List Report) : List Report :=
  match dir with
  | .asc => reports
  | .desc => reports.reverse

/-- What `heap_key` is. -/
def OrderDir.rank (dir : OrderDir) (date : ℚ) : ℚ :=
  match dir with
  | .asc => -date
  | .desc => date

theorem OrderDir.le_iff (dir : OrderDir) (a b : ℚ) : dir.Le a b ↔ dir.rank b ≤ dir.rank a := by
  cases dir with
  | asc => exact neg_le_neg_iff.symm
  | desc => exact Iff.rfl

theorem OrderDir.total (dir : OrderDir) :
    Std.Total fun a b : Report => dir.Le a.time b.time where
  total a b := by
    rw [dir.le_iff, dir.le_iff]
    exact le_total _ _

theorem OrderDir.trans (dir : OrderDir) :
    IsTrans Report fun a b => dir.Le a.time b.time where
  trans a b c hab hbc := by
    rw [dir.le_iff] at hab hbc ⊢
    exact le_trans hbc hab

/-- The reports in the order of the dates. -/
def byDate (dir : OrderDir) (reports : List Report) : List Report :=
  reports.insertionSort fun a b => dir.Le a.time b.time

theorem sortReports_eq {reports : List Report}
    (hdated : ∀ r ∈ reports, r.date.sortKey.isSome = true) :
    sortReports dir reports = some (byDate dir reports) :=
  if_pos (List.all_eq_true.mpr hdated)

/-- What is sorted already stays as it is. -/
theorem byDate_eq_list {reports : List Report} (hsorted : reports.Pairwise fun a b => a.time ≤ b.time)
    (hsame : ∀ a ∈ reports, ∀ b ∈ reports, a.time = b.time → a = b) :
    byDate dir reports = dir.list reports := by
  cases dir with
  | asc => exact hsorted.insertionSort_eq
  | desc =>
    have htotal := OrderDir.desc.total
    have htrans := OrderDir.desc.trans
    have hperm := List.perm_insertionSort (fun a b : Report => OrderDir.desc.Le a.time b.time) reports
    refine (hperm.trans (List.reverse_perm reports).symm).eq_of_pairwise
      (fun a b ha hb hab hba => ?_) (List.pairwise_insertionSort _ _)
      (List.pairwise_reverse.mpr hsorted)
    exact hsame a (hperm.subset ha) b (List.mem_reverse.mp hb) (le_antisymm hba hab)

/-- Sorting does not change the order of the reports of one date. -/
theorem filter_byDate (dir : OrderDir) (reports : List Report) (t : ℚ) :
    (byDate dir reports).filter (·.time = t) = reports.filter (·.time = t) := by
  have hpairwise : (reports.filter (·.time = t)).Pairwise fun a b => dir.Le a.time b.time := by
    refine List.pairwise_of_forall_mem_list fun a ha b hb => ?_
    rw [of_decide_eq_true (List.mem_filter.mp ha).2, of_decide_eq_true (List.mem_filter.mp hb).2,
      dir.le_iff]
  have hsub := (List.sublist_insertionSort hpairwise List.filter_sublist).filter
    fun r : Report => decide (r.time = t)
  rw [List.filter_filter] at hsub
  simp only [Bool.and_self] at hsub
  refine (hsub.eq_of_length ?_).symm
  exact ((List.perm_insertionSort _ reports).filter _).symm.length_eq

/-- Reports of one date are the same, if each end of the list that is sorted downwards is the list
backwards. -/
theorem same_of_reverse {reports : List Report}
    (h : ∀ n, byDate .desc (reports.drop n) = (reports.drop n).reverse) :
    ∀ a ∈ reports, ∀ b ∈ reports, a.time = b.time → a = b := by
  induction reports with
  | nil => exact fun a ha => absurd ha List.not_mem_nil
  | cons r reports ih =>
    have ih := ih fun n => h (n + 1)
    -- The first report of its date is the last one, and so all between them are the same.
    have hfirst : ∀ b ∈ reports, b.time = r.time → b = r := by
      intro b hb htime
      have hall := filter_byDate .desc (r :: reports) r.time
      rw [show byDate .desc (r :: reports) = (r :: reports).reverse from h 0, List.filter_reverse,
        List.filter_cons_of_pos (by simp), List.reverse_cons] at hall
      have hmem : b ∈ (reports.filter (·.time = r.time)).reverse :=
        List.mem_reverse.mpr (List.mem_filter.mpr ⟨hb, decide_eq_true htime⟩)
      cases hback : (reports.filter (·.time = r.time)).reverse with
      | nil => rw [hback] at hmem; cases hmem
      | cons c rest =>
        rw [hback, List.cons_append] at hall
        obtain rfl : c = r := (List.cons.inj hall).1
        have hc : c ∈ reports := by
          have : c ∈ (reports.filter (·.time = c.time)).reverse := hback ▸ List.mem_cons_self
          exact (List.mem_filter.mp (List.mem_reverse.mp this)).1
        exact ih b hb c hc htime
    intro a ha b hb htime
    obtain rfl | ha' := List.mem_cons.mp ha <;> obtain rfl | hb' := List.mem_cons.mp hb
    · rfl
    · exact (hfirst b hb' htime.symm).symm
    · exact hfirst a ha' htime
    · exact ih a ha' b hb' htime

/-! ## The heap -/

def itemList (dir : OrderDir) (reports : List Report) : List Item :=
  reports.zipIdx.map fun r => ⟨dir.rank r.1.time, r.2, r.1⟩

theorem mapM_eq_some {β γ : Type} {f : β → Option γ} {g : β → γ} {l : List β}
    (h : ∀ b ∈ l, f b = some (g b)) : l.mapM f = some (l.map g) := by
  induction l with
  | nil => rfl
  | cons b l ih =>
    rw [List.mapM_cons, h b List.mem_cons_self, ih fun b hb => h b (List.mem_cons_of_mem _ hb)]
    rfl

theorem items_eq {reports : List Report} (hdated : ∀ r ∈ reports, r.date.sortKey.isSome = true) :
    items dir reports = some (itemList dir reports) := by
  refine mapM_eq_some fun r hr => ?_
  have hkey := hdated r.1 (List.fst_mem_of_mem_zipIdx hr)
  cases hdate : r.1.date with
  | float value => cases dir <;> simp [Report.time, hdate, Date.sortKey, Date.heapKey, OrderDir.rank]
  | empty => simp [hdate, Date.sortKey] at hkey
  | refused => simp [hdate, Date.sortKey] at hkey

theorem report_itemList (dir : OrderDir) (reports : List Report) :
    (itemList dir reports).map Item.report = reports := by
  rw [itemList, List.map_map]
  exact List.zipIdx_map_fst 0 reports

/-- What the heap keeps, sorted, is the beginning of everything sorted. -/
theorem heapReports_sorted (dir : OrderDir) {reports : List Report}
    (hdated : ∀ r ∈ reports, r.date.sortKey.isSome = true)
    (hsame : ∀ a ∈ reports, ∀ b ∈ reports, a.time = b.time → a = b) (topK : Nat) :
    (heapReports dir topK reports).bind (sortReports dir) =
      some ((byDate dir reports).take topK) := by
  have hrank : ∀ a b : Item, a.key ≤ b.key → a.heapKey ≤ b.heapKey := by
    intro a b hle
    rcases Prod.Lex.toLex_le_toLex.mp hle with hlt | ⟨heq, -⟩
    · exact hlt.le
    · exact heq.le
  have hkept := foldl_offer hrank topK (itemList dir reports)
  have hinj : ∀ a b, dir.rank a = dir.rank b → a = b := by
    intro a b h
    cases dir with
    | asc => exact neg_inj.mp h
    | desc => exact h
  have htake := hkept.insertionSort_eq (f := Item.report)
    (r := fun a b => dir.Le a.time b.time) (fun r => dir.rank r.time) ?_
    (fun a b => dir.le_iff _ _) ?_
  · rw [report_itemList] at htake
    unfold heapReports
    rw [items_eq hdated, Option.map_some, Option.bind_some, sortReports_eq]
    · exact congrArg some htake
    · intro r hr
      obtain ⟨item, hitem, rfl⟩ := List.mem_map.mp hr
      obtain ⟨-, rest, hperm, -⟩ := hkept
      have hmem := List.mem_map_of_mem (f := Item.report)
        (hperm.subset (List.mem_append_left rest hitem))
      rw [report_itemList] at hmem
      exact hdated _ hmem
  · intro item hitem
    obtain ⟨r, -, rfl⟩ := List.mem_map.mp hitem
    rfl
  · rw [report_itemList]
    exact fun a ha b hb h => hsame a ha b hb (hinj _ _ h)

/-! ## The condition is enough -/

theorem nodup_ids {reports part : List Report} (hpart : part.Sublist reports)
    (hnodup : (ids reports).Nodup) : (ids part).Nodup := (hpart.filterMap _).nodup hnodup

theorem dedup_of_sublist {reports part : List Report} (hhash : ∀ r ∈ reports, r.id ≠ .unhashable)
    (hnodup : (ids reports).Nodup) (hpart : part.Sublist reports) : dedup [] part = some part :=
  dedup_self_iff.mpr ⟨fun r hr => hhash r (hpart.subset hr), nodup_ids hpart hnodup,
    fun _ _ => List.not_mem_nil⟩

theorem Ordered.table_eq (h : Ordered redis) (maxRedisRequests : Nat) :
    tableReports redis maxRedisRequests = some (windowReports redis maxRedisRequests) :=
  dedup_of_sublist h.hashable h.nodup (windowReports_sublist redis maxRedisRequests)

theorem Ordered.byDate_window (h : Ordered redis) (dir : OrderDir) (maxRedisRequests : Nat) :
    byDate dir (windowReports redis maxRedisRequests) =
      dir.list (windowReports redis maxRedisRequests) := by
  have hsub := windowReports_sublist redis maxRedisRequests
  exact byDate_eq_list (h.sorted.sublist hsub) fun a ha b hb =>
    h.same a (hsub.subset ha) b (hsub.subset hb)

/-- Entries that all decode keep their positions. -/
theorem map_some_filterMap {f : α → Option Report} {l : List α}
    (h : ∀ raw ∈ l, (f raw).isSome = true) : (l.filterMap f).map some = l.map f := by
  induction l with
  | nil => rfl
  | cons raw l ih =>
    obtain ⟨r, hr⟩ := Option.isSome_iff_exists.mp (h raw List.mem_cons_self)
    rw [List.filterMap_cons, List.map_cons, hr, List.map_cons,
      ih fun raw hraw => h raw (List.mem_cons_of_mem _ hraw)]

theorem filterMap_drop {f : α → Option Report} {l : List α}
    (h : ∀ raw ∈ l, (f raw).isSome = true) (n : Nat) :
    (l.drop n).filterMap f = (l.filterMap f).drop n := by
  apply List.map_injective_iff.mpr (Option.some_injective Report)
  rw [map_some_filterMap fun raw hraw => h raw (List.mem_of_mem_drop hraw), List.map_drop,
    List.map_drop, map_some_filterMap h]

theorem filterMap_take {f : α → Option Report} {l : List α}
    (h : ∀ raw ∈ l, (f raw).isSome = true) (n : Nat) :
    (l.take n).filterMap f = (l.filterMap f).take n := by
  apply List.map_injective_iff.mpr (Option.some_injective Report)
  rw [map_some_filterMap fun raw hraw => h raw (List.mem_of_mem_take hraw), List.map_take,
    List.map_take, map_some_filterMap h]

theorem mem_cappedWindow {raw : α} (h : raw ∈ cappedWindow redis maxRedisRequests) :
    raw ∈ redis.requests := List.mem_of_mem_drop h

theorem length_windowReports (hdecodes : ∀ raw ∈ redis.requests, (report redis.loads raw).isSome = true)
    (maxRedisRequests : Nat) :
    (windowReports redis maxRedisRequests).length = (cappedWindow redis maxRedisRequests).length := by
  rw [windowReports, List.length_filterMap_eq_countP, List.countP_eq_length]
  exact fun raw hraw => hdecodes raw (mem_cappedWindow hraw)

/-- The fast path on entries that decode, with different ids. -/
theorem fastPage_of_decodes (hcap : maxRedisRequests ≠ 0) (hlength : 0 < length)
    (hdecodes : ∀ raw ∈ redis.requests, (report redis.loads raw).isSome = true)
    (hhash : ∀ r ∈ allReports redis, r.id ≠ .unhashable) (hnodup : (ids (allReports redis)).Nodup) :
    fastPage redis maxRedisRequests start length dir =
      some ((windowReports redis maxRedisRequests).length,
        ((dir.list (windowReports redis maxRedisRequests)).drop start).take length.toNat) := by
  have hshown : (shown redis maxRedisRequests dir).filterMap (report redis.loads) =
      dir.list (windowReports redis maxRedisRequests) := by
    cases dir with
    | asc => rfl
    | desc => exact List.filterMap_reverse
  have hall : ∀ raw ∈ shown redis maxRedisRequests dir, (report redis.loads raw).isSome = true := by
    intro raw hraw
    have hmem : raw ∈ cappedWindow redis maxRedisRequests := by
      cases dir with
      | asc => exact hraw
      | desc => exact List.mem_reverse.mp hraw
    exact hdecodes raw (mem_cappedWindow hmem)
  have hids : (ids (dir.list (windowReports redis maxRedisRequests))).Nodup := by
    have hwindow := nodup_ids (windowReports_sublist redis maxRedisRequests) hnodup
    cases dir with
    | asc => exact hwindow
    | desc =>
      show (List.filterMap _ (List.reverse _)).Nodup
      rw [List.filterMap_reverse]
      exact List.nodup_reverse.mpr hwindow
  rw [fastPage_eq hcap hlength, filterMap_take fun raw hraw => hall raw (List.mem_of_mem_drop hraw),
    filterMap_drop hall, hshown, length_windowReports hdecodes]
  have hhash : ∀ r ∈ dir.list (windowReports redis maxRedisRequests), r.id ≠ .unhashable := by
    intro r hr
    refine hhash r ((windowReports_sublist redis maxRedisRequests).subset ?_)
    cases dir with
    | asc => exact hr
    | desc => exact List.mem_reverse.mp hr
  rw [dedup_of_sublist hhash hids ((List.take_sublist _ _).trans (List.drop_sublist _ _))]
  rfl

theorem Ordered.pagesAgree (h : Ordered redis) (hlength : 0 < length) :
    PagesAgree redis maxRedisRequests start length dir := by
  by_cases hcap : maxRedisRequests = 0
  · subst hcap
    exact pagesAgree_zero
  · have hsub := windowReports_sublist redis maxRedisRequests
    have hdated : ∀ r ∈ windowReports redis maxRedisRequests, r.date.sortKey.isSome = true :=
      fun r hr => h.dated r (hsub.subset hr)
    have hsame := fun a ha b hb => h.same a (hsub.subset ha) b (hsub.subset hb)
    have hall : length ≠ -1 := by omega
    refine (pagesAgree_iff hcap).mpr ⟨_, ?_, ?_, fun _ =>
      fastPage_of_decodes hcap hlength h.decodes h.hashable h.nodup⟩
    · unfold sortedPage
      rw [h.table_eq]
      simp only [Option.bind_eq_bind, Option.bind_some, sortReports_eq hdated,
        h.byDate_window dir maxRedisRequests, if_neg hall, slice_eq hlength]
      rfl
    · unfold heapPage
      rw [h.table_eq]
      have hheap := heapReports_sorted dir hdated hsame (start + length).toNat
      simp only [Option.bind_eq_bind, Option.bind_some]
      rw [if_pos ⟨hall, by omega⟩, ← Option.bind_assoc, hheap, h.byDate_window]
      simp only [Option.bind_some, if_neg hall, slice_eq hlength]
      rw [show (start + length).toNat = start + length.toNat by omega, ← List.take_drop,
        List.take_take, min_self]
      rfl

/-! ## The condition is needed -/

theorem sortedPage_some {page : Nat × List Report}
    (h : sortedPage redis maxRedisRequests start length dir = some page) :
    ∃ reports, tableReports redis maxRedisRequests = some reports ∧
      (∀ r ∈ reports, r.date.sortKey.isSome = true) ∧ page = (reports.length,
        if length = -1 then byDate dir reports
        else slice (byDate dir reports) start (start + length)) := by
  obtain ⟨reports, htable, h⟩ := Option.bind_eq_some_iff.mp h
  obtain ⟨sorted, hsorted, h⟩ := Option.bind_eq_some_iff.mp h
  unfold sortReports at hsorted
  split at hsorted
  next hdated =>
    refine ⟨reports, htable, List.all_eq_true.mp hdated, ?_⟩
    rw [show byDate dir reports = sorted from Option.some.inj hsorted]
    exact (Option.some.inj h).symm
  next => cases hsorted

/-- Lists whose pages are the same are the same. -/
theorem eq_of_pages {a b : List Report} {n : Nat} (hn : 0 < n)
    (h : ∀ start, (a.drop start).take n = (b.drop start).take n) : a = b := by
  apply List.ext_getElem?
  intro i
  have hfirst := congrArg (·[0]?) (h i)
  simpa [List.getElem?_take, hn] using hfirst

section

variable (hlength : 0 < length)
  (h : ∀ maxRedisRequests start dir, PagesAgree redis maxRedisRequests start length dir)
include hlength h

/-- The totals are the same only if every entry is a report, and none is dropped. -/
theorem decodes_of_agree : (∀ raw ∈ redis.requests, (report redis.loads raw).isSome = true) ∧
    dedup [] (allReports redis) = some (allReports redis) ∧
    ∀ r ∈ allReports redis, r.date.sortKey.isSome = true := by
  by_cases hempty : redis.requests = []
  · have hnone : allReports redis = [] := by rw [allReports, hempty]; rfl
    rw [hempty, hnone]
    exact ⟨nofun, rfl, nofun⟩
  · have hcap : redis.requests.length ≠ 0 := fun hzero => hempty (List.length_eq_zero_iff.mp hzero)
    obtain ⟨page, hsorted, -, hfast⟩ := (pagesAgree_iff hcap).mp (h redis.requests.length 0 .asc)
    have hfast := hfast (by omega)
    rw [fastPage_eq hcap hlength] at hfast
    obtain ⟨part, -, rfl⟩ := Option.map_eq_some_iff.mp hfast
    obtain ⟨reports, htable, hdated, hpage⟩ := sortedPage_some hsorted
    rw [tableReports, cappedWindow_length] at htable
    have hsub : reports.Sublist (allReports redis) := dedup_sublist htable
    have htotal : redis.requests.length = reports.length := by
      rw [← cappedWindow_length redis]
      exact congrArg Prod.fst hpage
    have hle : (allReports redis).length ≤ redis.requests.length := List.length_filterMap_le _ _
    obtain rfl : reports = allReports redis := hsub.eq_of_length (by
      have := hsub.length_le
      omega)
    refine ⟨?_, htable, hdated⟩
    rwa [allReports, List.length_filterMap_eq_countP, eq_comm, List.countP_eq_length] at htotal

/-- What is shown is sorted, for every cap. -/
theorem byDate_of_agree (dir : OrderDir) (maxRedisRequests : Nat) :
    byDate dir (windowReports redis maxRedisRequests) =
      dir.list (windowReports redis maxRedisRequests) := by
  obtain ⟨hdecodes, hdedup, -⟩ := decodes_of_agree hlength h
  obtain ⟨hhash, hnodup, -⟩ := dedup_self_iff.mp hdedup
  by_cases hcap : maxRedisRequests = 0
  · have hnone : windowReports redis maxRedisRequests = [] := by
      rw [windowReports, cappedWindow, List.drop_eq_nil_of_le (by omega)]
      rfl
    rw [hnone]
    cases dir <;> rfl
  · refine eq_of_pages (show 0 < length.toNat by omega) fun start => ?_
    obtain ⟨page, hsorted, -, hfast⟩ := (pagesAgree_iff hcap).mp (h maxRedisRequests start dir)
    have hfast := hfast (by omega)
    rw [fastPage_of_decodes hcap hlength hdecodes hhash hnodup] at hfast
    obtain ⟨reports, htable, -, hpage⟩ := sortedPage_some hsorted
    obtain rfl : windowReports redis maxRedisRequests = reports :=
      Option.some.inj ((dedup_of_sublist hhash hnodup
        (windowReports_sublist redis maxRedisRequests)).symm.trans htable)
    have hdata := congrArg Prod.snd ((Option.some.inj hfast).trans hpage)
    rw [if_neg (by omega), slice_eq hlength] at hdata
    exact hdata.symm

theorem ordered_of_agree : Ordered redis := by
  obtain ⟨hdecodes, hdedup, hdated⟩ := decodes_of_agree hlength h
  obtain ⟨hhash, hnodup, -⟩ := dedup_self_iff.mp hdedup
  refine ⟨hdecodes, hhash, hnodup, hdated, ?_, same_of_reverse fun n => ?_⟩
  · have hall : windowReports redis redis.requests.length = allReports redis := by
      simp [windowReports, cappedWindow, allReports]
    have hsorted := byDate_of_agree hlength h .asc redis.requests.length
    rw [hall] at hsorted
    have htotal := OrderDir.asc.total
    have htrans := OrderDir.asc.trans
    have hpairwise := List.pairwise_insertionSort
      (fun a b : Report => OrderDir.asc.Le a.time b.time) (allReports redis)
    rwa [show (allReports redis).insertionSort _ = allReports redis from hsorted] at hpairwise
  · by_cases hn : redis.requests.length ≤ n
    · have hle : (allReports redis).length ≤ n := (List.length_filterMap_le _ _).trans hn
      rw [List.drop_eq_nil_of_le hle]
      rfl
    · have hwindow : windowReports redis (redis.requests.length - n) = (allReports redis).drop n := by
        rw [windowReports, cappedWindow,
          show redis.requests.length - (redis.requests.length - n) = n by omega]
        exact filterMap_drop hdecodes n
      rw [← hwindow]
      exact byDate_of_agree hlength h .desc _

end

/-! ## The other lengths -/

/-- Each report is the first one of some window. -/
theorem usable_of_agree
    (h : ∀ maxRedisRequests start dir, PagesAgree redis maxRedisRequests start length dir) :
    ∀ r ∈ allReports redis, r.id ≠ .unhashable ∧ r.date.sortKey.isSome = true := by
  intro r hr
  obtain ⟨raw, hraw, hreport⟩ := List.mem_filterMap.mp hr
  obtain ⟨before, after, hsplit⟩ := List.append_of_mem hraw
  have hlen : redis.requests.length = before.length + (after.length + 1) := by
    rw [hsplit, List.length_append, List.length_cons]
  have hwindow : cappedWindow redis (after.length + 1) = raw :: after := by
    rw [cappedWindow, hlen, Nat.add_sub_cancel, hsplit, List.drop_left]
  obtain ⟨page, hsorted, -⟩ := (pagesAgree_iff (by omega)).mp (h (after.length + 1) 0 .asc)
  obtain ⟨reports, htable, hdated, -⟩ := sortedPage_some hsorted
  rw [tableReports, hwindow, List.filterMap_cons_some hreport] at htable
  obtain ⟨hkept, hhash⟩ := dedup_cons htable
  exact ⟨hhash, hdated r hkept⟩

theorem pagesAgree_all (h : ∀ r ∈ allReports redis, r.id ≠ .unhashable ∧
    r.date.sortKey.isSome = true) : PagesAgree redis maxRedisRequests start (-1) dir := by
  by_cases hcap : maxRedisRequests = 0
  · subst hcap
    exact pagesAgree_zero
  · have hsub := windowReports_sublist redis maxRedisRequests
    obtain ⟨reports, htable⟩ : ∃ reports, tableReports redis maxRedisRequests = some reports :=
      exists_dedup fun r hr => (h r (hsub.subset hr)).1
    have hdated : ∀ r ∈ reports, r.date.sortKey.isSome = true := fun r hr =>
      (h r (hsub.subset ((dedup_sublist htable).subset hr))).2
    refine (pagesAgree_iff hcap).mpr ⟨(reports.length, byDate dir reports), ?_, ?_,
      fun hlength => absurd rfl hlength⟩
    · simp [sortedPage, htable, sortReports_eq hdated]
    · simp [heapPage, htable, sortReports_eq hdated]

theorem pagesAgree_of_none (h : allReports redis = []) (hlength : length ≤ 0) :
    PagesAgree redis maxRedisRequests start length dir := by
  by_cases hcap : maxRedisRequests = 0
  · subst hcap
    exact pagesAgree_zero
  · have htable : tableReports redis maxRedisRequests = some [] := by
      have hsub := windowReports_sublist redis maxRedisRequests
      rw [h, List.sublist_nil] at hsub
      show dedup [] (windowReports redis maxRedisRequests) = some []
      rw [hsub]
      rfl
    have hheap : heapReports dir (start + length).toNat [] = some [] := rfl
    have hsorted : sortReports dir [] = some [] := rfl
    refine (pagesAgree_iff hcap).mpr ⟨(0, []), ?_, ?_, fun _ => if_pos hlength⟩
    · simp [sortedPage, htable, hsorted, slice]
    · simp [heapPage, htable, hheap, hsorted, slice]

theorem none_of_agree (hlength : length ≤ 0) (hall : length ≠ -1)
    (h : ∀ maxRedisRequests start dir, PagesAgree redis maxRedisRequests start length dir) :
    allReports redis = [] := by
  by_cases hempty : redis.requests.length = 0
  · rw [allReports, List.length_eq_zero_iff.mp hempty]
    rfl
  · obtain ⟨page, hsorted, -, hfast⟩ := (pagesAgree_iff hempty).mp (h redis.requests.length 0 .asc)
    obtain rfl : (0, []) = page :=
      Option.some.inj ((show fastPage redis _ 0 length .asc = some (0, []) from
        if_pos hlength).symm.trans (hfast hall))
    obtain ⟨reports, htable, -, hpage⟩ := sortedPage_some hsorted
    obtain rfl : reports = [] := List.length_eq_zero_iff.mp (congrArg Prod.fst hpage).symm
    rw [tableReports, cappedWindow_length] at htable
    cases hreports : allReports redis with
    | nil => rfl
    | cons r rest =>
      rw [show redis.requests.filterMap (report redis.loads) = r :: rest from hreports] at htable
      exact absurd (dedup_cons htable).1 List.not_mem_nil

/-- The pages of all caps, starts and directions. -/
theorem forall_pagesAgree_iff (redis : Redis α) (length : Int) :
    (∀ maxRedisRequests start dir, PagesAgree redis maxRedisRequests start length dir) ↔
      Sound redis length := by
  unfold Sound
  split
  next hall =>
    subst hall
    exact ⟨usable_of_agree, fun h _ _ _ => pagesAgree_all h⟩
  next hall =>
    split
    next hlength => exact ⟨none_of_agree hlength hall, fun h _ _ _ => pagesAgree_of_none h hlength⟩
    next hlength =>
      have hlength : 0 < length := by omega
      exact ⟨ordered_of_agree hlength, fun h _ _ _ => h.pagesAgree hlength⟩

end

/-! ## Panes -/

/-- As many reports of the list have the value as their facet value. -/
def facetCount (redis : Redis α) (field value : String) : Nat :=
  (allReports redis).countP fun r => (r.field field).facetValue = value

/-- As many reports have the value as their text. -/
def paneCount (reports : List Report) (field value : String) : Nat :=
  reports.countP fun r => (r.field field).paneValue = value

/-- Each hash has exactly the facet values of the list, with the number of the reports. -/
def ExactFacets (redis : Redis α) : Prop :=
  ∀ field ∈ reportPaneFields, ((redis.facets field).map Prod.fst).Nodup ∧ ∀ value count,
    (value, count) ∈ redis.facets field ↔
      0 < facetCount redis field value ∧ count = some (facetCount redis field value : Int)

/-- A value that both kinds of panes have has one count. -/
def PanesAgree (redis : Redis α) (maxRedisRequests : Nat) : Prop :=
  ∀ facets, ExactFacets { redis with facets } → ∀ panes, panesFromFacets facets = some panes →
    ∀ reports, tableReports redis maxRedisRequests = some reports → ∀ field ∈ reportPaneFields,
      ∀ value a b, (panes field).lookup value = some a →
        (streamPane reports field).lookup value = some b → a = b

/-- Fewer facet values than a pane has room for come before the value. -/
def Greatest (redis : Redis α) (field value : String) : Prop :=
  0 < facetCount redis field value ∧
    ((((allReports redis).map fun r => (r.field field).facetValue).dedup).filter fun other =>
      toLex ((facetCount redis field value : Int), value) <
        toLex ((facetCount redis field other : Int), other)).length < reportPaneMaxValues

instance (redis : Redis α) (field value : String) : Decidable (Greatest redis field value) :=
  inferInstanceAs (Decidable (_ ∧ _))

/-- Fewer values than a pane has room for are seen before the value. -/
def Early (maxValues : Nat) (values : List String) (value : String) : Prop :=
  value ∈ values ∧ (values.takeWhile (· ≠ value)).toFinset.card < maxValues

instance (maxValues : Nat) (values : List String) (value : String) :
    Decidable (Early maxValues values value) :=
  inferInstanceAs (Decidable (_ ∧ _))

/-- A value that has room in both kinds of panes has as many reports of the list that have it as
their facet value only, as reports of the table that have it as their text. -/
def Balanced (redis : Redis α) (maxRedisRequests : Nat) : Prop :=
  ∀ reports, tableReports redis maxRedisRequests = some reports → ∀ field ∈ reportPaneFields,
    ∀ value, Greatest redis field value →
      Early reportPaneMaxValues (reports.map fun r => (r.field field).paneValue) value →
        facetCount redis field value = paneCount reports field value

section

variable {maxValues : Nat} {values : List String}

theorem takeWhile_append_of_mem {value : String} (h : value ∈ values) (more : List String) :
    (values ++ more).takeWhile (· ≠ value) = values.takeWhile (· ≠ value) := by
  induction values with
  | nil => cases h
  | cons other values ih =>
    by_cases heq : other = value
    · simp [heq]
    · have hmem : value ∈ values := (List.mem_cons.mp h).resolve_left (Ne.symm heq)
      simpa [heq] using ih hmem

theorem early_append {other value : String} (hne : other ≠ value) :
    Early maxValues (values ++ [value]) other ↔ Early maxValues values other := by
  have hmem : other ∈ values ++ [value] ↔ other ∈ values := by simp [hne]
  unfold Early
  rw [hmem]
  refine and_congr_right fun h => ?_
  rw [takeWhile_append_of_mem h]

theorem early_append_self {value : String} :
    Early maxValues (values ++ [value]) value ↔
      Early maxValues values value ∨ value ∉ values ∧ values.toFinset.card < maxValues := by
  have hmem : value ∈ values ++ [value] := by simp
  unfold Early
  by_cases h : value ∈ values
  · rw [takeWhile_append_of_mem h]
    simp [h]
  · have htake : (values ++ [value]).takeWhile (· ≠ value) = values := by
      rw [List.takeWhile_append_of_pos fun other hother => by
        simpa using fun heq : other = value => h (heq ▸ hother)]
      simp
    rw [htake]
    simp [h]

/-- Values that take up less room than there is are all early. -/
theorem early_of_card {value : String} (h : value ∈ values) (hcard : values.toFinset.card < maxValues) :
    Early maxValues values value := by
  refine ⟨h, lt_of_le_of_lt (Finset.card_le_card fun other hother => ?_) hcard⟩
  rw [List.mem_toFinset] at hother ⊢
  exact (List.takeWhile_sublist _).subset hother

theorem length_keys_insert (pane : Pane) (value : String) (c : Count) :
    (pane.insert value c).keys.length =
      if value ∈ pane then pane.keys.length else pane.keys.length + 1 := by
  rw [AList.keys_insert, List.length_cons]
  split
  next h =>
    rw [List.length_erase_of_mem (AList.mem_keys.mp h)]
    have := List.length_pos_of_mem (AList.mem_keys.mp h)
    omega
  next h => rw [List.erase_of_not_mem (mt AList.mem_keys.mpr h)]

/-- What a pane has after some values: those that came while there was room, and their numbers. -/
theorem foldl_countValue (hmax : maxValues ≠ 0) (values : List String) :
    let pane := values.foldl (countValue maxValues) ∅
    pane.keys.length = min maxValues values.toFinset.card ∧ ∀ value,
      (Early maxValues values value →
        pane.lookup value = some ⟨values.count value, values.count value⟩) ∧
      (¬Early maxValues values value → pane.lookup value = none) := by
  induction values using List.reverseRecOn with
  | nil => simp [Early]
  | append_singleton values value ih =>
    obtain ⟨hlength, hlookup⟩ := ih
    rw [List.foldl_append, List.foldl_cons, List.foldl_nil]
    generalize values.foldl (countValue maxValues) ∅ = pane at *
    have hcard : (values ++ [value]).toFinset.card =
        if value ∈ values then values.toFinset.card else values.toFinset.card + 1 := by
      have hinsert : (values ++ [value]).toFinset = insert value values.toFinset := by
        ext other
        simp
      rw [hinsert]
      split
      next h => rw [Finset.insert_eq_of_mem (List.mem_toFinset.mpr h)]
      next h => rw [Finset.card_insert_of_notMem (mt List.mem_toFinset.mp h)]
    have hothers : ∀ other, other ≠ value → ∀ pane' : Pane, pane'.lookup other = pane.lookup other →
        (Early maxValues (values ++ [value]) other → pane'.lookup other =
          some ⟨(values ++ [value]).count other, (values ++ [value]).count other⟩) ∧
        (¬Early maxValues (values ++ [value]) other → pane'.lookup other = none) := by
      intro other hne pane' hsame
      have hcount : (values ++ [value]).count other = values.count other := by
        simp [List.count_append, hne.symm]
      rw [early_append hne, hcount, hsame]
      exact hlookup other
    have hself : (values ++ [value]).count value = values.count value + 1 := by
      simp [List.count_append]
    by_cases hearly : Early maxValues values value
    · have hfound := (hlookup value).1 hearly
      have hmem : value ∈ pane := AList.lookup_isSome.mp (by rw [hfound]; rfl)
      have hstep : countValue maxValues pane value =
          pane.insert value ⟨values.count value + 1, values.count value + 1⟩ := by
        simp [countValue, hfound]
      rw [hstep]
      refine ⟨?_, fun other => ?_⟩
      · rw [length_keys_insert, if_pos hmem, hcard, if_pos hearly.1, hlength]
      · by_cases heq : other = value
        · subst heq
          rw [hself, AList.lookup_insert]
          exact ⟨fun _ => by push_cast; rfl, fun h =>
            absurd (early_append_self.mpr (.inl hearly)) h⟩
        · exact hothers other heq _ (AList.lookup_insert_ne heq)
    · have hnone := (hlookup value).2 hearly
      have hnew : value ∉ pane := AList.lookup_eq_none.mp hnone
      by_cases hfull : maxValues ≤ pane.keys.length
      · have hstep : countValue maxValues pane value = pane := by
          have hentries : maxValues ≤ pane.entries.length := by
            simpa [AList.keys, List.keys] using hfull
          simp [countValue, hnone, hmax, hentries]
        rw [hstep]
        refine ⟨?_, fun other => ?_⟩
        · rw [hcard, hlength]
          split <;> omega
        · by_cases heq : other = value
          · subst heq
            refine ⟨fun h => ?_, fun _ => hnone⟩
            obtain h | ⟨-, hroom⟩ := early_append_self.mp h
            · exact absurd h hearly
            · omega
          · exact hothers other heq pane rfl
      · have hroom : values.toFinset.card < maxValues := by omega
        have hfirst : value ∉ values := fun h => hearly (early_of_card h hroom)
        have hstep : countValue maxValues pane value = pane.insert value ⟨1, 1⟩ := by
          have hentries : ¬maxValues ≤ pane.entries.length := by
            simpa [AList.keys, List.keys] using hfull
          simp [countValue, hnone, hentries]
        rw [hstep]
        refine ⟨?_, fun other => ?_⟩
        · rw [length_keys_insert, if_neg hnew, hcard, if_neg hfirst, hlength]
          omega
        · by_cases heq : other = value
          · subst heq
            rw [hself, List.count_eq_zero.mpr hfirst, AList.lookup_insert]
            exact ⟨fun _ => rfl, fun h =>
              absurd (early_append_self.mpr (.inr ⟨hfirst, hroom⟩)) h⟩
          · exact hothers other heq _ (AList.lookup_insert_ne heq)

end

section

variable {redis : Redis α} {field : String}

theorem Field.facetValue_ne (f : Field) : f.facetValue ≠ "" := by
  cases f with
  | absent => decide
  | null => decide
  | text value =>
    rw [Field.facetValue]
    split
    next => decide
    next h => exact h
  | other tostring str written => exact written

theorem facetCount_pos {value : String} : 0 < facetCount redis field value ↔
    value ∈ (allReports redis).map fun r => (r.field field).facetValue := by
  unfold facetCount
  rw [List.countP_pos_iff, List.mem_map]
  simp

/-- The facet values of the list, each once. -/
def facetValues (redis : Redis α) (field : String) : List String :=
  ((allReports redis).map fun r => (r.field field).facetValue).dedup

/-- The item of a facet value. -/
def facetItem (redis : Redis α) (field value : String) : Int × String :=
  (facetCount redis field value, value)

/-- The items of an exact hash. -/
theorem facetItems_perm (h : ExactFacets redis) (hfield : field ∈ reportPaneFields) :
    (facetItems (redis.facets field)).Perm
      ((facetValues redis field).map (facetItem redis field)) := by
  obtain ⟨hnodup, hexact⟩ := h field hfield
  have hitems : facetItems (redis.facets field) =
      ((redis.facets field).map Prod.fst).map (facetItem redis field) := by
    rw [List.map_map, ← List.filterMap_eq_map]
    refine List.filterMap_congr fun e he => ?_
    obtain ⟨value, count⟩ := e
    obtain ⟨hpos, rfl⟩ := (hexact value count).mp he
    obtain ⟨r, -, hr⟩ := List.mem_map.mp (facetCount_pos.mp hpos)
    have hne : value ≠ "" := hr ▸ (r.field field).facetValue_ne
    simp [hpos.ne', hne, facetItem]
  rw [hitems]
  refine .map _ ((List.perm_ext_iff_of_nodup hnodup (List.nodup_dedup _)).mpr fun value => ?_)
  rw [List.mem_dedup, ← facetCount_pos, List.mem_map]
  constructor
  · rintro ⟨⟨_, count⟩, he, rfl⟩
    exact ((hexact _ count).mp he).1
  · exact fun hpos => ⟨_, (hexact value _).mpr ⟨hpos, rfl⟩, rfl⟩

/-- The pane of an exact hash has the values for which there is room. -/
theorem lookup_facetPane (h : ExactFacets redis) (hfield : field ∈ reportPaneFields)
    (value : String) :
    (facetPane reportPaneMaxValues (facetItems (redis.facets field))).lookup value =
      if Greatest redis field value then
        some ⟨facetCount redis field value, facetCount redis field value⟩
      else none := by
  have hperm := facetItems_perm h hfield
  have hkept : Kept toLex toLex reportPaneMaxValues (facetItems (redis.facets field)) _ :=
    foldl_offer (fun _ _ h => h) reportPaneMaxValues _
  generalize hitems : facetItems (redis.facets field) = items at *
  have hitem : ∀ item ∈ items, item = facetItem redis field item.2 := by
    intro item hmem
    obtain ⟨_, -, rfl⟩ := List.mem_map.mp (hperm.subset hmem)
    rfl
  have hnodup : (items.map toLex).Nodup := by
    refine (List.nodup_map_iff toLex.injective).mpr (hperm.nodup_iff.mpr ?_)
    exact (List.nodup_dedup _).map fun _ _ h => congrArg Prod.snd h
  -- An item is kept if and only if its value has room.
  have hmem : facetItem redis field value ∈ items.foldl (offer toLex toLex reportPaneMaxValues) [] ↔
      Greatest redis field value := by
    have hroom : (items.filter fun b => toLex (facetItem redis field value) < toLex b).length =
        ((facetValues redis field).filter fun other =>
          toLex (facetItem redis field value) < toLex (facetItem redis field other)).length := by
      rw [(hperm.filter _).length_eq, List.filter_map, List.length_map]
      rfl
    have hinside : facetItem redis field value ∈ items ↔ 0 < facetCount redis field value := by
      rw [hperm.mem_iff, List.mem_map, facetCount_pos, facetValues]
      constructor
      · rintro ⟨other, hother, heq⟩
        obtain rfl : other = value := congrArg Prod.snd heq
        exact List.mem_dedup.mp hother
      · exact fun hmem => ⟨value, List.mem_dedup.mpr hmem, rfl⟩
    constructor
    · intro hkeep
      obtain ⟨-, rest, hall, -⟩ := id hkept
      have hitem := hall.subset (List.mem_append_left rest hkeep)
      exact ⟨hinside.mp hitem, hroom ▸ (hkept.mem_iff hnodup hitem).mp hkeep⟩
    · rintro ⟨hpos, hlt⟩
      exact (hkept.mem_iff hnodup (hinside.mpr hpos)).mpr (hroom ▸ hlt)
  have htop : ∀ item ∈ items.foldl (offer toLex toLex reportPaneMaxValues) [], item ∈ items := by
    obtain ⟨-, rest, hall, -⟩ := hkept
    exact fun item hitem => hall.subset (List.mem_append_left rest hitem)
  unfold facetPane
  rw [Dict.lookup_setAll, AList.lookup_empty, Option.or_none]
  split
  next hgreatest =>
    refine Dict.lastOf_eq_some ?_ fun w hw => ?_
    · exact List.mem_map.mpr ⟨facetItem redis field value,
        (List.mem_insertionSort _).mpr (hmem.mpr hgreatest), rfl⟩
    · obtain ⟨item, hkeep, heq⟩ := List.mem_map.mp hw
      have hself := hitem item (htop item ((List.mem_insertionSort _).mp hkeep))
      obtain ⟨rfl, rfl⟩ := Prod.mk.inj heq
      rw [hself]
      rfl
  next hgreatest =>
    refine Dict.lastOf_eq_none.mpr fun e he heq => hgreatest (hmem.mp ?_)
    obtain ⟨item, hkeep, rfl⟩ := List.mem_map.mp he
    have hkeep := (List.mem_insertionSort _).mp hkeep
    have hself := hitem item (htop item hkeep)
    obtain rfl : item.2 = value := heq
    rwa [← hself]

theorem lookup_streamPane (reports : List Report) (field value : String) :
    (streamPane reports field).lookup value =
      if Early reportPaneMaxValues (reports.map fun r => (r.field field).paneValue) value then
        some ⟨paneCount reports field value, paneCount reports field value⟩
      else none := by
  obtain ⟨-, hlookup⟩ := foldl_countValue (show reportPaneMaxValues ≠ 0 by decide)
    (reports.map fun r => (r.field field).paneValue)
  have hcount : (reports.map fun r => (r.field field).paneValue).count value =
      paneCount reports field value := by
    rw [List.count_eq_countP, List.countP_map, paneCount]
    exact List.countP_congr fun r _ => by simp
  rw [← hcount]
  split
  next h => exact (hlookup value).1 h
  next h => exact (hlookup value).2 h

end

/-- The hashes that are exact, with the values in some order. -/
def exactFacets (redis : Redis α) (field : String) : List (String × Option Int) :=
  (facetValues redis field).map fun value => (value, some (facetCount redis field value : Int))

theorem exact_exactFacets (redis : Redis α) :
    ExactFacets { redis with facets := exactFacets redis } := by
  intro field _
  have hvalues : (exactFacets redis field).map Prod.fst = facetValues redis field := by
    rw [exactFacets, List.map_map]
    exact List.map_id _
  refine ⟨?_, fun value count => ?_⟩
  · show ((exactFacets redis field).map Prod.fst).Nodup
    rw [hvalues]
    exact List.nodup_dedup _
  · show (value, count) ∈ exactFacets redis field ↔
      0 < facetCount redis field value ∧ count = some (facetCount redis field value : Int)
    rw [facetCount_pos, exactFacets, List.mem_map]
    constructor
    · rintro ⟨_, hmem, heq⟩
      obtain ⟨rfl, rfl⟩ := Prod.mk.inj heq
      exact ⟨List.mem_dedup.mp hmem, rfl⟩
    · rintro ⟨hmem, rfl⟩
      exact ⟨value, List.mem_dedup.mpr hmem, rfl⟩

theorem panesAgree_iff (redis : Redis α) (maxRedisRequests : Nat) :
    PanesAgree redis maxRedisRequests ↔ Balanced redis maxRedisRequests := by
  constructor
  · intro h reports htable field hfield value hgreatest hearly
    have hpane := lookup_facetPane (exact_exactFacets redis) hfield value
    have hsome : reportPaneFields.any (fun field => facetItems (exactFacets redis field) ≠ []) =
        true := by
      refine List.any_eq_true.mpr ⟨field, hfield, decide_eq_true fun hnone => ?_⟩
      have hperm := facetItems_perm (exact_exactFacets redis) hfield
      have hitem := hperm.symm.subset (List.mem_map_of_mem
        (List.mem_dedup.mpr (facetCount_pos.mp hgreatest.1)))
      rw [show facetItems (exactFacets redis field) = [] from hnone] at hitem
      cases hitem
    have hcount := h (exactFacets redis) (exact_exactFacets redis) _ (if_pos hsome) reports htable
      field hfield value _ _ ((congrArg (AList.lookup value) (if_pos hfield)).trans
        (hpane.trans (if_pos hgreatest)))
      ((lookup_streamPane reports field value).trans (if_pos hearly))
    exact Int.ofNat.inj (congrArg Count.total hcount)
  · intro h facets hexact panes hpanes reports htable field hfield value a b ha hb
    unfold panesFromFacets at hpanes
    split at hpanes
    next =>
      obtain rfl := Option.some.inj hpanes
      dsimp only at ha
      rw [if_pos hfield, lookup_facetPane hexact hfield] at ha
      rw [lookup_streamPane] at hb
      obtain ⟨hgreatest, ha⟩ := Option.ite_none_right_eq_some.mp ha
      obtain ⟨hearly, hb⟩ := Option.ite_none_right_eq_some.mp hb
      obtain rfl := Option.some.inj ha
      obtain rfl := Option.some.inj hb
      have hcount := h reports htable field hfield value hgreatest hearly
      show Count.mk (facetCount redis field value) (facetCount redis field value) = _
      rw [hcount]
    next => cases hpanes

/-! ## The result -/

/-- Two reports of one date. -/
def sameDate : Redis Report where
  requests := [⟨.hashable "a", .float 1, []⟩, ⟨.hashable "b", .float 1, []⟩]
  loads r := some (.dict r)
  facets _ := []

end BunkerWeb.Ui.ReportsQuery
