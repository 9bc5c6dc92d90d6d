import BunkerWeb.Db.ConfigsUnique

/-!
# Later saves of custom configurations

What `save_custom_configs` makes of a row that is there (`rewritten`) when `autoconf` saves with
`disable_cleanup`, for the rows of services, which have different keys.

- **One save** (`ofServices_savedRows`).
- **Another one** (`rewritten_rewritten`, `rewritten_drafted`): the same configurations again change
  nothing, and a row that has become a draft comes back.
- **Three saves** (`ofServices_comeback`): a service that is left out once has its rows again.
-/

namespace BunkerWeb.Db.CustomConfigs

open Lib

/-! ## Contents -/

/-- Contents are replaced where the checksums differ. -/
def replaced {Data Digest : Type} [DecidableEq Digest] (old new : Data × Digest) : Data × Digest :=
  if new.2 = old.2 then old else new

section

variable {Data Digest : Type} [DecidableEq Digest] {old new : Data × Digest}

@[simp] theorem replaced_snd : (replaced old new).2 = new.2 := by
  unfold replaced
  split
  next h => exact h.symm
  next => rfl

theorem replaced_of_eq (h : new.2 = old.2) : replaced old new = old := if_pos h

theorem foldl_replaced_of_same {l : List (Data × Digest)} (h : ∀ c ∈ l, c.2 = old.2) :
    l.foldl replaced old = old := by
  induction l with
  | nil => rfl
  | cons c l ih =>
    rw [List.foldl_cons, replaced_of_eq (h c List.mem_cons_self)]
    exact ih fun d hd => h d (List.mem_cons_of_mem _ hd)

/-- Either all checksums agree, or nothing is left of what was there. -/
theorem foldl_replaced_cases (new : Data × Digest) (l : List (Data × Digest)) :
    (∀ c ∈ l, c.2 = new.2) ∨ ∃ last, ∀ old, (new :: l).foldl replaced old = last := by
  induction l generalizing new with
  | nil => exact .inl nofun
  | cons c l ih =>
    rcases ih c with hsame | ⟨last, hlast⟩
    · by_cases hc : c.2 = new.2
      · refine .inl fun d hd => ?_
        rcases List.mem_cons.mp hd with rfl | hd
        · exact hc
        · exact (hsame d hd).trans hc
      · refine .inr ⟨l.foldl replaced c, fun old => ?_⟩
        have hne : c.2 ≠ (replaced old new).2 := by rwa [replaced_snd]
        rw [List.foldl_cons, List.foldl_cons, replaced, if_neg hne]
    · exact .inr ⟨last, fun old => hlast (replaced old new)⟩

theorem foldl_replaced_twice (l : List (Data × Digest)) (old : Data × Digest) :
    l.foldl replaced (l.foldl replaced old) = l.foldl replaced old := by
  cases l with
  | nil => rfl
  | cons c l =>
    rcases foldl_replaced_cases c l with hsame | ⟨last, hlast⟩
    · have honce : ∀ old, (c :: l).foldl replaced old = replaced old c := fun old =>
        foldl_replaced_of_same fun d hd => (hsame d hd).trans replaced_snd.symm
      rw [honce, honce]
      exact replaced_of_eq replaced_snd.symm
    · rw [hlast, hlast]

end

/-! ## One row -/

section

variable {Data Digest : Type} {rows entries l : List (Row Data Digest)} {r c : Row Data Digest}
  {service : String}

def Row.contents (r : Row Data Digest) : Data × Digest := (r.data, r.checksum)

/-- The row as a draft. -/
def Row.drafted (r : Row Data Digest) : Row Data Digest := { r with isDraft := true }

@[simp] theorem Row.drafted_key (r : Row Data Digest) : r.drafted.key = r.key := rfl

@[simp] theorem Row.drafted_method (r : Row Data Digest) : r.drafted.method = r.method := rfl

@[simp] theorem Row.drafted_contents (r : Row Data Digest) : r.drafted.contents = r.contents := rfl

theorem ofServices_cons (c : Row Data Digest) (l : List (Row Data Digest)) :
    ofServices (c :: l) = if c.key.1.isSome then c :: ofServices l else ofServices l :=
  List.filter_cons

theorem ofServices_append (l l' : List (Row Data Digest)) :
    ofServices (l ++ l') = ofServices l ++ ofServices l' := List.filter_append l l'

theorem any_ofServices {k : Key} (hk : k.1.isSome = true) :
    (ofServices rows).any (·.key = k) = rows.any (·.key = k) := by
  rw [ofServices, List.any_filter]
  refine congrArg rows.any (funext fun r => ?_)
  by_cases hr : r.key = k
  · simp [hr, hk]
  · simp [hr]

/-! ### The labels -/

/-- The configuration has the key among the others. -/
def Labelled (entries : List (Row Data Digest)) (k : Key) : Prop := k ∈ entries.map (filters ·.key)

instance (entries : List (Row Data Digest)) (k : Key) : Decidable (Labelled entries k) :=
  inferInstanceAs (Decidable (_ ∈ _))

/-- What is built of labels: whole keys, no drafts, all of `autoconf`. -/
structure OfLabels (entries : List (Row Data Digest)) : Prop where
  keys : ∀ c ∈ entries, filters c.key = c.key
  isPublic : ∀ c ∈ entries, c.isDraft = false
  methods : ∀ c ∈ entries, c.method = .autoconf

theorem filter_ne_nil {k : Key} (h : Labelled entries k) :
    entries.filter (filters ·.key = k) ≠ [] := by
  obtain ⟨c, hc, hk⟩ := List.mem_map.mp h
  exact List.ne_nil_of_mem (List.mem_filter.mpr ⟨hc, decide_eq_true hk⟩)

theorem OfLabels.filter (h : OfLabels entries) (k : Key) :
    ∀ c ∈ entries.filter (filters ·.key = k), c.isDraft = false :=
  fun c hc => h.isPublic c (List.mem_filter.mp hc).1

/-! ### Services that leave -/

/-- The rows of the services of the list become drafts. -/
def draftedOf (l : List String) (r : Row Data Digest) : Row Data Digest :=
  if r.key.1.any l.contains then r.drafted else r

@[simp] theorem draftedOf_key (l : List String) (r : Row Data Digest) :
    (draftedOf l r).key = r.key := by
  unfold draftedOf
  split
  · rfl
  · rfl

theorem ofServices_draftedOf (l : List String) (rows : List (Row Data Digest)) :
    ofServices (rows.map (draftedOf l)) = (ofServices rows).map (draftedOf l) := by
  rw [ofServices, List.filter_map, ofServices]
  refine congrArg (List.map _) (List.filter_congr fun r _ => ?_)
  rw [Function.comp_apply, draftedOf_key]

theorem unique_draftedOf (l : List String) (h : Unique (ofServices rows)) :
    Unique (ofServices (rows.map (draftedOf l))) := by
  unfold Unique
  rw [ofServices_draftedOf, List.map_map]
  have hkeys : Row.key ∘ draftedOf l = (Row.key : Row Data Digest → Key) :=
    funext fun r => draftedOf_key l r
  rw [hkeys]
  exact h

theorem contains_of_service {l : List String} {t : String} (hr : r.key.1 = some t) :
    r.key.1.any l.contains = true ↔ t ∈ l := by
  rw [hr, Option.any_some, List.contains_iff_mem]

/-- The configurations without those of a service. -/
def without (service : String) (entries : List (Row Data Digest)) : List (Row Data Digest) :=
  entries.filter (·.key.1 ≠ some service)

theorem OfLabels.without (h : OfLabels entries) : OfLabels (without service entries) where
  keys c hc := h.keys c (List.mem_filter.mp hc).1
  isPublic c hc := h.isPublic c (List.mem_filter.mp hc).1
  methods c hc := h.methods c (List.mem_filter.mp hc).1

theorem labelled_without (h : OfLabels entries) (k : Key) :
    Labelled (without service entries) k ↔
      Labelled entries k ∧ k.1 ≠ some service := by
  unfold Labelled CustomConfigs.without
  rw [List.mem_map, List.mem_map]
  constructor
  · rintro ⟨c, hc, rfl⟩
    obtain ⟨hc, hne⟩ := List.mem_filter.mp hc
    rw [h.keys c hc]
    exact ⟨⟨c, hc, h.keys c hc⟩, of_decide_eq_true hne⟩
  · rintro ⟨⟨c, hc, rfl⟩, hne⟩
    rw [h.keys c hc] at hne
    exact ⟨c, List.mem_filter.mpr ⟨hc, decide_eq_true hne⟩, rfl⟩

/-! ### What a save writes over -/

variable [DecidableEq Digest]

/-- `autoconf` may write over every row. -/
theorem overwrite_autoconf (c r : Row Data Digest) : overwrite .autoconf c r =
    { key := r.key
      data := (replaced r.contents c.contents).1
      checksum := (replaced r.contents c.contents).2
      method := if r.isDraft ≠ c.isDraft ∨ c.checksum ≠ r.checksum then .autoconf else r.method
      isDraft := c.isDraft } := by
  unfold overwrite replaced Row.contents
  by_cases h : c.checksum = r.checksum
  · simp [h]
  · simp [h]

/-- The row after the configurations of a list. -/
def after (l : List (Row Data Digest)) (r : Row Data Digest) : Row Data Digest :=
  l.foldl (fun r c => overwrite .autoconf c r) r

theorem after_cons (c : Row Data Digest) (l : List (Row Data Digest)) (r : Row Data Digest) :
    after (c :: l) r = after l (overwrite .autoconf c r) := rfl

theorem after_contents (l : List (Row Data Digest)) (r : Row Data Digest) :
    (after l r).contents = (l.map Row.contents).foldl replaced r.contents := by
  induction l generalizing r with
  | nil => rfl
  | cons c l ih =>
    rw [after_cons, ih, List.map_cons, List.foldl_cons, overwrite_autoconf]
    rfl

theorem after_method_of_autoconf (h : r.method = .autoconf) : (after l r).method = .autoconf := by
  induction l generalizing r with
  | nil => exact h
  | cons c l ih =>
    refine ih (r := overwrite .autoconf c r) ?_
    rw [overwrite_autoconf]
    show (if _ then Method.autoconf else r.method) = .autoconf
    rw [h, ite_self]

/-- A row that changes is one of `autoconf` from then on. -/
theorem after_method (l : List (Row Data Digest)) (r : Row Data Digest) :
    (after l r).method = .autoconf ∨ after l r = r := by
  induction l generalizing r with
  | nil => exact .inr rfl
  | cons c l ih =>
    rw [after_cons]
    by_cases hsame : r.isDraft ≠ c.isDraft ∨ c.checksum ≠ r.checksum
    · refine .inl (after_method_of_autoconf ?_)
      rw [overwrite_autoconf]
      exact if_pos hsame
    · obtain ⟨hdraft, hsum⟩ := not_or.mp hsame
      have hkept : overwrite .autoconf c r = r := by
        rw [overwrite_autoconf, if_neg hsame, replaced_of_eq (not_not.mp hsum)]
        rw [← not_not.mp hdraft]
        rfl
      rw [hkept]
      exact ih r

theorem after_key (l : List (Row Data Digest)) (r : Row Data Digest) :
    (after l r).key = r.key := by
  induction l generalizing r with
  | nil => rfl
  | cons c l ih => exact (ih _).trans (key_overwrite c r)

/-- Labels say nothing of drafts. -/
theorem after_isDraft (hl : l ≠ []) (hpublic : ∀ c ∈ l, c.isDraft = false) :
    (after l r).isDraft = false := by
  induction l generalizing r with
  | nil => exact absurd rfl hl
  | cons c l ih =>
    rw [after_cons]
    cases l with
    | nil =>
      show (overwrite .autoconf c r).isDraft = false
      rw [overwrite_autoconf]
      exact hpublic c List.mem_cons_self
    | cons d l => exact ih (List.cons_ne_nil d l) fun x hx => hpublic x (List.mem_cons_of_mem _ hx)

/-- Rows of `autoconf` with the same contents end as the same row. -/
theorem after_congr {r' : Row Data Digest} (hl : l ≠ []) (hpublic : ∀ c ∈ l, c.isDraft = false)
    (hkey : r.key = r'.key)
    (hcontents : (after l r).contents = (after l r').contents)
    (hr : (after l r).method = .autoconf) (hr' : (after l r').method = .autoconf) :
    after l r = after l r' := by
  have hdraft : (after l r).isDraft = false := after_isDraft hl hpublic
  have hdraft' : (after l r').isDraft = false := after_isDraft hl hpublic
  have hk := after_key l r
  have hk' := after_key l r'
  generalize after l r = a at *
  generalize after l r' = b at *
  obtain ⟨ka, da, ca, ma, ia⟩ := a
  obtain ⟨kb, db, cb, mb, ib⟩ := b
  obtain ⟨rfl, rfl⟩ := Prod.mk.inj hcontents
  simp_all

/-- The same configurations again change nothing. -/
theorem after_after (hl : l ≠ []) (hpublic : ∀ c ∈ l, c.isDraft = false) (r : Row Data Digest) :
    after l (after l r) = after l r := by
  rcases after_method l r with hmethod | hsame
  · refine after_congr hl hpublic (after_key l r) ?_ (after_method_of_autoconf hmethod) hmethod
    rw [after_contents l (after l r), after_contents l r, foldl_replaced_twice]
  · rw [hsame, hsame]

/-- A draft is published with the contents that it has. -/
theorem after_drafted (hl : l ≠ []) (hpublic : ∀ c ∈ l, c.isDraft = false)
    (hsame : after l r = r) (hmethod : r.method = .autoconf) : after l r.drafted = r := by
  have hcontents : (after l r.drafted).contents = (after l r).contents := by
    rw [after_contents, after_contents, r.drafted_contents]
  have hstays : (after l r).method = .autoconf := by
    rw [hsame]
    exact hmethod
  exact (after_congr hl hpublic r.drafted_key hcontents (after_method_of_autoconf hmethod)
    hstays).trans hsame

theorem after_method_drafted (hl : l ≠ []) (hpublic : ∀ c ∈ l, c.isDraft = false) :
    (after l r.drafted).method = .autoconf := by
  cases l with
  | nil => exact absurd rfl hl
  | cons c l =>
    rw [after_cons]
    refine after_method_of_autoconf ?_
    rw [overwrite_autoconf]
    refine if_pos (.inl ?_)
    rw [hpublic c List.mem_cons_self]
    exact Bool.noConfusion

/-! ## The rows of services -/

theorem filter_modifyFirst_of_pos {α : Type} {p q : α → Bool} {g : α → α}
    (hq : ∀ x, q (g x) = q x) (hp : ∀ x, p x = true → q x = true) (l : List α) :
    (Scheduler.modifyFirst p g l).filter q = Scheduler.modifyFirst p g (l.filter q) := by
  induction l with
  | nil => rfl
  | cons a l ih =>
    rw [Scheduler.modifyFirst]
    by_cases ha : p a = true
    · have hqa := hp a ha
      rw [if_pos ha, List.filter_cons_of_pos ((hq a).trans hqa), List.filter_cons_of_pos hqa,
        Scheduler.modifyFirst, if_pos ha]
    · rw [if_neg ha]
      by_cases hqa : q a = true
      · rw [List.filter_cons_of_pos hqa, List.filter_cons_of_pos hqa, ih, Scheduler.modifyFirst,
          if_neg ha]
      · rw [List.filter_cons_of_neg hqa, List.filter_cons_of_neg hqa, ih]

theorem filter_modifyFirst_of_neg {α : Type} {p q : α → Bool} {g : α → α}
    (hq : ∀ x, q (g x) = q x) (hp : ∀ x, p x = true → ¬ q x = true) (l : List α) :
    (Scheduler.modifyFirst p g l).filter q = l.filter q := by
  induction l with
  | nil => rfl
  | cons a l ih =>
    rw [Scheduler.modifyFirst]
    by_cases ha : p a = true
    · have hqa := hp a ha
      rw [if_pos ha, List.filter_cons_of_neg hqa, List.filter_cons_of_neg fun h => hqa ?_]
      rw [← hq a]
      exact h
    · rw [if_neg ha]
      by_cases hqa : q a = true
      · rw [List.filter_cons_of_pos hqa, List.filter_cons_of_pos hqa, ih]
      · rw [List.filter_cons_of_neg hqa, List.filter_cons_of_neg hqa, ih]

/-- A configuration of a service is about the rows of services, and any other is not. -/
theorem ofServices_put (st : List (Row Data Digest) × List (Row Data Digest))
    (hkey : filters c.key = c.key) :
    (ofServices (put .autoconf st c).1, ofServices (put .autoconf st c).2) =
      if c.key.1.isSome then put .autoconf (ofServices st.1, ofServices st.2) c
      else (ofServices st.1, ofServices st.2) := by
  have hq : ∀ r : Row Data Digest, (overwrite .autoconf c r).key.1.isSome = r.key.1.isSome :=
    fun r => by rw [key_overwrite]
  by_cases hc : c.key.1.isSome = true
  · rw [if_pos hc, put, put, hkey, any_ofServices hc]
    split
    · refine Prod.ext ?_ rfl
      refine filter_modifyFirst_of_pos hq (fun r hr => ?_) _
      rw [of_decide_eq_true hr]
      exact hc
    · refine Prod.ext rfl ?_
      show ofServices (st.2 ++ [c]) = ofServices st.2 ++ [c]
      rw [ofServices_append, ofServices_cons, if_pos hc]
      rfl
  · rw [if_neg hc, put, hkey]
    split
    · refine Prod.ext ?_ rfl
      refine filter_modifyFirst_of_neg hq (fun r hr => ?_) _
      rw [of_decide_eq_true hr]
      exact hc
    · refine Prod.ext rfl ?_
      show ofServices (st.2 ++ [c]) = ofServices st.2
      rw [ofServices_append, ofServices_cons, if_neg hc]
      exact List.append_nil _

theorem ofServices_foldl_put (hkeys : ∀ c ∈ entries, filters c.key = c.key)
    (st : List (Row Data Digest) × List (Row Data Digest)) :
    (ofServices (entries.foldl (put .autoconf) st).1,
      ofServices (entries.foldl (put .autoconf) st).2) =
        (ofServices entries).foldl (put .autoconf) (ofServices st.1, ofServices st.2) := by
  induction entries generalizing st with
  | nil => rfl
  | cons c entries ih =>
    rw [List.foldl_cons, ih (fun d hd => hkeys d (List.mem_cons_of_mem _ hd)),
      ofServices_put st (hkeys c List.mem_cons_self), ofServices_cons]
    split
    · rfl
    · rfl

/-- What a save makes of a row that is there. -/
def rewritten (entries : List (Row Data Digest)) (r : Row Data Digest) : Row Data Digest :=
  if Labelled entries r.key then settled .autoconf entries r
  else if r.method = .autoconf then r.drafted else r

theorem settled_ofServices (hr : r.key.1.isSome = true)
    (hkeys : ∀ c ∈ entries, filters c.key = c.key) :
    settled .autoconf (ofServices entries) r = settled .autoconf entries r := by
  unfold settled ofServices
  rw [List.filter_filter]
  refine congrArg (List.foldl _ r) (List.filter_congr fun c hc => ?_)
  by_cases h : filters c.key = r.key
  · rw [← hkeys c hc, h, hr]
    simp
  · simp [h]

/-- Rows of services after a save. -/
theorem ofServices_savedRows (h : Unique (ofServices rows))
    (hkeys : ∀ c ∈ entries, filters c.key = c.key) :
    ofServices (savedRows rows entries .autoconf true) =
      (ofServices rows).map (rewritten entries) ++
        newOnes (ofServices rows) (ofServices entries) := by
  have hfold := ofServices_foldl_put hkeys (rows, [])
  rw [show ofServices ((rows, []) : List (Row Data Digest) × List (Row Data Digest)).2 = [] from rfl,
    foldl_put h, List.nil_append] at hfold
  obtain ⟨hfirst, hsecond⟩ := Prod.mk.inj hfold
  show ofServices (draftOrphans _ _ ++ _) = _
  rw [ofServices, List.filter_append]
  refine congrArg₂ (· ++ ·) ?_ hsecond
  have hdraft : ∀ l : List (Row Data Digest),
      (draftOrphans (entries.map (filters ·.key)) l).filter (·.key.1.isSome) =
        draftOrphans (entries.map (filters ·.key)) (ofServices l) := fun l => by
    rw [draftOrphans, List.filter_map, draftOrphans, ofServices]
    refine congrArg (List.map _) (List.filter_congr fun r _ => ?_)
    show (if _ then _ else r).key.1.isSome = r.key.1.isSome
    split
    · rfl
    · rfl
  have hkept : kept rows .autoconf true = rows := rfl
  rw [hkept, hdraft, hfirst, draftOrphans, List.map_map]
  refine List.map_congr_left fun r hr => ?_
  have hsome : r.key.1.isSome = true := (List.mem_filter.mp hr).2
  rw [Function.comp_apply, settled_ofServices hsome hkeys, key_settled, rewritten]
  by_cases hk : Labelled entries r.key
  · rw [if_pos hk, if_neg fun hno => hno.2 hk]
  · have hnone : settled .autoconf entries r = r := by
      unfold settled
      rw [List.filter_eq_nil_iff.mpr fun c hc => ?_, List.foldl_nil]
      rw [decide_eq_true_eq]
      exact fun he => hk (List.mem_map.mpr ⟨c, hc, he⟩)
    rw [if_neg hk, hnone]
    by_cases hm : r.method = .autoconf
    · rw [if_pos hm, if_pos ⟨hm, hk⟩]
      rfl
    · rw [if_neg hm, if_neg fun hand => hm hand.1]

/-! ## Later saves -/

theorem rewritten_of_labelled (h : Labelled entries r.key) :
    rewritten entries r = after (entries.filter (filters ·.key = r.key)) r := if_pos h

@[simp] theorem rewritten_key (entries : List (Row Data Digest)) (r : Row Data Digest) :
    (rewritten entries r).key = r.key := by
  unfold rewritten
  split
  · exact key_settled entries r
  · split
    · rfl
    · rfl

theorem rewritten_rewritten (h : OfLabels entries) (r : Row Data Digest) :
    rewritten entries (rewritten entries r) = rewritten entries r := by
  by_cases hk : Labelled entries r.key
  · have hagain : Labelled entries (rewritten entries r).key := by rwa [rewritten_key]
    rw [rewritten_of_labelled hagain, rewritten_key, rewritten_of_labelled hk]
    exact after_after (filter_ne_nil hk) (h.filter _) r
  · unfold rewritten
    rw [if_neg hk]
    by_cases hm : r.method = .autoconf
    · rw [if_pos hm, r.drafted_key, if_neg hk, r.drafted_method, if_pos hm]
      rfl
    · rw [if_neg hm, if_neg hk, if_neg hm]

/-- A row of `autoconf` that a save leaves as it is comes back when it has become a draft. -/
theorem rewritten_drafted (h : OfLabels entries) (hsame : rewritten entries r = r)
    (hm : r.method = .autoconf) : rewritten entries r.drafted = r := by
  by_cases hk : Labelled entries r.key
  · rw [rewritten_of_labelled hk] at hsame
    rw [rewritten_of_labelled (r := r.drafted) hk]
    exact after_drafted (filter_ne_nil hk) (h.filter _) hsame hm
  · have hdraft : r.drafted = r := by
      unfold rewritten at hsame
      rwa [if_neg hk, if_pos hm] at hsame
    rw [hdraft, hsame]

theorem rewritten_drafted_twice (h : OfLabels entries) (r : Row Data Digest) :
    rewritten entries (rewritten entries r.drafted).drafted = rewritten entries r.drafted := by
  by_cases hm : (rewritten entries r.drafted).method = .autoconf
  · exact rewritten_drafted h (rewritten_rewritten h _) hm
  · have hk : ¬ Labelled entries r.key := fun hk => by
      rw [rewritten_of_labelled (r := r.drafted) hk] at hm
      exact hm (after_method_drafted (filter_ne_nil hk) (h.filter _))
    have hsame : rewritten entries r.drafted = r.drafted := by
      unfold rewritten
      rw [r.drafted_key, if_neg hk]
      split
      · rfl
      · rfl
    rw [hsame]
    exact hsame

/-- A configuration that is put is as a later save leaves it. -/
theorem rewritten_newOne (h : OfLabels entries)
    (hunique : Unique (newOnes (ofServices rows) (ofServices entries)))
    (hc : c ∈ newOnes (ofServices rows) (ofServices entries)) : rewritten entries c = c := by
  obtain ⟨hentry, hnew⟩ := List.mem_filter.mp hc
  obtain ⟨hmem, hsome⟩ := List.mem_filter.mp hentry
  have hk : Labelled entries c.key := List.mem_map.mpr ⟨c, hmem, h.keys c hmem⟩
  have hsame : ∀ d ∈ entries.filter (filters ·.key = c.key), d = c := fun d hd => by
    obtain ⟨hd, hkey⟩ := List.mem_filter.mp hd
    have hkey : d.key = c.key := (h.keys d hd).symm.trans (of_decide_eq_true hkey)
    refine hunique.eq_of_key (List.mem_filter.mpr ⟨List.mem_filter.mpr ⟨hd, ?_⟩, ?_⟩) hc hkey
    · rw [hkey]
      exact hsome
    · rw [hkey]
      exact hnew
  rw [rewritten_of_labelled hk]
  generalize entries.filter _ = l at hsame
  induction l with
  | nil => rfl
  | cons d l ih =>
    obtain rfl := hsame d List.mem_cons_self
    have hself : overwrite .autoconf d d = d := by
      rw [overwrite_autoconf, replaced_of_eq rfl, if_neg (by simp)]
      rfl
    rw [after_cons, hself]
    exact ih fun x hx => hsame x (List.mem_cons_of_mem _ hx)

/-- Every configuration of a service has its row after a save. -/
theorem exists_row_of_entry (h : Unique (ofServices rows))
    (hkeys : ∀ c ∈ entries, filters c.key = c.key) (hc : c ∈ ofServices entries) :
    ∃ r ∈ ofServices (savedRows rows entries .autoconf true), r.key = c.key := by
  rw [ofServices_savedRows h hkeys]
  have hkey : filters c.key = c.key := hkeys c (List.mem_filter.mp hc).1
  by_cases hrow : (ofServices rows).any (·.key = filters c.key) = true
  · obtain ⟨r, hr, he⟩ := List.any_eq_true.mp hrow
    refine ⟨rewritten entries r, List.mem_append_left _ (List.mem_map_of_mem hr), ?_⟩
    rw [rewritten_key, of_decide_eq_true he, hkey]
  · refine ⟨c, List.mem_append_right _ (List.mem_filter.mpr ⟨hc, ?_⟩), rfl⟩
    rw [Bool.not_eq_true', Bool.eq_false_iff]
    exact hrow

/-- A save puts nothing new where every configuration of a service has its row. -/
theorem ofServices_savedRows_of_known (h : Unique (ofServices rows))
    (hkeys : ∀ c ∈ entries, filters c.key = c.key)
    (hknown : ∀ c ∈ ofServices entries, ∃ r ∈ ofServices rows, r.key = c.key) :
    ofServices (savedRows rows entries .autoconf true) =
      (ofServices rows).map (rewritten entries) := by
  rw [ofServices_savedRows h hkeys]
  have hnone : newOnes (ofServices rows) (ofServices entries) = [] := by
    refine List.filter_eq_nil_iff.mpr fun c hc => ?_
    obtain ⟨r, hr, hk⟩ := hknown c hc
    have hkey : filters c.key = c.key := hkeys c (List.mem_filter.mp hc).1
    rw [Bool.not_eq_true', Bool.not_eq_false]
    exact List.any_eq_true.mpr ⟨r, hr, decide_eq_true (hk.trans hkey.symm)⟩
  rw [hnone, List.append_nil]

/-! ## A service that leaves -/

/-- The rows of the other services do not notice. -/
theorem rewritten_without (h : OfLabels entries) (hr : r.key.1 ≠ some service) :
    rewritten (without service entries) r = rewritten entries r := by
  have hsame : settled .autoconf (without service entries) r =
      settled .autoconf entries r := by
    unfold settled CustomConfigs.without
    rw [List.filter_filter]
    refine congrArg (List.foldl _ r) (List.filter_congr fun c hc => ?_)
    by_cases hk : filters c.key = r.key
    · have hne : c.key.1 ≠ some service := by
        rwa [← h.keys c hc, hk]
      simp [hk, hne]
    · simp [hk]
  unfold rewritten
  rw [hsame]
  simp only [labelled_without h, and_iff_left hr]

theorem rewritten_without_own (h : OfLabels entries) (hr : r.key.1 = some service) :
    rewritten (without service entries) r.drafted = r.drafted := by
  have hno : ¬ Labelled (without service entries) r.drafted.key :=
    fun hk => ((labelled_without h _).mp hk).2 hr
  unfold rewritten
  rw [if_neg hno]
  split
  · rfl
  · rfl

/-- What a save leaves is what the next one leaves, of drafts too where the service was gone. -/
theorem rewritten_of_saved {l : List String} {t : String} (h : OfLabels entries)
    (hrows : Unique (ofServices rows))
    (hunique : Unique (ofServices (savedRows (rows.map (draftedOf l)) entries .autoconf true)))
    (hr : r ∈ ofServices (savedRows (rows.map (draftedOf l)) entries .autoconf true))
    (ht : r.key.1 = some t) :
    rewritten entries r = r ∧ (t ∈ l → rewritten entries r.drafted = r) := by
  have heq := ofServices_savedRows (unique_draftedOf l hrows) h.keys
  rw [heq] at hr hunique
  rcases List.mem_append.mp hr with hr | hr
  · obtain ⟨r₁, hr₁, rfl⟩ := List.mem_map.mp hr
    refine ⟨rewritten_rewritten h r₁, fun hl => ?_⟩
    rw [ofServices_draftedOf] at hr₁
    obtain ⟨r₀, -, rfl⟩ := List.mem_map.mp hr₁
    rw [rewritten_key, draftedOf_key] at ht
    rw [draftedOf, if_pos ((contains_of_service ht).mpr hl)]
    exact rewritten_drafted_twice h r₀
  · have hnew : Unique (newOnes (ofServices (rows.map (draftedOf l))) (ofServices entries)) :=
      hunique.sublist (List.sublist_append_right _ _)
    have hsame := rewritten_newOne h hnew hr
    have hmem := (List.mem_filter.mp (List.mem_filter.mp hr).1).1
    exact ⟨hsame, fun _ => rewritten_drafted h hsame (h.methods r hmem)⟩

/-- Three saves: the rows of the services are in the end as the first one left them. -/
theorem ofServices_comeback (h : OfLabels entries) {l₀ l₁ l₂ : List String}
    {rows₁ rows₂ : List (Row Data Digest)} (hrows : Unique (ofServices rows))
    (h₁ : rows₁ = savedRows (rows.map (draftedOf l₀)) entries .autoconf true)
    (h₂ : rows₂ = savedRows (rows₁.map (draftedOf l₁)) (without service entries) .autoconf true)
    (hu₁ : Unique (ofServices rows₁)) (hu₂ : Unique (ofServices rows₂))
    (hothers : ∀ t, t ≠ service → (t ∈ l₁ ↔ t ∈ l₀) ∧ (t ∈ l₂ ↔ t ∈ l₀)) (hleft : service ∈ l₁)
    (hback : service ∉ l₂) (hown : ∀ r ∈ rows₁, r.key.1 = some service → r.method = .autoconf) :
    ofServices (savedRows (rows₂.map (draftedOf l₂)) entries .autoconf true) =
      ofServices rows₁ := by
  have hentry : ∀ c ∈ ofServices entries, ∃ r ∈ ofServices rows₁, r.key = c.key := fun c hc => by
    rw [h₁]
    exact exists_row_of_entry (unique_draftedOf l₀ hrows) h.keys hc
  have hentry₁ : ∀ c ∈ ofServices entries, ∃ r ∈ ofServices (rows₁.map (draftedOf l₁)),
      r.key = c.key := fun c hc => by
    obtain ⟨r, hr, hk⟩ := hentry c hc
    rw [ofServices_draftedOf]
    exact ⟨_, List.mem_map_of_mem hr, (draftedOf_key l₁ r).trans hk⟩
  have hrows₂ : ofServices rows₂ =
      ((ofServices rows₁).map (draftedOf l₁)).map (rewritten (without service entries)) := by
    rw [h₂, ofServices_savedRows_of_known (unique_draftedOf l₁ hu₁) h.without.keys fun c hc => ?_,
      ofServices_draftedOf]
    refine hentry₁ c (List.mem_filter.mpr ⟨?_, (List.mem_filter.mp hc).2⟩)
    exact (List.mem_filter.mp (List.mem_filter.mp hc).1).1
  have hentry₂ : ∀ c ∈ ofServices entries, ∃ r ∈ ofServices (rows₂.map (draftedOf l₂)),
      r.key = c.key := fun c hc => by
    obtain ⟨r, hr, hk⟩ := hentry c hc
    rw [ofServices_draftedOf, hrows₂]
    refine ⟨_, List.mem_map_of_mem (List.mem_map_of_mem (List.mem_map_of_mem hr)), ?_⟩
    rw [draftedOf_key, rewritten_key, draftedOf_key, hk]
  rw [ofServices_savedRows_of_known (unique_draftedOf l₂ hu₂) h.keys hentry₂, ofServices_draftedOf,
    hrows₂, List.map_map, List.map_map, List.map_map]
  refine (List.map_congr_left fun r hr => ?_).trans (List.map_id _)
  show rewritten entries (draftedOf l₂ (rewritten (without service entries) (draftedOf l₁ r))) = r
  obtain ⟨hmem, hsome⟩ := List.mem_filter.mp hr
  obtain ⟨t, ht⟩ := Option.isSome_iff_exists.mp hsome
  obtain ⟨hsame, hgone⟩ := rewritten_of_saved h hrows (h₁ ▸ hu₁) (h₁ ▸ hr) ht
  have hone : ∀ r' : Row Data Digest, r'.key = r.key → ∀ l : List String,
      draftedOf l r' = if t ∈ l then r'.drafted else r' := fun r' hk l => by
    have hiff : r'.key.1.any l.contains = true ↔ t ∈ l := contains_of_service (hk ▸ ht)
    simp only [draftedOf, hiff]
  by_cases hservice : t = service
  · subst hservice
    have hm : r.method = .autoconf := hown r hmem ht
    rw [hone r rfl, if_pos hleft, rewritten_without_own h ht, hone r.drafted rfl, if_neg hback]
    exact rewritten_drafted h hsame hm
  · have hne : r.key.1 ≠ some service := by
      rw [ht]
      exact fun he => hservice (Option.some.inj he)
    obtain ⟨hl₁, hl₂⟩ := hothers t hservice
    rw [hone r rfl]
    by_cases hl : t ∈ l₀
    · rw [if_pos (hl₁.mpr hl), rewritten_without (r := r.drafted) h hne, hgone hl, hone r rfl,
        if_pos (hl₂.mpr hl), hgone hl]
    · rw [if_neg fun hmem => hl (hl₁.mp hmem), rewritten_without h hne, hsame, hone r rfl,
        if_neg fun hmem => hl (hl₂.mp hmem), hsame]

end

end BunkerWeb.Db.CustomConfigs
