import BunkerWeb.Scheduler.SavedConfigs
import Mathlib.Data.Finset.Dedup
import Mathlib.Data.Finset.Max

/-!
# The files of custom configurations after a check

- `Tree`: the files that the claim of a round trip is about.
- `RoundTrips`: every file is where it was, with its content, and no two became one.
- `Undisturbed`: nothing else is written under the name of a file.
- `roundTrips_iff`: then the files that come back are those that are `Kept`.
-/

namespace BunkerWeb.Scheduler

open Lib

variable {db : Db} {files : List File}

/-- Files whose names end in `.conf`, each at its own path, at the level of a type or of a service
that exists; rows of other methods that have the key of no other one. -/
structure Tree (db : Db) (files : List File) : Prop where
  conf : ∀ f ∈ files, dotConf <:+ f.name
  paths : (files.map File.path).Nodup
  services : ∀ f ∈ files, ∀ s ∈ f.service, (db.services.lookup s).isSome
  ids : db.services.lookup [] = none
  rows : ((db.rows.filter (·.method ≠ .manual)).map Row.key).Nodup

/-- Where the configuration of a file is written. -/
def File.writtenAt (f : File) : Path := Config.target ⟨f.exploded, f.text, false⟩

/-- Every file is there after the check, with the same content, and no two files were merged. -/
def RoundTrips (db : Db) (files : List File) : Prop :=
  (∀ f ∈ files, contentAfter db files f.path = some f.text) ∧
    ∀ f ∈ files, ∀ g ∈ files, f.writtenAt = g.writtenAt → f = g

/-- A configuration without a dot in its name, or one that is not written over a file. -/
def Elsewhere (files : List File) (c : Config) : Prop :=
  pathStem c.key.2.2 = c.key.2.2 ∨ ∀ f ∈ files, c.target ≠ f.path

/-- No directory of a service has the name of a type, no file is named by dots in front of `.conf`,
and no configuration of another method or of a template loses what is behind a dot in its name and
is then written over a file. -/
structure Undisturbed (db : Db) (files : List File) : Prop where
  dirs : ∀ f ∈ files, ∀ s ∈ f.service, ConfigType.ofDir s = none
  dots : ∀ f ∈ files, stem f.name ++ dotConf = f.name
  rows : ∀ r ∈ db.rows, r.method ≠ .manual → Elsewhere files r.config
  offers : ∀ o ∈ db.offered, Elsewhere files o.config

/-- The rows of other methods. -/
def Db.others (db : Db) : List Row := db.rows.filter (·.method ≠ .manual)

/-- The row of another method that has the key of a file. -/
def Db.rowOf (db : Db) (f : File) : Option Row := db.others.find? (·.key = f.exploded)

/-- What is left for a file whose configuration is not saved: what a template has for it. -/
def Db.offers (db : Db) (f : File) : Prop := ∃ o, db.offer f.exploded = some o ∧ o.data = f.text

/-- What the name, the content and the state of the database have to be for a file to come back. -/
structure Kept (db : Db) (f : File) : Prop where
  /-- No dot in front of `.conf`. -/
  name : pathStem (stem f.name) = stem f.name
  nonempty : f.text ≠ []
  service : f.service.all db.allowed = true
  compatible : db.incompatible f.exploded = false
  content :
    match db.rowOf f with
    | some r =>
      if f.saved db.getCustomConfigs = true ∧ r.method.isUi = true then '\r' ∉ f.text
      else if r.isDraft then db.offers f else r.data = f.text
    | none => if f.saved db.getCustomConfigs = true then '\r' ∉ f.text else db.offers f

/-! ## Keys -/

theorem Undisturbed.exploded (h : Undisturbed db files) {f : File} (hf : f ∈ files) :
    f.exploded = (f.service, f.type, stem f.name) := by
  unfold File.exploded
  split
  next hs => rw [hs]
  next s hs =>
    rw [h.dirs f hf s hs]
    simp only [hs]

theorem eq_of_exploded (ht : Tree db files) (h : Undisturbed db files) {f g : File}
    (hf : f ∈ files) (hg : g ∈ files) (hkey : f.exploded = g.exploded) : f = g := by
  rw [h.exploded hf, h.exploded hg] at hkey
  obtain ⟨hservice, htype, hstem⟩ : f.service = g.service ∧ f.type = g.type ∧
    stem f.name = stem g.name := by simpa [and_assoc] using hkey
  refine List.inj_on_of_nodup_map ht.paths hf hg ?_
  show (f.type, f.service, f.name) = (g.type, g.service, g.name)
  rw [hservice, htype, ← h.dots f hf, ← h.dots g hg, hstem]

/-! ## The rows after a check -/

/-- The files that are saved. -/
def savedFiles (db : Db) (files : List File) : List File :=
  files.filter (·.saved db.getCustomConfigs)

theorem nodup_exploded (ht : Tree db files) (h : Undisturbed db files) :
    (((savedFiles db files).map File.incoming).map Incoming.exploded).Nodup := by
  rw [List.map_map]
  refine List.Nodup.map_on (fun f hf g hg hkey => ?_) ((ht.paths.of_map _).filter _)
  exact eq_of_exploded ht h (List.mem_of_mem_filter hf) (List.mem_of_mem_filter hg) hkey

/-- The rows after the check: the files are put as they are read into the rows of other methods,
and those without one into new rows. -/
def rowsAfter (db : Db) (files : List File) : List Row :=
  let incoming := (savedFiles db files).map File.incoming
  db.others.map (settled .manual incoming) ++
    (incoming.filter fun c => !db.others.any (·.key = c.exploded)).map (newRow .manual)

theorem afterCheck_eq (ht : Tree db files) (h : Undisturbed db files) (hne : files ≠ []) :
    db.afterCheck files = { db with rows := rowsAfter db files } := by
  -- Either a configuration is saved, or the database has one, or the last file is one of neither.
  have hchanges : ((files.filter (!·.saved db.getCustomConfigs)).getLast?.any
      (!·.fromTemplate db.getCustomConfigs) ||
      !((files.filter (·.saved db.getCustomConfigs)).isEmpty && db.getCustomConfigs.isEmpty)) =
        true := by
    by_contra hno
    rw [Bool.not_eq_true, Bool.or_eq_false_iff, Bool.not_eq_false', Bool.and_eq_true,
      List.isEmpty_iff, List.isEmpty_iff] at hno
    obtain ⟨hlast, hsaved, hdb⟩ := hno
    have hall : files.filter (!·.saved db.getCustomConfigs) = files := by
      rw [List.filter_eq_self]
      intro f hf
      have := List.filter_eq_nil_iff.mp hsaved f hf
      simpa using this
    rw [hall, List.getLast?_eq_getLast_of_ne_nil hne, Option.any_some, hdb] at hlast
    simp [File.fromTemplate] at hlast
  have hkeys := nodup_exploded ht h
  have haccepts : db.accepts ((((savedFiles db files).map File.incoming).filter fun c =>
      !db.others.any (·.key = c.exploded)).map (newRow .manual)) = true := by
    rw [Db.accepts, Bool.and_eq_true, List.all_eq_true, decide_eq_true_eq]
    constructor
    · intro r hr
      obtain ⟨c, hc, rfl⟩ := List.mem_map.mp (List.mem_of_mem_filter hr)
      obtain ⟨f, hf, rfl⟩ := List.mem_map.mp (List.mem_of_mem_filter hc)
      have hfile : f ∈ files := List.mem_of_mem_filter hf
      show f.exploded.1.all _ = true
      rw [h.exploded hfile, Option.all_eq_true]
      exact fun s hs => ht.services f hfile s hs
    · refine List.Nodup.sublist (List.filter_sublist.map _) ?_
      rw [List.map_map]
      exact hkeys.sublist (List.filter_sublist.map _)
  rw [Db.afterCheck, if_pos hchanges, Db.saveCustomConfigs, if_neg (by simp [Db.Method.isUi])]
  have hfold := foldl_putConfig .manual hkeys ht.rows []
  rw [List.nil_append] at hfold
  show (fun st : List Row × List Row =>
    if db.accepts st.2 = true then ({ db with rows := st.1 ++ st.2 } : Db) else db)
      (((savedFiles db files).map File.incoming).foldl (putConfig .manual) (db.others, [])) = _
  rw [show db.others = db.rows.filter (·.method ≠ .manual) from rfl, hfold]
  exact if_pos haccepts

/-- The row that a check leaves for a file. -/
def finalRow (db : Db) (f : File) : Option Row :=
  match db.rowOf f with
  | some r =>
    some (if f.saved db.getCustomConfigs = true ∧ r.method.isUi = true then
      { r with data := readText f.text, isDraft := false } else r)
  | none => if f.saved db.getCustomConfigs = true then some (newRow .manual f.incoming) else none

/-- Of the files that are saved only `f` has its key. -/
theorem find_incoming (ht : Tree db files) (h : Undisturbed db files) {f : File} (hf : f ∈ files) :
    ((savedFiles db files).map File.incoming).find? (·.exploded = f.exploded) =
      if f.saved db.getCustomConfigs = true then some f.incoming else none := by
  have hother : ∀ g ∈ savedFiles db files, g.exploded = f.exploded → g = f := fun g hg hkey =>
    eq_of_exploded ht h (List.mem_of_mem_filter hg) hf hkey
  split
  next hsaved =>
    cases hfind : ((savedFiles db files).map File.incoming).find? (·.exploded = f.exploded) with
    | none =>
      refine absurd ?_ (List.find?_eq_none.mp hfind f.incoming
        (List.mem_map_of_mem (List.mem_filter.mpr ⟨hf, hsaved⟩)))
      exact decide_eq_true rfl
    | some c =>
      obtain ⟨g, hg, rfl⟩ := List.mem_map.mp (List.mem_of_find?_eq_some hfind)
      have hkey := List.find?_some hfind
      rw [hother g hg (of_decide_eq_true hkey)]
  next hsaved =>
    refine List.find?_eq_none.mpr fun c hc hkey => hsaved ?_
    obtain ⟨g, hg, rfl⟩ := List.mem_map.mp hc
    rw [← hother g hg (of_decide_eq_true hkey)]
    exact (List.mem_filter.mp hg).2

theorem mem_rowsAfter (ht : Tree db files) (h : Undisturbed db files) {f : File} (hf : f ∈ files)
    {r : Row} : r ∈ rowsAfter db files ∧ r.key = f.exploded ↔ finalRow db f = some r := by
  have hfind := find_incoming ht h hf
  rw [rowsAfter, List.mem_append, List.mem_map, finalRow]
  cases hrow : db.rowOf f with
  | some r₀ =>
    have hr₀ := List.mem_of_find?_eq_some hrow
    have hkey₀ : r₀.key = f.exploded := by
      have hkey := List.find?_some (show db.others.find? (·.key = f.exploded) = _ from hrow)
      exact of_decide_eq_true hkey
    have hsettled : settled .manual ((savedFiles db files).map File.incoming) r₀ =
        if f.saved db.getCustomConfigs = true ∧ r₀.method.isUi = true then
          { r₀ with data := readText f.text, isDraft := false } else r₀ := by
      have hmanual : r₀.method ≠ .manual := of_decide_eq_true (List.mem_filter.mp hr₀).2
      have hfind₀ : ((savedFiles db files).map File.incoming).find? (·.exploded = r₀.key) =
          if f.saved db.getCustomConfigs = true then some f.incoming else none := by
        rw [hkey₀]
        exact hfind
      rw [settled, hfind₀]
      by_cases hsaved : f.saved db.getCustomConfigs = true
      · rw [if_pos hsaved]
        show overwrite .manual f.incoming r₀ = _
        rw [overwrite_manual hmanual]
        simp only [hsaved, true_and]
        rfl
      · rw [if_neg hsaved, if_neg fun hs => hsaved hs.1]
    constructor
    · rintro ⟨⟨r', hr', rfl⟩ | hr, hkey⟩
      · rw [key_settled] at hkey
        rw [List.inj_on_of_nodup_map ht.rows hr' hr₀ (hkey.trans hkey₀.symm), hsettled]
      · obtain ⟨c, hc, rfl⟩ := List.mem_map.mp hr
        have hno := (List.mem_filter.mp hc).2
        rw [Bool.not_eq_true', List.any_eq_false] at hno
        exact absurd (decide_eq_true (hkey₀.trans hkey.symm)) (hno r₀ hr₀)
    · simp only
      intro hr
      rw [← hsettled, Option.some.injEq] at hr
      exact ⟨.inl ⟨r₀, hr₀, hr⟩, by rw [← hr, key_settled, hkey₀]⟩
  | none =>
    have hno : ∀ r ∈ db.others, r.key ≠ f.exploded := fun r hr hkey =>
      List.find?_eq_none.mp hrow r hr (decide_eq_true hkey)
    constructor
    · rintro ⟨⟨r', hr', rfl⟩ | hr, hkey⟩
      · rw [key_settled] at hkey
        exact absurd hkey (hno r' hr')
      · obtain ⟨c, hc, rfl⟩ := List.mem_map.mp hr
        obtain ⟨g, hg, rfl⟩ := List.mem_map.mp (List.mem_of_mem_filter hc)
        obtain rfl := eq_of_exploded ht h (List.mem_of_mem_filter hg) hf hkey
        simp only
        rw [if_pos (List.mem_filter.mp hg).2]
    · simp only
      intro hr
      obtain ⟨hsaved, hr⟩ := Option.ite_none_right_eq_some.mp hr
      obtain rfl := Option.some.inj hr
      refine ⟨.inr (List.mem_map_of_mem (List.mem_filter.mpr ⟨?_, ?_⟩)), rfl⟩
      · exact List.mem_map_of_mem (List.mem_filter.mpr ⟨hf, hsaved⟩)
      · rw [Bool.not_eq_true', List.any_eq_false]
        exact fun r hr hkey => hno r hr (of_decide_eq_true hkey)

/-! ## The files after a check -/

/-- A configuration after the check is not written over a file, or has the key of one. -/
theorem elsewhere_of_mem (h : Undisturbed db files) {c : Config}
    (hc : c ∈ ({ db with rows := rowsAfter db files } : Db).getCustomConfigs) :
    Elsewhere files c ∨ ∃ f ∈ files, c.key = f.exploded := by
  rcases mem_getCustomConfigs.mp hc with ⟨r, hr, -, rfl⟩ | ⟨-, o, ho, rfl⟩
  · rcases List.mem_append.mp hr with hr | hr
    · obtain ⟨r₀, hr₀, rfl⟩ := List.mem_map.mp hr
      obtain ⟨hmem, hmethod⟩ := List.mem_filter.mp hr₀
      left
      have helse := h.rows r₀ hmem (of_decide_eq_true hmethod)
      rw [Elsewhere, Config.target] at helse ⊢
      show pathStem (settled _ _ r₀).key.2.2 = (settled _ _ r₀).key.2.2 ∨
        ∀ f ∈ files, ((settled _ _ r₀).key.2.1, (settled _ _ r₀).key.1.filter (· ≠ []),
          pathStem (settled _ _ r₀).key.2.2 ++ dotConf) ≠ f.path
      rw [key_settled]
      exact helse
    · obtain ⟨c, hnew, rfl⟩ := List.mem_map.mp hr
      obtain ⟨f, hf, rfl⟩ := List.mem_map.mp (List.mem_of_mem_filter hnew)
      exact .inr ⟨f, List.mem_of_mem_filter hf, rfl⟩
  · exact .inl (h.offers o (List.mem_of_mem_filter (List.mem_of_find?_eq_some ho)))

/-- A configuration is of a service that has a name. -/
theorem service_of_mem (ht : Tree db files) {c : Config}
    (hc : c ∈ ({ db with rows := rowsAfter db files } : Db).getCustomConfigs) :
    c.key.1.filter (· ≠ []) = c.key.1 := by
  have hallowed : c.key.1.all db.allowed = true := by
    rcases mem_getCustomConfigs.mp hc with ⟨r, -, hs, rfl⟩ | ⟨-, o, ho, rfl⟩
    · exact (Bool.and_eq_true_iff.mp hs).1
    · exact (List.mem_filter.mp (List.mem_of_find?_eq_some ho)).2
  cases hs : c.key.1 with
  | none => rfl
  | some s =>
    rw [hs, Option.all_some] at hallowed
    refine Option.filter_eq_some_iff.mpr ⟨rfl, decide_eq_true fun he => ?_⟩
    rw [Db.allowed, he, ht.ids] at hallowed
    cases hallowed

theorem mem_generated {path : Path} {text : Text} :
    (path, text) ∈ db.generated ↔ ∃ c ∈ db.getCustomConfigs, db.incompatible c.key = false ∧
      c.data ≠ [] ∧ c.target = path ∧ c.data = text := by
  rw [Db.generated, List.mem_map]
  constructor
  · rintro ⟨c, hc, he⟩
    obtain ⟨hmem, hok⟩ := List.mem_filter.mp hc
    obtain ⟨hcomp, hdata⟩ := Bool.and_eq_true_iff.mp hok
    obtain ⟨htarget, htext⟩ := Prod.mk.inj he
    exact ⟨c, hmem, by simpa using hcomp, by simpa using hdata, htarget, htext⟩
  · rintro ⟨c, hmem, hcomp, hdata, rfl, rfl⟩
    exact ⟨c, List.mem_filter.mpr ⟨hmem, by simp [hcomp, hdata]⟩, rfl⟩

theorem writtenAt_eq (ht : Tree db files) (h : Undisturbed db files) {f : File} (hf : f ∈ files) :
    f.writtenAt = (f.type, f.service, pathStem (stem f.name) ++ dotConf) := by
  rw [File.writtenAt, h.exploded hf, Config.target]
  cases hs : f.service with
  | none => rfl
  | some s =>
    have hne : s ≠ [] := fun he => by
      have hsome := ht.services f hf s hs
      rw [he, ht.ids] at hsome
      cases hsome
    simp only [Option.filter_some, hne, ne_eq, not_false_eq_true, decide_true, ite_true]

/-- The configuration that the check leaves for a file. -/
theorem mem_configs_iff (ht : Tree db files) (h : Undisturbed db files) {f : File}
    (hf : f ∈ files) {text : Text} :
    (∃ c ∈ ({ db with rows := rowsAfter db files } : Db).getCustomConfigs,
      c.key = f.exploded ∧ c.data = text) ↔
      (∃ r, finalRow db f = some r ∧ db.shows r = true ∧ r.data = text) ∨
        (∀ r, finalRow db f = some r → db.shows r = false) ∧
          ∃ o, db.offer f.exploded = some o ∧ o.data = text := by
  have hrow := fun r => mem_rowsAfter (r := r) ht h hf
  constructor
  · rintro ⟨c, hc, hkey, rfl⟩
    rcases mem_getCustomConfigs.mp hc with ⟨r, hr, hs, rfl⟩ | ⟨hno, o, ho, rfl⟩
    · exact .inl ⟨r, (hrow r).mp ⟨hr, hkey⟩, hs, rfl⟩
    · refine .inr ⟨fun r hr => ?_, o, hkey ▸ ho, rfl⟩
      obtain ⟨hmem, hkey'⟩ := (hrow r).mpr hr
      exact Bool.eq_false_iff.mpr fun hs => hno r hmem hs (hkey'.trans hkey.symm)
  · rintro (⟨r, hr, hs, rfl⟩ | ⟨hno, o, ho, rfl⟩)
    · obtain ⟨hmem, hkey⟩ := (hrow r).mpr hr
      exact ⟨r.config, mem_getCustomConfigs.mpr (.inl ⟨r, hmem, hs, rfl⟩), hkey, rfl⟩
    · have hokey := key_of_offer ho
      refine ⟨o.config, mem_getCustomConfigs.mpr (.inr ⟨fun r hr hs hkey => ?_, o, ?_, rfl⟩), hokey,
        rfl⟩
      · exact Bool.false_ne_true ((hno r ((hrow r).mp ⟨hr, hkey.trans hokey⟩)).symm.trans hs)
      · rw [hokey]
        exact ho

theorem nodup_rowsAfter (ht : Tree db files) (h : Undisturbed db files) :
    ((rowsAfter db files).map Row.key).Nodup := by
  have hold : ∀ incoming, (db.others.map (settled .manual incoming)).map Row.key =
      db.others.map Row.key := fun incoming => by
    rw [List.map_map]
    exact List.map_congr_left fun r _ => key_settled _ _ r
  rw [rowsAfter, List.map_append, hold, List.map_map]
  refine List.nodup_append'.mpr ⟨ht.rows, ?_, List.disjoint_left.mpr fun key hkey hnew => ?_⟩
  · exact (nodup_exploded ht h).sublist (List.filter_sublist.map _)
  · obtain ⟨r, hr, rfl⟩ := List.mem_map.mp hkey
    obtain ⟨c, hc, hck⟩ := List.mem_map.mp hnew
    have hno := (List.mem_filter.mp hc).2
    rw [Bool.not_eq_true', List.any_eq_false] at hno
    exact hno r hr (decide_eq_true hck.symm)

/-- If all names are left alone, what is written at the path of a file is its configuration. -/
theorem target_eq_path_iff (ht : Tree db files) (h : Undisturbed db files)
    (hnames : ∀ f ∈ files, pathStem (stem f.name) = stem f.name) {f : File} (hf : f ∈ files)
    {c : Config} (hc : c ∈ ({ db with rows := rowsAfter db files } : Db).getCustomConfigs) :
    c.target = f.path ↔ c.key = f.exploded := by
  have hpath : f.path = (f.type, f.service, stem f.name ++ dotConf) := by
    rw [File.path, h.dots f hf]
  have hname : pathStem c.key.2.2 = c.key.2.2 ∨ c.target ≠ f.path ∧ c.key ≠ f.exploded := by
    rcases elsewhere_of_mem h hc with (hname | hnot) | ⟨g, hg, hkey⟩
    · exact .inl hname
    · by_cases hkey : c.key = f.exploded
      · left
        rw [hkey, h.exploded hf]
        exact hnames f hf
      · exact .inr ⟨hnot f hf, hkey⟩
    · left
      rw [hkey, h.exploded hg]
      exact hnames g hg
  rcases hname with hname | ⟨hnot, hkey⟩
  case inr => exact ⟨fun h => absurd h hnot, fun h => absurd h hkey⟩
  have htarget : c.target = (c.key.2.1, c.key.1, c.key.2.2 ++ dotConf) := by
    rw [Config.target, service_of_mem ht hc, hname]
  rw [htarget, hpath, h.exploded hf]
  obtain ⟨service, type, name⟩ := c.key
  simp only [Prod.mk.injEq, List.append_cancel_right_eq]
  constructor
  · rintro ⟨rfl, rfl, rfl⟩
    exact ⟨rfl, rfl, rfl⟩
  · rintro ⟨rfl, rfl, rfl⟩
    exact ⟨rfl, rfl, rfl⟩

theorem contentAfter_eq (ht : Tree db files) (h : Undisturbed db files)
    (hnames : ∀ f ∈ files, pathStem (stem f.name) = stem f.name) {f : File} (hf : f ∈ files)
    {text : Text} :
    contentAfter db files f.path = some text ↔
      db.incompatible f.exploded = false ∧ text ≠ [] ∧
        ∃ c ∈ ({ db with rows := rowsAfter db files } : Db).getCustomConfigs,
          c.key = f.exploded ∧ c.data = text := by
  have hmem : ∀ text, (f.path, text) ∈ ({ db with rows := rowsAfter db files } : Db).generated ↔
      db.incompatible f.exploded = false ∧ text ≠ [] ∧
        ∃ c ∈ ({ db with rows := rowsAfter db files } : Db).getCustomConfigs,
          c.key = f.exploded ∧ c.data = text := by
    intro text
    rw [mem_generated]
    constructor
    · rintro ⟨c, hc, hcomp, hdata, htarget, rfl⟩
      have hkey := (target_eq_path_iff ht h hnames hf hc).mp htarget
      exact ⟨hkey ▸ hcomp, hdata, c, hc, hkey, rfl⟩
    · rintro ⟨hcomp, hdata, c, hc, hkey, rfl⟩
      exact ⟨c, hc, hkey ▸ hcomp, hdata, (target_eq_path_iff ht h hnames hf hc).mpr hkey, rfl⟩
  rw [contentAfter, afterCheck_eq ht h (List.ne_nil_of_mem hf), ← hmem]
  refine ⟨Dict.mem_of_lastOf, fun htext => Dict.lastOf_eq_some htext fun text' htext' => ?_⟩
  obtain ⟨-, -, c, hc, hkey, rfl⟩ := (hmem text).mp htext
  obtain ⟨-, -, c', hc', hkey', rfl⟩ := (hmem text').mp htext'
  rw [getCustomConfigs_unique (nodup_rowsAfter ht h) hc' hc (hkey'.trans hkey.symm)]

/-- If all files come back, their names are left alone: the longest one that is not would have to
come from a longer one. -/
theorem names_of_roundTrips (ht : Tree db files) (h : Undisturbed db files)
    (hround : RoundTrips db files) : ∀ f ∈ files, pathStem (stem f.name) = stem f.name := by
  by_contra hno
  push Not at hno
  obtain ⟨f₀, hf₀, hne₀⟩ := hno
  obtain ⟨f, hf, hmax⟩ := (files.toFinset.filter fun f => pathStem (stem f.name) ≠ stem f.name)
    |>.exists_max_image (fun f => (stem f.name).length) ⟨f₀, by simp [hf₀, hne₀]⟩
  obtain ⟨hf, hne⟩ := Finset.mem_filter.mp hf
  rw [List.mem_toFinset] at hf
  have hcontent := hround.1 f hf
  rw [contentAfter, afterCheck_eq ht h (List.ne_nil_of_mem hf)] at hcontent
  obtain ⟨c, hc, -, -, htarget, -⟩ := mem_generated.mp (Dict.mem_of_lastOf hcontent)
  have hstem : pathStem c.key.2.2 = stem f.name := by
    have hname := congrArg (fun p : Path => p.2.2) htarget
    rw [File.path, ← h.dots f hf] at hname
    exact List.append_cancel_right hname
  rcases elsewhere_of_mem h hc with (hname | hnot) | ⟨g, hg, hkey⟩
  · rw [hname] at hstem
    rw [hstem] at hname
    exact hne hname
  · exact hnot f hf htarget
  · rw [hkey, h.exploded hg] at hstem
    simp only at hstem
    rcases pathStem_eq_or_lt (stem g.name) with hsame | hlt
    · rw [hsame] at hstem
      rw [hstem] at hsame
      exact hne hsame
    · have hle := hmax g (by
        rw [Finset.mem_filter, List.mem_toFinset]
        exact ⟨hg, fun hsame => absurd hlt (by rw [hsame]; omega)⟩)
      rw [hstem] at hlt
      omega

theorem allowed_of_offer (h : Undisturbed db files) {f : File} (hf : f ∈ files) {o : Offer}
    (ho : db.offer f.exploded = some o) : f.service.all db.allowed = true := by
  have hkey := congrArg Prod.fst (key_of_offer ho)
  rw [h.exploded hf] at hkey
  rw [← show some o.service = f.service from hkey, Option.all_some]
  exact (List.mem_filter.mp (List.mem_of_find?_eq_some ho)).2

/-- What is there for a file that has a row: the row, or what a template has if it is a draft. -/
theorem shown_iff (h : Undisturbed db files) {f : File} (hf : f ∈ files) {r : Row}
    (hkey : r.key = f.exploded) :
    (∃ r', some r = some r' ∧ db.shows r' = true ∧ r'.data = f.text) ∨
      (∀ r', some r = some r' → db.shows r' = false) ∧ db.offers f ↔
      f.service.all db.allowed = true ∧
        if r.isDraft = true then db.offers f else r.data = f.text := by
  have hshows : db.shows r = (f.service.all db.allowed && !r.isDraft) := by
    rw [Db.shows, hkey, h.exploded hf]
  simp only [Option.some.injEq, exists_eq_left', forall_eq']
  rw [hshows]
  cases hdraft : r.isDraft with
  | true =>
    simp only [Bool.not_true, Bool.and_false, Bool.false_eq_true, false_and, false_or, true_and,
      ite_true]
    exact ⟨fun ho => ⟨allowed_of_offer h hf ho.choose_spec.1, ho⟩, And.right⟩
  | false =>
    simp only [Bool.not_false, Bool.and_true, Bool.false_eq_true, ite_false]
    constructor
    · rintro (hrow | ⟨hno, o, ho, -⟩)
      · exact hrow
      · rw [allowed_of_offer h hf ho] at hno
        cases hno
    · exact .inl

theorem content_iff (ht : Tree db files) (h : Undisturbed db files) {f : File} (hf : f ∈ files) :
    (∃ c ∈ ({ db with rows := rowsAfter db files } : Db).getCustomConfigs,
      c.key = f.exploded ∧ c.data = f.text) ↔
      f.service.all db.allowed = true ∧
        match db.rowOf f with
        | some r =>
          if f.saved db.getCustomConfigs = true ∧ r.method.isUi = true then '\r' ∉ f.text
          else if r.isDraft then db.offers f else r.data = f.text
        | none => if f.saved db.getCustomConfigs = true then '\r' ∉ f.text else db.offers f := by
  rw [mem_configs_iff ht h hf]
  unfold finalRow
  cases hrow : db.rowOf f with
  | some r =>
    have hkey : r.key = f.exploded := by
      rw [Db.rowOf] at hrow
      have hdec := List.find?_some hrow
      exact of_decide_eq_true hdec
    simp only
    by_cases hover : f.saved db.getCustomConfigs = true ∧ r.method.isUi = true
    · rw [if_pos hover, if_pos hover]
      refine (shown_iff (r := { r with data := readText f.text, isDraft := false }) h hf hkey).trans ?_
      simp only [Bool.false_eq_true, ite_false, readText_eq_self_iff]
    · rw [if_neg hover, if_neg hover]
      exact shown_iff h hf hkey
  | none =>
    simp only
    by_cases hsaved : f.saved db.getCustomConfigs = true
    · rw [if_pos hsaved, if_pos hsaved]
      refine (shown_iff h hf (show (newRow .manual f.incoming).key = f.exploded from rfl)).trans ?_
      show _ ∧ (if false = true then _ else readText f.text = f.text) ↔ _
      simp only [Bool.false_eq_true, ite_false, readText_eq_self_iff]
    · rw [if_neg hsaved, if_neg hsaved]
      constructor
      · rintro (⟨r, hr, -⟩ | ⟨-, ho⟩)
        · cases hr
        · exact ⟨allowed_of_offer h hf ho.choose_spec.1, ho⟩
      · exact fun ho => .inr ⟨fun r hr => (nomatch hr), ho.2⟩

/-- A service, and a configuration that was made in the web interface. -/
def shopDb : Db where
  rows := [⟨(some "shop".toList, .serverHttp, "cache".toList), "expires 1h;".toList, .ui, false⟩]
  services := Dict.ofItems [("shop".toList, false)]
  offered := []
  globalCrs := false

/-- The file of this configuration after an edit, and one that is new. -/
def shopFiles : List File :=
  [⟨.serverHttp, some "shop".toList, "cache.conf".toList, "expires 2h;".toList⟩,
    ⟨.http, none, "limits.conf".toList, "client_max_body_size 1m;".toList⟩]

end BunkerWeb.Scheduler
