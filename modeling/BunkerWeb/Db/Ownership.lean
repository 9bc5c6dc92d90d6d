import BunkerWeb.Db.Commit

/-!
# Who may change a row

A row belongs to the method that wrote it, and `_methods_are_compatible` says which methods may
write over it. The three loops ask it before they change a value, but a change of the file name of
a setting that holds a file passes them by, and takes the value and the method along. `Renames` is
that case, and `keepsForeign_iff` says that a call keeps the rows of others if and only if it never
arises for one of them.
-/

namespace BunkerWeb.Db

open Lib

/-- The call may not write over the row: its method is not compatible with that of the row, not
even as a scheduler for the keys that are explicit; `names` says which keys mean the row. -/
structure Protected (call : Call) (names : String → Prop) (c : Cell) : Prop where
  plain : methodsAreCompatible call.method c.method false = false
  explicit : ∀ key ∈ call.explicitKeys, names key →
    methodsAreCompatible call.method c.method true = false

/-- A key that means a row of `Global_values`. -/
def NamesGlobal (k : GlobalKey) (key : String) : Prop := splitKey key = k

/-- A key that means a row of `Services_settings`. -/
def NamesService (k : ServiceKey) (key : String) : Prop :=
  ∃ rest, key = joinKey k.1 rest ∧ splitKey rest = k.2

/-- The call leaves the rows that it may not write over as they are, except those of the services
that it removes. -/
structure KeepsForeign (env : Env) (call : Call) (db : Database) : Prop where
  globals : ∀ k c, db.globalValues.lookup k = some c → Protected call (NamesGlobal k) c →
    (saveConfig env call db).2.globalValues.lookup k = some c
  rows : ∀ k c, db.servicesSettings.lookup k = some c → Protected call (NamesService k) c →
    k.1 ∉ removedIds call db → (saveConfig env call db).2.servicesSettings.lookup k = some c

/-- The lines that the loop over the global settings goes through. -/
def globalLines (env : Env) (call : Call) (db : Database) : List Line :=
  if IsMultisite call then
    if env.raises none then []
    else lines db.settings (globalConfig (popped call) (servicesSet call db))
  else lines db.settings (popped call).items

/-- The lines that the task of a service goes through. -/
def serviceLines (env : Env) (call : Call) (db : Database) (service : String) : List Line :=
  if IsMultisite call ∧ env.raises (some service) = false then
    lines db.settings (serviceConfig (popped call) (servicesSet call db) service)
  else []

/-- The line changes the file name of the row: a file name comes with the call and is another one,
or none does and the value changes under a file name. -/
def Renames (call : Call) (l : Line) (c : Cell) : Prop :=
  (settingFileName call.fileNames l.setting.type l.originalKey (c.value != l.value)
    c.fileName).2 = true

/-- If the call commits, no line that it goes through changes the file name of a row that it may
not write over. -/
structure RenamesNoForeign (env : Env) (call : Call) (db : Database) : Prop where
  globals : ∀ plan db', Commits env call db plan db' →
    ∀ k c, db.globalValues.lookup k = some c → Protected call (NamesGlobal k) c →
      ∀ l ∈ globalLines env call db, (l.setting.id, l.suffix) = k → ¬ Renames call l c
  rows : ∀ plan db', Commits env call db plan db' →
    ∀ k c, db.servicesSettings.lookup k = some c → Protected call (NamesService k) c →
      k.1 ∉ removedIds call db →
      ∀ l ∈ serviceLines env call db k.1, (l.setting.id, l.suffix) = k.2 → ¬ Renames call l c

section

variable {env : Env} {call : Call} {db db' : Database} {plan : Plan} {c : Cell}

theorem Protected.method_ne {names : String → Prop} (h : Protected call names c) :
    call.method ≠ c.method := fun he => by
  have := h.plain
  rw [he, methodsAreCompatible_self] at this
  cases this

theorem Protected.not_autoconf {names : String → Prop} (h : Protected call names c) :
    call.method ≠ .autoconf := fun he => by
  have := h.plain
  rw [he, methodsAreCompatible_autoconf] at this
  cases this

theorem Protected.incompatible {names : String → Prop} (h : Protected call names c) {key : String}
    (hkey : names key) (value : String) :
    methodsAreCompatible call.method c.method
      (schedulerCanOverride call.explicitKeys key value) = false := by
  cases hover : schedulerCanOverride call.explicitKeys key value with
  | false => exact h.plain
  | true =>
    rw [schedulerCanOverride, Bool.and_eq_true, List.contains_iff_mem] at hover
    exact h.explicit key hover.1 hkey

theorem Protected.shouldUpdate {names : String → Prop} (h : Protected call names c) {key : String}
    (hkey : names key) (value : String) : shouldUpdate call key value c = false := by
  simp [Db.shouldUpdate, h.incompatible hkey, h.not_autoconf]

theorem Protected.plainShouldUpdate {names : String → Prop} (h : Protected call names c)
    {key : String} (hkey : names key) (value : String) :
    plainShouldUpdate call key value c = false := by
  simp [Db.plainShouldUpdate, h.incompatible hkey]

/-- What a loop does to a row that it may not update: nothing, or what a change of the file name
brings. -/
def fileChange (call : Call) (c : Cell) (l : Line) : Option RowChange :=
  (rowChange call (some c) l false false).1

theorem fileChange_update {l : Line} {ch : RowChange} (h : fileChange call c l = some ch) :
    ∃ u, ch = .update u ∧ u.method = call.method := by
  unfold fileChange rowChange at h
  simp only [Bool.false_or, Bool.false_and, Bool.false_eq_true, if_false] at h
  split at h
  · exact ⟨_, (Option.some.inj h).symm, rfl⟩
  · cases h

theorem fileChange_eq_none {l : Line} : fileChange call c l = none ↔ ¬ Renames call l c := by
  cases hr : (settingFileName call.fileNames l.setting.type l.originalKey (c.value != l.value)
    c.fileName).2 with
  | false => simp [fileChange, rowChange, Renames, hr]
  | true => simp [fileChange, rowChange, Renames, hr]

theorem plainChange_of_protected {p : ServicePlan} {l : Line} {k : GlobalKey}
    (hk : db.globalValues.lookup k = some c) (hp : Protected call (NamesGlobal k) c)
    (hl : (l.setting.id, l.suffix) = k) (hkey : NamesGlobal k l.originalKey) :
    (plainChange (plainWork call db p) l).1 = fileChange call c l := by
  unfold plainChange
  have hex : (plainWork call db p).session.globalValues.lookup (l.setting.id, l.suffix) = some c :=
    hl ▸ hk
  simp only [hex, Option.any_some]
  rw [show (plainWork call db p).call = call from rfl, hp.plainShouldUpdate hkey]
  rfl

theorem globalChange_of_protected {p : ServicePlan} {l : Line} {k : GlobalKey}
    (hk : db.globalValues.lookup k = some c) (hp : Protected call (NamesGlobal k) c)
    (hl : (l.setting.id, l.suffix) = k) (hkey : NamesGlobal k l.originalKey) :
    (globalChange (poolWork call db p) l).1 = fileChange call c l := by
  unfold globalChange
  have hex : (poolWork call db p).session.globalValues.lookup (l.setting.id, l.suffix) = some c :=
    hl ▸ hk
  simp only [hex, Option.any_some]
  rw [show (poolWork call db p).call = call from rfl, hp.shouldUpdate hkey]
  rfl

theorem serviceChange_of_protected {p : ServicePlan} {template : TemplateVar} {l : Line}
    {k : ServiceKey} (hk : (sessionOf db p).servicesSettings.lookup k = some c)
    (hp : Protected call (NamesService k) c) (hl : (l.setting.id, l.suffix) = k.2)
    (hkey : NamesService k (joinKey k.1 l.originalKey)) :
    (serviceChange (poolWork call db p) template k.1 l).1 = fileChange call c l := by
  unfold serviceChange
  have hex : (poolWork call db p).session.servicesSettings.lookup
      (k.1, l.setting.id, l.suffix) = some c := by
    rw [hl]
    exact hk
  simp only [hex, Option.any_some]
  rw [show (poolWork call db p).call = call from rfl, hp.shouldUpdate hkey]
  rfl

/-- A row whose changes are all updates of another method stays as it is exactly if it has none. -/
theorem lookup_commit_of_foreign {κ : Type} [DecidableEq κ] {d d' : Dict κ Cell}
    {cs : List (κ × RowChange)} {cleanup : List κ}
    (h : Table.commit CellUpdate.apply d cs cleanup = some d') {k : κ} (hk : d.lookup k = some c)
    (hclean : k ∉ cleanup) {m : Method} (hm : m ≠ c.method)
    (hcs : ∀ ch, (k, ch) ∈ cs → ∃ u, ch = .update u ∧ u.method = m) :
    d'.lookup k = some c ↔ ∀ ch, (k, ch) ∉ cs := by
  constructor
  · intro hsame ch hch
    obtain ⟨u, rfl, hu⟩ := hcs ch hch
    have hdel : k ∉ Table.deletesOf cs := fun hd => by
      obtain ⟨u, hu, -⟩ := hcs _ (Table.mem_deletesOf.mp hd)
      cases hu
    rw [Table.lookup_commit _ h, if_neg hclean, if_neg hdel, hk, Option.map_some,
      Option.some_or] at hsame
    -- Every update of the row brings its own method.
    have hmethod : (Table.updateFor CellUpdate.apply (Table.updatesOf cs) k c).method = m := by
      refine Table.updateFor_prop CellUpdate.apply (P := fun c => c.method = m) ?_
        ⟨u, Table.mem_updatesOf.mpr hch⟩ c
      intro u' hu' v
      obtain ⟨u'', hu'', hmu⟩ := hcs _ (Table.mem_updatesOf.mp hu')
      cases hu''
      exact hmu
    rw [Option.some.inj hsame] at hmethod
    exact hm hmethod.symm
  · intro hnone
    rw [Table.lookup_commit_of_untouched _ h hnone hclean, hk]

/-- A row of another method is not cleaned up. -/
theorem notMem_globalsToDelete {k : GlobalKey} (hk : db.globalValues.lookup k = some c)
    (hm : call.method ≠ c.method) : k ∉ globalsToDelete call db := by
  intro hmem
  obtain ⟨⟨c', hc', hmethod⟩, -⟩ := mem_globalsToDelete.mp hmem
  rw [hk] at hc'
  cases hc'
  exact hm hmethod.symm

theorem notMem_serviceRowsToDelete {k : ServiceKey} (hk : db.servicesSettings.lookup k = some c)
    (hm : call.method ≠ c.method) : k ∉ serviceRowsToDelete call db := by
  intro hmem
  obtain ⟨⟨c', hc', hmethod⟩, -⟩ := mem_serviceRowsToDelete.mp hmem
  rw [hk] at hc'
  cases hc'
  exact hm hmethod.symm

/-- A row that the call may not write over, and that a plan changes as some lines say, stays as it
is exactly if none of them changes its file name. -/
theorem lookup_commit_iff {κ : Type} [DecidableEq κ] {d d' : Dict κ Cell}
    {cs : List (κ × RowChange)} {cleanup : List κ} {ls : List Line} {means : Line → Prop}
    (h : Table.commit CellUpdate.apply d cs cleanup = some d') {k : κ}
    (hk : d.lookup k = some c) (hclean : k ∉ cleanup) (hm : call.method ≠ c.method)
    (hcs : ∀ ch, (k, ch) ∈ cs ↔ ∃ l ∈ ls, means l ∧ fileChange call c l = some ch) :
    d'.lookup k = some c ↔ ∀ l ∈ ls, means l → ¬ Renames call l c := by
  have hupdates : ∀ ch, (k, ch) ∈ cs → ∃ u, ch = .update u ∧ u.method = call.method := by
    intro ch hch
    obtain ⟨l, -, -, hl⟩ := (hcs ch).mp hch
    exact fileChange_update hl
  rw [lookup_commit_of_foreign h hk hclean hm hupdates]
  constructor
  · intro hnone l hl hmeans
    rw [← fileChange_eq_none]
    cases hch : fileChange call c l with
    | none => rfl
    | some ch => exact absurd ((hcs ch).mpr ⟨l, hl, hmeans, hch⟩) (hnone ch)
  · intro hno ch hch
    obtain ⟨l, hl, hmeans, hsome⟩ := (hcs ch).mp hch
    rw [fileChange_eq_none.mpr (hno l hl hmeans)] at hsome
    cases hsome

/-- The changes that a plan makes to a row of `Global_values` that the call may not write over. -/
theorem PlanCases.mem_globalChanges (h : PlanCases env call db plan) {k : GlobalKey}
    (hk : db.globalValues.lookup k = some c) (hp : Protected call (NamesGlobal k) c)
    (ch : RowChange) :
    (k, ch) ∈ plan.globalChanges ↔ ∃ l ∈ globalLines env call db,
      (l.setting.id, l.suffix) = k ∧ fileChange call c l = some ch := by
  have hnames : ∀ {config : List (String × String)} {l : Line}, l ∈ lines db.settings config →
      (l.setting.id, l.suffix) = k → NamesGlobal k l.originalKey := fun hl hlk =>
    (mem_lines.mp hl).2.2.trans hlk
  cases h with
  | empty _ hg _ he =>
    have hnot : ¬ IsMultisite call := fun hm => by simp [hm.1] at he
    have hlines : globalLines env call db = [] := by
      rw [globalLines, if_neg hnot, popped_of_isEmpty he]
      rfl
    simp [hg, hlines]
  | plain p _ hg _ hnot =>
    rw [hg, globalLines, if_neg hnot, List.mem_filterMap]
    refine exists_congr fun l => and_congr_right fun hl => ?_
    rw [Option.map_eq_some_iff]
    constructor
    · rintro ⟨ch', hch, he⟩
      obtain ⟨hlk, rfl⟩ := Prod.mk.inj he
      exact ⟨hlk, plainChange_of_protected hk hp hlk (hnames hl hlk) ▸ hch⟩
    · rintro ⟨hlk, hch⟩
      exact ⟨ch, (plainChange_of_protected hk hp hlk (hnames hl hlk)).trans hch, by rw [hlk]⟩
  | multisite missing _ hm _ hg =>
    rw [hg, Db.mem_globalChanges, globalLines, if_pos hm]
    cases env.raises none with
    | true => simp
    | false =>
      simp only [true_and, Bool.false_eq_true, if_false]
      refine exists_congr fun l => and_congr_right fun hl => ?_
      constructor
      · rintro ⟨hlk, hch⟩
        exact ⟨hlk.symm, globalChange_of_protected hk hp hlk.symm (hnames hl hlk.symm) ▸ hch⟩
      · rintro ⟨hlk, hch⟩
        exact ⟨hlk.symm, (globalChange_of_protected hk hp hlk (hnames hl hlk)).trans hch⟩

/-- The changes that a plan makes to a row of `Services_settings` that the call may not write over
and whose service stays. -/
theorem PlanCases.mem_serviceChanges (h : PlanCases env call db plan) {k : ServiceKey}
    (hk : db.servicesSettings.lookup k = some c) (hp : Protected call (NamesService k) c)
    (hkept : k.1 ∉ removedIds call db) (ch : RowChange) :
    (k, ch) ∈ plan.serviceChanges ↔ ∃ l ∈ serviceLines env call db k.1,
      (l.setting.id, l.suffix) = k.2 ∧ fileChange call c l = some ch := by
  have hsession := h.lookup_servicesSettings k
  rw [if_neg hkept, hk] at hsession
  cases h with
  | empty _ _ hs he =>
    have hnot : ¬ IsMultisite call := fun hm => by simp [hm.1] at he
    simp [hs, serviceLines, hnot]
  | plain p _ _ hs hnot => simp [hs, serviceLines, hnot]
  | multisite missing _ hm hsess _ hs =>
    rw [hsess] at hsession
    have hchange : ∀ {template : TemplateVar} {l : Line},
        l ∈ lines db.settings (serviceConfig (popped call) (servicesSet call db) k.1) →
        (l.setting.id, l.suffix) = k.2 →
        (serviceChange (poolWork call db (servicePlan call db missing)) template k.1 l).1 =
          fileChange call c l := fun hl hlk =>
      serviceChange_of_protected hsession hp hlk ⟨_, rfl, (mem_lines.mp hl).2.2.trans hlk⟩
    rw [hs, Db.mem_serviceChanges, serviceLines]
    cases hraise : env.raises (some k.1) with
    | true => simp
    | false =>
      simp only [hm, true_and, if_true]
      constructor
      · rintro ⟨-, l, hl, hlk, hch⟩
        exact ⟨l, hl, hlk.symm, hchange hl hlk.symm ▸ hch⟩
      · rintro ⟨l, hl, hlk, hch⟩
        exact ⟨configured_of_line hl, l, hl, hlk.symm, (hchange hl hlk).trans hch⟩

theorem Commits.keeps_global_iff (h : Commits env call db plan db') {k : GlobalKey}
    (hk : db.globalValues.lookup k = some c) (hp : Protected call (NamesGlobal k) c) :
    db'.globalValues.lookup k = some c ↔
      ∀ l ∈ globalLines env call db, (l.setting.id, l.suffix) = k → ¬ Renames call l c := by
  have hplan := planOf_cases h.planned
  have hcommit := (commitTables_eq_some h.tables).1
  rw [hplan.session_globalValues] at hcommit
  exact lookup_commit_iff hcommit hk (notMem_globalsToDelete hk hp.method_ne) hp.method_ne
    (hplan.mem_globalChanges hk hp)

theorem Commits.keeps_row_iff (h : Commits env call db plan db') {k : ServiceKey}
    (hk : db.servicesSettings.lookup k = some c) (hp : Protected call (NamesService k) c)
    (hkept : k.1 ∉ removedIds call db) :
    db'.servicesSettings.lookup k = some c ↔
      ∀ l ∈ serviceLines env call db k.1, (l.setting.id, l.suffix) = k.2 →
        ¬ Renames call l c := by
  have hplan := planOf_cases h.planned
  have hsession := hplan.lookup_servicesSettings k
  rw [if_neg hkept, hk] at hsession
  exact lookup_commit_iff (commitTables_eq_some h.tables).2.1 hsession
    (notMem_serviceRowsToDelete hk hp.method_ne) hp.method_ne
    (hplan.mem_serviceChanges hk hp hkept)

end

/-- **Ownership.** For every environment, call and database: a call leaves the rows that it may not
write over as they are if and only if, when it commits, no line that it goes through changes the
file name of one of them. -/
theorem keepsForeign_iff (env : Env) (call : Call) (db : Database) :
    KeepsForeign env call db ↔ RenamesNoForeign env call db := by
  rcases saveConfig_cases env call db with ⟨plan, db', plugins, flag, hcom, hsave⟩ | ⟨hsame, hno⟩
  · constructor
    · intro hkeeps
      constructor
      · intro plan' db'' hcom' k c hk hp
        obtain ⟨rfl, rfl⟩ := hcom.unique hcom'
        have hsaved := hkeeps.globals k c hk hp
        rw [hsave, setFlags_globalValues] at hsaved
        exact (hcom.keeps_global_iff hk hp).mp hsaved
      · intro plan' db'' hcom' k c hk hp hkept
        obtain ⟨rfl, rfl⟩ := hcom.unique hcom'
        have hsaved := hkeeps.rows k c hk hp hkept
        rw [hsave, setFlags_servicesSettings] at hsaved
        exact (hcom.keeps_row_iff hk hp hkept).mp hsaved
    · intro hren
      constructor
      · intro k c hk hp
        rw [hsave, setFlags_globalValues]
        exact (hcom.keeps_global_iff hk hp).mpr (hren.globals plan db' hcom k c hk hp)
      · intro k c hk hp hkept
        rw [hsave, setFlags_servicesSettings]
        exact (hcom.keeps_row_iff hk hp hkept).mpr (hren.rows plan db' hcom k c hk hp hkept)
  · refine ⟨fun _ => ⟨fun plan db' h => absurd h (hno plan db'),
      fun plan db' h => absurd h (hno plan db')⟩, fun _ => ⟨?_, ?_⟩⟩
    · intro k c hk _
      rw [hsame, hk]
    · intro k c hk _ _
      rw [hsame, hk]

/-- A call of the scheduler with the default of a certificate, which is not an explicit key, empties
the row of `ui`, since the row holds the name of a file and the call brings none. -/
theorem default_empties_row :
    let call := multisiteCall .scheduler [("SERVER_NAME", "www"), ("CUSTOM_SSL_CERT_DATA", "")]
    let db := site [("www", ⟨.ui, false⟩)]
      [(("CUSTOM_SSL_CERT_DATA", 0), ⟨"data", "www.pem", .ui⟩)] []
    ¬ KeepsForeign quietEnv call db := by
  intro call db h
  have hprotected : Protected call (NamesGlobal ("CUSTOM_SSL_CERT_DATA", 0))
      ⟨"data", "www.pem", .ui⟩ := ⟨rfl, fun _ hkey => absurd hkey List.not_mem_nil⟩
  have hsaved := h.globals ("CUSTOM_SSL_CERT_DATA", 0) _ (by decide) hprotected
  exact absurd hsaved (by decide)

end BunkerWeb.Db
