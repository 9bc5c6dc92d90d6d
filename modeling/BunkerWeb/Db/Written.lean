import BunkerWeb.Db.Commit
import BunkerWeb.Db.Templates

/-!
# What a multisite call leaves in the rows

If the keys are written as the code writes them (`WellNamed`), each row of `Global_values` and of
`Services_settings` has one line at most. A line whose row the method may write over leaves its value
there, or no row if the value is a default (`Holds`); a row without a line goes if the call owns it,
and stays otherwise.
-/

namespace BunkerWeb.Db

open Lib

/-- The key of a line is written as the code writes it, and is numbered only if it may be. -/
structure Line.WellWritten (l : Line) : Prop where
  key : l.originalKey = suffixedKey l.setting.id l.suffix
  numbered : 0 < l.suffix → l.setting.multiple.isSome

/-- No service is in the way of a key of another one or of a setting, and the keys of the
configuration that name a setting are well written. -/
structure WellNamed (call : Call) (db : Database) : Prop where
  services : ∀ id, id ∈ serverNames call.config ∨ (db.services.lookup id).isSome →
    Separate db.settings id
  globals : ∀ l ∈ lines db.settings (globalConfig (popped call) (servicesSet call db)),
    l.WellWritten
  rows : ∀ service ∈ servicesSet call db,
    ∀ l ∈ lines db.settings (serviceConfig (popped call) (servicesSet call db) service),
      l.WellWritten

instance (l : Line) : Decidable l.WellWritten :=
  decidable_of_iff (_ ∧ _) ⟨fun ⟨h1, h2⟩ => ⟨h1, h2⟩, fun h => ⟨h.key, h.numbered⟩⟩

instance (call : Call) (db : Database) : Decidable (WellNamed call db) :=
  decidable_of_iff ((∀ id ∈ serverNames call.config ++ db.services.items.map Prod.fst,
      Separate db.settings id) ∧ _ ∧ _)
    ⟨fun ⟨hservices, hglobals, hrows⟩ => ⟨fun id hid => hservices id (by
          rcases hid with hid | hid
          · exact List.mem_append_left _ hid
          · obtain ⟨sv, hsv⟩ := Option.isSome_iff_exists.mp hid
            exact List.mem_append_right _ (List.mem_map.mpr ⟨_, Dict.mem_items.mpr hsv, rfl⟩)),
        hglobals, hrows⟩,
      fun h => ⟨fun id hid => h.services id (by
          rcases List.mem_append.mp hid with hid | hid
          · exact .inl hid
          · obtain ⟨⟨id', sv⟩, hsv, rfl⟩ := List.mem_map.mp hid
            exact .inr (Option.isSome_iff_exists.mpr ⟨sv, Dict.mem_items.mp hsv⟩)),
        h.globals, h.rows⟩⟩

/-- The method may write the value over the row, or need not. -/
def MayWrite (call : Call) (fullKey value : String) (row : Option Cell) : Prop :=
  ∀ c ∈ row, c.value = value ∨ methodsAreCompatible call.method c.method
    (schedulerCanOverride call.explicitKeys fullKey value) = true

/-- The row has the value, or there is none because the value is a default. -/
def Holds (row : Option Cell) (value : String) (isDefault : Bool) : Prop :=
  (∃ c, row = some c ∧ c.value = value) ∨ (row = none ∧ isDefault = true)

/-! ## One row -/

section

variable {env : Env} {call : Call} {db db' : Database} {plan : Plan} {l : Line}

theorem MayWrite.shouldUpdate {key : String} {row : Option Cell} {c : Cell}
    (h : MayWrite call key l.value row) (hc : row = some c)
    (hnot : shouldUpdate call key l.value c = false) : c.value = l.value := by
  rcases h c hc with hv | hcompat
  · exact hv
  · unfold Db.shouldUpdate at hnot
    rw [hcompat, Bool.and_true, Bool.or_eq_false_iff] at hnot
    simpa using hnot.1

/-- What a loop does for a row that is not there. -/
theorem rowChange_none (update isDefault : Bool) :
    ∃ c : Cell, c.value = l.value ∧ c.method = call.method ∧
      (rowChange call none l update isDefault).1 =
        if isDefault then none else some (.put c) := by
  refine ⟨⟨l.value, if l.setting.type = .file then
    (settingFileName call.fileNames l.setting.type l.originalKey false "").1 else "",
    call.method⟩, rfl, rfl, ?_⟩
  cases isDefault <;> rfl

/-- What a loop does for a row that is there. -/
theorem rowChange_some (c : Cell) (update isDefault : Bool) :
    ∃ u : CellUpdate, u.value = l.value ∧ u.method = call.method ∧
      (rowChange call (some c) l update isDefault).1 =
        if update && isDefault then some .delete
        else if update || (settingFileName call.fileNames l.setting.type l.originalKey
          (c.value != l.value) c.fileName).2 then some (.update u)
        else none := by
  refine ⟨⟨l.value, call.method, if l.setting.type = .file ∧
    ((settingFileName call.fileNames l.setting.type l.originalKey (c.value != l.value)
      c.fileName).2 || c.value != l.value) then
      some (settingFileName call.fileNames l.setting.type l.originalKey (c.value != l.value)
        c.fileName).1
    else none⟩, rfl, rfl, ?_⟩
  unfold rowChange
  cases update with
  | true => cases isDefault <;> rfl
  | false =>
    simp only [Bool.false_or, Bool.false_and, Bool.false_eq_true, if_false]
    split <;> rfl

/-- A row that one line is about is what the line makes of it after the commit, or what it was. -/
theorem stored_of_line (call : Call) {κ : Type} [DecidableEq κ] {d d' : Dict κ Cell}
    {cs : List (κ × RowChange)} {cleanup : List κ} {update : Cell → Bool} {isDefault : Bool}
    {Q : Cell → Prop} (h : Table.commit CellUpdate.apply d cs cleanup = some d') {k : κ}
    (hclean : k ∉ cleanup)
    (hcs : ∀ ch, (k, ch) ∈ cs ↔
      (rowChange call (d.lookup k) l ((d.lookup k).any update) isDefault).1 = some ch)
    (hnew : ∀ c : Cell, c.value = l.value → c.method = call.method → Q c)
    (hsame : ∀ c, d.lookup k = some c → update c = false → Q c) :
    (∃ c, d'.lookup k = some c ∧ Q c) ∨ (d'.lookup k = none ∧ isDefault = true) := by
  have huntouched : (∀ ch, (k, ch) ∉ cs) → d'.lookup k = d.lookup k := fun hno =>
    Table.lookup_commit_of_untouched _ h hno hclean
  cases hd : d.lookup k with
  | none =>
    rw [hd] at hcs
    obtain ⟨c, hc, hmethod, hchange⟩ :=
      @rowChange_none call l ((none : Option Cell).any update) isDefault
    rw [hchange] at hcs
    cases isDefault with
    | true => exact .inr ⟨(huntouched fun ch hch => by simp [hcs] at hch).trans hd, rfl⟩
    | false =>
      refine .inl ⟨c, Table.lookup_commit_of_put _ h hclean hd (fun w => ?_), hnew c hc hmethod⟩
      simp [hcs, eq_comm]
  | some c =>
    rw [hd, Option.any_some] at hcs
    obtain ⟨u, hu, hmethod, hchange⟩ := @rowChange_some call l c (update c) isDefault
    rw [hchange] at hcs
    cases hdelete : update c && isDefault with
    | true =>
      rw [hdelete] at hcs
      exact .inr ⟨Table.lookup_commit_of_deleted _ h (by simp [hcs]) (by simp [hcs]),
        (Bool.and_eq_true_iff.mp hdelete).2⟩
    | false =>
      rw [hdelete, if_neg Bool.false_ne_true] at hcs
      cases hchanged : update c || (settingFileName call.fileNames l.setting.type l.originalKey
          (c.value != l.value) c.fileName).2 with
      | true =>
        rw [hchanged] at hcs
        refine .inl (Table.lookup_commit_of_updated (P := Q) _ h hclean hd
          (by simp [hcs]) ⟨u, by simp [hcs]⟩ fun u' hu' v => ?_)
        simp only [hcs, if_true, Option.some.injEq, Change.update.injEq] at hu'
        rw [← hu']
        exact hnew _ hu hmethod
      | false =>
        rw [hchanged] at hcs
        exact .inl ⟨c, (huntouched fun ch hch => by simp [hcs] at hch).trans hd,
          hsame c hd (Bool.or_eq_false_iff.mp hchanged).1⟩

/-- A row that one line is about holds the value of the line after the commit. -/
theorem holds_of_line (call : Call) {κ : Type} [DecidableEq κ] {d d' : Dict κ Cell}
    {cs : List (κ × RowChange)} {cleanup : List κ} {update : Cell → Bool} {isDefault : Bool}
    (h : Table.commit CellUpdate.apply d cs cleanup = some d') {k : κ} (hclean : k ∉ cleanup)
    (hcs : ∀ ch, (k, ch) ∈ cs ↔
      (rowChange call (d.lookup k) l ((d.lookup k).any update) isDefault).1 = some ch)
    (hsame : ∀ c, d.lookup k = some c → update c = false → c.value = l.value) :
    Holds (d'.lookup k) l.value isDefault :=
  stored_of_line call h hclean hcs (fun _ hv _ => hv) hsame

/-- A row that has the value already does not change. -/
theorem rowChange_of_value {c : Cell} (isDefault : Bool) (hv : c.value = l.value)
    (hfile : call.fileNames.lookup l.originalKey = none) :
    rowChange call (some c) l false isDefault = (none, false) := by
  have hname : (settingFileName call.fileNames l.setting.type l.originalKey
      (c.value != l.value) c.fileName).2 = false := by
    unfold settingFileName
    split
    · rfl
    · rw [hfile]
      simp [hv]
  simp only [rowChange, Bool.false_or, Bool.false_and, hname, Bool.false_eq_true, if_false]

/-! ## Names and keys -/

variable {s : Setting} {n : Nat} {v service : String}

theorem WellNamed.separate (hw : WellNamed call db) (h : service ∈ servicesSet call db) :
    Separate db.settings service :=
  hw.services service (mem_servicesSet h)

theorem WellNamed.firstService_joinKey (hw : WellNamed call db)
    (h : service ∈ servicesSet call db) (rest : String) :
    firstService (servicesSet call db) (joinKey service rest) = some (service, rest) :=
  Db.firstService_joinKey (fun _ => hw.separate) h rest

theorem WellNamed.firstService_setting (hw : WellNamed call db) (hs : s ∈ db.settings.all)
    (rest : String) : firstService (servicesSet call db) (joinKey s.id rest) = none :=
  firstService_eq_none.mpr fun _ ht r =>
    joinKey_ne_joinKey (hw.separate ht).noUnderscore ((hw.separate ht).notSetting s hs)
      ((hw.separate ht).notPrefix s hs) rest r

theorem WellNamed.firstService_suffixedKey (hw : WellNamed call db) (hs : s ∈ db.settings.all)
    (n : Nat) : firstService (servicesSet call db) (suffixedKey s.id n) = none :=
  firstService_eq_none.mpr fun _ ht r => (hw.separate ht).ne_joinKey hs n r

theorem mem_globalConfig {config : Dict String String} {services : List String} {key : String} :
    (key, v) ∈ globalConfig config services ↔
      config.lookup key = some v ∧ firstService services key = none := by
  rw [globalConfig, List.mem_filter, Dict.mem_items, Option.isNone_iff_eq_none]

theorem mem_serviceConfig {config : Dict String String} {services : List String} {rest : String} :
    (rest, v) ∈ serviceConfig config services service ↔
      config.lookup (joinKey service rest) = some v ∧
        firstService services (joinKey service rest) = some (service, rest) := by
  rw [serviceConfig, List.mem_filterMap]
  constructor
  · rintro ⟨⟨key, v'⟩, hitem, hmatch⟩
    cases hf : firstService services key with
    | none => rw [hf] at hmatch; cases hmatch
    | some e =>
      obtain ⟨service', rest'⟩ := e
      simp only [hf] at hmatch
      split at hmatch
      · rename_i hsv
        subst hsv
        cases hmatch
        obtain ⟨-, rfl, -⟩ := firstService_eq_some.mp hf
        exact ⟨Dict.mem_items.mp hitem, hf⟩
      · cases hmatch
  · rintro ⟨hl, hf⟩
    exact ⟨_, Dict.mem_items.mpr hl, by simp only [hf, if_true]⟩

section

variable {config : List (String × String)} (hwritten : ∀ l ∈ lines db.settings config, l.WellWritten)
  (hs : s ∈ db.settings.all)

include hwritten hs

/-- The lines about a setting and a number are those of its key. -/
theorem line_iff (hinst : Installed db) :
    (l ∈ lines db.settings config ∧ (l.setting.id, l.suffix) = (s.id, n)) ↔
      ∃ v, (suffixedKey s.id n, v) ∈ config ∧ l = ⟨suffixedKey s.id n, v, s, n⟩ := by
  constructor
  · rintro ⟨hl, hk⟩
    obtain ⟨hid, rfl⟩ := Prod.mk.inj hk
    obtain ⟨hmem, hfind, -⟩ := mem_lines.mp hl
    obtain rfl := db.settings.eq_of_id (Catalog.find_eq_some.mp hfind).1 hs hid
    have hkey := (hwritten l hl).key
    refine ⟨l.value, hkey ▸ hmem, ?_⟩
    rw [← hkey]
  · rintro ⟨v, hv, rfl⟩
    refine ⟨mem_lines.mpr ⟨hv, Catalog.find_eq_some.mpr ⟨hs, rfl⟩, ?_⟩, rfl⟩
    exact splitKey_suffixedKey (db.settings.ne_empty s hs) (hinst.unnumbered s hs) n

/-- A key with a zero at its end is not well written. -/
theorem notMem_of_zero : (joinKey s.id "0", v) ∉ config := by
  intro hmem
  have hline : (⟨joinKey s.id "0", v, s, 0⟩ : Line) ∈ lines db.settings config :=
    mem_lines.mpr ⟨hmem, Catalog.find_eq_some.mpr ⟨hs, rfl⟩,
      splitKey_toString (db.settings.ne_empty s hs) 0⟩
  have hkey := congrArg String.length (hwritten _ hline).key
  simp only [joinKey, suffixedKey_zero, String.length_append] at hkey
  have : 0 < "_".length := by decide
  omega

end

/-- The lines about a global key are the ones that its value in the configuration makes. -/
theorem WellNamed.global_line (hw : WellNamed call db) (hinst : Installed db)
    (hs : s ∈ db.settings.all) :
    (l ∈ lines db.settings (globalConfig (popped call) (servicesSet call db)) ∧
      (l.setting.id, l.suffix) = (s.id, n)) ↔
      ∃ v, (popped call).lookup (suffixedKey s.id n) = some v ∧
        l = ⟨suffixedKey s.id n, v, s, n⟩ := by
  rw [line_iff hw.globals hs hinst]
  refine exists_congr fun v => and_congr_left fun _ => ?_
  rw [mem_globalConfig, and_iff_left (hw.firstService_suffixedKey hs n)]

/-- The lines about a key of a service are the ones that its value in the configuration makes. -/
theorem WellNamed.service_line (hw : WellNamed call db) (hinst : Installed db)
    (hs : s ∈ db.settings.all) (hservice : service ∈ servicesSet call db) :
    (l ∈ lines db.settings (serviceConfig (popped call) (servicesSet call db) service) ∧
      (l.setting.id, l.suffix) = (s.id, n)) ↔
      ∃ v, (popped call).lookup (joinKey service (suffixedKey s.id n)) = some v ∧
        l = ⟨suffixedKey s.id n, v, s, n⟩ := by
  rw [line_iff (hw.rows service hservice) hs hinst]
  refine exists_congr fun v => and_congr_left fun _ => ?_
  rw [mem_serviceConfig, and_iff_left (hw.firstService_joinKey hservice _)]

theorem lookup_of_popped {key : String} (h : (popped call).lookup key = some v) :
    call.config.lookup key = some v := by
  rw [lookup_popped] at h
  split at h
  · cases h
  · exact h

/-! ## The rows -/

/-- A global value is a default on the write side. -/
def globalIsDefault (call : Call) (db : Database) (s : Setting) (n : Nat) (value : String) : Bool :=
  checkValue (popped call) (dbConfigOf call db) s.id value s.default none n true

/-- What the template that the configuration names for a service sets. -/
def namedTemplateValue (call : Call) (db : Database) (service : String) (s : Setting) (n : Nat) :
    Option String :=
  ((popped call).lookup (joinKey service "USE_TEMPLATE")).bind fun template =>
    templateValue db template s.id n

/-- A value of a service is a default on the write side. -/
def rowIsDefault (call : Call) (db : Database) (service : String) (s : Setting) (n : Nat)
    (value : String) : Bool :=
  checkValue (popped call) (dbConfigOf call db) s.id value s.default
    (namedTemplateValue call db service s n) n false

theorem templateVar_name (session : Database) (template id : String) (n : Nat) :
    (TemplateVar.name template).default session id n = templateValue session template id n := by
  have hmap := Dict.lastOf_map (k := (id, n)) (f := fun k => k)
    (l := (session.templateSettings.filter (·.templateId = template)).map fun t =>
      ((t.settingId, t.suffix), t)) TemplateSetting.default (fun _ _ h => h)
  rw [List.map_map] at hmap
  unfold templateValue templateRow
  rw [← hmap]
  rfl

/-- The variable `template` of the tasks never sets anything: it holds a row as soon as there is
one. -/
theorem poolWork_template (p : ServicePlan) (id : String) (n : Nat) :
    (poolWork call db p).template.default (poolWork call db p).session id n = none := by
  unfold poolWork
  by_cases hempty : db.templateSettings = []
  · simp only [hempty, if_true]
    rw [templateVar_name, templateValue, templateRow, sessionOf_templateSettings, hempty]
    split <;> rfl
  · simp only [hempty, if_false]
    rfl

theorem lookup_serviceConfig {config : Dict String String} {services : List String}
    {rest : String} (hf : firstService services (joinKey service rest) = some (service, rest)) :
    (serviceConfig config services service).lookup rest = config.lookup (joinKey service rest) := by
  cases hlist : (serviceConfig config services service).lookup rest with
  | some v =>
    obtain ⟨l₁, l₂, hsplit, -⟩ := List.lookup_eq_some_iff.mp hlist
    have hmem : (rest, v) ∈ serviceConfig config services service := by rw [hsplit]; simp
    exact (mem_serviceConfig.mp hmem).1.symm
  | none =>
    cases hl : config.lookup (joinKey service rest) with
    | none => rfl
    | some v =>
      have hmem := mem_serviceConfig.mpr ⟨hl, hf⟩
      simpa using List.lookup_eq_none_iff.mp hlist _ hmem

/-- What the template of a service sets for the tasks: only the one that the configuration names. -/
theorem serviceTemplate_default_of
    (hf : firstService (servicesSet call db) (joinKey service "USE_TEMPLATE") =
      some (service, "USE_TEMPLATE")) (p : ServicePlan) (s : Setting) (n : Nat) :
    (serviceTemplate (poolWork call db p)
      (serviceConfig (popped call) (servicesSet call db) service)).default
        (poolWork call db p).session s.id n = namedTemplateValue call db service s n := by
  rw [serviceTemplate, lookup_serviceConfig hf, namedTemplateValue]
  cases (popped call).lookup (joinKey service "USE_TEMPLATE") with
  | none => exact poolWork_template p s.id n
  | some template => exact templateVar_name _ template s.id n

theorem serviceTemplate_default (hw : WellNamed call db) (hservice : service ∈ servicesSet call db)
    (p : ServicePlan) (s : Setting) (n : Nat) :
    (serviceTemplate (poolWork call db p)
      (serviceConfig (popped call) (servicesSet call db) service)).default
        (poolWork call db p).session s.id n = namedTemplateValue call db service s n :=
  serviceTemplate_default_of (hw.firstService_joinKey hservice "USE_TEMPLATE") p s n

/-- A key of a setting that only `popped` could have taken away is not there. -/
theorem lookup_eq_none_of_popped {key : String} (h : (popped call).lookup key = none)
    (hkey : key ∉ poppedKeys call) : call.config.lookup key = none := by
  rw [lookup_popped, if_neg hkey] at h
  exact h

theorem WellNamed.notMem_poppedKeys (hw : WellNamed call db) {key : String}
    (huri : key ≠ "DATABASE_URI")
    (hkey : ∀ service, Separate db.settings service → key ≠ joinKey service "IS_DRAFT") :
    key ∉ poppedKeys call := by
  intro hmem
  rcases List.mem_cons.mp hmem with h | h
  · exact huri h
  · split at h
    · cases h
    · obtain ⟨service, hservice, rfl⟩ := List.mem_map.mp h
      exact hkey service (hw.services service (.inl hservice)) rfl

/-- A key that is not well written is not that of a global setting. -/
theorem WellNamed.lookup_zero (hw : WellNamed call db) (hs : s ∈ db.settings.all) :
    (popped call).lookup (joinKey s.id "0") = none :=
  Option.eq_none_iff_forall_ne_some.mpr fun _ hl => notMem_of_zero hw.globals hs
    (mem_globalConfig.mpr ⟨hl, hw.firstService_setting hs _⟩)

/-- The row of a global key of the configuration changes as its one line says. -/
theorem Commits.global_changes (h : Commits env call db plan db') (hm : IsMultisite call)
    (hraise : env.raises none = false) (hw : WellNamed call db) (hinst : Installed db)
    (hs : s ∈ db.settings.all) (hv : (popped call).lookup (suffixedKey s.id n) = some v) :
    Table.commit CellUpdate.apply db.globalValues plan.globalChanges (globalsToDelete call db) =
        some db'.globalValues ∧
      (s.id, n) ∉ globalsToDelete call db ∧
      ∀ ch, ((s.id, n), ch) ∈ plan.globalChanges ↔
        (rowChange call (db.globalValues.lookup (s.id, n)) ⟨suffixedKey s.id n, v, s, n⟩
          ((db.globalValues.lookup (s.id, n)).any (shouldUpdate call (suffixedKey s.id n) v))
          (globalIsDefault call db s n v)).1 = some ch := by
  obtain ⟨missing, -, hsession, hchanges, -, -⟩ := h.multisite hm
  have hcommit := (commitTables_eq_some h.tables).1
  rw [hsession, sessionOf_globalValues] at hcommit
  refine ⟨hcommit, fun hmem => ?_, fun ch => ?_⟩
  · have hvanished := (mem_globalsToDelete.mp hmem).2
    rw [vanished, lookup_of_popped hv] at hvanished
    cases hvanished
  · have hchange : (globalChange (poolWork call db (servicePlan call db missing))
        ⟨suffixedKey s.id n, v, s, n⟩).1 =
        (rowChange call (db.globalValues.lookup (s.id, n)) ⟨suffixedKey s.id n, v, s, n⟩
          ((db.globalValues.lookup (s.id, n)).any (shouldUpdate call (suffixedKey s.id n) v))
          (globalIsDefault call db s n v)).1 := by
      simp only [globalChange, poolWork_template]
      rfl
    rw [hchanges, mem_globalChanges, ← hchange]
    constructor
    · rintro ⟨-, l, hl, hk, hch⟩
      obtain ⟨v', hv', rfl⟩ := (hw.global_line hinst hs).mp ⟨hl, hk.symm⟩
      rw [hv] at hv'
      obtain rfl := Option.some.inj hv'
      exact hch
    · intro hch
      exact ⟨hraise, _, ((hw.global_line (n := n) hinst hs).mpr ⟨v, hv, rfl⟩).1, rfl, hch⟩

/-- A global key of the configuration leaves its value in its row. -/
theorem Commits.holds_global (h : Commits env call db plan db') (hm : IsMultisite call)
    (hraise : env.raises none = false) (hw : WellNamed call db) (hinst : Installed db)
    (hs : s ∈ db.settings.all)
    (hv : (popped call).lookup (suffixedKey s.id n) = some v)
    (hmay : MayWrite call (suffixedKey s.id n) v (db.globalValues.lookup (s.id, n))) :
    Holds (db'.globalValues.lookup (s.id, n)) v (globalIsDefault call db s n v) := by
  obtain ⟨hcommit, hclean, hcs⟩ := h.global_changes hm hraise hw hinst hs hv
  exact holds_of_line call (l := ⟨suffixedKey s.id n, v, s, n⟩) hcommit hclean hcs
    fun c hc => hmay.shouldUpdate (l := ⟨suffixedKey s.id n, v, s, n⟩) hc

/-- A global key whose row the method may not write over keeps it. -/
theorem Commits.keeps_global (h : Commits env call db plan db') (hm : IsMultisite call)
    (hraise : env.raises none = false) (hw : WellNamed call db) (hinst : Installed db)
    (hs : s ∈ db.settings.all) (hfile : s.type ≠ .file)
    (hv : (popped call).lookup (suffixedKey s.id n) = some v) {c : Cell}
    (hc : db.globalValues.lookup (s.id, n) = some c)
    (hnot : methodsAreCompatible call.method c.method
      (schedulerCanOverride call.explicitKeys (suffixedKey s.id n) v) = false) :
    db'.globalValues.lookup (s.id, n) = some c := by
  obtain ⟨hcommit, hclean, hcs⟩ := h.global_changes hm hraise hw hinst hs hv
  have hautoconf : call.method ≠ .autoconf := fun he => by
    rw [he, methodsAreCompatible_autoconf] at hnot
    cases hnot
  refine (Table.lookup_commit_of_untouched _ hcommit (fun ch hch => ?_) hclean).trans hc
  rw [hcs, hc] at hch
  simp [rowChange, settingFileName, hfile, shouldUpdate, hnot, hautoconf] at hch

/-- A global key that the configuration does not have keeps its row if another method owns it. -/
theorem Commits.global_of_unnamed (h : Commits env call db plan db') (hm : IsMultisite call)
    (hw : WellNamed call db) (hinst : Installed db) (hs : s ∈ db.settings.all)
    (hid : s.id ≠ "DATABASE_URI") (hv : (popped call).lookup (suffixedKey s.id n) = none) :
    db'.globalValues.lookup (s.id, n) =
      (db.globalValues.lookup (s.id, n)).filter (·.method ≠ call.method) := by
  obtain ⟨missing, -, hsession, hchanges, -, -⟩ := h.multisite hm
  have hcommit := (commitTables_eq_some h.tables).1
  rw [hsession, sessionOf_globalValues] at hcommit
  have hnoChange : ∀ ch, ((s.id, n), ch) ∉ plan.globalChanges := by
    intro ch hch
    rw [hchanges, mem_globalChanges] at hch
    obtain ⟨-, l, hl, hk, -⟩ := hch
    obtain ⟨v', hv', -⟩ := (hw.global_line hinst hs).mp ⟨hl, hk.symm⟩
    rw [hv] at hv'
    cases hv'
  have hnone : call.config.lookup (suffixedKey s.id n) = none := by
    refine lookup_eq_none_of_popped hv (hw.notMem_poppedKeys (fun he => hid ?_)
      fun service hservice => hservice.ne_joinKey hs n _)
    exact (suffixedKey_eq (db.settings.ne_empty s hs) (hinst.unnumbered s hs) (by decide) he).1
  have hzero : call.config.lookup (joinKey s.id "0") = none := by
    refine lookup_eq_none_of_popped (hw.lookup_zero hs) (hw.notMem_poppedKeys (fun he => ?_)
      fun service hservice => joinKey_ne_joinKey hservice.noUnderscore (hservice.notSetting s hs)
        (hservice.notPrefix s hs) _ _)
    have hsplit := congrArg splitKey he
    rw [show "0" = toString 0 from rfl, splitKey_toString (db.settings.ne_empty s hs),
      splitKey_of_none (by decide)] at hsplit
    exact hid (Prod.mk.inj hsplit).1
  have hvanished : vanished call.config (suffixedKey s.id n) n = true := by
    rw [vanished, hnone]
    by_cases hn : n = 0
    · rw [hn, suffixedKey_zero, hzero]; rfl
    · simp [hn]
  rw [Table.lookup_commit_of_unchanged _ hcommit hnoChange]
  cases hl : db.globalValues.lookup (s.id, n) with
  | none => simp
  | some c =>
    have hclean : (s.id, n) ∈ globalsToDelete call db ↔ c.method = call.method := by
      rw [mem_globalsToDelete, and_iff_left hvanished, hl]
      simp
    by_cases hown : c.method = call.method
    · rw [if_pos (hclean.mpr hown)]
      simp [Option.filter, hown]
    · rw [if_neg fun hmem => hown (hclean.mp hmem)]
      simp [Option.filter, hown]

/-- The rows of a service of the call before and after. -/
theorem Commits.rows_commit (h : Commits env call db plan db') (hm : IsMultisite call)
    (hservice : KeptService call db service) :
    ∃ p, (∀ id n, (sessionOf db p).servicesSettings.lookup (service, id, n) =
        db.servicesSettings.lookup (service, id, n)) ∧
      plan.serviceChanges = (multisitePlan env call db p).serviceChanges ∧
      Table.commit CellUpdate.apply (sessionOf db p).servicesSettings plan.serviceChanges
        (serviceRowsToDelete call db) = some db'.servicesSettings := by
  obtain ⟨missing, hmissing, hsession, -, hchanges, -⟩ := h.multisite hm
  refine ⟨servicePlan call db missing, fun id n => ?_, hchanges, ?_⟩
  · rw [lookup_sessionOf_servicesSettings, if_neg]
    exact hservice.notMem_hardDelete hm hmissing
  · rw [← hsession]
    exact (commitTables_eq_some h.tables).2.1

/-- The row of a key of a service of the call changes as its one line says. -/
theorem Commits.row_changes (h : Commits env call db plan db') (hm : IsMultisite call)
    (hraise : env.raises (some service) = false) (hw : WellNamed call db) (hinst : Installed db)
    (hs : s ∈ db.settings.all) (hservice : KeptService call db service)
    (hv : (popped call).lookup (joinKey service (suffixedKey s.id n)) = some v) :
    ∃ d, d.lookup (service, s.id, n) = db.servicesSettings.lookup (service, s.id, n) ∧
      Table.commit CellUpdate.apply d plan.serviceChanges (serviceRowsToDelete call db) =
        some db'.servicesSettings ∧
      (service, s.id, n) ∉ serviceRowsToDelete call db ∧
      ∀ ch, ((service, s.id, n), ch) ∈ plan.serviceChanges ↔
        (rowChange call (db.servicesSettings.lookup (service, s.id, n))
          ⟨suffixedKey s.id n, v, s, n⟩ ((db.servicesSettings.lookup (service, s.id, n)).any
            (shouldUpdate call (joinKey service (suffixedKey s.id n)) v))
          (rowIsDefault call db service s n v)).1 = some ch := by
  obtain ⟨p, hrow, hchanges, hcommit⟩ := h.rows_commit hm hservice
  have hset := hservice.known
  have hclean : (service, s.id, n) ∉ serviceRowsToDelete call db := fun hmem => by
    have hvanished := (mem_serviceRowsToDelete.mp hmem).2.2
    rw [vanished, serviceRowKey, lookup_of_popped hv] at hvanished
    cases hvanished
  refine ⟨_, hrow s.id n, hcommit, hclean, fun ch => ?_⟩
  have hchange : (serviceChange (poolWork call db p) (serviceTemplate (poolWork call db p)
      (serviceConfig (popped call) (servicesSet call db) service)) service
        ⟨suffixedKey s.id n, v, s, n⟩).1 =
      (rowChange call ((sessionOf db p).servicesSettings.lookup (service, s.id, n))
        ⟨suffixedKey s.id n, v, s, n⟩
        (((sessionOf db p).servicesSettings.lookup (service, s.id, n)).any
          (shouldUpdate call (joinKey service (suffixedKey s.id n)) v))
        (rowIsDefault call db service s n v)).1 := by
    simp only [serviceChange, serviceIsDefault, serviceTemplate_default hw hset]
    rfl
  rw [hchanges, mem_serviceChanges, ← hrow, ← hchange]
  constructor
  · rintro ⟨-, -, l, hl, hk, hch⟩
    obtain ⟨v', hv', rfl⟩ := (hw.service_line hinst hs hset).mp ⟨hl, hk.symm⟩
    rw [hv] at hv'
    obtain rfl := Option.some.inj hv'
    exact hch
  · intro hch
    have hl := ((hw.service_line (n := n) hinst hs hset).mpr ⟨v, hv, rfl⟩).1
    exact ⟨configured_of_line hl, hraise, _, hl, rfl, hch⟩

/-- A key of a service of the call leaves its value in its row. -/
theorem Commits.holds_row (h : Commits env call db plan db') (hm : IsMultisite call)
    (hraise : env.raises (some service) = false) (hw : WellNamed call db) (hinst : Installed db)
    (hs : s ∈ db.settings.all) (hservice : KeptService call db service)
    (hv : (popped call).lookup (joinKey service (suffixedKey s.id n)) = some v)
    (hmay : MayWrite call (joinKey service (suffixedKey s.id n)) v
      (db.servicesSettings.lookup (service, s.id, n))) :
    Holds (db'.servicesSettings.lookup (service, s.id, n)) v
      (rowIsDefault call db service s n v) := by
  obtain ⟨d, hrow, hcommit, hclean, hcs⟩ := h.row_changes hm hraise hw hinst hs hservice hv
  rw [← hrow] at hmay
  refine holds_of_line call (l := ⟨suffixedKey s.id n, v, s, n⟩) hcommit hclean
    (fun ch => ?_) fun c hc => hmay.shouldUpdate (l := ⟨suffixedKey s.id n, v, s, n⟩) hc
  rw [hcs, hrow]

/-- A key of a service of the call that the configuration does not have keeps its row if another
method owns it. -/
theorem Commits.row_of_unnamed (h : Commits env call db plan db') (hm : IsMultisite call)
    (hw : WellNamed call db) (hinst : Installed db) (hs : s ∈ db.settings.all)
    (hservice : KeptService call db service)
    (hv : call.config.lookup (joinKey service s.id) = none)
    (hzero : call.config.lookup (joinKey service (joinKey s.id "0")) = none) :
    db'.servicesSettings.lookup (service, s.id, 0) =
      (db.servicesSettings.lookup (service, s.id, 0)).filter (·.method ≠ call.method) := by
  obtain ⟨p, hrow, hchanges, hcommit⟩ := h.rows_commit hm hservice
  have hset := hservice.known
  have hnoChange : ∀ ch, ((service, s.id, 0), ch) ∉ plan.serviceChanges := by
    intro ch hch
    rw [hchanges, mem_serviceChanges] at hch
    obtain ⟨-, -, l, hl, hk, -⟩ := hch
    obtain ⟨v', hv', -⟩ := (hw.service_line hinst hs hset).mp ⟨hl, hk.symm⟩
    have := lookup_of_popped hv'
    rw [suffixedKey_zero, hv] at this
    cases this
  have hvanished : vanished call.config (joinKey service s.id) 0 = true := by
    rw [vanished, hv, joinKey_assoc, hzero]
    rfl
  rw [Table.lookup_commit_of_unchanged _ hcommit hnoChange, hrow]
  cases hl : db.servicesSettings.lookup (service, s.id, 0) with
  | none => simp
  | some c =>
    have hclean : (service, s.id, 0) ∈ serviceRowsToDelete call db ↔ c.method = call.method := by
      rw [mem_serviceRowsToDelete, hl]
      have hskip := hm.2.1
      simp only [hskip, hservice.notDrafted, not_false_eq_true, and_self, serviceRowKey, suffixedKey_zero,
        hvanished, and_true, Option.some.injEq, exists_eq_left']
    by_cases hown : c.method = call.method
    · rw [if_pos (hclean.mpr hown)]
      simp [Option.filter, hown]
    · rw [if_neg fun hmem => hown (hclean.mp hmem)]
      simp [Option.filter, hown]

/-- A service that the call has keys for is there after it. -/
theorem Commits.service_isSome (h : Commits env call db plan db') (hm : IsMultisite call)
    (hraise : env.raises (some service) = false) (hw : WellNamed call db) (hinst : Installed db)
    (hs : s ∈ db.settings.all) (hservice : KeptService call db service)
    (hv : (popped call).lookup (joinKey service (suffixedKey s.id n)) = some v) :
    (db'.services.lookup service).isSome := by
  obtain ⟨missing, hmissing, hsession, -, -, hnew⟩ := h.multisite hm
  have hset := hservice.known
  have hl := ((hw.service_line (n := n) hinst hs hset).mpr ⟨v, hv, rfl⟩).1
  refine (services_of_commit h.tables service).mpr ?_
  cases hdb : db.services.lookup service with
  | some sv =>
    refine .inl ?_
    rw [hsession]
    exact (lookup_sessionOf_services_isSome service).mpr
      ⟨by simp [hdb], hservice.notMem_hardDelete hm hmissing⟩
  | none =>
    rw [hnew]
    exact .inr (newService_of_line (configured_of_line hl) hraise hl hdb)

theorem mem_newServices {missing : List String} {id : String} {sv : Service}
    (h : (id, sv) ∈
      (multisitePlan env call db (servicePlan call db missing)).newServices) :
    id ∈ serverNames call.config ∨ (db.services.lookup id).isSome := by
  rcases List.mem_append.mp h with h | h
  · obtain ⟨id', hid', he⟩ := List.mem_map.mp h
    obtain rfl : id' = id := (Prod.mk.inj he).1
    have hdraft := List.mem_dedup.mp (List.mem_filter.mp hid').1
    exact .inl (List.mem_filter.mp hdraft).1
  · obtain ⟨r, hr, hmem⟩ := List.mem_flatMap.mp h
    rcases mem_poolResults.mp hr with ⟨server, hserver, -, rfl⟩ | ⟨-, rfl⟩
    · simp only [processService] at hmem
      split at hmem
      · obtain rfl : id = server := (Prod.mk.inj (List.mem_singleton.mp hmem)).1
        exact mem_of_configured hserver
      · cases hmem
    · cases hmem

theorem Commits.settings_eq (h : Commits env call db plan db') (hm : IsMultisite call) :
    db'.settings = db.settings := by
  obtain ⟨missing, -, hsession, -⟩ := h.multisite hm
  rw [(commitTables_eq_some h.tables).2.2.2.2.1, hsession, sessionOf_settings]

theorem Commits.templateSettings_eq (h : Commits env call db plan db') (hm : IsMultisite call) :
    db'.templateSettings = db.templateSettings := by
  obtain ⟨missing, -, hsession, -⟩ := h.multisite hm
  rw [(commitTables_eq_some h.tables).2.2.2.2.2, hsession, sessionOf_templateSettings]

theorem Installed.of_eq (h : Installed db) (hsettings : db'.settings = db.settings)
    (htemplates : db'.templateSettings = db.templateSettings) : Installed db' := by
  constructor
  · rw [hsettings]
    exact h.unnumbered
  · rw [hsettings]
    exact h.serverName
  · rw [hsettings]
    exact h.multisite
  · rw [hsettings]
    exact h.useTemplate
  · rw [hsettings, htemplates]
    exact h.templates

/-- What `get_config` needs of the database is kept. -/
theorem Commits.readable (h : Commits env call db plan db') (hm : IsMultisite call)
    (hw : WellNamed call db) (hr : Readable db) : Readable db' := by
  have hsettings := h.settings_eq hm
  obtain ⟨missing, hmissing, hsession, hglobals, hrows, hnew⟩ := h.multisite hm
  obtain ⟨hcg, hcr, -⟩ := commitTables_eq_some h.tables
  refine ⟨hr.installed.of_eq hsettings (h.templateSettings_eq hm), ?_, ?_, ?_⟩
  · intro id hid
    rw [hsettings]
    refine hw.services id ?_
    rcases (services_of_commit h.tables id).mp hid with hs | ⟨sv, hsv⟩
    · rw [hsession] at hs
      exact .inr ((lookup_sessionOf_services_isSome id).mp hs).1
    · rw [hnew] at hsv
      exact mem_newServices hsv
  · intro k c hk hpos s hs hid
    rw [hsettings] at hs
    rcases Table.isSome_or_put_of_commit _ hcg hk with hold | ⟨w, hput⟩
    · rw [hsession, sessionOf_globalValues] at hold
      obtain ⟨c', hc'⟩ := Option.isSome_iff_exists.mp hold
      exact hr.globals k c' hc' hpos s hs hid
    · rw [hglobals, mem_globalChanges] at hput
      obtain ⟨-, l, hl, rfl, -⟩ := hput
      obtain rfl := db.settings.eq_of_id hs (Catalog.find_eq_some.mp (mem_lines.mp hl).2.1).1 hid
      exact (hw.globals l hl).numbered hpos
  · intro k c hk hpos s hs hid
    rw [hsettings] at hs
    rcases Table.isSome_or_put_of_commit _ hcr hk with hold | ⟨w, hput⟩
    · rw [hsession, lookup_sessionOf_servicesSettings] at hold
      split at hold
      · cases hold
      · obtain ⟨c', hc'⟩ := Option.isSome_iff_exists.mp hold
        exact hr.rows k c' hc' hpos s hs hid
    · rw [hrows, mem_serviceChanges] at hput
      obtain ⟨-, -, l, hl, hkey, -⟩ := hput
      rw [hkey] at hid hpos
      obtain rfl := db.settings.eq_of_id hs (Catalog.find_eq_some.mp (mem_lines.mp hl).2.1).1 hid
      have hset := (firstService_eq_some.mp (mem_serviceConfig.mp (mem_lines.mp hl).1).2).1
      exact (hw.rows k.1 hset l hl).numbered hpos

/-- The configuration stays multisite. -/
theorem Commits.storedMultisite (h : Commits env call db plan db') (hm : IsMultisite call)
    (hraise : env.raises none = false) (hw : WellNamed call db) (hr : Readable db)
    (hmay : MayWrite call "MULTISITE" "yes" (db.globalValues.lookup ("MULTISITE", 0))) :
    StoredMultisite db' := by
  obtain ⟨s, hs, hid, hdefault⟩ := hr.installed.multisite
  have hyes := hm.lookup_multisite
  have hholds := h.holds_global (n := 0) hm hraise hw hr.installed hs
    (by rw [suffixedKey_zero, hid]; exact hyes) (by rw [suffixedKey_zero, hid]; exact hmay)
  rw [hid] at hholds
  rcases hholds with ⟨c, hc, hv⟩ | ⟨-, hisDefault⟩
  · rw [StoredMultisite, hc, Option.map_some, hv]
  · rw [globalIsDefault, hid, hdefault, checkValue, if_neg (by decide)] at hisDefault
    exact absurd hisDefault (by simp [isDefaultValue])

/-! ## The services -/

/-- What the multisite branch does to the services. -/
theorem Commits.services_plan (h : Commits env call db plan db') (hm : IsMultisite call) :
    ∃ missing, missingIds call db = some missing ∧
      plan.session = sessionOf db (servicePlan call db missing) ∧
      plan.updatedDrafts = (servicePlan call db missing).updatedDrafts := by
  obtain ⟨missing, hmissing, hsession, -⟩ := h.multisite hm
  refine ⟨missing, hmissing, hsession, ?_⟩
  have hplan := h.planned
  unfold planOf at hplan
  rw [hm.1, hm.2.1, hmissing] at hplan
  simp only [Bool.false_eq_true, if_false, if_pos hm.2.2] at hplan
  rw [← Except.ok.inj hplan]
  rfl

theorem mem_drafts (missing : List String) {id : String} :
    id ∈ (servicePlan call db missing).drafts ↔ id ∈ serverNames call.config ∧
      (call.config.lookup (joinKey id "IS_DRAFT")).getD "no" = "yes" := by
  show id ∈ List.dedup _ ↔ _
  rw [List.mem_dedup, List.mem_filter, decide_eq_true_eq]

end

end BunkerWeb.Db
