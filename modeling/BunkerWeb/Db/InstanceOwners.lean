import BunkerWeb.Db.Instances
import BunkerWeb.Lib.Run

/-!
# Who keeps an instance

A registration is an instance that some method other than autoconf has added and nobody has
deleted since. `State` carries the registrations beside the registry.

- **The defect** (`taken_over_then_deleted`): autoconf lists a hostname that the web interface has
  registered, and the row becomes autoconf's; the next list without it deletes the row.
- **The result** (`owners_kept`): in every run in which autoconf lists no registered hostname,
  unless with the method that registered it, every registration keeps its row and its method.
-/

namespace BunkerWeb.Db.Instances

open Lib

/-! ## Runs -/

/-- Who can register an instance and expect to keep it. -/
abbrev Owner := {m : Method // m ≠ .autoconf}

def ownerOf (m : Method) : Option Owner := if h : m = .autoconf then none else some ⟨m, h⟩

/-- The calls that anyone makes, in the order of their commits. -/
inductive Call where
  | autoconf (instances : List Instance) (changed : Bool)
  | add (hostname port serverName : String) (method : Method) (changed : Bool)
      (name : Option String) (listenHttps : Bool) (httpsPort : String)
  | deleteMany (hostnames : List String) (changed : Bool)
  | delete (hostname : String) (changed : Bool)
  | update (hostname : String) (status : Status)
  | updateFields (hostname : String) (fields : Fields) (changed : Bool)

/-- The registry, and beside it who registered each hostname, until it is deleted. -/
structure State where
  db : Registry
  owners : String → Option Owner

/-- The registrations after a call with its answer; an empty text is success. -/
def Call.owners (c : Call) (answer : String) (owners : String → Option Owner) :
    String → Option Owner :=
  if answer ≠ "" then owners
  else match c with
    | .add h _ _ m _ _ _ _ => fun k => if k = h then ownerOf m else owners k
    | .deleteMany hs _ => fun k => if k ∈ hs then none else owners k
    | .delete h _ => fun k => if k = h then none else owners k
    | .updateFields h fields _ => fun k =>
      if k = h then (owners k).bind fun o => ownerOf (fields.method.getD o) else owners k
    | _ => owners

def Call.perform (env : Env) (db : Registry) : Call → String × Registry
  | .autoconf instances changed => updateInstances env db instances .autoconf changed
  | .add h port serverName m changed name listenHttps httpsPort =>
    addInstance env db h port serverName m changed name listenHttps httpsPort
  | .deleteMany hs changed => deleteInstances env db hs changed
  | .delete h changed => deleteInstance env db h changed
  | .update h status => updateInstance env db h status
  | .updateFields h fields changed => updateInstanceFields env db h fields changed

def step (s : State) (e : Env × Call) : State :=
  let r := e.2.perform e.1 s.db
  ⟨r.2, e.2.owners r.1 s.owners⟩

/-- Every registration has its row, with the method that registered it. -/
def OwnersKept (s : State) : Prop :=
  ∀ h o, s.owners h = some o → ∃ row, s.db.rows.lookup h = some row ∧ row.method = o

/-- Autoconf names no hostname that another method registered, unless with that method. -/
def Respectful (s : State) (e : Env × Call) : Prop :=
  match e.2 with
  | .autoconf instances _ => e.1.Accepts instances → ∀ h o, s.owners h = some o →
      ∀ m ∈ Dict.lastOf h (named .autoconf instances), m = o
  | _ => True

theorem ownerOf_eq_some {m : Method} {o : Owner} : ownerOf m = some o ↔ m = o := by
  unfold ownerOf
  split
  next h => exact ⟨by simp, fun hm => absurd (hm ▸ h) o.2⟩
  next h => rw [Option.some.injEq, Subtype.ext_iff]

variable {s : State} {env : Env}

/-- Autoconf's call: a row of another method is not deleted, and keeps its method if it is named
with that. -/
theorem autoconf_kept (hs : OwnersKept s) (instances : List Instance) (changed : Bool)
    (hr : Respectful s (env, .autoconf instances changed)) :
    OwnersKept (step s (env, .autoconf instances changed)) := by
  have howners : (step s (env, .autoconf instances changed)).owners = s.owners := by
    simp [step, Call.owners]
  intro h o ho
  rw [howners] at ho
  obtain ⟨row, hrow, hm⟩ := hs h o ho
  rcases updateInstances_snd env s.db instances .autoconf changed with
    hsame | ⟨hacc, rows, hput, hnew⟩
  · exact ⟨row, by simpa only [step, Call.perform, hsame] using hrow, hm⟩
  · have hbase :
        (Table.deleteAll s.db.rows (ofMethod s.db.rows .autoconf)).lookup h = some row := by
      rw [Table.lookup_deleteAll, if_neg, hrow]
      rw [mem_ofMethod]
      rintro ⟨row', hrow', hm'⟩
      obtain rfl : row = row' := Option.some.inj (hrow.symm.trans hrow')
      exact o.2 (hm ▸ hm')
    obtain ⟨row', hrow', hm'⟩ := method_putInstances hput hbase
    refine ⟨row', by simpa only [step, Call.perform, hnew] using hrow', ?_⟩
    rw [hm', hm]
    cases hl : Dict.lastOf h (named .autoconf instances) with
    | none => rfl
    | some m => exact hr hacc h o ho m hl

/-- A call that fails leaves both the rows and the registrations. -/
theorem step_of_failed {c : Call} (h : Failed s.db (c.perform env s.db)) :
    step s (env, c) = s := by
  simp [step, Call.owners, h.1, h.2]

theorem add_kept (hs : OwnersKept s) (h port serverName : String) (m : Method) (changed : Bool)
    (name : Option String) (listenHttps : Bool) (httpsPort : String) :
    OwnersKept (step s (env, .add h port serverName m changed name listenHttps httpsPort)) := by
  rcases addInstance_cases env s.db h port serverName m changed name listenHttps httpsPort with
    hf | ⟨hnone, row, metadata, hm, hadd⟩
  · rwa [step_of_failed hf]
  intro k o ho
  simp only [step, Call.perform, hadd, Call.owners, ne_eq, not_true_eq_false, if_false] at ho ⊢
  by_cases hk : k = h
  · subst hk
    rw [if_pos rfl, ownerOf_eq_some] at ho
    exact ⟨row, AList.lookup_insert _, hm.trans ho⟩
  · rw [if_neg hk] at ho
    rw [AList.lookup_insert_ne hk]
    exact hs k o ho

theorem deleteMany_kept (hs : OwnersKept s) (hosts : List String) (changed : Bool) :
    OwnersKept (step s (env, .deleteMany hosts changed)) := by
  rcases deleteInstances_cases env s.db hosts changed with hf | ⟨metadata, hdel⟩
  · rwa [step_of_failed hf]
  intro k o ho
  simp only [step, Call.perform, hdel, Call.owners, ne_eq, not_true_eq_false, if_false] at ho ⊢
  split at ho
  · cases ho
  next hk => rw [Table.lookup_deleteAll, if_neg hk]; exact hs k o ho

theorem delete_kept (hs : OwnersKept s) (h : String) (changed : Bool) :
    OwnersKept (step s (env, .delete h changed)) := by
  rcases deleteInstance_cases env s.db h changed with hf | ⟨metadata, hdel⟩
  · rwa [step_of_failed hf]
  intro k o ho
  simp only [step, Call.perform, hdel, Call.owners, ne_eq, not_true_eq_false, if_false] at ho ⊢
  split at ho
  · cases ho
  next hk => rw [AList.lookup_erase_ne hk]; exact hs k o ho

theorem update_kept (hs : OwnersKept s) (h : String) (status : Status) :
    OwnersKept (step s (env, .update h status)) := by
  rcases updateInstance_cases env s.db h status with hf | ⟨row, lastSeen, hrow, hupd⟩
  · rwa [step_of_failed hf]
  intro k o ho
  simp only [step, Call.perform, hupd, Call.owners, ne_eq, not_true_eq_false, if_false] at ho ⊢
  by_cases hk : k = h
  · subst hk
    obtain ⟨row', hrow', hm⟩ := hs k o ho
    obtain rfl : row = row' := Option.some.inj (hrow.symm.trans hrow')
    exact ⟨_, AList.lookup_insert _, hm⟩
  · rw [AList.lookup_insert_ne hk]
    exact hs k o ho

theorem updateFields_kept (hs : OwnersKept s) (h : String) (fields : Fields) (changed : Bool) :
    OwnersKept (step s (env, .updateFields h fields changed)) := by
  rcases updateInstanceFields_cases env s.db h fields changed with
    hf | ⟨rows, metadata, hupd, hrows⟩
  · rwa [step_of_failed hf]
  intro k o ho
  simp only [step, Call.perform, hupd, Call.owners, ne_eq, not_true_eq_false, if_false] at ho ⊢
  subst hrows
  by_cases hk : k = h
  · subst hk
    rw [if_pos rfl] at ho
    obtain ⟨o', ho', hm'⟩ := Option.bind_eq_some_iff.mp ho
    obtain ⟨row, hrow, hm⟩ := hs k o' ho'
    rw [hrow]
    refine ⟨_, AList.lookup_insert _, ?_⟩
    rw [Row.set, hm]
    exact ownerOf_eq_some.mp hm'
  · rw [if_neg hk] at ho
    cases s.db.rows.lookup h with
    | none => exact hs k o ho
    | some row =>
      rw [Option.elim_some, AList.lookup_insert_ne hk]
      exact hs k o ho

theorem step_kept (s : State) (e : Env × Call) (hs : OwnersKept s) (hr : Respectful s e) :
    OwnersKept (step s e) := by
  obtain ⟨env, c⟩ := e
  cases c with
  | autoconf instances changed => exact autoconf_kept hs instances changed hr
  | add => exact add_kept hs _ _ _ _ _ _ _ _
  | deleteMany => exact deleteMany_kept hs _ _
  | delete => exact delete_kept hs _ _
  | update => exact update_kept hs _ _
  | updateFields => exact updateFields_kept hs _ _ _

/-- In every run from any registry whose registrations have their rows, they keep them as long as
autoconf names no hostname of another method. -/
theorem owners_kept {s : State} {calls : List (Env × Call)} (hs : OwnersKept s)
    (hr : Run.Meets step Respectful s calls) : OwnersKept (Run.run step s calls) :=
  Run.invariant step_kept hs hr

/-! A hostname of the web interface that autoconf lists once, and no longer after that. -/

def online : Env where
  isValidHost _ := true
  readonly := false
  now := 0
  commitError := none
  integrityError := ""

def seen (hostname : String) : Instance where
  hostname := hostname
  name := none
  env := ∅
  type := none
  status := none
  health := none
  method := none
  creationDate := none
  lastSeen := none

def addByUi (hostname : String) : Env × Call :=
  (online, .add hostname "5000" "bwapi" .ui true none false "5443")

def empty : State := ⟨⟨∅, some ⟨false, none⟩⟩, fun _ => none⟩

theorem empty_kept : OwnersKept empty := fun _ _ ho => by cases ho

/-- Autoconf lists a hostname of its own. -/
theorem respectful_seen {s : State} {h : String} (hs : s.owners h = none) :
    Respectful s (online, .autoconf [seen h] false) := by
  intro _ k o ho m hm
  obtain ⟨e, he, hk⟩ := List.mem_filterMap.mp (Dict.mem_of_lastOf hm)
  obtain rfl := List.mem_singleton.mp he
  cases hk
  cases hs.symm.trans ho

theorem owners_kept_disjoint :
    OwnersKept (Run.run step empty
      [addByUi "bunkerweb", (online, .autoconf [seen "bw-1"] false),
        (online, .autoconf [seen "bw-2"] false)]) := by
  exact owners_kept empty_kept
    ⟨trivial, respectful_seen (by decide), respectful_seen (by decide), trivial⟩

/-- The first call takes the row over, the second one deletes it. -/
theorem taken_over_then_deleted :
    let s := step empty (addByUi "bunkerweb")
    let first := (online, Call.autoconf [seen "bunkerweb", seen "bw-1"] false)
    let second := (online, Call.autoconf [seen "bw-1"] false)
    OwnersKept s ∧ s.owners "bunkerweb" = some ⟨.ui, by decide⟩ ∧
      ((Run.run step s [first]).db.rows.lookup "bunkerweb").map Row.method = some .autoconf ∧
      (Run.run step s [first, second]).db.rows.lookup "bunkerweb" = none ∧
      ¬ OwnersKept (Run.run step s [first, second]) := by
  intro s first second
  have hdeleted : (Run.run step s [first, second]).db.rows.lookup "bunkerweb" = none := by decide
  refine ⟨add_kept empty_kept _ _ _ _ _ _ _ _, by decide, by decide, hdeleted, fun hk => ?_⟩
  obtain ⟨row, hrow, -⟩ := hk "bunkerweb" ⟨.ui, by decide⟩ (by decide)
  cases hdeleted.symm.trans hrow

end BunkerWeb.Db.Instances
