import BunkerWeb.Db.Tables

/-!
# The registered instances (`Database.py`)

Who runs an instance registers it: the web interface, the API and `save_config.py` through
`add_instance`, autoconf with the list of what it sees through `update_instances`, which takes out
all rows of its own method and puts the list in.

- **The loop** (`method_putInstances`): a row that is there when the loop begins stays, under the
  method that its hostname is last listed with, whoever owns it.
- **The calls** (`addInstance_cases` and so on): a call either fails and leaves everything as it
  was, or does the one thing it says.
-/

namespace BunkerWeb.Db.Instances

open Lib

/-- `INSTANCE_TYPE_ENUM`. -/
inductive InstanceType where
  | static
  | container
  | pod
  deriving DecidableEq, Repr

/-- `INSTANCE_STATUS_ENUM`. -/
inductive Status where
  | loading
  | up
  | down
  | failover
  deriving DecidableEq, Repr

/-- The columns of `bw_instances` beside the hostname. Ports are as the environment has them. -/
structure Row where
  name : String
  port : String
  listenHttps : Bool
  httpsPort : String
  serverName : String
  type : InstanceType
  status : Status
  method : Method
  creationDate : Nat
  lastSeen : Nat
  deriving DecidableEq, Repr

/-- The two columns of the row of `bw_metadata` that belong to the instances. -/
structure Metadata where
  instancesChanged : Bool
  lastInstancesChange : Option Nat
  deriving DecidableEq, Repr

/-- The text of a method. -/
def methodText : Method → String
  | .api => "api"
  | .ui => "ui"
  | .scheduler => "scheduler"
  | .autoconf => "autoconf"
  | .manual => "manual"
  | .wizard => "wizard"

structure Registry where
  rows : Dict String Row
  metadata : Option Metadata

/-- What a call finds: the host names that `is_valid_host` accepts, the state of the connection, the
clock, the error of the commit, if it has one, and the text of a broken primary key. -/
structure Env where
  isValidHost : String → Bool
  readonly : Bool
  now : Nat
  commitError : Option String
  integrityError : String

/-- An instance as the caller of `update_instances` describes it. -/
structure Instance where
  hostname : Option String
  name : Option String
  env : Dict String String
  type : Option InstanceType
  status : Option Status
  health : Option Bool
  method : Option Method
  creationDate : Option Nat
  lastSeen : Option Nat

def readonlyError : String := "The database is read-only, the changes will not be saved"

/-- `if changed: metadata.instances_changed = True`. -/
def markChanged (env : Env) (changed : Bool) (metadata : Option Metadata) : Option Metadata :=
  if changed then metadata.map fun _ => ⟨true, some env.now⟩ else metadata

/-- The end of every call: the commit goes through, or nothing is changed. -/
def commit (env : Env) (onError : String → String) (old new : Registry) : String × Registry :=
  match env.commitError with
  | none => ("", new)
  | some e => (onError e, old)

section

variable (env : Env) (db : Registry)

/-- `add_instance`. -/
def addInstance (hostname port serverName : String) (method : Method) (changed : Bool)
    (name : Option String) (listenHttps : Bool) (httpsPort : String) : String × Registry :=
  if !env.isValidHost hostname then ("Invalid instance hostname: " ++ hostname, db)
  else if env.readonly then (readonlyError, db)
  else if (db.rows.lookup hostname).isSome then
    ("Instance " ++ hostname ++ " already exists, will not be added.", db)
  else
    -- `name or "manual instance"`.
    let row : Row :=
      { name := if name.getD "" = "" then "manual instance" else name.getD ""
        port, listenHttps, httpsPort, serverName, type := .static, status := .loading, method
        creationDate := env.now, lastSeen := env.now }
    commit env (fun e => "An error occurred while adding the instance " ++ hostname ++ " (port: " ++
        port ++ ", server name: " ++ serverName ++ ", method: " ++ methodText method ++ ").\n" ++ e)
      db ⟨db.rows.insert hostname row, markChanged env changed db.metadata⟩

/-- `delete_instances`. -/
def deleteInstances (hostnames : List String) (changed : Bool) : String × Registry :=
  if env.readonly then (readonlyError, db)
  else if hostnames.all fun h => (db.rows.lookup h).isNone then
    ("No instances found to delete.", db)
  else
    commit env (fun e => "An error occurred while deleting the instances " ++
        ", ".intercalate hostnames ++ ".\n" ++ e) db
      ⟨Table.deleteAll db.rows hostnames, markChanged env changed db.metadata⟩

/-- `delete_instance`. -/
def deleteInstance (hostname : String) (changed : Bool) : String × Registry :=
  if env.readonly then (readonlyError, db)
  else if (db.rows.lookup hostname).isNone then
    ("Instance " ++ hostname ++ " does not exist, will not be deleted.", db)
  else
    commit env (fun e => "An error occurred while deleting the instance " ++ hostname ++ ".\n" ++ e)
      db ⟨db.rows.erase hostname, markChanged env changed db.metadata⟩

/-- `update_instance`: the status that a health check found. -/
def updateInstance (hostname : String) (status : Status) : String × Registry :=
  if env.readonly then (readonlyError, db)
  else
    match db.rows.lookup hostname with
    | none => ("Instance " ++ hostname ++ " does not exist, will not be updated.", db)
    | some row =>
      let lastSeen := if status ≠ .down then env.now else row.lastSeen
      commit env
        (fun e => "An error occurred while updating the instance " ++ hostname ++ ".\n" ++ e) db
        { db with rows := db.rows.insert hostname { row with status, lastSeen } }

/-- What the caller of `update_instance_fields` sets. -/
structure Fields where
  name : Option String
  port : Option String
  listenHttps : Option Bool
  httpsPort : Option String
  serverName : Option String
  method : Option Method

def Fields.isEmpty (f : Fields) : Bool :=
  f.name.isNone && f.port.isNone && f.listenHttps.isNone && f.httpsPort.isNone &&
    f.serverName.isNone && f.method.isNone

def Row.set (row : Row) (f : Fields) : Row :=
  { row with
    name := f.name.getD row.name, port := f.port.getD row.port
    listenHttps := f.listenHttps.getD row.listenHttps, httpsPort := f.httpsPort.getD row.httpsPort
    serverName := f.serverName.getD row.serverName, method := f.method.getD row.method }

/-- `update_instance_fields`. -/
def updateInstanceFields (hostname : String) (fields : Fields) (changed : Bool) :
    String × Registry :=
  if env.readonly then (readonlyError, db)
  else
    let done (rows : Dict String Row) :=
      commit env
        (fun e => "An error occurred while updating the instance " ++ hostname ++ ".\n" ++ e) db
        ⟨rows, markChanged env changed db.metadata⟩
    match db.rows.lookup hostname with
    | some row => done (db.rows.insert hostname (row.set fields))
    | none =>
      if fields.isEmpty then done db.rows
      else ("Instance " ++ hostname ++ " does not exist, will not be updated.", db)

/-- The hostnames of the rows of a method. -/
def ofMethod (rows : Dict String Row) (method : Method) : List String :=
  (rows.items.filter fun e => e.2.method = method).map Prod.fst

/-- What both branches of the loop write; `status` and `creationDate` are where they differ. -/
def described (method : Method) (i : Instance) (status : Status) (creationDate : Nat) : Row where
  name := i.name.getD "manual instance"
  port := (i.env.lookup "API_HTTP_PORT").getD "5000"
  listenHttps := (i.env.lookup "API_LISTEN_HTTPS").getD "no" = "yes"
  httpsPort := (i.env.lookup "API_HTTPS_PORT").getD "5443"
  serverName := (i.env.lookup "API_SERVER_NAME").getD "bwapi"
  type := i.type.getD .static
  status
  method := i.method.getD method
  creationDate
  lastSeen := i.lastSeen.getD env.now

/-- `"up" if instance.get("health", True) else "down"`. -/
def Instance.healthStatus (i : Instance) : Status := if i.health.getD true then .up else .down

/-- The body of the loop over the instances: the rows, and the rows that are to be added. -/
def putInstance (method : Method) (acc : Dict String Row × List (String × Row)) (i : Instance) :
    Dict String Row × List (String × Row) :=
  match i.hostname with
  | none => acc
  | some hostname =>
    match acc.1.lookup hostname with
    | some row =>
      (acc.1.insert hostname
        (described env method i (i.status.getD i.healthStatus) row.creationDate), acc.2)
    | none =>
      (acc.1, acc.2 ++ [(hostname,
        described env method i i.healthStatus (i.creationDate.getD env.now))])

/-- The rows after the loop and `add_all`; `none` if a hostname is to be added twice. -/
def putInstances (method : Method) (instances : List Instance) (rows : Dict String Row) :
    Option (Dict String Row) :=
  let acc := instances.foldl (putInstance env method) (rows, [])
  Table.putAll acc.1 acc.2

/-- `update_instances`. -/
def updateInstances (instances : List Instance) (method : Method) (changed : Bool) :
    String × Registry :=
  match instances.findSome? fun i => i.hostname.filter fun h => !env.isValidHost h with
  | some hostname => ("Invalid instance hostname: " ++ hostname, db)
  | none =>
    if env.readonly then (readonlyError, db)
    else if instances.isEmpty && method = .autoconf && !(ofMethod db.rows method).isEmpty then
      ("", db)
    else
      match putInstances env method instances
        (Table.deleteAll db.rows (ofMethod db.rows method)) with
      | none => (env.integrityError, db)
      | some rows => commit env id db ⟨rows, markChanged env changed db.metadata⟩

end

/-! ## What a call does to the rows -/

theorem mem_ofMethod {rows : Dict String Row} {m : Method} {h : String} :
    h ∈ ofMethod rows m ↔ ∃ row, rows.lookup h = some row ∧ row.method = m := by
  simp only [ofMethod, List.mem_map, List.mem_filter, decide_eq_true_eq, Prod.exists]
  constructor
  · rintro ⟨k, row, ⟨hmem, hm⟩, rfl⟩
    exact ⟨row, Dict.mem_items.mp hmem, hm⟩
  · rintro ⟨row, hrow, hm⟩
    exact ⟨h, row, ⟨Dict.mem_items.mpr hrow, hm⟩, rfl⟩

/-- The hostnames that a list names, with the methods it names them with. -/
def named (method : Method) (instances : List Instance) : List (String × Method) :=
  instances.filterMap fun i => i.hostname.map fun h => (h, i.method.getD method)

/-- The call gets as far as its commit, and the commit goes through. -/
structure Env.Accepts (env : Env) (instances : List Instance) : Prop where
  valid : ∀ i ∈ instances, ∀ h, i.hostname = some h → env.isValidHost h = true
  writable : env.readonly = false
  committed : env.commitError = none

theorem commit_snd (env : Env) (f : String → String) (old new : Registry) :
    (commit env f old new).2 = old ∨
      env.commitError = none ∧ (commit env f old new).2 = new := by
  unfold commit
  cases env.commitError with
  | none => exact .inr ⟨rfl, rfl⟩
  | some e => exact .inl rfl

/-- The answer `r` reports an error, and the registry is as it was. -/
def Failed (db : Registry) (r : String × Registry) : Prop := r.1 ≠ "" ∧ r.2 = db

theorem failed {db : Registry} {a : String} (h : a ≠ "") : Failed db (a, db) := ⟨h, rfl⟩

theorem commit_cases (env : Env) {f : String → String} (hf : ∀ e, f e ≠ "")
    (old new : Registry) :
    Failed old (commit env f old new) ∨ commit env f old new = ("", new) := by
  unfold commit
  cases env.commitError with
  | none => exact .inr rfl
  | some e => exact .inl ⟨hf e, rfl⟩

section

variable (env : Env) (db : Registry)

theorem addInstance_cases (h port serverName : String) (m : Method) (changed : Bool)
    (name : Option String) (listenHttps : Bool) (httpsPort : String) :
    Failed db (addInstance env db h port serverName m changed name listenHttps httpsPort) ∨
      db.rows.lookup h = none ∧ ∃ row metadata, row.method = m ∧
        addInstance env db h port serverName m changed name listenHttps httpsPort =
          ("", ⟨db.rows.insert h row, metadata⟩) := by
  unfold addInstance
  split
  · exact .inl (failed (by simp))
  split
  · exact .inl (failed (by decide))
  split
  · exact .inl (failed (by simp))
  next hnone =>
  refine (commit_cases env (fun e => by simp) db _).imp_right fun h => ?_
  exact ⟨by simpa using hnone, _, _, rfl, h⟩

theorem deleteInstances_cases (hs : List String) (changed : Bool) :
    Failed db (deleteInstances env db hs changed) ∨ ∃ metadata,
      deleteInstances env db hs changed = ("", ⟨Table.deleteAll db.rows hs, metadata⟩) := by
  unfold deleteInstances
  split_ifs
  · exact .inl (failed (by decide))
  · exact .inl (failed (by decide))
  · exact (commit_cases env (fun e => by simp) db _).imp_right fun h => ⟨_, h⟩

theorem deleteInstance_cases (h : String) (changed : Bool) :
    Failed db (deleteInstance env db h changed) ∨ ∃ metadata,
      deleteInstance env db h changed = ("", ⟨db.rows.erase h, metadata⟩) := by
  unfold deleteInstance
  split_ifs
  · exact .inl (failed (by decide))
  · exact .inl (failed (by simp))
  · exact (commit_cases env (fun e => by simp) db _).imp_right fun h => ⟨_, h⟩

theorem updateInstance_cases (h : String) (status : Status) :
    Failed db (updateInstance env db h status) ∨ ∃ row lastSeen, db.rows.lookup h = some row ∧
      updateInstance env db h status =
        ("", { db with rows := db.rows.insert h { row with status, lastSeen } }) := by
  unfold updateInstance
  split
  · exact .inl (failed (by decide))
  cases hrow : db.rows.lookup h with
  | none => exact .inl (failed (by simp))
  | some row =>
    exact (commit_cases env (fun e => by simp) db _).imp_right fun h => ⟨row, _, rfl, h⟩

theorem updateInstanceFields_cases (h : String) (fields : Fields) (changed : Bool) :
    Failed db (updateInstanceFields env db h fields changed) ∨ ∃ rows metadata,
      updateInstanceFields env db h fields changed = ("", ⟨rows, metadata⟩) ∧
        rows = (db.rows.lookup h).elim db.rows fun row => db.rows.insert h (row.set fields) := by
  unfold updateInstanceFields
  split
  · exact .inl (failed (by decide))
  cases db.rows.lookup h with
  | none =>
    by_cases he : fields.isEmpty = true
    · simp only [if_pos he]
      exact (commit_cases env (fun e => by simp) db _).imp_right fun h => ⟨_, _, h, rfl⟩
    · simp only [if_neg he]
      exact .inl (failed (by simp))
  | some row =>
    exact (commit_cases env (fun e => by simp) db _).imp_right fun h => ⟨_, _, h, rfl⟩

end

/-- What `update_instances` does: nothing, or the rows of the method are taken out and the list is
put in. -/
theorem updateInstances_snd (env : Env) (db : Registry) (instances : List Instance) (m : Method)
    (changed : Bool) :
    (updateInstances env db instances m changed).2 = db ∨
      env.Accepts instances ∧ ∃ rows,
        putInstances env m instances (Table.deleteAll db.rows (ofMethod db.rows m)) = some rows ∧
          (updateInstances env db instances m changed).2 =
            ⟨rows, markChanged env changed db.metadata⟩ := by
  unfold updateInstances
  split
  · exact .inl rfl
  next hvalid =>
  split_ifs with hro
  · exact .inl rfl
  · exact .inl rfl
  split
  · exact .inl rfl
  next rows hrows =>
  refine (commit_snd env id db _).imp_right fun ⟨hc, h⟩ =>
    ⟨⟨?_, by simpa using hro, hc⟩, rows, hrows, h⟩
  intro i hi h hh
  have := List.findSome?_eq_none_iff.mp hvalid i hi
  simpa [hh] using this

/-- The loop leaves every row that is there, under the method that it is last named with. -/
theorem method_foldl_putInstance (env : Env) (m : Method) (instances : List Instance)
    {acc : Dict String Row × List (String × Row)} {h : String} {row : Row}
    (hrow : acc.1.lookup h = some row) :
    ∃ row', (instances.foldl (putInstance env m) acc).1.lookup h = some row' ∧
      row'.method = (Dict.lastOf h (named m instances)).getD row.method := by
  induction instances generalizing acc row with
  | nil => exact ⟨row, hrow, rfl⟩
  | cons i instances ih =>
    rw [List.foldl_cons, named, List.filterMap_cons]
    cases hi : i.hostname with
    | none =>
      have hput : putInstance env m acc i = acc := by simp [putInstance, hi]
      rw [hput]
      exact ih hrow
    | some k =>
      have hstep : ∃ row₁, (putInstance env m acc i).1.lookup h = some row₁ ∧
          row₁.method = if k = h then i.method.getD m else row.method := by
        by_cases hk : k = h
        · subst hk
          refine ⟨described env m i (i.status.getD i.healthStatus) row.creationDate, ?_, ?_⟩
          · simp only [putInstance, hi, hrow]
            exact AList.lookup_insert _
          · rw [if_pos rfl, described]
        · refine ⟨row, ?_, by rw [if_neg hk]⟩
          simp only [putInstance, hi]
          split
          · rw [← hrow]; exact AList.lookup_insert_ne (Ne.symm hk)
          · exact hrow
      obtain ⟨row₁, h₁, hm₁⟩ := hstep
      obtain ⟨row', h', hm'⟩ := ih h₁
      refine ⟨row', h', ?_⟩
      rw [hm', hm₁, Option.map_some, Dict.lastOf_cons]
      change _ = ((Dict.lastOf h (named m instances)).or _).getD _
      by_cases hk : k = h <;> cases Dict.lastOf h (named m instances) <;> simp [hk]

theorem method_putInstances {env : Env} {m : Method} {instances : List Instance}
    {rows rows' : Dict String Row} (hput : putInstances env m instances rows = some rows')
    {h : String} {row : Row} (hrow : rows.lookup h = some row) :
    ∃ row', rows'.lookup h = some row' ∧
      row'.method = (Dict.lastOf h (named m instances)).getD row.method := by
  have hstart : ((rows, []) : Dict String Row × List (String × Row)).1.lookup h = some row := hrow
  obtain ⟨row', h', hm'⟩ := method_foldl_putInstance env m instances hstart
  exact ⟨row', by rw [(Table.lookup_putAll hput h).1, h', Option.some_or], hm'⟩

end BunkerWeb.Db.Instances
