import BunkerWeb.Db.TemplateEdit
import BunkerWeb.Lib.Run
import BunkerWeb.Scheduler.SavedConfigs

/-!
# The table of custom configurations (`save_custom_configs`, `upsert_custom_config`)

`save_custom_configs` deletes the rows of its method, looks up every configuration that it is given
and changes the row that it finds or keeps a new one for the end; `upsert_custom_config` changes or
adds one. A look-up never finds the rows that are kept for the end, and the unique constraint says
nothing about rows without a service.

What a call finds beside the table is in `Env`: whatever makes a statement raise or the commit fail
leaves the table as it was. The hash of the contents is a parameter, and so are contents and hashes;
a text is given by the bytes that encode it.

`configs_unique` follows runs of calls in which no configuration without a service is given twice.
-/

namespace BunkerWeb.Db.CustomConfigs

open Lib

/-- Service, type and name. -/
abbrev Key := Option String × String × String

/-- The `filters` of a look-up, which take an empty service for none. -/
def filters (k : Key) : Key := (k.1.filter (· ≠ ""), k.2)

structure Row (Data Digest : Type) where
  key : Key
  data : Data
  checksum : Digest
  method : Method
  isDraft : Bool
  deriving DecidableEq, Repr

section

variable {Data Digest : Type}

/-- Two rows have different services, types or names. -/
def Unique (rows : List (Row Data Digest)) : Prop := (rows.map Row.key).Nodup

instance (rows : List (Row Data Digest)) : Decidable (Unique rows) :=
  inferInstanceAs (Decidable (List.Nodup _))

/-- The rows that the unique constraint is about: `NULL` differs from itself. -/
def ofServices (rows : List (Row Data Digest)) : List (Row Data Digest) :=
  rows.filter (·.key.1.isSome)

/-- What a call finds. -/
structure Env (Data Digest : Type) where
  readonly : Bool
  hasService : String → Bool
  /-- A statement raises, as it does in some engines for a type that the column does not have. -/
  raises : Bool
  /-- The text of the error if the database does not take these rows. -/
  commitError : List (Row Data Digest) → Option String
  unique : ∀ rows, commitError rows = none → Unique (ofServices rows)
  text : ∀ rows error, commitError rows = some error → error ≠ ""

/-- What a call ends with; an empty message is no error. -/
inductive Outcome where
  | returned (message : String)
  | raised
  deriving DecidableEq, Repr

def readonlyMessage : String := "The database is read-only, the changes will not be saved"

/-! ## `save_custom_configs` -/

/-- A dictionary of the list: with `exploded`, or with the columns of a row. -/
inductive Given (Data Digest : Type) where
  | exploded (value : Data) (service : Option String) (type name : String) (isDraft : Bool)
  | columns (service : Option String) (type name : String) (data : Data)
      (checksum : Option Digest) (method : Method) (isDraft : Bool)

/-- `.strip().replace("-", "_").lower()`. -/
def columnType (type : String) : String :=
  String.ofList (normalizeType (stripChars type.toList))

variable (hash : Data → Digest)

/-- The row that is put for it, if it has none. -/
def Given.row (method : Method) : Given Data Digest → Row Data Digest
  | .exploded value service type name isDraft =>
    ⟨(service.filter (· ≠ ""), columnType type, name), value, hash value, method, isDraft⟩
  | .columns service type name data checksum owner isDraft =>
    ⟨(service, columnType type, name), data, checksum.getD (hash data), owner, isDraft⟩

/-- The service that is looked for in the table of services. -/
def Given.wanted : Given Data Digest → Option String
  | .exploded _ service _ _ _ => service.filter (· ≠ "")
  | .columns .. => none

/-- A message and a line after it. -/
def addLine (message line : String) : String :=
  (if message = "" then "" else message ++ "\n") ++ line

/-- The services that are not there. -/
def notFound (env : Env Data Digest) (given : List (Given Data Digest)) : String :=
  (given.filterMap fun c => c.wanted.filter (!env.hasService ·)).foldl
    (fun message service =>
      addLine message ("Service " ++ service ++ " not found, please check your config")) ""

/-- The method may change the row of this owner. -/
def mayOverwrite (method owner : Method) : Bool :=
  method = .manual && (owner = .manual || owner.isUi) || methodsAreCompatible method owner true

variable [DecidableEq Digest]

/-- What the configuration `c` makes of its row. -/
def overwrite (method : Method) (c r : Row Data Digest) : Row Data Digest :=
  let stored :=
    if c.checksum ≠ r.checksum then { r with data := c.data, checksum := c.checksum } else r
  if method = .manual ∧ (r.method = .manual ∨ r.method.isUi) then
    { stored with isDraft := c.isDraft }
  else if methodsAreCompatible method r.method true then
    { stored with
      isDraft := c.isDraft
      method :=
        if r.isDraft ≠ c.isDraft ∨ c.checksum ≠ r.checksum then method else r.method }
  else r

/-- One turn of the loop: the rows of the session and `to_put`. -/
def put (method : Method) (st : List (Row Data Digest) × List (Row Data Digest))
    (c : Row Data Digest) : List (Row Data Digest) × List (Row Data Digest) :=
  if st.1.any (·.key = filters c.key) then
    (Scheduler.modifyFirst (·.key = filters c.key) (overwrite method c) st.1, st.2)
  else (st.1, st.2 ++ [c])

/-- The rows of `autoconf` that are not expected become drafts. -/
def draftOrphans (expected : List Key) (rows : List (Row Data Digest)) : List (Row Data Digest) :=
  rows.map fun r =>
    if r.method = .autoconf ∧ r.key ∉ expected then { r with isDraft := true } else r

/-- `disable_cleanup`, which only has a meaning for `autoconf`. -/
def keeps (method : Method) (disableCleanup : Bool) : Bool := disableCleanup && method == .autoconf

/-- The rows that the loop starts with. -/
def kept (rows : List (Row Data Digest)) (method : Method) (disableCleanup : Bool) :
    List (Row Data Digest) :=
  if keeps method disableCleanup then rows else rows.filter (·.method ≠ method)

/-- The rows that are committed. -/
def savedRows (rows entries : List (Row Data Digest)) (method : Method) (disableCleanup : Bool) :
    List (Row Data Digest) :=
  let st := entries.foldl (put method) (kept rows method disableCleanup, [])
  (if keeps method disableCleanup then draftOrphans (entries.map (filters ·.key)) st.1
    else st.1) ++ st.2

/-- `save_custom_configs`. -/
def saveCustomConfigs (env : Env Data Digest) (rows : List (Row Data Digest))
    (given : List (Given Data Digest)) (method : Method) (disableCleanup : Bool) :
    Outcome × List (Row Data Digest) :=
  if env.readonly then (.returned readonlyMessage, rows)
  else if env.raises then (.raised, rows)
  else if !keeps method disableCleanup ∧ method.isUi ∧ given.isEmpty ∧
      rows.any (·.method = method) then
    -- An empty list would delete every row of the method.
    (.returned "", rows)
  else
    let message := notFound env given
    let rows' := savedRows rows (given.map (Given.row hash method)) method disableCleanup
    match env.commitError rows' with
    | some error => (.returned (addLine message error), rows)
    | none => (.returned message, rows')

/-! ## `upsert_custom_config` -/

/-- The dictionary of `upsert_custom_config`. -/
structure Config (Data Digest : Type) where
  service : Option String
  type : Option String
  name : Option String
  data : Data
  checksum : Option Digest
  method : Option Method
  isDraft : Bool

def commit (env : Env Data Digest) (rows rows' : List (Row Data Digest)) :
    Outcome × List (Row Data Digest) :=
  match env.commitError rows' with
  | some error => (.returned error, rows)
  | none => (.returned "", rows')

/-- The row that is there with the columns of the dictionary. -/
def Config.update (c : Config Data Digest) (r : Row Data Digest) : Row Data Digest :=
  { key := (c.service, c.type.getD r.key.2.1, c.name.getD r.key.2.2)
    data := c.data
    checksum := c.checksum.getD (hash c.data)
    method := c.method.getD r.method
    isDraft := c.isDraft }

/-- `upsert_custom_config`. -/
def upsertCustomConfig (env : Env Data Digest) (rows : List (Row Data Digest)) (looked : Key)
    (c : Config Data Digest) (new : Bool) : Outcome × List (Row Data Digest) :=
  if env.readonly then (.returned readonlyMessage, rows)
  else if env.raises then (.raised, rows)
  else
    match rows.find? (·.key = filters looked) with
    | none =>
      match c.type, c.name, c.method with
      | some type, some name, some method =>
        commit env rows (rows ++
          [⟨(c.service, type, name), c.data, c.checksum.getD (hash c.data), method, c.isDraft⟩])
      -- A column without an entry of the dictionary.
      | _, _, _ => (.raised, rows)
    | some _ =>
      if new then (.returned "The custom config already exists", rows)
      else commit env rows
        (Scheduler.modifyFirst (·.key = filters looked) (c.update hash) rows)

end

end BunkerWeb.Db.CustomConfigs
