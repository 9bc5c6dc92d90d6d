import BunkerWeb.Api.GlobalSettings
import BunkerWeb.Db.CustomConfigs

/-!
# Editing a custom configuration (`api/app/routers/configs.py`, `api/app/schemas.py`)

Two handlers change a stored configuration: `PATCH` with a body (`updateConfig`), and the one of an
uploaded file (`updateConfigUpload`). Both look the configuration up, work out the new value of each
field, and call `upsert_custom_config` with the old key.

Configurations that only a template offers are left out, and so are the authorization and what
FastAPI makes of a request before the validators.
-/

namespace BunkerWeb.Api.Configs

open Db.CustomConfigs

/-- What the handlers use beside the table. -/
structure World (Digest : Type) where
  env : Env ByteArray Digest
  hash : ByteArray → Digest
  /-- The words of `SERVER_NAME`. -/
  serverNames : List String
  /-- The characters of `\w`. -/
  wordChar : Char → Bool
  /-- `decode("utf-8", errors="replace")` of bytes that are not UTF-8. -/
  replaced : ByteArray → String

variable {Digest : Type} (w : World Digest)

abbrev Rows (Digest : Type) := List (Db.CustomConfigs.Row ByteArray Digest)

/-! ## Fields -/

def configTypes : List String :=
  ["http", "server_http", "default_server_http", "modsec_crs", "modsec", "stream", "server_stream",
    "crs_plugins_before", "crs_plugins_after"]

/-- `_normalize_and_validate_config_type`. -/
def normalizeConfigType (type : String) : Except String String :=
  if columnType type ∈ configTypes then .ok (columnType type)
  else .error ("Invalid type: must be one of " ++
    ", ".intercalate (configTypes.mergeSort fun a b => decide (a ≤ b)))

/-- `[\w_-]{1,255}`. -/
def fitsName (name : List Char) : Bool :=
  1 ≤ name.length && name.length ≤ 255 && name.all fun c => w.wordChar c || c = '_' || c = '-'

/-- `validate_config_name`; `$` also matches before a line feed at the end. -/
def validateConfigName (name : String) : Option String :=
  let l := name.toList
  if fitsName w l || (l.getLast? = some '\n' && fitsName w l.dropLast) then none
  else some "Invalid name: must match ^[\\w_-]{1,255}$"

/-- `_validate_name`. -/
def validateName (name : String) : Except String String :=
  match validateConfigName w (stripText name) with
  | some err => .error err
  | none => .ok (stripText name)

/-- `None if service in (None, "", "global") else service`. -/
def normalizeService (service : Option String) : Option String :=
  service.filter fun s => s ≠ "" ∧ s ≠ "global"

/-- `_service_exists`. -/
def serviceExists (service : Option String) : Bool :=
  match service with
  | none => true
  | some s => s = "" || s ∈ w.serverNames

/-- `_decode_data`. -/
def decodeData (data : ByteArray) : String :=
  if h : data.IsValidUTF8 then String.fromUTF8 data h else w.replaced data

/-- `get_custom_config`, of stored configurations. -/
def getCustomConfig (rows : Rows Digest) (looked : Key) :
    Option (Db.CustomConfigs.Row ByteArray Digest) :=
  rows.find? (·.key = (looked.1, columnType looked.2.1, looked.2.2))

/-- `EDITABLE_METHODS`. -/
def editableMethods : List Db.Method := [.api, .ui]

def notEditable : String := "Config is not UI/API-managed and cannot be edited"

/-- The call of `upsert_custom_config` and the answer. -/
def upsert (rows : Rows Digest) (looked : Key) (c : Config ByteArray Digest) :
    Reply × Rows Digest :=
  match upsertCustomConfig w.hash w.env rows looked c false with
  | (.raised, rows) => (.error 500 "internal error", rows)
  | (.returned error, rows) =>
    if error ≠ "" then
      (.error (if isIn "read-only" error ∨ isIn "already exists" error ∨
        isIn "does not exist" error then 400 else 500) error, rows)
    else (.success, rows)

/-! ## `PATCH` -/

/-- The body. -/
structure ConfigUpdateRequest where
  service : Option String
  type : Option String
  name : Option String
  data : Option String
  isDraft : Option Bool
  deriving DecidableEq, Repr

/-- A validator of a field that may be missing. -/
def optional {α : Type} (validate : α → Except String α) : Option α → Except String (Option α)
  | none => .ok none
  | some v => (validate v).map some

/-- The validators of the body. -/
def ConfigUpdateRequest.validate (req : ConfigUpdateRequest) :
    Except String ConfigUpdateRequest := do
  let type ← optional normalizeConfigType req.type
  let name ← optional (validateName w) req.name
  return { req with service := normalizeService req.service, type, name }

/-- What `update_config` does with a request that is valid. -/
def updateValid (rows : Rows Digest) (looked : Key) (req : ConfigUpdateRequest) :
    Reply × Rows Digest :=
  match getCustomConfig rows looked with
  | none => (.error 404 "Config not found", rows)
  | some current =>
    if current.method ∉ editableMethods then (.error 403 notEditable, rows)
    else
      let serviceNew := req.service
      let typeNew := req.type.getD current.key.2.1
      let nameNew := req.name.getD current.key.2.2
      let dataNew := req.data.getD (decodeData w current.data)
      let isDraftNew := req.isDraft.getD current.isDraft
      if !serviceExists w serviceNew then (.error 404 "Service not found", rows)
      else if current.key = (serviceNew, typeNew, nameNew) ∧
          decodeData w current.data = dataNew ∧ current.isDraft = isDraftNew then
        (.error 400 "No values were changed", rows)
      else
        upsert w rows looked
          { service := serviceNew, type := some typeNew, name := some nameNew,
            data := dataNew.toUTF8, checksum := none, method := some current.method,
            isDraft := isDraftNew }

/-- `update_config`. -/
def updateConfig (rows : Rows Digest) (service configType name : String)
    (req : ConfigUpdateRequest) : Reply × Rows Digest :=
  match normalizeConfigType configType, req.validate w with
  | .ok ctypeOrig, .ok req =>
    updateValid w rows (normalizeService (some service), ctypeOrig, name) req
  | .error err, _ | _, .error err => (.error 422 err, rows)

/-! ## An uploaded file -/

/-- Other characters become one underscore, however many there are behind each other. -/
def underscored : Bool → List Char → List Char
  | _, [] => []
  | inRun, c :: rest =>
    if w.wordChar c || c = '-' then c :: underscored false rest
    else if inRun then underscored true rest
    else '_' :: underscored true rest

/-- `Path(filename).stem`. -/
def fileStem (filename : String) : List Char :=
  match ((filename.toList.splitOn '/').filter fun part => part ≠ [] ∧ part ≠ ['.']).getLast? with
  | none => []
  | some name => Scheduler.stem name

/-- `_sanitize_name_from_filename`. -/
def sanitizeName (filename : String) : String :=
  let edge := fun c => decide (c = '_' ∨ c = '-')
  let cleaned := ((underscored w false (fileStem filename)).dropWhile edge).rdropWhile edge
  String.ofList (cleaned.take 255)

/-- The file and the form. -/
structure Upload where
  filename : Option String
  content : ByteArray
  newService : Option String
  newType : Option String
  newName : Option String
  newIsDraft : Option Bool

/-- `n_new`. -/
def Upload.name (up : Upload) (current : String) : String :=
  match up.newName.filter (· ≠ "") with
  | some name => stripText name
  | none =>
    let derived := sanitizeName w (up.filename.getD "")
    if derived ≠ "" then derived else current

/-- What `update_config_upload` does with types that are valid. -/
def uploadValid (rows : Rows Digest) (looked : Key) (newType : Option String) (up : Upload) :
    Reply × Rows Digest :=
  match getCustomConfig rows looked with
  | none => (.error 404 "Config not found", rows)
  | some current =>
    if current.method ∉ editableMethods then (.error 403 notEditable, rows)
    else
      let sNew := (up.newService.map fun s => normalizeService (some s)).getD current.key.1
      let tNew := (newType.filter (· ≠ "")).getD current.key.2.1
      let nNew := up.name w current.key.2.2
      match validateConfigName w nNew with
      | some err => (.error 422 err, rows)
      | none =>
        if !serviceExists w sNew then (.error 404 "Service not found", rows)
        else
          let content := decodeData w up.content
          if current.key = (sNew, tNew, nNew) ∧ decodeData w current.data = content ∧
              (up.newIsDraft = none ∨ up.newIsDraft = some current.isDraft) then
            (.error 400 "No values were changed", rows)
          else
            upsert w rows looked
              { service := sNew, type := some tNew, name := some nNew, data := content.toUTF8,
                checksum := none, method := some current.method,
                isDraft := up.newIsDraft.getD current.isDraft }

/-- `update_config_upload`. -/
def updateConfigUpload (rows : Rows Digest) (service configType name : String) (up : Upload) :
    Reply × Rows Digest :=
  match normalizeConfigType configType, optional normalizeConfigType up.newType with
  | .ok ctypeOrig, .ok newType =>
    uploadValid w rows (normalizeService (some service), ctypeOrig, name) newType up
  | .error err, _ | _, .error err => (.error 422 err, rows)

end BunkerWeb.Api.Configs
