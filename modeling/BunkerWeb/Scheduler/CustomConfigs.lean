import BunkerWeb.Db.Tables
import BunkerWeb.Text

/-!
# Custom configurations on disk and in the database

`check_configs_changes` of the scheduler reads the files of `CUSTOM_CONFIGS_PATH`, saves them with
the method `manual`, and has `generate_custom_configs` write all files again from the database.

- **Names** (`stem`, `pathStem`): `PurePath.stem` of Python 3.14, for names without a slash.
- **Database** (`Db`): the table of custom configurations with their data, the services, and what the
  templates of the services offer. A checksum stands for the data that it is taken of.
- **Files** (`File`): a directory of a type, one of a service or none, and a name; deeper ones are
  left out. A file that is not UTF-8 ends the check before anything is changed.
-/

namespace BunkerWeb.Scheduler

open Lib

abbrev Text := List Char

/-! ## Names and contents -/

/-- `CUSTOM_CONFIGS_DIRS`, which are the values of the column with `-` for `_`. -/
inductive ConfigType where
  | http
  | stream
  | serverHttp
  | serverStream
  | defaultServerHttp
  | modsec
  | modsecCrs
  | crsPluginsBefore
  | crsPluginsAfter
  deriving DecidableEq, Repr

namespace ConfigType

def all : List ConfigType :=
  [http, stream, serverHttp, serverStream, defaultServerHttp, modsec, modsecCrs, crsPluginsBefore,
    crsPluginsAfter]

def dir : ConfigType → Text
  | http => "http".toList
  | stream => "stream".toList
  | serverHttp => "server-http".toList
  | serverStream => "server-stream".toList
  | defaultServerHttp => "default-server-http".toList
  | modsec => "modsec".toList
  | modsecCrs => "modsec-crs".toList
  | crsPluginsBefore => "crs-plugins-before".toList
  | crsPluginsAfter => "crs-plugins-after".toList

/-- The type whose directory has the name. -/
def ofDir (name : Text) : Option ConfigType := all.find? (·.dir = name)

end ConfigType

def dotConf : Text := ".conf".toList

/-- `PurePath.stem`: what is before the last dot, if it has another character than dots. -/
def stem (name : Text) : Text :=
  match name.reverse.dropWhile (· ≠ '.') with
  | [] => name
  | _ :: pre => if pre.any (· ≠ '.') then pre.reverse else name

/-- `Path(name).stem`; a path of one dot has no name. -/
def pathStem (name : Text) : Text := if name = ['.'] then [] else stem name

/-- `file.read_text()`, which makes every line end a line feed. -/
def readText : Text → Text
  | [] => []
  | '\r' :: '\n' :: rest => '\n' :: readText rest
  | '\r' :: rest => '\n' :: readText rest
  | c :: rest => c :: readText rest

structure File where
  type : ConfigType
  service : Option Text
  name : Text
  text : Text
  deriving DecidableEq, Repr

abbrev Path := ConfigType × Option Text × Text

def File.path (f : File) : Path := (f.type, f.service, f.name)

/-! ## The database -/

/-- A configuration by its service, its type and its name. -/
abbrev Key := Option Text × ConfigType × Text

/-- A row of the table. -/
structure Row where
  key : Key
  data : Text
  method : Db.Method
  isDraft : Bool
  deriving DecidableEq, Repr

/-- What `get_custom_configs` says of a configuration; none of them is a draft. -/
structure Config where
  key : Key
  data : Text
  /-- The configuration comes from a template. -/
  template : Bool
  deriving DecidableEq, Repr

/-- A configuration that the template of a service has for it. -/
structure Offer where
  service : Text
  type : ConfigType
  name : Text
  data : Text
  deriving DecidableEq, Repr

structure Db where
  rows : List Row
  /-- The services with `is_draft`. -/
  services : Dict Text Bool
  /-- The custom configurations of the templates that `USE_TEMPLATE` selects, in the order of the
  loops over them. -/
  offered : List Offer
  /-- The global `USE_MODSECURITY_GLOBAL_CRS` is `yes`. -/
  globalCrs : Bool

/-- `allowed_services` without the drafts. -/
def Db.allowed (db : Db) (service : Text) : Bool := db.services.lookup service == some false

/-- The row is not a draft, nor is its service. -/
def Db.shows (db : Db) (r : Row) : Bool := r.key.1.all db.allowed && !r.isDraft

def Row.config (r : Row) : Config := ⟨r.key, r.data, false⟩

def Offer.config (o : Offer) : Config := ⟨(some o.service, o.type, o.name), o.data, true⟩

/-- `get_custom_configs`: the rows, and what templates offer and no configuration before has. -/
def Db.getCustomConfigs (db : Db) : List Config :=
  (db.offered.filter fun o => db.allowed o.service).foldl
    (fun configs o =>
      if configs.any (·.key = o.config.key) then configs else configs ++ [o.config])
    ((db.rows.filter db.shows).map Row.config)

/-! ## From the files to the database -/

/-- A configuration that is given to `save_custom_configs`. -/
structure Incoming where
  value : Text
  exploded : Key
  isDraft : Bool
  deriving DecidableEq, Repr

/-- `service_id`, `config_type` and `file.stem`. -/
def File.exploded (f : File) : Key :=
  match f.service with
  | none => (none, f.type, stem f.name)
  | some service =>
    match ConfigType.ofDir service with
    -- The name of the directory is not taken for a service.
    | some type => (none, type, stem f.name)
    | none => (some service, f.type, stem f.name)

/-- A configuration of the database has the service and the name of the file, of whatever type. -/
def File.matches (f : File) (c : Config) : Bool :=
  c.key.1 = f.exploded.1 && c.key.2.2 = f.exploded.2.2

def File.inDb (f : File) (configs : List Config) : Bool := configs.any f.matches

def File.fromTemplate (f : File) (configs : List Config) : Bool :=
  configs.any fun c => f.matches c && c.template

def createdByEnv : Text := "# CREATED BY ENV".toList

/-- `saving`. -/
def File.saved (f : File) (configs : List Config) : Bool :=
  !(f.fromTemplate configs ||
    (!f.inDb configs && createdByEnv.isPrefixOf (readText f.text)))

def File.incoming (f : File) : Incoming := ⟨readText f.text, f.exploded, false⟩

/-- Changes the first element that satisfies `p`. -/
def modifyFirst {α : Type} (p : α → Bool) (g : α → α) : List α → List α
  | [] => []
  | a :: l => if p a then g a :: l else a :: modifyFirst p g l

/-- What an incoming configuration makes of the row that has its key. -/
def overwrite (method : Db.Method) (c : Incoming) (r : Row) : Row :=
  if method = .manual ∧ (r.method = .manual ∨ r.method.isUi) then
    { r with data := c.value, isDraft := c.isDraft }
  else if Db.methodsAreCompatible method r.method true then
    { r with
      data := c.value
      isDraft := c.isDraft
      method := if r.isDraft ≠ c.isDraft ∨ c.value ≠ r.data then method else r.method }
  else r

/-- The body of the loop of `save_custom_configs`: the rows that are there and `to_put`. -/
def putConfig (method : Db.Method) (st : List Row × List Row) (c : Incoming) :
    List Row × List Row :=
  if st.1.any (·.key = c.exploded) then
    (modifyFirst (·.key = c.exploded) (overwrite method c) st.1, st.2)
  else (st.1, st.2 ++ [⟨c.exploded, c.value, method, c.isDraft⟩])

/-- The new rows of services are of services that exist, one for each key. -/
def Db.accepts (db : Db) (toPut : List Row) : Bool :=
  let ofServices := toPut.filter (·.key.1.isSome)
  ofServices.all (fun r => r.key.1.all fun service => (db.services.lookup service).isSome) &&
    decide (ofServices.map Row.key).Nodup

/-- `save_custom_configs` for a call without `disable_cleanup`. -/
def Db.saveCustomConfigs (db : Db) (configs : List Incoming) (method : Db.Method) : Db :=
  if method.isUi ∧ configs = [] ∧ db.rows.any (·.method = method) then db
  else
    let st := configs.foldl (putConfig method) (db.rows.filter (·.method ≠ method), [])
    if db.accepts st.2 then { db with rows := st.1 ++ st.2 } else db

/-! ## From the database to the files -/

/-- `get_custom_config_compatibility_error` finds something. -/
def Db.incompatible (db : Db) (key : Key) : Bool :=
  key.2.1 = .modsecCrs && key.1.any (fun s => s ≠ [] && s ≠ "global".toList) && db.globalCrs

/-- `tmp_path`. -/
def Config.target (c : Config) : Path :=
  (c.key.2.1, c.key.1.filter (· ≠ []), pathStem c.key.2.2 ++ dotConf)

/-- The files that `generate_custom_configs` writes, in this order, into the emptied directories. -/
def Db.generated (db : Db) : List (Path × Text) :=
  (db.getCustomConfigs.filter fun c => !db.incompatible c.key && !decide (c.data = [])).map
    fun c => (c.target, c.data)

/-- The database after `check_configs_changes`. The dictionaries of the files and of the database
have different keys, so their sets are equal only when both are empty. -/
def Db.afterCheck (db : Db) (files : List File) : Db :=
  let dbConfigs := db.getCustomConfigs
  let saved := files.filter (·.saved dbConfigs)
  -- The last file that is not saved decides.
  let changes := (files.filter (!·.saved dbConfigs)).getLast?.any (!·.fromTemplate dbConfigs)
  if changes || !(saved.isEmpty && dbConfigs.isEmpty) then
    db.saveCustomConfigs (saved.map File.incoming) .manual
  else db

/-- What is at a path after `check_configs_changes`. -/
def contentAfter (db : Db) (files : List File) (path : Path) : Option Text :=
  Dict.lastOf path (db.afterCheck files).generated

end BunkerWeb.Scheduler
