import BunkerWeb.Db.Tables

/-!
# Reading the configuration (`get_non_default_settings`, `get_config`)

`get_config` starts from the defaults of the settings; `get_non_default_settings` lays the global
values over them, gives each service the values of the multisite settings, lays the values of the
services over those, and puts the list of services in the place of `SERVER_NAME`. Then come the
settings of the global template and of the templates of the services, where no row of the database
has a say, and last the numbered settings of a group that has one of its members numbered.

The `service` argument, which narrows the result to one service, is left out.
-/

namespace BunkerWeb.Db

open Lib

/-- The data of one key of a configuration; `method = none` is the text `default`. -/
structure Entry where
  value : String
  fileName : String
  isGlobal : Bool
  method : Option Method
  default : String
  template : Option String
  deriving DecidableEq, Repr

/-- What the functions are asked for. -/
structure Query where
  globalOnly : Bool
  withDrafts : Bool
  filtered : List String

/-- `filtered_settings.update(needed)`, if there is a filter and services are wanted. -/
def Query.update (q : Query) (needed : List String) : Query :=
  if q.filtered.isEmpty || q.globalOnly then q else { q with filtered := q.filtered ++ needed }

/-- The setting passes the filter. -/
def Query.wants (q : Query) (id : String) : Bool := q.filtered.isEmpty || q.filtered.contains id

/-- `f"_{suffix}"` behind the setting of a row, if it may be numbered and is. -/
def valueKey (s : Setting) (suffix : Nat) : String :=
  if s.multiple.isSome && 0 < suffix then joinKey s.id (toString suffix) else s.id

/-- The rows of `Global_values` with their settings. -/
def globalRows (db : Database) (q : Query) : List (Setting × Nat × Cell) :=
  (db.settings.all.filter fun s => q.wants s.id).flatMap fun s =>
    (db.globalValues.items.filter (·.1.1 = s.id)).map fun r => (s, r.1.2, r.2)

/-- The entry of a key that a row of `Global_values` brings. -/
def globalEntry (s : Setting) (c : Cell) : Entry where
  value := c.value
  fileName := if s.type = .file then c.fileName else ""
  isGlobal := true
  method := some c.method
  default := s.default
  template := none

/-- The services that the query wants to see. -/
def serviceList (db : Database) (q : Query) : List (String × Service) :=
  db.services.items.filter fun s => q.withDrafts || !s.2.isDraft

/-- The value of a `SERVER_NAME` row, with the name of its service in front. -/
def serverNameValue (service value : String) : String :=
  if value == service || (service ++ " ").toList.isPrefixOf value.toList then value
  else service ++ " " ++ joinWords ((words value).dedup.filter (· ≠ service))

/-- The rows of `Services_settings` with their services and settings. -/
def serviceRows (db : Database) (q : Query) : List (String × Setting × Nat × Cell) :=
  (serviceList db q).flatMap fun service =>
    (db.settings.all.filter fun s => q.wants s.id).flatMap fun s =>
      (db.servicesSettings.items.filter fun r => r.1.1 = service.1 ∧ r.1.2.1 = s.id).map
        fun r => (service.1, s, r.1.2.2, r.2)

/-- The entry of a key that a row of `Services_settings` brings. -/
def serviceEntry (config : Dict String Entry) (service : String) (s : Setting) (c : Cell) :
    Entry where
  value := if s.id = "SERVER_NAME" then serverNameValue service c.value else c.value
  fileName := if s.type = .file then c.fileName else ""
  isGlobal := false
  method := some c.method
  default := ((config.lookup s.id).map Entry.value).getD s.default
  template := none

/-- `<service>_IS_DRAFT`. -/
def draftEntry (config : Dict String Entry) (service : Service) : Entry where
  value := if service.isDraft then "yes" else "no"
  fileName := ""
  isGlobal := false
  method := none
  default := ((config.lookup "IS_DRAFT").map Entry.value).getD "no"
  template := none

/-- The list of services in the place of `SERVER_NAME`. -/
def serversEntry (servers : List String) : Entry where
  value := joinWords servers
  fileName := ""
  isGlobal := true
  method := some .scheduler
  default := ""
  template := none

/-- `get_non_default_settings`, over a configuration that has entries already, with the keys of
those that are multisite. -/
def getNonDefaultSettings (db : Database) (q : Query) (original : Dict String Entry)
    (originalMultisite : List String) : Dict String Entry :=
  let q := q.update ["SERVER_NAME", "MULTISITE"]
  let rows := globalRows db q
  let config := original.setAll (rows.map fun r => (valueKey r.1 r.2.1, globalEntry r.1 r.2.2))
  let multisite := originalMultisite ++
    (rows.filter fun r => r.1.context = .multisite).map fun r => valueKey r.1 r.2.1
  let isMultisite := ((config.lookup "MULTISITE").map Entry.value).getD "no" = "yes"
  let services := serviceList db q
  let config :=
    if !q.globalOnly && isMultisite then
      let config := config.setAll
        (services.map fun s => (joinKey s.1 "IS_DRAFT", draftEntry config s.2))
      let defaults := multisite.filterMap fun key => (config.lookup key).map (key, ·)
      let config := config.setDefaults
        (services.flatMap fun s => defaults.map fun e => (joinKey s.1 e.1, e.2))
      config.setAll ((serviceRows db q).map fun r =>
        (let key := joinKey r.1 r.2.1.id
         if r.2.1.multiple.isSome && r.2.2.1 != 0 then joinKey key (toString r.2.2.1) else key,
          serviceEntry config r.1 r.2.1 r.2.2.2))
    else config
  config.insert "SERVER_NAME" (serversEntry (services.map Prod.fst))

/-- The entry of a setting that nothing was said about. -/
def defaultEntry (s : Setting) : Entry where
  value := s.default
  fileName := ""
  isGlobal := true
  method := none
  default := s.default
  template := none

def templateEntry (isGlobal : Bool) (t : TemplateSetting) : Entry where
  value := t.default
  fileName := ""
  isGlobal := isGlobal
  method := none
  default := t.default
  template := some t.templateId

/-- The settings of a template, in order. -/
def templateRows (db : Database) (wants : String → Bool) (template : String) :
    List TemplateSetting :=
  db.templateSettings.filter fun t => t.templateId = template && wants t.settingId

/-- `config.get(key, {"value": fallback})["value"]`. -/
def valueOf (config : Dict String Entry) (key fallback : String) : String :=
  ((config.lookup key).map Entry.value).getD fallback

/-- The services that use a template, with it, in the order of the templates. -/
def serviceTemplates (config : Dict String Entry) (templateUsed : String)
    (services : List String) : List (String × String) :=
  let used := services.filterMap fun s =>
    let template := valueOf config (joinKey s "USE_TEMPLATE") templateUsed
    if template = "" then none else some (s, template)
  ((used.map Prod.snd).dedup).flatMap fun template => used.filter (·.2 = template)

/-- `text.replace(part, "")`, for a part that is not empty. -/
def removeAll (part : List Char) : Nat → List Char → List Char
  | 0, text => text
  | _ + 1, [] => []
  | fuel + 1, c :: text =>
    match (c :: text).dropPrefix? part with
    | some rest => removeAll part fuel rest
    | none => c :: removeAll part fuel text

/-- The group and the window (a service or `global`) in which a key of the configuration is
numbered. -/
def groupOf (groups : String → Option String) (services : List String) (key : String) :
    Option (String × String × Nat) :=
  match suffixRx key with
  | none => none
  | some (setting, digits) =>
    match groups setting with
    | some group => some (group, "global", parseInt digits)
    | none =>
      match firstService services key with
      | none => none
      | some (service, _) =>
        let stripped := String.ofList
          (removeAll (service ++ "_").toList setting.length setting.toList)
        (groups stripped).map fun group => (group, service, parseInt digits)

/-- The numbered settings that the groups of the configuration ask for, with the values that they
have if they are not there. -/
def groupDefaults (db : Database) (wants : String → Bool) (templates : Dict String String)
    (config : Dict String Entry) : List (String × Entry) :=
  let groups (id : String) : Option String :=
    (db.settings.find id).bind fun s => if wants s.id then s.multiple else none
  let services := words (valueOf config "SERVER_NAME" "")
  let found := config.items.filterMap fun e => groupOf groups services e.1
  db.settings.all.flatMap fun s =>
    match groups s.id with
    | none => []
    | some group =>
      (found.filter (·.1 = group)).map fun f =>
        let key :=
          if f.2.1 = "global" then joinKey s.id (toString f.2.2)
          else joinKey f.2.1 (joinKey s.id (toString f.2.2))
        let template :=
          match templates.lookup f.2.1 with
          | some t => if t = "" then (templates.lookup "global").getD "" else t
          | none => (templates.lookup "global").getD ""
        let row := db.templateSettings.find? fun t =>
          t.templateId = template && t.settingId = s.id && t.suffix = f.2.2
        let value := if template = "" then s.default else (row.map (·.default)).getD s.default
        (key, ⟨value, "", true, none, s.default, some template⟩)

/-- The configuration before the templates. -/
def baseConfig (db : Database) (q : Query) : Dict String Entry :=
  let settings := db.settings.all.filter fun s => q.wants s.id
  getNonDefaultSettings db q (Dict.setAll ∅ (settings.map fun s => (s.id, defaultEntry s)))
    ((settings.filter fun s => s.context = .multisite).map Setting.id)

/-- `get_config` with `methods=True`. -/
def getConfigEntries (db : Database) (q : Query) : Dict String Entry :=
  let q := q.update ["SERVER_NAME", "MULTISITE", "USE_TEMPLATE"]
  let wants := q.wants
  let config := baseConfig db q
  let templateUsed := valueOf config "USE_TEMPLATE" ""
  let config :=
    if templateUsed = "" then config
    else config.setAllUnless (fun e => e.method.isSome)
      ((templateRows db wants templateUsed).map fun t =>
        (suffixedKey t.settingId t.suffix, templateEntry true t))
  let used :=
    if !q.globalOnly && valueOf config "MULTISITE" "no" = "yes" then
      serviceTemplates config templateUsed (words (valueOf config "SERVER_NAME" ""))
    else []
  let config := config.setAllUnless (fun e => e.method.isSome && !e.isGlobal)
    (used.flatMap fun u => (templateRows db wants u.2).map fun t =>
      (joinKey u.1 (suffixedKey t.settingId t.suffix), templateEntry false t))
  let templates := Dict.setAll ∅
    ((if templateUsed = "" then [] else [("global", templateUsed)]) ++ used)
  config.setDefaults (groupDefaults db wants templates config)

/-- `get_config`. -/
def getConfig (db : Database) (q : Query) : Dict String String :=
  (getConfigEntries db q).mapValues Entry.value

/-- `get_config(with_drafts=True)`. -/
def withDrafts : Query := ⟨false, true, []⟩

end BunkerWeb.Db
