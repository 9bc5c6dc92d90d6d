import BunkerWeb.Lib.Trim
import BunkerWeb.Lua.Variables

/-!
# Basic authentication (`core/authbasic/authbasic.lua`)

`init` reads the settings of each scope (`global` and, if the configuration is multisite, each
service), hashes the passwords and keeps one configuration for each scope that ends with a user.
`initialize` merges the global configuration and the one of the service of a request, and `access`
checks the `Authorization` header of a request whose path the merged configuration protects.

* Texts are lists of bytes, each a character.
* The base64 functions of nginx, `kdf.derive`, the random salts and the regular expressions are
  parameters. The parameters of scrypt, which are the same for each password, are left out.
* `World.stored` says that `init` read the variables and stored the configurations,
  `World.readable` that a request finds them in the store.
-/

namespace BunkerWeb.Lua.AuthBasic

open Lib

abbrev Text := List Char

/-! ## Parameters -/

/-- `ngx.encode_base64` and `ngx.decode_base64`. -/
structure Base64 where
  encode : Text → Text
  decode : Text → Option Text
  decode_encode : ∀ bytes, decode (encode bytes) = some bytes
  decode_nil : decode [] = some []
  not_space : ∀ bytes, ∀ c ∈ encode bytes, isLuaSpace c = false

/-- A scope of the settings. -/
inductive Scope where
  | global
  | service (name : String)
  deriving DecidableEq

structure World where
  vars : Variables
  base64 : Base64
  /-- `generate_salt` for the password of a user. -/
  salt : Scope → Text → Option Text
  /-- `derive_secret`: the key of a password under a salt. -/
  derive : Text → Text → Option Text
  /-- `utils.regex_match` finds the expression in the path, without regard to case or with. -/
  regexMatch : Text → Bool → Text → Bool
  stored : Bool
  readable : Bool

/-! ## The location -/

inductive Matcher where
  | sitewide
  | exact (value : Text)
  | startsWith (value : Text)
  | regex (value : Text) (ignoreCase : Bool)
  deriving DecidableEq

def trim (value : Text) : Text := Lib.trim isLuaSpace value

/-- `build_matcher`, of a location without white space around it. -/
def matcherOf : Text → Matcher
  | [] => .sitewide
  | '=' :: rest => .exact (trim rest)
  | '^' :: '~' :: rest => .startsWith (trim rest)
  | '~' :: '*' :: rest => .regex (trim rest) true
  | '~' :: rest => .regex (trim rest) false
  | location => if location = "sitewide".toList then .sitewide else .startsWith location

def buildMatcher (location : Option String) : Matcher :=
  matcherOf (trim ((location.map String.toList).getD []))

/-- `matches_scope`, for a matcher. -/
def Matcher.matches (regexMatch : Text → Bool → Text → Bool) (uri : Text) : Matcher → Bool
  | .sitewide => true
  | .exact value => uri == value
  | .startsWith value => value == [] || value.isPrefixOf uri
  | .regex value ignoreCase => value != [] && regexMatch value ignoreCase uri

/-! ## Users and passwords -/

/-- `_?%d*`. -/
def isNumber : Text → Bool
  | '_' :: digits => digits.all Char.isDigit
  | digits => digits.all Char.isDigit

/-- What follows `name` in `key`, if it is a number: `^name(_?%d*)$`. -/
def numberOf (name key : String) : Option Text :=
  if name.toList <+: key.toList ∧ isNumber (key.toList.drop name.toList.length) then
    some (key.toList.drop name.toList.length)
  else none

/-- The settings that `init` asks for. -/
def settingNames : List String :=
  ["USE_AUTH_BASIC", "AUTH_BASIC_LOCATION", "AUTH_BASIC_TEXT", "AUTH_BASIC_USER",
    "AUTH_BASIC_PASSWORD"]

/-- `utils.get_multiple_variables`, for one scope. -/
def getMultipleVariables (names : List String) (table : Dict String String) :
    List (String × String) :=
  table.items.filter fun e => names.any fun name => (numberOf name e.1).isSome

/-- The body of the loop of `extract_credentials`. -/
def userOf (vars : List (String × String)) (e : String × String) : Option (Text × Text) :=
  match numberOf "AUTH_BASIC_USER" e.1 with
  | none => none
  | some suffix =>
    if e.2 = "" then none
    else
      match Dict.firstOf (String.ofList ("AUTH_BASIC_PASSWORD".toList ++ suffix)) vars with
      | none => none
      | some password => if password = "" then none else some (e.2.toList, password.toList)

/-- `users_list` of `extract_credentials`, with the passwords. -/
def usersList (vars : List (String × String)) : List (Text × Text) := vars.filterMap (userOf vars)

/-- `credentials` of `extract_credentials`: of two settings with one user the last is kept. -/
def extractCredentials (vars : List (String × String)) : Dict Text Text :=
  Dict.setAll ∅ (usersList vars)

/-- A hashed password. -/
structure Entry where
  salt : Text
  hash : Text
  deriving DecidableEq

section

variable (base64 : Base64) (derive : Text → Text → Option Text)

def hashPassword (salt : Option Text) (password : Text) : Option Entry :=
  salt.bind fun salt => (derive password salt).map fun derived =>
    ⟨base64.encode salt, base64.encode derived⟩

def constantTimeEquals (a b : Text) : Bool :=
  a.length == b.length &&
    (a.zip b).foldl (fun diff e => diff ||| (e.1.val ^^^ e.2.val)) 0 == 0

/-- `verify_password`; `none` is an error. -/
def verifyPassword (candidate : Text) (stored : Entry) : Option Bool :=
  match base64.decode stored.salt, base64.decode stored.hash with
  | some salt, some expected =>
    (derive candidate salt).map fun derived => constantTimeEquals derived expected
  | _, _ => none

end

/-! ## Configurations -/

structure Config where
  realm : Text
  matcher : Matcher
  credentials : Dict Text Entry

def defaultRealm : Text := "Restricted area".toList

namespace World

variable (w : World)

/-- The settings of a scope. `load_variables` leaves tables of services in a multisite
configuration only. -/
def table : Scope → Option (Dict String String)
  | .global => some w.vars.global
  | .service name => if w.vars.multisite then w.vars.site name else none

/-- The loop of `init` over the users of a scope. -/
def hashedUsers (scope : Scope) (raw : Dict Text Text) : List (Text × Entry) :=
  raw.items.filterMap fun e =>
    (hashPassword w.base64 w.derive (w.salt scope e.1) e.2).map fun entry => (e.1, entry)

/-- The body of the loop of `init` over the scopes. -/
def config (scope : Scope) (table : Dict String String) : Option Config :=
  let vars := getMultipleVariables settingNames table
  if Dict.firstOf "USE_AUTH_BASIC" vars = some "yes" then
    if usersList vars = [] then none
    else if w.hashedUsers scope (extractCredentials vars) = [] then none
    else
      let text := trim (((Dict.firstOf "AUTH_BASIC_TEXT" vars).map String.toList).getD [])
      some ⟨if text ≠ [] then text else defaultRealm,
        buildMatcher (Dict.firstOf "AUTH_BASIC_LOCATION" vars),
        Dict.setAll ∅ (w.hashedUsers scope (extractCredentials vars))⟩
  else none

/-- What `init` leaves in the store under `plugin_authbasic_configs`. -/
def init : Option (Scope → Option Config) :=
  if w.stored then some fun scope => (w.table scope).bind fun table => w.config scope table
  else none

end World

/-- The table into which `initialize` copies the configurations key by key. -/
structure Current where
  realm : Option Text
  matcher : Option Matcher
  credentials : Option (Dict Text Entry)

def Current.write (current : Current) : Option Config → Current
  | none => current
  | some config => ⟨some config.realm, some config.matcher, some config.credentials⟩

namespace World

variable (w : World)

def setting (server name : String) : Option String := w.vars.getVariable (some server) name

def isLoading : Bool := w.vars.getVariable none "IS_LOADING" == some "yes"

/-- `self.current_config`, as `initialize` leaves it for a request to a server. -/
def currentConfig (server : String) : Option Current :=
  if w.setting server "USE_AUTH_BASIC" ≠ some "yes" then none
  else
    (if w.readable then w.init else none).map fun configs =>
      (Current.write ⟨none, none, none⟩ (configs .global)).write (configs (.service server))

def isNeeded (server : String) : Bool :=
  !w.isLoading &&
    if server ≠ "_" then w.setting server "USE_AUTH_BASIC" == some "yes"
    else w.vars.hasVariable "USE_AUTH_BASIC" "yes"

end World

/-! ## A request -/

/-- Why credentials are refused. -/
inductive Refusal where
  | missingCredentials
  | missingHeader
  | invalidScheme
  | invalidBase64
  | malformed
  | unknownUser (username : Text)
  | internalError
  | invalidPassword (username : Text)
  deriving DecidableEq

/-- `%s+(.+)$`. -/
def afterSpaces (text : Text) : Option Text :=
  match text.takeWhile isLuaSpace, text.dropWhile isLuaSpace with
  | [], _ => none
  | _ :: spaces, [] => spaces.getLast?.map fun c => [c]
  | _, rest => some rest

/-- `^[%s]*[Bb][Aa][Ss][Ii][Cc]%s+(.+)$`. -/
def encodedOf (header : Text) : Option Text :=
  let text := header.dropWhile isLuaSpace
  if (text.take 5).map Char.toLower = "basic".toList then afterSpaces (text.drop 5) else none

/-- The user and the password of a header in `validate_credentials`. -/
def credentialsOf (base64 : Base64) : Option Text → Except Refusal (Text × Text)
  | none => .error .missingHeader
  | some header =>
    match encodedOf header with
    | none => .error .invalidScheme
    | some encoded =>
      match base64.decode (trim encoded) with
      | none => .error .invalidBase64
      | some decoded =>
        if ':' ∈ decoded then
          .ok (decoded.takeWhile (· ≠ ':'), (decoded.dropWhile (· ≠ ':')).tail)
        else .error .malformed

/-- What `access` returns. -/
inductive Answer where
  | disabled
  | noConfiguration
  | outsideScope
  | authenticated (username : Text)
  | unauthorized (reason : Refusal) (realm : Text)
  deriving DecidableEq

/-- The request goes on. -/
def Answer.passes : Answer → Bool
  | .unauthorized _ _ => false
  | _ => true

namespace World

variable (w : World)

/-- `validate_credentials`, with the credentials of the configuration. -/
def validateCredentials (credentials : Option (Dict Text Entry)) (header : Option Text) :
    Except Refusal Text :=
  match credentials with
  | none => .error .missingCredentials
  | some credentials =>
    match credentialsOf w.base64 header with
    | .error reason => .error reason
    | .ok (username, password) =>
      match credentials.lookup username with
      | none => .error (.unknownUser username)
      | some expected =>
        match verifyPassword w.base64 w.derive password expected with
        | none => .error .internalError
        | some false => .error (.invalidPassword username)
        | some true => .ok username

/-- `matches_scope`. -/
def matchesScope (current : Current) (uri : Text) : Bool :=
  match current.matcher with
  | none => false
  | some matcher => matcher.matches w.regexMatch uri

def access (server : String) (uri : Text) (header : Option Text) : Answer :=
  if !w.isNeeded server then .disabled
  else
    match w.currentConfig server with
    | none => .noConfiguration
    | some current =>
      if current.credentials.isNone then .noConfiguration
      else if !w.matchesScope current uri then .outsideScope
      else
        match w.validateCredentials current.credentials header with
        | .ok username => .authenticated username
        | .error reason => .unauthorized reason (current.realm.getD defaultRealm)

end World

end BunkerWeb.Lua.AuthBasic
