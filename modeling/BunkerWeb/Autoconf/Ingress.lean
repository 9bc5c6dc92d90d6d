import BunkerWeb.Lib.Fields
import BunkerWeb.Lib.Ordered
import BunkerWeb.Text

/-!
# The services of an Ingress (`controllers/IngressController.py`)

`_to_services` makes a service of every rule with a host. The settings come from the paths of the
rule, without the name of the service in front, and from the annotations, with the name in front
unless they are not valid. A service of the type `stream` is then reduced to one upstream, in a loop
over a copy of its keys; the secrets of the section `tls` are set last.

What the API of the cluster answers is `Cluster`. Messages and the note of a missing backend are
left out.
-/

namespace BunkerWeb.Autoconf.Ingress

open Lib

abbrev Text := List Char

abbrev Service := Ordered Text Text

/-! ## What is given -/

structure Port where
  name : Option Text
  number : Nat

structure Backend where
  name : Text
  port : Option Port

structure Path where
  path : Option Text
  service : Option Backend

structure Rule where
  host : Option Text
  http : Option (List Path)

structure Tls where
  hosts : List Text
  secretName : Option Text

structure Ingress where
  nameSpace : Text
  rules : List Rule
  annotations : List (Text × Text)
  tls : List Tls

/-- The first service or secret that is found by its namespace and name. -/
structure Cluster where
  /-- The ports, with their names. -/
  service : Text → Text → Option (List (Option Text × Nat))
  secret : Text → Text → Option (List (Text × Text))

inductive Protocol
  | http
  | https
  deriving DecidableEq, Repr

structure Controller where
  suffixStart : Nat
  protocol : Protocol
  domainName : Text
  /-- `is_valid_setting(setting, value=value, multisite=True)`. -/
  isValid : Text → Text → Bool

/-! ## Texts -/

def Protocol.text : Protocol → Text
  | .http => "http".toList
  | .https => "https".toList

def serverNameKey : Text := "SERVER_NAME".toList

def typeKey : Text := "SERVER_TYPE".toList

def hostKey : Text := "REVERSE_PROXY_HOST".toList

def urlKey : Text := "REVERSE_PROXY_URL".toList

/-- `f"{name}_{key}"`. -/
def prefixed (name key : Text) : Text := name ++ '_' :: key

/-- `f"{key}_{location}" if location else key`. -/
def numbered (key : Text) (location : Nat) : Text :=
  if location ≠ 0 then key ++ '_' :: (toString location).toList else key

/-- `not value` of a text that may be missing. -/
def given (text : Option Text) : Option Text := text.filter (· ≠ [])

/-- `text.replace(sub, "", 1)`. -/
def removeFirst (sub : Text) : Text → Text
  | [] => []
  | c :: text => if sub.isPrefixOf (c :: text) then (c :: text).drop sub.length
    else c :: removeFirst sub text

/-- The words of `SERVER_NAME`. -/
def names (service : Service) : List Text := fields isSpace ((service.get serverNameKey).getD [])

/-! ## Rules -/

/-- `service.update(items)`. -/
def update (service : Service) (items : List (Text × Text)) : Service :=
  items.foldl (fun s e => s.put e.1 e.2) service

/-- The port of the backend; without a port of that name it is 80. -/
def portOf (port : Port) (ports : List (Option Text × Nat)) : Nat :=
  match given port.name with
  | some name => ((ports.find? (·.1 = some name)).map Prod.snd).getD 80
  | none => port.number

def httpPort : Nat := 80

/-- The upstream of a backend. -/
def upstream (c : Controller) (nameSpace : Text) (backend : Backend) (port : Nat) : Text :=
  c.protocol.text ++ "://".toList ++ backend.name ++ '.' :: nameSpace ++ ".svc.".toList ++
    c.domainName ++ if port ≠ httpPort then ':' :: (toString port).toList else []

/-- What one path sets. -/
def pathSettings (c : Controller) (cluster : Cluster) (nameSpace : Text) (location : Nat)
    (path : Path) : List (Text × Text) :=
  match given path.path, path.service with
  | some url, some backend =>
    match backend.port, cluster.service nameSpace backend.name with
    | some port, some ports =>
      [("USE_REVERSE_PROXY".toList, "yes".toList),
        (numbered hostKey location, upstream c nameSpace backend (portOf port ports)),
        (numbered urlKey location, url)]
    | _, _ => []
  | _, _ => []

/-- The service of a rule with a host. -/
def ruleService (c : Controller) (cluster : Cluster) (nameSpace host : Text)
    (http : Option (List Path)) : Service :=
  let service := update .empty [(serverNameKey, host), ("NAMESPACE".toList, nameSpace)]
  ((http.getD []).zipIdx c.suffixStart).foldl
    (fun s p => update s (pathSettings c cluster nameSpace p.2 p.1)) service

/-- The hosts of the rules. -/
def hosts (ingress : Ingress) : List Text := ingress.rules.filterMap fun rule => given rule.host

def ruleServices (c : Controller) (cluster : Cluster) (ingress : Ingress) : List Service :=
  ingress.rules.filterMap fun rule => (given rule.host).map fun host =>
    ruleService c cluster ingress.nameSpace host rule.http

/-! ## Annotations -/

def annotationPrefix : Text := "bunkerweb.io/".toList

/-- `service["SERVER_NAME"].strip().split(" ")[0]`. -/
def firstName (service : Service) : Text :=
  (stripChars ((service.get serverNameKey).getD [])).takeWhile (· ≠ ' ')

/-- One annotation. -/
def annotate (c : Controller) (serverNames : List Text) (name : Text) (service : Service)
    ( annotation : Text × Text) : Service :=
  if !annotationPrefix.isPrefixOf annotation.1 then service
  else
    let setting := annotation.1.drop annotationPrefix.length
    if c.isValid setting annotation.2 ∧ ¬ (prefixed name []).isPrefixOf setting then
      if serverNames.any fun s => (prefixed s []).isPrefixOf setting then service
      else if setting = serverNameKey then service
      else service.put (prefixed name setting) annotation.2
    else service.put setting annotation.2

def annotated (c : Controller) (ingress : Ingress) (service : Service) : Service :=
  ingress.annotations.foldl (annotate c (hosts ingress) (firstName service)) service

/-! ## Streams -/

/-- The type of the service is `stream` for the name. -/
def isStream (name : Text) (service : Service) : Bool :=
  ((service.get (prefixed name typeKey)).or (service.get typeKey)).getD "http".toList =
    "stream".toList

/-- `text.removeprefix("_")`. -/
def dropUnderscore : Text → Text
  | '_' :: text => text
  | text => text

/-- The URL that belongs to an upstream of the name. -/
def urlOf (name setting : Text) : Text :=
  let suffix := dropUnderscore (setting.drop (prefixed name hostKey).length)
  if suffix ≠ [] then prefixed name urlKey ++ '_' :: suffix else prefixed name urlKey

/-- One turn of the loop over the copy of the keys. -/
def reduceKey (protocol : Protocol) (name : Text) (st : Service × Bool) (setting : Text) :
    Service × Bool :=
  if (prefixed name hostKey).isPrefixOf setting then
    if st.2 then (st.1.del setting, true)
    else
      let value := (st.1.get setting).getD []
      let service := (st.1.del setting).put (prefixed name hostKey)
        (removeFirst (protocol.text ++ "://".toList) value)
      let url := (service.get (urlOf name setting)).getD ['/']
      ((service.del (urlOf name setting)).put (prefixed name urlKey) url, true)
  else if (prefixed name urlKey).isPrefixOf setting ∧ setting ∈ st.1.keys then
    (st.1.del setting, st.2)
  else st

/-- The service with one upstream for the name. -/
def reduceName (protocol : Protocol) (name : Text) (service : Service) : Service :=
  (service.keys.foldl (reduceKey protocol name) (service, false)).1

/-- The loop over the names of the service. -/
def reduced (protocol : Protocol) (service : Service) : Service :=
  (names service).foldl
    (fun s name => if isStream name s then reduceName protocol name s else s) service

/-! ## Certificates -/

def certKey : Text := "tls.crt".toList

def privateKey : Text := "tls.key".toList

/-- The settings of a secret, if it has both parts. -/
def secretSettings (cluster : Cluster) (nameSpace secretName : Text) : List (Text × Text) :=
  match cluster.secret nameSpace secretName with
  | none => []
  | some data =>
    match data.lookup certKey, data.lookup privateKey with
    | some cert, some key =>
      [("USE_CUSTOM_SSL".toList, "yes".toList), ("CUSTOM_SSL_CERT_DATA".toList, cert),
        ("CUSTOM_SSL_KEY_DATA".toList, key)]
    | _, _ => []

/-- The certificates of the section `tls`. -/
def certified (cluster : Cluster) (ingress : Ingress) (service : Service) : Service :=
  ingress.tls.foldl (fun service tls =>
    match given tls.secretName with
    | none => service
    | some secretName =>
      tls.hosts.foldl (fun service host =>
        if host ∈ names service then
          update service (secretSettings cluster ingress.nameSpace secretName)
        else service) service) service

/-- The settings that the rules and annotations give, one service a rule. -/
def settings (c : Controller) (cluster : Cluster) (ingress : Ingress) : List Service :=
  (ruleServices c cluster ingress).map (annotated c ingress)

/-- `_to_services`; without annotations nothing is reduced. -/
def toServices (c : Controller) (cluster : Cluster) (ingress : Ingress) : List Service :=
  (settings c cluster ingress).map fun service =>
    certified cluster ingress
      (if ingress.annotations.isEmpty then service else reduced c.protocol service)

end BunkerWeb.Autoconf.Ingress
