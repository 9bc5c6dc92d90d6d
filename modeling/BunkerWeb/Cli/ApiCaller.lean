import BunkerWeb.Lib.Dict
import BunkerWeb.Text

/-!
# Requests to all instances (`utils/ApiCaller.py`) and the commands that send them (`cli/CLI.py`)

- **Instances** (`Instance`): the endpoint that `API` builds from a canonical host name, and the name
  that `urlsplit` finds in it again.
- **One request** (`Outcome`): what `API.request` returns or raises.
- **All requests** (`sendToApis`): the results in the order in which the futures complete.
- **Commands** (`ban`, `unban`): what they send and what they tell the caller.

What is only logged is left out. A number of seconds is an integer.
-/

namespace BunkerWeb.Cli

open Lib

abbrev Text := List Char

/-! ## Instances -/

/-- What `normalize_host` returns: a name in lower case or an IP address, whose zone keeps its
case. -/
structure CanonicalHost (host : Text) : Prop where
  nonempty : host ≠ []
  plain : ∀ c ∈ host, c ∉ ['/', '?', '#', '@', '[', ']']
  lower : (host.takeWhile (· ≠ '%')).map Char.toLower = host.takeWhile (· ≠ '%')

/-- An `API` object. -/
structure Instance where
  https : Bool
  hostname : Text
  port : Option Nat
  canonical : CanonicalHost hostname

/-- `API.endpoint`. -/
def Instance.endpoint (i : Instance) : Text :=
  (if i.https then "https".toList else "http".toList) ++ "://".toList ++
    (if ':' ∈ i.hostname then '[' :: i.hostname ++ [']'] else i.hostname) ++
    (match i.port with
      | some port => ':' :: (toString port).toList
      | none => []) ++ ['/']

/-- The `netloc` of `urlsplit`, for a text with a scheme. -/
def netloc (url : Text) : Text :=
  ((url.dropWhile (· ≠ '/')).drop 2).takeWhile fun c => c ≠ '/' && c ≠ '?' && c ≠ '#'

/-- The host of what stands behind the user information: up to the port, or in brackets. -/
def hostOfInfo (hostinfo : Text) : Text :=
  match hostinfo.dropWhile (· ≠ '[') with
  | [] => hostinfo.takeWhile (· ≠ ':')
  | _ :: bracketed => bracketed.takeWhile (· ≠ ']')

/-- `urlsplit(url).hostname`. -/
def urlHostname (url : Text) : Option Text :=
  let host := hostOfInfo (((netloc url).reverse).takeWhile (· ≠ '@')).reverse
  if host = [] then none
  else some ((host.takeWhile (· ≠ '%')).map Char.toLower ++ host.dropWhile (· ≠ '%'))

/-- The name under which the answer of an instance is kept. -/
def Instance.answerKey (i : Instance) : Text := (urlHostname i.endpoint).getD i.endpoint

/-! ## Requests -/

variable {α : Type}

/-- A JSON text that was read: an object, or another value that may be a false one. -/
inductive Body (α : Type) where
  | object (entries : List (Text × α))
  | other (value : α) (truthy : Bool)

/-- What becomes of the request to an instance. -/
inductive Outcome (α : Type) where
  /-- `(False, err, None, None)`. -/
  | notSent
  /-- The status and `resp.json()`. -/
  | answered (status : Nat) (body : Body α)
  /-- An exception that leaves `API.request`. -/
  | raised

/-- A turn of the loop over the completed futures. -/
def complete (response : Bool) (r : Bool × Dict Text (Body α)) (e : Instance × Outcome α) :
    Bool × Dict Text (Body α) :=
  match e.2 with
  | .notSent => (false, r.2)
  | .raised => (false, r.2)
  | .answered status body =>
    match body with
    | .object entries =>
      (r.1 && status == 200,
        if response && !entries.isEmpty then r.2.insert e.1.answerKey body else r.2)
    -- `resp.get` for the log and `resp.json` are methods that only a dictionary or a response has.
    | .other _ truthy => (r.1 && status == 200 && !(response && truthy), r.2)

/-- `send_to_apis`, with the futures in the order in which they complete. -/
def sendToApis (response : Bool) (completed : List (Instance × Outcome α)) :
    Bool × Option (Dict Text (Body α)) :=
  let r := completed.foldl (complete response) (true, ∅)
  (r.1, if response then some r.2 else none)

/-! ## Commands -/

/-- The truth value of a pair: a tuple with items is true, whatever they are. -/
def truthyPair {β : Type} (_ : Bool × β) : Bool := true

/-- `format_remaining_time`. -/
def formatRemainingTime (seconds : Int) : String :=
  if seconds < 0 then "permanent"
  else
    let part (n : Int) (unit : String) : List String :=
      if n > 0 then [toString n ++ " " ++ unit ++ if n ≠ 1 then "s" else ""] else []
    let parts := part (seconds / 86400) "day" ++ part (seconds % 86400 / 3600) "hour" ++
      part (seconds % 3600 / 60) "minute" ++ part (seconds % 60) "second"
    match parts.reverse with
    | [] => "less than a second"
    | [one] => one
    | last :: rest => " ".intercalate (rest.reverse ++ ["and " ++ last])

/-- The request of `ban`. -/
structure BanData where
  ip : String
  exp : Int
  reason : String
  service : String
  banScope : String

/-- The request of `unban`. -/
structure UnbanData where
  ip : String
  banScope : String
  service : Option String

def RESET : String := "\x1b[0m"
def BOLD : String := "\x1b[1m"
def RED : String := "\x1b[31m"
def GREEN : String := "\x1b[32m"
def YELLOW : String := "\x1b[33m"
def CYAN : String := "\x1b[36m"
def WHITE : String := "\x1b[37m"
def ITALIC : String := "\x1b[3m"

/-- What `ban` sends. `services` are the services of the configuration, or none if they could not be
read. -/
def banData (services : Option (List String)) (ip : String) (exp : Int) (reason service : String) :
    BanData :=
  if service = "bwcli" ∨ service = "" then ⟨ip, exp, reason, "bwcli", "global"⟩
  else if services.any (·.contains service) then ⟨ip, exp, reason, service, "service"⟩
  else ⟨ip, exp, reason, "bwcli", "global"⟩

/-- What `unban` sends. -/
def unbanData (ip : String) (service : Option String) : UnbanData :=
  match service with
  | none | some "" => ⟨ip, "global", none⟩
  | some service => ⟨ip, "service", some service⟩

/-- The text of a ban that was sent. -/
def bannedText (data : BanData) : String :=
  "🔒 IP " ++ BOLD ++ WHITE ++ data.ip ++ RESET ++ " has been banned " ++
    (if data.banScope = "global" then GREEN ++ "globally" ++ RESET
      else "for service " ++ CYAN ++ data.service ++ RESET) ++
    "\n⏱ Duration: " ++
    (if data.exp = 0 then RED ++ "permanently" ++ RESET
      else YELLOW ++ formatRemainingTime data.exp ++ RESET) ++
    "\nℹ️ Reason: " ++ ITALIC ++ data.reason ++ RESET

/-- The text of an unban that was sent. -/
def unbannedText (data : UnbanData) : String :=
  "🔓 IP " ++ BOLD ++ WHITE ++ data.ip ++ RESET ++ " has been unbanned " ++
    match data.service with
    | some service => "from service " ++ CYAN ++ service ++ RESET
    | none => GREEN ++ "globally" ++ RESET

/-- A message to the user, which the terminal frames as a success or as an error. -/
inductive Message where
  | success (text : String)
  | error (text : String)
  deriving DecidableEq

/-- `CLI.ban`. The requests complete as `send` says. -/
def ban (send : BanData → List (Instance × Outcome α)) (services : Option (List String))
    (ip : String) (exp : Int) (reason service : String) : Bool × Message :=
  let data := banData services ip exp reason service
  if truthyPair (sendToApis false (send data)) then (true, .success (bannedText data))
  else (false, .error ("Failed to ban " ++ ip))

/-- `CLI.unban`. -/
def unban (send : UnbanData → List (Instance × Outcome α)) (ip : String) (service : Option String) :
    Bool × Message :=
  let data := unbanData ip service
  if truthyPair (sendToApis false (send data)) then (true, .success (unbannedText data))
  else (false, .error ("Failed to unban " ++ ip))

end BunkerWeb.Cli
