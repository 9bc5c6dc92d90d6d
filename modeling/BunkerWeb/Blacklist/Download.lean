import BunkerWeb.Lib.Run
import Mathlib.Data.List.DropRight
import Mathlib.Data.List.Lex
import Mathlib.Data.List.Sort
import Mathlib.Data.List.TakeWhile
import Mathlib.Logic.Function.Basic

/-!
# Blacklist downloads (`blacklist/jobs/blacklist-download.py`)

A run of the job goes through the services, their kinds of lists and the URLs of each. A URL that
was stored less than an hour ago is read from the cache, else it is downloaded, checked for the kind
at hand and stored. What the URLs of a kind give together is the file of the kind.

The cache is a directory of files and a table of the database, which may differ when a write fails.
A run is the list of its steps (`jobSteps`), with what the network, the clock and the writes do as
inputs. Logs, the recap and the exit status are left out.
-/

namespace BunkerWeb.Blacklist

/-- Bytes, each as the character with its number. -/
abbrev Bytes := List Char

/-! ## Kinds and lines -/

inductive Kind
  | ip
  | rdns
  | asn
  | userAgent
  | uri
  | ignoreIp
  | ignoreRdns
  | ignoreAsn
  | ignoreUserAgent
  | ignoreUri
  deriving DecidableEq, Repr

/-- `KINDS`. -/
def kinds : List Kind :=
  [.ip, .rdns, .asn, .userAgent, .uri, .ignoreIp, .ignoreRdns, .ignoreAsn, .ignoreUserAgent,
    .ignoreUri]

/-- `ip_network` and `ip_address` do not raise for the text. -/
structure IpModule where
  isNetwork : Bytes → Bool
  isAddress : Bytes → Bool

/-- White space of `bytes.strip`. -/
def isBlank (c : Char) : Bool := c ∈ [' ', '\t', '\n', '\r', '\x0b', '\x0c']

def strip (line : Bytes) : Bytes := (line.dropWhile isBlank).rdropWhile isBlank

/-- `line.replace(word, b"")` for a word of two bytes. -/
def removeWord (a b : Char) : Bytes → Bytes
  | x :: y :: line => if x = a ∧ y = b then removeWord a b line else x :: removeWord a b (y :: line)
  | line => line

/-- `^\d+$`, where the end may be in front of a last line feed. -/
def isNumber (line : Bytes) : Bool :=
  let digits := if line.getLast? = some '\n' then line.dropLast else line
  digits ≠ [] && digits.all Char.isDigit

/-- `check_line`; a line that is not accepted is `none`. -/
def checkLine (m : IpModule) (kind : Kind) (line : Bytes) : Option Bytes :=
  match kind with
  | .ip | .ignoreIp =>
    if '/' ∈ line then if m.isNetwork line then some line else none
    else if m.isAddress line then some line else none
  | .rdns | .ignoreRdns =>
    if line ≠ [] ∧ ' ' ∉ line then some (line.map Char.toLower) else none
  | .asn | .ignoreAsn =>
    let realLine := removeWord 'a' 's' (removeWord 'A' 'S' line)
    if isNumber realLine then some realLine else none
  | .userAgent | .ignoreUserAgent => some ("(?:\\b)".toList ++ line ++ "(?:\\b)".toList)
  | .uri | .ignoreUri => if line.head? = some '/' then some line else none

/-! ## The cache -/

abbrev Service := List Char

/-- A URL is a word of a setting. -/
def Url := { url : Bytes // ∀ c ∈ url, isBlank c = false }

instance : DecidableEq Url := inferInstanceAs (DecidableEq { _url : Bytes // _ })

/-- The files of the cache: the text of a URL, named by its hash, and the file of a kind. -/
inductive Name
  | url (url : Url)
  | list (service : Service) (kind : Kind)
  deriving DecidableEq

/-- A file, with the kind that its lines were checked for, which the job does not know. -/
structure File where
  data : Bytes
  kind : Kind

structure Cache where
  disk : Name → Option File
  /-- The rows, with the time of the last update. -/
  db : Name → Option (File × Nat)

/-- Which of the two writes of `cache_file` succeed. -/
structure Writes where
  disk : Bool
  db : Bool

/-- What `restore_cache` leaves of a file. -/
inductive Restored
  | kept
  | fromDb
  | removed

namespace Cache

def empty : Cache := ⟨fun _ => none, fun _ => none⟩

/-- `cache_file`; without the first write the second one is not tried. -/
def store (c : Cache) (name : Name) (file : File) (w : Writes) (now : Nat) : Cache :=
  if w.disk then
    ⟨Function.update c.disk name (some file),
      if w.db then Function.update c.db name (some (file, now)) else c.db⟩
  else c

/-- `get_cache`: the file with the time of its row, else the row. -/
def getCache (c : Cache) (name : Name) : Option (File × Option Nat) :=
  match c.disk name with
  | some file => some (file, (c.db name).map Prod.snd)
  | none => (c.db name).map fun row => (row.1, some row.2)

/-- `cache_hash`, with the text in the place of its hash. -/
def dataOf (c : Cache) (name : Name) : Option Bytes := (c.getCache name).map fun e => e.1.data

/-- `del_cache` of a file that is there; the row may stay. -/
def delete (c : Cache) (name : Name) (rowToo : Bool) : Cache :=
  if (c.disk name).isSome then
    ⟨Function.update c.disk name none, if rowToo then Function.update c.db name none else c.db⟩
  else c

def restore (c : Cache) (r : Name → Restored) : Cache :=
  ⟨fun name => match r name with
    | .kept => c.disk name
    | .fromDb => (c.db name).map Prod.fst
    | .removed => none, c.db⟩

/-- The files of URLs that were not used are deleted. -/
def dropUnused (c : Cache) (used : Url → Bool) (rowToo : Url → Bool) : Cache :=
  let unused : Name → Bool := fun
    | .url u => !used u && (c.disk (.url u)).isSome
    | .list _ _ => false
  let row : Name → Bool := fun
    | .url u => rowToo u
    | .list _ _ => false
  ⟨fun name => if unused name then none else c.disk name,
    fun name => if unused name && row name then none else c.db name⟩

end Cache

/-! ## One URL -/

/-- What a download gives. -/
inductive Answer
  /-- No answer, another status than 200, or a file that cannot be opened. -/
  | failed
  /-- The content, from which the connection may break off. -/
  | content (bytes : Bytes) (complete : Bool)

structure UrlInput where
  answer : Answer
  writes : Writes
  now : Nat

def hour : Nat := 3600

/-- The text of the cache that is younger than an hour. -/
def recent (c : Cache) (url : Url) (now : Nat) : Option File :=
  (c.getCache (.url url)).bind fun e =>
    (e.2.filter fun lastUpdate => now < lastUpdate + hour).map fun _ => e.1

/-- `readlines` and `iter_lines`, without empty lines. -/
def linesOf (content : Bytes) : List Bytes :=
  (content.splitOnP fun c => c = '\n' || c = '\r').filter (· ≠ [])

/-- A line before it is checked. -/
def cleanLine (kind : Kind) (line : Bytes) : Option Bytes :=
  let line := strip line
  if line = [] ∨ line.head? = some '#' ∨ line.head? = some ';' then none
  else if kind ≠ .userAgent then some (line.takeWhile (· ≠ ' ')) else some line

/-- The lines of a content that are accepted. -/
def acceptedLines (m : IpModule) (kind : Kind) (content : Bytes) : List Bytes :=
  (linesOf content).filterMap fun line => (cleanLine kind line).bind (checkLine m kind)

/-- The text of a URL in the cache. -/
def urlFile (url : Url) (lines : List Bytes) : Bytes :=
  "# Downloaded from ".toList ++ url.val ++ '\n' :: lines.flatMap fun line => line ++ ['\n']

/-- The entries of a cached text: its lines without the first one. -/
def cachedLines (data : Bytes) : List Bytes :=
  (((data.splitOn '\n').drop 1).map strip).filter (· ≠ [])

/-- `unique_entries.add`, for all lines. -/
def addAll (entries lines : List Bytes) : List Bytes := lines.foldl (fun es l => es.insert l) entries

/-! ## Steps -/

/-- The state of a run: the cache, the URLs that failed, and the kind at hand with its entries. -/
structure Work where
  cache : Cache
  failed : List Url
  service : Service
  kind : Kind
  entries : List Bytes

def Work.start : Work := ⟨.empty, [], [], .ip, []⟩

/-- `bytes` are in the order of their numbers. -/
def sorted (entries : List Bytes) : List Bytes :=
  entries.insertionSort fun a b => a.map Char.toNat ≤ b.map Char.toNat

/-- The file of a kind. -/
def listContent (entries : List Bytes) : Bytes :=
  if entries = [] then [] else ['\n'].intercalate (sorted entries) ++ ['\n']

inductive Step
  | start (restored : Name → Restored)
  | openKind (service : Service) (kind : Kind)
  | url (url : Url) (input : UrlInput)
  | closeKind (writes : Writes) (now : Nat)
  | delete (name : Name) (rowToo : Bool)
  | dropUnused (used rowToo : Url → Bool)

variable (m : IpModule)

/-- A URL of the kind at hand. -/
def urlStep (w : Work) (url : Url) (input : UrlInput) : Work :=
  if url ∈ w.failed then w
  else
    match recent w.cache url input.now with
    | some file => { w with entries := addAll w.entries (cachedLines file.data) }
    | none =>
      match input.answer with
      | .failed => { w with failed := url :: w.failed }
      | .content bytes complete =>
        let lines := acceptedLines m w.kind bytes
        if complete then
          { w with
            entries := addAll w.entries lines
            cache := w.cache.store (.url url) ⟨urlFile url lines, w.kind⟩ input.writes input.now
            failed := if input.writes.disk then w.failed else url :: w.failed }
        else { w with entries := addAll w.entries lines, failed := url :: w.failed }

/-- The file of the kind at hand. -/
def closeStep (w : Work) (writes : Writes) (now : Nat) : Work :=
  let content := listContent w.entries
  if content = [] ∨ w.cache.dataOf (.list w.service w.kind) = some content then w
  else { w with cache := w.cache.store (.list w.service w.kind) ⟨content, w.kind⟩ writes now }

def step (w : Work) : Step → Work
  | .start restored => { w with cache := w.cache.restore restored, failed := [] }
  | .openKind service kind => { w with service := service, kind := kind, entries := [] }
  | .url url input => urlStep m w url input
  | .closeKind writes now => closeStep w writes now
  | .delete name rowToo => { w with cache := w.cache.delete name rowToo }
  | .dropUnused used rowToo => { w with cache := w.cache.dropUnused used rowToo }

/-! ## Runs -/

/-- The configuration and everything that comes from outside. -/
structure RunInput where
  restored : Name → Restored
  /-- `services_blacklist_urls`. -/
  urls : List (Service × (Kind → List Url))
  /-- What a URL gives for a service and a kind. -/
  input : Service → Kind → Url → UrlInput
  writes : Service → Kind → Writes
  now : Service → Kind → Nat
  rowToo : Name → Bool
  /-- The files that are there when no URL is configured. -/
  files : List Name
  /-- An exception may end the run after any step. -/
  stepsDone : Nat

/-- The steps of one kind of a service. -/
def kindSteps (r : RunInput) (service : Service) (urls : Kind → List Url) (kind : Kind) : List Step :=
  if urls kind = [] then [.delete (.list service kind) (r.rowToo (.list service kind))]
  else .openKind service kind ::
    (urls kind).map (fun url => .url url (r.input service kind url)) ++
      [.closeKind (r.writes service kind) (r.now service kind)]

/-- All URLs of a run. -/
def allUrls (r : RunInput) : List Url := r.urls.flatMap fun s => kinds.flatMap s.2

/-- The steps of a run that nothing ends. -/
def allSteps (r : RunInput) : List Step :=
  .start r.restored ::
    if allUrls r = [] then r.files.map fun name => .delete name (r.rowToo name)
    else (r.urls.flatMap fun s => kinds.flatMap (kindSteps r s.1 s.2)) ++
      [.dropUnused (fun u => u ∈ allUrls r) fun u => r.rowToo (.url u)]

def jobSteps (r : RunInput) : List Step := (allSteps r).take r.stepsDone

/-- The state after the runs of a history. -/
def afterRuns (history : List RunInput) : Work :=
  Lib.Run.run (step m) .start (history.flatMap jobSteps)

end BunkerWeb.Blacklist
