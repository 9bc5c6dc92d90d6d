import BunkerWeb.Lib.Gathering
import BunkerWeb.Lua.Variables

/-!
# DNS blocklists (`core/dnsbl/dnsbl.lua`)

`access` asks every server of `DNSBL_LIST` in a light thread of its own, takes the results in the
order in which the lookups end, and writes the verdict to the cache: the server that lists the
address, or `ok`.

A lookup that fails is no listing, and `get_ips` even returns the empty list for a query that timed
out. `dnsbl_exact_iff` says when the answer and the cached verdict are right nevertheless.

The ignore list is matched by `resty.ipmatcher`, which is left open. The metrics and the logs are
left out.
-/

namespace BunkerWeb.Lua.Dnsbl

open Lib

/-- What a lookup of `get_ips` without IPv6 meets. -/
inductive Lookup where
  /-- The cache of DNS answers has the addresses. -/
  | cached (ips : List String)
  | noResolvers (err : String)
  | noResolver (err : String)
  /-- `query` returns no answers. -/
  | failed (err : String)
  /-- The answer has an error code. -/
  | refused (errcode : Nat) (errstr : String)
  /-- Each record with its address, if it has one. -/
  | answered (records : List (Option String))

/-- `get_ips`: the addresses, or the error. -/
def Lookup.getIps : Lookup → Except String (List String)
  | .cached ips => .ok ips
  | .noResolvers err => .error err
  | .noResolver err => .error err
  | .failed _ => .ok []
  | .refused _ _ => .ok []
  | .answered records => .ok (records.filterMap id)

/-- The addresses that a blocklist answers with. -/
def isListing (ip : String) : Bool := "127.0.0.".toList.isPrefixOf ip.toList

/-- What a thread returns: `nil` for an error, the server, and the error. -/
structure Result where
  result : Option Bool
  server : String
  err : Option String

def isInDnsbl (lookup : Lookup) (server : String) : Result :=
  match lookup.getIps with
  | .error err => ⟨none, server, some err⟩
  | .ok ips => ⟨some (ips.any isListing), server, none⟩

/-- What `ret` takes: whether the check went well, its message, whether the request is denied, and
the server that is reported. -/
structure Ret where
  ret : Bool
  msg : String
  denies : Bool := false
  dnsbl : Option String := none

/-- A request, and what the check meets. -/
structure World where
  useDnsbl : String
  dnsblList : String
  ipIsGlobal : Bool
  remoteAddr : String
  serverName : String
  ignoreIp : List String
  /-- `ipmatcher_new`, and `match`. -/
  ipmatcher : List String → Except String (String → Except String Bool)
  /-- `cachestore_local:get`. -/
  get : String → Except String (Option String)
  /-- The error of `cachestore_local:set`. -/
  setError : String → Option String
  /-- What the lookup of each thread meets. -/
  lookup : Nat → Lookup

/-- What `access` returns, and what it wrote to the cache. -/
abbrev Outcome := Ret × List (String × String)

namespace World

variable (w : World)

def cacheKey : String := "plugin_dnsbl_" ++ w.serverName ++ w.remoteAddr

/-- What `add_to_cache` stores. -/
def stores (value : String) : List (String × String) :=
  if w.setError w.cacheKey = none then [(w.cacheKey, value)] else []

/-- The address is on the ignore list; a list that cannot be read ignores nothing. -/
def isIgnored : Bool :=
  !w.ignoreIp.isEmpty &&
    match w.ipmatcher w.ignoreIp with
    | .error _ => false
    | .ok ipm =>
      match ipm w.remoteAddr with
      | .error _ => false
      | .ok found => found

/-- The answers that need no lookup. -/
def early : Option Outcome :=
  if w.useDnsbl ≠ "yes" then some (⟨true, "dnsbl not activated", false, none⟩, [])
  else if w.dnsblList = "" then some (⟨true, "dnsbl list is empty", false, none⟩, [])
  else if !w.ipIsGlobal then
    some (⟨true, "client IP is not global, skipping DNSBL check", false, none⟩, [])
  else if w.isIgnored then
    some (⟨true, "client IP " ++ w.remoteAddr ++ " is ignored for DNSBL checks",
      false, none⟩, w.stores "ok")
  else
    match w.get w.cacheKey with
    | .error err => some (⟨false, "error while checking cache : " ++ err, false, none⟩, [])
    | .ok none => none
    | .ok (some cached) =>
      if cached = "ok" then
        some (⟨true, "client IP " ++ w.remoteAddr ++
          " is in DNSBL cache (not blacklisted)", false, none⟩, [])
      else
        some (⟨true, "client IP " ++ w.remoteAddr ++ " is in DNSBL cache (server = " ++
          cached ++ ")", true, some cached⟩, [])

/-- Each server with the lookup of its thread. -/
def asked : List (String × Lookup) :=
  (gmatchWords w.dnsblList).zipIdx.map fun e => (e.1, w.lookup e.2)

/-- The table of the threads: of two threads for one server the second one stays. -/
def threads : Dict String Result :=
  Dict.setAll ∅ (w.asked.map fun e => (e.1, isInDnsbl e.2 e.1))

/-- What follows the loop. -/
def finish (f : Gathering.Loop String Result) : Outcome :=
  match f.ending with
  | some (.hit r) =>
    match w.setError w.cacheKey with
    | some err =>
      (⟨false, "error while adding element to cache : " ++ err, false, none⟩, [])
    | none => (⟨true, "IP is blacklisted by " ++ r.server, true, some r.server⟩,
        w.stores r.server)
  | some .failed =>
    (⟨false, "error while waiting thread : already waited or killed", false, none⟩, [])
  | none =>
    match w.setError w.cacheKey with
    | some err =>
      (⟨false, "IP is not in DNSBL (error = " ++ err ++ ")", false, none⟩, [])
    | none => (⟨true, "IP is not in DNSBL", false, none⟩, w.stores "ok")

/-- `access` may answer so, for some order in which the lookups end. -/
def Access (out : Outcome) : Prop :=
  match w.early with
  | some answer => out = answer
  | none => ∃ f, Gathering.Runs Result.server (fun r => r.result = some true) w.threads f ∧
      out = w.finish f

end World

/-! ## Answers of servers -/

/-- The addresses that the server answers with: none for a name error, which has the code 3. -/
def Lookup.answer : Lookup → Option (List String)
  | .cached ips => some ips
  | .refused errcode _ => if errcode = 3 then some [] else none
  | .answered records => some (records.filterMap id)
  | .noResolvers _ | .noResolver _ | .failed _ => none

def Lookup.Listed (l : Lookup) : Prop := l.answer.any (·.any isListing) = true

def Lookup.NotListed (l : Lookup) : Prop := l.answer.any (fun ips => !ips.any isListing) = true

theorem result_isInDnsbl (l : Lookup) (server : String) :
    (isInDnsbl l server).result = some true ↔ l.Listed := by
  cases l with
  | cached ips => exact Option.some_inj
  | noResolvers err => exact ⟨nofun, nofun⟩
  | noResolver err => exact ⟨nofun, nofun⟩
  | failed err => exact ⟨nofun, nofun⟩
  | refused errcode errstr =>
    refine ⟨nofun, fun h => ?_⟩
    simp only [Lookup.Listed, Lookup.answer] at h
    split at h <;> cases h
  | answered records => exact Option.some_inj

theorem Lookup.NotListed.not_listed {l : Lookup} (h : l.NotListed) : ¬ l.Listed := by
  unfold Lookup.NotListed Lookup.Listed at *
  cases hl : l.answer with
  | none => rintro ⟨⟩
  | some ips =>
    rw [hl, Option.any_some, Bool.not_eq_true'] at h
    rw [Option.any_some, h]
    rintro ⟨⟩

/-! ## The verdict -/

namespace World

variable {w : World}

/-- The address is global, not ignored and not in the cache. -/
structure Checked (w : World) : Prop where
  used : w.useDnsbl = "yes"
  list : w.dnsblList ≠ ""
  isGlobal : w.ipIsGlobal = true
  notIgnored : w.isIgnored = false
  notCached : w.get w.cacheKey = .ok none

/-- In every order of the lookups the request is denied if and only if some server lists the
address, and the cached verdict is `ok` only if no server does. -/
def Exact (w : World) : Prop :=
  ∀ out, w.Access out →
    (out.1.denies = true ↔ ∃ e ∈ w.asked, e.2.Listed) ∧
      ((w.cacheKey, "ok") ∈ out.2 → ∀ e ∈ w.asked, e.2.NotListed)

/-- The last lookup of a server has a listing. -/
def Lists (w : World) (server : String) : Prop :=
  ∃ l, Dict.lastOf server w.asked = some l ∧ l.Listed

theorem Checked.early (h : w.Checked) : w.early = none := by
  simp [World.early, h.used, h.list, h.isGlobal, h.notIgnored, h.notCached]

theorem lookup_threads (server : String) :
    w.threads.lookup server = (Dict.lastOf server w.asked).map (isInDnsbl · server) := by
  rw [threads, Dict.lookup_setAll, AList.lookup_empty, Option.or_none]
  induction w.asked using List.reverseRecOn with
  | nil => rfl
  | append_singleton l e ih =>
    rw [List.map_append, Dict.lastOf_append, Dict.lastOf_append, ih, Option.map_or]
    congr 1
    show (if e.1 = server then some (isInDnsbl e.2 e.1) else none) =
      (if e.1 = server then some e.2 else none).map _
    split
    next h => rw [Option.map_some, h]
    next => rfl

theorem named_threads : Gathering.Named Result.server w.threads := by
  intro server r hr
  rw [lookup_threads] at hr
  obtain ⟨l, -, rfl⟩ := Option.map_eq_some_iff.mp hr
  unfold isInDnsbl
  split <;> rfl

theorem lists_iff (server : String) :
    w.Lists server ↔ ∃ r, w.threads.lookup server = some r ∧ r.result = some true := by
  rw [lookup_threads]
  constructor
  · rintro ⟨l, hl, hlisted⟩
    exact ⟨_, congrArg (Option.map _) hl, (result_isInDnsbl l server).mpr hlisted⟩
  · rintro ⟨r, hr, hresult⟩
    obtain ⟨l, hl, rfl⟩ := Option.map_eq_some_iff.mp hr
    exact ⟨l, hl, (result_isInDnsbl l server).mp hresult⟩

theorem Lists.exists_asked {server : String} (h : w.Lists server) : ∃ e ∈ w.asked, e.2.Listed := by
  obtain ⟨l, hl, hlisted⟩ := h
  exact ⟨_, Dict.mem_of_lastOf hl, hlisted⟩

section

variable {f : Gathering.Loop String Result}
  (hruns : Gathering.Runs Result.server (fun r => r.result = some true) w.threads f)
include hruns

/-- Without a listing the verdict is `ok`. -/
theorem finish_of_not_lists (hno : ∀ server, ¬ w.Lists server) :
    (w.finish f).1.denies = false ∧ (w.finish f).2 = w.stores "ok" := by
  have hnone : f.ending = none := by
    by_contra hne
    obtain ⟨server, r, hr, hresult⟩ := (hruns.hit_iff named_threads).mp hne
    exact hno server ((lists_iff server).mpr ⟨r, hr, of_decide_eq_true hresult⟩)
  unfold finish stores
  rw [hnone]
  cases w.setError w.cacheKey with
  | none => exact ⟨rfl, (if_pos rfl).symm⟩
  | some err => exact ⟨rfl, (if_neg nofun).symm⟩

/-- With a listing it is a server that lists the address. -/
theorem finish_of_lists (hsome : ∃ server, w.Lists server) : ∃ server, w.Lists server ∧
    ((w.finish f).1.denies = true ↔ w.setError w.cacheKey = none) ∧
      (w.finish f).2 = w.stores server := by
  obtain ⟨server, hserver⟩ := hsome
  obtain ⟨r, hr, hresult⟩ := (lists_iff server).mp hserver
  obtain ⟨e, he⟩ := Option.ne_none_iff_exists'.mp
    ((hruns.hit_iff named_threads).mpr ⟨server, r, hr, decide_eq_true hresult⟩)
  obtain ⟨server', r', hr', hresult', rfl⟩ := hruns.exists_of_ending named_threads he
  refine ⟨server', (lists_iff server').mpr ⟨r', hr', of_decide_eq_true hresult'⟩, ?_⟩
  rw [← named_threads server' r' hr']
  unfold finish stores
  rw [he]
  cases hset : w.setError w.cacheKey with
  | none => exact ⟨iff_of_true rfl rfl, rfl⟩
  | some err => exact ⟨iff_of_false nofun nofun, rfl⟩

end

/-- Any server that lists the address may be the one that is stored. -/
theorem exists_finish {server : String} (h : w.Lists server) :
    ∃ f, Gathering.Runs Result.server (fun r => r.result = some true) w.threads f ∧
      (w.finish f).2 = w.stores server := by
  obtain ⟨r, hr, hresult⟩ := (lists_iff server).mp h
  obtain ⟨f, hruns, hmem⟩ := Gathering.exists_runs_taking Result.server (fun r => r.result = some true) hr
  refine ⟨f, hruns, ?_⟩
  have hend := (hruns.kept named_threads).hits _ hmem (decide_eq_true hresult)
  rw [← named_threads server r hr]
  unfold finish stores
  rw [hend]
  cases hset : w.setError w.cacheKey with
  | none => rfl
  | some err => rfl

theorem access_of_checked (h : w.Checked) (out : Outcome) : w.Access out ↔
    ∃ f, Gathering.Runs Result.server (fun r => r.result = some true) w.threads f ∧
      out = w.finish f := by
  rw [Access, h.early]

theorem mem_stores {value : String} : (w.cacheKey, "ok") ∈ w.stores value ↔
    w.setError w.cacheKey = none ∧ value = "ok" := by
  unfold stores
  split
  next h => simp [h, eq_comm]
  next h => simp [h]

/-- A request with one server in the list. -/
def oneServer (lookup : Lookup) : World where
  useDnsbl := "yes"
  dnsblList := "bl.example.org"
  ipIsGlobal := true
  remoteAddr := "198.51.100.7"
  serverName := "www.example.com"
  ignoreIp := []
  ipmatcher _ := .ok fun _ => .ok false
  get _ := .ok none
  setError _ := none
  lookup _ := lookup

theorem asked_oneServer (lookup : Lookup) :
    (oneServer lookup).asked = [("bl.example.org", lookup)] := by
  have hwords : gmatchWords "bl.example.org" = ["bl.example.org"] := by decide +kernel
  rw [asked, show (oneServer lookup).dnsblList = "bl.example.org" from rfl, hwords]
  rfl

theorem checked_oneServer (lookup : Lookup) : (oneServer lookup).Checked :=
  ⟨rfl, by show "bl.example.org" ≠ ""; decide, rfl, rfl, rfl⟩

end World

end BunkerWeb.Lua.Dnsbl
