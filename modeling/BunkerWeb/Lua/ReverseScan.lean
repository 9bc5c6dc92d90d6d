import BunkerWeb.Keys
import BunkerWeb.Lib.Gathering
import BunkerWeb.Lua.Variables

/-!
# Reverse scan (`core/reversescan/reversescan.lua`)

`access` looks each port of `REVERSE_SCAN_PORTS` up in the cache, scans those that are not there in
light threads, and caches the results. The table of the threads has the texts of the ports as its
keys, but a result comes back with the number of its port, and the text of that number is deleted
from the table and names the cached result.

So a port with a zero in front stays in the table, where the next wait may fail over it, and its
result is never found in the cache. `scan_exact_iff` says that nothing else goes wrong.

The expression of the setting is part of `Ports`; the sockets, their timeout and the metrics are left
out.
-/

namespace BunkerWeb.Lua.ReverseScan

open Lib

/-! ## The setting -/

/-- The alternatives of the expression with five places: the digits of each place. -/
def fixedPorts : List (List (Char × Char)) :=
  [[('6', '6'), ('5', '5'), ('5', '5'), ('3', '3'), ('0', '5')],
    [('6', '6'), ('5', '5'), ('5', '5'), ('0', '2'), ('0', '9')],
    [('6', '6'), ('5', '5'), ('0', '4'), ('0', '9'), ('0', '9')],
    [('6', '6'), ('0', '4'), ('0', '9'), ('0', '9'), ('0', '9')],
    [('1', '5'), ('0', '9'), ('0', '9'), ('0', '9'), ('0', '9')]]

def fits (range : Char × Char) (c : Char) : Bool := range.1 ≤ c && c ≤ range.2

/-- A word that one of the alternatives takes, `[0-5]{0,5}` and `[0-9]{1,4}` among them. -/
def isPort (port : String) : Bool :=
  (fixedPorts.any fun ranges => ranges.length = port.length &&
    (ranges.zip port.toList).all fun e => fits e.1 e.2) ||
  (port.length ≤ 5 && port.toList.all (fits ('0', '5'))) ||
  (1 ≤ port.length && port.length ≤ 4 && port.toList.all (fits ('0', '9')))

/-- The values that the expression of the setting takes: ports between spaces, at least one. -/
def Ports :=
  { value : String // gmatchWords value ≠ [] ∧
    value.toList.all (fun c => c = ' ' || fits ('0', '9') c) = true ∧
    (gmatchWords value).all isPort = true }

/-! ## The check -/

/-- What `scan` returns. -/
structure Scan where
  isOpen : Bool
  port : Nat

/-- What `ret` takes: whether the check went well, its message, and whether the request is denied. -/
structure Ret where
  ret : Bool
  msg : String
  denies : Bool := false

/-- A request, and what the check meets. -/
structure World where
  useReverseScan : String
  ports : Ports
  remoteAddr : String
  /-- `cachestore:get`. -/
  get : String → Except String (Option String)
  /-- The error of `cachestore:set`. -/
  setError : String → Option String
  /-- `tcpsock:connect` to a port of the client. -/
  connects : Nat → Bool

/-- What `access` returns, what it wrote to the cache, and the results that it collected, each with
its port. -/
structure Outcome where
  ret : Ret
  stored : List (String × String) := []
  collected : List (String × Scan) := []

namespace World

variable (w : World)

def listed : List String := gmatchWords w.ports.1

def cacheKey (port : String) : String := "plugin_reverse_scan_" ++ (w.remoteAddr ++ ":" ++ port)

def scan (port : Nat) : Scan := ⟨w.connects port, port⟩

def openMessage (port : String) : String := "port " ++ port ++ " is opened for IP " ++ w.remoteAddr

/-- The loop over the ports: the table of the threads, or the answer that ends it. -/
def spawnAll : List String → Dict String Scan → Except Ret (Dict String Scan)
  | [], threads => .ok threads
  | port :: ports, threads =>
    match w.get (w.cacheKey port) with
    | .error err => .error ⟨false, "error getting info from cachestore : " ++ err, false⟩
    | .ok (some cached) =>
      if cached = "open" then .error ⟨true, w.openMessage port, true⟩ else spawnAll ports threads
    | .ok none => spawnAll ports (threads.insert port (w.scan (parseInt port)))

/-- The key that a result deletes from the table of the threads. -/
def resultPort (s : Scan) : String := toString s.port

def resultText (s : Scan) : String := if s.isOpen then "open" else "close"

/-- `results`. -/
def results (taken : List (String × Scan)) : Dict String String :=
  Dict.setAll ∅ (taken.map fun e => (resultPort e.2, resultText e.2))

/-- The loop over the results, which ends with the first error. -/
def storeAll : List (String × String) → Option String × List (String × String)
  | [] => (none, [])
  | e :: items =>
    match w.setError (w.cacheKey e.1) with
    | some err => (some err, [])
    | none => ((storeAll items).1, (w.cacheKey e.1, e.2) :: (storeAll items).2)

/-- What follows the wait, when `pairs` goes through the results in this order. -/
def finish (f : Gathering.Loop String Scan) (items : List (String × String)) : Outcome where
  ret :=
    match (w.storeAll items).1 with
    | some err => ⟨false, "error while adding element to cache : " ++ err, false⟩
    | none =>
      match f.ending with
      | some (.hit s) => ⟨true, w.openMessage (resultPort s), true⟩
      | some .failed => ⟨false, "error while waiting thread : already waited or killed", false⟩
      | none => ⟨true, "no port open for IP " ++ w.remoteAddr, false⟩
  stored := (w.storeAll items).2
  collected := f.taken

/-- `access` may end so, for some order in which the scans end. -/
def Access (out : Outcome) : Prop :=
  if w.useReverseScan ≠ "yes" then out = { ret := ⟨true, "reverse scan not activated", false⟩ }
  else
    match w.spawnAll w.listed ∅ with
    | .error ret => out = { ret := ret }
    | .ok threads => ∃ f items, Gathering.Runs resultPort Scan.isOpen threads f ∧
        items.Perm (results f.taken).items ∧ out = w.finish f items

/-! ## The verdict -/

/-- The cache works. -/
structure NoFailure (w : World) : Prop where
  read : ∀ key, ∃ cached, w.get key = .ok cached
  stored : ∀ key, w.setError key = none

/-- The state of a port: what the cache says, or else a scan. -/
def IsOpen (w : World) (port : String) : Prop :=
  match w.get (w.cacheKey port) with
  | .ok (some cached) => cached = "open"
  | _ => w.connects (parseInt port) = true

/-- No order of the scans keeps the loop going for ever. -/
def Terminates (w : World) : Prop :=
  ∀ threads, w.spawnAll w.listed ∅ = .ok threads →
    Acc (fun l' l => Gathering.Turn resultPort Scan.isOpen l l') (.start threads)

/-- The check ends; the client is denied if and only if some port is open; and the next lookup of a
port whose result was collected finds it. -/
def Exact (w : World) : Prop :=
  w.Terminates ∧ (∃ out, w.Access out) ∧ ∀ out, w.Access out →
    (out.ret.denies = true ↔ ∃ port ∈ w.listed, w.IsOpen port) ∧
      ∀ e ∈ out.collected, Dict.lastOf (w.cacheKey e.1) out.stored = some (resultText e.2)

/-- Some port is open in the cache. -/
def KnownOpen (w : World) : Prop := ∃ port ∈ w.listed, w.get (w.cacheKey port) = .ok (some "open")

variable {w : World}

theorem terminates (w : World) : w.Terminates := fun _ _ => (Gathering.turn_wf _ _).apply _

theorem cacheKey_inj {port port' : String} (h : w.cacheKey port = w.cacheKey port') :
    port = port' :=
  (String.append_right_inj _).mp ((String.append_right_inj _).mp h)

theorem resultPort_scan (port : String) :
    resultPort (w.scan (parseInt port)) = toString (parseInt port) := rfl

section

variable (hok : w.NoFailure)
include hok

theorem spawnAll_of_open {ports : List String} (threads : Dict String Scan)
    (hopen : ∃ port ∈ ports, w.get (w.cacheKey port) = .ok (some "open")) :
    ∃ port ∈ ports, w.spawnAll ports threads = .error ⟨true, w.openMessage port, true⟩ := by
  induction ports generalizing threads with
  | nil =>
    obtain ⟨port, hport, -⟩ := hopen
    cases hport
  | cons port ports ih =>
    have hrest (hne : w.get (w.cacheKey port) ≠ .ok (some "open")) :
        ∃ port ∈ ports, w.get (w.cacheKey port) = .ok (some "open") := by
      obtain ⟨port', hport', hcached⟩ := hopen
      rcases List.mem_cons.mp hport' with rfl | hport'
      · exact absurd hcached hne
      · exact ⟨port', hport', hcached⟩
    obtain ⟨cached, hcached⟩ := hok.read (w.cacheKey port)
    simp only [spawnAll, hcached]
    cases cached with
    | none =>
      obtain ⟨port', hport', heq⟩ := ih _ (hrest (by rw [hcached]; nofun))
      exact ⟨port', List.mem_cons_of_mem _ hport', heq⟩
    | some cached =>
      by_cases hc : cached = "open"
      · exact ⟨port, List.mem_cons_self, if_pos hc⟩
      · obtain ⟨port', hport', heq⟩ := ih threads (hrest (by
          rw [hcached]
          rintro ⟨⟩
          exact hc rfl))
        exact ⟨port', List.mem_cons_of_mem _ hport', (if_neg hc).trans heq⟩

theorem spawnAll_of_not_open {ports : List String} (threads : Dict String Scan)
    (hno : ∀ port ∈ ports, w.get (w.cacheKey port) ≠ .ok (some "open")) :
    ∃ threads', w.spawnAll ports threads = .ok threads' ∧ ∀ port, threads'.lookup port =
      if port ∈ ports ∧ w.get (w.cacheKey port) = .ok none then some (w.scan (parseInt port))
      else threads.lookup port := by
  induction ports generalizing threads with
  | nil => exact ⟨threads, rfl, fun port => (if_neg fun h => List.not_mem_nil h.1).symm⟩
  | cons port ports ih =>
    have hrest := fun p hp => hno p (List.mem_cons_of_mem _ hp)
    obtain ⟨cached, hcached⟩ := hok.read (w.cacheKey port)
    simp only [spawnAll, hcached]
    cases cached with
    | none =>
      obtain ⟨threads', heq, hlookup⟩ := ih (threads.insert port (w.scan (parseInt port)))
        hrest
      refine ⟨threads', heq, fun port' => ?_⟩
      rw [hlookup]
      by_cases hport : port' = port
      · subst hport
        rw [AList.lookup_insert, ite_self, if_pos ⟨List.mem_cons_self, hcached⟩]
      · rw [AList.lookup_insert_ne hport]
        exact if_congr (and_congr_left' (List.mem_cons.trans (or_iff_right hport)).symm) rfl rfl
    | some cached =>
      have hc : cached ≠ "open" := by
        rintro rfl
        exact hno port List.mem_cons_self hcached
      obtain ⟨threads', heq, hlookup⟩ := ih threads hrest
      refine ⟨threads', (if_neg hc).trans heq, fun port' => ?_⟩
      rw [hlookup]
      refine if_congr (and_congr_left fun hnone =>
        (List.mem_cons.trans (or_iff_right ?_)).symm) rfl rfl
      rintro rfl
      rw [hcached] at hnone
      cases hnone

theorem storeAll_eq (items : List (String × String)) :
    w.storeAll items = (none, items.map fun e => (w.cacheKey e.1, e.2)) := by
  induction items with
  | nil => rfl
  | cons e items ih => simp only [storeAll, hok.stored, ih, List.map_cons]

end

/-- The table has a thread for each port that the cache does not know. -/
def Spawned (w : World) (threads : Dict String Scan) : Prop :=
  ∀ port, threads.lookup port =
    if port ∈ w.listed ∧ w.get (w.cacheKey port) = .ok none then some (w.scan (parseInt port))
    else none

/-- Each port that the cache does not know is the text of its number. -/
def Canonical (w : World) : Prop :=
  ∀ port ∈ w.listed, w.get (w.cacheKey port) = .ok none → toString (parseInt port) = port

theorem exists_spawned (hok : w.NoFailure) (hno : ¬ w.KnownOpen) :
    ∃ threads, w.spawnAll w.listed ∅ = .ok threads ∧ w.Spawned threads := by
  obtain ⟨threads, heq, hlookup⟩ := spawnAll_of_not_open hok ∅
    fun port hport hopen => hno ⟨port, hport, hopen⟩
  exact ⟨threads, heq, fun port => by rw [hlookup, AList.lookup_empty]⟩

theorem Spawned.lookup_eq {threads : Dict String Scan} (h : w.Spawned threads) {port : String}
    {s : Scan} (hs : threads.lookup port = some s) :
    port ∈ w.listed ∧ w.get (w.cacheKey port) = .ok none ∧ s = w.scan (parseInt port) := by
  rw [h port] at hs
  obtain ⟨⟨hport, hnone⟩, hs⟩ := Option.ite_none_right_eq_some.mp hs
  exact ⟨hport, hnone, (Option.some.inj hs).symm⟩

theorem Spawned.named {threads : Dict String Scan} (h : w.Spawned threads) (hcanon : w.Canonical) :
    Gathering.Named resultPort threads := by
  intro port s hs
  obtain ⟨hport, hnone, rfl⟩ := h.lookup_eq hs
  exact hcanon port hport hnone

theorem mem_items_results {taken : List (String × Scan)} {e : String × String}
    (he : e ∈ (results taken).items) : ∃ t ∈ taken, e = (resultPort t.2, resultText t.2) := by
  have hmem := Dict.mem_of_lookup_setAll (Dict.mem_items.mp he)
  obtain ⟨t, ht, heq⟩ := List.mem_map.mp hmem
  exact ⟨t, ht, heq.symm⟩

section

variable {threads : Dict String Scan} {f : Gathering.Loop String Scan}
  {items : List (String × String)} (hok : w.NoFailure)
include hok

theorem stored_finish : (w.finish f items).stored = items.map fun e => (w.cacheKey e.1, e.2) := by
  rw [finish, storeAll_eq hok]

/-- A port that is no text of a number has no result in the cache. -/
theorem not_stored (hitems : items.Perm (results f.taken).items) {port : String}
    (hno : ∀ n : Nat, toString n ≠ port) :
    Dict.lastOf (w.cacheKey port) (w.finish f items).stored = none := by
  rw [stored_finish hok, Dict.lastOf_eq_none]
  intro e he heq
  obtain ⟨e', he', rfl⟩ := List.mem_map.mp he
  obtain ⟨t, -, rfl⟩ := mem_items_results (hitems.mem_iff.mp he')
  exact hno t.2.port (cacheKey_inj heq)

variable (hruns : Gathering.Runs resultPort Scan.isOpen threads f)
include hruns

/-- With results that name their threads the cache has each of them. -/
theorem stored_of_named (hitems : items.Perm (results f.taken).items)
    (hnamed : Gathering.Named resultPort threads) :
    ∀ e ∈ f.taken, Dict.lastOf (w.cacheKey e.1) (w.finish f items).stored =
      some (resultText e.2) := by
  have hkept := hruns.kept hnamed
  have hname : ∀ e ∈ f.taken, resultPort e.2 = e.1 := fun e he => hnamed _ _ (hkept.taken e he)
  intro e he
  have hlookup : (results f.taken).lookup e.1 = some (resultText e.2) := by
    rw [results, Dict.lookup_setAll, AList.lookup_empty, Option.or_none]
    refine Dict.lastOf_eq_some (List.mem_map.mpr ⟨e, he, by rw [hname e he]⟩) fun text htext => ?_
    obtain ⟨e', he', heq⟩ := List.mem_map.mp htext
    obtain ⟨hport, rfl⟩ := Prod.mk.injEq .. ▸ heq
    -- the same key is the same thread
    have hsame := hkept.taken e' he'
    rw [← hname e' he', hport, hkept.taken e he] at hsame
    rw [Option.some.inj hsame]
  rw [stored_finish hok]
  refine Dict.lastOf_eq_some (List.mem_map.mpr ⟨(e.1, resultText e.2),
    hitems.mem_iff.mpr (Dict.mem_items.mpr hlookup), rfl⟩) fun text htext => ?_
  obtain ⟨e', he', heq⟩ := List.mem_map.mp htext
  obtain ⟨hport, rfl⟩ := Prod.mk.injEq .. ▸ heq
  have hsame := Dict.mem_items.mp (hitems.mem_iff.mp he')
  rw [cacheKey_inj hport, hlookup] at hsame
  exact (Option.some.inj hsame).symm

theorem denies_of_named (hnamed : Gathering.Named resultPort threads) :
    (w.finish f items).ret.denies = true ↔
      ∃ port s, threads.lookup port = some s ∧ s.isOpen = true := by
  rw [← hruns.hit_iff hnamed]
  show (match (w.storeAll items).1 with | some _ => _ | none => _ : Ret).denies = true ↔ _
  rw [storeAll_eq hok]
  cases hend : f.ending with
  | none => exact ⟨nofun, fun h => absurd rfl h⟩
  | some e =>
    obtain ⟨port, s, -, -, rfl⟩ := hruns.exists_of_ending hnamed hend
    exact iff_of_true rfl nofun

end

theorem access_of_spawned {threads : Dict String Scan} (hused : w.useReverseScan = "yes")
    (hspawn : w.spawnAll w.listed ∅ = .ok threads) (out : Outcome) : w.Access out ↔
      ∃ f items, Gathering.Runs resultPort Scan.isOpen threads f ∧
        items.Perm (results f.taken).items ∧ out = w.finish f items := by
  rw [Access, if_neg (not_not_intro hused), hspawn]

/-- A port that is no text of a number has its result under a key that it is not looked up by. -/
theorem canonical_of_exact (hused : w.useReverseScan = "yes") (hok : w.NoFailure)
    (hexact : w.Exact) (hno : ¬ w.KnownOpen) : w.Canonical := by
  intro port hport hnone
  by_contra hne
  obtain ⟨threads, hspawn, hspawned⟩ := exists_spawned hok hno
  have hthread : threads.lookup port = some (w.scan (parseInt port)) :=
    (hspawned port).trans (if_pos ⟨hport, hnone⟩)
  obtain ⟨f, hruns, hmem⟩ := Gathering.exists_runs_taking resultPort Scan.isOpen hthread
  have hout := (access_of_spawned hused hspawn _).mpr ⟨f, _, hruns, .refl _, rfl⟩
  have hstored := (hexact.2.2 _ hout).2 _ hmem
  have hnot : Dict.lastOf (w.cacheKey port) (w.finish f (results f.taken).items).stored = none :=
    not_stored hok (.refl _) fun n heq => hne (by rw [← heq, parseInt_toString])
  rw [hnot] at hstored
  cases hstored

theorem isOpen_of_unknown {port : String} (h : w.get (w.cacheKey port) = .ok none) :
    w.IsOpen port ↔ w.connects (parseInt port) = true := by
  rw [IsOpen, h]

/-- The check is right if and only if some port is open in the cache, or each port that the cache does
not know is the text of its number. -/
theorem scan_exact_iff (hused : w.useReverseScan = "yes") (hok : w.NoFailure) :
    w.Exact ↔ w.KnownOpen ∨ w.Canonical := by
  refine ⟨fun hexact => or_iff_not_imp_left.mpr (canonical_of_exact hused hok hexact), fun h => ?_⟩
  refine ⟨w.terminates, ?_⟩
  by_cases hknown : w.KnownOpen
  · obtain ⟨port, hport, heq⟩ := spawnAll_of_open hok ∅ hknown
    have haccess : ∀ out, w.Access out ↔ out = { ret := ⟨true, w.openMessage port, true⟩ } := by
      intro out
      rw [Access, if_neg (not_not_intro hused), heq]
    refine ⟨⟨_, (haccess _).mpr rfl⟩, fun out hout => ?_⟩
    rw [(haccess out).mp hout]
    refine ⟨iff_of_true rfl ?_, fun e he => absurd he List.not_mem_nil⟩
    obtain ⟨port, hport, hcached⟩ := hknown
    exact ⟨port, hport, by rw [IsOpen, hcached]⟩
  · have hcanon := h.resolve_left hknown
    obtain ⟨threads, hspawn, hspawned⟩ := exists_spawned hok hknown
    have hnamed := hspawned.named hcanon
    have haccess := access_of_spawned hused hspawn
    obtain ⟨f, hruns⟩ := Gathering.exists_runs resultPort Scan.isOpen threads
    refine ⟨⟨_, (haccess _).mpr ⟨f, _, hruns, .refl _, rfl⟩⟩, fun out hout => ?_⟩
    obtain ⟨f, items, hruns, hitems, rfl⟩ := (haccess out).mp hout
    refine ⟨(denies_of_named hok hruns hnamed).trans ?_, stored_of_named hok hruns hitems hnamed⟩
    constructor
    · rintro ⟨port, s, hs, hopen⟩
      obtain ⟨hport, hnone, rfl⟩ := hspawned.lookup_eq hs
      exact ⟨port, hport, (isOpen_of_unknown hnone).mpr hopen⟩
    · rintro ⟨port, hport, hopen⟩
      obtain ⟨cached, hcached⟩ := hok.read (w.cacheKey port)
      cases cached with
      | none =>
        exact ⟨port, _, (hspawned port).trans (if_pos ⟨hport, hcached⟩),
          (isOpen_of_unknown hcached).mp hopen⟩
      | some cached =>
        rw [IsOpen, hcached] at hopen
        exact absurd ⟨port, hport, by rw [hcached, hopen]⟩ hknown

/-! ## Examples -/

/-- A client with one open port, of which the cache knows nothing. -/
def client (ports : Ports) : World where
  useReverseScan := "yes"
  ports := ports
  remoteAddr := "203.0.113.9"
  get _ := .ok none
  setError _ := none
  connects port := port = 8080

theorem noFailure_client (ports : Ports) : (client ports).NoFailure := ⟨fun _ => ⟨_, rfl⟩, fun _ => rfl⟩

def twoPorts : Ports := ⟨"80 8080", by decide +kernel⟩

def paddedPort : Ports := ⟨"080", by decide +kernel⟩

theorem exact_two_ports : (client twoPorts).Exact := by
  refine (scan_exact_iff rfl (noFailure_client _)).mpr (.inr fun port hport _ => ?_)
  have hcanon : (gmatchWords "80 8080").all (fun port => toString (parseInt port) = port) = true := by
    decide +kernel
  exact of_decide_eq_true (List.all_eq_true.mp hcanon port hport)

/-- The port `080` is not closed in the cache after its scan. -/
theorem padded_port_not_cached : ¬ (client paddedPort).Exact := by
  intro hexact
  have hno : ¬ (client paddedPort).KnownOpen := by
    rintro ⟨port, -, ⟨⟩⟩
  have hlisted : "080" ∈ gmatchWords "080" := by decide +kernel
  have heq := canonical_of_exact rfl (noFailure_client _) hexact hno "080" hlisted rfl
  revert heq
  decide +kernel

end World

end BunkerWeb.Lua.ReverseScan
