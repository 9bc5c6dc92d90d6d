import BunkerWeb.Cache.Restore
import BunkerWeb.Lib.Parties
import BunkerWeb.VariablesEnv

/-!
# The files of nginx (`Templator.py`)

`render` writes `variables.env`, then the global files, and then those of the servers, which are cut
into batches for a pool of processes.

- **The files of a server** (`renderServer`): each template of the contexts of servers, with the
  global settings, over them those of the server, and the defaults of both for what has no value.
- **The pool** (`Renders`): the batches at the same time, in any order of their steps.
- **The order is of no concern** (`renders_sequential`): the servers come out as they do one
  after the other.
- **Nor are the other servers** (`server_apart`): the files of a server are those that its own
  settings and the global ones ask for.

Jinja is a parameter, with all that the templates read besides their variables. The directory has
been emptied by `main.py`, so that there are no links in it; a file is written in one step.
-/

namespace BunkerWeb

open Lib Lib.Directory Lib.Run VariablesEnv Cache

structure Templator where
  /-- The names of the files `*.conf` of the templates. -/
  globalTemplates : List String
  /-- `list_templates`. -/
  allTemplates : List String
  output : Path
  target : String
  config : Config
  defaultConfig : Config
  fullConfig : Config

namespace Templator

/-- What comes of a template: it is not found, or stops half-way. -/
inductive Rendering
  | missing
  | failed
  | content (text : String)

/-- Jinja: from the directory of the server, the template, its variables, `all`, and what stands for
the undefined ones. -/
abbrev Jinja := Option String → String → Config → Config → Config → Rendering

variable (jinja : Jinja) (T : Templator)

/-! ## The settings of a server -/

def multisite : Bool := (T.config.lookup "MULTISITE").getD "no" = "yes"

/-- `servers` of `render`. -/
def servers : List String :=
  let names := (T.config.lookup "SERVER_NAME").getD "www.example.com"
  if T.multisite then words names else [stripText names]

/-- `is_global_key`, the loop of `extract_server_and_key` over again. -/
def isGlobalKey (servers : List String) (key : String) : Bool :=
  (extractServerAndKey servers key).isNone

/-- `_global_only_config`, and those of the other two configurations. -/
def globalOnly (servers : List String) (c : Config) : Config :=
  Dict.ofItems (c.items.filter fun e => isGlobalKey servers e.1)

/-- `_server_specific_config[server]`. -/
def serverSpecific (servers : List String) (server : String) (c : Config) : Config :=
  (∅ : Config).setAll <| c.items.filterMap fun e =>
    match extractServerAndKey servers e.1 with
    | none => none
    | some (name, key) => if name = server then some (key, e.2) else none

/-- `os.path.join`. -/
def join (path name : String) : String :=
  if name.toList.head? = some '/' then name
  else if path = "" ∨ path.toList.getLast? = some '/' then path ++ name
  else path ++ "/" ++ name

/-- `_get_server_config`. -/
def getServerConfig (target server : String) (globalOnlyConfig serverSpecificConfig : Config) :
    Config :=
  let filtered := globalOnlyConfig.setAll serverSpecificConfig.items
  let filtered := filtered.insert "NGINX_PREFIX" (join target server ++ "/")
  if (filtered.lookup "SERVER_NAME").isSome then filtered
  else filtered.insert "SERVER_NAME" server

/-- One of the three configurations, as a server has it. -/
def serverConfig (server : String) (c : Config) : Config :=
  if T.multisite then
    getServerConfig T.target server (globalOnly T.servers c) (serverSpecific T.servers server c)
  else c

/-! ## The templates -/

def globalContexts : List String := ["global", "http", "stream", "default-server-http"]

def serverContexts : List String :=
  ["modsec", "modsec-crs", "crs-plugins-before", "crs-plugins-after", "server-http",
    "server-stream"]

/-- The category of `_categorize_templates`. -/
def contextOf (template : String) : String :=
  if '/' ∈ template.toList then String.ofList (template.toList.takeWhile (· ≠ '/')) else "global"

/-- `_find_templates`. -/
def findTemplates (allTemplates contexts : List String) : List String :=
  (contexts.flatMap fun context => allTemplates.filter (contextOf · = context)).eraseDups

def basename (path : String) : String := String.ofList (path.toList.rtakeWhile (· ≠ '/'))

/-- The name of the file of a template of a server: a template that ends like a global one goes
without its directories. -/
def fileName (globalTemplates : List String) (template : String) : String :=
  let name :=
    if globalTemplates.any fun root => root.toList.isSuffixOf template.toList then
      basename template
    else ""
  if name = "" then template else name

/-! ## Writing -/

/-- `_render_template`. -/
def renderTemplate (realPath : Path) : Rendering → List (Op String String)
  | .missing => []
  | .failed => [.mkdirs realPath.dropLast]
  | .content text => [.mkdirs realPath.dropLast, .put realPath (.file text)]

/-- `_write_config`. -/
def writeConfigFile : List (Op String String) :=
  [.mkdirs T.output,
    .put (T.output ++ ["variables.env"]) (.file (String.ofList (writeConfig T.fullConfig)))]

/-- `_render_global`. -/
def renderGlobal : List (Op String String) :=
  T.writeConfigFile ++ (findTemplates T.allTemplates globalContexts).flatMap fun template =>
    renderTemplate (joinPath T.output template)
      (jinja none template T.config T.fullConfig T.defaultConfig)

/-- `_render_server`. -/
def renderServer (server : String) : List (Op String String) :=
  let subpath := if T.multisite then some server else none
  (findTemplates T.allTemplates serverContexts).flatMap fun template =>
    renderTemplate
      (joinPath (joinPath T.output (subpath.getD "")) (fileName T.globalTemplates template))
      (jinja subpath template (T.serverConfig server T.config) (T.serverConfig server T.fullConfig)
        (T.serverConfig server T.defaultConfig))

/-! ## The pool -/

/-- `servers[i : i + batch_size]`, for each `i` of the range. -/
def slices {α : Type} (size : Nat) (l : List α) : List (List α) :=
  (List.range ((l.length + size - 1) / size)).map fun i => (l.drop (i * size)).take size

def maxWorkers (effectiveCpus count : Nat) : Nat :=
  let workerTarget :=
    if effectiveCpus * 2 ≤ count then effectiveCpus
    else min effectiveCpus (max 1 ((effectiveCpus * 3 + 3) / 4))
  if min workerTarget count = 0 then 1 else min workerTarget count

def batchSize (effectiveCpus count : Nat) : Nat :=
  let workers := maxWorkers effectiveCpus count
  max 1 ((count + workers - 1) / workers)

/-- What `_render_server_batch` does in each of the processes. -/
def programs (effectiveCpus : Nat) : List (List (Op String String)) :=
  (slices (batchSize effectiveCpus T.servers.length) T.servers).map fun batch =>
    batch.flatMap (T.renderServer jinja)

/-- `render`, up to the order in which the processes get on. -/
def Renders (effectiveCpus : Nat) (t t' : Tree String String) : Prop :=
  Parties.Interleaves Op.step (run Op.step t (T.renderGlobal jinja)) (T.programs jinja effectiveCpus)
    t'

/-- All in one process, one server after the other. -/
def sequential : List (Op String String) :=
  T.renderGlobal jinja ++ T.servers.flatMap (T.renderServer jinja)

/-- The name of an entry below a directory. -/
def Relative (name : String) : Prop := name.toList.head? ≠ some '/' ∧ pathParts name ≠ []

instance (name : String) : Decidable (Relative name) := instDecidableAnd

/-- Each server has a directory of its own, and the files are below the directories. -/
structure Regular : Prop where
  nodup : T.servers.Nodup
  servers : T.multisite = true → ∀ s ∈ T.servers, Relative s ∧ pathParts s = [s]
  globals : ∀ template ∈ findTemplates T.allTemplates globalContexts, Relative template
  files : ∀ template ∈ findTemplates T.allTemplates serverContexts,
    Relative (fileName T.globalTemplates template)

/-- No global file is in the directory of the server. -/
structure Unused (server : String) : Prop where
  config : server ≠ "variables.env"
  globals : ∀ template ∈ findTemplates T.allTemplates globalContexts,
    ¬ T.output ++ [server] <+: joinPath T.output template

variable {jinja T} {t t' : Tree String String}

theorem flatten_slices {α : Type} {size : Nat} (hsize : 0 < size) (l : List α) :
    (slices size l).flatten = l := by
  have htake : ∀ n, ((List.range n).map fun i => (l.drop (i * size)).take size).flatten =
      l.take (n * size) := by
    intro n
    induction n with
    | zero => simp
    | succ n ih =>
      rw [List.range_succ, List.map_append, List.flatten_append, ih, Nat.succ_mul, List.take_add]
      simp
  have hlen : l.length ≤ (l.length + size - 1) / size * size := by
    have hdiv := Nat.div_add_mod (l.length + size - 1) size
    have hmod := Nat.mod_lt (l.length + size - 1) hsize
    rw [Nat.mul_comm]
    omega
  rw [slices, htake, List.take_of_length_le hlen]

theorem flatten_programs (jinja : Jinja) (T : Templator) (effectiveCpus : Nat) :
    (T.programs jinja effectiveCpus).flatten = T.servers.flatMap (T.renderServer jinja) := by
  have hsize : 0 < batchSize effectiveCpus T.servers.length := Nat.le_max_left 1 _
  have hslices := flatten_slices hsize T.servers
  rw [programs, ← List.flatMap_def]
  conv_rhs => rw [← hslices, List.flatten_eq_flatMap, List.flatMap_assoc]
  rfl

/-! ## The order is of no concern -/

theorem below_joinPath {name : String} (h : Relative name) (base : Path) :
    base <+: joinPath base name ∧ joinPath base name ≠ base := by
  rw [joinPath, if_neg h.1]
  refine ⟨List.prefix_append _ _, fun he => h.2 ?_⟩
  simpa using he

theorem joinPath_server (h : T.Regular) (hm : T.multisite = true) {server : String}
    (hs : server ∈ T.servers) : joinPath T.output server = T.output ++ [server] := by
  obtain ⟨hrel, hparts⟩ := h.servers hm server hs
  rw [joinPath, if_neg hrel.1, hparts]

theorem below_renderTemplate {top realPath : Path} {r : Rendering} {op : Op String String}
    (h : top <+: realPath) (hne : realPath ≠ top) (hop : op ∈ renderTemplate realPath r) :
    op.Below top := by
  have hdir : top <+: realPath.dropLast := prefix_dropLast h hne
  cases r with
  | missing => cases hop
  | failed =>
    cases List.mem_singleton.mp hop
    exact hdir
  | content text =>
    rcases List.mem_cons.mp hop with rfl | hop
    · exact hdir
    · cases List.mem_singleton.mp hop
      exact ⟨h, hne⟩

theorem not_about_renderTemplate {top realPath : Path} {r : Rendering} {op : Op String String}
    (h : ¬ top <+: realPath) (hop : op ∈ renderTemplate realPath r) : ¬ op.About top := by
  have hdir : ¬ top <+: realPath.dropLast := fun hle => h (hle.trans (List.dropLast_prefix _))
  cases r with
  | missing => cases hop
  | failed =>
    cases List.mem_singleton.mp hop
    exact hdir
  | content text =>
    rcases List.mem_cons.mp hop with rfl | hop
    · exact hdir
    · cases List.mem_singleton.mp hop
      exact h

/-- A server is about its own directory. -/
theorem below_renderServer (h : T.Regular) (hm : T.multisite = true) {server : String}
    (hs : server ∈ T.servers) {op : Op String String} (hop : op ∈ T.renderServer jinja server) :
    op.Below (T.output ++ [server]) := by
  obtain ⟨template, htemplate, hop⟩ := List.mem_flatMap.mp hop
  have hfile := below_joinPath (h.files template htemplate) (T.output ++ [server])
  rw [if_pos hm, Option.getD_some, joinPath_server h hm hs] at hop
  exact below_renderTemplate hfile.1 hfile.2 hop

theorem not_prefix_server {output : Path} {s s' : String} (hne : s ≠ s') :
    ¬ output ++ [s] <+: output ++ [s'] := by
  rw [List.prefix_append_right_inj]
  exact fun h => hne (List.cons_prefix_cons.mp h).1

theorem independent_servers (h : T.Regular) (hm : T.multisite = true) {s s' : String}
    (hs : s ∈ T.servers) (hs' : s' ∈ T.servers) (hne : s ≠ s') :
    Parties.Independents Op.step Directory.Tree.node (T.renderServer jinja s)
      (T.renderServer jinja s') :=
  fun _ ha _ hb t => Op.step_comm (below_renderServer h hm hs ha) (below_renderServer h hm hs' hb)
    (not_prefix_server hne) (not_prefix_server hne.symm) t

theorem independents_flatMap {l l' : List String}
    (h : ∀ s ∈ l, ∀ s' ∈ l', Parties.Independents Op.step Directory.Tree.node
      (T.renderServer jinja s) (T.renderServer jinja s')) :
    Parties.Independents Op.step Directory.Tree.node (l.flatMap (T.renderServer jinja))
      (l'.flatMap (T.renderServer jinja)) := by
  intro a ha b hb
  obtain ⟨s, hs, ha⟩ := List.mem_flatMap.mp ha
  obtain ⟨s', hs', hb⟩ := List.mem_flatMap.mp hb
  exact h s hs s' hs' a ha b hb

/-- Without several servers there is one batch. -/
theorem servers_of_not_multisite (hm : ¬ T.multisite = true) : ∃ s, T.servers = [s] :=
  ⟨_, if_neg hm⟩

/-- No two processes come in each other's way. -/
theorem independent_programs (h : T.Regular) (effectiveCpus : Nat) :
    (T.programs jinja effectiveCpus).Pairwise
      (Parties.Independents Op.step Directory.Tree.node) := by
  have hflatten := flatten_slices (Nat.le_max_left 1 _ :
    0 < batchSize effectiveCpus T.servers.length) T.servers
  have hnodup := h.nodup
  rw [← hflatten, List.nodup_flatten] at hnodup
  have hmem : ∀ batch ∈ slices (batchSize effectiveCpus T.servers.length) T.servers,
      ∀ s ∈ batch, s ∈ T.servers := fun batch hbatch s hs =>
    hflatten ▸ List.mem_flatten.mpr ⟨batch, hbatch, hs⟩
  rw [programs, List.pairwise_map]
  refine hnodup.2.imp_of_mem fun {l l'} hl hl' hdisjoint => ?_
  refine independents_flatMap fun s hs s' hs' => ?_
  have hne : s ≠ s' := fun he => hdisjoint hs (he ▸ hs')
  by_cases hm : T.multisite = true
  · exact independent_servers h hm (hmem l hl s hs) (hmem l' hl' s' hs') hne
  · obtain ⟨name, hname⟩ := servers_of_not_multisite hm
    have hone := hmem l hl s hs
    have hone' := hmem l' hl' s' hs'
    rw [hname, List.mem_singleton] at hone hone'
    exact absurd (hone.trans hone'.symm) hne

theorem node_rendered (h : T.Regular) {effectiveCpus : Nat}
    (hrender : T.Renders jinja effectiveCpus t t') :
    t'.node = (run Op.step (run Op.step t (T.renderGlobal jinja))
      (T.servers.flatMap (T.renderServer jinja))).node := by
  rw [← flatten_programs jinja T effectiveCpus]
  exact hrender.view_eq (fun _ _ op hnode => Op.step_congr hnode op)
    (independent_programs h effectiveCpus)

/-- **The pool is as good as a loop.** However many processes there are and in whatever order they
get on, the files are those of the servers one after the other. -/
theorem renders_sequential (jinja : Jinja) (T : Templator) (h : T.Regular) (effectiveCpus : Nat)
    (t t' : Tree String String) (hrender : T.Renders jinja effectiveCpus t t') :
    t'.node = (run Op.step t (T.sequential jinja)).node := by
  rw [sequential, run_append]
  exact node_rendered h hrender

/-! ## The other servers are of no concern -/

/-- The entries that a server has: the global ones, and its own without its name. -/
def entriesOf (servers : List String) (server : String) (c : Config) :
    List ((String × String) ⊕ (String × String)) :=
  c.items.filterMap fun e =>
    match extractServerAndKey servers e.1 with
    | none => some (.inl e)
    | some (name, key) => if name = server then some (.inr (key, e.2)) else none

theorem globalOnly_eq (servers : List String) (server : String) (c : Config) :
    globalOnly servers c =
      Dict.ofItems ((entriesOf servers server c).filterMap Sum.getLeft?) := by
  rw [globalOnly, entriesOf, List.filterMap_filterMap, ← List.filterMap_eq_filter]
  congr 2
  funext e
  rw [Option.guard, isGlobalKey]
  cases extractServerAndKey servers e.1 with
  | none => rfl
  | some e' =>
    by_cases hname : e'.1 = server
    · simp [hname]
    · simp [hname]

theorem serverSpecific_eq (servers : List String) (server : String) (c : Config) :
    serverSpecific servers server c =
      (∅ : Config).setAll ((entriesOf servers server c).filterMap Sum.getRight?) := by
  rw [serverSpecific, entriesOf, List.filterMap_filterMap]
  congr 2
  funext e
  cases extractServerAndKey servers e.1 with
  | none => rfl
  | some e' =>
    by_cases hname : e'.1 = server
    · simp [hname]
    · simp [hname]

/-- The two configurations of nginx differ in what other servers have. -/
structure Alike (T T' : Templator) (server : String) : Prop where
  same : T' = { T with
    config := T'.config
    defaultConfig := T'.defaultConfig
    fullConfig := T'.fullConfig }
  multisite : T.multisite = true ∧ T'.multisite = true
  servers : T'.servers = T.servers
  config : entriesOf T.servers server T'.config = entriesOf T.servers server T.config
  defaultConfig :
    entriesOf T.servers server T'.defaultConfig = entriesOf T.servers server T.defaultConfig
  fullConfig : entriesOf T.servers server T'.fullConfig = entriesOf T.servers server T.fullConfig

theorem serverConfig_eq {T' : Templator} {server : String} {c c' : Config}
    (h : Alike T T' server) (hc : entriesOf T.servers server c' = entriesOf T.servers server c) :
    T'.serverConfig server c' = T.serverConfig server c := by
  have htarget : T'.target = T.target := by rw [h.same]
  rw [serverConfig, serverConfig, if_pos h.multisite.1, if_pos h.multisite.2, h.servers, htarget,
    globalOnly_eq _ server c, globalOnly_eq _ server c', serverSpecific_eq, serverSpecific_eq, hc]

theorem renderServer_eq {T' : Templator} {server : String} (h : Alike T T' server) :
    T'.renderServer jinja server = T.renderServer jinja server := by
  have houtput : T'.output = T.output := by rw [h.same]
  have hall : T'.allTemplates = T.allTemplates := by rw [h.same]
  have hglobal : T'.globalTemplates = T.globalTemplates := by rw [h.same]
  rw [renderServer, renderServer, h.multisite.1, h.multisite.2, serverConfig_eq h h.config,
    serverConfig_eq h h.fullConfig, serverConfig_eq h h.defaultConfig, houtput, hall, hglobal]

theorem step_run_local {top : Path} {ops : List (Op String String)}
    (hops : ∀ op ∈ ops, op.Below top)
    (h : ∀ q, q <+: top ∨ top <+: q → t.node q = t'.node q) :
    ∀ q, q <+: top ∨ top <+: q → (run Op.step t ops).node q = (run Op.step t' ops).node q := by
  induction ops generalizing t t' with
  | nil => exact h
  | cons op ops ih =>
    exact ih (fun op' hop' => hops op' (List.mem_cons_of_mem _ hop')) fun q hq =>
      Op.step_local (hops op List.mem_cons_self) h hq

theorem step_run_other {top : Path} {ops : List (Op String String)}
    (hops : ∀ op ∈ ops, ∃ top', op.Below top' ∧ ¬ top' <+: top ∧ ¬ top <+: top') {q : Path}
    (hq : top <+: q) (t : Tree String String) : (run Op.step t ops).node q = t.node q := by
  induction ops generalizing t with
  | nil => rfl
  | cons op ops ih =>
    obtain ⟨top', hop, hne, hne'⟩ := hops op List.mem_cons_self
    calc (run Op.step (Op.step t op) ops).node q
        = (Op.step t op).node q := ih (fun op' hop' => hops op' (List.mem_cons_of_mem _ hop')) _
      _ = t.node q := Op.step_frame hop t (apart_below hne hne' hq)

/-- In the directory of a server nothing is left but what comes of the server. -/
theorem node_servers (h : T.Regular) (hm : T.multisite = true) {server : String}
    (hs : server ∈ T.servers) {q : Path} (hq : T.output ++ [server] <+: q)
    (t : Tree String String) :
    (run Op.step t (T.servers.flatMap (T.renderServer jinja))).node q =
      (run Op.step t (T.renderServer jinja server)).node q := by
  obtain ⟨before, after, hsplit⟩ := List.append_of_mem hs
  have hmem : ∀ s ∈ before ++ after, s ∈ T.servers ∧ s ≠ server := by
    intro s hother
    have hnodup := h.nodup
    rw [hsplit] at hnodup ⊢
    have hnot := (List.nodup_middle.mp hnodup).notMem
    refine ⟨List.perm_middle.symm.subset (List.mem_cons_of_mem _ hother), ?_⟩
    rintro rfl
    exact hnot hother
  have hother : ∀ l : List String, (∀ s ∈ l, s ∈ before ++ after) →
      ∀ op ∈ l.flatMap (T.renderServer jinja), ∃ top', Op.Below top' op ∧
        ¬ top' <+: T.output ++ [server] ∧ ¬ T.output ++ [server] <+: top' := by
    intro l hl op hop
    obtain ⟨s, hs, hop⟩ := List.mem_flatMap.mp hop
    obtain ⟨hs, hne⟩ := hmem s (hl s hs)
    exact ⟨_, below_renderServer h hm hs hop, not_prefix_server hne, not_prefix_server hne.symm⟩
  have hbefore : Parties.Independents Op.step Directory.Tree.node
      (before.flatMap (T.renderServer jinja)) (T.renderServer jinja server) := by
    intro a ha b hb
    obtain ⟨s, hs', ha⟩ := List.mem_flatMap.mp ha
    obtain ⟨hs', hne⟩ := hmem s (List.mem_append_left _ hs')
    exact independent_servers h hm hs' hs hne a ha b hb
  rw [hsplit, List.flatMap_append, List.flatMap_cons, run_append, run_append,
    step_run_other (hother after fun s hs => List.mem_append_right _ hs) hq, ← run_append,
    Parties.view_run_swap (fun _ _ op hnode => Op.step_congr hnode op) hbefore, run_append,
    step_run_other (hother before fun s hs => List.mem_append_left _ hs) hq]

/-- The global files are in the output directory, and not in that of the server. -/
theorem below_renderGlobal (h : T.Regular) {op : Op String String}
    (hop : op ∈ T.renderGlobal jinja) : op.Below T.output := by
  rcases List.mem_append.mp hop with hop | hop
  · rcases List.mem_cons.mp hop with rfl | hop
    · exact List.prefix_refl _
    · cases List.mem_singleton.mp hop
      exact ⟨List.prefix_append _ _, by simp⟩
  · obtain ⟨template, htemplate, hop⟩ := List.mem_flatMap.mp hop
    have hfile := below_joinPath (h.globals template htemplate) T.output
    exact below_renderTemplate hfile.1 hfile.2 hop

theorem not_about_renderGlobal {server : String} (h : T.Unused server) {op : Op String String}
    (hop : op ∈ T.renderGlobal jinja) : ¬ op.About (T.output ++ [server]) := by
  rcases List.mem_append.mp hop with hop | hop
  · rcases List.mem_cons.mp hop with rfl | hop
    · intro hle
      have hlen := hle.length_le
      rw [List.length_append, List.length_singleton] at hlen
      omega
    · cases List.mem_singleton.mp hop
      exact not_prefix_server h.config
  · obtain ⟨template, htemplate, hop⟩ := List.mem_flatMap.mp hop
    have hnot := h.globals template htemplate
    exact not_about_renderTemplate hnot hop

/-- The global files leave the directory of the server, and what is above it, as they find it. -/
theorem node_renderGlobal (h : T.Regular) {server : String} (hunused : T.Unused server) {q : Path}
    (hq : q <+: T.output ++ [server] ∨ T.output ++ [server] <+: q) (t : Tree String String) :
    (run Op.step t (T.renderGlobal jinja)).node q = (Op.step t (.mkdirs T.output)).node q := by
  have hmade : (Op.step t (.mkdirs T.output)).node T.output = some .dir ∨
      ¬ Op.Free (Op.step t (.mkdirs T.output)) T.output := Op.made_mkdirs t T.output
  obtain ⟨ops, hops⟩ : ∃ ops, T.renderGlobal jinja = .mkdirs T.output :: ops := ⟨_, rfl⟩
  have hrest : ∀ op ∈ ops, op.Below T.output ∧ ¬ op.About (T.output ++ [server]) := fun op hop =>
    have hop : op ∈ T.renderGlobal jinja := hops ▸ List.mem_cons_of_mem _ hop
    ⟨below_renderGlobal h hop, not_about_renderGlobal hunused hop⟩
  rw [hops, run_cons]
  clear hops
  generalize Op.step t (.mkdirs T.output) = made at hmade ⊢
  induction ops generalizing made with
  | nil => rfl
  | cons op ops ih =>
    obtain ⟨hbelow, hnot⟩ := hrest op List.mem_cons_self
    rw [run_cons, ih (fun op' hop' => hrest op' (List.mem_cons_of_mem _ hop')) _
      (Op.made_step hbelow hmade)]
    rcases hq with hq | hq
    · rcases List.prefix_concat_iff.mp hq with rfl | hq
      · exact Op.step_not_about hnot (List.prefix_refl _) made
      · exact Op.step_above hbelow hmade hq
    · exact Op.step_not_about hnot hq made

/-- **A server is rendered as if it were alone.** Whatever the other servers are configured to, and
in whatever order the processes get on, the directory of a server comes out the same, if no global
file is in it. -/
theorem server_apart (jinja : Jinja) (T T' : Templator) (server : String) (h : T.Regular)
    (h' : T'.Regular) (halike : Alike T T' server) (hserver : server ∈ T.servers)
    (hunused : T.Unused server) (cpus cpus' : Nat) (t rendered rendered' : Tree String String)
    (hrender : T.Renders jinja cpus t rendered) (hrender' : T'.Renders jinja cpus' t rendered') :
    ∀ q, T.output ++ [server] <+: q → rendered.node q = rendered'.node q := by
  intro q hq
  have hm := halike.multisite
  have hserver' : server ∈ T'.servers := halike.servers ▸ hserver
  have houtput : T'.output = T.output := by rw [halike.same]
  have hunused' : T'.Unused server := by
    rw [halike.same]
    exact ⟨hunused.config, hunused.globals⟩
  have hq' : T'.output ++ [server] <+: q := houtput ▸ hq
  rw [node_rendered h hrender, node_rendered h' hrender', node_servers h hm.1 hserver hq,
    node_servers h' hm.2 hserver' hq', renderServer_eq halike]
  refine step_run_local (fun op hop => below_renderServer h hm.1 hserver hop) (fun q hq => ?_) q
    (.inr hq)
  have hq' : q <+: T'.output ++ [server] ∨ T'.output ++ [server] <+: q := houtput ▸ hq
  rw [node_renderGlobal h hunused hq, node_renderGlobal h' hunused' hq', houtput]

/-! ## Two shops -/

/-- Two servers, of which one has its answers compressed or not. -/
def shops (useGzip : String) : Templator where
  globalTemplates := ["nginx.conf"]
  allTemplates := ["nginx.conf", "http/limits.conf", "server-http/gzip.conf"]
  output := ["etc", "nginx"]
  target := "/etc/nginx"
  config := Dict.ofItems [("MULTISITE", "yes"), ("SERVER_NAME", "shop.example.com blog.example.com"),
    ("blog.example.com_USE_GZIP", useGzip)]
  defaultConfig := Dict.ofItems [("USE_GZIP", "no"), ("blog.example.com_USE_GZIP", "no")]
  fullConfig := Dict.ofItems [("USE_GZIP", "no"), ("blog.example.com_USE_GZIP", useGzip)]

/-- A template that says whether to compress. -/
def gzipTemplate : Jinja := fun _ _ config _ default =>
  .content (((config.lookup "USE_GZIP").or (default.lookup "USE_GZIP")).getD "")

theorem shops_regular {useGzip : String} (h : useGzip = "yes" ∨ useGzip = "no") :
    (shops useGzip).Regular := by
  rcases h with rfl | rfl
  · exact ⟨by decide +kernel, fun _ => by decide +kernel, by decide +kernel, by decide +kernel⟩
  · exact ⟨by decide +kernel, fun _ => by decide +kernel, by decide +kernel, by decide +kernel⟩

/-- The second server is ready before the first one begins. -/
theorem blog_first : ∃ t', (shops "yes").Renders gzipTemplate 2 Tree.root t' ∧
    t'.node = (run Op.step Tree.root ((shops "yes").sequential gzipTemplate)).node := by
  have hslices : slices (batchSize 2 (shops "yes").servers.length) (shops "yes").servers =
      [["shop.example.com"], ["blog.example.com"]] := by decide +kernel
  have hrender : (shops "yes").Renders gzipTemplate 2 Tree.root
      (run Op.step (run Op.step (run Op.step Tree.root ((shops "yes").renderGlobal gzipTemplate))
        (["blog.example.com"].flatMap ((shops "yes").renderServer gzipTemplate)))
        (["shop.example.com"].flatMap ((shops "yes").renderServer gzipTemplate))) := by
    rw [Renders, programs, hslices]
    exact ⟨[[], []], (Parties.moves_program [_] _ [] _).trans (Parties.moves_program [] _ [[]] _),
      by simp⟩
  exact ⟨_, hrender,
    renders_sequential gzipTemplate (shops "yes") (shops_regular (.inl rfl)) 2 Tree.root _ hrender⟩

/-- The settings of the blog are none of the shop's. -/
theorem shop_apart :
    let rendered := fun useGzip => run Op.step
      (run Op.step Tree.root ((shops useGzip).renderGlobal gzipTemplate))
      ((shops useGzip).programs gzipTemplate 2).flatten
    ∀ q, ["etc", "nginx", "shop.example.com"] <+: q →
      (rendered "yes").node q = (rendered "no").node q :=
  server_apart gzipTemplate (shops "yes") (shops "no") "shop.example.com"
    (shops_regular (.inl rfl)) (shops_regular (.inr rfl))
    ⟨rfl, by decide +kernel, by decide +kernel, by decide +kernel, by decide +kernel,
      by decide +kernel⟩
    (by decide +kernel) ⟨by decide, by decide +kernel⟩ 2 2 Tree.root _ _
    (Parties.Interleaves.sequential ..) (Parties.Interleaves.sequential ..)

end Templator

end BunkerWeb
