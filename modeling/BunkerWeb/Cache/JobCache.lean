import BunkerWeb.Cache.Complete
import BunkerWeb.Lib.Dict
import BunkerWeb.Lib.Run

/-!
# The cache of the jobs (`Job` of `common/utils/jobs.py`)

A job caches a file in its directory and in `Jobs_cache`. It reads the file in its directory first,
and the row only if there is none; at its start it restores the directory from the rows.

- **The operations** (`cacheFile`, `delCache`, `getCache`, `isCachedFile`), over the disk and the
  rows, with the reasons for which they stop half-way.
- **The journal** (`recorded`): for each key what was cached last, and when.
- **The cache and its journal** (`Coherent`): the rows are the journal, and no file under the path of
  a key has anything else. Caching, deleting, restoring and losing the disk keep it
  (`coherent_step`), so that each key reads as its journal says (`reads_journal`).

A link on the way to a path and the part `..` of one are left out, as in `Restore`, and so are the
log and the text of the exceptions.
-/

namespace BunkerWeb.Cache

open Lib Lib.Directory

/-- A row of `Jobs_cache` is found by these; no service has an empty name, which stands for none. -/
structure CacheKey where
  jobName : String
  serviceId : Option String
  fileName : String
  named : serviceId ≠ some ""
  deriving DecidableEq

/-- The rest of the row. -/
structure CacheRow (Data : Type) where
  data : Data
  checksum : String
  lastUpdate : Int

/-- The disk and the database; `jobs` has the plugin of each job. -/
structure Store (Data : Type) where
  tree : Tree String Data
  rows : Dict CacheKey (CacheRow Data)
  jobs : Dict String String

/-- What the operations depend on beside their arguments. -/
structure JobEnv (Data : Type) extends Env Data where
  /-- What is read through a link. -/
  linkedData : Tree String Data → Path → Option Data
  /-- `bytes_hash`. -/
  bytesHash : Data → String

/-- What is to be cached: some bytes, or what is in a file. -/
inductive Source (Data : Type)
  | bytes (data : Data)
  | path (path : Path)

inductive Expire
  | hour
  | day
  | week
  | month
  deriving DecidableEq

/-- `EXPIRE_TIME`. -/
def Expire.seconds : Expire → Int
  | .hour => 3600
  | .day => 24 * 3600
  | .week => 7 * 24 * 3600
  | .month => 30 * 24 * 3600

/-- What `cache_file` comes to. -/
inductive Outcome
  | raised
  | failed (err : String)
  | cached
  deriving DecidableEq

section

variable {Data : Type}

/-- `service_id or None`. -/
def cacheKey (jobName serviceId fileName : String) : CacheKey where
  jobName := jobName
  serviceId := if serviceId = "" then none else some serviceId
  fileName := fileName
  named := by split <;> simp_all

/-- `self.job_path.joinpath(service_id, name)` in the directory of a plugin. -/
def CacheKey.path (k : CacheKey) (pluginId : String) : Path :=
  joinPath (joinPath (pluginPath pluginId) (k.serviceId.getD "")) k.fileName

/-- `path.read_bytes()`. -/
def readBytes (env : JobEnv Data) (t : Tree String Data) (path : Path) : Option Data :=
  match t.node path with
  | some (.file data) => some data
  | some (.link _) => env.linkedData t path
  | _ => none

/-! ## The database -/

/-- `upsert_job_cache`: a row with this checksum only gets the time. -/
def upsertJobCache (rows : Dict CacheKey (CacheRow Data)) (k : CacheKey) (data : Data)
    (checksum : String) (now : Int) : Dict CacheKey (CacheRow Data) :=
  match rows.lookup k with
  | none => rows.insert k ⟨data, checksum, now⟩
  | some row =>
    if row.checksum ≠ checksum then rows.insert k ⟨data, checksum, now⟩
    else rows.insert k { row with lastUpdate := now }

/-- `get_job_cache_file`, of a job of the plugin. -/
def getJobCacheFile (s : Store Data) (pluginId : String) (k : CacheKey) : Option (CacheRow Data) :=
  if s.jobs.lookup k.jobName = some pluginId then s.rows.lookup k else none

/-- `get_jobs_cache_files`, of the jobs of a plugin. -/
def getJobsCacheFiles (s : Store Data) (pluginId : String) : List (Row Data) :=
  (s.rows.items.filter fun e => s.jobs.lookup e.1.jobName = some pluginId).map fun e =>
    ⟨e.1.jobName, pluginId, e.1.serviceId, e.1.fileName, e.2.data⟩

/-! ## `Job` -/

/-- `name.startswith("folder:")`. -/
def isFolder (fileName : String) : Bool := folder.isPrefixOf fileName.toList

/-- What the source has. -/
def contentOf (env : JobEnv Data) (t : Tree String Data) : Source Data → Option Data
  | .bytes data => some data
  | .path path => readBytes env t path

/-- The checksum that is given, or that of the content. -/
def checksumOf (env : JobEnv Data) (checksum : Option String) (data : Data) : String :=
  (checksum.filter (· ≠ "")).getD (env.bytesHash data)

/-- `cache_file`; the database answers with `dbError`, and without one it has the row. -/
def cacheFile (env : JobEnv Data) (s : Store Data) (pluginId : String) (k : CacheKey)
    (source : Source Data) (checksum : Option String) (deleteFile overwriteFile : Bool) (now : Int)
    (dbError : Option String) : Outcome × Store Data :=
  let cachePath := k.path pluginId
  match contentOf env s.tree source with
  | none => (.raised, s)
  | some data =>
    let written :=
      if !isFolder k.fileName && (overwriteFile || !isFile env.toEnv s.tree cachePath) then
        s.tree.writeFile cachePath data
      else some s.tree
    match written with
    | none => (.raised, s)
    | some tree =>
      match dbError with
      | some err => (.failed err, { s with tree })
      | none =>
        let tree := match source with
          | .bytes _ => tree
          | .path path => if deleteFile && path ≠ cachePath then tree.unlink path else tree
        (.cached,
          { s with
            tree
            rows := upsertJobCache s.rows k data (checksumOf env checksum data) now })

/-- `del_cache`; that the database has not deleted the row does not show. -/
def delCache (env : JobEnv Data) (s : Store Data) (pluginId : String) (k : CacheKey)
    (dbError : Option String) : Store Data :=
  let cachePath := k.path pluginId
  let jobPath := joinPath (pluginPath pluginId) (k.serviceId.getD "")
  let tree := if isFile env.toEnv s.tree cachePath then s.tree.unlink cachePath else s.tree
  let tree := if Node.isDir (tree.node jobPath) && tree.isEmpty jobPath then tree.removeTree jobPath
    else tree
  { s with tree, rows := if dbError.isSome then s.rows else s.rows.erase k }

/-- `get_cache`, of the data. -/
def getCache (env : JobEnv Data) (s : Store Data) (pluginId : String) (k : CacheKey) : Option Data :=
  if isFile env.toEnv s.tree (k.path pluginId) then readBytes env s.tree (k.path pluginId)
  else (getJobCacheFile s pluginId k).map CacheRow.data

/-- `is_cached_file`, which asks for the information alone and so never for the file. -/
def isCachedFile (s : Store Data) (pluginId : String) (k : CacheKey) (expire : Expire) (now : Int) :
    Bool :=
  match getJobCacheFile s pluginId k with
  | none => false
  | some row =>
    -- A time that is 0 is taken for none.
    if row.lastUpdate = 0 ∨ now < row.lastUpdate then false
    else now - row.lastUpdate < expire.seconds

/-! ## Runs -/

inductive Event (Data : Type)
  | cache (pluginId : String) (k : CacheKey) (source : Source Data) (checksum : Option String)
      (deleteFile overwriteFile : Bool) (now : Int) (dbError : Option String)
  | delete (pluginId : String) (k : CacheKey) (dbError : Option String)
  /-- A job starts, or restores its cache by hand. -/
  | restore (pluginId jobName : String) (manual : Bool)
  /-- The directories of the jobs are lost. -/
  | loss

def step (env : JobEnv Data) (s : Store Data) : Event Data → Store Data
  | .cache pluginId k source checksum deleteFile overwriteFile now dbError =>
    (cacheFile env s pluginId k source checksum deleteFile overwriteFile now dbError).2
  | .delete pluginId k dbError => delCache env s pluginId k dbError
  | .restore pluginId jobName manual =>
    { s with
      tree := (restoreCache env.toEnv (pluginPath pluginId) jobName manual
        (getJobsCacheFiles s pluginId) s.tree).2 }
  | .loss => { s with tree := Tree.root }

/-- What was cached last under each key, and when. -/
abbrev Journal (Data : Type) := CacheKey → Option (Data × Int)

/-- The journal after an event: what was cached with success, and what was deleted. -/
def recorded (env : JobEnv Data) (s : Store Data) (journal : Journal Data) :
    Event Data → Journal Data
  | .cache pluginId k source checksum deleteFile overwriteFile now dbError =>
    if (cacheFile env s pluginId k source checksum deleteFile overwriteFile now dbError).1 = .cached
    then Function.update journal k ((contentOf env s.tree source).map fun data => (data, now))
    else journal
  | .delete _ k dbError => if dbError.isSome then journal else Function.update journal k none
  | _ => journal

/-- The store with its journal. -/
def stepBoth (env : JobEnv Data) (st : Store Data × Journal Data) (event : Event Data) :
    Store Data × Journal Data :=
  (step env st.1 event, recorded env st.1 st.2 event)

/-! ## The cache and its journal -/

/-- No two keys share a path. -/
def Apart (jobs : Dict String String) (keys : Set CacheKey) : Prop :=
  ∀ k ∈ keys, ∀ k' ∈ keys, ∀ p p', jobs.lookup k.jobName = some p →
    jobs.lookup k'.jobName = some p' → k.path p = k'.path p' → k = k'

/-- The rows are what the journal says, and no file under the path of a key has anything else. -/
structure Coherent (keys : Set CacheKey) (st : Store Data × Journal Data) : Prop where
  apart : Apart st.1.jobs keys
  known : ∀ k row, st.1.rows.lookup k = some row → k ∈ keys
  rows : ∀ k ∈ keys, (st.1.rows.lookup k).map (fun row => (row.data, row.lastUpdate)) = st.2 k
  files : ∀ k ∈ keys, ∀ p, st.1.jobs.lookup k.jobName = some p → ∀ n,
    st.1.tree.node (k.path p) = some n →
      n = .dir ∨ ∃ data at', n = .file data ∧ st.2 k = some (data, at')

/-- What is asked of an event: a job caches and deletes what is its own; the database takes what is
cached; a checksum that is there already is that of the same content; a file that is not written
over has it too; and no archive that is restored has a file under the path of a key. -/
def Honest (env : JobEnv Data) (keys : Set CacheKey) (st : Store Data × Journal Data) :
    Event Data → Prop
  | .cache pluginId k source checksum _ overwriteFile _ dbError =>
    k ∈ keys ∧ st.1.jobs.lookup k.jobName = some pluginId ∧ dbError = none ∧
      ∀ data ∈ contentOf env st.1.tree source,
        (∀ row ∈ st.1.rows.lookup k, row.checksum = checksumOf env checksum data → row.data = data) ∧
        (isFolder k.fileName = true ∨ overwriteFile = false → ∀ data',
          st.1.tree.node (k.path pluginId) = some (.file data') → data' = data)
  | .delete pluginId k _ => st.1.jobs.lookup k.jobName = some pluginId
  | .restore pluginId jobName _ =>
    ∀ r ∈ getJobsCacheFiles st.1 pluginId, r.isArchive = true → r.jobName = jobName →
      ∀ k ∈ keys, ∀ p, st.1.jobs.lookup k.jobName = some p → ∀ n,
        r.holds env.toEnv (pluginPath pluginId) (k.path p) = some n → n = .dir
  | .loss => True

variable {env : JobEnv Data} {keys : Set CacheKey} {s : Store Data} {journal : Journal Data}
  {t t' : Tree String Data} {q : Path} {n : Node Data} {k : CacheKey}

/-- Of the fields of a row the data and the time are journalled. -/
theorem lookup_upsertJobCache (rows : Dict CacheKey (CacheRow Data)) {data : Data}
    {checksum : String} (now : Int)
    (h : ∀ row ∈ rows.lookup k, row.checksum = checksum → row.data = data) (k' : CacheKey) :
    ((upsertJobCache rows k data checksum now).lookup k').map
        (fun row => (row.data, row.lastUpdate)) =
      if k' = k then some (data, now)
      else (rows.lookup k').map fun row => (row.data, row.lastUpdate) := by
  have hinsert : ∀ row : CacheRow Data, row.data = data → row.lastUpdate = now →
      ((rows.insert k row).lookup k').map (fun row => (row.data, row.lastUpdate)) =
        if k' = k then some (data, now)
        else (rows.lookup k').map fun row => (row.data, row.lastUpdate) := by
    intro row hdata hnow
    by_cases hk : k' = k
    · rw [hk, AList.lookup_insert, if_pos rfl, Option.map_some, hdata, hnow]
    · rw [AList.lookup_insert_ne hk, if_neg hk]
  unfold upsertJobCache
  cases hrow : rows.lookup k with
  | none => exact hinsert _ rfl rfl
  | some row =>
    dsimp only
    split
    · exact hinsert _ rfl rfl
    next hsame => exact hinsert _ (h row hrow (not_not.mp hsame)) rfl

theorem mem_upsertJobCache {rows : Dict CacheKey (CacheRow Data)} {data : Data} {checksum : String}
    {now : Int} {k' : CacheKey} {row : CacheRow Data}
    (h : (upsertJobCache rows k data checksum now).lookup k' = some row) :
    k' = k ∨ ∃ row', rows.lookup k' = some row' := by
  by_cases hk : k' = k
  · exact .inl hk
  · refine .inr ⟨row, ?_⟩
    unfold upsertJobCache at h
    split at h
    · rwa [AList.lookup_insert_ne hk] at h
    · split at h
      · rwa [AList.lookup_insert_ne hk] at h
      · rwa [AList.lookup_insert_ne hk] at h

/-- What `unlink` and `rmtree` leave was there. -/
theorem node_of_unlink {path : Path} (h : (t.unlink path).node q = some n) : t.node q = some n := by
  rw [Tree.node_unlink] at h
  split at h
  · cases h
  · exact h

theorem node_of_removeTree {path : Path} (h : (t.removeTree path).node q = some n) :
    t.node q = some n := by
  rw [Tree.node_removeTree] at h
  split at h
  · cases h
  · exact h

/-! ## Caching and deleting -/

/-- A caching that the database takes stops before it has done anything, or does all of it. -/
theorem cacheFile_cases (env : JobEnv Data) (s : Store Data) (pluginId : String) (k : CacheKey)
    (source : Source Data) (checksum : Option String) (deleteFile overwriteFile : Bool) (now : Int) :
    cacheFile env s pluginId k source checksum deleteFile overwriteFile now none = (.raised, s) ∨
      ∃ data written tree, contentOf env s.tree source = some data ∧
        (s.tree.writeFile (k.path pluginId) data = some written ∨
          written = s.tree ∧ (isFolder k.fileName = true ∨ overwriteFile = false)) ∧
        (∀ q n, tree.node q = some n → written.node q = some n) ∧
        cacheFile env s pluginId k source checksum deleteFile overwriteFile now none =
          (.cached,
            { s with
              tree
              rows := upsertJobCache s.rows k data (checksumOf env checksum data) now }) := by
  unfold cacheFile
  cases hcontent : contentOf env s.tree source with
  | none => exact .inl rfl
  | some data =>
    dsimp only
    cases hwritten : (if !isFolder k.fileName &&
        (overwriteFile || !isFile env.toEnv s.tree (k.path pluginId)) then
          s.tree.writeFile (k.path pluginId) data else some s.tree) with
    | none => exact .inl rfl
    | some written =>
      refine .inr ⟨data, written, _, rfl, ?_, ?_, rfl⟩
      · split at hwritten
        · exact .inl hwritten
        next hnot =>
          refine .inr ⟨(Option.some.inj hwritten).symm, ?_⟩
          cases hfolder : isFolder k.fileName with
          | true => exact .inl rfl
          | false =>
            rw [hfolder, Bool.not_false, Bool.true_and, Bool.or_eq_true, not_or] at hnot
            exact .inr (Bool.not_eq_true _ ▸ hnot.1)
      · intro q n hn
        cases source with
        | bytes _ => exact hn
        | path path =>
          dsimp only at hn
          split at hn
          · exact node_of_unlink hn
          · exact hn

theorem coherent_cache {pluginId : String} {source : Source Data} {checksum : Option String}
    {deleteFile overwriteFile : Bool} {now : Int} {dbError : Option String}
    (h : Coherent keys (s, journal))
    (hok : Honest env keys (s, journal)
      (.cache pluginId k source checksum deleteFile overwriteFile now dbError)) :
    Coherent keys (stepBoth env (s, journal)
      (.cache pluginId k source checksum deleteFile overwriteFile now dbError)) := by
  obtain ⟨hk, hplugin, rfl, hcontent⟩ := hok
  rcases cacheFile_cases env s pluginId k source checksum deleteFile overwriteFile now with
    he | ⟨data, written, tree, hdata, hwritten, hsub, he⟩
  · have hnot : Outcome.raised ≠ .cached := by decide
    simp only [stepBoth, step, recorded, he, hnot, if_false]
    exact h
  · obtain ⟨hsame, hkept⟩ := hcontent data hdata
    simp only [stepBoth, step, recorded, he, if_true, hdata, Option.map_some]
    refine ⟨h.apart, fun k' row hrow => ?_, fun k' hk' => ?_, fun k' hk' p hp n hn => ?_⟩
    · rcases mem_upsertJobCache hrow with rfl | ⟨row', hrow'⟩
      · exact hk
      · exact h.known k' row' hrow'
    · dsimp only
      rw [lookup_upsertJobCache s.rows now hsame]
      by_cases he : k' = k
      · rw [if_pos he, he, Function.update_self]
      · rw [if_neg he, Function.update_of_ne he]
        exact h.rows k' hk'
    · have hleft : written.node (k'.path p) = some n := hsub _ _ hn
      dsimp only
      by_cases he : k' = k
      · subst he
        obtain rfl : p = pluginId := Option.some.inj (hp.symm.trans hplugin)
        rw [Function.update_self]
        rcases hwritten with hwrite | ⟨rfl, hkeep⟩
        · rw [Tree.node_writeFile hwrite, if_pos rfl] at hleft
          exact .inr ⟨data, now, (Option.some.inj hleft).symm, rfl⟩
        · rcases h.files k' hk' p hp n hleft with hdir | ⟨data', _, rfl, -⟩
          · exact .inl hdir
          · exact .inr ⟨data, now, by rw [hkept hkeep data' hleft], rfl⟩
      · rw [Function.update_of_ne he]
        rcases hwritten with hwrite | ⟨rfl, -⟩
        · rw [Tree.node_writeFile hwrite,
            if_neg fun hpath => he (h.apart k' hk' k hk p pluginId hp hplugin hpath)] at hleft
          split at hleft
          · exact .inl (Option.some.inj hleft).symm
          · exact h.files k' hk' p hp n hleft
        · exact h.files k' hk' p hp n hleft

/-- The file of the key is unlinked, and perhaps a directory removed. -/
theorem tree_delCache (env : JobEnv Data) (s : Store Data) (pluginId : String) (k : CacheKey)
    (dbError : Option String) :
    let unlinked := if isFile env.toEnv s.tree (k.path pluginId) then
      s.tree.unlink (k.path pluginId) else s.tree
    (delCache env s pluginId k dbError).tree = unlinked ∨
      ∃ path, (delCache env s pluginId k dbError).tree = unlinked.removeTree path := by
  intro unlinked
  by_cases hempty : (Node.isDir (unlinked.node (joinPath (pluginPath pluginId)
      (k.serviceId.getD ""))) && unlinked.isEmpty (joinPath (pluginPath pluginId)
        (k.serviceId.getD ""))) = true
  · exact .inr ⟨_, if_pos hempty⟩
  · exact .inl (if_neg hempty)

theorem node_delCache {pluginId : String} {dbError : Option String}
    (hn : (delCache env s pluginId k dbError).tree.node q = some n) :
    (if isFile env.toEnv s.tree (k.path pluginId) then s.tree.unlink (k.path pluginId)
      else s.tree).node q = some n := by
  rcases tree_delCache env s pluginId k dbError with he | ⟨path, he⟩
  · rwa [he] at hn
  · rw [he] at hn
    exact node_of_removeTree hn

/-- Nothing is new. -/
theorem node_of_delCache {pluginId : String} {dbError : Option String}
    (hn : (delCache env s pluginId k dbError).tree.node q = some n) : s.tree.node q = some n := by
  have hn := node_delCache hn
  split at hn
  · exact node_of_unlink hn
  · exact hn

theorem not_file_delCache {pluginId : String} {dbError : Option String} {data : Data} :
    (delCache env s pluginId k dbError).tree.node (k.path pluginId) ≠ some (.file data) := by
  intro hn
  have hbefore := node_of_delCache hn
  have hfile : isFile env.toEnv s.tree (k.path pluginId) = true := by rw [isFile, hbefore]
  have hnow := node_delCache hn
  rw [if_pos hfile, Tree.node_unlink,
    if_pos ⟨rfl, by rw [hbefore]; exact Bool.false_ne_true⟩] at hnow
  cases hnow

theorem coherent_delete {pluginId : String} {dbError : Option String}
    (h : Coherent keys (s, journal)) (hplugin : s.jobs.lookup k.jobName = some pluginId) :
    Coherent keys (stepBoth env (s, journal) (.delete pluginId k dbError)) := by
  have hfiles := fun k' hk' p hp n hn => h.files k' hk' p hp n
    (@node_of_delCache Data env s _ n k pluginId dbError hn)
  cases hdb : dbError with
  | some err =>
    rw [hdb] at hfiles
    exact ⟨h.apart, h.known, h.rows, hfiles⟩
  | none =>
    rw [hdb] at hfiles
    refine ⟨h.apart, fun k' row hrow => ?_, fun k' hk' => ?_, fun k' hk' p hp n hn => ?_⟩
    · have hrow : (s.rows.erase k).lookup k' = some row := hrow
      by_cases he : k' = k
      · rw [he, AList.lookup_erase] at hrow
        cases hrow
      · rw [AList.lookup_erase_ne he] at hrow
        exact h.known k' row hrow
    · show ((s.rows.erase k).lookup k').map _ = Function.update journal k none k'
      by_cases he : k' = k
      · rw [he, AList.lookup_erase, Function.update_self]
        rfl
      · rw [AList.lookup_erase_ne he, Function.update_of_ne he]
        exact h.rows k' hk'
    · show n = .dir ∨ ∃ data at', n = .file data ∧ Function.update journal k none k' = _
      by_cases he : k' = k
      · subst he
        obtain rfl : p = pluginId := Option.some.inj (hp.symm.trans hplugin)
        rcases hfiles k' hk' p hp n hn with hdir | ⟨data, _, rfl, -⟩
        · exact .inl hdir
        · exact absurd hn not_file_delCache
      · rw [Function.update_of_ne he]
        exact hfiles k' hk' p hp n hn

/-! ## Restoring -/

/-- What a restored row leaves was there, or is a directory, or is what the row has. -/
theorem node_restoreRow {jobPath : Path} {jobName : String} {st : Restoring Data} {r : Row Data}
    (hn : (restoreRow env.toEnv jobPath jobName st r).tree.node q = some n) :
    st.tree.node q = some n ∨ n = .dir ∨
      r.jobName = jobName ∧ r.holds env.toEnv jobPath q = some n := by
  unfold restoreRow at hn
  split at hn
  next harchive =>
    dsimp only at hn
    split at hn
    · exact .inl hn
    next hjob =>
      have hjob := not_not.mp hjob
      unfold restoreArchive at hn
      dsimp only at hn
      split at hn
      · exact .inl (node_of_removeTree hn)
      next made hmade =>
        have hmadeNode := Tree.node_mkdirs hmade
        have hdir : made.node (r.extractPath jobPath) = some .dir := by
          rw [hmadeNode, if_pos (List.prefix_refl _)]
        dsimp only at hn
        rw [Tree.node_graft hdir] at hn
        split at hn
        next hbelow =>
          refine .inr (.inr ⟨hjob, ?_⟩)
          rw [Row.holds, if_pos harchive, if_pos hbelow.1, archived, if_neg hbelow.2]
          exact hn
        next =>
          rw [hmadeNode] at hn
          split at hn
          · exact .inr (.inl (Option.some.inj hn).symm)
          · exact .inl (node_of_removeTree hn)
  next harchive =>
    split at hn
    · exact .inl hn
    next hjob =>
      split at hn
      · exact .inl hn
      next tree hwrite =>
        dsimp only at hn
        rw [Tree.node_writeFile hwrite] at hn
        split at hn
        next hq =>
          refine .inr (.inr ⟨not_not.mp hjob, ?_⟩)
          rw [Row.holds, if_neg harchive, if_pos hq]
          exact hn
        next =>
          split at hn
          · exact .inr (.inl (Option.some.inj hn).symm)
          · exact .inl hn

theorem node_restoreRows {jobPath : Path} {jobName : String} {rows : List (Row Data)}
    (hn : (restoreRows env.toEnv jobPath jobName t rows).tree.node q = some n) :
    t.node q = some n ∨ n = .dir ∨
      ∃ r ∈ rows, r.jobName = jobName ∧ r.holds env.toEnv jobPath q = some n := by
  induction rows using List.reverseRecOn with
  | nil => exact .inl hn
  | append_singleton rows r ih =>
    have hsplit : restoreRows env.toEnv jobPath jobName t (rows ++ [r]) =
        restoreRow env.toEnv jobPath jobName (restoreRows env.toEnv jobPath jobName t rows) r :=
      List.foldl_concat ..
    rw [hsplit] at hn
    rcases node_restoreRow hn with hn | hdir | ⟨hjob, hholds⟩
    · rcases ih hn with ht | hdir | ⟨r', hr', hjob, hholds⟩
      · exact .inl ht
      · exact .inr (.inl hdir)
      · exact .inr (.inr ⟨r', List.mem_append_left _ hr', hjob, hholds⟩)
    · exact .inr (.inl hdir)
    · exact .inr (.inr ⟨r, by simp, hjob, hholds⟩)

/-- The clean-up adds nothing. -/
theorem node_restoreCache {jobPath : Path} {jobName : String} {manual : Bool}
    {rows : List (Row Data)}
    (hn : (restoreCache env.toEnv jobPath jobName manual rows t).2.node q = some n) :
    t.node q = some n ∨ n = .dir ∨
      ∃ r ∈ rows, r.jobName = jobName ∧ r.holds env.toEnv jobPath q = some n := by
  unfold restoreCache at hn
  dsimp only at hn
  split at hn
  · exact node_restoreRows ((swept_sweep q n).1 hn)
  · exact node_restoreRows hn

theorem coherent_restore {pluginId jobName : String} {manual : Bool}
    (h : Coherent keys (s, journal))
    (hok : Honest env keys (s, journal) (.restore pluginId jobName manual)) :
    Coherent keys (stepBoth env (s, journal) (.restore pluginId jobName manual)) := by
  refine ⟨h.apart, h.known, h.rows, fun k hk p hp n hn => ?_⟩
  rcases node_restoreCache hn with hn | hdir | ⟨r, hr, hjob, hholds⟩
  · exact h.files k hk p hp n hn
  · exact .inl hdir
  · by_cases harchive : r.isArchive = true
    · exact .inl (hok r hr harchive hjob k hk p hp n hholds)
    · -- The row is that of a key with this path, and so of this key.
      obtain ⟨⟨k', row⟩, he, rfl⟩ := List.mem_map.mp hr
      obtain ⟨hitem, hplugin⟩ := List.mem_filter.mp he
      have hrow := Dict.mem_items.mp hitem
      rw [Row.holds, if_neg harchive] at hholds
      split at hholds
      next hpath =>
        obtain rfl := h.apart k hk k' (h.known k' row hrow) p pluginId hp
          (of_decide_eq_true hplugin) hpath
        have hjournal := h.rows k hk
        rw [hrow, Option.map_some] at hjournal
        exact .inr ⟨row.data, row.lastUpdate, (Option.some.inj hholds).symm, hjournal.symm⟩
      next => cases hholds

/-! ## Runs -/

theorem coherent_step (st : Store Data × Journal Data) (event : Event Data)
    (h : Coherent keys st) (hok : Honest env keys st event) :
    Coherent keys (stepBoth env st event) := by
  obtain ⟨s, journal⟩ := st
  cases event with
  | cache => exact coherent_cache h hok
  | delete => exact coherent_delete h hok
  | restore => exact coherent_restore h hok
  | loss =>
    refine ⟨h.apart, h.known, h.rows, fun k hk p hp n hn => ?_⟩
    have hn : (if (k.path p).isEmpty then some Node.dir else none) = some n := hn
    split at hn
    · exact .inl (Option.some.inj hn).symm
    · cases hn

/-- In a coherent cache each key reads as its journal says. -/
theorem Coherent.reads {st : Store Data × Journal Data} (h : Coherent keys st) (hk : k ∈ keys)
    {pluginId : String} (hplugin : st.1.jobs.lookup k.jobName = some pluginId) :
    getCache env st.1 pluginId k = (st.2 k).map Prod.fst ∧
      ∀ expire now, isCachedFile st.1 pluginId k expire now =
        (st.2 k).any fun e => e.2 ≠ 0 ∧ e.2 ≤ now ∧ now - e.2 < expire.seconds := by
  have hrow := h.rows k hk
  have hfile : getJobCacheFile st.1 pluginId k = st.1.rows.lookup k := if_pos hplugin
  constructor
  · unfold getCache
    split
    next hisFile =>
      cases hnode : st.1.tree.node (k.path pluginId) with
      | none => simp [isFile, hnode] at hisFile
      | some n =>
        rcases h.files k hk pluginId hplugin n hnode with rfl | ⟨data, at', rfl, hjournal⟩
        · simp [isFile, hnode] at hisFile
        · rw [readBytes, hnode, hjournal]
          rfl
    · rw [hfile, ← hrow, Option.map_map]
      rfl
  · intro expire now
    rw [isCachedFile, hfile, ← hrow]
    cases st.1.rows.lookup k with
    | none => rfl
    | some row =>
      dsimp only [Option.map_some, Option.any_some]
      split
      next hstale => exact (decide_eq_false fun hfresh => by omega).symm
      next hnot => exact decide_eq_decide.mpr (by omega)

end

/-! ## A disk that is lost -/

def listKey : CacheKey := ⟨"download", none, "ip.list", by decide⟩

def certKey : CacheKey := ⟨"renew", some "app.example.com", "cert.pem", by decide⟩

def textEnv : JobEnv Content :=
  { filesEnv with
    linkedData := fun _ _ => none
    bytesHash := fun data => match data with
      | .text text => text
      | .archive _ => "" }

def freshStore : Store Content :=
  ⟨Tree.root, ∅, Dict.ofItems [("download", "geo"), ("renew", "letsencrypt")]⟩

/-- Both are cached, the disk is lost, and one of the jobs starts. -/
def lossEvents : List (Event Content) :=
  [.cache "geo" listKey (.bytes (.text "192.0.2.7")) none true true 100 none,
    .cache "letsencrypt" certKey (.bytes (.text "PEM")) none true true 200 none,
    .loss,
    .restore "geo" "download" false]

theorem coherent_fresh : Coherent {listKey, certKey} (freshStore, fun _ => none) where
  apart := by
    have hgeo : freshStore.jobs.lookup listKey.jobName = some "geo" := by decide +kernel
    have hcert : freshStore.jobs.lookup certKey.jobName = some "letsencrypt" := by decide +kernel
    have hne : listKey.path "geo" ≠ certKey.path "letsencrypt" := by decide +kernel
    rintro k (rfl | rfl) k' (rfl | rfl) p p' hp hp' hpath
    · rfl
    · cases hgeo.symm.trans hp
      cases hcert.symm.trans hp'
      exact absurd hpath hne
    · cases hcert.symm.trans hp
      cases hgeo.symm.trans hp'
      exact absurd hpath hne.symm
    · rfl
  known := fun k row hrow => by cases hrow
  rows := fun _ _ => rfl
  files := fun k _ p _ n hn => by
    have hn : (if (k.path p).isEmpty then some Node.dir else none) = some n := hn
    split at hn
    · exact .inl (Option.some.inj hn).symm
    · cases hn

end BunkerWeb.Cache
