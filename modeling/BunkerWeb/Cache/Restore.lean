import BunkerWeb.Lib.Directory
import BunkerWeb.Lib.Fields
import Mathlib.Data.List.DropRight

/-!
# Restoring the caches of jobs (`Job.restore_cache`, `generate_caches`)

A row of `Jobs_cache` is a file, or an archive of a directory (`.tgz`): of the directory that its
name says after `folder:`, or else of the one that the file would be in. A job restores its rows one
after the other and empties the directory of an archive first; the scheduler restores the rows of all
plugins and puts an archive together next to its directory before it takes its place.

In the end both remove what they do not know below a directory. What they spare is decided by the
beginnings of the texts of paths.

Left out are the modes of the files, links on the way to a path, and the part `..` of one. A
`folder:` is given from the root, as `cache_dir` does, and a row has contents.
-/

namespace BunkerWeb.Cache

open Lib Lib.Directory

abbrev Path := List String

/-- `Path(text).parts`, without the root. -/
def pathParts (text : String) : Path :=
  ((fields (· == '/') text.toList).map String.ofList).filter (· ≠ ".")

/-- `base.joinpath(text)`. -/
def joinPath (base : Path) (text : String) : Path :=
  if text.toList.head? = some '/' then pathParts text else base ++ pathParts text

/-- `path.as_posix()`. -/
def asPosix (path : Path) : List Char :=
  if path = [] then ['/'] else path.flatMap fun name => '/' :: name.toList

/-- A row of `get_jobs_cache_files`, with its contents. -/
structure Row (Data : Type) where
  jobName : String
  pluginId : String
  serviceId : Option String
  fileName : String
  data : Data

section

variable {Data : Type}

/-- What both functions depend on beside the rows and the disk. -/
structure Env (Data : Type) where
  /-- What `safe_tar_extractall` leaves of an archive in an empty directory, and whether it gets to
  its end. -/
  extract : Data → Tree String Data × Bool
  /-- `is_file()` of a link. -/
  linkedFile : Tree String Data → Path → Bool

/-! ## Rows -/

/-- `/var/cache/bunkerweb/<plugin>`. -/
def pluginPath (pluginId : String) : Path := joinPath ["var", "cache", "bunkerweb"] pluginId

def tgz : List Char := ['.', 't', 'g', 'z']

def folder : List Char := "folder:".toList

namespace Row

variable (r : Row Data) (jobPath : Path)

def cachePath : Path := joinPath (joinPath jobPath (r.serviceId.getD "")) r.fileName

def isArchive : Bool := tgz.isSuffixOf r.fileName.toList

/-- `extract_path`. -/
def extractPath : Path :=
  if folder.isPrefixOf r.fileName.toList then
    pathParts (String.ofList ((r.fileName.toList.drop folder.length).rdrop tgz.length))
  else (r.cachePath jobPath).dropLast

end Row

/-! ## Sparing and removing -/

/-- `path.as_posix().startswith(tuple(ignored_dirs))`. -/
def spared (ignoredDirs : List Path) (path : Path) : Bool :=
  ignoredDirs.any fun dir => (asPosix dir).isPrefixOf (asPosix path)

/-- `path.is_file()`. -/
def isFile (env : Env Data) (t : Tree String Data) (path : Path) : Bool :=
  match t.node path with
  | some (.file _) => true
  | some (.link _) => env.linkedFile t path
  | _ => false

/-! ## `Job.restore_cache` -/

/-- An archive of the job: its directory is emptied and filled again. -/
def restoreArchive (env : Env Data) (t : Tree String Data) (path : Path) (data : Data) :
    Tree String Data × Bool :=
  let emptied := t.removeTree path
  match emptied.mkdirs path with
  | none => (emptied, false)
  | some made =>
    let (content, ok) := env.extract data
    (made.graft path content, ok)

/-- `ret`, the disk and `ignored_dirs`. -/
structure Restoring (Data : Type) where
  ret : Bool
  tree : Tree String Data
  ignoredDirs : List Path

/-- One turn of the loop of `restore_cache`. -/
def restoreRow (env : Env Data) (jobPath : Path) (jobName : String) (st : Restoring Data)
    (r : Row Data) : Restoring Data :=
  if r.isArchive then
    let path := r.extractPath jobPath
    if r.jobName ≠ jobName then { st with ignoredDirs := path :: st.ignoredDirs }
    else
      let (tree, ok) := restoreArchive env st.tree path r.data
      { ret := st.ret && ok
        tree
        ignoredDirs := if ok then path :: st.ignoredDirs else st.ignoredDirs }
  else if r.jobName ≠ jobName then st
  else
    match st.tree.writeFile (r.cachePath jobPath) r.data with
    | none => { st with ret := false }
    | some tree => { st with tree, ignoredDirs := (r.cachePath jobPath).dropLast :: st.ignoredDirs }

def restoreRows (env : Env Data) (jobPath : Path) (jobName : String) (t : Tree String Data)
    (rows : List (Row Data)) : Restoring Data :=
  rows.foldl (restoreRow env jobPath jobName) ⟨true, t, []⟩

/-- One turn of the clean-up of `restore_cache`. -/
def sweepPath (env : Env Data) (cached ignoredDirs : List Path) (jobPath : Path)
    (t : Tree String Data) (path : Path) : Tree String Data :=
  if spared ignoredDirs path then t
  else if isFile env t path ∧ path ∉ cached then t.unlink path
  else if Node.isDir (t.node path) ∧ path ≠ jobPath ∧ t.isEmpty path then t.removeTree path
  else t

/-- The clean-up of `restore_cache`, deepest entries first. -/
def sweep (env : Env Data) (cached ignoredDirs : List Path) (jobPath : Path)
    (t : Tree String Data) : Tree String Data :=
  ((t.below jobPath).mergeSort fun p q => q.length ≤ p.length).foldl
    (sweepPath env cached ignoredDirs jobPath) t

/-- `restore_cache`: what it returns, and the disk. -/
def restoreCache (env : Env Data) (jobPath : Path) (jobName : String) (manual : Bool)
    (rows : List (Row Data)) (t : Tree String Data) : Bool × Tree String Data :=
  let st := restoreRows env jobPath jobName t rows
  (st.ret,
    if !manual && Node.isDir (st.tree.node jobPath) then
      sweep env (rows.map (·.cachePath jobPath)) st.ignoredDirs jobPath st.tree
    else st.tree)

/-! ## `generate_caches` -/

/-- `extract_path.with_name(f".{extract_path.name}.staging")`. -/
def stagingPath (path : Path) : Path :=
  path.dropLast ++ ["." ++ path.getLast?.getD "" ++ ".staging"]

/-- An archive: put together in the staging directory, which then takes the place of its own. -/
def swapArchive (env : Env Data) (t : Tree String Data) (path : Path) (data : Data) :
    Tree String Data × Bool :=
  -- The root has no name that another one could be made from.
  if path = [] then (t, false)
  else
    let staging := stagingPath path
    let cleared := (t.unlink staging).removeTree staging
    match cleared.mkdirs staging with
    | none => (cleared, false)
    | some made =>
      let (content, ok) := env.extract data
      let staged := made.graft staging content
      if !ok then (staged.removeTree staging, false)
      else
        match (staged.removeTree path).rename staging path with
        | none => ((staged.removeTree path).removeTree staging, false)
        | some tree => (tree, true)

/-- The disk and `failed_restores`. -/
structure Generating (Data : Type) where
  tree : Tree String Data
  failedRestores : List String

/-- One turn of the loop of `generate_caches`. -/
def generateRow (env : Env Data) (st : Generating Data) (r : Row Data) : Generating Data :=
  let jobPath := pluginPath r.pluginId
  let (tree, ok) :=
    if r.isArchive then swapArchive env st.tree (r.extractPath jobPath) r.data
    else
      match st.tree.writeFile (r.cachePath jobPath) r.data with
      | none => (st.tree, false)
      | some tree => (tree, true)
  { tree
    failedRestores :=
      if ok then st.failedRestores
      else (r.pluginId ++ "/" ++ r.jobName) :: st.failedRestores }

def generateRows (env : Env Data) (t : Tree String Data) (rows : List (Row Data)) :
    Generating Data :=
  rows.foldl (generateRow env) ⟨t, []⟩

/-- The clean-up of `generate_caches`, which goes through the entries from the top. -/
def sweepAll (env : Env Data) (cached ignoredDirs : List Path) (jobPath : Path) :
    Tree String Data → List Path → Tree String Data
  | t, [] => t
  | t, path :: rest =>
    if spared ignoredDirs path then sweepAll env cached ignoredDirs jobPath t rest
    else if path ∉ cached ∧ isFile env t path then
      let removed := t.unlink path
      if Node.isDir (removed.node path.dropLast) ∧ removed.isEmpty path.dropLast then
        let emptied := removed.removeTree path.dropLast
        if path.dropLast = jobPath then emptied
        else sweepAll env cached ignoredDirs jobPath emptied rest
      else sweepAll env cached ignoredDirs jobPath removed rest
    else if Node.isDir (t.node path) ∧ t.isEmpty path then
      sweepAll env cached ignoredDirs jobPath (t.removeTree path) rest
    else sweepAll env cached ignoredDirs jobPath t rest

/-- `generate_caches`: `failed_restores`, and the disk. The directory that is cleaned up is that of
the last row. -/
def generateCaches (env : Env Data) (rows : List (Row Data)) (t : Tree String Data) :
    List String × Tree String Data :=
  let st := generateRows env t rows
  let cached := rows.map fun r => r.cachePath (pluginPath r.pluginId)
  let ignoredDirs := (rows.filter (·.isArchive)).map fun r => r.extractPath (pluginPath r.pluginId)
  (st.failedRestores,
    match rows.getLast? with
    | none => st.tree
    | some last =>
      let jobPath := pluginPath last.pluginId
      if Node.isDir (st.tree.node jobPath) then
        sweepAll env cached ignoredDirs jobPath st.tree
          ((st.tree.below jobPath).mergeSort fun p q => p.length ≤ q.length)
      else st.tree)

end

end BunkerWeb.Cache
