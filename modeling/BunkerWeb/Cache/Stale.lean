import BunkerWeb.Cache.Complete

/-!
# Stale files of a cache directory

A regular file is stale if it is no cached file and lies in no directory of a cached archive. The
loops over the rows leave stale files alone (`restoreRows_file`, `generateRows_file`), and the
clean-ups remove those whose paths do not begin like a directory that is spared. `clean_up_iff` says
for which files on the disk no stale one is left.
-/

namespace BunkerWeb.Cache

open Lib Lib.Directory

section

variable {Data : Type} {env : Env Data} {t t' : Tree String Data} {path q jobPath : Path}
  {data : Data} {jobName : String} {rows : List (Row Data)}

/-! ## Files outside of the archives -/

/-- The directories of the cached archives. -/
def archiveDirs (jobPathOf : Row Data → Path) (rows : List (Row Data)) : List Path :=
  (rows.filter (·.isArchive)).map fun r => r.extractPath (jobPathOf r)

def cachedPaths (jobPathOf : Row Data → Path) (rows : List (Row Data)) : List Path :=
  rows.map fun r => r.cachePath (jobPathOf r)

/-- The path is of no cached file and in no directory of an archive. -/
structure Foreign (jobPathOf : Row Data → Path) (rows : List (Row Data)) (q : Path) : Prop where
  notCached : q ∉ cachedPaths jobPathOf rows
  outside : ∀ dir ∈ archiveDirs jobPathOf rows, ¬ dir <+: q

theorem Foreign.of_row {jobPathOf : Row Data → Path} (h : Foreign jobPathOf rows q) {r : Row Data}
    (hr : r ∈ rows) :
    (r.isArchive = true → ¬ r.extractPath (jobPathOf r) <+: q) ∧ q ≠ r.cachePath (jobPathOf r) :=
  ⟨fun ha => h.outside _ (List.mem_map.mpr ⟨r, List.mem_filter.mpr ⟨hr, ha⟩, rfl⟩),
    fun heq => h.notCached (List.mem_map.mpr ⟨r, hr, heq.symm⟩)⟩

/-- Making directories neither makes nor removes a file. -/
theorem mkdirs_file (h : t.mkdirs path = some t') :
    t'.node q = some (.file data) ↔ t.node q = some (.file data) := by
  rw [Tree.node_mkdirs h]
  split
  next hpre =>
    rcases Tree.free_of_mkdirs h hpre with hn | hn <;> simp [hn]
  next => exact Iff.rfl

theorem writeFile_file {written : Data} (h : t.writeFile path written = some t') (hq : q ≠ path) :
    t'.node q = some (.file data) ↔ t.node q = some (.file data) := by
  unfold Tree.writeFile at h
  split at h
  · cases h
  next hnot =>
  obtain ⟨made, hmade, rfl⟩ := Option.map_eq_some_iff.mp h
  rw [← mkdirs_file hmade]
  unfold Tree.put
  split
  · show (if q = path then some (Node.file written) else made.node q) = _ ↔ _
    rw [if_neg hq]
  · exact Iff.rfl

theorem graft_node_of_apart {s : Tree String Data} (h : ¬ path <+: q) :
    (t.graft path s).node q = t.node q := by
  unfold Tree.graft
  split
  · exact if_neg fun hpre => h hpre.1
  · rfl

theorem removeTree_node_of_apart (h : ¬ path <+: q) :
    (t.removeTree path).node q = t.node q := by
  rw [Tree.node_removeTree, if_neg fun hpre => h hpre.1]

theorem restoreArchive_file {archive : Data} (h : ¬ path <+: q) :
    (restoreArchive env t path archive).1.node q = some (.file data) ↔
      t.node q = some (.file data) := by
  unfold restoreArchive
  dsimp only
  split
  next => rw [removeTree_node_of_apart h]
  next made hmade =>
    rw [graft_node_of_apart h, mkdirs_file hmade, removeTree_node_of_apart h]

/-- The loop of a job leaves files that have nothing to do with its rows. -/
theorem restoreRows_file (h : Foreign (fun _ => jobPath) rows q) :
    (restoreRows env jobPath jobName t rows).tree.node q = some (.file data) ↔
      t.node q = some (.file data) := by
  unfold restoreRows
  refine foldl_iff (P := fun st : Restoring Data => st.tree.node q = some (.file data))
    fun st r hr => ?_
  obtain ⟨harchive, hne⟩ := h.of_row hr
  unfold restoreRow
  split
  next ha =>
    dsimp only
    split
    · exact Iff.rfl
    · exact restoreArchive_file (harchive ha)
  next =>
    split
    · exact Iff.rfl
    · split
      next => exact Iff.rfl
      next tree htree => exact writeFile_file htree hne

/-- Nothing is left under a staging directory. -/
theorem cleared_node (t : Tree String Data) (staging q : Path) :
    ((t.unlink staging).removeTree staging).node q =
      if staging <+: q then none else t.node q := by
  rw [Tree.node_removeTree]
  by_cases hdir : Node.isDir (t.node staging) = true
  · have hunlink : ∀ q, (t.unlink staging).node q = t.node q := fun q => by
      rw [Tree.node_unlink, if_neg (by simp [hdir])]
    rw [hunlink, hunlink]
    simp only [hdir, and_true]
  · have hunlink : (t.unlink staging).node staging = none := by
      rw [Tree.node_unlink, if_pos ⟨rfl, hdir⟩]
    rw [hunlink, if_neg (by simp [Node.isDir]), Tree.node_unlink]
    by_cases hpre : staging <+: q
    · rw [if_pos hpre]
      by_cases heq : q = staging
      · rw [if_pos ⟨heq, hdir⟩]
      · rw [if_neg fun h => heq (And.left h)]
        by_contra hsome
        refine hdir (Node.isDir_iff.mpr ?_)
        exact t.dir_above (Option.isSome_iff_ne_none.mpr hsome) hpre (Ne.symm heq)
    · have hne : q ≠ staging := fun h => hpre (h ▸ List.prefix_refl _)
      rw [if_neg hpre, if_neg (by simp [hne])]

theorem not_prefix_stagingPath (hne : path ≠ []) : ¬ path <+: stagingPath path := by
  obtain ⟨dir, name, rfl⟩ := (List.eq_nil_or_concat path).resolve_left hne
  obtain ⟨name', hname, hstaging⟩ := stagingPath_concat dir name
  rw [List.concat_eq_append, hstaging, ← List.append_nil (dir ++ [name'])]
  exact not_prefix_sibling hname.symm []

theorem swapArchive_file {archive : Data} (h : ¬ path <+: q) :
    (swapArchive env t path archive).1.node q = some (.file data) ↔
      t.node q = some (.file data) ∧ ¬ stagingPath path <+: q := by
  have hne : path ≠ [] := fun hp => h (hp ▸ List.nil_prefix)
  unfold swapArchive
  rw [if_neg hne]
  dsimp only
  split
  next =>
    rw [cleared_node]
    split
    next hpre => simp [hpre]
    next hpre => simp [hpre]
  next made hmade =>
    have hdir : made.node (stagingPath path) = some .dir := by
      rw [Tree.node_mkdirs hmade, if_pos (List.prefix_refl _)]
    have hstaged : ¬ stagingPath path <+: q →
        ((made.graft (stagingPath path) (env.extract archive).1).node q = some (.file data) ↔
          t.node q = some (.file data)) := fun hpre => by
      rw [graft_node_of_apart hpre, mkdirs_file hmade, cleared_node, if_neg hpre]
    have hstagedDir : (made.graft (stagingPath path) (env.extract archive).1).node
        (stagingPath path) = some .dir := by
      rw [Tree.node_graft hdir, if_neg (by simp), hdir]
    have hstagedDir' :
        ((made.graft (stagingPath path) (env.extract archive).1).removeTree path).node
          (stagingPath path) = some .dir := by
      rw [removeTree_node_of_apart (not_prefix_stagingPath hne), hstagedDir]
    -- The staging directory goes in each case.
    by_cases hpre : stagingPath path <+: q
    · simp only [hpre, not_true, and_false, iff_false]
      split
      · rw [Tree.node_removeTree, if_pos ⟨hpre, Node.isDir_iff.mpr hstagedDir⟩]
        simp
      split
      · rw [Tree.node_removeTree, if_pos ⟨hpre, Node.isDir_iff.mpr hstagedDir'⟩]
        simp
      next tree htree =>
        rw [Tree.node_rename htree, if_neg h, if_pos hpre]
        simp
    · simp only [hpre, not_false_eq_true, and_true]
      rw [← hstaged hpre]
      split
      · rw [removeTree_node_of_apart hpre]
      split
      · rw [removeTree_node_of_apart hpre, removeTree_node_of_apart h]
      next tree htree =>
        rw [Tree.node_rename htree, if_neg h, if_neg hpre, removeTree_node_of_apart h]

theorem generateRow_file {st : Generating Data} {r : Row Data}
    (h : (r.isArchive = true → ¬ r.extractPath (pluginPath r.pluginId) <+: q) ∧
      q ≠ r.cachePath (pluginPath r.pluginId)) :
    (generateRow env st r).tree.node q = some (.file data) ↔
      st.tree.node q = some (.file data) ∧
        (r.isArchive = true → ¬ stagingPath (r.extractPath (pluginPath r.pluginId)) <+: q) := by
  unfold generateRow
  by_cases ha : r.isArchive = true
  · simp only [ha, forall_const]
    exact swapArchive_file (h.1 ha)
  · simp only [ha, Bool.false_eq_true, if_false, false_implies, and_true]
    split
    next => exact Iff.rfl
    next tree htree => exact writeFile_file htree h.2

/-- The loop of the scheduler leaves such files too, but for those in a staging directory. -/
theorem generateRows_file (h : Foreign (fun r => pluginPath r.pluginId) rows q) :
    (generateRows env t rows).tree.node q = some (.file data) ↔
      t.node q = some (.file data) ∧
        ∀ dir ∈ archiveDirs (fun r : Row Data => pluginPath r.pluginId) rows,
          ¬ stagingPath dir <+: q := by
  induction rows using List.reverseRecOn with
  | nil => simp [generateRows, archiveDirs]
  | append_singleton rows r ih =>
    have hsplit : generateRows env t (rows ++ [r]) =
        generateRow env (generateRows env t rows) r := by
      rw [generateRows, List.foldl_append]
      rfl
    have hdirs : archiveDirs (fun r : Row Data => pluginPath r.pluginId) (rows ++ [r]) =
        archiveDirs (fun r : Row Data => pluginPath r.pluginId) rows ++
          if r.isArchive then [r.extractPath (pluginPath r.pluginId)] else [] := by
      rw [archiveDirs, List.filter_append, List.map_append]
      cases hr : r.isArchive <;> simp [archiveDirs, hr]
    have hrows : Foreign (fun r : Row Data => pluginPath r.pluginId) rows q := by
      refine ⟨fun hmem => h.notCached ?_, fun dir hdir => h.outside dir ?_⟩
      · rw [cachedPaths, List.map_append]
        exact List.mem_append_left _ hmem
      · rw [hdirs]
        exact List.mem_append_left _ hdir
    rw [hsplit, generateRow_file (h.of_row (List.mem_append_right _ (List.mem_singleton_self r))),
      ih hrows, and_assoc, hdirs]
    refine and_congr_right fun _ => ?_
    rw [List.forall_mem_append]
    refine and_congr_right fun _ => ?_
    cases r.isArchive <;> simp

/-! ## What a job spares -/

/-- The restoration of a row succeeds on this disk. -/
def Succeeds (env : Env Data) (jobPath : Path) (t : Tree String Data) (r : Row Data) : Prop :=
  if r.isArchive then (restoreArchive env t (r.extractPath jobPath) r.data).2 = true
  else (t.writeFile (r.cachePath jobPath) r.data).isSome

/-- A row of the job that has been restored, after those before it. -/
def Restored (env : Env Data) (jobPath : Path) (jobName : String) (t : Tree String Data)
    (rows : List (Row Data)) (r : Row Data) : Prop :=
  ∃ before after, rows = before ++ r :: after ∧ r.jobName = jobName ∧
    Succeeds env jobPath (restoreRows env jobPath jobName t before).tree r

/-- The directory of an archive, or the one that a file is in. -/
def Row.dir (jobPath : Path) (r : Row Data) : Path :=
  if r.isArchive then r.extractPath jobPath else (r.cachePath jobPath).dropLast

theorem restoreRows_concat (r : Row Data) :
    restoreRows env jobPath jobName t (rows ++ [r]) =
      restoreRow env jobPath jobName (restoreRows env jobPath jobName t rows) r := by
  rw [restoreRows, List.foldl_append]
  rfl

theorem restored_concat {r r' : Row Data} :
    Restored env jobPath jobName t (rows ++ [r']) r ↔
      Restored env jobPath jobName t rows r ∨ (r = r' ∧ r.jobName = jobName ∧
        Succeeds env jobPath (restoreRows env jobPath jobName t rows).tree r) := by
  constructor
  · rintro ⟨before, after, hsplit, hjob, hok⟩
    rcases List.eq_nil_or_concat after with rfl | ⟨after, x, rfl⟩
    · obtain ⟨rfl, hr⟩ := List.append_inj' hsplit rfl
      exact .inr ⟨(List.cons.inj hr).1.symm, hjob, hok⟩
    · rw [List.concat_eq_append, ← List.cons_append, ← List.append_assoc] at hsplit
      obtain ⟨rfl, -⟩ := List.append_inj' hsplit rfl
      exact .inl ⟨before, after, rfl, hjob, hok⟩
  · rintro (⟨before, after, rfl, hjob, hok⟩ | ⟨rfl, hjob, hok⟩)
    · exact ⟨before, after ++ [r'], by simp, hjob, hok⟩
    · exact ⟨rows, [], rfl, hjob, hok⟩

theorem mem_restoreRow_iff {st : Restoring Data} {r : Row Data} {dir : Path} :
    dir ∈ (restoreRow env jobPath jobName st r).ignoredDirs ↔
      dir ∈ st.ignoredDirs ∨
        (r.isArchive = true ∧ r.jobName ≠ jobName ∧ dir = r.extractPath jobPath) ∨
        (r.jobName = jobName ∧ Succeeds env jobPath st.tree r ∧ dir = r.dir jobPath) := by
  unfold restoreRow Succeeds Row.dir
  by_cases ha : r.isArchive = true
  · by_cases hjob : r.jobName = jobName
    · simp only [ha, hjob, ne_eq, not_true, if_true, if_false, true_and, false_and, and_false,
        false_or]
      cases (restoreArchive env st.tree (r.extractPath jobPath) r.data).2 <;> simp [or_comm]
    · simp [ha, hjob, or_comm]
  · by_cases hjob : r.jobName = jobName
    · simp only [ha, hjob, ne_eq, not_true, if_false, true_and, Bool.false_eq_true, false_and,
        false_or]
      cases st.tree.writeFile (r.cachePath jobPath) r.data <;> simp [or_comm]
    · simp [ha, hjob]

/-- `ignored_dirs` after the loop: the archives of other jobs, and where rows have been restored. -/
def Spares (env : Env Data) (jobPath : Path) (jobName : String) (t : Tree String Data)
    (rows : List (Row Data)) (dir : Path) : Prop :=
  (∃ r ∈ rows, r.isArchive = true ∧ r.jobName ≠ jobName ∧ dir = r.extractPath jobPath) ∨
    ∃ r, Restored env jobPath jobName t rows r ∧ dir = r.dir jobPath

theorem mem_ignoredDirs_iff {dir : Path} :
    dir ∈ (restoreRows env jobPath jobName t rows).ignoredDirs ↔
      Spares env jobPath jobName t rows dir := by
  induction rows using List.reverseRecOn with
  | nil =>
    refine iff_of_false (by simp [restoreRows]) ?_
    rintro (⟨r, hr, -⟩ | ⟨r, ⟨before, after, hsplit, -⟩, -⟩)
    · cases hr
    · simp at hsplit
  | append_singleton rows r ih =>
    rw [restoreRows_concat, mem_restoreRow_iff, ih]
    unfold Spares
    simp only [List.mem_append, List.mem_singleton, restored_concat, or_and_right, exists_or,
      exists_eq_left, and_assoc]
    constructor
    · rintro ((h | h) | h | h)
      · exact .inl (.inl h)
      · exact .inr (.inl h)
      · exact .inl (.inr h)
      · exact .inr (.inr h)
    · rintro ((h | h) | h | h)
      · exact .inl (.inl h)
      · exact .inr (.inl h)
      · exact .inl (.inr h)
      · exact .inr (.inr h)

/-! ## What the clean-ups leave -/

variable {cached ignoredDirs : List Path} {paths : List Path}

/-- A file that was not removed was there before. -/
theorem Swept.file (h : Swept cached ignoredDirs t t') (hq : t'.node q = some (.file data)) :
    t.node q = some (.file data) :=
  (h q _).1 hq

theorem isFile_of_file (hq : t.node q = some (.file data)) : isFile env t q = true := by
  rw [isFile, hq]

theorem unlink_self_ne_file (t : Tree String Data) (q : Path) (data : Data) :
    (t.unlink q).node q ≠ some (.file data) := by
  rw [Tree.node_unlink]
  split
  · simp
  next h =>
    intro hq
    exact h ⟨rfl, by simp [hq, Node.isDir]⟩

/-- A file that the clean-up of a job comes to stays only if it is spared or cached. -/
theorem foldl_sweepPath_file (hmem : q ∈ paths)
    (hq : (paths.foldl (sweepPath env cached ignoredDirs jobPath) t).node q =
      some (.file data)) :
    spared ignoredDirs q = true ∨ q ∈ cached := by
  induction paths generalizing t with
  | nil => cases hmem
  | cons path paths ih =>
    rw [List.foldl_cons] at hq
    rcases List.mem_cons.mp hmem with rfl | hmem
    · by_contra hno
      rw [not_or] at hno
      have hstep := (swept_foldl paths).file hq
      have hfile : isFile env t q = true := isFile_of_file (swept_sweepPath.file hstep)
      rw [sweepPath, if_neg hno.1, if_pos ⟨hfile, hno.2⟩] at hstep
      exact unlink_self_ne_file t q data hstep
    · exact ih hmem hq

/-- The same of the clean-up of the scheduler, which stops where nothing is left. -/
theorem sweepAll_file (hmem : q ∈ paths) (hbelow : jobPath <+: q)
    (hq : (sweepAll env cached ignoredDirs jobPath t paths).node q = some (.file data)) :
    spared ignoredDirs q = true ∨ q ∈ cached := by
  induction paths generalizing t with
  | nil => cases hmem
  | cons path paths ih =>
    have hbefore := swept_sweepAll.file hq
    rw [sweepAll] at hq
    split at hq
    next hs =>
      rcases List.mem_cons.mp hmem with rfl | hmem
      · exact .inl hs
      · exact ih hmem hq
    next hs =>
    split at hq
    next hfile =>
      dsimp only at hq
      split at hq
      next hdir =>
        split at hq
        next hjob =>
          -- Nothing is left below the directory of the plugin.
          rw [Tree.node_removeTree, if_pos ⟨hjob ▸ hbelow, hdir.1⟩] at hq
          cases hq
        next =>
          rcases List.mem_cons.mp hmem with rfl | hmem
          · have hremove : Swept cached ignoredDirs _ _ :=
              swept_removeTree (not_spared_dropLast hs) hdir.2
            exact absurd (hremove.file (swept_sweepAll.file hq)) (unlink_self_ne_file t q data)
          · exact ih hmem hq
      next =>
        rcases List.mem_cons.mp hmem with rfl | hmem
        · exact absurd (swept_sweepAll.file hq) (unlink_self_ne_file t q data)
        · exact ih hmem hq
    next hfile =>
      rcases List.mem_cons.mp hmem with rfl | hmem
      · by_contra hno
        rw [not_or] at hno
        exact hfile ⟨hno.2, isFile_of_file hbefore⟩
      · split at hq
        · exact ih hmem hq
        · exact ih hmem hq

theorem unlink_node_of_ne (h : q ≠ path) : (t.unlink path).node q = t.node q := by
  rw [Tree.node_unlink, if_neg (by simp [h])]

/-- What is not below the directory is left alone. -/
theorem sweepAll_node_of_apart (h : ¬ jobPath <+: q)
    (hpaths : ∀ p ∈ paths, jobPath <+: p ∧ p ≠ jobPath) :
    (sweepAll env cached ignoredDirs jobPath t paths).node q = t.node q := by
  induction paths generalizing t with
  | nil => rfl
  | cons path paths ih =>
    obtain ⟨hpath, hne⟩ := hpaths path List.mem_cons_self
    have hrest := fun p hp => hpaths p (List.mem_cons_of_mem path hp)
    have hq : q ≠ path := fun heq => h (heq ▸ hpath)
    have hself : ¬ path <+: q := fun hpre => h (hpath.trans hpre)
    have hparent : ¬ path.dropLast <+: q := by
      have hnil : path ≠ [] := by
        rintro rfl
        exact hne (List.prefix_nil.mp hpath).symm
      exact fun hpre =>
        h (((Tree.prefix_dropLast_iff hnil).mpr ⟨hpath, Ne.symm hne⟩).trans hpre)
    rw [sweepAll]
    split
    · exact ih hrest
    split
    · dsimp only
      split
      · split
        · rw [removeTree_node_of_apart hparent, unlink_node_of_ne hq]
        · rw [ih hrest, removeTree_node_of_apart hparent, unlink_node_of_ne hq]
      · rw [ih hrest, unlink_node_of_ne hq]
    split
    · rw [ih hrest, removeTree_node_of_apart hself]
    · exact ih hrest

/-- A file below a directory is among its entries, and the directory is one. -/
theorem mem_below_of_file (hq : t.node q = some (.file data)) (hbelow : jobPath <+: q)
    (hne : q ≠ jobPath) : t.node jobPath = some .dir ∧ q ∈ t.below jobPath := by
  have hsome : (t.node q).isSome := by
    rw [hq]
    rfl
  exact ⟨t.dir_above hsome hbelow (Ne.symm hne), Tree.mem_below.mpr ⟨hbelow, hne, hsome⟩⟩

/-! ## Both functions -/

/-- No stale file is left below the directory. -/
def NoneStale (jobPathOf : Row Data → Path) (rows : List (Row Data)) (jobPath : Path)
    (t : Tree String Data) : Prop :=
  ∀ q data, jobPath <+: q → q ≠ jobPath → t.node q = some (.file data) → ¬ Foreign jobPathOf rows q

/-- `restore_cache` leaves no stale file, and what the rows have left of the cached files and of the
archives that have been restored stays. -/
def CleanAfterRestore (env : Env Data) (jobPath : Path) (jobName : String)
    (rows : List (Row Data)) (t : Tree String Data) : Prop :=
  NoneStale (fun _ => jobPath) rows jobPath (restoreCache env jobPath jobName false rows t).2 ∧
    ∀ q data, (restoreRows env jobPath jobName t rows).tree.node q = some (.file data) →
      (q ∈ cachedPaths (fun _ => jobPath) rows ∨ ∃ r, Restored env jobPath jobName t rows r ∧
        r.isArchive = true ∧ r.extractPath jobPath <+: q) →
      (restoreCache env jobPath jobName false rows t).2.node q = some (.file data)

/-- The same of `generate_caches`, for each plugin that has rows. -/
def CleanAfterGenerate (env : Env Data) (rows : List (Row Data)) (t : Tree String Data) : Prop :=
  (∀ r ∈ rows, NoneStale (fun r => pluginPath r.pluginId) rows (pluginPath r.pluginId)
    (generateCaches env rows t).2) ∧
    ∀ q data, (generateRows env t rows).tree.node q = some (.file data) →
      (q ∈ cachedPaths (fun r => pluginPath r.pluginId) rows ∨
        ∃ dir ∈ archiveDirs (fun r : Row Data => pluginPath r.pluginId) rows, dir <+: q) →
      (generateCaches env rows t).2.node q = some (.file data)

theorem spared_ignoredDirs_iff :
    spared (restoreRows env jobPath jobName t rows).ignoredDirs q = true ↔
      ∃ dir, Spares env jobPath jobName t rows dir ∧ asPosix dir <+: asPosix q := by
  rw [spared_iff]
  simp only [mem_ignoredDirs_iff]

/-- A file that is no cached one stays below the directory of the job if its path begins like one
that is spared. -/
theorem restoreCache_file_iff (hbelow : jobPath <+: q) (hne : q ≠ jobPath)
    (hq : Foreign (fun _ => jobPath) rows q) :
    (restoreCache env jobPath jobName false rows t).2.node q = some (.file data) ↔
      t.node q = some (.file data) ∧
        ∃ dir, Spares env jobPath jobName t rows dir ∧ asPosix dir <+: asPosix q := by
  have hloop : (restoreRows env jobPath jobName t rows).tree.node q = some (.file data) ↔
      t.node q = some (.file data) := restoreRows_file hq
  rw [← spared_ignoredDirs_iff, ← hloop]
  unfold restoreCache
  dsimp only [Bool.not_false, Bool.true_and]
  constructor
  · intro h
    have hrows : (restoreRows env jobPath jobName t rows).tree.node q = some (.file data) := by
      split at h
      · exact swept_sweep.file h
      · exact h
    obtain ⟨hdir, hmem⟩ := mem_below_of_file hrows hbelow hne
    rw [if_pos (by simp [hdir])] at h
    refine ⟨hrows, (foldl_sweepPath_file ?_ h).resolve_right hq.notCached⟩
    exact List.mem_mergeSort.mpr hmem
  · rintro ⟨hrows, hspared⟩
    split
    · exact (swept_sweep q _).2 (.inl hspared) hrows
    · exact hrows

theorem restoreCache_kept
    (hq : (restoreRows env jobPath jobName t rows).tree.node q = some (.file data))
    (h : q ∈ cachedPaths (fun _ => jobPath) rows ∨ ∃ r, Restored env jobPath jobName t rows r ∧
      r.isArchive = true ∧ r.extractPath jobPath <+: q) :
    (restoreCache env jobPath jobName false rows t).2.node q = some (.file data) := by
  unfold restoreCache
  dsimp only [Bool.not_false, Bool.true_and]
  split
  · refine (swept_sweep q _).2 ?_ hq
    rcases h with hcached | ⟨r, hr, ha, hpre⟩
    · exact .inr ⟨hcached, data, rfl⟩
    · refine .inl (spared_of_above (mem_ignoredDirs_iff.mpr (.inr ⟨r, hr, rfl⟩)) ?_)
      rwa [Row.dir, if_pos ha]
  · exact hq

/-- **Clean-up of a job.** Exactly if no stale file on the disk has a path that begins like a
directory that is spared. -/
theorem cleanAfterRestore_iff :
    CleanAfterRestore env jobPath jobName rows t ↔
      ∀ q data, jobPath <+: q → q ≠ jobPath → t.node q = some (.file data) →
        Foreign (fun _ => jobPath) rows q →
        ∀ dir, Spares env jobPath jobName t rows dir → ¬ asPosix dir <+: asPosix q := by
  constructor
  · rintro ⟨hgone, -⟩ q data hbelow hne hfile hq dir hdir hpre
    exact hgone q data hbelow hne
      ((restoreCache_file_iff hbelow hne hq).mpr ⟨hfile, dir, hdir, hpre⟩) hq
  · intro h
    refine ⟨fun q data hbelow hne hfile hq => ?_, fun q data hq => restoreCache_kept hq⟩
    obtain ⟨hfile, dir, hdir, hpre⟩ := (restoreCache_file_iff hbelow hne hq).mp hfile
    exact h q data hbelow hne hfile hq dir hdir hpre

/-- The directory of the last row's plugin is cleaned up, where the path begins like no directory of
an archive. -/
def CleanedUp (rows : List (Row Data)) (q : Path) : Prop :=
  ∃ last ∈ rows.getLast?, pluginPath last.pluginId <+: q ∧ q ≠ pluginPath last.pluginId ∧
    ∀ dir ∈ archiveDirs (fun r : Row Data => pluginPath r.pluginId) rows,
      ¬ asPosix dir <+: asPosix q

theorem not_spared_archiveDirs_iff :
    ¬ spared (archiveDirs (fun r : Row Data => pluginPath r.pluginId) rows) q = true ↔
      ∀ dir ∈ archiveDirs (fun r : Row Data => pluginPath r.pluginId) rows,
        ¬ asPosix dir <+: asPosix q := by
  rw [spared_iff]
  simp only [not_exists, not_and]

theorem generateCaches_file_iff (hq : Foreign (fun r => pluginPath r.pluginId) rows q) :
    (generateCaches env rows t).2.node q = some (.file data) ↔
      (generateRows env t rows).tree.node q = some (.file data) ∧ ¬ CleanedUp rows q := by
  show (generateCaches env rows t).2.node q = _ ↔ _
  unfold generateCaches CleanedUp
  dsimp only
  cases rows.getLast? with
  | none => simp
  | some last =>
    simp only [Option.mem_def, Option.some.injEq, exists_eq_left']
    rw [← not_spared_archiveDirs_iff]
    constructor
    · intro h
      have hrows : (generateRows env t rows).tree.node q = some (.file data) := by
        split at h
        · exact swept_sweepAll.file h
        · exact h
      refine ⟨hrows, ?_⟩
      rintro ⟨hbelow, hne, hspared⟩
      obtain ⟨hdir, hmem⟩ := mem_below_of_file hrows hbelow hne
      rw [if_pos (Node.isDir_iff.mpr hdir)] at h
      exact (sweepAll_file (List.mem_mergeSort.mpr hmem) hbelow h).elim hspared hq.notCached
    · rintro ⟨hrows, hno⟩
      split
      next hdir =>
        by_cases hspared : spared (archiveDirs (fun r : Row Data => pluginPath r.pluginId) rows) q =
            true
        · exact (swept_sweepAll q _).2 (.inl hspared) hrows
        · have hbelow : ¬ pluginPath last.pluginId <+: q := by
            intro hpre
            refine hno ⟨hpre, ?_, hspared⟩
            rintro rfl
            rw [hrows] at hdir
            cases hdir
          rw [sweepAll_node_of_apart hbelow fun p hp => ?_]
          · exact hrows
          · obtain ⟨hpre, hne, -⟩ := Tree.mem_below.mp (List.mem_mergeSort.mp hp)
            exact ⟨hpre, hne⟩
      next => exact hrows

theorem generateCaches_kept
    (hq : (generateRows env t rows).tree.node q = some (.file data))
    (h : q ∈ cachedPaths (fun r => pluginPath r.pluginId) rows ∨
      ∃ dir ∈ archiveDirs (fun r : Row Data => pluginPath r.pluginId) rows, dir <+: q) :
    (generateCaches env rows t).2.node q = some (.file data) := by
  unfold generateCaches
  dsimp only
  split
  · exact hq
  split
  · refine (swept_sweepAll q _).2 ?_ hq
    rcases h with hcached | ⟨dir, hdir, hpre⟩
    · exact .inr ⟨hcached, data, rfl⟩
    · exact .inl (spared_of_above hdir hpre)
  · exact hq

/-- **Clean-up of the scheduler.** Exactly if each stale file on the disk is in a staging directory,
or in the directory of the last row's plugin under a path that begins like no directory of an
archive. -/
theorem cleanAfterGenerate_iff :
    CleanAfterGenerate env rows t ↔
      ∀ r ∈ rows, ∀ q data, pluginPath r.pluginId <+: q → q ≠ pluginPath r.pluginId →
        t.node q = some (.file data) → Foreign (fun r => pluginPath r.pluginId) rows q →
        (∃ dir ∈ archiveDirs (fun r : Row Data => pluginPath r.pluginId) rows,
          stagingPath dir <+: q) ∨ CleanedUp rows q := by
  have hleft : ∀ {q data}, Foreign (fun r => pluginPath r.pluginId) rows q →
      ((generateCaches env rows t).2.node q = some (.file data) ↔
        t.node q = some (.file data) ∧
          ¬ ((∃ dir ∈ archiveDirs (fun r : Row Data => pluginPath r.pluginId) rows,
            stagingPath dir <+: q) ∨ CleanedUp rows q)) := fun hq => by
    rw [generateCaches_file_iff hq, generateRows_file hq, and_assoc, not_or]
    simp only [not_exists, not_and]
  constructor
  · rintro ⟨hgone, -⟩ r hr q data hbelow hne hfile hq
    by_contra hno
    exact hgone r hr q data hbelow hne ((hleft hq).mpr ⟨hfile, hno⟩) hq
  · intro h
    refine ⟨fun r hr q data hbelow hne hfile hq => ?_, fun q data hq => generateCaches_kept hq⟩
    obtain ⟨hfile, hno⟩ := (hleft hq).mp hfile
    exact hno (h r hr q data hbelow hne hfile hq)

end

/-- **Clean-up of caches.** When no stale file is left below the directories, for every disk and all
rows: a job spares what begins like the directory of a restored file, and the scheduler cleans up
the directory of one plugin only. -/
theorem clean_up_iff {Data : Type} (env : Env Data) :
    (∀ jobPath jobName rows t, CleanAfterRestore env jobPath jobName rows t ↔
      ∀ q data, jobPath <+: q → q ≠ jobPath → t.node q = some (.file data) →
        Foreign (fun _ => jobPath) rows q →
        ∀ dir, Spares env jobPath jobName t rows dir → ¬ asPosix dir <+: asPosix q) ∧
      ∀ rows t, CleanAfterGenerate env rows t ↔
        ∀ r ∈ rows, ∀ q data, pluginPath r.pluginId <+: q → q ≠ pluginPath r.pluginId →
          t.node q = some (.file data) → Foreign (fun r => pluginPath r.pluginId) rows q →
          (∃ dir ∈ archiveDirs (fun r : Row Data => pluginPath r.pluginId) rows,
            stagingPath dir <+: q) ∨ CleanedUp rows q :=
  ⟨fun _ _ _ _ => cleanAfterRestore_iff, fun _ _ => cleanAfterGenerate_iff⟩

/-! ## A stale list -/

/-- A disk with a list that is no longer cached. -/
def staleDisk : Tree String Content :=
  (Tree.root.writeFile (joinPath (pluginPath "geo") "old.list") (.text "192.0.2.9")).getD Tree.root

/-- A row of another plugin, which comes last. -/
def otherRow : Row Content := ⟨"download", "list", none, "ip.list", .text "192.0.2.8"⟩

theorem stale_list_stays :
    ¬ CleanAfterRestore filesEnv (pluginPath "geo") "download" [listRow] staleDisk ∧
      ¬ CleanAfterGenerate filesEnv [listRow, otherRow] staleDisk := by
  have hforeign : ∀ (jobPathOf : Row Content → Path) rows,
      joinPath (pluginPath "geo") "old.list" ∉
      cachedPaths jobPathOf rows → archiveDirs jobPathOf rows = [] →
      Foreign jobPathOf rows (joinPath (pluginPath "geo") "old.list") :=
    fun jobPathOf rows hcached hdirs => ⟨hcached, by simp [hdirs]⟩
  constructor
  · intro h
    have hrestored : Restored filesEnv (pluginPath "geo") "download" staleDisk [listRow] listRow :=
      ⟨[], [], rfl, rfl, by rw [Succeeds, if_neg (by decide +kernel)]; decide +kernel⟩
    exact cleanAfterRestore_iff.mp h _ (.text "192.0.2.9") (by decide +kernel) (by decide +kernel)
      (by decide +kernel) (hforeign _ _ (by decide +kernel) (by decide +kernel)) _
      (.inr ⟨listRow, hrestored, rfl⟩) (by decide +kernel)
  · intro h
    rcases cleanAfterGenerate_iff.mp h listRow List.mem_cons_self _ (.text "192.0.2.9")
      (by decide +kernel) (by decide +kernel) (by decide +kernel)
      (hforeign _ _ (by decide +kernel) (by decide +kernel)) with
      ⟨dir, hdir, -⟩ | ⟨last, hlast, hin, -⟩
    · have hnil : archiveDirs (fun r : Row Content => pluginPath r.pluginId)
          [listRow, otherRow] = [] := by decide +kernel
      rw [hnil] at hdir
      cases hdir
    · obtain rfl := Option.some.inj hlast
      exact absurd hin (by decide +kernel)

end BunkerWeb.Cache
