import BunkerWeb.Cache.Restore
import BunkerWeb.Lib.Overwrite

/-!
# What is there after a restoration

`Row.holds` is what a row has under each path, `Row.effect` what its restoration leaves there. A
restoration that fails nowhere is one effect after the other (`restoreRows_node`,
`generateRows_node`), so that each path has what the last row with an effect on it leaves, and the
clean-up spares what the rows hold. `cache_complete_iff` says for which rows that is everything.
-/

namespace BunkerWeb.Cache

open Lib Lib.Directory

section

variable {Data : Type} {env : Env Data} {t t' : Tree String Data} {path q : Path} {data : Data}

/-! ## Archives -/

/-- What an archive has under a path. -/
def archived (env : Env Data) (path : Path) (data : Data) (q : Path) : Option (Node Data) :=
  if q = path then some .dir else (env.extract data).1.node (q.drop path.length)

/-- A directory that is emptied and filled again. -/
theorem restoreArchive_node (h : restoreArchive env t path data = (t', true)) (q : Path) :
    t'.node q =
      if path <+: q then archived env path data q
      else if q <+: path then some .dir else t.node q := by
  unfold restoreArchive at h
  dsimp only at h
  split at h
  · cases (Prod.mk.inj h).2
  next made hmade =>
    obtain ⟨rfl, -⟩ := Prod.mk.inj h
    have hnode := Tree.node_mkdirs hmade
    have hdir : made.node path = some .dir := by
      rw [hnode, if_pos (List.prefix_refl _)]
    rw [Tree.node_graft hdir, archived]
    by_cases hq : path <+: q
    · by_cases heq : q = path
      · rw [if_neg fun h => h.2 heq, if_pos hq, if_pos heq, heq, hdir]
      · rw [if_pos ⟨hq, heq⟩, if_pos hq, if_neg heq]
    · rw [if_neg fun h => hq h.1, if_neg hq, hnode, Tree.node_removeTree]
      split
      · rfl
      · rw [if_neg fun h => hq h.1]

/-- The staging directory is another one in the same directory. -/
theorem stagingPath_concat (dir : Path) (name : String) :
    ∃ name' ≠ name, stagingPath (dir ++ [name]) = dir ++ [name'] := by
  refine ⟨"." ++ name ++ ".staging", fun h => ?_, by simp [stagingPath]⟩
  have hlen := congrArg String.length h
  rw [String.length_append, String.length_append] at hlen
  have hdot : "".length + 1 ≤ ".".length := by decide
  omega

theorem not_prefix_sibling {dir : Path} {a b : String} (h : a ≠ b) (rest : Path) :
    ¬ dir ++ [a] <+: dir ++ [b] ++ rest := by
  rw [List.append_assoc, List.prefix_append_right_inj]
  simpa using h

/-- A directory that takes the place of another one. -/
theorem swapArchive_node (h : swapArchive env t path data = (t', true)) (q : Path) :
    t'.node q =
      if path <+: q then archived env path data q
      else if stagingPath path <+: q then none
      else if q <+: path then some .dir else t.node q := by
  unfold swapArchive at h
  dsimp only at h
  split at h
  · cases (Prod.mk.inj h).2
  next hne =>
  split at h
  · cases (Prod.mk.inj h).2
  next made hmade =>
  split at h
  · cases (Prod.mk.inj h).2
  next hok =>
  split at h
  · cases (Prod.mk.inj h).2
  next tree htree =>
  obtain ⟨rfl, -⟩ := Prod.mk.inj h
  obtain ⟨dir, name, rfl⟩ := (List.eq_nil_or_concat path).resolve_left hne
  obtain ⟨name', hname, hstaging⟩ := stagingPath_concat dir name
  simp only [List.concat_eq_append, hstaging] at hmade htree ⊢
  have hmadeNode := Tree.node_mkdirs hmade
  have hdir : made.node (dir ++ [name']) = some .dir := by
    rw [hmadeNode, if_pos (List.prefix_refl _)]
  rw [Tree.node_rename htree]
  by_cases hq : dir ++ [name] <+: q
  · obtain ⟨rest, rfl⟩ := hq
    rw [if_pos (List.prefix_append _ _), if_pos (List.prefix_append _ _), List.drop_left,
      Tree.node_removeTree, if_neg fun h => not_prefix_sibling hname.symm rest h.1,
      Tree.node_graft hdir, archived]
    by_cases hrest : rest = []
    · rw [if_neg (by simp [hrest]), if_pos (by simp [hrest]), hrest, List.append_nil, hdir]
    · rw [if_pos ⟨List.prefix_append _ _, by simpa using hrest⟩, if_neg (by simpa using hrest),
        List.drop_left, List.drop_left]
  · rw [if_neg hq, if_neg hq]
    by_cases hs : dir ++ [name'] <+: q
    · rw [if_pos hs, if_pos hs]
    · have hiff : q <+: dir ++ [name'] ↔ q <+: dir ++ [name] := by
        have h1 : q ≠ dir ++ [name'] := fun h => hs (h ▸ List.prefix_refl _)
        have h2 : q ≠ dir ++ [name] := fun h => hq (h ▸ List.prefix_refl _)
        rw [List.prefix_concat_iff, List.prefix_concat_iff, or_iff_right h1, or_iff_right h2]
      have hne' : q ≠ dir ++ [name'] := fun h => hs (h ▸ List.prefix_refl _)
      rw [if_neg hs, if_neg hs, Tree.node_removeTree, if_neg fun h => hq h.1,
        Tree.node_graft hdir, if_neg fun h => hs h.1, hmadeNode]
      simp only [hiff]
      split
      · rfl
      · rw [Tree.node_removeTree, if_neg fun h => hs h.1, Tree.node_unlink,
          if_neg fun h => hne' (And.left h)]

/-! ## Rows -/

/-- What a row has under a path. -/
def Row.holds (env : Env Data) (jobPath : Path) (r : Row Data) (q : Path) : Option (Node Data) :=
  if r.isArchive then
    if r.extractPath jobPath <+: q then archived env (r.extractPath jobPath) r.data q else none
  else if q = r.cachePath jobPath then some (.file r.data) else none

/-- What the restoration of a row leaves under a path, if it has to do with it; with a staging
directory (`swap`) or without. -/
def Row.effect (env : Env Data) (swap : Bool) (jobPath : Path) (r : Row Data) (q : Path) :
    Option (Option (Node Data)) :=
  if r.isArchive then
    let path := r.extractPath jobPath
    if path <+: q then some (archived env path r.data q)
    else if swap ∧ stagingPath path <+: q then some none
    else if q <+: path then some (some .dir) else none
  else if q = r.cachePath jobPath then some (some (.file r.data))
  else if q <+: r.cachePath jobPath then some (some .dir) else none

theorem writeFile_node {r : Row Data} {jobPath : Path} {swap : Bool} (ha : ¬ r.isArchive)
    (h : t.writeFile (r.cachePath jobPath) r.data = some t') (q : Path) :
    t'.node q = (r.effect env swap jobPath q).getD (t.node q) := by
  rw [Tree.node_writeFile h, Row.effect, if_neg ha]
  split
  · rfl
  · split <;> rfl

/-- One turn of a job that goes well. -/
theorem restoreRow_node {jobPath : Path} {jobName : String} {st : Restoring Data} {r : Row Data}
    (h : (restoreRow env jobPath jobName st r).ret = true) (q : Path) :
    st.ret = true ∧ (restoreRow env jobPath jobName st r).tree.node q =
      ((if r.jobName = jobName then r.effect env false jobPath q else none).getD
        (st.tree.node q)) := by
  unfold restoreRow at h ⊢
  by_cases ha : r.isArchive
  · rw [if_pos ha] at h ⊢
    dsimp only at h ⊢
    by_cases hjob : r.jobName = jobName
    · rw [if_neg (by simpa using hjob)] at h ⊢
      rw [if_pos hjob]
      cases hr : restoreArchive env st.tree (r.extractPath jobPath) r.data with
      | mk tree ok =>
        rw [hr] at h
        obtain ⟨hret, rfl⟩ := Bool.and_eq_true_iff.mp h
        refine ⟨hret, ?_⟩
        show tree.node q = _
        rw [restoreArchive_node hr, Row.effect, if_pos ha]
        dsimp only
        split
        · rfl
        · simp only [Bool.false_eq_true, false_and, if_false]
          split <;> rfl
    · rw [if_pos hjob] at h ⊢
      rw [if_neg hjob]
      exact ⟨h, rfl⟩
  · rw [if_neg ha] at h ⊢
    by_cases hjob : r.jobName = jobName
    · rw [if_neg (by simpa using hjob)] at h ⊢
      rw [if_pos hjob]
      cases hw : st.tree.writeFile (r.cachePath jobPath) r.data with
      | none =>
        rw [hw] at h
        cases h
      | some tree =>
        rw [hw] at h
        exact ⟨h, writeFile_node ha hw q⟩
    · rw [if_pos hjob] at h ⊢
      rw [if_neg hjob]
      exact ⟨h, rfl⟩

/-- A job that has gone well has left what its last row with an effect leaves. -/
theorem restoreRows_node {jobPath : Path} {jobName : String} {rows : List (Row Data)}
    (h : (restoreRows env jobPath jobName t rows).ret = true) (q : Path) :
    (restoreRows env jobPath jobName t rows).tree.node q =
      (((rows.filter (·.jobName = jobName)).reverse.findSome? fun r =>
        r.effect env false jobPath q).getD (t.node q)) := by
  have hrun := (read_foldl_of_ok (fun st : Restoring Data => st.ret = true)
    (fun st => st.tree.node q)
    (fun r => if r.jobName = jobName then r.effect env false jobPath q else none)
    (fun st r hr => restoreRow_node hr q) h).2
  refine hrun.trans ?_
  rw [findSome?_reverse_filter]
  simp only [decide_eq_true_eq]

/-- One turn of the scheduler that goes well. -/
theorem generateRow_node {st : Generating Data} {r : Row Data}
    (h : (generateRow env st r).failedRestores = []) (q : Path) :
    st.failedRestores = [] ∧ (generateRow env st r).tree.node q =
      ((r.effect env true (pluginPath r.pluginId) q).getD (st.tree.node q)) := by
  unfold generateRow at h ⊢
  by_cases ha : r.isArchive
  · simp only [if_pos ha] at h ⊢
    cases hs : swapArchive env st.tree (r.extractPath (pluginPath r.pluginId)) r.data with
    | mk tree ok =>
      rw [hs] at h
      cases ok with
      | false => cases h
      | true =>
        refine ⟨h, ?_⟩
        show tree.node q = _
        rw [swapArchive_node hs, Row.effect, if_pos ha]
        dsimp only
        split
        · rfl
        · simp only [true_and]
          split
          · rfl
          · split <;> rfl
  · simp only [if_neg ha] at h ⊢
    cases hw : st.tree.writeFile (r.cachePath (pluginPath r.pluginId)) r.data with
    | none =>
      rw [hw] at h
      cases h
    | some tree =>
      rw [hw] at h
      exact ⟨h, writeFile_node ha hw q⟩

theorem generateRows_node {rows : List (Row Data)}
    (h : (generateRows env t rows).failedRestores = []) (q : Path) :
    (generateRows env t rows).tree.node q =
      ((rows.reverse.findSome? fun r => r.effect env true (pluginPath r.pluginId) q).getD
        (t.node q)) :=
  (read_foldl_of_ok (fun st : Generating Data => st.failedRestores = [])
    (fun st => st.tree.node q) (fun r : Row Data => r.effect env true (pluginPath r.pluginId) q)
    (fun _ _ hr => generateRow_node hr q) h).2

/-! ## The clean-up -/

theorem prefix_asPosix {p : Path} (h : p <+: q) : asPosix p <+: asPosix q := by
  obtain ⟨rest, rfl⟩ := h
  unfold asPosix
  by_cases hp : p = []
  · rw [if_pos hp]
    split
    · exact List.prefix_refl _
    next hne =>
      rw [hp, List.nil_append] at hne ⊢
      obtain ⟨name, rest, rfl⟩ := List.exists_cons_of_ne_nil hne
      exact ⟨name.toList ++ rest.flatMap fun name => '/' :: name.toList, rfl⟩
  · rw [if_neg hp, if_neg (by simp [hp]), List.flatMap_append]
    exact List.prefix_append _ _

theorem spared_iff {ignoredDirs : List Path} :
    spared ignoredDirs q = true ↔ ∃ dir ∈ ignoredDirs, asPosix dir <+: asPosix q := by
  simp [spared, List.any_eq_true]

theorem spared_of_above {ignoredDirs : List Path} {dir : Path} (hdir : dir ∈ ignoredDirs)
    (h : dir <+: q) : spared ignoredDirs q = true :=
  spared_iff.mpr ⟨dir, hdir, prefix_asPosix h⟩

/-- What is below a path that is spared is spared. -/
theorem spared_mono {ignoredDirs : List Path} {p : Path} (hp : spared ignoredDirs p = true)
    (h : p <+: q) : spared ignoredDirs q = true := by
  obtain ⟨dir, hdir, hpre⟩ := spared_iff.mp hp
  exact spared_iff.mpr ⟨dir, hdir, hpre.trans (prefix_asPosix h)⟩

/-- The clean-up may not touch this entry. -/
def Safe (cached ignoredDirs : List Path) (q : Path) (n : Node Data) : Prop :=
  spared ignoredDirs q = true ∨ (q ∈ cached ∧ ∃ data, n = .file data)

variable {cached ignoredDirs : List Path} {jobPath : Path} {n : Node Data}

/-- Nothing is there that was not there before, and what is safe stays. -/
def Swept (cached ignoredDirs : List Path) (t t' : Tree String Data) : Prop :=
  ∀ q n, (t'.node q = some n → t.node q = some n) ∧
    (Safe cached ignoredDirs q n → t.node q = some n → t'.node q = some n)

theorem Swept.refl (t : Tree String Data) : Swept cached ignoredDirs t t :=
  fun _ _ => ⟨id, fun _ => id⟩

theorem Swept.trans {t'' : Tree String Data} (h : Swept cached ignoredDirs t t')
    (h' : Swept cached ignoredDirs t' t'') : Swept cached ignoredDirs t t'' :=
  fun q n => ⟨fun hn => (h q n).1 ((h' q n).1 hn), fun hs hn => (h' q n).2 hs ((h q n).2 hs hn)⟩

/-- A file that is not spared and not cached. -/
theorem swept_unlink (hs : ¬ spared ignoredDirs path = true) (hc : path ∉ cached) :
    Swept cached ignoredDirs t (t.unlink path) := by
  intro q n
  rw [Tree.node_unlink]
  constructor
  · intro h
    split at h
    · cases h
    · exact h
  · intro hsafe hn
    rw [if_neg]
    · exact hn
    · rintro ⟨rfl, -⟩
      exact hsafe.elim hs fun h => hc h.1

/-- An empty directory that is not spared. -/
theorem swept_removeTree (hs : ¬ spared ignoredDirs path = true) (he : t.isEmpty path = true) :
    Swept cached ignoredDirs t (t.removeTree path) := by
  intro q n
  rw [Tree.node_removeTree]
  constructor
  · intro h
    split at h
    · cases h
    · exact h
  · intro hsafe hn
    rw [if_neg]
    · exact hn
    rintro ⟨hpre, hdir⟩
    by_cases hq : q = path
    · subst hq
      rcases hsafe with h | ⟨-, data, rfl⟩
      · exact hs h
      · rw [hn] at hdir
        cases hdir
    · rw [Tree.isEmpty_iff.mp he q hpre hq] at hn
      cases hn

theorem swept_sweepPath :
    Swept cached ignoredDirs t (sweepPath env cached ignoredDirs jobPath t path) := by
  unfold sweepPath
  split
  · exact Swept.refl t
  next hs =>
  split
  next h => exact swept_unlink hs h.2
  next =>
    split
    next h => exact swept_removeTree hs h.2.2
    next => exact Swept.refl t

theorem swept_foldl (paths : List Path) :
    Swept cached ignoredDirs t (paths.foldl (sweepPath env cached ignoredDirs jobPath) t) := by
  induction paths generalizing t with
  | nil => exact Swept.refl t
  | cons path paths ih => exact swept_sweepPath.trans ih

theorem swept_sweep : Swept cached ignoredDirs t (sweep env cached ignoredDirs jobPath t) :=
  swept_foldl _

/-- The directory of a file that is not spared is not spared. -/
theorem not_spared_dropLast (h : ¬ spared ignoredDirs path = true) :
    ¬ spared ignoredDirs path.dropLast = true :=
  fun hs => h (spared_mono hs (List.dropLast_prefix path))

theorem swept_sweepAll {paths : List Path} :
    Swept cached ignoredDirs t (sweepAll env cached ignoredDirs jobPath t paths) := by
  induction paths generalizing t with
  | nil => exact Swept.refl t
  | cons path paths ih =>
    rw [sweepAll]
    split
    · exact ih
    next hs =>
    split
    next h =>
      have hunlink : Swept cached ignoredDirs t (t.unlink path) := swept_unlink hs h.1
      dsimp only
      split
      next hempty =>
        have hremove := hunlink.trans
          (swept_removeTree (not_spared_dropLast hs) hempty.2)
        split
        · exact hremove
        · exact hremove.trans ih
      next => exact hunlink.trans ih
    next =>
      split
      next h => exact (swept_removeTree hs h.2).trans ih
      next => exact ih

/-! ## Both functions -/

theorem mem_restoreRow {jobName : String} {st : Restoring Data} {r : Row Data} {dir : Path}
    (h : dir ∈ st.ignoredDirs) : dir ∈ (restoreRow env jobPath jobName st r).ignoredDirs := by
  unfold restoreRow
  split
  · dsimp only
    split
    · exact List.mem_cons_of_mem _ h
    · split
      · exact List.mem_cons_of_mem _ h
      · exact h
  · split
    · exact h
    · split
      · exact h
      · exact List.mem_cons_of_mem _ h

/-- Where a job has gone well, the directories of its archives are spared. -/
theorem mem_ignoredDirs {jobName : String} {rows : List (Row Data)}
    (h : (restoreRows env jobPath jobName t rows).ret = true) {r : Row Data} (hr : r ∈ rows)
    (hjob : r.jobName = jobName) (ha : r.isArchive = true) :
    r.extractPath jobPath ∈ (restoreRows env jobPath jobName t rows).ignoredDirs := by
  induction rows using List.reverseRecOn with
  | nil => cases hr
  | append_singleton rows r' ih =>
    have hsplit : restoreRows env jobPath jobName t (rows ++ [r']) =
        restoreRow env jobPath jobName (restoreRows env jobPath jobName t rows) r' := by
      rw [restoreRows, List.foldl_append]
      rfl
    rw [hsplit] at h ⊢
    rcases List.mem_append.mp hr with hr | hr
    · exact mem_restoreRow (ih (restoreRow_node h []).1 hr)
    · obtain rfl := List.mem_singleton.mp hr
      unfold restoreRow at h ⊢
      rw [if_pos ha] at h ⊢
      dsimp only at h ⊢
      rw [if_neg (by simpa using hjob)] at h ⊢
      obtain ⟨-, hok⟩ := Bool.and_eq_true_iff.mp h
      dsimp only at hok ⊢
      rw [if_pos hok]
      exact List.mem_cons_self

/-- What a row holds is safe, if its archive's directory is spared and its file is cached. -/
theorem safe_of_holds {r : Row Data} (hold : r.holds env jobPath q = some n)
    (ha : r.isArchive = true → r.extractPath jobPath ∈ ignoredDirs)
    (hc : r.cachePath jobPath ∈ cached) : Safe cached ignoredDirs q n := by
  unfold Row.holds at hold
  split at hold
  next harchive =>
    split at hold
    next hpre => exact .inl (spared_of_above (ha harchive) hpre)
    next => cases hold
  next =>
    split at hold
    next hq => exact .inr ⟨hq ▸ hc, r.data, (Option.some.inj hold).symm⟩
    next => cases hold

/-- Everything that a row has is there. -/
def Row.Present (env : Env Data) (jobPath : Path) (t : Tree String Data) (r : Row Data) : Prop :=
  ∀ q n, r.holds env jobPath q = some n → t.node q = some n

/-- Under each path of a row, the last row that has to do with it leaves what the row has there. -/
def Undisturbed (env : Env Data) (swap : Bool) (jobPathOf : Row Data → Path)
    (rows : List (Row Data)) : Prop :=
  ∀ r ∈ rows, ∀ q n, r.holds env (jobPathOf r) q = some n →
    (rows.reverse.findSome? fun r => r.effect env swap (jobPathOf r) q) = some (some n)

theorem effect_of_holds {r : Row Data} {swap : Bool} (h : r.holds env jobPath q = some n) :
    r.effect env swap jobPath q = some (some n) := by
  unfold Row.holds at h
  unfold Row.effect
  split at h
  next ha =>
    split at h
    next hpre => rw [if_pos ha, if_pos hpre, h]
    next => cases h
  next ha =>
    split at h
    next hq => rw [if_neg ha, if_pos hq, h]
    next => cases h

/-- The rows are there if the last effects are what they have. -/
theorem present_iff_undisturbed {swap : Bool} {jobPathOf : Row Data → Path}
    {rows : List (Row Data)} {t' : Tree String Data}
    (hnode : ∀ q, t.node q =
      ((rows.reverse.findSome? fun r => r.effect env swap (jobPathOf r) q).getD (t'.node q))) :
    (∀ r ∈ rows, r.Present env (jobPathOf r) t) ↔ Undisturbed env swap jobPathOf rows := by
  refine forall₂_congr fun r hr => forall₂_congr fun q n => imp_congr_right fun hold => ?_
  obtain ⟨x, hx⟩ : ∃ x, (rows.reverse.findSome? fun r => r.effect env swap (jobPathOf r) q) =
      some x := exists_findSome?_reverse hr (effect_of_holds hold)
  rw [hnode, hx, Option.getD_some, Option.some.injEq]

/-- The clean-up does not change what of the rows is there. -/
theorem present_iff_of_swept (jobPathOf : Row Data → Path) {rows : List (Row Data)}
    (hswept : Swept cached ignoredDirs t t')
    (hsafe : ∀ r ∈ rows, ∀ q n, r.holds env (jobPathOf r) q = some n →
      Safe cached ignoredDirs q n) :
    (∀ r ∈ rows, r.Present env (jobPathOf r) t') ↔ ∀ r ∈ rows, r.Present env (jobPathOf r) t :=
  forall₂_congr fun r hr => forall₂_congr fun q n => imp_congr_right fun hold =>
    ⟨(hswept q n).1, (hswept q n).2 (hsafe r hr q n hold)⟩

theorem restoreCache_present {jobName : String} {manual : Bool} {rows : List (Row Data)}
    (h : (restoreCache env jobPath jobName manual rows t).1 = true) :
    (∀ r ∈ rows.filter (·.jobName = jobName),
      r.Present env jobPath (restoreCache env jobPath jobName manual rows t).2) ↔
      Undisturbed env false (fun _ => jobPath) (rows.filter (·.jobName = jobName)) := by
  rw [← present_iff_undisturbed (restoreRows_node h)]
  unfold restoreCache
  dsimp only
  split
  next =>
    refine present_iff_of_swept (fun _ => jobPath) swept_sweep fun r hr q n hold => ?_
    obtain ⟨hr, hjob⟩ := List.mem_filter.mp hr
    exact safe_of_holds hold (fun ha => mem_ignoredDirs h hr (of_decide_eq_true hjob) ha)
      (List.mem_map_of_mem (f := fun r : Row Data => r.cachePath jobPath) hr)
  next => exact Iff.rfl

theorem generateCaches_present {rows : List (Row Data)}
    (h : (generateCaches env rows t).1 = []) :
    (∀ r ∈ rows, r.Present env (pluginPath r.pluginId) (generateCaches env rows t).2) ↔
      Undisturbed env true (fun r => pluginPath r.pluginId) rows := by
  have hrows := present_iff_undisturbed (generateRows_node h)
  rw [← hrows]
  unfold generateCaches
  dsimp only
  split
  · exact Iff.rfl
  · split
    · refine present_iff_of_swept (fun r => pluginPath r.pluginId) swept_sweepAll
        fun r hr q n hold => ?_
      refine safe_of_holds hold (fun ha => ?_) ?_
      · exact List.mem_map.mpr ⟨r, List.mem_filter.mpr ⟨hr, ha⟩, rfl⟩
      · exact List.mem_map.mpr ⟨r, hr, rfl⟩
    · exact Iff.rfl

end

/-- **Cache restore.** Where a restoration reports no failure, all that the restored rows have
is there exactly if, under each path of a row, the last row that has to do with it leaves what the
row has there. -/
theorem cache_complete_iff {Data : Type} (env : Env Data) :
    (∀ jobPath jobName manual rows t,
      (restoreCache env jobPath jobName manual rows t).1 = true →
        ((∀ r ∈ rows.filter (·.jobName = jobName),
          r.Present env jobPath (restoreCache env jobPath jobName manual rows t).2) ↔
          Undisturbed env false (fun _ => jobPath) (rows.filter (·.jobName = jobName)))) ∧
      ∀ rows t, (generateCaches env rows t).1 = [] →
        ((∀ r ∈ rows, r.Present env (pluginPath r.pluginId) (generateCaches env rows t).2) ↔
          Undisturbed env true (fun r => pluginPath r.pluginId) rows) :=
  ⟨fun _ _ _ _ _ h => restoreCache_present h, fun _ _ h => generateCaches_present h⟩

/-! ## A file and an archive in one directory -/

/-- The bytes of a file: a text, or an archive with some files. -/
inductive Content
  | text (text : String)
  | archive (files : List (Path × String))
  deriving DecidableEq

/-- An archive that is written out; a text is none. -/
def filesEnv : Env Content where
  extract := fun data =>
    match data with
    | .text _ => (Tree.root, false)
    | .archive files =>
      (files.foldl (fun t file => (t.writeFile file.1 (.text file.2)).getD t) Tree.root, true)
  linkedFile := fun _ _ => false

def listRow : Row Content := ⟨"download", "geo", none, "ip.list", .text "192.0.2.7"⟩

/-- An archive that is not of a folder, and so of the directory that it would be in. -/
def archiveRow : Row Content :=
  ⟨"download", "geo", none, "db.tgz", .archive [(["geo.db"], "city")]⟩

theorem archive_removes_file :
    (restoreCache filesEnv (pluginPath "geo") "download" true [listRow, archiveRow] Tree.root).1 =
        true ∧
      (generateCaches filesEnv [listRow, archiveRow] Tree.root).1 = [] ∧
      ¬ (∀ r ∈ [listRow, archiveRow].filter (·.jobName = "download"),
        r.Present filesEnv (pluginPath "geo") (restoreCache filesEnv (pluginPath "geo") "download"
          true [listRow, archiveRow] Tree.root).2) ∧
      ¬ ∀ r ∈ [listRow, archiveRow], r.Present filesEnv (pluginPath r.pluginId)
        (generateCaches filesEnv [listRow, archiveRow] Tree.root).2 := by
  have hholds : listRow.holds filesEnv (pluginPath "geo")
      ["var", "cache", "bunkerweb", "geo", "ip.list"] = some (.file (.text "192.0.2.7")) := by
    decide +kernel
  refine ⟨by decide +kernel, by decide +kernel, fun h => ?_, fun h => ?_⟩
  · have hmem : listRow ∈ [listRow, archiveRow].filter (·.jobName = "download") :=
      List.mem_filter.mpr ⟨List.mem_cons_self, by decide⟩
    exact absurd (h listRow hmem _ _ hholds) (by decide +kernel)
  · exact absurd (h listRow List.mem_cons_self _ _ hholds) (by decide +kernel)

/-- The other order. -/
theorem cache_complete_geo :
    ((∀ r ∈ [archiveRow, listRow].filter (·.jobName = "download"),
        r.Present filesEnv (pluginPath "geo") (restoreCache filesEnv (pluginPath "geo") "download"
          true [archiveRow, listRow] Tree.root).2) ↔
      Undisturbed filesEnv false (fun _ => pluginPath "geo")
        ([archiveRow, listRow].filter (·.jobName = "download"))) ∧
    ((∀ r ∈ [archiveRow, listRow], r.Present filesEnv (pluginPath r.pluginId)
        (generateCaches filesEnv [archiveRow, listRow] Tree.root).2) ↔
      Undisturbed filesEnv true (fun r => pluginPath r.pluginId) [archiveRow, listRow]) :=
  ⟨(cache_complete_iff filesEnv).1 (pluginPath "geo") "download" true [archiveRow, listRow]
      Tree.root (by decide +kernel),
    (cache_complete_iff filesEnv).2 [archiveRow, listRow] Tree.root (by decide +kernel)⟩

end BunkerWeb.Cache
