import Mathlib.Data.List.Dedup
import Mathlib.Data.List.Infix

/-!
# A tree of directories

What is under each path, in a tree in which every entry has a directory above it. The operations are
those of a program that makes, fills, replaces and empties directories; each has a lemma that says
what it leaves under every path. A link is an entry of its own that nothing is below.
-/

namespace Lib.Directory

variable {α δ : Type}

inductive Node (δ : Type)
  | dir
  | file (data : δ)
  | link (text : δ)
  deriving DecidableEq

namespace Node

def isDir : Option (Node δ) → Bool
  | some .dir => true
  | _ => false

@[simp] theorem isDir_iff {n : Option (Node δ)} : isDir n = true ↔ n = some .dir := by
  cases n with
  | none => simp [isDir]
  | some n => cases n <;> simp [isDir]

/-- Nothing, or a directory. -/
def isFree : Option (Node δ) → Bool
  | none => true
  | some .dir => true
  | _ => false

theorem isFree_iff {n : Option (Node δ)} : isFree n = true ↔ n = none ∨ n = some .dir := by
  cases n with
  | none => simp [isFree]
  | some n => cases n <;> simp [isFree]

end Node

/-- The entries by their paths, of which there are finitely many. -/
structure Tree (α δ : Type) where
  node : List α → Option (Node δ)
  names : List (List α)
  listed : ∀ p, (node p).isSome → p ∈ names
  grown : ∀ p a, (node (p ++ [a])).isSome → node p = some .dir

namespace Tree

variable {t t' : Tree α δ} {p q : List α}

/-- A directory without entries. -/
def root : Tree α δ where
  node := fun p => if p.isEmpty then some .dir else none
  names := [[]]
  listed := fun p hp => by cases p <;> simp at hp ⊢
  grown := fun p a hp => by simp at hp

/-- What is above an entry is a directory. -/
theorem dir_above (t : Tree α δ) (hq : (t.node q).isSome) (hp : p <+: q) (hne : p ≠ q) :
    t.node p = some .dir := by
  obtain ⟨s, rfl⟩ := hp
  induction s using List.reverseRecOn with
  | nil => simp at hne
  | append_singleton s a ih =>
    rw [← List.append_assoc] at hq
    have hdir := t.grown _ a hq
    by_cases hs : s = []
    · simpa [hs] using hdir
    · exact ih (by rw [hdir]; rfl) (by simpa using hs)

theorem prefix_dropLast_iff (hp : p ≠ []) : q <+: p.dropLast ↔ q <+: p ∧ q ≠ p := by
  constructor
  · intro h
    refine ⟨h.trans (List.dropLast_prefix p), ?_⟩
    rintro rfl
    have hlen := h.length_le
    have hpos := List.length_pos_of_ne_nil hp
    rw [List.length_dropLast] at hlen
    omega
  · rintro ⟨⟨s, rfl⟩, hne⟩
    have hs : s ≠ [] := fun hs => hne (by simp [hs])
    rw [List.dropLast_append_of_ne_nil hs]
    exact List.prefix_append _ _

variable [DecidableEq α]

/-- The entries below a directory. -/
def below (t : Tree α δ) (top : List α) : List (List α) :=
  (t.names.filter fun q => top <+: q ∧ q ≠ top ∧ (t.node q).isSome).dedup

theorem mem_below {top : List α} :
    q ∈ t.below top ↔ top <+: q ∧ q ≠ top ∧ (t.node q).isSome := by
  rw [below, List.mem_dedup, List.mem_filter]
  simp only [decide_eq_true_eq]
  exact ⟨And.right, fun h => ⟨t.listed q h.2.2, h⟩⟩

/-- The directory has no entries. -/
def isEmpty (t : Tree α δ) (p : List α) : Bool :=
  (t.below p).all fun q => q.dropLast ≠ p

theorem isEmpty_iff : t.isEmpty p = true ↔ ∀ q, p <+: q → q ≠ p → t.node q = none := by
  rw [isEmpty, List.all_eq_true]
  simp only [mem_below, decide_eq_true_eq]
  constructor
  · rintro h q ⟨s, rfl⟩ hne
    by_contra hsome
    have hq : (t.node (p ++ s)).isSome := Option.isSome_iff_ne_none.mpr hsome
    cases s with
    | nil => simp at hne
    | cons a s =>
      -- The first step below `p` is an entry of `p`.
      have ha : (t.node (p ++ [a])).isSome := by
        by_cases hs : s = []
        · rwa [hs] at hq
        · rw [t.dir_above hq ⟨s, by simp⟩ (by simpa using Ne.symm hs)]
          rfl
      exact h (p ++ [a]) ⟨⟨[a], rfl⟩, by simp, ha⟩ (by simp)
  · rintro h q ⟨hp, hne, hq⟩
    rw [h q hp hne] at hq
    cases hq

/-! ## Making and removing -/

/-- `p` and the directories above it are made; fails where another entry stands. -/
def mkdirs (t : Tree α δ) (p : List α) : Option (Tree α δ) :=
  if p.inits.all fun q => Node.isFree (t.node q) then
    some
      { node := fun q => if q <+: p then some .dir else t.node q
        names := p.inits ++ t.names
        listed := fun q hq => by
          rw [List.mem_append, List.mem_inits]
          by_cases hp : q <+: p
          · exact .inl hp
          · rw [if_neg hp] at hq
            exact .inr (t.listed q hq)
        grown := fun q a hq => by
          by_cases hp : q <+: p
          · rw [if_pos hp]
          · have hne : ¬ q ++ [a] <+: p := fun h => hp ((List.prefix_append q [a]).trans h)
            rw [if_neg hne] at hq
            rw [if_neg hp]
            exact t.grown q a hq }
  else none

theorem node_mkdirs (h : t.mkdirs p = some t') (q : List α) :
    t'.node q = if q <+: p then some .dir else t.node q := by
  unfold mkdirs at h
  split at h
  · cases h
    rfl
  · cases h

/-- Nothing but directories stands where directories have been made. -/
theorem free_of_mkdirs (h : t.mkdirs p = some t') (hq : q <+: p) :
    t.node q = none ∨ t.node q = some .dir := by
  unfold mkdirs at h
  split at h
  next hall =>
    exact Node.isFree_iff.mp (List.all_eq_true.mp hall q ((List.mem_inits q p).mpr hq))
  next => cases h

/-- `p` and all below it are removed, if it is a directory. -/
def removeTree (t : Tree α δ) (p : List α) : Tree α δ :=
  if Node.isDir (t.node p) then
    { node := fun q => if p <+: q then none else t.node q
      names := t.names
      listed := fun q hq => by
        split at hq
        · cases hq
        · exact t.listed q hq
      grown := fun q a hq => by
        split at hq
        next => cases hq
        next hp =>
          rw [if_neg fun h => hp (h.trans (List.prefix_append q [a]))]
          exact t.grown q a hq }
  else t

theorem node_removeTree (t : Tree α δ) (p q : List α) :
    (t.removeTree p).node q =
      if p <+: q ∧ Node.isDir (t.node p) then none else t.node q := by
  unfold removeTree
  by_cases hdir : Node.isDir (t.node p) = true
  · simp [hdir]
  · rw [if_neg hdir, if_neg fun h => hdir h.2]

/-- The entry goes, if it is no directory. -/
def unlink (t : Tree α δ) (p : List α) : Tree α δ :=
  if hdir : Node.isDir (t.node p) then t
  else
    { node := fun q => if q = p then none else t.node q
      names := t.names
      listed := fun q hq => by
        split at hq
        · cases hq
        · exact t.listed q hq
      grown := fun q a hq => by
        split at hq
        next => cases hq
        next =>
          have hq' := t.grown q a hq
          have hne : q ≠ p := fun h => hdir (by rw [← h, hq']; rfl)
          rw [if_neg hne]
          exact hq' }

theorem node_unlink (t : Tree α δ) (p q : List α) :
    (t.unlink p).node q = if q = p ∧ ¬ Node.isDir (t.node p) then none else t.node q := by
  unfold unlink
  by_cases hdir : Node.isDir (t.node p) = true
  · simp [hdir]
  · rw [dif_neg hdir]
    simp [hdir]

/-! ## Filling -/

/-- An entry in a directory, in the place of one that is no directory. -/
def put (t : Tree α δ) (p : List α) (n : Node δ) : Tree α δ :=
  if h : p ≠ [] ∧ Node.isDir (t.node p.dropLast) ∧ ¬ Node.isDir (t.node p) then
    { node := fun q => if q = p then some n else t.node q
      names := p :: t.names
      listed := fun q hq => by
        split at hq
        next h => exact h ▸ List.mem_cons_self
        next => exact List.mem_cons_of_mem _ (t.listed q hq)
      grown := fun q a hq => by
        split at hq
        next heq =>
          have hq' : q = p.dropLast := by rw [← heq, List.dropLast_concat]
          have hne : q ≠ p := fun he => by simpa [he] using congrArg List.length heq
          rw [if_neg hne, hq']
          exact Node.isDir_iff.mp h.2.1
        next =>
          have hdir := t.grown q a hq
          have hne : q ≠ p := fun he => h.2.2 (by rw [← he, hdir]; rfl)
          rw [if_neg hne]
          exact hdir }
  else t

/-- A file, with the directories above it; fails on a directory. -/
def writeFile (t : Tree α δ) (p : List α) (data : δ) : Option (Tree α δ) :=
  if p = [] ∨ Node.isDir (t.node p) then none
  else (t.mkdirs p.dropLast).map (·.put p (.file data))

theorem node_writeFile {data : δ} (h : t.writeFile p data = some t') (q : List α) :
    t'.node q =
      if q = p then some (.file data) else if q <+: p then some .dir else t.node q := by
  unfold writeFile at h
  split at h
  · cases h
  next hnot =>
  rw [not_or] at hnot
  obtain ⟨t₁, ht₁, rfl⟩ := Option.map_eq_some_iff.mp h
  have hp : ¬ p <+: p.dropLast := fun h => ((prefix_dropLast_iff hnot.1).mp h).2 rfl
  have hok : p ≠ [] ∧ Node.isDir (t₁.node p.dropLast) = true ∧ ¬ Node.isDir (t₁.node p) = true := by
    refine ⟨hnot.1, ?_, ?_⟩
    · rw [node_mkdirs ht₁, if_pos (List.prefix_refl _)]
      rfl
    · rw [node_mkdirs ht₁, if_neg hp]
      exact hnot.2
  rw [put, dif_pos hok]
  show (if q = p then some (Node.file data) else t₁.node q) = _
  by_cases hq : q = p
  · rw [if_pos hq, if_pos hq]
  · rw [if_neg hq, if_neg hq, node_mkdirs ht₁]
    have hiff : q <+: p.dropLast ↔ q <+: p :=
      (prefix_dropLast_iff hnot.1).trans (and_iff_left hq)
    simp only [hiff]

/-- Another tree below a directory, in the place of what is there. -/
def graft (t : Tree α δ) (p : List α) (s : Tree α δ) : Tree α δ :=
  if hdir : Node.isDir (t.node p) then
    { node := fun q => if p <+: q ∧ q ≠ p then s.node (q.drop p.length) else t.node q
      names := s.names.map (p ++ ·) ++ t.names
      listed := fun q hq => by
        rw [List.mem_append]
        split at hq
        next h =>
          obtain ⟨⟨r, rfl⟩, -⟩ := h
          rw [List.drop_left] at hq
          exact .inl (List.mem_map_of_mem (s.listed r hq))
        next => exact .inr (t.listed q hq)
      grown := fun q a hq => by
        by_cases hp : p <+: q
        · have hpa : p <+: q ++ [a] ∧ q ++ [a] ≠ p :=
            ⟨hp.trans (List.prefix_append q [a]), fun h => by
              have hlen := hp.length_le
              rw [← h, List.length_append, List.length_singleton] at hlen
              omega⟩
          rw [if_pos hpa, List.drop_append_of_le_length hp.length_le] at hq
          have hs := s.grown _ a hq
          by_cases hqp : q = p
          · rw [if_neg fun h => h.2 hqp, hqp]
            exact Node.isDir_iff.mp hdir
          · rw [if_pos ⟨hp, hqp⟩]
            exact hs
        · have hpa : ¬ (p <+: q ++ [a] ∧ q ++ [a] ≠ p) := by
            rintro ⟨h, hne⟩
            rcases List.prefix_concat_iff.mp h with h | h
            · exact hne h.symm
            · exact hp h
          rw [if_neg hpa] at hq
          rw [if_neg fun h => hp h.1]
          exact t.grown q a hq }
  else t

theorem node_graft (hdir : t.node p = some .dir) (s : Tree α δ) (q : List α) :
    (t.graft p s).node q =
      if p <+: q ∧ q ≠ p then s.node (q.drop p.length) else t.node q := by
  unfold graft
  rw [dif_pos (Node.isDir_iff.mpr hdir)]

/-- A directory under another name, under which nothing is yet. -/
def rename (t : Tree α δ) (p p' : List α) : Option (Tree α δ) :=
  if h : Node.isDir (t.node p) ∧ t.node p' = none ∧ Node.isDir (t.node p'.dropLast) ∧ p' ≠ [] ∧
      ¬ p <+: p' then
    some
      { node := fun q =>
          if p' <+: q then t.node (p ++ q.drop p'.length)
          else if p <+: q then none else t.node q
        names := t.names.map (fun q => p' ++ q.drop p.length) ++ t.names
        listed := fun q hq => by
          rw [List.mem_append]
          split at hq
          next hp' =>
            obtain ⟨r, rfl⟩ := hp'
            rw [List.drop_left] at hq
            refine .inl (List.mem_map.mpr ⟨p ++ r, t.listed _ hq, ?_⟩)
            rw [List.drop_left]
          next =>
            split at hq
            · cases hq
            · exact .inr (t.listed q hq)
        grown := fun q a hq => by
          have hqa : q <+: q ++ [a] := List.prefix_append q [a]
          by_cases hp' : p' <+: q
          · rw [if_pos (hp'.trans hqa), List.drop_append_of_le_length hp'.length_le,
              ← List.append_assoc] at hq
            rw [if_pos hp']
            exact t.grown _ a hq
          rw [if_neg hp']
          by_cases heq : p' = q ++ [a]
          · -- `q` is the directory that the new name is in.
            have hpq : ¬ p <+: q := fun hpq => h.2.2.2.2 (heq ▸ hpq.trans hqa)
            rw [if_neg hpq]
            have hdir := Node.isDir_iff.mp h.2.2.1
            rwa [heq, List.dropLast_concat] at hdir
          · have hpa : ¬ p' <+: q ++ [a] := fun hpa =>
              (List.prefix_concat_iff.mp hpa).elim heq hp'
            rw [if_neg hpa] at hq
            split at hq
            · cases hq
            next hpq =>
              rw [if_neg fun hpq' => hpq (hpq'.trans hqa)]
              exact t.grown q a hq }
  else none

theorem node_rename {p' : List α} (h : t.rename p p' = some t') (q : List α) :
    t'.node q =
      if p' <+: q then t.node (p ++ q.drop p'.length)
      else if p <+: q then none else t.node q := by
  unfold rename at h
  split at h
  · cases h
    rfl
  · cases h

/-! ## Programs that write -/

end Tree

/-- What a program does: it makes directories, or puts an entry into one. -/
inductive Op (α δ : Type)
  | mkdirs (p : List α)
  | put (p : List α) (n : Node δ)

variable {t t' : Tree α δ} {p q top top' : List α}

/-- It is about what is below a directory. -/
def Op.Below (top : List α) : Op α δ → Prop
  | .mkdirs p => top <+: p
  | .put p _ => top <+: p ∧ p ≠ top

/-- It is about the directory itself or what is below it. -/
def Op.About (top : List α) : Op α δ → Prop
  | .mkdirs p => top <+: p
  | .put p _ => top <+: p

theorem apart_below (h : ¬ top <+: top') (h' : ¬ top' <+: top) (hq : top' <+: q) :
    ¬ q <+: top ∧ ¬ top <+: q :=
  ⟨fun hqt => h' (hq.trans hqt), fun htq => (List.prefix_or_prefix_of_prefix htq hq).elim h h'⟩

theorem prefix_dropLast (hp : top <+: p) (hne : p ≠ top) : top <+: p.dropLast := by
  have hnil : p ≠ [] := by
    rintro rfl
    exact hne (List.prefix_nil.mp hp).symm
  exact (Tree.prefix_dropLast_iff hnil).mpr ⟨hp, hne.symm⟩

variable [DecidableEq α]

/-- What fails is left undone. -/
def Op.step (t : Tree α δ) : Op α δ → Tree α δ
  | .mkdirs p => (t.mkdirs p).getD t
  | .put p n => t.put p n

namespace Op

/-- No other entry stands in the way. -/
def Free (t : Tree α δ) (p : List α) : Prop := ∀ q ∈ p.inits, Node.isFree (t.node q) = true

instance (t : Tree α δ) (p : List α) : Decidable (Free t p) := List.decidableBAll _ _

/-- There is a directory for it, and none in its place. -/
def Fits (t : Tree α δ) (p : List α) : Prop :=
  p ≠ [] ∧ Node.isDir (t.node p.dropLast) = true ∧ ¬ Node.isDir (t.node p) = true

instance (t : Tree α δ) (p : List α) : Decidable (Fits t p) := instDecidableAnd

theorem node_step_mkdirs (t : Tree α δ) (p q : List α) :
    (step t (.mkdirs p)).node q = if q <+: p ∧ Free t p then some .dir else t.node q := by
  rw [step]
  unfold Tree.mkdirs
  by_cases hfree : Free t p
  · rw [if_pos (List.all_eq_true.mpr hfree), Option.getD_some]
    simp only [hfree, and_true]
  · rw [if_neg fun hall => hfree (List.all_eq_true.mp hall), Option.getD_none,
      if_neg fun h => hfree h.2]

theorem node_step_put (t : Tree α δ) (p : List α) (n : Node δ) (q : List α) :
    (step t (.put p n)).node q = if q = p ∧ Fits t p then some n else t.node q := by
  show (t.put p n).node q = _
  unfold Tree.put
  split
  next hfits =>
    have hfits : Fits t p := hfits
    simp only [hfits, and_true]
  next hfits => exact (if_neg fun h => hfits h.2).symm

/-- Only what is above and below the directory is of concern. -/
theorem step_local {op : Op α δ} (hop : op.Below top)
    (h : ∀ q, q <+: top ∨ top <+: q → t.node q = t'.node q) (hq : q <+: top ∨ top <+: q) :
    (step t op).node q = (step t' op).node q := by
  cases op with
  | mkdirs p =>
    have hfree : Free t p ↔ Free t' p := forall₂_congr fun q' hq' => by
      rw [h q' (List.prefix_or_prefix_of_prefix ((List.mem_inits q' p).mp hq') hop)]
    simp only [node_step_mkdirs, h q hq, hfree]
  | put p n =>
    have hfits : Fits t p ↔ Fits t' p := by
      rw [Fits, Fits, h p (.inr hop.1), h _ (.inr (prefix_dropLast hop.1 hop.2))]
    simp only [node_step_put, h q hq, hfits]

/-- What is under the paths decides what comes to be under them. -/
theorem step_congr (h : t.node = t'.node) (op : Op α δ) : (step t op).node = (step t' op).node := by
  have hbelow : op.Below [] ∨ ∃ n, op = .put [] n := by
    cases op with
    | mkdirs p => exact .inl List.nil_prefix
    | put p n =>
      by_cases hp : p = []
      · exact .inr ⟨n, by rw [hp]⟩
      · exact .inl ⟨List.nil_prefix, hp⟩
  funext q
  rcases hbelow with hop | ⟨n, rfl⟩
  · exact step_local hop (fun q _ => congrFun h q) (.inr List.nil_prefix)
  · have hnot : ∀ t : Tree α δ, ¬ (q = [] ∧ Fits t []) := fun t hq => hq.2.1 rfl
    rw [node_step_put, node_step_put, if_neg (hnot t), if_neg (hnot t'), h]

/-- Nothing changes but above and below the directory. -/
theorem step_frame {op : Op α δ} (hop : op.Below top) (t : Tree α δ)
    (hq : ¬ q <+: top ∧ ¬ top <+: q) : (step t op).node q = t.node q := by
  cases op with
  | mkdirs p =>
    have hnot : ¬ (q <+: p ∧ Free t p) := fun h =>
      (List.prefix_or_prefix_of_prefix h.1 hop).elim hq.1 hq.2
    rw [node_step_mkdirs, if_neg hnot]
  | put p n =>
    have hnot : ¬ (q = p ∧ Fits t p) := fun h => hq.2 (h.1 ▸ hop.1)
    rw [node_step_put, if_neg hnot]

/-- What an operation is not about. -/
theorem step_not_about {op : Op α δ} (hop : ¬ op.About top) (hq : top <+: q) (t : Tree α δ) :
    (step t op).node q = t.node q := by
  cases op with
  | mkdirs p =>
    have hnot : ¬ (q <+: p ∧ Free t p) := fun h => hop (hq.trans h.1)
    rw [node_step_mkdirs, if_neg hnot]
  | put p n =>
    have hnot : ¬ (q = p ∧ Fits t p) := fun h => hop (h.1 ▸ hq)
    rw [node_step_put, if_neg hnot]

/-- Once it has been tried to make a directory, what is below it does not change what is above. -/
theorem step_above {op : Op α δ} (hop : op.Below top)
    (hmade : t.node top = some .dir ∨ ¬ Free t top) (hq : q <+: top) :
    (step t op).node q = t.node q := by
  cases op with
  | mkdirs p =>
    rw [node_step_mkdirs]
    split
    next hfree =>
      have hfree : Free t top := fun q' hq' => hfree.2 q' <|
        (List.mem_inits q' p).mpr (((List.mem_inits q' top).mp hq').trans hop)
      have hdir := hmade.resolve_right (not_not.mpr hfree)
      by_cases he : q = top
      · rw [he, hdir]
      · rw [t.dir_above (by rw [hdir]; rfl) hq he]
    next => rfl
  | put p n =>
    have hnot : ¬ (q = p ∧ Fits t p) := by
      rintro ⟨rfl, -⟩
      exact hop.2 (hq.eq_of_length_le hop.1.length_le)
    rw [node_step_put, if_neg hnot]

theorem made_mkdirs (t : Tree α δ) (p : List α) :
    (step t (.mkdirs p)).node p = some .dir ∨ ¬ Free (step t (.mkdirs p)) p := by
  by_cases hfree : Free t p
  · rw [node_step_mkdirs, if_pos ⟨List.prefix_refl p, hfree⟩]
    exact .inl rfl
  · refine .inr fun hfree' => hfree fun q hq => ?_
    have hnode := hfree' q hq
    rwa [node_step_mkdirs, if_neg fun h => hfree h.2] at hnode

theorem made_step {op : Op α δ} (hop : op.Below top)
    (hmade : t.node top = some .dir ∨ ¬ Free t top) :
    (step t op).node top = some .dir ∨ ¬ Free (step t op) top := by
  have hfree : Free (step t op) top ↔ Free t top := forall₂_congr fun q hq => by
    rw [step_above hop hmade ((List.mem_inits q top).mp hq)]
  rwa [step_above hop hmade (List.prefix_refl top), hfree]

/-- What is put below one directory, and the directories that are made for it, leave room for a
directory elsewhere. -/
theorem free_step {op : Op α δ} (hop : op.Below top) (h : ¬ top <+: top') (h' : ¬ top' <+: top)
    (t : Tree α δ) (hp : top' <+: p) : Free (step t op) p ↔ Free t p := by
  refine forall₂_congr fun q hq => ?_
  have hqp := (List.mem_inits q p).mp hq
  cases op with
  | mkdirs u =>
    rw [node_step_mkdirs]
    split
    next hmade => exact iff_of_true rfl (hmade.2 q ((List.mem_inits q u).mpr hmade.1))
    next => rfl
  | put u n =>
    have hnot : ¬ (q = u ∧ Fits t u) := by
      rintro ⟨rfl, -⟩
      exact (List.prefix_or_prefix_of_prefix (hop.1.trans hqp) hp).elim h h'
    rw [node_step_put, if_neg hnot]

theorem fits_step {op : Op α δ} (hop : op.Below top) (h : ¬ top <+: top') (h' : ¬ top' <+: top)
    (t : Tree α δ) (hp : top' <+: p) (hne : p ≠ top') : Fits (step t op) p ↔ Fits t p := by
  rw [Fits, Fits, step_frame hop t (apart_below h h' hp),
    step_frame hop t (apart_below h h' (prefix_dropLast hp hne))]

/-- Operations below different directories can be made in either order. -/
theorem step_comm {a b : Op α δ} (ha : a.Below top) (hb : b.Below top') (h : ¬ top <+: top')
    (h' : ¬ top' <+: top) (t : Tree α δ) :
    (step (step t a) b).node = (step (step t b) a).node := by
  funext q
  cases a with
  | mkdirs p =>
    have hp := free_step hb h' h t (p := p) ha
    cases b with
    | mkdirs p' =>
      have hp' := free_step ha h h' t (p := p') hb
      simp only [node_step_mkdirs, hp, hp']
      split <;> split <;> rfl
    | put p' n =>
      have hp' := fits_step ha h h' t (p := p') hb.1 hb.2
      have hne : ¬ p' <+: p := fun hpp =>
        (List.prefix_or_prefix_of_prefix (hb.1.trans hpp) ha).elim h' h
      simp only [node_step_mkdirs, node_step_put, hp, hp']
      by_cases hq : q = p'
      · simp only [hq, hne, false_and, if_false]
      · simp only [hq, false_and, if_false]
  | put p n =>
    have hp := fits_step hb h' h t (p := p) ha.1 ha.2
    cases b with
    | mkdirs p' =>
      have hp' := free_step ha h h' t (p := p') hb
      have hne : ¬ p <+: p' := fun hpp =>
        (List.prefix_or_prefix_of_prefix (ha.1.trans hpp) hb).elim h h'
      simp only [node_step_mkdirs, node_step_put, hp, hp']
      by_cases hq : q = p
      · simp only [hq, hne, false_and, if_false]
      · simp only [hq, false_and, if_false]
    | put p' n' =>
      have hp' := fits_step ha h h' t (p := p') hb.1 hb.2
      have hne : p ≠ p' := fun hpp =>
        (List.prefix_or_prefix_of_prefix (hpp ▸ ha.1) hb.1).elim h h'
      simp only [node_step_put, hp, hp']
      by_cases hq : q = p
      · simp only [hq, hne, false_and, if_false]
      · simp only [hq, false_and, if_false]

end Op

end Lib.Directory
