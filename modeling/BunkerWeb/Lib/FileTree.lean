import Mathlib.Data.List.Infix
import Mathlib.Logic.Function.Basic

/-!
# A tree of files with links

Directories, files and symbolic links under their physical paths. `resolve` reads a path from a
directory as a file system does: a link is read in the place of its name, as often as links are
followed. A tree is `Contained` in a directory when the links below it climb from real directories
below it only; what is read from inside then stays inside (`resolve_inside`), and so does what the
operations change (`Stays`).
-/

namespace Lib.FileTree

/-- A part of a path: the directory above, or the name of an entry. -/
inductive PathPart (α : Type)
  | up
  | down (name : α)
  deriving DecidableEq

/-- What a symbolic link says. -/
structure Link (α : Type) where
  absolute : Bool
  parts : List (PathPart α)
  deriving DecidableEq

inductive Node (α : Type)
  | dir
  | file (inode : Nat)
  | link (l : Link α)
  deriving DecidableEq

/-- The entries by their physical paths, and the contents of the files; `next` has not been used. -/
structure Files (α δ : Type) where
  node : List α → Option (Node α)
  contents : Nat → δ
  next : Nat

variable {α δ : Type}

/-! ## Reading a path -/

/-- How far a path is read: to its end, or to a link. -/
inductive Walk (α : Type)
  | done (p : List α)
  | link (dir : List α) (rest : List (PathPart α))
  | lost

/-- Reads a path from a directory, up to the first link. The last entry may be missing. -/
def walk (t : Files α δ) : List α → List (PathPart α) → Walk α
  | dir, [] => .done dir
  | dir, .up :: rest => walk t dir.dropLast rest
  | dir, .down a :: rest =>
    match t.node (dir ++ [a]) with
    | some (.link l) => .link (if l.absolute then [] else dir) (l.parts ++ rest)
    | some .dir => walk t (dir ++ [a]) rest
    | _ => if rest = [] then .done (dir ++ [a]) else .lost

/-- Reads a path from a directory, through as many links as are allowed. -/
def resolve (t : Files α δ) : Nat → List α → List (PathPart α) → Option (List α)
  | links, dir, parts =>
    match walk t dir parts with
    | .done p => some p
    | .lost => none
    | .link dir' rest =>
      match links with
      | 0 => none
      | links + 1 => resolve t links dir' rest

/-- The entry that a path names; if it is a link, it is not followed. -/
def entry (t : Files α δ) (links : Nat) (dir : List α) (parts : List (PathPart α)) : Option (List α) :=
  match parts.getLast? with
  | some (.down a) => (resolve t links dir parts.dropLast).map (· ++ [a])
  | _ => none

/-! ## What is contained -/

/-- A path climbs from real directories below `top` only: before the last step up, each name is that
of a directory. -/
def Climbs (t : Files α δ) (top : List α) : List α → List (PathPart α) → Prop
  | _, [] => True
  | dir, .up :: rest => dir ≠ top ∧ Climbs t top dir.dropLast rest
  | dir, .down a :: rest =>
    .up ∉ rest ∨ (t.node (dir ++ [a]) = some .dir ∧ Climbs t top (dir ++ [a]) rest)

instance Climbs.decidable [DecidableEq α] (t : Files α δ) (top : List α) :
    ∀ dir parts, Decidable (Climbs t top dir parts)
  | _, [] => .isTrue trivial
  | dir, .up :: rest =>
    have : Decidable (Climbs t top dir.dropLast rest) := Climbs.decidable t top _ rest
    inferInstanceAs (Decidable (dir ≠ top ∧ Climbs t top dir.dropLast rest))
  | dir, .down a :: rest =>
    have : Decidable (Climbs t top (dir ++ [a]) rest) := Climbs.decidable t top _ rest
    inferInstanceAs (Decidable (.up ∉ rest ∨
      (t.node (dir ++ [a]) = some .dir ∧ Climbs t top (dir ++ [a]) rest)))

/-- A property of what is there, if it is a link. -/
instance decidableLink {P : Link α → Prop} [DecidablePred P] :
    ∀ n : Option (Node α), Decidable (∀ l, n = some (.link l) → P l)
  | some (.link l) => decidable_of_iff (P l) ⟨fun h _ he => by cases he; exact h, fun h => h l rfl⟩
  | some .dir => .isTrue fun _ he => by cases he
  | some (.file _) => .isTrue fun _ he => by cases he
  | none => .isTrue fun _ he => by cases he

/-- The links below a directory stay below it, and its files are nowhere else. -/
structure Contained (t : Files α δ) (top : List α) : Prop where
  top_dir : t.node top = some .dir
  links : ∀ p l, top <+: p → t.node p = some (.link l) →
    l.absolute = false ∧ Climbs t top p.dropLast l.parts
  inodes : ∀ p q i, top <+: p → t.node p = some (.file i) → t.node q = some (.file i) → top <+: q
  fresh : ∀ p i, t.node p = some (.file i) → i < t.next

/-- Nothing outside of a directory has changed. -/
structure Spared (top : List α) (t t' : Files α δ) : Prop where
  nodes : ∀ p, ¬ top <+: p → t'.node p = t.node p
  contents : ∀ p i, ¬ top <+: p → t.node p = some (.file i) → t'.contents i = t.contents i

/-- A change inside a directory that keeps it contained. -/
structure Stays (top : List α) (t t' : Files α δ) : Prop where
  spared : Spared top t t'
  contained : Contained t' top
  dirs : ∀ p, t.node p = some .dir → t'.node p = some .dir

section

variable {t t' t'' : Files α δ} {top dir p : List α} {parts rest : List (PathPart α)} {a : α}

theorem Stays.refl (h : Contained t top) : Stays top t t :=
  ⟨⟨fun _ _ => rfl, fun _ _ _ _ => rfl⟩, h, fun _ h => h⟩

theorem Stays.trans (h : Stays top t t') (h' : Stays top t' t'') : Stays top t t'' where
  spared := {
    nodes := fun p hp => (h'.spared.nodes p hp).trans (h.spared.nodes p hp)
    contents := fun p i hp hi => by
      have hi' : t'.node p = some (.file i) := (h.spared.nodes p hp).trans hi
      exact (h'.spared.contents p i hp hi').trans (h.spared.contents p i hp hi) }
  contained := h'.contained
  dirs := fun p hp => h'.dirs p (h.dirs p hp)

/-! ## Reading stays inside -/

theorem prefix_down (h : top <+: dir) (a : α) : top <+: dir ++ [a] :=
  h.trans (List.prefix_append dir [a])

theorem prefix_up (h : top <+: dir) (hne : dir ≠ top) : top <+: dir.dropLast := by
  obtain ⟨s, rfl⟩ := h
  have hs : s ≠ [] := fun hs => hne (by rw [hs, List.append_nil])
  rw [List.dropLast_append_of_ne_nil hs]
  exact List.prefix_append _ _

theorem climbs_of_not_up (h : .up ∉ parts) : Climbs t top dir parts := by
  cases parts with
  | nil => trivial
  | cons part rest =>
    cases part with
    | up => exact absurd List.mem_cons_self h
    | down a => exact .inl fun hup => h (List.mem_cons_of_mem _ hup)

/-- A name that no step up comes after. -/
theorem climbs_name (t : Files α δ) (top dir : List α) (a : α) : Climbs t top dir [.down a] :=
  .inl List.not_mem_nil

/-- Names may follow. -/
theorem Climbs.append (h : Climbs t top dir parts) (hrest : .up ∉ rest) :
    Climbs t top dir (parts ++ rest) := by
  induction parts generalizing dir with
  | nil => exact climbs_of_not_up hrest
  | cons part parts ih =>
    cases part with
    | up => exact ⟨h.1, ih h.2⟩
    | down a =>
      rcases h with hnone | ⟨hdir, h⟩
      · refine .inl fun hup => ?_
        exact (List.mem_append.mp hup).elim hnone hrest
      · exact .inr ⟨hdir, ih h⟩

theorem Climbs.mono (hdirs : ∀ p, t.node p = some .dir → t'.node p = some .dir)
    (h : Climbs t top dir parts) : Climbs t' top dir parts := by
  induction parts generalizing dir with
  | nil => trivial
  | cons part parts ih =>
    cases part with
    | up => exact ⟨h.1, ih h.2⟩
    | down a => exact h.imp_right fun ⟨hdir, h⟩ => ⟨hdirs _ hdir, ih h⟩

/-- Where a walk from inside can have come to. -/
def Walk.Inside (t : Files α δ) (top : List α) : Walk α → Prop
  | .done p => top <+: p
  | .link dir rest => top <+: dir ∧ Climbs t top dir rest
  | .lost => True

theorem walk_inside (h : Contained t top) (hdir : top <+: dir) (hc : Climbs t top dir parts) :
    (walk t dir parts).Inside t top := by
  induction parts generalizing dir with
  | nil => exact hdir
  | cons part rest ih =>
    cases part with
    | up => exact ih (prefix_up hdir hc.1) hc.2
    | down a =>
      have hdown := prefix_down hdir a
      unfold walk
      split
      · rename_i l hl
        -- A link is no directory, so that no step up comes after it.
        have hup : .up ∉ rest := hc.resolve_right fun ⟨hd, _⟩ => by
          rw [hl] at hd
          cases hd
        obtain ⟨hrel, hclimbs⟩ := h.links _ l hdown hl
        rw [List.dropLast_concat] at hclimbs
        rw [hrel]
        exact ⟨hdir, hclimbs.append hup⟩
      · refine ih hdown ?_
        rcases hc with hnone | ⟨-, hc⟩
        · exact climbs_of_not_up hnone
        · exact hc
      · split
        · exact hdown
        · trivial

/-- **What is read from inside stays inside.** -/
theorem resolve_inside (h : Contained t top) {links : Nat} (hdir : top <+: dir)
    (hc : Climbs t top dir parts) (hp : resolve t links dir parts = some p) : top <+: p := by
  induction links generalizing dir parts with
  | zero =>
    unfold resolve at hp
    have hw := walk_inside h hdir hc
    split at hp
    · rename_i q hq
      rw [hq] at hw
      cases hp
      exact hw
    · cases hp
    · cases hp
  | succ links ih =>
    unfold resolve at hp
    have hw := walk_inside h hdir hc
    split at hp
    · rename_i q hq
      rw [hq] at hw
      cases hp
      exact hw
    · cases hp
    · rename_i dir' rest hq
      rw [hq] at hw
      exact ih hw.1 hw.2 hp

theorem entry_inside (h : Contained t top) {links : Nat} (hdir : top <+: dir)
    (hc : Climbs t top dir parts.dropLast) (hp : entry t links dir parts = some p) : top <+: p := by
  unfold entry at hp
  split at hp
  · obtain ⟨q, hq, rfl⟩ := Option.map_eq_some_iff.mp hp
    exact prefix_down (resolve_inside h hdir hc hq) _
  · cases hp

end

/-! ## The contents of files -/

/-- The contents of a new file. -/
def Files.alloc (t : Files α δ) (data : δ) : Files α δ :=
  { t with contents := Function.update t.contents t.next data, next := t.next + 1 }

def Files.write (t : Files α δ) (i : Nat) (data : δ) : Files α δ :=
  { t with contents := Function.update t.contents i data }

section

variable {t : Files α δ} {top p : List α}

theorem alloc_stays (h : Contained t top) (data : δ) : Stays top t (t.alloc data) where
  spared := {
    nodes := fun _ _ => rfl
    contents := fun p i _ hi => Function.update_of_ne (h.fresh p i hi).ne .. }
  contained := {
    top_dir := h.top_dir
    links := fun p l hp hl => by
      obtain ⟨hrel, hc⟩ := h.links p l hp hl
      have hdirs : ∀ q, t.node q = some .dir → (t.alloc data).node q = some .dir := fun _ hd => hd
      exact ⟨hrel, hc.mono hdirs⟩
    inodes := h.inodes
    fresh := fun p i hi => Nat.lt_succ_of_lt (h.fresh p i hi) }
  dirs := fun _ hp => hp

theorem write_stays (h : Contained t top) (hp : top <+: p) {i : Nat}
    (hi : t.node p = some (.file i)) (data : δ) : Stays top t (t.write i data) where
  spared := {
    nodes := fun _ _ => rfl
    contents := fun q j hq hj => by
      refine Function.update_of_ne ?_ ..
      rintro rfl
      exact hq (h.inodes p q j hp hi hj) }
  contained := {
    top_dir := h.top_dir
    links := fun p l hp hl => by
      obtain ⟨hrel, hc⟩ := h.links p l hp hl
      have hdirs : ∀ q, t.node q = some .dir → (t.write i data).node q = some .dir := fun _ hd => hd
      exact ⟨hrel, hc.mono hdirs⟩
    inodes := h.inodes
    fresh := h.fresh }
  dirs := fun _ hp => hp

end

section

variable [DecidableEq α]

/-! ## The operations

Each returns the tree and whether it has gone well. -/

def Files.put (t : Files α δ) (p : List α) (n : Node α) : Files α δ :=
  { t with node := Function.update t.node p (some n) }

/-- Makes the directories of a path that are missing, and reads the path. -/
def makeDirs (links : Nat) : Files α δ → List α → List α → Files α δ × Option (List α)
  | t, dir, [] => (t, some dir)
  | t, dir, a :: names =>
    match t.node (dir ++ [a]) with
    | none => makeDirs links (t.put (dir ++ [a]) .dir) (dir ++ [a]) names
    | some _ =>
      match resolve t links dir [.down a] with
      | none => (t, none)
      | some p => if t.node p = some .dir then makeDirs links t p names else (t, none)

/-- Opens an entry for writing and writes it. -/
def writeFile (links : Nat) (t : Files α δ) (dir : List α) (a : α) (data : δ) : Files α δ × Bool :=
  match resolve t links dir [.down a] with
  | none => (t, false)
  | some p =>
    match t.node p with
    | none => ((t.alloc data).put p (.file t.next), true)
    | some (.file i) => (t.write i data, true)
    | some _ => (t, false)

/-- Puts an entry in the place of what is there, unless that is a directory. -/
def replace (t : Files α δ) (dir : List α) (a : α) (n : Node α) : Files α δ × Bool :=
  if t.node (dir ++ [a]) = some .dir then (t, false) else (t.put (dir ++ [a]) n, true)

/-- A second name for a file or a link. -/
def hardLink (t : Files α δ) (dir : List α) (a : α) (source : List α) : Files α δ × Bool :=
  match t.node source with
  | none | some .dir => (t, false)
  | some n => replace t dir a n

/-! ## The operations stay inside -/

variable {t t' : Files α δ} {top dir p : List α} {a : α} {n : Node α} {links : Nat}

/-- An entry that is put inside: a link that climbs as it may, a file that is nowhere outside, or a
directory. -/
structure Fits (t : Files α δ) (top p : List α) (n : Node α) : Prop where
  link : ∀ l, n = .link l → l.absolute = false ∧ Climbs t top p.dropLast l.parts
  file : ∀ i, n = .file i → i < t.next ∧ ∀ q, t.node q = some (.file i) → top <+: q

@[simp] theorem put_self (t : Files α δ) (p : List α) (n : Node α) :
    (t.put p n).node p = some n := Function.update_self ..

theorem put_of_ne {q : List α} (h : q ≠ p) : (t.put p n).node q = t.node q :=
  Function.update_of_ne h ..

theorem put_stays (h : Contained t top) (hp : top <+: p) (hfree : t.node p ≠ some .dir)
    (hn : Fits t top p n) : Stays top t (t.put p n) := by
  have hdirs : ∀ q, t.node q = some .dir → (t.put p n).node q = some .dir := by
    intro q hq
    have hne : q ≠ p := by
      rintro rfl
      exact hfree hq
    rw [put_of_ne hne, hq]
  refine ⟨⟨fun q hq => ?_, fun _ _ _ _ => rfl⟩, ⟨hdirs top h.top_dir, ?_, ?_, ?_⟩, hdirs⟩
  · refine put_of_ne ?_
    rintro rfl
    exact hq hp
  · intro q l hq hl
    by_cases he : q = p
    · subst he
      rw [put_self] at hl
      obtain ⟨hrel, hc⟩ := hn.link l (Option.some.inj hl)
      exact ⟨hrel, hc.mono hdirs⟩
    · rw [put_of_ne he] at hl
      obtain ⟨hrel, hc⟩ := h.links q l hq hl
      exact ⟨hrel, hc.mono hdirs⟩
  · intro q r i hq hi hr
    by_cases her : r = p
    · exact her ▸ hp
    · rw [put_of_ne her] at hr
      by_cases he : q = p
      · subst he
        rw [put_self] at hi
        exact (hn.file i (Option.some.inj hi)).2 r hr
      · rw [put_of_ne he] at hi
        exact h.inodes q r i hq hi hr
  · intro q i hi
    by_cases he : q = p
    · subst he
      rw [put_self] at hi
      exact (hn.file i (Option.some.inj hi)).1
    · rw [put_of_ne he] at hi
      exact h.fresh q i hi

theorem replace_stays (h : Contained t top) (hdir : top <+: dir)
    (hn : Fits t top (dir ++ [a]) n) : Stays top t (replace t dir a n).1 := by
  unfold replace
  split
  · exact .refl h
  · rename_i hfree
    exact put_stays h (prefix_down hdir a) hfree hn

theorem makeDirs_stays (h : Contained t top) (hdir : top <+: dir) (names : List α) :
    Stays top t (makeDirs links t dir names).1 ∧
      ∀ p ∈ (makeDirs links t dir names).2, top <+: p := by
  induction names generalizing t dir with
  | nil => exact ⟨.refl h, fun p hp => Option.some.inj hp ▸ hdir⟩
  | cons a names ih =>
    unfold makeDirs
    split
    · rename_i hnone
      have hfree : t.node (dir ++ [a]) ≠ some .dir := by
        rw [hnone]
        exact nofun
      have hfits : Fits t top (dir ++ [a]) .dir :=
        ⟨fun _ he => (by cases he), fun _ he => (by cases he)⟩
      have hput := put_stays h (prefix_down hdir a) hfree hfits
      obtain ⟨hrest, hp⟩ := ih hput.contained (prefix_down hdir a)
      exact ⟨hput.trans hrest, hp⟩
    · split
      · exact ⟨.refl h, nofun⟩
      · rename_i p hp
        split
        · exact ih h (resolve_inside h hdir (climbs_name t top dir a) hp)
        · exact ⟨.refl h, nofun⟩

theorem writeFile_stays (h : Contained t top) (hdir : top <+: dir) (data : δ) :
    Stays top t (writeFile links t dir a data).1 := by
  unfold writeFile
  split
  · exact .refl h
  · rename_i p hp
    have hinside := resolve_inside h hdir (climbs_name t top dir a) hp
    split
    · rename_i hnone
      have halloc := alloc_stays h data
      have hfree : (t.alloc data).node p ≠ some .dir := fun hd => by
        cases hnone.symm.trans hd
      have hfits : Fits (t.alloc data) top p (.file t.next) := by
        refine ⟨fun _ he => (by cases he), fun i he => ?_⟩
        cases he
        exact ⟨Nat.lt_succ_self _, fun q hq => absurd (h.fresh q _ hq) (lt_irrefl _)⟩
      exact halloc.trans (put_stays halloc.contained hinside hfree hfits)
    · rename_i i hi
      exact write_stays h hinside hi data
    · exact .refl h

theorem hardLink_stays (h : Contained t top) (hdir : top <+: dir) {source : List α}
    (hsource : top <+: source)
    (hlink : ∀ l, t.node source = some (.link l) → Climbs t top dir l.parts) :
    Stays top t (hardLink t dir a source).1 := by
  unfold hardLink
  split
  · exact .refl h
  · exact .refl h
  · rename_i n hn hnode
    refine replace_stays h hdir ⟨fun l hl => ?_, fun i hi => ?_⟩
    · subst hl
      rw [List.dropLast_concat]
      exact ⟨(h.links source l hsource hnode).1, hlink l hnode⟩
    · subst hi
      exact ⟨h.fresh source i hnode, fun q hq => h.inodes source q i hsource hnode hq⟩

end

end Lib.FileTree
