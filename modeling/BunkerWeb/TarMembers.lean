import BunkerWeb.Lib.Fields
import BunkerWeb.Lib.FileTree
import BunkerWeb.Lib.Loop
import BunkerWeb.Lib.Run

/-!
# Members of archives

`_validate_tar_members` of `common_utils.py`, and the extraction of the members that it has
accepted into a tree of files with links. `extraction_stays_inside` says for which runs nothing
outside of the target directory is touched.
-/

namespace BunkerWeb.Tar

open Lib Lib.FileTree

/-! ## `_validate_tar_members` -/

inductive MemberType
  | regular
  | directory
  | symlink
  | hardlink
  | device
  | fifo
  deriving DecidableEq, Repr

structure Member where
  name : String
  type : MemberType
  linkname : String
  data : String
  deriving DecidableEq, Repr

/-- `Path(text).parts` of a relative path. -/
def pathParts (text : String) : List String :=
  ((fields (· = '/') text.toList).map String.ofList).filter (· ≠ ".")

/-- One turn of the loop of `normpath` over the components of a relative path. -/
def normalizePart (done : List String) (c : String) : List String :=
  if c ≠ ".." ∨ done = [] ∨ done.getLast? = some ".." then done ++ [c] else done.dropLast

/-- `Path(normpath(path_join(str(Path(name).parent), linkname))).parts`. -/
def normalizedTarget (name linkname : String) : List String :=
  ((pathParts name).dropLast ++ pathParts linkname).foldl normalizePart []

def isAbsolute (text : String) : Bool := text.toList.head? = some '/'

def Member.isLink (m : Member) : Bool := m.type = .symlink || m.type = .hardlink

/-- The turn of the loop for one member; `repr` is Python's. -/
def validateTarMember (repr : String → String) (allowSymlinks : Bool) (m : Member) :
    Except String Unit :=
  if isAbsolute m.name then .error ("Tar member " ++ repr m.name ++ " has absolute path")
  else if ".." ∈ pathParts m.name then .error ("Tar member " ++ repr m.name ++ " contains '..'")
  else if m.type = .device ∨ m.type = .fifo then
    .error ("Tar member " ++ repr m.name ++ " is a device or pipe")
  else if m.isLink then
    if !allowSymlinks then
      .error ("Tar member " ++ repr m.name ++ " is a symlink/hardlink (not permitted)")
    else if isAbsolute m.linkname then
      .error ("Tar member " ++ repr m.name ++ " links to absolute path " ++ repr m.linkname)
    else if ".." ∈ normalizedTarget m.name m.linkname then
      .error ("Tar member " ++ repr m.name ++ " links outside target directory")
    else .ok ()
  else .ok ()

/-- `_validate_tar_members`. -/
def validateTarMembers (repr : String → String) (allowSymlinks : Bool) (members : List Member) :
    Except String Unit := members.forM (validateTarMember repr allowSymlinks)

/-! ## The extraction -/

/-- The parts of a path, for the file system. -/
def parts (text : String) : List (PathPart String) :=
  (pathParts text).map fun c => if c = ".." then .up else .down c

def linkTo (text : String) : Link String := ⟨isAbsolute text, parts text⟩

/-- The files, and whether all has gone well so far. -/
abbrev Extraction := Files String String × Bool

/-- The directory that an accepted member is put in: no part of its name is `..`. -/
def parentDir (links : Nat) (top : List String) (t : Files String String) (m : Member) :
    Files String String × Option (List String) :=
  makeDirs links t top (pathParts m.name).dropLast

/-- Puts an accepted member in its directory, as `last`. A hard link names a member from `top`
on. -/
def putMember (links : Nat) (top : List String) (t : Files String String) (dir : List String)
    (last : String) (m : Member) : Extraction :=
  match m.type with
  | .directory => ((makeDirs links t dir [last]).1, (makeDirs links t dir [last]).2.isSome)
  | .regular => writeFile links t dir last m.data
  | .symlink => replace t dir last (.link (linkTo m.linkname))
  | .hardlink =>
    match entry t links top (parts m.linkname) with
    | none => (t, false)
    | some source => hardLink t dir last source
  | .device | .fifo => (t, false)

/-- Extracts an accepted member below `top`. -/
def extractMember (links : Nat) (top : List String) (t : Files String String) (m : Member) :
    Extraction :=
  match (pathParts m.name).getLast?, parentDir links top t m with
  | none, _ => (t, m.type = .directory)
  | some _, (t, none) => (t, false)
  | some last, (t, some dir) => putMember links top t dir last m

/-- A member after those before it; an error ends the extraction. -/
def extractNext (links : Nat) (top : List String) (s : Extraction) (m : Member) : Extraction :=
  if s.2 then extractMember links top s.1 m else s

/-! ## The condition -/

/-- A link that is put in a directory climbs from real directories below `top` only: the target of a
symbolic link from that directory, the target of a hard link from `top`, and if a symbolic link is
there, its own target from that directory. -/
def SafeLink (links : Nat) (top : List String) (t : Files String String) (dir : List String)
    (m : Member) : Prop :=
  match m.type with
  | .symlink => Climbs t top dir (parts m.linkname)
  | .hardlink =>
    Climbs t top top (parts m.linkname).dropLast ∧
      ∀ source ∈ entry t links top (parts m.linkname), ∀ l,
        t.node source = some (.link l) → Climbs t top dir l.parts
  | _ => True

instance (links : Nat) (top : List String) (t : Files String String) (dir : List String)
    (m : Member) : Decidable (SafeLink links top t dir m) := by
  unfold SafeLink
  split <;> infer_instance

/-- The condition on a member, in the state in which it is extracted. -/
def SafeMember (links : Nat) (top : List String) (s : Extraction) (m : Member) : Prop :=
  s.2 = true → ∀ dir ∈ (parentDir links top s.1 m).2,
    SafeLink links top (parentDir links top s.1 m).1 dir m

instance (links : Nat) (top : List String) (s : Extraction) (m : Member) :
    Decidable (SafeMember links top s m) := by
  unfold SafeMember
  infer_instance

/-! ## The result -/

section

variable {repr : String → String} {links : Nat} {top : List String} {t : Files String String}
  {m : Member} {members : List Member}

theorem accepted_of_members (h : validateTarMembers repr true members = .ok ()) :
    ∀ m ∈ members, validateTarMember repr true m = .ok () := by
  induction members with
  | nil => exact fun m hm => absurd hm List.not_mem_nil
  | cons m members ih =>
    obtain ⟨⟨⟩, hm, hrest⟩ := bind_eq_ok.mp h
    intro m' hm'
    rcases List.mem_cons.mp hm' with rfl | hm'
    · exact hm
    · exact ih hrest m' hm'

/-- The targets that are accepted are relative. -/
theorem relative_of_accepted (h : validateTarMember repr true m = .ok ()) (hlink : m.isLink) :
    isAbsolute m.linkname = false := by
  unfold validateTarMember at h
  rw [if_pos hlink] at h
  split at h
  · cases h
  split at h
  · cases h
  split at h
  · cases h
  split at h
  · cases h
  split at h
  · cases h
  · rename_i hrel
    exact eq_false_of_ne_true hrel

theorem putMember_stays (h : Contained t top) {dir : List String} (hdir : top <+: dir)
    (last : String) (hacc : validateTarMember repr true m = .ok ())
    (hsafe : SafeLink links top t dir m) : Stays top t (putMember links top t dir last m).1 := by
  unfold SafeLink at hsafe
  unfold putMember
  cases htype : m.type with
  | directory => exact (makeDirs_stays h hdir [last]).1
  | regular => exact writeFile_stays h hdir m.data
  | device => exact .refl h
  | fifo => exact .refl h
  | symlink =>
    rw [htype] at hsafe
    have hrel := relative_of_accepted hacc (by simp [Member.isLink, htype])
    refine replace_stays h hdir ⟨fun l hl => ?_, fun i hi => ?_⟩
    · cases hl
      rw [List.dropLast_concat]
      exact ⟨hrel, hsafe⟩
    · cases hi
  | hardlink =>
    rw [htype] at hsafe
    obtain ⟨hclimbs, hlink⟩ := hsafe
    dsimp only
    split
    · exact .refl h
    · rename_i source hsource
      exact hardLink_stays h hdir (entry_inside h (List.prefix_refl top) hclimbs hsource)
        (hlink source hsource)

theorem extractMember_stays (h : Contained t top) (hacc : validateTarMember repr true m = .ok ())
    (hsafe : SafeMember links top (t, true) m) :
    Stays top t (extractMember links top t m).1 := by
  have hsafe := hsafe rfl
  obtain ⟨hparent, hinside⟩ := makeDirs_stays h (List.prefix_refl top)
    (pathParts m.name).dropLast
  unfold extractMember
  split
  · exact .refl h
  · rename_i hdirs
    rw [parentDir] at hdirs
    rw [hdirs] at hparent
    exact hparent
  · rename_i last t' dir _ hdirs
    rw [hdirs] at hsafe
    rw [parentDir] at hdirs
    rw [hdirs] at hparent hinside
    refine hparent.trans (putMember_stays hparent.contained (hinside dir rfl) last hacc ?_)
    exact hsafe dir rfl

/-- **The extraction stays inside.** Members that are accepted touch nothing outside of the target
directory, in every state that is reached, when each link among them climbs from real directories
below it only. -/
theorem extraction_stays_inside (h : Contained t top)
    (hacc : validateTarMembers repr true members = .ok ())
    (hsafe : Run.Meets (extractNext links top) (SafeMember links top) (t, true) members) :
    ∀ done rest, members = done ++ rest →
      Spared top t (Run.run (extractNext links top) (t, true) done).1 := by
  rintro done rest rfl
  have hmembers : Run.Meets (extractNext links top)
      (fun _ m => validateTarMember repr true m = .ok ()) (t, true) done :=
    Run.meets_of_forall fun m hm => accepted_of_members hacc m (List.mem_append_left rest hm)
  have hstep : ∀ (s : Extraction) (m : Member), Stays top t s.1 →
      (SafeMember links top s m ∧ validateTarMember repr true m = .ok ()) →
      Stays top t (extractNext links top s m).1 := by
    rintro ⟨t', ok⟩ m hs ⟨hsafe, hacc⟩
    cases ok with
    | false => exact hs
    | true => exact hs.trans (extractMember_stays hs.contained hacc hsafe)
  exact (Run.invariant hstep (Stays.refl h) ((Run.meets_append.mp hsafe).1.and hmembers)).spared

end

/-! ## Two archives -/

section

/-- Paths are compared as lists of names. -/
local instance lawfulPath : LawfulBEq (List String) := inferInstance

/-- An empty target directory, `/srv/out`. -/
def emptyTarget : Files String String where
  node p := if p ∈ [[], ["srv"], ["srv", "out"]] then some .dir else none
  contents _ := ""
  next := 0

end

theorem contained_emptyTarget : Contained emptyTarget ["srv", "out"] := by
  have hdirs : ∀ p n, emptyTarget.node p = some n → n = .dir := by
    intro p n hn
    unfold emptyTarget at hn
    dsimp only at hn
    split at hn
    · exact (Option.some.inj hn).symm
    · cases hn
  refine ⟨rfl, fun p l _ hl => ?_, fun p q i _ hi => ?_, fun p i hi => ?_⟩
  · cases hdirs p _ hl
  · cases hdirs p _ hi
  · cases hdirs p _ hi

/-- Certificates with a link to the one that is live, and a second name for it. -/
def certificates : List Member :=
  [⟨"archive/www/cert1.pem", .regular, "", "..."⟩,
    ⟨"live/www/cert.pem", .symlink, "../../archive/www/cert1.pem", ""⟩,
    ⟨"backup/cert.pem", .hardlink, "archive/www/cert1.pem", ""⟩]

theorem certificates_stay_inside :
    Spared ["srv", "out"] emptyTarget
      (Run.run (extractNext 40 ["srv", "out"]) (emptyTarget, true) certificates).1 :=
  have hacc : validateTarMembers id true certificates = .ok () := by decide +kernel
  extraction_stays_inside contained_emptyTarget hacc (by decide +kernel) certificates []
    (List.append_nil _).symm

/-- A link to the directory that it is in, a link through it, and a file behind that one. -/
def climber : List Member :=
  [⟨"here", .symlink, ".", ""⟩, ⟨"out", .symlink, "here/..", ""⟩,
    ⟨"out/evil", .regular, "", "evil"⟩]

/-- The members are accepted, and the file is written next to the target directory. -/
theorem accepted_members_escape :
    validateTarMembers id true climber = .ok () ∧
      ¬ Spared ["srv", "out"] emptyTarget
        (Run.run (extractNext 40 ["srv", "out"]) (emptyTarget, true) climber).1 := by
  refine ⟨by decide +kernel, fun h => ?_⟩
  have hnode := h.nodes ["srv", "evil"] (by decide)
  exact absurd hnode (by decide +kernel)

end BunkerWeb.Tar
