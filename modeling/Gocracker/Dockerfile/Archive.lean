import Gocracker.Oci.Layer
import Gocracker.Posix.Area
import Gocracker.Transition.Run

/-!
# Unpacking an archive of ADD

`untar` unpacks a tar archive into a directory. The name of an entry is cleaned, and refused if it
begins with two dots; what is found in its place is not looked at, nor what is found on the way. The
name that a hard link is made to is cleaned and joined to the directory, and not refused even if it
leads out of it.

Besides staying in the directory there is a second thing to ask for here. A hard link out of the
directory changes nothing outside, but it brings a file of the host into the directory, from where
it will be copied into the image. So every file that is found in the directory has to be a new one,
or one that was found there before.
-/

namespace Gocracker

open Machine Posix Transition Option

/-! ## Entries -/

/-- The part of a header that decides where something is done. `owned`: the owner or the group is
not 0. `readable`: the contents can be read to their end. -/
structure ArchiveHeader where
  name : Text
  typeflag : TypeFlag
  linkname : Text
  owned : Bool
  readable : Bool

inductive ArchiveError where
  | os (e : Errno)
  | escapes (name : Text)
  | read
  deriving DecidableEq

abbrev ArchiveM := EStateM ArchiveError World

namespace Archive

def run {α : Type} (c : EStateM Errno World α) : ArchiveM α := EStateM.adaptExcept .os c

/-- The name stands for the directory itself, as a relative path. -/
def isDot (name : Text) : Bool := !isAbs name && (cleanComponents name).isEmpty

/-- The cleaned name begins with two dots. -/
def escapes (name : Text) : Bool :=
  !isAbs name && (cleanComponents name).head?.any fun c ↦ decide (dotdot <+: c)

/-- A relative name may lead out of the directory, which the caller checks. -/
def entryTarget (dst : Path) (name : Text) : Path := join dst (cleanComponents name)

/-- The owner, if the archive says so. -/
def applyTarHeaderOwnership (path : Path) (hdr : ArchiveHeader) : ArchiveM PUnit :=
  if hdr.owned then run (sys (·.setAttr false path)) else pure ⟨⟩

/-- What an entry of each type does at its place. -/
def placeEntry (dst target : Path) (hdr : ArchiveHeader) : ArchiveM PUnit := do
  match hdr.typeflag with
  | .dir =>
    run (mkdirAll target.reverse)
    applyTarHeaderOwnership target hdr
  | .reg =>
    run (sys (·.openTrunc target))
    if hdr.readable = false then throw .read
    applyTarHeaderOwnership target hdr
  | .symlink =>
    attempt (run (sys (·.removeAll target)))
    run (sys (·.symlink hdr.linkname target))
    applyTarHeaderOwnership target hdr
  | .link =>
    attempt (run (sys (·.removeAll target)))
    run (sys (·.link (entryTarget dst hdr.linkname) target))
    applyTarHeaderOwnership target hdr
  | .other => pure ⟨⟩

/-- One iteration of the loop of `untar`. -/
def untarEntry (dst : Path) (hdr : ArchiveHeader) : ArchiveM PUnit := do
  if isDot hdr.name then pure ⟨⟩
  else if escapes hdr.name then throw (.escapes hdr.name)
  else
    let target := entryTarget dst hdr.name
    run (mkdirAll target.dropLast.reverse)
    placeEntry dst target hdr

end Archive

/-- The filesystem, and whether an error has ended the loop. -/
structure Unpacking where
  world : World
  failed : Bool

/-- The next entry, or an error in reading it. -/
inductive ArchiveEvent where
  | entry (hdr : ArchiveHeader)
  /-- The archive could not be read further. -/
  | readError

namespace Unpacking

def init (w : World) : Unpacking := ⟨{ w with touched := [] }, false⟩

/-- An entry that fails ends the extraction. -/
def step (dst : Path) (s : Unpacking) : ArchiveEvent → Option Unpacking
  | .entry hdr =>
    if s.failed then none
    else
      match Archive.untarEntry dst hdr s.world with
      | .ok _ w => some ⟨w, false⟩
      | .error _ w => some ⟨w, true⟩
  | .readError => if s.failed then none else some { s with failed := true }

end Unpacking

/-! ## The condition -/

namespace Archive

/-- The part of an entry's path at which a link would be followed. -/
def followed (dst : Path) (hdr : ArchiveHeader) : Path :=
  match hdr.typeflag with
  | .dir | .reg => entryTarget dst hdr.name
  | _ => (entryTarget dst hdr.name).dropLast

/-- An entry with a place below the directory, to which no link is on the way; and so for what a
hard link is made to. -/
def Direct (links : Path → Option Text) (dst : Path) (hdr : ArchiveHeader) : Prop :=
  Below dst (entryTarget dst hdr.name) ∧ Unlinked links [] (followed dst hdr) ∧
    (hdr.typeflag = .link → Below dst (entryTarget dst hdr.linkname) ∧
      Unlinked links [] (entryTarget dst hdr.linkname).dropLast)
deriving Decidable

end Archive

namespace Unpacking

/-- The condition on a step: the entry is passed over or refused, or it is direct. -/
def Direct (dst : Path) (s : Unpacking) : ArchiveEvent → Prop
  | .entry hdr => Archive.isDot hdr.name = true ∨ Archive.escapes hdr.name = true ∨
    Archive.Direct s.world.linkAt dst hdr
  | .readError => True

instance (dst : Path) (s : Unpacking) (e : ArchiveEvent) : Decidable (s.Direct dst e) :=
  match e with
  | .entry _ => inferInstanceAs (Decidable (_ ∨ _))
  | .readError => .isTrue trivial

end Unpacking

/-! ## Files that belong to the directory -/

/-- Every file found in the area is new, or was found in the area before. -/
structure OwnFiles (A : Area) (w₀ w : World) : Prop where
  next : w₀.nextIno ≤ w.nextIno
  files : ∀ p ino, p ∈ A → w.kindAt p = some (.file ino) →
    w₀.nextIno ≤ ino ∨ ∃ q ∈ A, w₀.kindAt q = some (.file ino)

variable {A : Area} {L M : Set Path} {w₀ w : World} {path p : Path} {o : Option Tree}

namespace OwnFiles

theorem refl (A : Area) (w : World) : OwnFiles A w w :=
  ⟨Nat.le_refl _, fun p _ hp hkind ↦ .inr ⟨p, hp, hkind⟩⟩

theorem put (h : OwnFiles A w₀ w) (ho : ∀ r ino, kindAt o r = some (.file ino) →
      w₀.nextIno ≤ ino ∨ ∃ q ∈ A, w₀.kindAt q = some (.file ino)) : OwnFiles A w₀ (w.put p o) := by
  refine ⟨h.next, fun q ino hq hkind ↦ ?_⟩
  by_cases hpre : p <+: q
  · obtain ⟨r, rfl⟩ := hpre
    rcases treeAt_alter_self (fun _ ↦ o) p w.tree with hself | ⟨hself, -⟩
    · rw [World.kindAt, World.put, kindAt_append, hself] at hkind
      exact ho r ino hkind
    · rw [World.kindAt, World.put, kindAt_append, hself, kindAt, treeAt_none] at hkind
      cases hkind
  · rw [kindAt_put_of_not_isPrefix hpre] at hkind
    exact h.files q ino hq hkind

theorem put_none (h : OwnFiles A w₀ w) : OwnFiles A w₀ (w.put p none) := by
  refine h.put fun r ino hkind ↦ ?_
  rw [kindAt, treeAt_none] at hkind
  cases hkind

theorem put_leaf (h : OwnFiles A w₀ w) {t : Tree} (ht : t.kind ≠ .dir)
    (hfile : ∀ ino, t.kind = .file ino →
      w₀.nextIno ≤ ino ∨ ∃ q ∈ A, w₀.kindAt q = some (.file ino)) :
    OwnFiles A w₀ (w.put p (some t)) := by
  refine h.put fun r ino hkind ↦ ?_
  cases r with
  | nil => exact hfile ino (Option.some.inj hkind)
  | cons c r =>
    cases t with
    | dir entries => exact absurd rfl ht
    | file | symlink => nomatch hkind

theorem put_dir (h : OwnFiles A w₀ w) : OwnFiles A w₀ (w.put p (some (.dir []))) := by
  refine h.put fun r ino hkind ↦ ?_
  cases r with
  | nil => nomatch hkind
  | cons c r =>
    rw [kindAt_dir_nil] at hkind
    nomatch hkind

end OwnFiles

/-! ## Operations -/

namespace Archive

/-- Within the area, with places that are clear, and without files from elsewhere. -/
def Sound (A : Area) (w₀ : World) (L : Set Path) (w : World) : Prop :=
  Safe A w₀ L w ∧ OwnFiles A w₀ w

/-- What is known about the area, with what there is to show about the files. -/
theorem sound_triple {op : World → Except Errno World}
    (hsafe : Leads (Safe A w₀ L) (sys op) (Safe A w₀ M))
    (hown : ∀ w w', Sound A w₀ L w → op w = .ok w' → OwnFiles A w₀ w') :
    Leads (Sound A w₀ L) (run (sys op)) (Sound A w₀ M) :=
  .adaptExcept ((hsafe.and (sys_triple hown fun _ hw ↦ hw.2)).weaken (fun _ h ↦ ⟨h.1, h⟩)
    (fun _ _ h ↦ h) fun _ h ↦ h)

section

variable (hclean : Clean path)
include hclean

theorem run_mkdirAll_triple (hway : way path ⊆ L)
    (hA : ∀ q, q <+: path → q ∈ A ∨ w₀.kindAt q ≠ none) :
    Keeps (Sound A w₀ L) (run (mkdirAll path.reverse)) := by
  refine .adaptExcept (mkdirAll_rule hclean (fun w hw ↦ ?_) fun w q hw hq hnone ↦ ?_)
  · exact unlinked_iff_way.mpr fun q hq ↦ hw.1.clear q (hway hq)
  · have hmem := hw.1.within.mem_of_missing (hA q hq) hnone
    exact ⟨(hw.1.put_linkFree hmem linkFree_dir).mono Set.subset_union_left, hw.2.put_dir⟩

theorem run_openTrunc_triple (hway : way path ⊆ L) (hA : path ∈ A) :
    Keeps (Sound A w₀ L) (run (sys (·.openTrunc path))) := by
  refine sound_triple (sys_openTrunc_triple hclean hway (.inl hA)) fun w w' hw hop ↦ ?_
  rcases (hw.1.clear.straight hclean hway true).openTrunc_eq_ok hop with rfl | ⟨-, rfl⟩
  · exact ⟨hw.2.next, hw.2.files⟩
  have hput : OwnFiles A w₀ (w.put path (some (.file w.nextIno))) := by
    refine hw.2.put_leaf (by simp [Tree.kind]) fun ino hino ↦ .inl ?_
    rw [← Kind.file.inj hino]
    exact hw.2.next
  exact ⟨Nat.le_succ_of_le hput.next, hput.files⟩

section

variable (hway : way path.dropLast ⊆ L) (hA : path ∈ A)
include hway hA

theorem run_removeAll_triple : Keeps (Sound A w₀ L) (attempt (run (sys (·.removeAll path)))) := by
  refine .attempt ((sound_triple (sys_removeAll_triple hclean hway hA)
    fun w w' hw hop ↦ ?_).weaken_leads fun _ h ↦ ⟨h.1.mono Set.subset_union_left, h.2⟩)
  rcases (hw.1.clear.straight_parent hclean hway).removeAll_eq_ok hop with ⟨rfl, -⟩ | rfl
  · exact hw.2
  · exact hw.2.put_none

theorem run_symlink_triple (target : Text) :
    Leads (Sound A w₀ L) (run (sys (·.symlink target path))) (Sound A w₀ (besides L path)) := by
  refine sound_triple (sys_symlink_triple hclean hway (.inl hA) target) fun w w' hw hop ↦ ?_
  obtain ⟨-, rfl⟩ := (hw.1.clear.straight_parent hclean hway).symlink_eq_ok hop
  exact hw.2.put_leaf (by simp [Tree.kind]) nofun

theorem run_link_triple {old : Path} (hold : Clean old) (hwayOld : way old.dropLast ⊆ L)
    (hAold : old ∈ A) :
    Leads (Sound A w₀ L) (run (sys (·.link old path))) (Sound A w₀ (besides L path)) := by
  refine sound_triple (sys_link_triple hclean hway hA hold hwayOld hAold) fun w w' hw hop ↦ ?_
  obtain ⟨t, htree, hdir, rfl⟩ := (hw.1.clear.straight_parent hclean hway).link_eq_ok
    (hw.1.clear.straight_parent hold hwayOld) hop
  have htouched : OwnFiles A w₀ (w.touch old) := ⟨hw.2.next, hw.2.files⟩
  refine htouched.put_leaf hdir fun ino hino ↦ hw.2.files old ino hAold ?_
  rw [World.kindAt, kindAt, htree, map_some, hino]

theorem applyTarHeaderOwnership_triple (hdr : ArchiveHeader) :
    Keeps (Sound A w₀ L) (applyTarHeaderOwnership path hdr) := by
  rw [applyTarHeaderOwnership]
  split
  · refine sound_triple (sys_setAttr_triple (fun w hw ↦ hw.clear.straight_parent hclean hway) hA)
      fun w w' hw hop ↦ ?_
    obtain rfl := (hw.1.clear.straight_parent hclean hway).setAttr_eq_ok hop
    exact ⟨hw.2.next, hw.2.files⟩
  · exact .skip

end

end

/-! ## An entry -/

variable {dst : Path} {hdr : ArchiveHeader}

theorem placeEntry_triple {target : Path} (hclean : Clean target) (hbelow : Below dst target)
    (hdst : Rooted dst w₀) (hway : way target.dropLast ⊆ L)
    (hself : hdr.typeflag = .dir ∨ hdr.typeflag = .reg → way target ⊆ L)
    (hlink : hdr.typeflag = .link → Below dst (entryTarget dst hdr.linkname) ∧
      way (entryTarget dst hdr.linkname).dropLast ⊆ L) :
    Triple (Sound (.below dst) w₀ L) (placeEntry dst target hdr)
      (fun _ w ↦ ∃ M, Sound (.below dst) w₀ M w) (fun w ↦ ∃ M, Sound (.below dst) w₀ M w) := by
  have hown : ∀ {M}, way target.dropLast ⊆ M → Triple (Sound (.below dst) w₀ M)
      (applyTarHeaderOwnership target hdr) (fun _ w ↦ ∃ M, Sound (.below dst) w₀ M w)
      (fun w ↦ ∃ M, Sound (.below dst) w₀ M w) := fun hM ↦
    (applyTarHeaderOwnership_triple hclean hM hbelow hdr).weaken_post (fun _ _ h ↦ ⟨_, h⟩) fun _ h ↦
      ⟨_, h⟩
  rw [placeEntry]
  split
  · rename_i hflag
    refine .bind ((run_mkdirAll_triple hclean (hself (.inl hflag))
      fun q hq ↦ ?_).weaken_error fun _ h ↦ ⟨_, h⟩) fun _ ↦ hown hway
    obtain ⟨cs, rfl⟩ := hbelow.1
    exact hdst.mem_below_or hq
  · rename_i hflag
    refine .bind ((run_openTrunc_triple hclean (hself (.inr hflag)) hbelow).weaken_error
      fun _ h ↦ ⟨_, h⟩) fun _ ↦ ?_
    split
    · exact .throw fun w hw ↦ ⟨_, hw⟩
    · exact hown hway
  · refine .bind ((run_removeAll_triple hclean hway hbelow).weaken_error
      fun _ h ↦ ⟨_, h⟩) fun _ ↦ ?_
    refine .bind ((run_symlink_triple hclean hway hbelow hdr.linkname).weaken_error
      fun _ h ↦ ⟨_, h⟩) fun _ ↦ ?_
    exact hown (way_dropLast_subset_sep hway)
  · rename_i hflag
    obtain ⟨hsource, hwaySource⟩ := hlink hflag
    refine .bind ((run_removeAll_triple hclean hway hbelow).weaken_error
      fun _ h ↦ ⟨_, h⟩) fun _ ↦ ?_
    refine .bind ((run_link_triple hclean hway hbelow (clean_join _ _) hwaySource
      hsource).weaken_error fun _ h ↦ ⟨_, h⟩) fun _ ↦ ?_
    exact hown (way_dropLast_subset_sep hway)
  · exact .pure fun w hw ↦ ⟨_, hw⟩

theorem unlinked_of_followed {links : Path → Option Text}
    (h : Unlinked links [] (followed dst hdr)) :
    Unlinked links [] (entryTarget dst hdr.name).dropLast ∧
      (hdr.typeflag = .dir ∨ hdr.typeflag = .reg →
        Unlinked links [] (entryTarget dst hdr.name)) := by
  rw [unlinked_iff_way] at h
  rw [followed] at h
  rw [unlinked_iff_way, unlinked_iff_way]
  cases hflag : hdr.typeflag <;> rw [hflag] at h
  case dir => exact ⟨fun q hq ↦ h q (way_dropLast_subset _ hq), fun _ ↦ h⟩
  case reg => exact ⟨fun q hq ↦ h q (way_dropLast_subset _ hq), fun _ ↦ h⟩
  all_goals exact ⟨h, nofun⟩

/-- **One entry** that is direct. -/
theorem untarEntry_triple (hdst : Rooted dst w₀)
    (hdirect : isDot hdr.name = true ∨ escapes hdr.name = true ∨ Direct w.linkAt dst hdr) :
    Triple (Sound (.below dst) w₀ w.clear) (untarEntry dst hdr)
      (fun _ w ↦ ∃ M, Sound (.below dst) w₀ M w) (fun w ↦ ∃ M, Sound (.below dst) w₀ M w) := by
  rw [untarEntry]
  split
  · exact .pure fun w hw ↦ ⟨_, hw⟩
  rename_i hdot
  split_ifs with hescapes
  · exact .throw fun w hw ↦ ⟨_, hw⟩
  obtain ⟨hbelow, hfollowed, hlink⟩ := (hdirect.resolve_left hdot).resolve_left hescapes
  obtain ⟨hparent, hself⟩ := unlinked_of_followed hfollowed
  have hclean : Clean (entryTarget dst hdr.name) := clean_join _ _
  refine .bind ((run_mkdirAll_triple hclean.dropLast (way_subset_clear hparent)
    fun q hq ↦ ?_).weaken_error fun _ h ↦ ⟨_, h⟩) fun _ ↦ ?_
  · obtain ⟨cs, hcs⟩ := hbelow.1
    rw [← hcs] at hq
    exact hdst.mem_below_or (hq.trans (List.dropLast_prefix _))
  · exact placeEntry_triple hclean hbelow hdst (way_subset_clear hparent)
      (fun h ↦ way_subset_clear (hself h)) fun h ↦ ⟨(hlink h).1, way_subset_clear (hlink h).2⟩

end Archive

/-! ## Archives -/

namespace Unpacking

/-- Only what lies in the directory was acted on, and no file has come into it from elsewhere. -/
def Confined (dst : Path) (w₀ : World) (s : Unpacking) : Prop :=
  Posix.Confined dst w₀ s.world ∧ OwnFiles (.below dst) w₀ s.world

variable {dst : Path} {s s' : Unpacking} {e : ArchiveEvent}

theorem sound_step (hdst : Rooted dst w₀) (h : ∃ M, Archive.Sound (.below dst) w₀ M s.world)
    (hok : s.Direct dst e) (hstep : s.step dst e = some s') :
    ∃ M, Archive.Sound (.below dst) w₀ M s'.world := by
  cases e with
  | entry hdr =>
    obtain ⟨M, hsafe, hown⟩ := h
    have hsound : Archive.Sound (.below dst) w₀ s.world.clear s.world :=
      ⟨⟨hsafe.within, fun _ hq ↦ hq⟩, hown⟩
    have htriple := Archive.untarEntry_triple hdst hok s.world hsound
    obtain ⟨-, hstep⟩ := ite_none_left_eq_some.mp hstep
    split at hstep
    · rename_i hrun
      obtain ⟨⟩ := hstep
      rw [hrun] at htriple
      exact htriple
    · rename_i hrun
      obtain ⟨⟩ := hstep
      rw [hrun] at htriple
      exact htriple
  | readError =>
    obtain ⟨-, ⟨⟩⟩ := ite_none_left_eq_some.mp hstep
    exact h

/-- **An archive is unpacked into its directory and nowhere else**, if every entry is direct when
its turn comes; and it has no files of the host. -/
theorem confined_of_direct (hdst : Rooted dst w₀) {events : List ArchiveEvent}
    (hrun : Run (step dst) (Direct dst) (init w₀) events s) : s.Confined dst w₀ := by
  have hdst' : Rooted dst (init w₀).world := ⟨hdst.clean, hdst.unlinked, hdst.isDir⟩
  obtain ⟨M, hsafe, hown⟩ : ∃ M, Archive.Sound (.below dst) (init w₀).world M s.world :=
    hrun.invariant (I := fun s ↦ ∃ M, Archive.Sound (.below dst) (init w₀).world M s.world)
      (fun _ _ _ h hok hstep ↦ sound_step hdst' h hok hstep)
      ⟨∅, ⟨Within.refl _ _, fun q hq ↦ absurd hq (Set.notMem_empty q)⟩, OwnFiles.refl _ _⟩
  have hconfined := hsafe.within.confined rfl
  exact ⟨⟨hconfined.touched, hconfined.outside⟩, ⟨hown.next, hown.files⟩⟩

end Unpacking

/-! ## Two archives -/

/-- A host with a file `/e/s`, and an empty directory `/d` to unpack into. -/
def archiveHost : World :=
  ⟨some (.dir [(['d'], .dir []), (['e'], .dir [(['s'], .file 0)])]), 1, []⟩

def archiveFile (name : Text) : ArchiveEvent := .entry ⟨name, .reg, [], true, true⟩

def archiveSymlink (name linkname : Text) : ArchiveEvent :=
  .entry ⟨name, .symlink, linkname, false, true⟩

def archiveLink (name linkname : Text) : ArchiveEvent := .entry ⟨name, .link, linkname, false, true⟩

/-- A file, a hard link and a symbolic link to it, and a name that is refused. -/
theorem confined_of_direct_refused :
    ∃ s, Run (Unpacking.step [['d']]) (Unpacking.Direct [['d']]) (.init archiveHost)
        [archiveFile "a/x".toList, archiveLink "b".toList "/a/x".toList,
          archiveSymlink "c".toList "/e".toList, archiveFile "../e/s".toList] s ∧
      s.Confined [['d']] archiveHost := by
  refine Run.exists_of_exec (·.failed = true) (by decide +kernel) fun s hrun _ ↦ ?_
  exact Unpacking.confined_of_direct ⟨by decide, by decide, by decide⟩ hrun

/-- **A hard link out of the directory, and a file behind a link.** The first entry brings the file
`/e/s` of the host into the directory. After the second, which is a link `a` to `/e`, the third
makes a file there. -/
theorem not_confined_linkedArchive : ∃ s, Run (Unpacking.step [['d']]) anyStep (.init archiveHost)
        [archiveLink "h".toList "../e/s".toList, archiveSymlink "a".toList "/e".toList,
          archiveFile "a/x".toList] s ∧
      ¬Posix.Confined [['d']] archiveHost s.world ∧
      ¬OwnFiles (.below [['d']]) archiveHost s.world := by
  refine Run.exists_of_exec
    (fun s ↦ [['e'], ['x']] ∈ s.world.touched ∧ s.world.kindAt [['d'], ['h']] = some (.file 0))
    (by decide +kernel) fun s hrun hs ↦ ⟨fun hconfined ↦ ?_, fun hown ↦ ?_⟩
  · exact absurd (hconfined.touched _ hs.1) (by decide)
  rcases hown.files _ 0 (show Below [['d']] [['d'], ['h']] by decide) hs.2 with
    hnew | ⟨q, ⟨⟨r, rfl⟩, hne⟩, hkind⟩
  · exact absurd hnew (by decide)
  -- The directory was empty.
  cases r with
  | nil => exact hne (List.append_nil _)
  | cons c r =>
    have hempty : treeAt archiveHost.tree [['d']] = some (.dir []) := rfl
    rw [World.kindAt, kindAt_append, hempty, kindAt_dir_nil] at hkind
    cases hkind

end Gocracker
