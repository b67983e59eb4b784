import Gocracker.Dockerfile.Transfer

/-!
# The environment of RUN

Before a command is run in the root filesystem, `ensureBuildEnvironment` makes the directories and
the device links that it may expect, and two files of the host are written over those of the image.
What was there is kept, and put back afterwards.

The directories are the values of environment variables, which the image sets, and so is one of the
files. The command can leave anything behind, so that what is put back may meet other links than
those that were there before.
-/

namespace Gocracker

open Machine Posix List

/-! ## Directories and links -/

/-- The variables that are looked at, which are empty if they are not set. -/
structure BuildEnv where
  home : Text
  tmpdir : Text
  gitConfigGlobal : Text

variable (path : Path)

/-- A directory is made and gets its mode. -/
def ensureDirMode : FileM PUnit := do
  act (mkdirAll path.reverse)
  chmod path

/-- The directories that are made, in their order. A value that is no absolute path is passed
over. -/
def BuildEnv.dirs (env : BuildEnv) (rootfs : Path) : List Path :=
  ([env.home, env.tmpdir].filter fun value ↦ isAbs value).map (rootfsPath rootfs) ++
    [rootfsFile rootfs "/tmp", rootfsFile rootfs "/var/tmp"]

/-- The links in `/dev` that programs expect. -/
def standardDevLinks (rootfs : Path) : List (Path × Text) :=
  [(rootfsFile rootfs "/dev/fd", "/proc/self/fd".toList),
    (rootfsFile rootfs "/dev/ptmx", "/dev/pts/ptmx".toList),
    (rootfsFile rootfs "/dev/stdin", "/proc/self/fd/0".toList),
    (rootfsFile rootfs "/dev/stdout", "/proc/self/fd/1".toList),
    (rootfsFile rootfs "/dev/stderr", "/proc/self/fd/2".toList)]

/-- Whatever is not the right link is removed. What is looked at belongs to the image, and counts
for no read. -/
def ensureSymlink (target : Text) : FileM PUnit := do
  match ← ask fun w ↦ .ok (w.lstat path) with
  | .ok (.symlink current) =>
    if current = target then pure ⟨⟩
    else
      act (sys (·.removeAll path))
      act (mkdirAll path.dropLast.reverse)
      act (sys (·.symlink target path))
  | .ok _ =>
    act (sys (·.removeAll path))
    act (mkdirAll path.dropLast.reverse)
    act (sys (·.symlink target path))
  | .error _ =>
    act (mkdirAll path.dropLast.reverse)
    act (sys (·.symlink target path))

/-- A configuration of git is written if there is none. -/
def ensureGitConfig (target : Path) : FileM PUnit := do
  act (mkdirAll target.dropLast.reverse)
  match ← ask fun w ↦ .ok (w.stat target) with
  | .ok _ => pure ⟨⟩
  | .error .enoent => writeFile target
  | .error e => throw e

/-- What a command may rely on: directories, links in `/dev`, and a git configuration. -/
def ensureBuildEnvironment (rootfs : Path) (env : BuildEnv) : FileM PUnit := do
  (env.dirs rootfs).forM ensureDirMode
  (standardDevLinks rootfs).forM fun link ↦ ensureSymlink link.1 link.2
  if isAbs env.gitConfigGlobal then ensureGitConfig (rootfsPath rootfs env.gitConfigGlobal)

/-! ## Files of the host -/

/-- What is found of a file of the host that commands are to see. -/
inductive HostFile where
  | present
  | missing
  | unreadable
  deriving DecidableEq

/-- What was in the place of a file. -/
inductive PathBackup where
  | absent
  | link (target : Text)
  | file
  deriving DecidableEq

/-- The contents of a file are read through the path. They belong to the image, and count for no
read. -/
def snapshotPath : FileM PathBackup := do
  match ← ask fun w ↦ .ok (w.lstat path) with
  | .error .enoent => return .absent
  | .error e => throw e
  | .ok (.symlink target) => return .link target
  | .ok .dir => throw .eisdir
  | .ok (.file _) => return .file

/-- The host's file replaces that of the image, which is kept. -/
def injectHostFile (target : Path) : HostFile → FileM (List (Path × PathBackup))
  | .missing => return []
  | .unreadable => throw .eio
  | .present => do
    act (mkdirAll target.dropLast.reverse)
    let backup ← snapshotPath target
    writeFile target
    return [(target, backup)]

/-- What was kept is put back. -/
def restorePath : PathBackup → FileM PUnit
  | .absent => act (sys (·.remove path))
  | .link target => do
    act (sys (·.removeAll path))
    act (sys (·.symlink target path))
  | .file => do
    act (sys (·.removeAll path))
    writeFile path

/-- Put everything back, the last first. Errors are ignored. -/
def restoreAll (backups : List (Path × PathBackup)) : FileM PUnit :=
  backups.forM fun backup ↦ attempt (restorePath backup.1 backup.2)

/-! ## The condition -/

/-- No link is on the way to the directories, nor to the device links. The configuration of git is
behind no link, and not behind a device link that will be made before it. -/
@[mk_iff]
structure BuildEnv.Direct (rootfs : Path) (w : World) (env : BuildEnv) : Prop where
  dirs : ∀ dir ∈ env.dirs rootfs, rootfs <+: dir ∧ Unlinked w.linkAt [] dir
  links : ∀ link ∈ standardDevLinks rootfs, Unlinked w.linkAt [] link.1.dropLast
  git : isAbs env.gitConfigGlobal = true →
    rootfs <+: rootfsPath rootfs env.gitConfigGlobal ∧
      Unlinked w.linkAt [] (rootfsPath rootfs env.gitConfigGlobal) ∧
      ∀ link ∈ standardDevLinks rootfs, ¬ link.1 <+: rootfsPath rootfs env.gitConfigGlobal

instance BuildEnv.decidableDirect (rootfs : Path) (w : World) (env : BuildEnv) :
    Decidable (env.Direct rootfs w) :=
  decidable_of_iff _ (direct_iff rootfs w env).symm

/-! ## Directories and links -/

section Directories

variable {A B : Area} {s₁ : Session} {L : Set Path} {path rootfs : Path} {env : BuildEnv}

/-- The new link is the only place that is not clear any more. -/
theorem ensureSymlink_triple (hdst : Destination A s₁.world path) (hway : way path.dropLast ⊆ L)
    (target : Text) :
    Leads (Guarded A B s₁ L) (ensureSymlink path target) (Guarded A B s₁ (besides L path)) := by
  have hmake : Leads (Guarded A B s₁ L)
      (do act (mkdirAll path.dropLast.reverse); act (sys (·.symlink target path)))
      (Guarded A B s₁ (besides L path)) :=
    bind_less (hdst.mkdirParent_keeps hway) fun _ ↦
      hdst.makeLink hway target
  have hreplace := bind_less (B := B) (hdst.removeAll_keeps hway) fun _ ↦ hmake
  refine bind_less ask_keeps fun info ↦ ?_
  split
  · split
    · exact .pure fun _ h ↦ h.less
    · exact hreplace
  · exact hreplace
  · exact hmake

theorem ensureGitConfig_triple (hdst : Destination A s₁.world path) (hway : way path ⊆ L) :
    Keeps (Guarded A B s₁ L) (ensureGitConfig path) := by
  refine .bind (mkdirParent_triple hdst hway) fun _ ↦ ?_
  refine .bind ask_keeps fun info ↦ ?_
  split
  · exact .skip
  · exact writeFile_triple hdst hway
  · exact .raise

/-- The directory of the device links. -/
def devDir (rootfs : Path) : Path := rootfs ++ ["dev".toList]

theorem rootfsFile_eq (hclean : Clean rootfs) {name : String} {dir c : Text}
    (heq : cleanComponents name.toList = [dir, c]) (hname : Clean [dir, c]) :
    rootfsFile rootfs name = rootfs ++ [dir] ++ [c] := by
  rw [rootfsFile, heq, join_of_clean hclean hname, append_assoc, singleton_append]

theorem standardDevLinks_eq (hclean : Clean rootfs) {link : Path × Text}
    (hlink : link ∈ standardDevLinks rootfs) : ∃ c, IsName c ∧ link.1 = devDir rootfs ++ [c] := by
  simp only [standardDevLinks, mem_cons, not_mem_nil, or_false] at hlink
  rcases hlink with rfl | rfl | rfl | rfl | rfl
  · exact ⟨"fd".toList, by decide, rootfsFile_eq hclean (by decide +kernel) (by decide)⟩
  · exact ⟨"ptmx".toList, by decide, rootfsFile_eq hclean (by decide +kernel) (by decide)⟩
  · exact ⟨"stdin".toList, by decide, rootfsFile_eq hclean (by decide +kernel) (by decide)⟩
  · exact ⟨"stdout".toList, by decide, rootfsFile_eq hclean (by decide +kernel) (by decide)⟩
  · exact ⟨"stderr".toList, by decide, rootfsFile_eq hclean (by decide +kernel) (by decide)⟩

theorem clean_dirs (hclean : Clean rootfs) {dir : Path} (hdir : dir ∈ env.dirs rootfs) :
    Clean dir := by
  rcases mem_append.mp hdir with hvar | hfixed
  · obtain ⟨value, -, rfl⟩ := mem_map.mp hvar
    exact clean_rootfsPath hclean value
  simp only [mem_cons, not_mem_nil, or_false] at hfixed
  rcases hfixed with rfl | rfl
  · exact clean_join _ _
  · exact clean_join _ _

/-- **The environment of a command** is made in the root filesystem. -/
theorem ensureBuildEnvironment_triple (hroot : Rooted rootfs s₁.world)
    (h : env.Direct rootfs s₁.world) :
    Leads (· = s₁) (ensureBuildEnvironment rootfs env) (Guarded (.tree rootfs) B s₁ ∅) := by
  have hstart := Guarded.refl (.tree rootfs) B s₁
  have hdirs : Leads (· = s₁) ((env.dirs rootfs).forM ensureDirMode)
      (Guarded (.tree rootfs) B s₁ s₁.world.clear) := by
    refine .at_state (.forM (I := Guarded (.tree rootfs) B s₁ s₁.world.clear) _ fun dir hdir ↦ ?_)
      hstart
    obtain ⟨hpre, hunlinked⟩ := h.dirs dir hdir
    have hdst := hroot.destination (clean_dirs hroot.clean hdir) hpre
    have hway := way_subset_clear hunlinked
    exact .bind (hdst.mkdirAll_keeps hway) fun _ ↦ chmod_triple hdst.clean hdst.mem hway
  -- While the links are made, their places are left out of what is clear.
  generalize hps : (standardDevLinks rootfs).map Prod.fst = ps
  have hmem : ∀ link ∈ standardDevLinks rootfs, link.1 ∈ ps :=
    fun link hlink ↦ hps ▸ mem_map_of_mem hlink
  have hsiblings : ∀ p ∈ ps, ∃ c, p = devDir rootfs ++ [c] := by
    intro p hp
    rw [← hps] at hp
    obtain ⟨link, hlink, rfl⟩ := mem_map.mp hp
    obtain ⟨c, -, heq⟩ := standardDevLinks_eq hroot.clean hlink
    exact ⟨c, heq⟩
  have hlinks : Keeps (Guarded (.tree rootfs) B s₁ (avoiding s₁.world.clear ps))
      ((standardDevLinks rootfs).forM fun link ↦ ensureSymlink link.1 link.2) := by
    refine .forM _ fun link hlink ↦ ?_
    obtain ⟨c, hname, heq⟩ := standardDevLinks_eq hroot.clean hlink
    have hparent : link.1.dropLast = devDir rootfs := by rw [heq, dropLast_concat]
    have hway := h.links link hlink
    have hclean : Clean link.1 := by
      rw [heq]
      exact (hroot.clean.append (clean_singleton.mpr (by decide))).append
        (clean_singleton.mpr hname)
    have hpre : rootfs <+: link.1 := by
      rw [heq, devDir, append_assoc]
      exact prefix_append _ _
    rw [hparent] at hway
    refine (ensureSymlink_triple (hroot.destination hclean hpre)
      (by rw [hparent]; exact way_subset_avoiding hsiblings (way_subset_clear hway))
      link.2).weaken_leads fun _ h ↦ h.mono (avoiding_subset_sep (hmem link hlink))
  refine .bind (hdirs.weaken_error fun _ h ↦ h.relax) fun _ ↦ ?_
  refine .bind (hlinks.weaken (fun _ h ↦ h.mono (Set.sep_subset _ _)) (fun _ _ h ↦ h)
    fun _ h ↦ h.relax) fun _ ↦ ?_
  split_ifs with habs
  · obtain ⟨hpre, hunlinked, hnot⟩ := h.git habs
    have hway : way (rootfsPath rootfs env.gitConfigGlobal) ⊆ avoiding s₁.world.clear ps := by
      refine fun q hq ↦ ⟨way_subset_clear hunlinked hq, fun p hp hpq ↦ ?_⟩
      rw [← hps] at hp
      obtain ⟨link, hlink, rfl⟩ := mem_map.mp hp
      exact hnot link hlink (hpq.trans hq.2)
    exact (ensureGitConfig_triple (hroot.destination
      (clean_rootfsPath hroot.clean _) hpre) hway).weaken_leads fun _ h ↦ h.relax
  · exact .pure fun _ h ↦ h.relax

end Directories

/-! ## Files of the host -/

section HostFiles

variable {A B : Area} {s₁ : Session} {L : Set Path} {path : Path} {backup : PathBackup}

theorem snapshotPath_triple : Keeps (Guarded A B s₁ L) (snapshotPath path) := by
  refine .bind ask_keeps fun info ↦ ?_
  split
  · exact .skip
  · exact .raise
  · exact .skip
  · exact .raise
  · exact .skip

theorem injectHostFile_triple {host : HostFile} (hdst : Destination A s₁.world path)
    (hway : host = .present → way path ⊆ L) : Triple (Guarded A B s₁ L) (injectHostFile path host)
      (fun backups s ↦ Guarded A B s₁ L s ∧ ∀ b ∈ backups, b.1 = path) (Guarded A B s₁ L) := by
  cases host with
  | missing => exact .pure fun _ h ↦ ⟨h, nofun⟩
  | unreadable => exact .raise
  | present =>
    refine .bind (mkdirParent_triple hdst (hway rfl)) fun _ ↦ ?_
    refine .bind snapshotPath_triple fun backup ↦ ?_
    refine .bind (writeFile_triple hdst (hway rfl)) fun _ ↦ ?_
    refine .pure fun _ h ↦ ⟨h, fun b hb ↦ ?_⟩
    rw [mem_singleton.mp hb]

theorem restorePath_triple (hdst : Destination A s₁.world path) (hway : way path.dropLast ⊆ L) :
    Leads (Guarded A B s₁ L) (restorePath path backup) (Guarded A B s₁ (besides L path)) := by
  have hless : ∀ s, Guarded A B s₁ (L ∪ {q | path <+: q}) s → Guarded A B s₁ (besides L path) s :=
    fun _ h ↦ h.mono fun _ hq ↦ .inl hq.1
  have hremove : Triple (Guarded A B s₁ L) (act (sys (·.removeAll path)))
      (fun _ ↦ Guarded A B s₁ (L ∪ {q | path <+: q}))
      (Guarded A B s₁ (besides L path)) :=
    (act_triple (sys_removeAll_triple hdst.clean hway hdst.mem)).weaken_error hless
  cases backup with
  | absent => exact (hdst.remove_keeps hway).weaken_leads fun _ h ↦ h.less
  | link target =>
    refine .bind (hremove.weaken_post (fun _ _ h ↦ h.mono Set.subset_union_left)
      fun _ h ↦ h) fun _ ↦ hdst.makeLink hway target
  | file =>
    -- Nothing is left that the path could lead through.
    refine .bind hremove fun _ ↦ ?_
    exact (writeFile_triple hdst (way_subset_union hway)).weaken_leads hless

theorem restoreAll_triple {dir : Path} {backups : List (Path × PathBackup)}
    (hbackups : ∀ b ∈ backups, Destination A s₁.world b.1 ∧ ∃ c, b.1 = dir ++ [c])
    (hway : way dir ⊆ L) : Leads (Guarded A B s₁ L) (restoreAll backups) (Guarded A B s₁ ∅) := by
  generalize hps : backups.map Prod.fst = ps
  have hsiblings : ∀ p ∈ ps, ∃ c, p = dir ++ [c] := by
    intro p hp
    rw [← hps] at hp
    obtain ⟨b, hb, rfl⟩ := mem_map.mp hp
    exact (hbackups b hb).2
  have hall : Keeps (Guarded A B s₁ (avoiding L ps)) (restoreAll backups) := by
    refine .forM _ fun b hb ↦ ?_
    obtain ⟨hdst, c, heq⟩ := hbackups b hb
    have hmem : b.1 ∈ ps := hps ▸ mem_map_of_mem hb
    have hparent : way b.1.dropLast ⊆ avoiding L ps := by
      rw [heq, dropLast_concat]
      exact way_subset_avoiding hsiblings hway
    exact .attempt ((restorePath_triple hdst hparent).weaken_leads fun _ h ↦ h.mono
      (avoiding_subset_sep hmem))
  exact hall.weaken (fun _ h ↦ h.mono (Set.sep_subset _ _)) (fun _ _ h ↦ h.relax) fun _ h ↦ h.relax

end HostFiles

end Gocracker
