import Gocracker.Container.Mounts

/-!
# Bringing volumes back

When the machine of a service has stopped, its disk is mounted and the volumes that it may have
written to are copied back to the host: a directory after the old one was removed, a file over the
old one. The disk was in the hands of the guest, so that the target of a volume, and anything above
it, may have become a link; links of the guest lead from the root of the host here.
-/

namespace Gocracker

open Machine Posix Transition List Guarded Area

/-- A volume of a service, and where it is mounted. -/
structure VolumeMount where
  source : Text
  target : Text
  readOnly : Bool
  syncBack : Bool
  isDir : Bool

/-- Why a volume cannot be copied back. -/
inductive VolumeError where
  | os (e : Errno)
  | notDirectory (extracted : Path)

abbrev VolumeM := EStateM VolumeError Session

/-- The place of a guest's path on the mounted disk, which is found as in a root filesystem. -/
def mountedGuestPath (root : Path) (guestPath : Text) : Path := rootfsPath root guestPath

section Volumes

variable (m : Medium) (depth : ℕ) (root : Path)

/-- The directory is emptied first, and then filled from the guest's. -/
def syncDirVolumeFromMount (extracted hostPath : Path) : VolumeM PUnit := do
  let info ← EStateM.adaptExcept .os (ask (·.stat extracted))
  if info ≠ .dir then throw (.notDirectory extracted)
  else EStateM.adaptExcept .os do
    act (sys (·.removeAll hostPath))
    act (mkdirAll hostPath.reverse)
    copyDirContents m depth extracted hostPath

/-- A file is overwritten in place, and a link replaced. -/
def extractFileFromMount (extracted hostPath : Path) : VolumeM PUnit :=
  EStateM.adaptExcept .os (copyFileOrSymlink m extracted hostPath)

/-- A volume that is read-only or not marked for it is not copied back. -/
def VolumeMount.syncs (volume : VolumeMount) : Bool := !volume.readOnly && volume.syncBack

/-- One iteration of the loop of `syncVolumesFromDisk`. -/
def syncVolume (volume : VolumeMount) : VolumeM PUnit :=
  if volume.syncs = false then pure ⟨⟩
  else if volume.isDir then
    syncDirVolumeFromMount m depth (mountedGuestPath root volume.target) (hostPath volume.source)
  else extractFileFromMount m (mountedGuestPath root volume.target) (hostPath volume.source)

end Volumes

/-- The place of the host that the volume is copied back to. -/
def VolumeMount.synced (volume : VolumeMount) : List Path :=
  if volume.syncs then [hostPath volume.source] else []

/-- The state of `syncVolumesFromDisk`, with the host's paths of the volumes that were due. -/
structure SyncBack where
  session : Session
  synced : List Path
  failed : Bool

namespace SyncBack

def init (w : World) : SyncBack := ⟨⟨{ w with touched := [] }, []⟩, [], false⟩

/-- The first error ends the loop. -/
def step (m : Medium) (depth : ℕ) (root : Path) (s : SyncBack) (volume : VolumeMount) :
    Option SyncBack :=
  if s.failed then none
  else
    let r := syncVolume m depth root volume s.session
    some ⟨endState r, volume.synced ++ s.synced, isError r⟩

end SyncBack

/-! ## The condition -/

/-- A place on the disk and one on the host that it may be copied to: they lie apart, the directory
above the second one is there, and no link is on the way. A directory must not be a link on the
disk, and a file none on the host. -/
@[mk_iff]
structure Syncable (root : Path) (w : World) (isDir : Bool) (extracted hostPath : Path) :
    Prop where
  inside : root <+: extracted
  clean : Clean hostPath
  parent : w.kindAt hostPath.dropLast = some .dir
  apart : ¬ hostPath <+: extracted
  apart' : ¬ extracted <+: hostPath
  reached : Unlinked w.linkAt [] (if isDir then extracted else extracted.dropLast)
  unlinked : Unlinked w.linkAt [] (if isDir then hostPath.dropLast else hostPath)

instance (root : Path) (w : World) (isDir : Bool) (extracted hostPath : Path) :
    Decidable (Syncable root w isDir extracted hostPath) :=
  decidable_of_iff _ (syncable_iff root w isDir extracted hostPath).symm

/-- The condition on a step: a volume that is copied back may be. -/
def SyncBack.Direct (root : Path) (s : SyncBack) (volume : VolumeMount) : Prop :=
  volume.syncs = true → Syncable root s.session.world volume.isDir
    (mountedGuestPath root volume.target) (hostPath volume.source)
deriving Decidable

/-! ## One volume -/

variable {m : Medium} {depth : ℕ} {root extracted host : Path} {s₁ : Session}

theorem Syncable.destination {isDir : Bool} (h : Syncable root s₁.world isDir extracted host) :
    Destination (.tree host) s₁.world host :=
  Destination.of_parent h.clean (by rw [h.parent]; simp)

theorem syncDirVolumeFromMount_triple (hclean : Clean extracted)
    (h : Syncable root s₁.world true extracted host) :
    Leads (· = s₁) (syncDirVolumeFromMount m depth extracted host)
      (Guarded (.tree host) (.tree root) s₁ ∅) := by
  have hstart : ∀ s, s = s₁ → Guarded (.tree host) (.tree root) s₁ s₁.world.clear s := by
    rintro s rfl
    exact refl _ _ s
  have hdst := h.destination
  have hreached := unlinked_iff_way.mp h.reached
  have haside : Aside (.tree host) s₁.world extracted extracted := by
    refine Aside.of_apart hclean (unlinked_iff_way.mpr fun q hq ↦ ?_) h.apart h.apart'
    exact hreached q (way_dropLast_subset _ hq)
  have hlink : s₁.world.linkAt extracted = none := by
    refine hreached extracted ⟨fun hnil ↦ ?_, prefix_refl extracted⟩
    exact h.apart' (hnil ▸ nil_prefix)
  have hread : ReadableDir (.tree host) (.tree root) s₁.world extracted :=
    .inr ⟨_, mem_tree.mpr h.inside, haside, hlink⟩
  have hway : way host.dropLast ⊆ s₁.world.clear := way_subset_clear h.unlinked
  refine .bind (.adaptExcept (ask_eq_triple.weaken_post (fun _ _ h ↦ h.1)
    fun s hs ↦ (hstart s hs).relax)) fun info ↦ ?_
  split
  · exact .throw fun s hs ↦ (hstart s hs).relax
  refine .adaptExcept (.bind ((act_triple (sys_removeAll_triple h.clean hway
    hdst.mem)).weaken hstart (fun _ _ h ↦ h) fun _ h ↦ h.relax) fun _ ↦ ?_)
  have hwayHost := way_subset_union hway
  refine .bind ((hdst.mkdirAll_keeps hwayHost).weaken_error fun _ h ↦ h.relax) fun _ ↦ ?_
  exact (copyDirContents_triple hread hdst hwayHost fun q hq ↦ .inr hq.1).weaken_leads
    fun _ h ↦ h.relax

theorem extractFileFromMount_triple (hclean : Clean extracted)
    (h : Syncable root s₁.world false extracted host) :
    Leads (· = s₁) (extractFileFromMount m extracted host)
      (Guarded (.tree host) (.tree root) s₁ ∅) := by
  have hread : Readable (.tree host) (.tree root) s₁.world extracted :=
    .inr ⟨_, mem_tree.mpr h.inside, Aside.of_apart hclean h.reached h.apart h.apart'⟩
  have hway : way host ⊆ s₁.world.clear := way_subset_clear h.unlinked
  refine .adaptExcept ((copyFileOrSymlink_triple hread h.destination hway).weaken ?_
    (fun _ _ h ↦ h.relax) fun _ h ↦ h.relax)
  rintro s rfl
  exact refl _ _ s

/-! ## All volumes -/

namespace SyncBack

variable {w₀ : World} {s s' : SyncBack} {volume : VolumeMount}

/-- Everything acted on lies at or below a host's path of a volume that was due, and everything read
on the disk; the rest is as it was. -/
structure Confined (root : Path) (w₀ : World) (s : SyncBack) : Prop where
  touched : ∀ p ∈ s.session.world.touched, ∃ host ∈ s.synced, host <+: p
  outside : ∀ p, (∀ host ∈ s.synced, ¬ host <+: p) → s.session.world.kindAt p = w₀.kindAt p
  reads : ∀ p ∈ s.session.reads, root <+: p

/-- **One volume**, seen from the state before it. -/
theorem syncVolume_triple (hroot : Clean root) (hok : s.Direct root volume) :
    Leads (· = s.session) (syncVolume m depth root volume)
      (Guarded (.trees volume.synced) (.tree root) s.session ∅) := by
  have hclean : Clean (mountedGuestPath root volume.target) := clean_rootfsPath hroot _
  rw [syncVolume]
  split
  · refine .pure ?_
    rintro _ rfl
    exact (refl _ _ s.session).relax
  rename_i hsyncs
  rw [Bool.not_eq_false] at hsyncs
  have hsyncable := hok hsyncs
  rw [show trees volume.synced = .tree (hostPath volume.source) by
    rw [VolumeMount.synced, if_pos hsyncs, tree]]
  split_ifs with hdir
  · rw [hdir] at hsyncable
    exact syncDirVolumeFromMount_triple hclean hsyncable
  rw [Bool.not_eq_true] at hdir
  rw [hdir] at hsyncable
  exact extractFileFromMount_triple hclean hsyncable

theorem guarded_step {s₀ : Session} (hroot : Clean root)
    (h : Guarded (.trees s.synced) (.tree root) s₀ ∅ s.session) (hok : s.Direct root volume)
    (hstep : s.step m depth root volume = some s') :
    Guarded (.trees s'.synced) (.tree root) s₀ ∅ s'.session := by
  obtain ⟨-, ⟨⟩⟩ := Option.ite_none_left_eq_some.mp hstep
  have hguarded := (syncVolume_triple hroot hok).endState
    (c := syncVolume m depth root volume) (Eq.refl s.session)
  refine trans (h.mono_area (trees_mono ?_) fun _ hq ↦ hq)
    (hguarded.mono_area (trees_mono ?_) fun _ hq ↦ hq)
  · exact subset_append_right _ _
  · exact subset_append_left _ _

/-- **Volumes are copied back to where they belong**, from the disk, if no links are in the way. -/
theorem confined_of_syncable (hroot : Clean root) {volumes : List VolumeMount}
    (hrun : Run (step m depth root) (Direct root) (init w₀) volumes s) : s.Confined root w₀ := by
  have hguarded : Guarded (.trees s.synced) (.tree root) (init w₀).session ∅ s.session :=
    hrun.invariant (I := fun s ↦ Guarded (.trees s.synced) (.tree root) (init w₀).session ∅
      s.session) (fun _ _ _ h hok hstep ↦ guarded_step hroot h hok hstep)
      ((refl _ _ _).relax)
  refine ⟨fun p hp ↦ ?_, fun p hhost ↦ ?_, fun p hp ↦ ?_⟩
  · rcases hguarded.safe.within.touched p hp with hin | hold
    · exact hin
    · exact absurd hold not_mem_nil
  · refine hguarded.safe.within.outside p ?_
    rintro ⟨host, hmem, hpre⟩
    exact hhost host hmem hpre
  · rcases hguarded.reads p hp with hin | hold
    · exact mem_tree.mp hin
    · exact absurd hold not_mem_nil

end SyncBack

/-! ## Two disks -/

/-- A host with a disk mounted at `/m`, a volume `/v` and a secret `/e/s`. The guest has the volume
at `/d`, and a link `l` to `/e`. -/
def volumeHost : World :=
  ⟨some (.dir [
    (['m'], .dir [(['d'], .dir [(['f'], .file 0)]), (['l'], .symlink "/e".toList)]),
    (['v'], .dir [(['o'], .file 1)]), (['e'], .dir [(['s'], .file 2)])]), 3, []⟩

/-- A directory and a file in it are copied back, and a read-only volume is not. -/
theorem confined_of_syncable_two :
    ∃ s, Run (SyncBack.step plainFiles 3 [['m']]) (SyncBack.Direct [['m']]) (.init volumeHost)
        [⟨"/v".toList, "/d".toList, false, true, true⟩,
          ⟨"/e".toList, "/l".toList, true, true, true⟩,
          ⟨"/e/s".toList, "/d/f".toList, false, true, false⟩] s ∧
      s.Confined [['m']] volumeHost := by
  refine Run.exists_of_exec (·.failed = false) (by decide +kernel) fun s hrun _ ↦ ?_
  exact SyncBack.confined_of_syncable (by decide) hrun

/-- **A volume that the guest has made a link.** The host reads `/e` in its place, and the secret is
in the volume afterwards. -/
theorem not_confined_linkedVolume :
    ∃ s, Run (SyncBack.step plainFiles 3 [['m']]) anyStep (.init volumeHost)
        [⟨"/v".toList, "/l".toList, false, true, true⟩] s ∧
      ¬s.Confined [['m']] volumeHost := by
  refine Run.exists_of_exec ([['e'], ['s']] ∈ ·.session.reads) (by decide +kernel)
    fun s hrun hread hconfined ↦ ?_
  exact absurd (hconfined.reads _ hread) (by decide)

end Gocracker
