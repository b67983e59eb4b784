import Gocracker.Container.RootDisk
import Gocracker.Posix.Inodes

/-!
# The disk of a snapshot

A snapshot consists of the RAM of a VM and of a reference to its disk. RAM is copied while the VM
stands still. The disk is large, so the code avoids copying it, and how a snapshot comes by its disk
depends on who takes it:

* `TakeSnapshot` in the process of the VM puts a hard link to the disk into the directory of the
  snapshot, and copies only if that fails. With dirty logging it does nothing of the kind and notes
  the path of the disk;
* `takeSnapshotViaExport`, for a VM in a worker, makes the hard link after the worker has resumed
  the VM, or else notes the path;
* `captureWarmSnapshot` makes up for a skipped hard link, again after the VM was resumed.

A VM that is restored opens the file the snapshot refers to, for writing.

## Holding on to a disk

The model keeps names and files apart. What a snapshot should find is the content of the disk when
its RAM was captured, a *holding* under the name the snapshot has noted. The property is that all
holdings of finished snapshots are backed. Snapshots in the making are holdings, too: theirs is
under the path at which the disk of the VM is known.
-/

namespace Gocracker

open Machine Transition Posix List Option Function

/-! ## Names of disk images -/

/-- The places of disk images on the host. -/
inductive ImagePath where
  /-- The cached image VMs are booted from. -/
  | template
  /-- The disk in the runtime directory of a VM, `runs/<id>`. -/
  | runtime (id : ℕ)
  /-- `artifacts/disk.ext4` in a snapshot directory. -/
  | artifact (dir : ℕ)
  deriving DecidableEq

abbrev ImageFiles := Inodes ImagePath (List Byte)

/-- The `DiskImage` of a `snapshot.json`. -/
inductive DiskRef where
  /-- `artifacts/disk.ext4`, in the directory of the snapshot. -/
  | bundled
  | host (path : ImagePath)
  /-- A path in the jail of a worker, which means nothing to the host. -/
  | jailed
  deriving DecidableEq

/-- `resolveSnapshotPath`, for the disk. -/
def DiskRef.resolve (dir : ℕ) : DiskRef → Option ImagePath
  | .bundled => some (.artifact dir)
  | .host path => some path
  | .jailed => none

namespace ImageFiles

variable (files : ImageFiles)

variable (src dst : ImagePath) (linked : Bool)

/-- `copyFile`: a hard link (`linked`: one can be made), or else a copy. If there is a file at `dst`
it is truncated before anything is read. -/
def copyFile : Option ImageFiles :=
  match files.lookup src with
  | none => none
  | some ino =>
    match files.lookup dst with
    | none =>
      if linked then some (files.link src dst) else some (files.create dst (files.content ino))
    | some old => some (files.write old (if old = ino then [] else files.content ino))

/-- A disk goes into a bundle as a hard link if possible, else as a copy. -/
def bundleAsset (src : ImagePath) (dir : ℕ) (linked : Bool) : Option ImageFiles :=
  if src = .artifact dir then some files else copyFile files src (.artifact dir) linked

/-- `os.Link`: it fails if there is no source or there is a target, or for reasons of its own. -/
def tryLink : Option ImageFiles :=
  if linked ∧ (files.lookup src).isSome ∧ files.lookup dst = none then some (files.link src dst)
  else none

/-- The disk that a run boots from, made from the template. -/
def prepareBootDisk (id : ℕ) (overlay linked : Bool) : ImageFiles :=
  let files := files.unlink (.runtime id)
  if overlay ∧ linked then files.link .template (.runtime id)
  else files.create (.runtime id) ((files.read .template).getD [])

end ImageFiles

/-! ## Hosts -/

/-- How the disk of a VM can be reached. -/
inductive DiskHandle where
  /-- A VM in this process: its `DiskImage`, the path of its root drive if it has a list of drives,
  and whether it logs dirty pages. -/
  | direct (diskImage : ImagePath) (drive : Option ImagePath) (dirtyLogging : Bool)
  /-- A VM in a worker. A VM that was restored there has no `hostDiskPath`. -/
  | worker (hostDiskPath : Option ImagePath)

def DiskHandle.path : DiskHandle → Option ImagePath
  | .direct diskImage _ _ => some diskImage
  | .worker hostDiskPath => hostDiskPath

/-- A VM and the image that it writes to. -/
structure ImageVM where
  ino : ℕ
  device : BlockDevice
  handle : DiskHandle
  paused : Bool

/-- A snapshot whose RAM has been captured. -/
structure PendingSnapshot where
  vm : ℕ
  dir : ℕ
  handle : DiskHandle
  captured : List Byte
  /-- The call has paused the VM and will resume it. -/
  resumeAfter : Bool

/-- A snapshot that has been taken, and the content of the disk when its RAM was captured. -/
structure SnapshotRecord where
  dir : ℕ
  ref : DiskRef
  /-- The path of the root drive if there is a list of drives. It is not rewritten. -/
  drive : Option ImagePath
  captured : List Byte

/-- All images of a host, its VMs and its snapshots. -/
structure ImageHost where
  files : ImageFiles
  vms : List ImageVM
  pending : List PendingSnapshot
  snapshots : List SnapshotRecord

def PendingSnapshot.holding (c : PendingSnapshot) : Holding ImagePath (List Byte) :=
  (c.handle.path, c.captured)

def SnapshotRecord.holding (s : SnapshotRecord) : Holding ImagePath (List Byte) :=
  (s.ref.resolve s.dir, s.captured)

/-- What a host does with its images. -/
inductive ImageEvent where
  | boot (id : ℕ) (cfg : Config) (opts : RunOptions) (path : String)
      (worker dirtyLogging linked punchesHoles : Bool)
  /-- The first half of taking a snapshot: the RAM is captured. -/
  | capture (vm dir : ℕ)
  /-- The second half, for one of the pending snapshots. -/
  | bundle (i : ℕ) (linked : Bool)
  /-- `captureWarmSnapshot`, after `TakeSnapshot` has returned. -/
  | warmLink (i : ℕ) (linked : Bool)
  | restore (i : ℕ) (arch : Arch) (worker dirtyLogging punchesHoles : Bool)
  /-- A request of a VM's guest, in a chain of its own making. -/
  | request (vm : ℕ) (q : Queue) (r : Ram) (head : BitVec 16) (faults : List (Option ℕ))
  /-- The runtime directory of an id is removed. -/
  | cleanup (id : ℕ)

namespace ImageHost

def init (template : List Byte) : ImageHost where
  files := {
    lookup := Function.update (fun _ ↦ none) .template (some 0)
    content := Function.update (fun _ ↦ []) 0 template
    next := 1
    lookup_lt := by
      intro name ino h
      by_cases hname : name = .template
      · subst hname
        rw [update_self, Option.some.injEq] at h
        omega
      · rw [update_of_ne hname] at h
        nomatch h }
  vms := []
  pending := []
  snapshots := []

/-- What the snapshots rely on, those in the making included. -/
def holdings (h : ImageHost) : List (Holding ImagePath (List Byte)) :=
  h.snapshots.map SnapshotRecord.holding ++ h.pending.map PendingSnapshot.holding

def openRoot (h : ImageHost) (ino : ℕ) (punchesHoles : Bool) (opts : BlockDeviceOptions) :
    BlockDevice :=
  newBlockDeviceWithOptions ⟨(h.files.content ino).length, punchesHoles⟩ false opts

/-- The call for a snapshot returns: it is no longer pending, and the VM may go on. -/
def returned (h : ImageHost) (i : ℕ) (c : PendingSnapshot) : ImageHost :=
  { h with
    pending := h.pending.eraseIdx i
    vms := if c.resumeAfter then h.vms.modify c.vm fun v ↦ { v with paused := false } else h.vms }

/-- A `snapshot.json` is written, over the one that is in the directory. -/
def record (h : ImageHost) (s : SnapshotRecord) : ImageHost :=
  { h with snapshots := s :: h.snapshots.filter fun t ↦ t.dir ≠ s.dir }

/-- The second half of a snapshot: the disk follows the memory. -/
def bundleStep (h : ImageHost) (i : ℕ) (c : PendingSnapshot) (linked : Bool) : ImageHost :=
  match c.handle with
  | .direct diskImage drive true =>
    (h.returned i c).record ⟨c.dir, .host diskImage, drive, c.captured⟩
  | .direct diskImage drive false =>
    match h.files.bundleAsset diskImage c.dir linked with
    -- The call fails and leaves no snapshot.
    | none => h.returned i c
    | some files =>
      { h.returned i c with files }.record ⟨c.dir, .bundled, drive, c.captured⟩
  | .worker none =>
    { h.returned i c with files := h.files.unlink (.artifact c.dir) }.record
      ⟨c.dir, .jailed, none, c.captured⟩
  | .worker (some path) =>
    -- The directory is removed and filled again from the worker's.
    let files : ImageFiles := h.files.unlink (.artifact c.dir)
    match files.tryLink path (.artifact c.dir) linked with
    | none => { h.returned i c with files }.record ⟨c.dir, .host path, none, c.captured⟩
    | some files => { h.returned i c with files }.record ⟨c.dir, .bundled, none, c.captured⟩

/-- The warm cache links the disk that the snapshot refers to. -/
def warmLinkStep (h : ImageHost) (i : ℕ) (s : SnapshotRecord) (linked : Bool) : ImageHost :=
  match s.ref with
  | .host path =>
    match h.files.tryLink path (.artifact s.dir) linked with
    | none => h
    | some files => { h with files, snapshots := h.snapshots.set i { s with ref := .bundled } }
  | _ => h

def step (h : ImageHost) : ImageEvent → Option ImageHost
  | .boot id cfg opts path worker dirtyLogging linked punchesHoles =>
    match bootDrive cfg path opts with
    | none => none
    | some _ =>
      let h := { h with files := h.files.prepareBootDisk id (!opts.rootfsPersistent) linked }
      match h.files.lookup (.runtime id) with
      | none => none
      | some ino =>
        let drive := if runtimeDrives path opts = [] then none else some (.runtime id)
        let handle : DiskHandle :=
          if worker then .worker (some (.runtime id)) else .direct (.runtime id) drive dirtyLogging
        let device := h.openRoot ino punchesHoles ⟨false, false⟩
        some { h with vms := h.vms ++ [⟨ino, device, handle, false⟩] }
  | .capture vm dir =>
    match h.vms[vm]? with
    | none => none
    | some v =>
      match v.handle with
      | .direct .. =>
        let c : PendingSnapshot := ⟨vm, dir, v.handle, h.files.content v.ino, !v.paused⟩
        -- The memory file of the snapshot that was in the directory has been overwritten.
        some { h with
          vms := h.vms.set vm { v with paused := true }
          pending := h.pending ++ [c]
          snapshots := h.snapshots.filter fun t ↦ t.dir ≠ dir }
      | .worker _ =>
        -- The worker pauses the VM and resumes it before it answers.
        let c : PendingSnapshot := ⟨vm, dir, v.handle, h.files.content v.ino, false⟩
        some { h with pending := h.pending ++ [c] }
  | .bundle i linked =>
    match h.pending[i]? with
    | none => none
    | some c => some (h.bundleStep i c linked)
  | .warmLink i linked =>
    match h.snapshots[i]? with
    | none => none
    | some s => some (h.warmLinkStep i s linked)
  | .restore i arch worker dirtyLogging punchesHoles =>
    match h.snapshots[i]? with
    | none => none
    | some s =>
      match s.ref.resolve s.dir with
      | none => none
      | some diskImage =>
        match h.files.lookup (s.drive.getD diskImage) with
        | none => none
        | some ino =>
          let opts : BlockDeviceOptions :=
            match arch with
            | .amd64 => ⟨true, true⟩
            | .arm64 => ⟨false, false⟩
          let handle : DiskHandle :=
            if worker then .worker none else .direct diskImage s.drive dirtyLogging
          some { h with vms := h.vms ++ [⟨ino, h.openRoot ino punchesHoles opts, handle, false⟩] }
  | .request vm q r head faults =>
    match h.vms[vm]? with
    | none => none
    | some v =>
      if v.paused then none
      else
        let file := h.files.content v.ino
        let out := v.device.handleRequest q r file faults head
        some { h with files := h.files.write v.ino (overlay file out.ops) }
  | .cleanup id => some { h with files := h.files.unlink (.runtime id) }

/-! ## Point in time -/

/-- Under the name every snapshot refers to there is the disk as it was when its RAM was
captured. -/
def PointInTime (h : ImageHost) : Prop :=
  ∀ s ∈ h.snapshots, (s.ref.resolve s.dir).bind h.files.read = some s.captured

/-- The condition under which it is: no name a snapshot relies on is removed, no file it relies on
is written to, and a snapshot is taken only of a VM whose disk is known and still in place. -/
def Spares (h : ImageHost) : ImageEvent → Prop
  | .boot id .. => ¬Pinned h.holdings (.runtime id)
  | .capture vm _ =>
    match h.vms[vm]? with
    | none => True
    | some v => v.handle.path.bind h.files.lookup = some v.ino
  | .bundle i _ =>
    match h.pending[i]? with
    | none => True
    | some c =>
      match c.handle with
      | .direct diskImage _ dirtyLogging =>
        dirtyLogging = true ∨ diskImage = .artifact c.dir ∨
          ∀ ino ∈ h.files.lookup (.artifact c.dir), ¬Held h.files h.holdings ino
      | .worker _ => ¬Pinned h.holdings (.artifact c.dir)
  | .request vm q r head _ =>
    match h.vms[vm]? with
    | none => True
    | some v => v.device.modifies q r head = true → ¬Held h.files h.holdings v.ino
  | .cleanup id => ¬Pinned h.holdings (.runtime id)
  | _ => True

instance (h : ImageHost) (e : ImageEvent) : Decidable (h.Spares e) := by
  unfold Spares
  split
  · infer_instance
  · split <;> infer_instance
  · split
    · infer_instance
    · split <;> infer_instance
  · split <;> infer_instance
  · infer_instance
  · infer_instance

/-! ## What the steps do to the holdings -/

section Steps

variable {files files' : ImageFiles} {hs : List (Holding ImagePath (List Byte))}

variable {linked : Bool}

variable {b : List Byte}

/-- A copy of a file that is held, to a place whose file is not: the holdings are backed as before,
and the copy has the content. -/
theorem backed_copyFile {src dst : ImagePath} (hb : Backed files hs) (hmem : (some src, b) ∈ hs)
    (hdst : ∀ ino ∈ files.lookup dst, ¬Held files hs ino)
    (hcopy : files.copyFile src dst linked = some files') :
    Backed files' hs ∧ files'.read dst = some b := by
  have hread : files.read src = some b := hb _ hmem
  obtain ⟨ino, hino, hcontent⟩ := map_eq_some_iff.mp hread
  rw [ImageFiles.copyFile, hino] at hcopy
  cases hold : files.lookup dst with
  | none =>
    have hpin := hb.not_pinned hold
    simp only [hold] at hcopy
    split at hcopy
    · obtain ⟨⟩ := hcopy
      exact ⟨hb.link hpin, (files.read_link_self src dst).trans hread⟩
    · obtain ⟨⟩ := hcopy
      refine ⟨hb.create hpin, ?_⟩
      rw [files.read_create_self, hcontent]
  | some old =>
    -- The file at the target is not the source, which is held: nothing is lost by truncating it.
    have hne : old ≠ ino := by
      rintro rfl
      exact hdst old hold ⟨_, hmem, hino⟩
    simp only [hold, if_neg hne] at hcopy
    obtain ⟨⟩ := hcopy
    refine ⟨hb.write (hdst old hold), ?_⟩
    simp [Inodes.read, Inodes.write, hold, hcontent]

theorem backed_tryLink {src dst : ImagePath} (hb : Backed files hs) (hmem : (some src, b) ∈ hs)
    (hlink : files.tryLink src dst linked = some files') :
    Backed files' hs ∧ files'.read dst = some b := by
  obtain ⟨hcond, ⟨⟩⟩ := ite_none_right_eq_some.mp hlink
  exact ⟨hb.link (hb.not_pinned hcond.2.2), (files.read_link_self src dst).trans (hb _ hmem)⟩

theorem backed_prepareBootDisk {id : ℕ} {overlay : Bool} (hb : Backed files hs)
    (hpin : ¬Pinned hs (.runtime id)) : Backed (files.prepareBootDisk id overlay linked) hs := by
  rw [ImageFiles.prepareBootDisk]
  split
  · exact (hb.unlink hpin).link hpin
  · exact (hb.unlink hpin).create hpin

end Steps

variable {h h' : ImageHost}

theorem holdings_returned_subset (i : ℕ) (c : PendingSnapshot) :
    (h.returned i c).holdings ⊆ h.holdings := by
  refine append_subset.mpr ⟨subset_append_left _ _, ?_⟩
  have hsub : h.pending.eraseIdx i ⊆ h.pending := eraseIdx_subset
  exact List.Subset.trans (map_subset _ hsub) (subset_append_right _ _)

theorem holdings_record_subset (s : SnapshotRecord) :
    (h.record s).holdings ⊆ s.holding :: h.holdings := by
  intro x hx
  rcases mem_append.mp hx with hx | hx
  · rcases mem_cons.mp hx with rfl | hx
    · exact mem_cons_self
    · have hsub : (h.snapshots.filter fun t ↦ t.dir ≠ s.dir) ⊆ h.snapshots := filter_subset_self _
      exact mem_cons_of_mem _ (mem_append_left _ (map_subset _ hsub hx))
  · exact mem_cons_of_mem _ (mem_append_right _ hx)

variable {i : ℕ} {c : PendingSnapshot} {s : SnapshotRecord}

/-- A call returns and leaves a snapshot whose disk is in place. -/
theorem backed_record {files : ImageFiles} {path : ImagePath} (hb : Backed files h.holdings)
    (hpath : s.ref.resolve s.dir = some path) (hread : files.read path = some s.captured) :
    Backed files ({ h.returned i c with files }.record s).holdings := by
  have hheld : Backed files (h.returned i c).holdings := hb.mono (holdings_returned_subset i c)
  have hcons : Backed files (s.holding :: (h.returned i c).holdings) := by
    rw [SnapshotRecord.holding, hpath]
    exact hheld.cons hread
  exact hcons.mono (holdings_record_subset (h := { h.returned i c with files }) s)

section

variable (hb : Backed h.files h.holdings)
include hb

variable {linked : Bool}

theorem backed_bundleStep (hc : h.pending[i]? = some c) (hok : h.Spares (.bundle i linked)) :
    Backed (h.bundleStep i c linked).files (h.bundleStep i c linked).holdings := by
  have hmem : c.holding ∈ h.holdings :=
    mem_append_right _ (List.mem_map_of_mem (mem_of_getElem? hc))
  simp only [Spares, hc] at hok
  rw [PendingSnapshot.holding] at hmem
  rw [bundleStep]
  generalize c.handle = handle at hok hmem
  rcases handle with ⟨diskImage, drive, dirtyLogging⟩ | hostDiskPath
  · have hread : h.files.read diskImage = some c.captured := hb _ hmem
    cases dirtyLogging with
    | true => exact backed_record hb rfl hread
    | false =>
      dsimp only
      rw [ImageFiles.bundleAsset]
      by_cases hsame : diskImage = .artifact c.dir
      · rw [if_pos hsame]
        exact backed_record hb rfl (hsame ▸ hread)
      rw [if_neg hsame]
      have hdst : ∀ ino ∈ h.files.lookup (.artifact c.dir), ¬Held h.files h.holdings ino := by
        rcases hok with hdirty | heq | hdst
        · nomatch hdirty
        · exact absurd heq hsame
        · exact hdst
      cases hcopy : h.files.copyFile diskImage (.artifact c.dir) linked with
      | none => exact hb.mono (holdings_returned_subset i c)
      | some files =>
        obtain ⟨hb', hread'⟩ := backed_copyFile hb hmem hdst hcopy
        exact backed_record hb' rfl hread'
  · have hb' : Backed (h.files.unlink (.artifact c.dir)) h.holdings := hb.unlink hok
    cases hostDiskPath with
    | none => exact absurd (hb _ hmem) (by simp [DiskHandle.path])
    | some path =>
      dsimp only
      split
      · exact backed_record hb' rfl (hb' _ hmem)
      · rename_i files hlink
        obtain ⟨hb'', hread''⟩ := backed_tryLink hb' hmem hlink
        exact backed_record hb'' rfl hread''

theorem backed_warmLinkStep (hs : h.snapshots[i]? = some s) :
    Backed (h.warmLinkStep i s linked).files (h.warmLinkStep i s linked).holdings := by
  have hmem : s.holding ∈ h.holdings := mem_append_left _ (List.mem_map_of_mem (mem_of_getElem? hs))
  rw [warmLinkStep]
  split
  · rename_i path href
    rw [SnapshotRecord.holding, href] at hmem
    split
    · exact hb
    rename_i files hlink
    obtain ⟨hb', hread'⟩ := backed_tryLink hb hmem hlink
    -- The record now names the link, which has the same content.
    have hcons : Backed files ((some (.artifact s.dir), s.captured) :: h.holdings) :=
      hb'.cons hread'
    refine hcons.mono fun x hx ↦ ?_
    rcases mem_append.mp hx with hx | hx
    · obtain ⟨t, ht, rfl⟩ := mem_map.mp hx
      rcases mem_or_eq_of_mem_set ht with ht | rfl
      · exact mem_cons_of_mem _ (mem_append_left _ (List.mem_map_of_mem ht))
      · exact mem_cons_self
    · exact mem_cons_of_mem _ (mem_append_right _ hx)
  · exact hb

/-- **The first half of a snapshot.** The disk of the VM is found under the path it is known at.
Whichever way it is taken, the holdings are those of before, some of them dropped, and its own. -/
theorem backed_capture {vm dir : ℕ} {v : ImageVM} (hv : h.vms[vm]? = some v)
    (hok : h.Spares (.capture vm dir)) {snapshots : List SnapshotRecord}
    (hsnapshots : snapshots ⊆ h.snapshots)
    (hc : c.holding = (v.handle.path, h.files.content v.ino)) :
    Backed h.files
      (snapshots.map SnapshotRecord.holding ++ (h.pending ++ [c]).map PendingSnapshot.holding) := by
  simp only [Spares, hv] at hok
  obtain ⟨path, hpath, hlookup⟩ := bind_eq_some_iff.mp hok
  have hread : h.files.read path = some (h.files.content v.ino) :=
    map_eq_some_iff.mpr ⟨v.ino, hlookup, rfl⟩
  have hcons : Backed h.files ((v.handle.path, h.files.content v.ino) :: h.holdings) :=
    hpath ▸ hb.cons hread
  refine hcons.mono fun x hx ↦ ?_
  rw [map_append, map_singleton, hc] at hx
  rcases mem_append.mp hx with hx | hx
  · exact mem_cons_of_mem _ (mem_append_left _ (map_subset _ hsnapshots hx))
  · rcases mem_append.mp hx with hx | hx
    · exact mem_cons_of_mem _ (mem_append_right _ hx)
    · exact mem_singleton.mp hx ▸ mem_cons_self

/-- **Every step that spares the disks of the snapshots keeps them.** -/
theorem backed_step {e : ImageEvent} (hok : h.Spares e)
    (hstep : h.step e = some h') : Backed h'.files h'.holdings := by
  revert hstep
  fun_cases step h e with rintro ⟨⟩
  | case3 => exact backed_prepareBootDisk hb hok
  | case5 vm dir v hv => exact backed_capture hb hv hok (filter_subset_self _) rfl
  | case6 vm dir v hv => exact backed_capture hb hv hok (List.Subset.refl _) rfl
  | case8 i linked c hc => exact backed_bundleStep hb hc hok
  | case10 i linked s hs => exact backed_warmLinkStep hb hs
  | case14 => exact hb
  | case17 vm q r head faults v hv =>
    simp only [Spares, hv] at hok
    by_cases hmod : v.device.modifies q r head = true
    · exact hb.write (hok hmod)
    -- A request that does not modify leaves the image as it is.
    · rw [BlockDevice.ops_handleRequest (Bool.eq_false_of_not_eq_true hmod), overlay_nil]
      have hsame : h.files.write v.ino (h.files.content v.ino) = h.files := by
        rw [Inodes.write, update_eq_self]
      rw [hsame]
      exact hb
  | case18 id => exact hb.unlink hok

end

/-- **The disk of every snapshot is the disk at the time of its RAM**, and it exists, in every run
whose steps spare what the snapshots rely on: whatever the template, the VMs, the snapshots and the
requests. -/
theorem pointInTime_of_spares (template : List Byte) {events : List ImageEvent} {h : ImageHost}
    (hrun : Run step Spares (init template) events h) : h.PointInTime := by
  have hinit : Backed (init template).files (init template).holdings :=
    nofun
  have hb : Backed h.files h.holdings :=
    hrun.invariant (I := fun h ↦ Backed h.files h.holdings)
      (fun _ _ _ hb hok hstep ↦ backed_step hb hok hstep) hinit
  exact fun s hs ↦ hb _ (mem_append_left _ (List.mem_map_of_mem hs))

end ImageHost

/-! ## Two runs -/

/-- A cold boot in this process, with a disk of its own (`persistent`) or a link to the template. -/
def bootImage (id : ℕ) (persistent : Bool) : ImageEvent :=
  match bootEvent persistent with
  | .coldBoot cfg opts path linked punchesHoles =>
    .boot id cfg opts path false false linked punchesHoles
  | _ => .cleanup id

/-- A VM writes zeros to sector 0. -/
def outImage (vm : ℕ) : ImageEvent :=
  .request vm (newQueue 4) ⟨outBytes, length_outBytes⟩ 0 []

/-- Where hard links cannot be made, the snapshot has a copy: the VM goes on writing, its runtime
directory is removed, and a VM is restored. -/
theorem pointInTime_of_spares_copied : ∃ h, Run ImageHost.step ImageHost.Spares (.init oneSector)
        [bootImage 0 true, .capture 0 0, .bundle 0 false, outImage 0, .cleanup 0,
          .restore 0 .amd64 false false true] h ∧ h.PointInTime := by
  refine Run.exists_of_exec (·.snapshots.length = 1) (by decide +kernel) fun h hrun _ ↦ ?_
  exact ImageHost.pointInTime_of_spares oneSector hrun

/-- **The source VM writes into its snapshot.** The disk of the snapshot is a hard link to the disk
of the VM, which is resumed and writes to sector 0. -/
theorem not_pointInTime_linked : ∃ h, Run ImageHost.step anyStep (.init oneSector)
        [bootImage 0 true, .capture 0 0, .bundle 0 true, outImage 0] h ∧ ¬h.PointInTime := by
  exact Run.exists_of_exec
    (fun h ↦ ¬∀ s ∈ h.snapshots, (s.ref.resolve s.dir).bind h.files.read = some s.captured)
    (by decide +kernel) fun h hrun hdiffers ↦ hdiffers

end Gocracker
