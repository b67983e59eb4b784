import Gocracker.Transition.Run
import Gocracker.Transition.Custody
import Gocracker.Virtio.BlockMarks
import Gocracker.Vmm.Patch

/-!
# Live migration of the disk

The disk is migrated like RAM: `PrepareMigrationBundle` resets the drive's tracker and copies the
image while the guest runs, `FinalizeMigrationBundle` reads the tracker and writes the dirty pages
as a patch, and the destination applies the patch to its copy.

## The interleaving

A request is handled by the vCPU that has notified the queue, so a VM pauses only when no request is
being handled. Until then requests of several vCPUs are in flight. The write of a descriptor and
its mark are two steps, and the copy of the image proceeds between any two of them. Where the base
bundle has a hard link instead of a copy, it is read later, when the bundle is sent; that is a copy
that begins later.

## What is lost

A write that fails after some bytes is not marked. The bytes are in the image, and in the base if
they were written before the copy came to them; otherwise they are lost.
-/

namespace Gocracker

open Machine Transition List Option DiskOp

/-! ## The state and its steps -/

inductive DiskPreparePhase where
  | idle
  /-- The tracker was reset; the image is being copied. -/
  | copying
  | done
  deriving DecidableEq

inductive DiskFinalizePhase where
  | idle
  /-- The tracker was read and reset. -/
  | gotBitmap (bitmap : List (BitVec 64))
  /-- The patch was written, behind the `memData` of RAM, from the image as it stood. -/
  | written (result : Except PatchError (DirtyFilePatch × List Byte)) (captured : List Byte)

structure DiskMigration where
  device : BlockDevice
  image : List Byte
  dirty : DirtyTracker
  running : Bool
  /-- What the requests in flight have still to do. -/
  inflight : List (List DiskOp)
  prepare : DiskPreparePhase
  /-- The base `disk.ext4`, as far as it was written. -/
  baseFile : List Byte
  finalize : DiskFinalizePhase

inductive DiskAction where
  | request (q : Queue) (r : Ram) (head : BitVec 16) (faults : List (Option ℕ))
  | blkStep (i : ℕ)
  | pause
  | resume
  | resetDirty
  | copyDisk (n : ℕ)
  | prepareDone
  | prepareError
  | resetTracking
  | dirtyBitmapAndReset
  | writePatch (memData : List Byte)

namespace DiskMigration

/-- A drive on an image, before the migration. -/
def init (pageSize : ℕ+) (image : List Byte) (h : image.length < 2 ^ 63)
    (readOnly punchesHoles : Bool) (opts : BlockDeviceOptions) : DiskMigration where
  device := newBlockDeviceWithOptions ⟨image.length, punchesHoles⟩ readOnly opts
  image := image
  dirty := newDirtyTracker pageSize image.length h
  running := true
  inflight := []
  prepare := .idle
  baseFile := []
  finalize := .idle

variable (s : DiskMigration)

def sizeBytes : ℕ := s.device.sectors.toNat * blkSectorSize

/-- The disk's part of `writeMigrationPatches`. -/
def writeDiskPatch (bitmap : List (BitVec 64)) (memData : List Byte) :
    Except PatchError (DirtyFilePatch × List Byte) := do
  let (patch, data, _) ← buildDirtyFilePatch s.image s.sizeBytes migrationDiskPath
    s.dirty.pageSize bitmap memData.length
  return (patch, memData ++ data)

def step : DiskAction → Option DiskMigration
  | .request q r head faults =>
    if s.running then
      let out := s.device.handleRequest q r s.image faults head
      some { s with inflight := s.inflight ++ [out.ops] }
    else none
  | .blkStep i =>
    match s.inflight[i]? with
    | some (op :: ops) =>
      some { s with
        image := op.apply s.image
        dirty := op.track s.dirty
        inflight := s.inflight.set i ops }
    | _ => none
  | .pause => if ∀ ops ∈ s.inflight, ops = [] then some { s with running := false } else none
  | .resume =>
    match s.finalize with
    | .idle => some { s with running := true }
    | _ => none
  | .resetDirty =>
    match s.finalize with
    | .idle =>
      if s.prepare = .copying then none
      else some { s with dirty := s.dirty.reset, prepare := .copying, baseFile := [] }
    | _ => none
  | .copyDisk n =>
    if s.prepare = .copying then
      some { s with baseFile := s.baseFile ++ slice s.image s.baseFile.length n }
    else none
  | .prepareDone =>
    -- The copy ends where the image does.
    if s.prepare = .copying ∧ s.image.length ≤ s.baseFile.length then
      some { s with prepare := .done }
    else none
  | .prepareError => if s.prepare = .copying then some { s with prepare := .idle } else none
  | .resetTracking =>
    match s.finalize with
    | .idle => some { s with dirty := s.dirty.reset, prepare := .idle }
    | _ => none
  | .dirtyBitmapAndReset =>
    match s.finalize with
    | .idle =>
      if s.prepare = .done ∧ s.running = false then
        some { s with
          dirty := s.dirty.snapshotAndReset.2
          finalize := .gotBitmap s.dirty.snapshotAndReset.1 }
      else none
    | _ => none
  | .writePatch memData =>
    match s.finalize with
    | .gotBitmap bitmap =>
      some { s with finalize := .written (s.writeDiskPatch bitmap memData) s.image }
    | _ => none

/-- The image at the instant `FinalizeMigrationBundle` read it. -/
def captured : Option (List Byte) :=
  match s.finalize with
  | .written _ image => some image
  | _ => none

/-- `disk.ext4` on the destination, after the patch was applied to the base. -/
def restored : Option (List Byte) :=
  match s.finalize with
  | .written (.ok (patch, data)) _ => (applyEntries data patch.entries s.baseFile).toOption
  | _ => none

/-- What was captured is what the destination restores. -/
def Transferred : Prop :=
  ∀ image, s.captured = some image → s.restored = some image

/-- The condition on a step: no call of a request fails after it has changed the image. -/
def Complete (_ : DiskMigration) : DiskAction → Prop
  | .request _ _ _ faults => Harmless faults
  | _ => True

instance (s : DiskMigration) (a : DiskAction) : Decidable (s.Complete a) := by
  unfold Complete
  split <;> infer_instance

/-! ## The invariant -/

/-- The page of `o` is marked, or a request in flight will mark it, or `Finalize` has read the
mark. -/
def Tracked (o : ℕ) : Prop :=
  match s.finalize with
  | .idle => s.dirty.isMarked (o / s.dirty.pageSize) = true ∨
      ∃ ops ∈ s.inflight, Covers (ops.map toMemOp) o
  | .gotBitmap bitmap => testPage bitmap (o / s.dirty.pageSize) = true
  | .written _ _ => False

/-- Every byte copied so far is the byte of the image, or lies in the part that is patched, on a
page that is known to be dirty. -/
def Synced : Prop :=
  ∀ o < s.baseFile.length, s.baseFile[o]? = s.image[o]? ∨ o < s.sizeBytes ∧ s.Tracked o

end DiskMigration

/-- **The invariant of a migration.** -/
structure DiskMigrationInv (s : DiskMigration) : Prop where
  sized : s.dirty.memSize = s.image.length
  sizeBytes_le : s.sizeBytes ≤ s.image.length
  inflight : ∀ ops ∈ s.inflight, WellTracked s.sizeBytes ops
  quiet : s.running = false → ∀ ops ∈ s.inflight, ops = []
  finalizing : s.finalize ≠ .idle → s.prepare = .done ∧ s.running = false
  copied_le : s.prepare ≠ .idle → s.baseFile.length ≤ s.image.length
  copied : s.prepare = .done → s.baseFile.length = s.image.length
  synced : s.prepare ≠ .idle → s.captured = none → s.Synced
  transferred : s.Transferred

open DiskMigration

section Steps

variable {s : DiskMigration}

namespace DiskMigration

theorem transferred_of_idle (h : s.finalize = .idle) : s.Transferred := by
  intro image himage
  rw [captured, h] at himage
  nomatch himage

/-- One operation of a request in flight leaves every byte as it was or tracked, and forgets no
page. -/
theorem synced_blkStep {i : ℕ} {op : DiskOp} {ops : List DiskOp} (h : DiskMigrationInv s)
    (hi : s.inflight[i]? = some (op :: ops)) (hidle : s.finalize = .idle)
    (hle : s.baseFile.length ≤ s.image.length) (hsynced : s.Synced) : Synced { s with
      image := op.apply s.image, dirty := op.track s.dirty, inflight := s.inflight.set i ops } := by
  have htracked := h.inflight _ (mem_of_getElem? hi)
  have hfit : op.Fits s.sizeBytes := htracked.fits op mem_cons_self
  have hmarked := htracked.marked
  rw [map_cons] at hmarked
  have hrest : ops ∈ s.inflight.set i ops := mem_set (List.getElem?_eq_some_iff.mp hi).1 ops
  intro o ho
  have hsize : o < s.dirty.memSize := by
    rw [h.sized]
    exact lt_of_lt_of_le ho hle
  -- A page known to be dirty stays known, for the mark is set now or still to come.
  have hmove : s.dirty.isMarked (o / s.dirty.pageSize) = true ∨
      Covers (op.toMemOp :: ops.map toMemOp) o →
      Tracked { s with
        image := op.apply s.image, dirty := op.track s.dirty, inflight := s.inflight.set i ops }
        o := by
    intro hknown
    rw [hidle]
    exact (isMarked_track_or_covers hsize hknown).imp id fun hc ↦ ⟨ops, hrest, hc⟩
  rcases hsynced o ho with hsame | ⟨hin, hknown⟩
  · by_cases hbyte : (op.apply s.image)[o]? = s.image[o]?
    · exact .inl (hsame.trans hbyte.symm)
    · obtain ⟨off, buf, hop, hlo, hhi, hin⟩ := getElem?_apply hfit h.sizeBytes_le hbyte
      rw [hop] at hmarked
      exact .inr ⟨hin, hmove (.inr ((hmarked.1 o hlo hhi).cons _))⟩
  · refine .inr ⟨hin, ?_⟩
    rw [Tracked, hidle] at hknown
    rcases hknown with hmark | ⟨ops', hops', hc⟩
    · exact hmove (.inl hmark)
    rcases eq_or_mem_set hi ops hops' with rfl | hops'
    · exact hmove (.inr hc)
    · rw [hidle]
      exact .inr ⟨ops', hops', hc⟩

end DiskMigration

theorem DiskMigrationInv.init (pageSize : ℕ+) (image : List Byte) (h : image.length < 2 ^ 63)
    (readOnly punchesHoles : Bool) (opts : BlockDeviceOptions) :
    DiskMigrationInv (DiskMigration.init pageSize image h readOnly punchesHoles opts) where
  sized := rfl
  sizeBytes_le := by
    simp only [DiskMigration.sizeBytes, DiskMigration.init, newBlockDeviceWithOptions,
      BitVec.toNat_ofNat, blkSectorSize]
    omega
  inflight := nofun
  quiet := nofun
  finalizing := fun hne ↦ absurd rfl hne
  copied_le := fun hne ↦ absurd rfl hne
  copied := nofun
  synced := fun hne ↦ absurd rfl hne
  transferred := DiskMigration.transferred_of_idle rfl

namespace DiskMigrationInv

/-- While the VM runs, or the image is being copied, `Finalize` has not begun. -/
theorem finalize_eq_idle (h : DiskMigrationInv s) (hbusy : s.running = true ∨ s.prepare ≠ .done) :
    s.finalize = .idle := by
  by_contra hne
  obtain ⟨hdone, hrun⟩ := h.finalizing hne
  rcases hbusy with hbusy | hbusy
  · rw [hrun] at hbusy
    nomatch hbusy
  · exact hbusy hdone

variable {ops : List DiskOp}

section

variable (h : DiskMigrationInv s)
include h

theorem request (hrun : s.running = true) (hops : WellTracked s.sizeBytes ops) :
    DiskMigrationInv { s with inflight := s.inflight ++ [ops] } := by
  have hidle := h.finalize_eq_idle (.inl hrun)
  refine { h with
    inflight := forall_mem_concat h.inflight hops
    quiet := fun hstop ↦ nomatch hrun.symm.trans hstop
    synced := fun hne hnone o ho ↦ ?_
    transferred := transferred_of_idle hidle }
  · refine (h.synced hne hnone o ho).imp id fun ⟨hin, hknown⟩ ↦ ⟨hin, ?_⟩
    rw [DiskMigration.Tracked, hidle] at hknown ⊢
    refine hknown.imp id ?_
    rintro ⟨ops', hops', hc⟩
    exact ⟨ops', mem_append_left _ hops', hc⟩

theorem blkStep {i : ℕ} {op : DiskOp} (hi : s.inflight[i]? = some (op :: ops)) :
    DiskMigrationInv { s with
      image := op.apply s.image, dirty := op.track s.dirty, inflight := s.inflight.set i ops } := by
  -- A request in flight that has something to do keeps the VM running.
  have hrun : s.running = true := by
    by_contra hrun
    nomatch h.quiet (Bool.eq_false_of_not_eq_true hrun) _ (mem_of_getElem? hi)
  have hidle := h.finalize_eq_idle (.inl hrun)
  have htracked := h.inflight _ (mem_of_getElem? hi)
  have hlen : (op.apply s.image).length = s.image.length :=
    length_apply (htracked.fits op mem_cons_self) h.sizeBytes_le
  refine ⟨?_, h.sizeBytes_le.trans hlen.ge, forall_mem_set h.inflight htracked.tail,
    fun hstop ↦ (nomatch hrun.symm.trans hstop), h.finalizing,
    fun hne ↦ (h.copied_le hne).trans hlen.ge, fun hd ↦ (h.copied hd).trans hlen.symm,
    fun hne hnone ↦ synced_blkStep h hi hidle (h.copied_le hne) (h.synced hne hnone),
    transferred_of_idle hidle⟩
  rw [memSize_track, hlen]
  exact h.sized

theorem setRunning {running : Bool} (hquiet : running = false → ∀ ops ∈ s.inflight, ops = [])
    (hidle : running = true → s.finalize = .idle) :
    DiskMigrationInv { s with running := running } := by
  refine ⟨h.sized, h.sizeBytes_le, h.inflight, hquiet, fun hne ↦ ⟨(h.finalizing hne).1, ?_⟩,
    h.copied_le, h.copied, h.synced, h.transferred⟩
  by_contra hrun
  exact hne (hidle (Bool.eq_true_of_not_eq_false hrun))

theorem resetDirty (hidle : s.finalize = .idle) :
    DiskMigrationInv { s with dirty := s.dirty.reset, prepare := .copying, baseFile := [] } := by
  refine ⟨h.sized, h.sizeBytes_le, h.inflight, h.quiet, fun hne ↦ absurd hidle hne,
    fun _ ↦ Nat.zero_le _, nofun, fun _ _ o ho ↦ ?_,
    transferred_of_idle hidle⟩
  exact absurd ho (Nat.not_lt_zero o)

theorem setIdle (hidle : s.finalize = .idle) {dirty : DirtyTracker}
    (hsized : dirty.memSize = s.dirty.memSize) :
    DiskMigrationInv { s with dirty := dirty, prepare := .idle } := by
  refine ⟨hsized.trans h.sized, h.sizeBytes_le, h.inflight, h.quiet, fun hne ↦ absurd hidle hne,
    fun hne ↦ absurd rfl hne, nofun, fun hne ↦ absurd rfl hne,
    transferred_of_idle hidle⟩

theorem copyDisk (hprep : s.prepare = .copying) (n : ℕ) :
    DiskMigrationInv { s with baseFile := s.baseFile ++ slice s.image s.baseFile.length n } := by
  have hbusy : s.prepare ≠ .idle := by simp [hprep]
  have hidle := h.finalize_eq_idle (.inr (by rw [hprep]; simp))
  have hle := h.copied_le hbusy
  refine { h with
    copied_le := fun _ ↦ ?_, copied := fun hd ↦ ?_, synced := fun _ hnone o ho ↦ ?_
    transferred := transferred_of_idle hidle }
  · rw [length_append, length_slice]
    dsimp only
    omega
  · rw [show s.prepare = .done from hd] at hprep
    nomatch hprep
  -- What is appended is the image as it stands, so it needs no mark.
  · by_cases hold : o < s.baseFile.length
    · rw [getElem?_append_left hold]
      exact h.synced hbusy hnone o hold
    left
    rw [length_append, length_slice] at ho
    rw [getElem?_append_right (not_lt.mp hold), getElem?_slice (by omega),
      Nat.add_sub_cancel' (not_lt.mp hold)]

theorem prepareDone (hprep : s.prepare = .copying) (hend : s.image.length ≤ s.baseFile.length) :
    DiskMigrationInv { s with prepare := .done } := by
  have hbusy : s.prepare ≠ .idle := by simp [hprep]
  exact ⟨h.sized, h.sizeBytes_le, h.inflight, h.quiet, fun hne ↦ ⟨rfl, (h.finalizing hne).2⟩,
    fun _ ↦ h.copied_le hbusy, fun _ ↦ le_antisymm (h.copied_le hbusy) hend,
    fun _ ↦ h.synced hbusy, h.transferred⟩

/-- `Finalize` reads the tracker. No request is in flight, so every tracked page is marked. -/
theorem dirtyBitmapAndReset (hidle : s.finalize = .idle)
    (hprep : s.prepare = .done) (hrun : s.running = false) :
    DiskMigrationInv { s with dirty := s.dirty.reset, finalize := .gotBitmap s.dirty.bits } := by
  have hbusy : s.prepare ≠ .idle := by simp [hprep]
  have hnone : s.captured = none := by rw [captured, hidle]
  refine ⟨h.sized, h.sizeBytes_le, h.inflight, h.quiet, fun _ ↦ ⟨hprep, hrun⟩, h.copied_le,
    h.copied, fun _ _ o ho ↦ ?_,
    nofun⟩
  refine (h.synced hbusy hnone o ho).imp id fun ⟨hin, hknown⟩ ↦ ⟨hin, ?_⟩
  rw [DiskMigration.Tracked, hidle] at hknown
  rcases hknown with hmark | ⟨ops, hops, hc⟩
  · exact hmark
  · rw [h.quiet hrun ops hops] at hc
    exact absurd hc (not_covers_nil o)

/-- **The patch makes up for what the copy has missed.** -/
theorem writePatch {bitmap : List (BitVec 64)}
    (hfin : s.finalize = .gotBitmap bitmap) (memData : List Byte) : DiskMigrationInv
      { s with finalize := .written (s.writeDiskPatch bitmap memData) s.image } := by
  obtain ⟨hprep, hrun⟩ := h.finalizing (by rw [hfin]; simp)
  have hbusy : s.prepare ≠ .idle := by simp [hprep]
  have hnone : s.captured = none := by rw [captured, hfin]
  have hlen := h.copied hprep
  refine ⟨h.sized, h.sizeBytes_le, h.inflight, h.quiet, fun _ ↦ ⟨hprep, hrun⟩, h.copied_le,
    h.copied, nofun,
    fun image himage ↦ ?_⟩
  obtain rfl : s.image = image := Option.some.inj himage
  -- The patch covers the part of the image that the device knows of.
  have hpart : s.image.take s.sizeBytes <+: s.image := take_prefix _ _
  have hpartLen : (s.image.take s.sizeBytes).length = s.sizeBytes :=
    length_take_of_le h.sizeBytes_le
  obtain ⟨entries, data, hbuild, hfaith, hspans⟩ := buildDirtyFilePatch_part_spec hpart memData
    migrationDiskPath s.dirty.pageSize.pos bitmap
  rw [hpartLen] at hbuild hspans
  have hwrite : s.writeDiskPatch bitmap memData =
      .ok (⟨migrationDiskPath, s.dirty.pageSize, entries⟩, memData ++ data) :=
    bind_eq_ok.mpr ⟨_, hbuild, rfl⟩
  obtain ⟨out, hout, houtLen, hin, hnot⟩ :=
    applyEntries_spec (fun e he ↦ (hfaith e he).of_isPrefix hpart) hlen
  have heq : out = s.image := by
    refine ext_getElem? fun o ↦ ?_
    by_cases hspan : ∃ e ∈ entries, e.Spans o
    · exact hin o hspan
    rw [hnot o hspan]
    rcases Nat.lt_or_ge o s.baseFile.length with ho | ho
    · refine (h.synced hbusy hnone o ho).resolve_right ?_
      rintro ⟨hsize, hknown⟩
      rw [DiskMigration.Tracked, hfin] at hknown
      exact hspan ((hspans o hsize).mpr hknown)
    · rw [getElem?_eq_none ho, getElem?_eq_none (hlen ▸ ho)]
  simp only [restored, hwrite]
  rw [hout, heq]
  rfl

/-- **Every complete step keeps the invariant.** -/
theorem step {a : DiskAction} {s' : DiskMigration} (hok : s.Complete a)
    (hstep : s.step a = some s') : DiskMigrationInv s' := by
  revert hstep
  fun_cases DiskMigration.step s a with rintro ⟨⟩
  | case1 q r head faults hrun =>
    refine h.request hrun (BlockDevice.wellTracked_handleRequest ?_ hok)
    exact lt_of_le_of_lt h.sizeBytes_le (h.sized ▸ s.dirty.memSize_lt)
  | case3 i op ops hi => exact h.blkStep hi
  | case5 hquiet => exact h.setRunning (fun _ ↦ hquiet) nofun
  | case7 hidle => exact h.setRunning nofun fun _ ↦ hidle
  | case10 hidle => exact h.resetDirty hidle
  | case12 n hprep => exact h.copyDisk hprep n
  | case14 hprep => exact h.prepareDone hprep.1 hprep.2
  | case16 hprep => exact h.setIdle (h.finalize_eq_idle (.inr (by rw [hprep]; simp))) rfl
  | case18 hidle => exact h.setIdle hidle rfl
  | case20 hidle hready => exact h.dirtyBitmapAndReset hidle hready.1 hready.2
  | case23 memData bitmap hfin => exact h.writePatch hfin memData

end

end DiskMigrationInv

end Steps

/-- **The disk arrives as it was captured**, in every run whose requests are complete: for every
image and device, every interleaving of requests with the copy, and every bitmap in between. -/
theorem diskTransferred_of_complete (pageSize : ℕ+) (image : List Byte) (h : image.length < 2 ^ 63)
    (readOnly punchesHoles : Bool) (opts : BlockDeviceOptions) {actions : List DiskAction}
    {s : DiskMigration} (hrun : Run step DiskMigration.Complete
      (.init pageSize image h readOnly punchesHoles opts) actions s) : s.Transferred := by
  have hinv : DiskMigrationInv s :=
    hrun.invariant (fun _ _ _ hinv hok hstep ↦ hinv.step hok hstep)
      (.init pageSize image h readOnly punchesHoles opts)
  exact hinv.transferred

/-! ## Two migrations -/

def sectorMigration : DiskMigration :=
  .init 4096 oneSector (by decide +kernel) false true ⟨false, false⟩

/-- The guest writes zeros to sector 0, and the calls of the host fail as given. -/
def outAction (faults : List (Option ℕ)) : DiskAction :=
  .request (newQueue 4) ⟨outBytes, length_outBytes⟩ 0 faults

/-- The request comes when a part of the sector has been copied, the write when all of it has. -/
theorem diskTransferred_of_complete_midCopy : ∃ s, Run step DiskMigration.Complete sectorMigration
        [.resetDirty, .copyDisk 100, outAction [], .copyDisk 412, .prepareDone, .blkStep 0,
          .blkStep 0, .pause, .dirtyBitmapAndReset, .writePatch []] s ∧ s.Transferred := by
  refine Run.exists_of_exec (·.captured.isSome) (by decide +kernel) fun s hrun _ ↦ ?_
  exact diskTransferred_of_complete 4096 oneSector _ _ _ _ hrun

/-- **A write that fails is lost.** The image has been copied; then all bytes of a descriptor are
written, but the call reports an error. -/
theorem not_diskTransferred_failedWrite : ∃ s, Run step anyStep sectorMigration
        [.resetDirty, .copyDisk 512, .prepareDone, outAction [some 512], .blkStep 0, .pause,
          .dirtyBitmapAndReset, .writePatch []] s ∧ ¬s.Transferred := by
  refine Run.exists_of_exec (fun s ↦ s.captured.bind List.head? = some 0 ∧
    s.restored.bind List.head? = some 1) (by decide +kernel)
    fun s hrun ⟨hcaptured, hrestored⟩ htransferred ↦ ?_
  obtain ⟨image, himage, hhead⟩ := bind_eq_some_iff.mp hcaptured
  rw [htransferred image himage, bind_some, hhead] at hrestored
  exact absurd hrestored (by decide)

end Gocracker
