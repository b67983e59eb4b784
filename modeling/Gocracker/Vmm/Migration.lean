import Gocracker.Transition.Run
import Gocracker.Transition.Custody
import Gocracker.Virtio.DirtyComplete
import Gocracker.Vmm.Patch

/-!
# Live migration of guest RAM

`PrepareMigrationBundle` starts the tracking of writes and copies RAM while the guest runs;
`FinalizeMigrationBundle` reads what was tracked and writes the dirty pages as patches. Two trackers
are merged: KVM's dirty log, for writes by vCPUs, and the tracker of the host's DMA.

## The interleaving

Every party acts between any two steps of every other: a vCPU stores, a device's call executes its
memory operations one at a time, `Prepare` walks through its resets and copies RAM piece by piece,
`TakeSnapshotWithOptions` may be called at any moment, and `Finalize` reads the log, then the
tracker, then RAM. KVM is assumed to record a page for every vCPU store while logging is enabled,
and to forget the recorded pages when they are read.

## What is lost

Reading the log is destructive, and a snapshot reads it. Pages written between `Prepare` and such a
snapshot are in no later patch. The invariant `MigrationInv` survives exactly where this does not
happen: each byte copied so far equals RAM, or its page is logged, or marked, or is about to be
marked by a call in flight.
-/

namespace Gocracker

open Machine Transition List Option DirtyTracker

/-! ## RAM under two trackers -/

/-- Guest RAM with the host's dirty tracker and KVM's dirty log of the same size and page size. -/
structure TrackedRam extends Dma where
  kvmLog : DirtyTracker
  log_sized : kvmLog.memSize = ram.bytes.length
  log_page : kvmLog.pageSize = dirty.pageSize

variable {off o : ℕ} {buf : List Byte}

namespace TrackedRam

def fresh (pageSize : ℕ+) (r : Ram) : TrackedRam where
  toDma := Dma.fresh pageSize r
  kvmLog := newDirtyTracker pageSize r.bytes.length r.length_lt
  log_sized := (Dma.fresh pageSize r).sized
  log_page := rfl

variable (m : TrackedRam)

/-- One operation of a device. -/
def exec (op : MemOp) : TrackedRam where
  toDma := m.toDma.exec op
  kvmLog := m.kvmLog
  log_sized := by rw [Dma.length_exec, m.log_sized]
  log_page := by rw [Dma.pageSize_exec, m.log_page]

/-- A store by a vCPU. KVM logs its pages if logging is enabled. -/
def vcpuWrite (logging : Bool) (off : ℕ) (buf : List Byte) : TrackedRam where
  toDma := m.toDma.exec (.store off buf)
  kvmLog := if logging then m.kvmLog.mark (BitVec.ofNat 64 off) (BitVec.ofNat 64 buf.length)
    else m.kvmLog
  log_sized := by
    rw [Dma.length_exec, ← m.log_sized]
    split
    · rw [memSize_mark]
    · rfl
  log_page := by
    rw [Dma.pageSize_exec, ← m.log_page]
    split
    · rw [pageSize_mark]
    · rfl

/-- KVM forgets the pages it logged. -/
def clearLog : TrackedRam :=
  { m with kvmLog := m.kvmLog.reset, log_sized := m.log_sized, log_page := m.log_page }

def resetMemDirty : TrackedRam :=
  { m with toDma := m.toDma.reset, log_sized := m.log_sized, log_page := m.log_page }

def isLogged (o : ℕ) : Bool := m.kvmLog.isMarked (o / m.kvmLog.pageSize)

@[simp] theorem length_exec (op : MemOp) :
    (m.exec op).ram.bytes.length = m.ram.bytes.length := Dma.length_exec _ _

@[simp] theorem length_vcpuWrite (logging : Bool) (off : ℕ) (buf : List Byte) :
    (m.vcpuWrite logging off buf).ram.bytes.length = m.ram.bytes.length := Dma.length_exec _ _

variable {m}

/-- While logging is enabled, a vCPU's store logs every page it changes and forgets none. -/
theorem isLogged_vcpuWrite (hfit : off + buf.length ≤ m.ram.bytes.length)
    (h : m.isLogged o = true ∨ (off ≤ o ∧ o < off + buf.length)) :
    (m.vcpuWrite true off buf).isLogged o = true := by
  have hlt := m.ram.length_lt
  have hoff : (BitVec.ofNat 64 off).toNat = off := by rw [BitVec.toNat_ofNat]; omega
  have hbuf : (BitVec.ofNat 64 buf.length).toNat = buf.length := by rw [BitVec.toNat_ofNat]; omega
  have hmark : (m.vcpuWrite true off buf).kvmLog =
      m.kvmLog.mark (BitVec.ofNat 64 off) (BitVec.ofNat 64 buf.length) := rfl
  rw [isLogged, hmark, pageSize_mark]
  refine isMarked_mark_iff.mpr (h.imp id ?_)
  rintro ⟨hlo, hhi⟩
  rw [hoff, hbuf]
  exact ⟨o, hlo, hhi, by rw [m.log_sized]; omega, rfl⟩

end TrackedRam

/-! ## The state and its steps -/

/-- Where `PrepareMigrationBundle` stands. -/
inductive PreparePhase where
  | idle
  /-- Dirty logging was enabled. -/
  | enabled
  /-- KVM's log was read and thrown away. -/
  | logReset
  /-- The host's tracker was reset; RAM is being copied. -/
  | copying
  | done
  deriving DecidableEq

/-- Where `FinalizeMigrationBundle` stands. -/
inductive FinalizePhase where
  | idle
  /-- KVM's log was read. -/
  | gotLog (bitmap : List (BitVec 64))
  /-- The host's tracker was read, reset, and merged with the log. -/
  | merged (bitmap : List (BitVec 64))
  /-- The patches were written from RAM as it stood at that instant. -/
  | written (result : Except PatchError (List DirtyFilePatch × List Byte)) (captured : List Byte)

/-- How far a call of `TakeSnapshotWithOptions` came with KVM's log. -/
inductive SnapshotOutcome where
  /-- It failed before it came to the log. -/
  | failed
  /-- The log could not be read, and all of RAM was written. -/
  | logUnavailable
  /-- The log was read, if logging is enabled. -/
  | saved
  deriving DecidableEq

structure MigrationState where
  mem : TrackedRam
  logging : Bool
  /-- Are the vCPUs running? -/
  running : Bool
  /-- The operations that the devices' calls in flight have still to execute. -/
  inflight : List (List MemOp)
  prepare : PreparePhase
  /-- The base `mem.bin`, as far as it was written. -/
  baseFile : List Byte
  finalize : FinalizePhase

inductive MigrationAction where
  | vcpuWrite (off : ℕ) (buf : List Byte)
  | guestWrite (q : Queue) (addr : BitVec 64) (buf : List Byte)
  | pushUsed (q : Queue) (id written : BitVec 32)
  | dmaStep (i : ℕ)
  | pause
  | resume
  | enableDirtyLogging
  | resetDirtyLog
  | resetMemDirty
  | copyMem (n : ℕ)
  | prepareDone
  | prepareError
  | takeSnapshot (outcome : SnapshotOutcome) (resumeAfter : Bool)
  | getDirtyLog
  | snapshotMemDirty
  | writePatches

open TrackedRam

namespace MigrationState

/-- A VM before the migration. -/
def init (pageSize : ℕ+) (r : Ram) (logging running : Bool) : MigrationState where
  mem := fresh pageSize r
  logging := logging
  running := running
  inflight := []
  prepare := .idle
  baseFile := []
  finalize := .idle

variable (s : MigrationState)

/-- A device starts a call: its memory operations are in flight. A call that fails has none. -/
def start (call : Except QueueError (List MemOp)) : Option MigrationState :=
  match call with
  | .ok ops => some { s with inflight := s.inflight ++ [ops] }
  | .error _ => some s

/-- One step, on a VM whose RAM starts at guest-physical address `gpb` and that has the given root
disk. `none`: the action is not enabled. -/
def step (gpb : BitVec 64) (disk : Option DiskImage) (s : MigrationState) :
    MigrationAction → Option MigrationState
  | .vcpuWrite off buf =>
    if s.running = true ∧ off + buf.length ≤ s.mem.ram.bytes.length then
      some { s with mem := s.mem.vcpuWrite s.logging off buf }
    else none
  | .guestWrite q addr buf =>
    s.start ((q.setGuestPhysBase gpb).guestWriteOps s.mem.ram.bytes.length addr buf)
  | .pushUsed q id written => s.start ((q.setGuestPhysBase gpb).pushUsedOps s.mem.ram id written)
  | .dmaStep i =>
    match s.inflight[i]? with
    | some (op :: ops) => some { s with mem := s.mem.exec op, inflight := s.inflight.set i ops }
    | _ => none
  | .pause => some { s with running := false }
  | .resume =>
    match s.finalize with
    | .idle => some { s with running := true }
    | _ => none
  | .enableDirtyLogging =>
    match s.prepare, s.finalize with
    | .idle, .idle | .done, .idle =>
      -- A log that is already enabled keeps its pages.
      some { s with
        mem := if s.logging then s.mem else s.mem.clearLog
        logging := true
        prepare := .enabled }
    | _, _ => none
  | .resetDirtyLog =>
    if s.prepare = .enabled then some { s with mem := s.mem.clearLog, prepare := .logReset }
    else none
  | .resetMemDirty =>
    if s.prepare = .logReset then
      some { s with mem := s.mem.resetMemDirty, prepare := .copying, baseFile := [] }
    else none
  | .copyMem n =>
    if s.prepare = .copying then
      some { s with baseFile := s.baseFile ++ slice s.mem.ram.bytes s.baseFile.length n }
    else none
  | .prepareDone =>
    if s.prepare = .copying ∧ s.baseFile.length = s.mem.ram.bytes.length then
      some { s with prepare := .done }
    else none
  | .prepareError => if s.prepare = .done then none else some { s with prepare := .idle }
  | .takeSnapshot outcome resumeAfter =>
    some { s with
      mem := if outcome = .saved ∧ s.logging = true then s.mem.clearLog else s.mem
      running := s.running && resumeAfter }
  | .getDirtyLog =>
    match s.finalize with
    | .idle =>
      if s.prepare = .done ∧ s.running = false then
        some { s with mem := s.mem.clearLog, finalize := .gotLog s.mem.kvmLog.bits }
      else none
    | _ => none
  | .snapshotMemDirty =>
    match s.finalize with
    | .gotLog bitmap =>
      some { s with
        mem := s.mem.resetMemDirty
        finalize := .merged (mergeDirtyBitmaps bitmap s.mem.dirty.snapshotAndReset.1) }
    | _ => none
  | .writePatches =>
    match s.finalize with
    | .merged bitmap =>
      some { s with
        finalize := .written
          (writeMigrationPatches s.mem.ram.bytes s.mem.dirty.pageSize bitmap disk)
          s.mem.ram.bytes }
    | _ => none

def bundleFiles (disk : Option DiskImage) (baseFile : List Byte) (path : String) :
    Option (List Byte) :=
  if path = migrationMemFile then some baseFile
  else if path = migrationDiskPath then disk.map (·.bytes)
  else none

/-- RAM at the instant `FinalizeMigrationBundle` captured it. -/
def captured : Option (List Byte) :=
  match s.finalize with
  | .written _ ram => some ram
  | _ => none

/-- `mem.bin` on the destination, after the patches were applied to the base bundle. -/
def restoredMem (disk : Option DiskImage) (s : MigrationState) : Option (List Byte) :=
  match s.finalize with
  | .written (.ok (patches, data)) _ =>
    match applyMigrationPatches ⟨bundleFiles disk s.baseFile, some patches, some data⟩ with
    | .ok dir => dir.files migrationMemFile
    | .error _ => none
  | _ => none

/-- What was captured is what the destination restores. -/
def Transferred (disk : Option DiskImage) (s : MigrationState) : Prop :=
  ∀ ram, s.captured = some ram → s.restoredMem disk = some ram

end MigrationState

/-! ## Runs that lose nothing -/

def FinalizePhase.isMerged : FinalizePhase → Bool
  | .merged _ => true
  | _ => false

/-- RAM is being copied, or was. -/
def PreparePhase.isCopying : PreparePhase → Bool
  | .copying | .done => true
  | _ => false

/-- The condition on a step. RAM starts at guest-physical address zero whenever a device writes to
it; no snapshot reads the log while it holds a page written since the copy began; and devices are at
rest from the moment the host's tracker is read until the patches are written. -/
def Careful (gpb : BitVec 64) (s : MigrationState) : MigrationAction → Prop
  | .guestWrite _ _ _ | .pushUsed _ _ _ => gpb = 0 ∧ s.finalize.isMerged = false
  | .dmaStep _ => s.finalize.isMerged = false
  | .takeSnapshot .saved _ =>
    s.logging = true → s.prepare.isCopying = true → s.mem.kvmLog.isClean = true
  | .snapshotMemDirty => ∀ ops ∈ s.inflight, ops = []
  | _ => True

instance (gpb : BitVec 64) (s : MigrationState) (a : MigrationAction) :
    Decidable (Careful gpb s a) :=
  match a with
  | .guestWrite _ _ _ | .pushUsed _ _ _ => inferInstanceAs (Decidable (_ ∧ _))
  | .dmaStep _ => inferInstanceAs (Decidable (_ = _))
  | .takeSnapshot .saved _ => inferInstanceAs (Decidable (_ → _ → _ = _))
  | .snapshotMemDirty => inferInstanceAs (Decidable (∀ _ ∈ _, _))
  | .takeSnapshot .failed _ | .takeSnapshot .logUnavailable _ => .isTrue trivial
  | .vcpuWrite _ _ | .pause | .resume | .enableDirtyLogging | .resetDirtyLog | .resetMemDirty
  | .copyMem _ | .prepareDone | .prepareError | .getDirtyLog | .writePatches => .isTrue trivial

namespace MigrationState

variable (s : MigrationState)

/-- The host knows that the page of `o` is dirty: it is marked, or a call in flight will mark it. -/
def HostTracked (o : ℕ) : Prop :=
  s.mem.isDirty o = true ∨ ∃ ops ∈ s.inflight, Covers ops o

/-- The page of `o` is in KVM's log, or in the bitmap that `Finalize` has read. -/
def seen (o : ℕ) : Bool :=
  match s.finalize with
  | .idle => s.mem.isLogged o
  | .gotLog bitmap | .merged bitmap => testPage bitmap (o / s.mem.dirty.pageSize)
  | .written _ _ => false

/-- Every byte copied so far is the byte in RAM, or its page is known to be dirty. -/
def Synced : Prop :=
  ∀ o < s.baseFile.length,
    s.baseFile[o]? = s.mem.ram.bytes[o]? ∨ s.seen o = true ∨ s.HostTracked o

/-- The copy is still to be completed by patches. -/
def Pending : Prop := s.prepare.isCopying = true ∧ s.captured = none

end MigrationState

/-- **The invariant of a migration.** -/
structure MigrationInv (disk : Option DiskImage) (s : MigrationState) : Prop where
  wellMarked : ∀ ops ∈ s.inflight, WellMarked ops
  logging : s.prepare ≠ .idle → s.logging = true
  copied_le : s.prepare.isCopying = true → s.baseFile.length ≤ s.mem.ram.bytes.length
  copied : s.prepare = .done → s.baseFile.length = s.mem.ram.bytes.length
  finalizing : s.finalize ≠ .idle → s.prepare = .done ∧ s.running = false
  synced : s.Pending → s.Synced
  quiet : s.finalize.isMerged = true → ∀ o, ¬s.HostTracked o
  transferred : s.Transferred disk

open MigrationState

section Steps

variable {gpb : BitVec 64} {disk : Option DiskImage} {s : MigrationState}

variable {s' : MigrationState} {i : ℕ} {op : MemOp} {ops : List MemOp}

namespace MigrationState

theorem transferred_of_captured_eq_none (h : s.captured = none) : s.Transferred disk := by
  intro ram hram
  rw [h] at hram
  nomatch hram

theorem Transferred.congr (hfin : s'.finalize = s.finalize)
    (hbase : s'.baseFile = s.baseFile) (h : s.Transferred disk) : s'.Transferred disk := by
  intro ram hram
  have hcap : s.captured = some ram := by rw [← hram, captured, captured, hfin]
  rw [← h ram hcap, restoredMem, restoredMem, hfin, hbase]

/-- Executing one operation of a call in flight leaves every byte as it was or known to the
host, and forgets no page. -/
theorem hostTracked_exec (hi : s.inflight[i]? = some (op :: ops)) (hmarked : WellMarked (op :: ops))
    (ho : o < s.mem.ram.bytes.length) {b : Option Byte}
    (h : b = s.mem.ram.bytes[o]? ∨ s.HostTracked o) : b = (s.mem.exec op).ram.bytes[o]? ∨
      HostTracked { s with mem := s.mem.exec op, inflight := s.inflight.set i ops } o := by
  have hlt : i < s.inflight.length := (List.getElem?_eq_some_iff.mp hi).1
  have hrest : ops ∈ s.inflight.set i ops := mem_set hlt ops
  have hcovers : Covers ops o →
      HostTracked { s with mem := s.mem.exec op, inflight := s.inflight.set i ops } o :=
    fun hc ↦ .inr ⟨ops, hrest, hc⟩
  have hmove : s.mem.isDirty o = true ∨ Covers (op :: ops) o →
      HostTracked { s with mem := s.mem.exec op, inflight := s.inflight.set i ops } o := fun hc ↦
    (Dma.isDirty_or_covers_exec ho hc).elim .inl hcovers
  -- A byte that the operation changes is covered by the marks behind it; one that was tracked
  -- already keeps its mark, or the mark is still to come in the same call or in another.
  rcases h with rfl | h | ⟨ops', hops', hc⟩
  · by_cases hsame : (s.mem.exec op).ram.bytes[o]? = s.mem.ram.bytes[o]?
    · exact .inl hsame.symm
    · obtain ⟨off, buf, rfl, hlo, hhi⟩ := Dma.getElem?_exec hsame
      exact .inr (hcovers (hmarked.1 o hlo hhi))
  · exact .inr (hmove (.inl h))
  · rcases eq_or_mem_set hi ops hops' with rfl | hops'
    · exact .inr (hmove (.inr hc))
    · exact .inr (.inr ⟨ops', hops', hc⟩)

end MigrationState

theorem MigrationInv.init (pageSize : ℕ+) (r : Ram) (logging running : Bool) :
    MigrationInv disk (init pageSize r logging running) where
  wellMarked := nofun
  logging := fun h ↦ absurd rfl h
  copied_le := nofun
  copied := nofun
  finalizing := fun h ↦ absurd rfl h
  synced := fun h ↦ absurd h.1 (by simp [MigrationState.init, PreparePhase.isCopying])
  quiet := nofun
  transferred := transferred_of_captured_eq_none rfl

section

variable (h : MigrationInv disk s)
include h

/-- A vCPU's store: the VM runs, so `Finalize` has not begun, and the log is enabled once the copy
has. -/
theorem MigrationInv.vcpuWrite
    (hrun : s.running = true) (hfit : off + buf.length ≤ s.mem.ram.bytes.length) :
    MigrationInv disk { s with mem := s.mem.vcpuWrite s.logging off buf } := by
  have hidle : s.finalize = .idle := by
    by_contra hne
    rw [(h.finalizing hne).2] at hrun
    nomatch hrun
  refine { h with
    copied_le := fun hc ↦ ?_, copied := fun hd ↦ ?_, synced := fun hp o ho ↦ ?_
    quiet := fun hm ↦ ?_, transferred := h.transferred.congr rfl rfl }
  · rw [length_vcpuWrite]
    exact h.copied_le hc
  · rw [length_vcpuWrite]
    exact h.copied hd
  · have hlog : s.logging = true := by
      apply h.logging
      intro hid
      have := hp.1
      rw [show s.prepare = .idle from hid] at this
      exact absurd this (by simp [PreparePhase.isCopying])
    have hseen : ∀ m, seen { s with mem := m } o = m.isLogged o := by
      intro m
      rw [seen, hidle]
    have hold := h.synced hp o ho
    rw [show s.seen o = s.mem.isLogged o from hseen s.mem] at hold
    rw [hseen, hlog]
    -- A stored byte is logged now; the others are as they were.
    by_cases hin : off ≤ o ∧ o < off + buf.length
    · exact .inr (.inl (isLogged_vcpuWrite hfit (.inr hin)))
    have hbyte : (s.mem.vcpuWrite true off buf).ram.bytes[o]? = s.mem.ram.bytes[o]? :=
      getElem?_writeAt_of_not_mem hin
    rw [hbyte]
    refine hold.imp id fun hold ↦ hold.imp (fun hl ↦ ?_) id
    exact isLogged_vcpuWrite hfit (.inl hl)
  · rw [show s.finalize = .idle from hidle] at hm
    nomatch hm

theorem MigrationInv.start {call : Except QueueError (List MemOp)}
    (hquiet : s.finalize.isMerged = false) (hcall : ∀ ops, call = .ok ops → WellMarked ops)
    (hs : s.start call = some s') : MigrationInv disk s' := by
  cases call with
  | error e =>
    obtain ⟨⟩ := hs
    exact h
  | ok ops =>
    obtain ⟨⟩ := hs
    refine { h with
      wellMarked := forall_mem_concat h.wellMarked (hcall ops rfl), synced := fun hp o ho ↦ ?_
      quiet := fun hm ↦ (nomatch hquiet.symm.trans hm), transferred := h.transferred.congr rfl rfl }
    refine (h.synced hp o ho).imp id fun hold ↦ hold.imp id fun hold ↦ hold.imp id ?_
    rintro ⟨ops', hops', hc⟩
    exact ⟨ops', mem_append_left _ hops', hc⟩

theorem MigrationInv.dmaStep
    (hi : s.inflight[i]? = some (op :: ops)) (hquiet : s.finalize.isMerged = false) :
    MigrationInv disk { s with mem := s.mem.exec op, inflight := s.inflight.set i ops } := by
  have hmarked : WellMarked (op :: ops) := h.wellMarked _ (mem_of_getElem? hi)
  refine ⟨forall_mem_set h.wellMarked hmarked.tail, h.logging, fun hc ↦ ?_, fun hd ↦ ?_,
    h.finalizing, fun hp o ho ↦ ?_, fun hm ↦ (nomatch hquiet.symm.trans hm),
    h.transferred.congr rfl rfl⟩
  · rw [length_exec]
    exact h.copied_le hc
  · rw [length_exec]
    exact h.copied hd
  have hsize : o < s.mem.ram.bytes.length := lt_of_lt_of_le ho (h.copied_le hp.1)
  have hseen : seen
      { s with mem := s.mem.exec op, inflight := s.inflight.set i ops } o = s.seen o := by
    have hps : (s.mem.exec op).dirty.pageSize = s.mem.dirty.pageSize := Dma.pageSize_exec _ _
    simp only [seen, hps]
    rfl
  rw [hseen]
  rcases h.synced hp o ho with hold | hold | hold
  · exact (hostTracked_exec hi hmarked hsize (.inl hold)).imp id .inr
  · exact .inr (.inl hold)
  · exact (hostTracked_exec hi hmarked hsize (.inr hold)).imp id .inr

/-- KVM's log is forgotten while it holds no page that the copy needs. -/
theorem MigrationInv.clearLog
    (hclean : s.prepare.isCopying = true → ∀ o, s.mem.isLogged o = false) :
    MigrationInv disk { s with mem := s.mem.clearLog } := by
  refine { h with
    synced := fun hp o ho ↦ ?_, transferred := h.transferred.congr rfl rfl }
  apply (h.synced hp o ho).imp id
  intro hold
  -- Once `Finalize` has read the log, what was seen is in its bitmap and no longer in the log.
  rcases hold with hseen | hhost
  · rw [seen] at hseen ⊢
    cases hf : s.finalize with
    | idle =>
      rw [hf] at hseen
      rw [hclean hp.1 o] at hseen
      nomatch hseen
    | gotLog bitmap | merged bitmap =>
      rw [hf] at hseen
      exact .inl hseen
    | written result ram =>
      rw [hf] at hseen
      nomatch hseen
  · exact .inr hhost

theorem MigrationInv.setRunning {running : Bool} (hrun : s.finalize ≠ .idle → running = false) :
    MigrationInv disk { s with running := running } :=
  ⟨h.wellMarked, h.logging, h.copied_le, h.copied, fun hne ↦ ⟨(h.finalizing hne).1, hrun hne⟩,
    h.synced, h.quiet, h.transferred.congr rfl rfl⟩

/-- A snapshot reads the log only while it holds no page that the copy needs. -/
theorem MigrationInv.takeSnapshot {outcome : SnapshotOutcome}
    {resumeAfter : Bool} (hok : Careful gpb s (.takeSnapshot outcome resumeAfter)) :
    MigrationInv disk { s with
      mem := if outcome = .saved ∧ s.logging = true then s.mem.clearLog else s.mem
      running := s.running && resumeAfter } := by
  have hrun : s.finalize ≠ .idle → (s.running && resumeAfter) = false := by
    intro hne
    rw [(h.finalizing hne).2, Bool.false_and]
  by_cases hread : outcome = .saved ∧ s.logging = true
  · obtain ⟨rfl, hlog⟩ := hread
    rw [if_pos ⟨rfl, hlog⟩]
    refine (h.clearLog fun hc o ↦ ?_).setRunning hrun
    exact isMarked_of_isClean (hok hlog hc) _
  · rw [if_neg hread]
    exact h.setRunning hrun

theorem MigrationInv.setPrepare {phase : PreparePhase} {mem : TrackedRam}
    {logging : Bool} (hidle : s.finalize = .idle) (hphase : phase.isCopying = false)
    (hlog : phase ≠ .idle → logging = true) :
    MigrationInv disk { s with mem := mem, logging := logging, prepare := phase } := by
  refine ⟨h.wellMarked, hlog, fun hc ↦ ?_, fun hd ↦ ?_, fun hne ↦ absurd hidle hne,
    fun hp ↦ ?_, fun hm ↦ ?_, h.transferred.congr rfl rfl⟩
  · exact absurd hc (by rw [hphase]; simp)
  · rw [show phase = .done from hd] at hphase
    nomatch hphase
  · exact absurd hp.1 (by rw [hphase]; simp)
  · rw [show s.finalize = .idle from hidle] at hm
    nomatch hm

theorem MigrationInv.finalize_eq_idle (hne : s.prepare ≠ .done) : s.finalize = .idle := by
  by_contra hf
  exact hne (h.finalizing hf).1

theorem MigrationInv.resetMemDirty (hprep : s.prepare = .logReset) : MigrationInv disk
      { s with mem := s.mem.resetMemDirty, prepare := .copying, baseFile := [] } := by
  have hidle : s.finalize = .idle := h.finalize_eq_idle (by rw [hprep]; simp)
  refine ⟨h.wellMarked, fun _ ↦ h.logging (by rw [hprep]; simp), fun _ ↦ Nat.zero_le _,
    nofun, fun hne ↦ absurd hidle hne, fun _ o ho ↦ ?_, fun hm ↦ ?_, ?_⟩
  · exact absurd ho (Nat.not_lt_zero o)
  · rw [show s.finalize = .idle from hidle] at hm
    nomatch hm
  · refine transferred_of_captured_eq_none ?_
    rw [captured, hidle]

theorem MigrationInv.copyMem (hprep : s.prepare = .copying) (n : ℕ) : MigrationInv disk
      { s with baseFile := s.baseFile ++ slice s.mem.ram.bytes s.baseFile.length n } := by
  have hidle : s.finalize = .idle := h.finalize_eq_idle (by rw [hprep]; simp)
  have hcopying : s.prepare.isCopying = true := by rw [hprep]; rfl
  have hle := h.copied_le hcopying
  refine { h with
    copied_le := fun _ ↦ ?_, copied := fun hd ↦ ?_, synced := fun hp o ho ↦ ?_, transferred := ?_ }
  · rw [length_append, length_slice]
    dsimp only
    omega
  · rw [show s.prepare = .done from hd] at hprep
    nomatch hprep
  -- What is appended is RAM as it stands, so it needs no mark.
  · by_cases hold : o < s.baseFile.length
    · rw [getElem?_append_left hold]
      exact h.synced hp o hold
    left
    rw [length_append, length_slice] at ho
    rw [getElem?_append_right (not_lt.mp hold), getElem?_slice (by omega),
      Nat.add_sub_cancel' (not_lt.mp hold)]
  · refine transferred_of_captured_eq_none ?_
    rw [captured, hidle]

theorem MigrationInv.prepareDone (hprep : s.prepare = .copying)
    (hlen : s.baseFile.length = s.mem.ram.bytes.length) :
    MigrationInv disk { s with prepare := .done } := by
  have hcopying : s.prepare.isCopying = true := by rw [hprep]; rfl
  refine ⟨h.wellMarked, fun _ ↦ h.logging (by rw [hprep]; simp), fun _ ↦ hlen.le, fun _ ↦ hlen,
    fun hne ↦ ⟨rfl, (h.finalizing hne).2⟩, fun hp ↦ h.synced ⟨hcopying, hp.2⟩, h.quiet,
    h.transferred.congr rfl rfl⟩

theorem MigrationInv.getDirtyLog (hidle : s.finalize = .idle)
    (hprep : s.prepare = .done) (hrun : s.running = false) : MigrationInv disk
      { s with mem := s.mem.clearLog, finalize := .gotLog s.mem.kvmLog.bits } := by
  refine ⟨h.wellMarked, h.logging, h.copied_le, h.copied, fun _ ↦ ⟨hprep, hrun⟩,
    fun hp o ho ↦ ?_, nofun, ?_⟩
  · have hcap : s.captured = none := by rw [captured, hidle]
    have hold := h.synced ⟨hp.1, hcap⟩ o ho
    have hseen : s.seen o = testPage s.mem.kvmLog.bits (o / s.mem.dirty.pageSize) := by
      rw [seen, hidle, ← s.mem.log_page]
      rfl
    rw [hseen] at hold
    exact hold
  · exact transferred_of_captured_eq_none rfl

end

variable {bitmap : List (BitVec 64)}

section

variable (h : MigrationInv disk s)
include h

/-- `Finalize` reads the host's tracker, with no call in flight: everything known is now in the
bitmap. -/
theorem MigrationInv.snapshotMemDirty
    (hgot : s.finalize = .gotLog bitmap) (hrest : ∀ ops ∈ s.inflight, ops = []) :
    MigrationInv disk { s with
      mem := s.mem.resetMemDirty
      finalize := .merged (mergeDirtyBitmaps bitmap s.mem.dirty.snapshotAndReset.1) } := by
  have hnocover : ∀ o, ¬∃ ops ∈ s.inflight, Covers ops o := by
    rintro o ⟨ops, hops, hc⟩
    rw [hrest ops hops] at hc
    exact not_covers_nil o hc
  refine { h with
    finalizing := fun _ ↦ h.finalizing (by rw [hgot]; simp), synced := fun hp o ho ↦ ?_
    quiet := fun _ o ho ↦ ?_, transferred := ?_ }
  · have hcap : s.captured = none := by rw [captured, hgot]
    have hseen : s.seen o = testPage bitmap (o / s.mem.dirty.pageSize) := by
      rw [seen, hgot]
    have hmerge : testPage (mergeDirtyBitmaps bitmap s.mem.dirty.bits)
        (o / s.mem.dirty.pageSize) = (testPage bitmap (o / s.mem.dirty.pageSize) ||
          testPage s.mem.dirty.bits (o / s.mem.dirty.pageSize)) := testPage_mergePages _ _ _
    -- A byte that differs was in the log, in the tracker, or covered by a call in flight, of which
    -- there is none.
    rcases h.synced ⟨hp.1, hcap⟩ o ho with hold | hold | hold | hold
    · exact .inl hold
    · refine .inr (.inl (hmerge.trans ?_))
      rw [← hseen, hold, Bool.true_or]
    · refine .inr (.inl (hmerge.trans ?_))
      rw [show testPage s.mem.dirty.bits (o / s.mem.dirty.pageSize) = true from hold, Bool.or_true]
    · exact absurd hold (hnocover o)
  · rcases ho with ho | ho
    · have hreset : s.mem.resetMemDirty.isDirty o = false := Dma.isDirty_reset _ _
      exact absurd ho (by rw [hreset]; simp)
    · exact hnocover o ho
  · exact transferred_of_captured_eq_none rfl

/-- **The marks are complete** when the patches are written: a page that differs from the base is
marked. -/
theorem MigrationInv.getElem?_of_unmarked
    (hmerged : s.finalize = .merged bitmap) (hi : i < s.mem.ram.bytes.length)
    (hclean : testPage bitmap (i / s.mem.dirty.pageSize) = false) :
    s.baseFile[i]? = s.mem.ram.bytes[i]? := by
  obtain ⟨hdone, hrun⟩ := h.finalizing (by rw [hmerged]; simp)
  have hcopying : s.prepare.isCopying = true := by rw [hdone]; rfl
  have hcap : s.captured = none := by rw [captured, hmerged]
  have hold := h.synced ⟨hcopying, hcap⟩ i (by rw [h.copied hdone]; exact hi)
  have hseen : s.seen i = testPage bitmap (i / s.mem.dirty.pageSize) := by
    rw [seen, hmerged]
  rw [hseen, hclean] at hold
  rcases hold with hold | hold | hold
  · exact hold
  · nomatch hold
  · exact absurd hold (h.quiet (by rw [hmerged]; rfl) i)

theorem MigrationInv.writePatches
    (hmerged : s.finalize = .merged bitmap) : MigrationInv disk { s with
      finalize := .written (writeMigrationPatches s.mem.ram.bytes s.mem.dirty.pageSize bitmap disk)
        s.mem.ram.bytes } := by
  obtain ⟨hdone, hrun⟩ := h.finalizing (by rw [hmerged]; simp)
  refine ⟨h.wellMarked, h.logging, h.copied_le, h.copied, fun _ ↦ ⟨hdone, hrun⟩,
    fun hp ↦ absurd hp.2 (by simp [captured]),
    nofun, ?_⟩
  intro ram hram
  obtain ⟨⟩ := hram
  have hdisk : BundleDir.HoldsDisk ⟨bundleFiles disk s.baseFile, none, none⟩ disk := by
    rintro d ⟨rfl⟩
    refine ⟨d.bytes, ?_, rfl⟩
    dsimp only
    rfl
  obtain ⟨patches, data, dir, out, hwrite, happly, hfile, hpatched, -⟩ :=
    applyMigrationPatches_spec s.mem.dirty.pageSize.pos bitmap (if_pos rfl) (h.copied hdone) hdisk
  -- The patched file is RAM where a page is marked, and the base, which is the same, elsewhere.
  have hout : out = s.mem.ram.bytes :=
    hpatched.eq fun i hi hclean ↦ h.getElem?_of_unmarked hmerged hi hclean
  rw [hwrite, restoredMem]
  dsimp only
  rw [happly]
  dsimp only
  rw [hfile, hout]

/-- **Every careful step keeps the invariant.** -/
theorem MigrationInv.step {a : MigrationAction} (hok : Careful gpb s a)
    (hs : s.step gpb disk a = some s') : MigrationInv disk s' := by
  revert hs
  fun_cases MigrationState.step gpb disk s a with try rintro ⟨⟩
  | case1 off buf hcan => exact h.vcpuWrite hcan.1 hcan.2
  | case3 q addr buf =>
    obtain ⟨rfl, hquiet⟩ := hok
    exact h.start hquiet fun ops hops ↦ Queue.wellMarked_guestWriteOps rfl hops
  | case4 q id written =>
    obtain ⟨rfl, hquiet⟩ := hok
    exact h.start hquiet fun ops hops ↦ Queue.wellMarked_pushUsedOps rfl hops
  | case5 i op ops hi => exact h.dmaStep hi hok
  | case7 => exact h.setRunning fun _ ↦ rfl
  | case8 hidle => exact h.setRunning fun hne ↦ absurd hidle hne
  | case10 hidle | case11 hidle => exact h.setPrepare hidle rfl fun _ ↦ rfl
  | case13 hprep =>
    have hidle := h.finalize_eq_idle (by rw [hprep]; simp)
    exact h.setPrepare hidle rfl fun _ ↦ h.logging (by rw [hprep]; simp)
  | case15 hprep => exact h.resetMemDirty hprep
  | case17 n hprep => exact h.copyMem hprep n
  | case19 hprep => exact h.prepareDone hprep.1 hprep.2
  | case22 hne => exact h.setPrepare (h.finalize_eq_idle hne) rfl fun hid ↦ absurd rfl hid
  | case23 outcome resumeAfter => exact h.takeSnapshot hok
  | case24 hidle hready => exact h.getDirtyLog hidle hready.1 hready.2
  | case27 bitmap hgot => exact h.snapshotMemDirty hgot hok
  | case29 bitmap hmerged => exact h.writePatches hmerged

end

end Steps

/-- **Migration fidelity**: in every run whose steps are careful, from any RAM, the destination
restores exactly what was captured. -/
theorem transferred_of_careful (gpb : BitVec 64) (disk : Option DiskImage) (pageSize : ℕ+) (r : Ram)
    (logging running : Bool) {as : List MigrationAction} {s : MigrationState}
    (h : Run (step gpb disk) (Careful gpb)
      (init pageSize r logging running) as s) : s.Transferred disk := by
  have hinv : MigrationInv disk s :=
    h.invariant (fun _ _ _ hi hok hs ↦ hi.step hok hs)
      (MigrationInv.init pageSize r logging running)
  exact hinv.transferred

/-- A migration with a vCPU's store, a device's write in flight across it, and a snapshot. -/
def quietMigration : List MigrationAction :=
  [.guestWrite (newQueue 8) 3 [7], .enableDirtyLogging, .resetDirtyLog, .resetMemDirty, .copyMem 4,
    .prepareDone, .takeSnapshot .saved true, .vcpuWrite 0 [1], .dmaStep 0, .dmaStep 0, .pause,
    .getDirtyLog, .snapshotMemDirty, .writePatches]

/-- A careful run, over a RAM of two pages of two bytes. -/
theorem transferred_of_careful_quietMigration : ∃ s, Run (step 0 none) (Careful 0)
        (init 2 ⟨[0, 0, 0, 0], by decide⟩ false true) quietMigration s ∧
      s.captured = some [1, 0, 0, 7] ∧ s.restoredMem none = some [1, 0, 0, 7] := by
  refine Run.exists_of_exec (·.captured = some [1, 0, 0, 7]) (by decide +kernel)
    fun s hrun hcap ↦ ?_
  exact ⟨hcap, transferred_of_careful 0 none 2 _ false true hrun _ hcap⟩

/-- A migration with a snapshot after a vCPU's store. -/
def lossyMigration : List MigrationAction :=
  [.enableDirtyLogging, .resetDirtyLog, .resetMemDirty, .copyMem 4, .prepareDone,
    .vcpuWrite 0 [1], .takeSnapshot .saved true, .pause, .getDirtyLog, .snapshotMemDirty,
    .writePatches]

/-- **A snapshot between `Prepare` and `Finalize` loses a page.** A page of four zeros is copied, a
vCPU stores a byte, a snapshot reads the log, and the patches miss the page. -/
theorem not_transferred_lossyMigration : ∃ s, Run (step 0 none) anyStep
      (init 4 ⟨[0, 0, 0, 0], by decide⟩ false true) lossyMigration s ∧
        ¬s.Transferred none := by
  refine Run.exists_of_exec (fun s ↦ ∃ ram ∈ s.captured, s.restoredMem none ≠ some ram)
    (by decide +kernel) fun s hrun ⟨ram, hcap, hne⟩ h ↦ hne (h ram hcap)

end Gocracker
