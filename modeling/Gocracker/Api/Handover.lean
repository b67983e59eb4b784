import Gocracker.Vmm.Migration
import Gocracker.Vmm.Pause

/-!
# Handing a VM over

`handleMigrateVM` moves a VM to another host. It ships a base bundle while the VM runs
(`/migrations/prepare`), pauses the VM and ships what has changed since (`/migrations/finalize`);
the destination restores the VM, starts it if asked to, and answers. On a positive answer the source
is stopped. On any error the source is resumed, and the destination is told to forget the session
(`/migrations/abort`).

## Two parties

A request, once sent, is handled by the destination at its own pace, whether or not the source still
waits: the source may have lost the connection, or its patience. The handler of `finalize` starts
the VM before it looks whether the name is taken, and before it answers.

## What is shipped

The base bundle holds RAM and the root disk as they were copied while the guest ran. The second
bundle holds the pages that dirty tracking has marked since, and the captured state of everything
else.

## Two kinds of source

The VM runs in the server's own process, or in a worker process behind a client. Both can migrate.
The error paths resume the VM by a type assertion that only the first kind passes.
-/

namespace Gocracker

open Machine Transition Option

/-! ## Bundles -/

/-- The state of a guest: RAM, the root disk if there is one, and what else a snapshot captures. -/
structure Guest (D : Type) where
  ram : List Byte
  disk : Option (List Byte)
  devices : D

/-- What the base copy has: memory, and the disk if there is one. -/
structure BaseBundle where
  mem : List Byte
  disk : Option (List Byte)

/-- The second bundle. -/
structure Delta (D : Type) where
  patches : List DirtyFilePatch
  data : List Byte
  snapshot : D

/-- What dirty tracking has recorded since the base was copied. -/
structure DirtyLog where
  pageSize : ℕ+
  bitmap : List (BitVec 64)
  disk : DirtyTracker

/-- The files of the bundle that patches may name. -/
def BaseBundle.files (b : BaseBundle) (path : String) : Option (List Byte) :=
  if path = migrationMemFile then some b.mem
  else if path = migrationDiskPath then b.disk
  else none

variable {log : DirtyLog}

section Bundles

variable {D : Type}

/-- What `FinalizeMigrationBundle` writes for a paused guest. -/
def finalizeDelta (g : Guest D) (log : DirtyLog) : Except PatchError (Delta D) := do
  let (patches, data) ← writeMigrationPatches g.ram log.pageSize log.bitmap
    (g.disk.map fun bytes ↦ ⟨bytes, log.disk⟩)
  return ⟨patches, data, g.devices⟩

/-- The guest that a base copy and a delta give together. -/
def restoreGuest (b : BaseBundle) (delta : Delta D) : Except PatchError (Guest D) := do
  let dir ← applyMigrationPatches ⟨b.files, some delta.patches, some delta.data⟩
  return ⟨(dir.files migrationMemFile).getD [], dir.files migrationDiskPath, delta.snapshot⟩

/-- The base of a file has its size, and every page that differs from it is marked. -/
def CoversFile (pageSize : ℕ) (bitmap : List (BitVec 64)) (base src : List Byte) : Prop :=
  base.length = src.length ∧
    ∀ i < src.length, testPage bitmap (i / pageSize) = false → base[i]? = src[i]?

instance (pageSize : ℕ) (bitmap : List (BitVec 64)) (base src : List Byte) :
    Decidable (CoversFile pageSize bitmap base src) := inferInstanceAs (Decidable (_ ∧ _))

/-- Dirty tracking has missed no page of RAM or of the disk. -/
def DirtyLog.Covers (log : DirtyLog) (b : BaseBundle) (g : Guest D) : Prop :=
  CoversFile log.pageSize log.bitmap b.mem g.ram ∧
    match b.disk, g.disk with
    | none, none => True
    | some base, some bytes => CoversFile log.disk.pageSize log.disk.bits base bytes
    | _, _ => False

instance (log : DirtyLog) (b : BaseBundle) (g : Guest D) : Decidable (log.Covers b g) := by
  unfold DirtyLog.Covers
  have : Decidable (match b.disk, g.disk with
      | none, none => True
      | some base, some bytes => CoversFile log.disk.pageSize log.disk.bits base bytes
      | _, _ => False) := by
    split <;> infer_instance
  infer_instance

variable {b : BaseBundle} {g : Guest D}

theorem DirtyLog.Covers.disk_cases
    (h : log.Covers b g) : b.disk = none ∧ g.disk = none ∨ ∃ base bytes, b.disk = some base ∧
      g.disk = some bytes ∧ CoversFile log.disk.pageSize log.disk.bits base bytes := by
  have hdisk := h.2
  split at hdisk
  · rename_i hbase hbytes
    exact .inl ⟨hbase, hbytes⟩
  · rename_i base bytes hbase hbytes
    exact .inr ⟨base, bytes, hbase, hbytes, hdisk⟩
  · exact hdisk.elim

/-- **The two bundles make the guest**, if dirty tracking has missed nothing. -/
theorem restoreGuest_finalizeDelta (h : log.Covers b g) :
    ∃ delta, finalizeDelta g log = .ok delta ∧ restoreGuest b delta = .ok g := by
  obtain ⟨hlen, hmem⟩ := h.1
  have hfile : b.files migrationDiskPath = b.disk := by
    rw [BaseBundle.files, if_neg (by decide), if_pos rfl]
  -- The base has a disk file exactly if the guest has a disk, and of its size.
  have hholds : BundleDir.HoldsDisk ⟨b.files, none, none⟩
      (g.disk.map fun bytes ↦ ⟨bytes, log.disk⟩) := by
    intro d hd
    rcases h.disk_cases with ⟨-, hnone⟩ | ⟨base, bytes, hbase, hbytes, hcovers⟩
    · rw [hnone] at hd
      nomatch hd
    · rw [hbytes] at hd
      obtain ⟨⟩ := hd
      exact ⟨base, hfile.trans hbase, hcovers.1⟩
  obtain ⟨patches, data, dir, out, hwrite, happly, hout, hpatched, hnone, hsome⟩ :=
    applyMigrationPatches_spec log.pageSize.pos log.bitmap (if_pos rfl) hlen hholds
  refine ⟨⟨patches, data, g.devices⟩, bind_eq_ok.mpr ⟨_, hwrite, rfl⟩,
    bind_eq_ok.mpr ⟨dir, happly, ?_⟩⟩
  have hram : out = g.ram := hpatched.eq hmem
  have hdisk : dir.files migrationDiskPath = g.disk := by
    rcases h.disk_cases with ⟨hbase, hbytes⟩ | ⟨base, bytes, hbase, hbytes, hcovers⟩
    · rw [hnone (by rw [hbytes]; rfl), hfile, hbase, hbytes]
    · obtain ⟨diskOut, hdiskOut, hdiskPatched⟩ :=
        hsome ⟨bytes, log.disk⟩ (by rw [hbytes]; rfl) base (hfile.trans hbase)
      rw [hdiskOut, hbytes, hdiskPatched.eq hcovers.2]
  rw [hout, hdisk, hram]
  rfl

end Bundles

/-! ## The two hosts -/

/-- A VM in the server's own process, or in a worker. -/
inductive HandleKind where
  /-- A VM of the server's own process. -/
  | inProcess
  /-- A VM in a worker process. -/
  | worker
  deriving DecidableEq

theorem HandleKind.inProcess_or_worker (kind : HandleKind) :
    kind = .inProcess ∨ kind = .worker := by
  cases kind <;> simp

/-- Where `handleMigrateVM` stands. -/
inductive MigrateStage where
  | starting
  /-- It waits for the answer to `prepare`. -/
  | preparing
  | prepared
  /-- It waits for the answer to `finalize`. -/
  | finalizing
  /-- An error after the base was accepted: tracking is reset and the source resumed. -/
  | recovering
  /-- It waits for the answer to `abort`. -/
  | aborting
  | migrated
  | failed
  deriving DecidableEq

/-- How `FinalizeMigrationBundle` ends. -/
inductive BundleResult where
  | written (log : DirtyLog)
  /-- An error before the VM was paused, or because it could not be. -/
  | failedRunning
  /-- An error once the VM was paused. -/
  | failedPaused

/-- A `prepare` request at the destination. -/
inductive PrepareCall where
  | idle
  | pending
  | replied (ok : Bool)
  deriving DecidableEq

/-- A `finalize` request at the destination. -/
inductive FinalizeCall (D : Type) where
  | idle
  | pending (delta : Delta D)
  | unpacked (base : BaseBundle) (delta : Delta D)
  /-- There is a VM, and it has no entry yet. -/
  | restored
  | replied (ok : Bool)

/-- How far the VM at the destination has come. -/
inductive TargetState where
  | created
  | running
  | stopped
  deriving DecidableEq

/-- The VM at the destination: the state it was restored from, its present state, and whether it
runs. -/
structure Target (D : Type) where
  origin : Guest D
  guest : Guest D
  state : TargetState

/-- Both hosts. -/
structure Handover (D : Type) where
  kind : HandleKind
  resumeTarget : Bool
  stage : MigrateStage
  source : VMState
  guest : Guest D
  base : BaseBundle
  prepare : PrepareCall
  /-- The directory of the session at the destination. -/
  session : Option BaseBundle
  finalize : FinalizeCall D
  /-- An `abort` request is on its way. -/
  abort : Bool
  target : Option (Target D)
  /-- Has the destination ever executed guest code? -/
  started : Bool

/-- What the source, the destination and their guests may do. -/
inductive HandoverEvent (D : Type) where
  | sourceRuns (guest : Guest D)
  | targetRuns (guest : Guest D)
  /-- `PrepareMigrationBundle`, and everything before it. -/
  | prepareBundle (base : Option BaseBundle)
  | prepareReply
  /-- The source gives up on `prepare`. -/
  | prepareLost
  | finalizeBundle (result : BundleResult)
  | finalizeReply
  /-- The source gives up on `finalize`. -/
  | finalizeLost
  | recover
  | abortDone
  | handlePrepare (ok : Bool)
  /-- `readMigrationFinalizeUpload`. -/
  | unpack (ok : Bool)
  /-- Up to the built VM. -/
  | restore (ok : Bool)
  /-- The VM starts; if it does so in a worker that does not answer, that worker is killed. -/
  | start (confirmed : Bool)
  /-- The check for another VM of the same name, and the new entry. -/
  | register (taken : Bool)
  | handleAbort

def VMState.resume : VMState → VMState
  | .paused => .running
  | s => s

def VMState.stop (_ : VMState) : VMState := .stopped

open Handover

namespace Handover

variable {D : Type}

/-- A running VM, of either kind, before it is migrated. -/
def init (kind : HandleKind) (resumeTarget : Bool) (guest : Guest D) : Handover D where
  kind := kind
  resumeTarget := resumeTarget
  stage := .starting
  source := .running
  guest := guest
  base := ⟨[], none⟩
  prepare := .idle
  session := none
  finalize := .idle
  abort := false
  target := none
  started := false

variable (s : Handover D)

/-- A worker that was told to pause is not resumed. -/
def resumeSource : VMState :=
  match s.kind with
  | .inProcess => s.source.resume
  | .worker => s.source

/-- The VM at the destination goes on to another state. -/
def setTarget (state : TargetState) : Option (Target D) :=
  s.target.map fun t ↦ { t with state := state }

def step : HandoverEvent D → Option (Handover D)
  | .sourceRuns guest => if s.source = .running then some { s with guest := guest } else none
  | .targetRuns guest =>
    match s.target with
    | some ⟨origin, _, .running⟩ => some { s with target := some ⟨origin, guest, .running⟩ }
    | _ => none
  | .prepareBundle base =>
    if s.stage = .starting then
      match base with
      | some base => some { s with base := base, prepare := .pending, stage := .preparing }
      | none => some { s with stage := .failed }
    else none
  | .prepareReply =>
    match s.stage, s.prepare with
    | .preparing, .replied true => some { s with stage := .prepared }
    | .preparing, .replied false => some { s with stage := .failed }
    | _, _ => none
  | .prepareLost => if s.stage = .preparing then some { s with stage := .failed } else none
  | .finalizeBundle result =>
    if s.stage = .prepared then
      match result with
      | .written log =>
        match finalizeDelta s.guest log with
        | .ok delta =>
          some { s with source := .paused, finalize := .pending delta, stage := .finalizing }
        | .error _ => some { s with source := .paused, stage := .recovering }
      | .failedRunning => some { s with stage := .recovering }
      | .failedPaused => some { s with source := .paused, stage := .recovering }
    else none
  | .finalizeReply =>
    match s.stage, s.finalize with
    | .finalizing, .replied true => some { s with source := s.source.stop, stage := .migrated }
    | .finalizing, .replied false => some { s with stage := .recovering }
    | _, _ => none
  | .finalizeLost => if s.stage = .finalizing then some { s with stage := .recovering } else none
  | .recover =>
    if s.stage = .recovering then
      some { s with source := s.resumeSource, abort := true, stage := .aborting }
    else none
  | .abortDone => if s.stage = .aborting then some { s with stage := .failed } else none
  | .handlePrepare ok =>
    if s.prepare = .pending then
      if ok then some { s with session := some s.base, prepare := .replied true }
      else some { s with prepare := .replied false }
    else none
  | .unpack ok =>
    match s.finalize, s.session with
    | .pending delta, some base =>
      if ok then some { s with finalize := .unpacked base delta }
      else some { s with finalize := .replied false }
    | .pending _, none => some { s with finalize := .replied false }
    | _, _ => none
  | .restore ok =>
    match s.finalize with
    | .unpacked base delta =>
      match ok, restoreGuest base delta with
      | true, .ok guest =>
        some { s with target := some ⟨guest, guest, .created⟩, finalize := .restored }
      | _, _ => some { s with session := none, finalize := .replied false }
    | _ => none
  | .start confirmed =>
    match s.finalize, s.target with
    | .restored, some ⟨_, _, .created⟩ =>
      if s.resumeTarget = false then none
      else if confirmed then some { s with target := s.setTarget .running, started := true }
      else some { s with target := s.setTarget .stopped, started := true, session := none,
                         finalize := .replied false }
    | _, _ => none
  | .register taken =>
    match s.finalize, s.target with
    | .restored, some t =>
      if s.resumeTarget = true ∧ t.state ≠ .running then none
      else if taken then
        some { s with target := s.setTarget .stopped, session := none, finalize := .replied false }
      else some { s with session := none, finalize := .replied true }
    | _, _ => none
  | .handleAbort => if s.abort = true then some { s with session := none, abort := false } else none

/-! ## What a migration promises -/

/-- What holds while a VM is migrated, and when the migration has returned. -/
structure HandedOver (s : Handover D) : Prop where
  /-- Once the destination has executed guest code, the source does not. -/
  exclusive : s.started = true → s.source ≠ .running
  /-- After a success the VM of the destination was restored from the state in which the source was
  stopped. -/
  continues : s.stage = .migrated → s.source = .stopped ∧ ∃ t, s.target = some t ∧
    t.origin = s.guest ∧ (s.resumeTarget = true → t.state = .running)
  /-- After an error the source runs, unless the destination does. -/
  recovers : s.stage = .failed → (∀ t ∈ s.target, t.state ≠ .running) → s.source = .running

/-- The condition on a migration. Dirty tracking has missed no page when the VM is paused; after the
pause a worker's VM meets no error unless the destination runs it; and the destination does not
start a VM that the source, in the end, will not leave to it. -/
def Agreed : HandoverEvent D → Prop
  | .finalizeBundle (.written log) => log.Covers s.base s.guest
  | .finalizeBundle .failedPaused => s.kind = .inProcess
  | .finalizeReply =>
    match s.finalize with
    | .replied false => s.kind = .inProcess
    | _ => True
  | .finalizeLost => s.started = true ↔ s.kind = .worker
  | .start confirmed => confirmed = true ∧ s.stage = .finalizing
  | .register taken => taken = true → s.started = false
  | _ => True

instance (s : Handover D) (e : HandoverEvent D) : Decidable (Agreed s e) := by
  unfold Agreed
  split
  all_goals try infer_instance
  all_goals split <;> infer_instance

/-! ## The invariant -/

/-- What the destination holds of a VM that the source has paused: the state in which it was. -/
def Carries : Prop :=
  match s.finalize with
  | .idle => True
  | .pending delta => restoreGuest s.base delta = .ok s.guest
  | .unpacked base delta => restoreGuest base delta = .ok s.guest
  | .restored => ∃ t, s.target = some t ∧ t.origin = s.guest
  | .replied true => ∃ t, s.target = some t ∧ t.origin = s.guest ∧
      (s.resumeTarget = true → t.state = .running)
  | .replied false => True

/-- A worker's VM stays paused when the destination runs it. -/
def LeftPaused : Prop :=
  s.kind = .worker ∧ s.source = .paused ∧ s.started = true

/-- The source's part of the invariant, by stage. -/
def StageInv : Prop :=
  match s.stage with
  | .starting | .preparing | .prepared => s.source = .running ∧ s.finalize = .idle
  | .finalizing => s.source = .paused ∧ s.Carries
  | .recovering =>
    (s.started = false ∧ (s.source = .running ∨ s.kind = .inProcess ∧ s.source = .paused)) ∨
      s.LeftPaused
  | .aborting | .failed => (s.started = false ∧ s.source = .running) ∨ s.LeftPaused
  | .migrated => s.source = .stopped ∧ s.Carries ∧ s.finalize = .replied true

/-- **The invariant of a migration.** -/
structure HandoverInv (s : Handover D) : Prop where
  stage : s.StageInv
  fresh : s.stage = .starting → s.prepare = .idle ∧ s.session = none
  session : ∀ b ∈ s.session, b = s.base
  /-- A VM that was started runs, and its handler has not failed. -/
  alive : s.started = true → (s.finalize = .restored ∨ s.finalize = .replied true) ∧
    ∃ t, s.target = some t ∧ t.state = .running

variable {s s' : Handover D}

theorem HandoverInv.started_eq_false (h : HandoverInv s) (hres : s.finalize ≠ .restored)
    (hrep : s.finalize ≠ .replied true) : s.started = false := by
  by_contra hne
  exact (h.alive (Bool.eq_true_of_not_eq_false hne)).1.elim hres hrep

theorem HandoverInv.source_ne_running (h : HandoverInv s) (hstarted : s.started = true) :
    s.source ≠ .running := by
  have hstage := h.stage
  have hidle : s.finalize ≠ .idle := by
    intro hidle
    rw [h.started_eq_false (by simp [hidle]) (by simp [hidle])] at hstarted
    nomatch hstarted
  -- Before `finalize` is sent nothing has started; from then on the source is not running.
  rw [StageInv] at hstage
  split at hstage
  iterate 3 exact absurd hstage.2 hidle
  · simp [hstage.1]
  iterate 3 simp [(hstage.resolve_left fun h ↦ by simp [hstarted] at h).2.1]
  · simp [hstage.1]

theorem HandoverInv.handedOver (h : HandoverInv s) : s.HandedOver := by
  have hstage := h.stage
  refine ⟨h.source_ne_running, ?_, ?_⟩
  · intro hmigrated
    rw [StageInv, hmigrated] at hstage
    obtain ⟨hsource, hcarries, hreplied⟩ := hstage
    rw [Carries, hreplied] at hcarries
    exact ⟨hsource, hcarries⟩
  · intro hfailed hnot
    rw [StageInv, hfailed] at hstage
    rcases hstage with hstage | ⟨-, -, hstarted⟩
    · exact hstage.2
    · obtain ⟨-, t, ht, hrunning⟩ := h.alive hstarted
      exact absurd hrunning (hnot t ht)

/-! ## Steps of the source -/

theorem HandoverInv.init (kind : HandleKind) (resumeTarget : Bool) (guest : Guest D) :
    HandoverInv (init kind resumeTarget guest) :=
  ⟨⟨rfl, rfl⟩, fun _ ↦ ⟨rfl, rfl⟩, by simp [Handover.init], by simp [Handover.init]⟩

variable {delta : Delta D}

section

variable (h : HandoverInv s)
include h

theorem HandoverInv.sourceRuns (hrunning : s.source = .running)
    (guest : Guest D) : HandoverInv { s with guest := guest } := by
  refine { h with stage := ?_ }
  have hstage := h.stage
  -- The stages that speak of the guest's state are those in which the source does not run.
  rw [StageInv] at hstage ⊢
  all_goals simp_all [LeftPaused]

/-- In the stages before `finalize` the source runs, and nothing has started. -/
theorem HandoverInv.early
    (hstage : s.stage = .starting ∨ s.stage = .preparing ∨ s.stage = .prepared) :
    s.source = .running ∧ s.finalize = .idle ∧ s.started = false := by
  have hinv : s.source = .running ∧ s.finalize = .idle := by
    have hinv := h.stage
    rcases hstage with hstage | hstage | hstage
    all_goals
      rw [StageInv, hstage] at hinv
      exact hinv
  exact ⟨hinv.1, hinv.2, h.started_eq_false (by simp [hinv.2]) (by simp [hinv.2])⟩

theorem HandoverInv.prepareBundle (hstage : s.stage = .starting) (base : BaseBundle) :
    HandoverInv { s with base := base, prepare := .pending, stage := .preparing } := by
  obtain ⟨hrunning, hidle, -⟩ := h.early (.inl hstage)
  exact ⟨⟨hrunning, hidle⟩, by simp, by simp [(h.fresh hstage).2], h.alive⟩

theorem HandoverInv.failEarly
    (hstage : s.stage = .starting ∨ s.stage = .preparing ∨ s.stage = .prepared) :
    HandoverInv { s with stage := .failed } := by
  obtain ⟨hrunning, -, hstarted⟩ := h.early hstage
  exact ⟨.inl ⟨hstarted, hrunning⟩, by simp, h.session, h.alive⟩

theorem HandoverInv.finalizeWritten (hstage : s.stage = .prepared)
    (hok : log.Covers s.base s.guest) (hdelta : finalizeDelta s.guest log = .ok delta) :
    HandoverInv { s with source := .paused, finalize := .pending delta, stage := .finalizing } := by
  obtain ⟨-, -, hstarted⟩ := h.early (.inr (.inr hstage))
  obtain ⟨delta', hwrite, hrestore⟩ := restoreGuest_finalizeDelta hok
  obtain rfl := Except.ok.inj (hdelta.symm.trans hwrite)
  exact ⟨⟨rfl, hrestore⟩, by simp, h.session, by simp [hstarted]⟩

theorem HandoverInv.finalizeRejected (hstage : s.stage = .finalizing) (hkind : s.kind = .inProcess)
    (hreplied : s.finalize = .replied false) : HandoverInv { s with stage := .recovering } := by
  have hinv := h.stage
  rw [StageInv, hstage] at hinv
  have hstarted := h.started_eq_false (by simp [hreplied]) (by simp [hreplied])
  exact ⟨.inl ⟨hstarted, .inr ⟨hkind, hinv.1⟩⟩, by simp, h.session, h.alive⟩

theorem HandoverInv.finalizeLost (hstage : s.stage = .finalizing)
    (hok : s.started = true ↔ s.kind = .worker) : HandoverInv { s with stage := .recovering } := by
  have hinv := h.stage
  rw [StageInv, hstage] at hinv
  refine ⟨?_, by simp, h.session, h.alive⟩
  rcases HandleKind.inProcess_or_worker s.kind with hkind | hkind
  · have hstarted : s.started = false := by simpa [hkind] using hok
    exact .inl ⟨hstarted, .inr ⟨hkind, hinv.1⟩⟩
  · exact .inr ⟨hkind, hinv.1, hok.mpr hkind⟩

theorem HandoverInv.recover (hstage : s.stage = .recovering) :
    HandoverInv { s with source := s.resumeSource, abort := true, stage := .aborting } := by
  have hinv := h.stage
  rw [StageInv, hstage] at hinv
  refine ⟨?_, by simp, h.session, h.alive⟩
  rcases hinv with ⟨hstarted, hrunning | ⟨hkind, hpaused⟩⟩ | ⟨hkind, hpaused, hstarted⟩
  · refine .inl ⟨hstarted, ?_⟩
    rcases HandleKind.inProcess_or_worker s.kind with hkind | hkind
    all_goals simp [resumeSource, hkind, hrunning, VMState.resume]
  · exact .inl ⟨hstarted, by simp [resumeSource, hkind, hpaused, VMState.resume]⟩
  · exact .inr ⟨hkind, by simp [resumeSource, hkind, hpaused], hstarted⟩

theorem HandoverInv.abortDone (hstage : s.stage = .aborting) :
    HandoverInv { s with stage := .failed } := by
  have hinv := h.stage
  rw [StageInv, hstage] at hinv
  exact ⟨hinv, by simp, h.session, h.alive⟩

end

/-! ## Steps of the destination -/

theorem StageInv.of_destination (h : s.StageInv) (hstage : s'.stage = s.stage)
    (hsource : s'.source = s.source) (hkind : s'.kind = s.kind) (hstarted : s'.started = s.started)
    (hidle : s.finalize = .idle → s'.finalize = .idle) (hcarries : s.Carries → s'.Carries)
    (hreplied : s.finalize = .replied true → s'.finalize = .replied true) : s'.StageInv := by
  rw [StageInv] at h ⊢
  rw [hstage]
  split at h
  iterate 3 exact ⟨hsource.trans h.1, hidle h.2⟩
  · exact ⟨hsource.trans h.1, hcarries h.2⟩
  iterate 3 rwa [LeftPaused, hstarted, hsource, hkind]
  · exact ⟨hsource.trans h.1, hcarries h.2.1, hreplied h.2.2⟩

section

variable (h : HandoverInv s)
include h

theorem HandoverInv.targetRuns {origin guest guest' : Guest D}
    (htarget : s.target = some ⟨origin, guest, .running⟩) :
    HandoverInv { s with target := some ⟨origin, guest', .running⟩ } := by
  refine ⟨h.stage.of_destination rfl rfl rfl rfl id ?_ id, h.fresh, h.session, fun hstarted ↦
    ⟨(h.alive hstarted).1, _, rfl, rfl⟩⟩
  intro hcarries
  rw [Carries] at hcarries ⊢
  all_goals simp_all

theorem HandoverInv.handlePrepare (hpending : s.prepare = .pending) :
    HandoverInv { s with session := some s.base, prepare := .replied true } ∧
      HandoverInv { s with prepare := .replied false } := by
  have hfresh : s.stage ≠ .starting := by
    intro hstage
    have hidle := (h.fresh hstage).1
    rw [hpending] at hidle
    nomatch hidle
  refine ⟨⟨h.stage.of_destination rfl rfl rfl rfl id id id, fun hs ↦ absurd hs hfresh, ?_, h.alive⟩,
    ⟨h.stage.of_destination rfl rfl rfl rfl id id id, fun hs ↦ absurd hs hfresh, h.session,
      h.alive⟩⟩
  intro b hb
  exact (Option.some.inj hb).symm

variable {session : Option BaseBundle} {target : Option (Target D)}

theorem HandoverInv.progress {call : FinalizeCall D} (hidle : s.finalize ≠ .idle)
    (hreplied : s.finalize ≠ .replied true) (hsession : ∀ b ∈ session, b ∈ s.session)
    (hcarries : s.Carries →
      Carries { s with session := session, finalize := call, target := target })
    (halive : s.started = true → (call = .restored ∨ call = .replied true) ∧
      ∃ t, target = some t ∧ t.state = .running) :
    HandoverInv { s with session := session, finalize := call, target := target } := by
  refine ⟨h.stage.of_destination rfl rfl rfl rfl (fun he ↦ absurd he hidle) hcarries
    fun he ↦ absurd he hreplied, fun hstage ↦ ⟨(h.fresh hstage).1, ?_⟩,
    fun b hb ↦ h.session b (hsession b hb), halive⟩
  apply eq_none_iff_forall_not_mem.mpr
  intro b hb
  have hmem := hsession b hb
  rw [(h.fresh hstage).2] at hmem
  nomatch hmem

theorem HandoverInv.reject (hidle : s.finalize ≠ .idle) (hreplied : s.finalize ≠ .replied true)
    (hsession : ∀ b ∈ session, b ∈ s.session) (hstarted : s.started = false) : HandoverInv
      { s with session := session, finalize := .replied false, target := target } :=
  h.progress hidle hreplied hsession (fun _ ↦ trivial) (by simp [hstarted])

variable {base : BaseBundle}

theorem HandoverInv.unpack
    (hpending : s.finalize = .pending delta) (hsession : s.session = some base) :
    HandoverInv { s with finalize := .unpacked base delta } := by
  have hstarted := h.started_eq_false (by simp [hpending]) (by simp [hpending])
  refine h.progress (by simp [hpending]) (by simp [hpending]) (fun _ hb ↦ hb) ?_
    (by simp [hstarted])
  intro hcarries
  rw [Carries, hpending] at hcarries
  rw [h.session base hsession]
  exact hcarries

theorem HandoverInv.restore {guest : Guest D}
    (hunpacked : s.finalize = .unpacked base delta)
    (hrestore : restoreGuest base delta = .ok guest) :
    HandoverInv { s with target := some ⟨guest, guest, .created⟩, finalize := .restored } := by
  have hstarted := h.started_eq_false (by simp [hunpacked]) (by simp [hunpacked])
  refine h.progress (by simp [hunpacked]) (by simp [hunpacked]) (fun _ hb ↦ hb) ?_
    (by simp [hstarted])
  intro hcarries
  rw [Carries, hunpacked] at hcarries
  exact ⟨_, rfl, Except.ok.inj (hrestore.symm.trans hcarries)⟩

/-- **The VM starts** while the source waits. -/
theorem HandoverInv.start (hstage : s.stage = .finalizing) (hrestored : s.finalize = .restored) :
    HandoverInv { s with target := s.setTarget .running, started := true } := by
  have hinv := h.stage
  rw [StageInv, hstage] at hinv
  obtain ⟨hpaused, hcarries⟩ := hinv
  rw [Carries, hrestored] at hcarries
  obtain ⟨t, ht, horigin⟩ := hcarries
  -- The source waits, hence is paused: the VM may run here.
  have hset : s.setTarget .running = some { t with state := .running } := by
    rw [setTarget, ht, map_some]
  refine ⟨?_, h.fresh, h.session, fun _ ↦ ⟨.inl hrestored, _, hset, rfl⟩⟩
  rw [StageInv]
  rw [hstage]
  refine ⟨hpaused, ?_⟩
  rw [Carries]
  rw [hrestored]
  exact ⟨_, hset, horigin⟩

theorem HandoverInv.register {t : Target D} (hrestored : s.finalize = .restored)
    (htarget : s.target = some t) (hstate : ¬(s.resumeTarget = true ∧ t.state ≠ .running)) :
    HandoverInv { s with session := none, finalize := .replied true } := by
  refine h.progress (by simp [hrestored]) (by simp [hrestored]) (by simp) (fun hcarries ↦ ?_)
    fun hstarted ↦ ⟨.inr rfl, (h.alive hstarted).2⟩
  rw [Carries, hrestored] at hcarries
  obtain ⟨t', ht', horigin⟩ := hcarries
  obtain rfl := mem_unique htarget ht'
  refine ⟨t, htarget, horigin, fun hresume ↦ ?_⟩
  by_contra hne
  exact hstate ⟨hresume, hne⟩

theorem HandoverInv.handleAbort : HandoverInv { s with session := none, abort := false } :=
  ⟨h.stage.of_destination rfl rfl rfl rfl id id id, fun hstage ↦ ⟨(h.fresh hstage).1, rfl⟩, by simp,
    h.alive⟩

/-! ## Whole migrations -/

/-- **Every step of a migration that is agreed keeps the invariant.** -/
theorem HandoverInv.step {e : HandoverEvent D}
    (hok : Agreed s e) (hstep : s.step e = some s') : HandoverInv s' := by
  revert hstep
  fun_cases Handover.step s e with rintro ⟨⟩
  | case1 guest hrunning => exact h.sourceRuns hrunning guest
  | case3 guest' origin guest htarget => exact h.targetRuns htarget
  | case5 hstage base => exact h.prepareBundle hstage base
  | case6 hstage => exact h.failEarly (.inl hstage)
  | case8 hreplied hstage =>
    obtain ⟨hrunning, hidle, -⟩ := h.early (.inr (.inl hstage))
    exact ⟨⟨hrunning, hidle⟩, by simp, h.session, h.alive⟩
  | case9 _ hstage | case11 hstage => exact h.failEarly (.inr (.inl hstage))
  | case13 hstage log delta hdelta => exact h.finalizeWritten hstage hok hdelta
  | case14 hstage log error herror =>
    obtain ⟨delta, hwrite, -⟩ := restoreGuest_finalizeDelta hok
    nomatch herror.symm.trans hwrite
  | case15 hstage =>
    obtain ⟨hrunning, -, hstarted⟩ := h.early (.inr (.inr hstage))
    exact ⟨.inl ⟨hstarted, .inl hrunning⟩, by simp, h.session, h.alive⟩
  | case16 hstage =>
    obtain ⟨-, -, hstarted⟩ := h.early (.inr (.inr hstage))
    exact ⟨.inl ⟨hstarted, .inr ⟨hok, rfl⟩⟩, by simp, h.session, h.alive⟩
  | case18 hreplied hstage =>
    have hinv := h.stage
    rw [StageInv, hstage] at hinv
    exact ⟨⟨rfl, hinv.2, hreplied⟩, by simp, h.session, h.alive⟩
  | case19 hreplied hstage =>
    rw [Agreed, hreplied] at hok
    exact h.finalizeRejected hstage hok hreplied
  | case21 hstage => exact h.finalizeLost hstage hok
  | case23 hstage => exact h.recover hstage
  | case25 hstage => exact h.abortDone hstage
  | case27 hpending => exact (h.handlePrepare hpending).1
  | case28 ok hpending => exact (h.handlePrepare hpending).2
  | case30 delta base hsession hpending => exact h.unpack hpending hsession
  | case31 ok delta base hsession hpending | case32 ok delta hsession hpending =>
    exact h.reject (by simp [hpending]) (by simp [hpending]) (fun _ hb ↦ hb)
      (h.started_eq_false (by simp [hpending]) (by simp [hpending]))
  | case34 base delta hunpacked guest hrestore => exact h.restore hunpacked hrestore
  | case35 ok base delta hunpacked =>
    exact h.reject (by simp [hunpacked]) (by simp [hunpacked]) (by simp)
      (h.started_eq_false (by simp [hunpacked]) (by simp [hunpacked]))
  | case38 origin guest htarget hrestored => exact h.start hok.2 hrestored
  | case39 confirmed origin guest htarget hrestored hresume hnot => exact absurd hok.1 hnot
  | case42 t htarget hrestored =>
    exact h.reject (by simp [hrestored]) (by simp [hrestored]) (by simp) (hok rfl)
  | case43 taken t htarget hrestored hstate => exact h.register hrestored htarget hstate
  | case45 => exact h.handleAbort

end

/-- **A VM is handed over to exactly one host**, of either kind and whatever the destination does,
in every migration that is agreed. -/
theorem handedOver_of_agreed (kind : HandleKind) (resumeTarget : Bool) (guest : Guest D)
    {events : List (HandoverEvent D)} {s : Handover D}
    (hrun : Run step Agreed (.init kind resumeTarget guest) events s) : s.HandedOver := by
  have hinv : HandoverInv s :=
    hrun.invariant (fun _ _ _ h hok hstep ↦ HandoverInv.step h hok hstep)
      (.init kind resumeTarget guest)
  exact hinv.handedOver

end Handover

/-! ## Two runs -/

/-- A guest with two bytes of RAM, no disk, and one bit of other state. -/
def smallGuest (byte : Byte) (devices : Bool) : Guest Bool := ⟨[0, byte], none, devices⟩

def secondPage : DirtyLog := ⟨1, [2], newDirtyTracker 1 0 (by decide)⟩

/-- A migration up to the start of the VM at the destination. The guest runs on while the base is
shipped. -/
def untilStarted : List (HandoverEvent Bool) :=
  [.prepareBundle (some ⟨[0, 0], none⟩), .handlePrepare true, .prepareReply,
    .sourceRuns (smallGuest 7 true), .finalizeBundle (.written secondPage), .unpack true,
    .restore true, .start true, .register false]

/-- The VM of a worker is handed over. -/
theorem handedOver_of_agreed_worker :
    ∃ s, Run step Handover.Agreed (.init .worker true (smallGuest 0 false))
        (untilStarted ++ [.targetRuns (smallGuest 9 true), .finalizeReply]) s ∧
      s.stage = .migrated ∧ s.HandedOver := by
  exact Run.exists_of_exec _ (by decide +kernel) fun s hrun hstage ↦
    ⟨hstage, handedOver_of_agreed .worker true (smallGuest 0 false) hrun⟩

/-- **Split brain.** The last answer is lost; the source, a VM of the server's own process, is
resumed, and the guest runs on both hosts. -/
theorem not_handedOver_lostReply :
    ∃ s, Run step anyStep (.init .inProcess true (smallGuest 0 false))
        (untilStarted ++ [.finalizeLost, .recover, .targetRuns (smallGuest 9 true),
          .sourceRuns (smallGuest 8 true)]) s ∧ ¬s.HandedOver := by
  refine Run.exists_of_exec (fun s ↦ s.started = true ∧ s.source = .running) (by decide +kernel)
    fun s hrun hs ↦ ?_
  exact fun h ↦ h.exclusive hs.1 hs.2

end Gocracker
