import Gocracker.Virtio.Device

/-!
# The device layout of a restored VM

A VM's devices sit in consecutive MMIO slots, in a fixed order of kinds: entropy, balloon, network,
vsock, drives, shared filesystems. `setupDevices` builds them from the VM's configuration, and the
slot decides the address and the interrupt line of each. A restore builds the devices from the
configuration of the snapshot after the caller's overrides have rewritten it, and then puts the
`i`-th saved transport state into the `i`-th device.

## When the slots stay put

The saved states land on the devices they were taken from if the devices of the snapshot are a
prefix of those of the restored VM. `KeepsLayout` says exactly when. A network interface named by an
override appears in the middle when the snapshot had none. Additional drives push the shared
filesystems back. And they replace a root disk that was configured as a disk image, since the image
counts only when there is no list of drives.
-/

namespace Gocracker

open Machine List

/-! ## Configurations -/

/-- The text of a configuration's `Arch`, trimmed. -/
inductive ArchName where
  | blank
  | known (arch : Arch)
  | other (raw : String)
  deriving DecidableEq

/-- How an x86 guest finds its devices. -/
inductive BootMode where
  | blank
  | auto
  | acpi
  | legacy
  | other (raw : String)
  deriving DecidableEq

structure DriveConfig where
  id : String
  path : String
  root : Bool
  readOnly : Bool
  deriving DecidableEq

/-- The socket device, and its socket on the host. -/
structure VsockConfig where
  enabled : Bool
  udsPath : String
  deriving DecidableEq

/-- A shared directory, by its tag for the guest and its target. -/
structure SharedFSConfig where
  source : String
  tag : String
  target : String
  socketPath : String
  deriving DecidableEq

/-- The part of a VM's configuration that a restore rewrites or `setupDevices` reads. -/
structure Config where
  id : String
  arch : ArchName
  diskImage : String
  diskRO : Bool
  drives : List DriveConfig
  tapName : String
  netMode : String
  vcpus : ℤ
  x86Boot : BootMode
  sharedFS : List SharedFSConfig
  vsock : Option VsockConfig
  balloon : Option BalloonDeviceConfig

/-- The drives: the list, or the disk image as the only one if there is no list. -/
def Config.driveList (cfg : Config) : List DriveConfig :=
  if cfg.drives ≠ [] then cfg.drives
  else if cfg.diskImage = "" then []
  else [{ id := "root", path := cfg.diskImage, root := true, readOnly := cfg.diskRO }]

def Config.hasNet (cfg : Config) : Prop := cfg.tapName ≠ "" ∨ cfg.netMode = "slirp"
deriving Decidable

def Config.hasVsock (cfg : Config) : Bool := cfg.vsock.any (·.enabled)

/-! ## Devices in their slots -/

/-- A device of a VM. Drives are told apart by their names and by which of them is the root, shared
filesystems by their tags. -/
inductive BoundDevice where
  | rng
  | balloon
  | net
  | vsock
  | blk (id : String) (root : Bool)
  | fs (tag : String)
  deriving DecidableEq

/-- A device with its registers and its interrupt. -/
structure Slot where
  device : BoundDevice
  base : BitVec 64
  irq : BitVec 8
  deriving DecidableEq

/-- Where the registers of the first device are. -/
def Arch.virtioBase : Arch → BitVec 64
  | .amd64 => 0xD0000000
  | .arm64 => 0x40003000

def Arch.virtioIRQBase : Arch → ℕ
  | .amd64 => 5
  | .arm64 => 2

/-- The distance between the registers of two devices. -/
def virtioStride : BitVec 64 := 0x1000

def blkDevices (drives : List DriveConfig) : List BoundDevice :=
  drives.map fun d ↦ .blk d.id d.root

theorem blkDevices_append (drives extras : List DriveConfig) :
    blkDevices (drives ++ extras) = blkDevices drives ++ blkDevices extras := map_append

def fsDevices (sharedFS : List SharedFSConfig) : List BoundDevice :=
  sharedFS.map fun fs ↦ .fs fs.tag

/-- The devices behind the network interface. -/
def Config.laterDevices (cfg : Config) : List BoundDevice :=
  (if cfg.hasVsock then [.vsock] else []) ++ (blkDevices cfg.driveList ++ fsDevices cfg.sharedFS)

/-- The devices, in the order in which they are built. -/
def Config.devices (cfg : Config) : List BoundDevice :=
  .rng :: ((if cfg.balloon.isSome then [.balloon] else []) ++
    ((if cfg.hasNet then [.net] else []) ++ cfg.laterDevices))

/-- Address and interrupt follow from the place in the list. -/
def setupDevices (arch : Arch) (cfg : Config) : List Slot :=
  cfg.devices.mapIdx fun slot device ↦
    { device
      base := arch.virtioBase + BitVec.ofNat 64 slot * virtioStride
      irq := BitVec.ofNat 8 (arch.virtioIRQBase + slot) }

/-! ## Rewriting the configuration -/

/-- Another source for the shared directory with this target. -/
structure SharedFSRebind where
  target : String
  source : String

/-- What may be changed when a snapshot is restored. -/
structure RestoreOptions where
  overrideVCPUs : ℤ
  overrideID : String
  overrideTap : String
  overrideX86Boot : BootMode
  overrideVsockUDSPath : String
  sharedFSRebinds : List SharedFSRebind
  additionalDrives : List DriveConfig

/-- Why a snapshot is not restored. -/
inductive RestoreError where
  | invalidArch (raw : String)
  | archMismatch (arch host : Arch)
  | noVsock
  | relativeUDSPath (path : String)
  | noVirtiofsSlot (target : String) (available : List String)
  | rootDrive (i : ℕ)
  | driveIDRequired (i : ℕ)
  | drivePathRequired (i : ℕ)
  | driveIDCollides (i : ℕ) (id : String)
  | invalidBootMode (raw : String)
  | bootModeMismatch (snapshot override : BootMode)
  | vcpuMismatch (snapshot override : ℤ)
  deriving DecidableEq

def Arch.name : Arch → String
  | .amd64 => "amd64"
  | .arm64 => "arm64"

def BootMode.name : BootMode → String
  | .blank => ""
  | .auto => "auto"
  | .acpi => "acpi"
  | .legacy => "legacy"
  | .other raw => raw

def RestoreError.message : RestoreError → String
  | .invalidArch raw => s!"invalid arch \"{raw}\""
  | .archMismatch arch host =>
    let a := arch.name
    let h := host.name
    s!"snapshot arch validation failed: arch \"{a}\" is not compatible with host arch \"{h}\" (same-arch only)"
  | .noVsock => "OverrideVsockUDSPath: snapshot has no vsock device"
  | .relativeUDSPath path =>
    s!"OverrideVsockUDSPath: vsock: uds_path must be absolute, got \"{path}\""
  | .noVirtiofsSlot target available =>
    let targets := " ".intercalate available
    s!"snapshot has no virtiofs slot for target \"{target}\" (available targets: [{targets}]); template must be rebuilt with a matching virtiofs mount"
  | .rootDrive i => s!"AdditionalDrives[{i}]: cannot inject a root drive at restore"
  | .driveIDRequired i => s!"AdditionalDrives[{i}]: drive ID is required"
  | .drivePathRequired i => s!"AdditionalDrives[{i}]: drive path is required"
  | .driveIDCollides i id => s!"AdditionalDrives[{i}]: drive ID \"{id}\" collides with snapshot"
  | .invalidBootMode raw => s!"invalid x86 boot mode \"{raw}\""
  | .bootModeMismatch snapshot override =>
    let s := snapshot.name
    let o := override.name
    s!"snapshot was taken with x86 boot mode \"{s}\", restore override \"{o}\" is not allowed"
  | .vcpuMismatch snapshot override =>
    s!"snapshot was taken with {snapshot} vCPU(s), restore override {override} is not allowed"

/-- Snapshots without an architecture are older than the field and come from x86. -/
def normalizeSnapshotMachineArch : ArchName → Except RestoreError Arch
  | .blank => .ok .amd64
  | .known arch => .ok arch
  | .other raw => .error (.invalidArch raw)

/-- A snapshot is only restored on its own architecture. -/
def validateMachineArch (host arch : Arch) : Except RestoreError Unit :=
  if arch = host then .ok () else .error (.archMismatch arch host)

/-- No mode means `auto`. -/
def normalizeX86BootMode : BootMode → Except RestoreError BootMode
  | .blank => .ok .auto
  | .other raw => .error (.invalidBootMode raw)
  | mode => .ok mode

def isAbs (path : String) : Bool := path.toList.head? = some '/'

/-- The path of a file of the snapshot in `dir`. `Join` also cleans the path, which nothing here
depends on. -/
def resolveSnapshotPath (dir value : String) : String :=
  if value = "" ∨ isAbs value = true then value
  else if dir = "" then value
  else dir ++ ("/" ++ value)

variable (cfg : Config)

/-- A dash removes the path. -/
def applyVsockUDSPathOverride (override : String) : Except RestoreError Config :=
  if override = "" then .ok cfg
  else
    match cfg.vsock with
    | none => .error .noVsock
    | some v =>
      if override = "-" then .ok { cfg with vsock := some { v with udsPath := "" } }
      else if isAbs override then .ok { cfg with vsock := some { v with udsPath := override } }
      else .error (.relativeUDSPath override)

/-- The targets that a rebinding can name, for the error. -/
def sharedFSTargets (cfgs : List SharedFSConfig) : List String :=
  (cfgs.map (·.target)).filter (· ≠ "")

/-- The index of the export with this target, the last of them if there are several. An export
without a target cannot be named. -/
def sharedFSSlot (cfgs : List SharedFSConfig) (target : String) : Option ℕ :=
  if target = "" then none
  else (cfgs.zipIdx.reverse.find? fun fs ↦ fs.1.target = target).map (·.2)

/-- The loop of `applySharedFSRebinds`: the slots are looked up in the exports of the snapshot. -/
def rebindSharedFS (original : List SharedFSConfig) :
    List SharedFSRebind → List SharedFSConfig → Except RestoreError (List SharedFSConfig)
  | [], cfgs => .ok cfgs
  | rb :: rebinds, cfgs =>
    match sharedFSSlot original rb.target with
    | none => .error (.noVirtiofsSlot rb.target (sharedFSTargets cfgs))
    | some i =>
      rebindSharedFS original rebinds
        (cfgs.modify i fun fs ↦ { fs with source := rb.source, socketPath := "" })

def applySharedFSRebinds (rebinds : List SharedFSRebind) :
    Except RestoreError Config := do
  let sharedFS ← rebindSharedFS cfg.sharedFS rebinds cfg.sharedFS
  return { cfg with sharedFS }

/-- The loop of `applyAdditionalDrives`, at index `i`, with the names in use. -/
def appendDrives : ℕ → List String → List DriveConfig → List DriveConfig →
    Except RestoreError (List DriveConfig)
  | _, _, drives, [] => .ok drives
  | i, seen, drives, d :: extras =>
    if d.root then .error (.rootDrive i)
    else if d.id = "" then .error (.driveIDRequired i)
    else if d.path = "" then .error (.drivePathRequired i)
    else if d.id ∈ seen then .error (.driveIDCollides i d.id)
    else appendDrives (i + 1) (d.id :: seen) (drives ++ [d]) extras

/-- They come behind the drives of the snapshot. -/
def applyAdditionalDrives (extras : List DriveConfig) :
    Except RestoreError Config := do
  let seen := (cfg.drives.map (·.id)).filter (· ≠ "")
  let drives ← appendDrives 0 seen cfg.drives extras
  return { cfg with drives }

/-- The mode can be confirmed, but not changed. -/
def applyX86BootOverride (override : BootMode) : Except RestoreError Config :=
  if override = .blank then .ok cfg
  else do
    let mode ← normalizeX86BootMode override
    let snapMode ← normalizeX86BootMode cfg.x86Boot
    if snapMode ≠ mode then throw (.bootModeMismatch snapMode mode)
    return { cfg with x86Boot := mode }

/-- The number of vCPUs of a snapshot with `saved` vCPU states. -/
def snapshotVCPUCount (saved : ℕ) (cfg : Config) : ℤ :=
  if 0 < saved then saved else if 0 < cfg.vcpus then cfg.vcpus else 1

/-- The number can be confirmed, but not changed. -/
def applyVCPUOverride (saved : ℕ) (cfg : Config) (override : ℤ) : Except RestoreError Config :=
  let count := snapshotVCPUCount saved cfg
  if 0 < override ∧ override ≠ count then .error (.vcpuMismatch count override)
  else if 0 < override then .ok { cfg with vcpus := override }
  else if cfg.vcpus ≤ 0 then .ok { cfg with vcpus := count }
  else .ok cfg

/-- The rewriting at the beginning of `restoreFromSnapshot`, on a host of architecture `host`, for a
snapshot in `dir` with `saved` vCPU states: the architecture and the configuration that
`setupDevices` is called with. -/
def restoreConfig (host : Arch) (dir : String) (saved : ℕ) (cfg : Config) (opts : RestoreOptions) :
    Except RestoreError (Arch × Config) := do
  let arch ← normalizeSnapshotMachineArch cfg.arch
  let _ ← validateMachineArch host arch
  let cfg := { cfg with
    arch := .known arch
    id := if opts.overrideID ≠ "" then opts.overrideID else cfg.id
    tapName := if opts.overrideTap ≠ "" then opts.overrideTap else cfg.tapName }
  let cfg ← applyVsockUDSPathOverride cfg opts.overrideVsockUDSPath
  let cfg ← applySharedFSRebinds cfg opts.sharedFSRebinds
  let cfg ← applyAdditionalDrives cfg opts.additionalDrives
  let cfg ← applyX86BootOverride cfg opts.overrideX86Boot
  let cfg ← applyVCPUOverride saved cfg opts.overrideVCPUs
  return (arch, { cfg with diskImage := resolveSnapshotPath dir cfg.diskImage })

/-- The overrides leave every device of the snapshot in its slot. A network interface is added
behind all of them or not at all; drives are added to a list of drives, and behind everything. -/
def KeepsLayout (opts : RestoreOptions) : Prop :=
  (opts.overrideTap = "" ∨ cfg.hasNet ∨
      cfg.hasVsock = false ∧ cfg.driveList = [] ∧ cfg.sharedFS = []) ∧
    (opts.additionalDrives = [] ∨ cfg.sharedFS = [] ∧ (cfg.drives ≠ [] ∨ cfg.diskImage = ""))

/-! ## What each override rewrites -/

variable {i saved : ℕ} {seen : List String} {drives drives' extras : List DriveConfig}

open Config

section Overrides

variable {cfg cfg' : Config}

theorem applyVsockUDSPathOverride_eq_ok {override : String}
    (h : applyVsockUDSPathOverride cfg override = .ok cfg') :
    ∃ vsock, cfg' = { cfg with vsock } ∧ cfg'.hasVsock = cfg.hasVsock := by
  revert h
  fun_cases applyVsockUDSPathOverride cfg override with rintro ⟨⟩
  | case1 => exact ⟨cfg.vsock, rfl, rfl⟩
  | case3 _ v hv | case4 _ v hv => exact ⟨_, rfl, by simp only [hasVsock, hv, Option.any_some]⟩

theorem fsDevices_modify (cfgs : List SharedFSConfig) (i : ℕ) (source socketPath : String) :
    fsDevices (cfgs.modify i fun fs ↦ { fs with source, socketPath }) = fsDevices cfgs := by
  induction cfgs generalizing i with
  | nil => rw [modify_nil]
  | cons fs cfgs ih =>
    cases i with
    | zero => rfl
    | succ i => exact congrArg (BoundDevice.fs fs.tag :: ·) (ih i)

variable {rebinds : List SharedFSRebind}

theorem fsDevices_rebindSharedFS {original cfgs cfgs' : List SharedFSConfig}
    (h : rebindSharedFS original rebinds cfgs = .ok cfgs') :
    fsDevices cfgs' = fsDevices cfgs := by
  induction rebinds generalizing cfgs with
  | nil => exact congrArg fsDevices (Except.ok.inj h).symm
  | cons rb rebinds ih =>
    rw [rebindSharedFS] at h
    split at h
    · nomatch h
    · exact (ih h).trans (fsDevices_modify _ _ _ _)

theorem applySharedFSRebinds_eq_ok (h : applySharedFSRebinds cfg rebinds = .ok cfg') :
    ∃ sharedFS, cfg' = { cfg with sharedFS } ∧ fsDevices sharedFS = fsDevices cfg.sharedFS := by
  obtain ⟨sharedFS, hrebind, h⟩ := bind_eq_ok.mp h
  exact ⟨sharedFS, (Except.ok.inj h).symm, fsDevices_rebindSharedFS hrebind⟩

theorem appendDrives_eq_ok (h : appendDrives i seen drives extras = .ok drives') :
    drives' = drives ++ extras ∧ ∀ d ∈ extras, d.root = false := by
  fun_induction appendDrives i seen drives extras with
  | case1 => exact ⟨by rw [append_nil]; exact (Except.ok.inj h).symm, by simp⟩
  | case2 | case3 | case4 | case5 => nomatch h
  | case6 i seen drives d extras hroot _ _ _ ih =>
    obtain ⟨hdrives, hextras⟩ := ih h
    refine ⟨by rw [hdrives, append_assoc, singleton_append], ?_⟩
    intro d' hd'
    rcases mem_cons.mp hd' with rfl | hmem
    · exact Bool.eq_false_iff.mpr hroot
    · exact hextras d' hmem

theorem applyAdditionalDrives_eq_ok (h : applyAdditionalDrives cfg extras = .ok cfg') :
    cfg' = { cfg with drives := cfg.drives ++ extras } ∧ ∀ d ∈ extras, d.root = false := by
  obtain ⟨drives, happend, h⟩ := bind_eq_ok.mp h
  obtain ⟨rfl, hextras⟩ := appendDrives_eq_ok happend
  exact ⟨(Except.ok.inj h).symm, hextras⟩

theorem applyX86BootOverride_eq_ok {override : BootMode}
    (h : applyX86BootOverride cfg override = .ok cfg') :
    ∃ x86Boot, cfg' = { cfg with x86Boot } := by
  rw [applyX86BootOverride] at h
  split at h
  · exact ⟨cfg.x86Boot, (Except.ok.inj h).symm⟩
  obtain ⟨mode, -, h⟩ := bind_eq_ok.mp h
  obtain ⟨snapMode, -, h⟩ := bind_eq_ok.mp h
  split at h
  · nomatch h
  · exact ⟨mode, (Except.ok.inj h).symm⟩

theorem applyVCPUOverride_eq_ok {override : ℤ}
    (h : applyVCPUOverride saved cfg override = .ok cfg') : ∃ vcpus, cfg' = { cfg with vcpus } ∧
      (0 < override → override = snapshotVCPUCount saved cfg) ∧
      vcpus = if 0 < override ∨ cfg.vcpus ≤ 0 then snapshotVCPUCount saved cfg else cfg.vcpus := by
  rw [applyVCPUOverride] at h
  split_ifs at h with hcount hpos hnone
  · have heq : override = snapshotVCPUCount saved cfg := not_not.mp fun hne ↦ hcount ⟨hpos, hne⟩
    exact ⟨_, (Except.ok.inj h).symm, fun _ ↦ heq, by rw [if_pos (.inl hpos), ← heq]⟩
  · exact ⟨_, (Except.ok.inj h).symm, fun h ↦ absurd h hpos, by rw [if_pos (.inr hnone)]⟩
  · exact ⟨_, (Except.ok.inj h).symm, fun h ↦ absurd h hpos, by rw [if_neg (by omega)]⟩

theorem resolveSnapshotPath_eq_empty_iff (dir value : String) :
    resolveSnapshotPath dir value = "" ↔ value = "" := by
  rw [resolveSnapshotPath]
  split
  · exact Iff.rfl
  split
  · exact Iff.rfl
  rename_i h _
  refine iff_of_false ?_ fun hempty ↦ h (.inl hempty)
  rw [String.append_eq_empty_iff, String.append_eq_empty_iff]
  exact fun hall ↦ absurd hall.2.1 (by decide)

end Overrides

/-- What an accepted restore has done to the configuration, as far as devices and vCPUs go. -/
structure Rewritten (saved : ℕ) (cfg : Config) (opts : RestoreOptions) (cfg' : Config) : Prop where
  balloon : cfg'.balloon = cfg.balloon
  net : cfg'.hasNet ↔ opts.overrideTap ≠ "" ∨ cfg.hasNet
  vsock : cfg'.hasVsock = cfg.hasVsock
  drives : cfg'.drives = cfg.drives ++ opts.additionalDrives
  notRoot : ∀ d ∈ opts.additionalDrives, d.root = false
  diskImage : cfg'.diskImage = "" ↔ cfg.diskImage = ""
  exports : fsDevices cfg'.sharedFS = fsDevices cfg.sharedFS
  override : 0 < opts.overrideVCPUs → opts.overrideVCPUs = snapshotVCPUCount saved cfg
  vcpus : cfg'.vcpus = if 0 < opts.overrideVCPUs ∨ cfg.vcpus ≤ 0 then snapshotVCPUCount saved cfg
    else cfg.vcpus

theorem rewritten_of_restoreConfig {host arch : Arch} {dir : String}
    {cfg cfg' : Config} {opts : RestoreOptions}
    (h : restoreConfig host dir saved cfg opts = .ok (arch, cfg')) :
    Rewritten saved cfg opts cfg' := by
  obtain ⟨arch', -, h⟩ := bind_eq_ok.mp h
  obtain ⟨_, -, h⟩ := bind_eq_ok.mp h
  obtain ⟨cfg₁, h₁, h⟩ := bind_eq_ok.mp h
  obtain ⟨cfg₂, h₂, h⟩ := bind_eq_ok.mp h
  obtain ⟨cfg₃, h₃, h⟩ := bind_eq_ok.mp h
  obtain ⟨cfg₄, h₄, h⟩ := bind_eq_ok.mp h
  obtain ⟨cfg₅, h₅, h⟩ := bind_eq_ok.mp h
  obtain ⟨vsock, e₁, hvsock⟩ := applyVsockUDSPathOverride_eq_ok h₁
  obtain ⟨sharedFS, e₂, hfs⟩ := applySharedFSRebinds_eq_ok h₂
  obtain ⟨e₃, hroot⟩ := applyAdditionalDrives_eq_ok h₃
  obtain ⟨x86Boot, e₄⟩ := applyX86BootOverride_eq_ok h₄
  obtain ⟨vcpus, e₅, hoverride, hvcpus⟩ := applyVCPUOverride_eq_ok h₅
  obtain ⟨-, rfl⟩ := Prod.mk.inj (Except.ok.inj h)
  -- Each override rewrites one field, so a field is followed back to the override that sets it.
  constructor
  case balloon => simp only [e₅, e₄, e₃, e₂, e₁]
  case vsock => simpa only [hasVsock, e₅, e₄, e₃, e₂] using hvsock
  case drives => simp only [e₅, e₄, e₃, e₂, e₁]
  case notRoot => exact hroot
  case diskImage =>
    have hdisk : cfg₅.diskImage = cfg.diskImage := by simp only [e₅, e₄, e₃, e₂, e₁]
    rw [resolveSnapshotPath_eq_empty_iff, hdisk]
  case exports =>
    have hshared : cfg₅.sharedFS = sharedFS := by simp only [e₅, e₄, e₃, e₂]
    simpa only [hshared, e₁] using hfs
  case override => simpa only [snapshotVCPUCount, e₄, e₃, e₂, e₁] using hoverride
  case vcpus => simpa only [e₅, snapshotVCPUCount, e₄, e₃, e₂, e₁] using hvcpus
  case net =>
    have htap : cfg₅.tapName = if opts.overrideTap ≠ "" then opts.overrideTap else cfg.tapName := by
      simp only [e₅, e₄, e₃, e₂, e₁]
    have hmode : cfg₅.netMode = cfg.netMode := by simp only [e₅, e₄, e₃, e₂, e₁]
    rw [hasNet, hasNet, htap, hmode, ← or_assoc]
    refine or_congr ?_ Iff.rfl
    split_ifs with hover
    · exact iff_of_true hover (.inl hover)
    · exact (or_iff_right hover).symm

/-! ## Prefixes of the layout -/

theorem map_device_setupDevices (arch : Arch) (cfg : Config) :
    (setupDevices arch cfg).map Slot.device = cfg.devices := by
  refine ext_getElem? fun i ↦ ?_
  rw [getElem?_map, setupDevices, getElem?_mapIdx]
  cases cfg.devices[i]? <;> rfl

/-- Shared filesystems are a prefix of drives followed by them only if there are none. -/
theorem fsDevices_isPrefix_iff (hne : extras ≠ []) (sharedFS : List SharedFSConfig) :
    fsDevices sharedFS <+: blkDevices extras ++ fsDevices sharedFS ↔ sharedFS = [] := by
  cases sharedFS with
  | nil => exact iff_of_true nil_prefix rfl
  | cons fs sharedFS =>
    cases extras with
    | nil => exact absurd rfl hne
    | cons d extras =>
      refine iff_of_false ?_ (cons_ne_nil _ _)
      intro h
      exact BoundDevice.noConfusion (cons_prefix_cons.mp h).1

theorem Config.laterDevices_eq_nil_iff (cfg : Config) :
    cfg.laterDevices = [] ↔ cfg.hasVsock = false ∧ cfg.driveList = [] ∧ cfg.sharedFS = [] := by
  rw [laterDevices, append_eq_nil_iff, append_eq_nil_iff, blkDevices, fsDevices,
    map_eq_nil_iff, map_eq_nil_iff]
  refine and_congr ?_ Iff.rfl
  cases cfg.hasVsock <;> simp

/-- A network interface stands in front of everything behind it. -/
theorem Config.laterDevices_isPrefix_net_iff (cfg : Config) (devices : List BoundDevice) :
    cfg.laterDevices <+: .net :: devices ↔ cfg.laterDevices = [] := by
  constructor
  · intro hpre
    have hnotMem : BoundDevice.net ∉ cfg.laterDevices := by
      simp only [laterDevices, blkDevices, fsDevices]
      split <;> simp
    cases hlater : cfg.laterDevices with
    | nil => rfl
    | cons device rest =>
      rw [hlater] at hpre hnotMem
      obtain ⟨rfl, -⟩ := cons_prefix_cons.mp hpre
      exact absurd mem_cons_self hnotMem
  · intro hnil
    rw [hnil]
    exact nil_prefix

namespace Rewritten

variable {cfg cfg' : Config} {opts : RestoreOptions}

section

variable (h : Rewritten saved cfg opts cfg')
include h

theorem blkDevices_of_nil (hextras : opts.additionalDrives = []) :
    blkDevices cfg'.driveList = blkDevices cfg.driveList := by
  have hdrives : cfg'.drives = cfg.drives := by rw [h.drives, hextras, append_nil]
  rw [driveList, driveList, hdrives]
  split
  · rfl
  by_cases hdisk : cfg.diskImage = ""
  · rw [if_pos hdisk, if_pos (h.diskImage.mpr hdisk)]
  · rw [if_neg hdisk, if_neg fun hempty ↦ hdisk (h.diskImage.mp hempty)]
    rfl

theorem driveList_of_ne_nil (hextras : opts.additionalDrives ≠ []) :
    cfg'.driveList = cfg.drives ++ opts.additionalDrives := by
  rw [driveList, h.drives, if_pos (append_ne_nil_of_right_ne_nil _ hextras)]

theorem storage_isPrefix_iff : blkDevices cfg.driveList ++ fsDevices cfg.sharedFS <+:
        blkDevices cfg'.driveList ++ fsDevices cfg'.sharedFS ↔
      opts.additionalDrives = [] ∨ cfg.sharedFS = [] ∧ (cfg.drives ≠ [] ∨ cfg.diskImage = "") := by
  rw [h.exports]
  by_cases hextras : opts.additionalDrives = []
  · rw [h.blkDevices_of_nil hextras]
    exact iff_of_true (prefix_refl _) (.inl hextras)
  rw [h.driveList_of_ne_nil hextras, blkDevices_append, append_assoc, or_iff_right hextras]
  by_cases hdrives : cfg.drives = []
  · by_cases hdisk : cfg.diskImage = ""
    · have hlist : cfg.driveList = [] := by
        rw [driveList, if_neg (not_not.mpr hdrives), if_pos hdisk]
      rw [hlist, hdrives]
      exact (fsDevices_isPrefix_iff hextras _).trans (and_iff_left (.inr hdisk)).symm
    · -- The root disk gives way to the first additional drive, which is no root.
      have hlist : cfg.driveList = [⟨"root", cfg.diskImage, true, cfg.diskRO⟩] := by
        rw [driveList, if_neg (not_not.mpr hdrives), if_neg hdisk]
      refine iff_of_false ?_ fun hkeep ↦ hkeep.2.elim (absurd hdrives) hdisk
      obtain ⟨d, extras, hcons⟩ := exists_cons_of_ne_nil hextras
      have hroot : d.root = false := h.notRoot d (hcons ▸ mem_cons_self)
      rw [hlist, hdrives, hcons]
      intro hpre
      have hhead : BoundDevice.blk "root" true = .blk d.id d.root := (cons_prefix_cons.mp hpre).1
      rw [hroot] at hhead
      exact Bool.noConfusion (BoundDevice.blk.inj hhead).2
  · have hlist : cfg.driveList = cfg.drives := by rw [driveList, if_pos hdrives]
    rw [hlist, prefix_append_right_inj]
    exact (fsDevices_isPrefix_iff hextras _).trans (and_iff_left (.inl hdrives)).symm

theorem laterDevices_isPrefix_iff : cfg.laterDevices <+: cfg'.laterDevices ↔
      opts.additionalDrives = [] ∨ cfg.sharedFS = [] ∧ (cfg.drives ≠ [] ∨ cfg.diskImage = "") := by
  rw [laterDevices, laterDevices, h.vsock, prefix_append_right_inj]
  exact h.storage_isPrefix_iff

/-- **Layout of a rewritten configuration.** -/
theorem devices_isPrefix_iff : cfg.devices <+: cfg'.devices ↔ KeepsLayout cfg opts := by
  rw [devices, devices, h.balloon, cons_prefix_cons,
    prefix_append_right_inj, KeepsLayout, eq_self_iff_true, true_and]
  by_cases hnet : cfg.hasNet
  · rw [if_pos hnet, if_pos (h.net.mpr (.inr hnet)), prefix_append_right_inj,
      h.laterDevices_isPrefix_iff]
    exact (and_iff_right (.inr (.inl hnet))).symm
  rw [if_neg hnet, nil_append, or_iff_right hnet]
  by_cases htap : opts.overrideTap = ""
  · rw [if_neg fun hnet' ↦ (h.net.mp hnet').elim (absurd htap) hnet, nil_append,
      h.laterDevices_isPrefix_iff]
    exact (and_iff_right (.inl htap)).symm
  rw [if_pos (h.net.mpr (.inl htap)), singleton_append,
    cfg.laterDevices_isPrefix_net_iff, cfg.laterDevices_eq_nil_iff, or_iff_right htap]
  refine (and_iff_left_of_imp ?_).symm
  -- With nothing behind the interface, additional drives come last as well.
  rintro ⟨-, hlist, hfs⟩
  refine .inr ⟨hfs, ?_⟩
  by_contra hroot
  rw [not_or, not_not] at hroot
  rw [driveList, if_neg (not_not.mpr hroot.1), if_neg hroot.2] at hlist
  exact cons_ne_nil _ _ hlist

end

end Rewritten

/-- A snapshot of a VM with a root drive and vsock, without a network interface. -/
def vsockSnapshot : Config where
  id := "vm"
  arch := .known .amd64
  diskImage := ""
  diskRO := false
  drives := [⟨"root", "/disk.ext4", true, false⟩]
  tapName := ""
  netMode := ""
  vcpus := 1
  x86Boot := .auto
  sharedFS := []
  vsock := some ⟨true, ""⟩
  balloon := none

/-- No override at all. -/
def plainRestore : RestoreOptions where
  overrideVCPUs := 0
  overrideID := ""
  overrideTap := ""
  overrideX86Boot := .blank
  overrideVsockUDSPath := ""
  sharedFSRebinds := []
  additionalDrives := []

/-- **Restoring keeps the device layout** exactly under `KeepsLayout`: the devices of the snapshot,
with their addresses and interrupt lines, are a prefix of those of the restored VM. -/
theorem setupDevices_isPrefix_iff_keepsLayout {host arch : Arch} {dir : String} {saved : ℕ}
    {cfg cfg' : Config} {opts : RestoreOptions}
    (h : restoreConfig host dir saved cfg opts = .ok (arch, cfg')) :
    setupDevices arch cfg <+: setupDevices arch cfg' ↔ KeepsLayout cfg opts := by
  refine Iff.trans ?_ (rewritten_of_restoreConfig h).devices_isPrefix_iff
  -- Slots are numbered from the front, so a prefix of the slots is a prefix of the devices.
  constructor
  · intro h
    have hmap := h.map Slot.device
    rwa [map_device_setupDevices, map_device_setupDevices] at hmap
  · rintro ⟨rest, hrest⟩
    rw [setupDevices, setupDevices, ← hrest, mapIdx_append]
    exact prefix_append _ _

/-- A code disk added to a snapshot that has a list of drives. -/
theorem setupDevices_isPrefix_codeDisk : setupDevices .amd64 vsockSnapshot <+: setupDevices .amd64
        { vsockSnapshot with
          drives := vsockSnapshot.drives ++ [⟨"code", "/code.ext4", false, true⟩] } := by
  have hrestore : restoreConfig .amd64 "" 1 vsockSnapshot
      { plainRestore with additionalDrives := [⟨"code", "/code.ext4", false, true⟩] } =
      .ok (.amd64, { vsockSnapshot with
        drives := vsockSnapshot.drives ++ [⟨"code", "/code.ext4", false, true⟩] }) := by
    rfl
  exact (setupDevices_isPrefix_iff_keepsLayout hrestore).mpr
    ⟨.inl rfl, .inr ⟨rfl, .inl (cons_ne_nil _ _)⟩⟩

/-- A tap given to a snapshot without a network interface: the restore is accepted, and the saved
state of the vsock device is put into the new interface. -/
theorem not_setupDevices_isPrefix_overrideTap :
    restoreConfig .amd64 "" 1 vsockSnapshot { plainRestore with overrideTap := "tap0" } =
        .ok (.amd64, { vsockSnapshot with tapName := "tap0" }) ∧
      ¬ setupDevices .amd64 vsockSnapshot <+:
        setupDevices .amd64 { vsockSnapshot with tapName := "tap0" } := by
  constructor
  · rfl
  · decide

/-! ## Drives that are added -/

/-- **Additional drives displace nothing.** -/
structure Adds (cfg : Config) (extras : List DriveConfig) (cfg' : Config) : Prop where
  drives : cfg'.driveList = cfg.driveList ++ extras
  distinct : (cfg.driveList.map (·.id)).Nodup → (cfg'.driveList.map (·.id)).Nodup
  roots : cfg'.driveList.filter (·.root) = cfg.driveList.filter (·.root)

theorem appendDrives_fresh (h : appendDrives i seen drives extras = .ok drives') :
    (extras.map (·.id)).Nodup ∧ ∀ d ∈ extras, d.id ≠ "" ∧ d.id ∉ seen := by
  fun_induction appendDrives i seen drives extras with
  | case1 => exact ⟨nodup_nil, nofun⟩
  | case2 | case3 | case4 | case5 => nomatch h
  | case6 i seen drives d extras _ hid _ hseen ih =>
    obtain ⟨hnodup, hfresh⟩ := ih h
    refine ⟨nodup_cons.mpr ⟨?_, hnodup⟩, forall_mem_cons.mpr ⟨⟨hid, hseen⟩, fun e he ↦ ?_⟩⟩
    · intro hmem
      obtain ⟨e, he, heq⟩ := mem_map.mp hmem
      exact (hfresh e he).2 (heq ▸ mem_cons_self)
    · exact ⟨(hfresh e he).1, fun hmem ↦ (hfresh e he).2 (mem_cons_of_mem _ hmem)⟩

/-- **Adding drives** keeps those that are there, unless the only one was a disk image. -/
theorem adds_iff {cfg cfg' : Config} {extras : List DriveConfig}
    (h : applyAdditionalDrives cfg extras = .ok cfg') :
    Adds cfg extras cfg' ↔ extras = [] ∨ cfg.drives ≠ [] ∨ cfg.diskImage = "" := by
  obtain ⟨rfl, hroot⟩ := applyAdditionalDrives_eq_ok h
  obtain ⟨drives, happend, -⟩ := bind_eq_ok.mp h
  obtain ⟨hnodup, hfresh⟩ := appendDrives_fresh happend
  by_cases hextras : extras = []
  · subst hextras
    refine iff_of_true ⟨?_, ?_, ?_⟩ (.inl rfl) <;> simp [driveList]
  have hlist : driveList { cfg with drives := cfg.drives ++ extras } = cfg.drives ++ extras :=
    if_pos (append_ne_nil_of_right_ne_nil _ hextras)
  rw [or_iff_right hextras]
  refine ⟨fun hadds ↦ ?_, fun hkeep ↦ ?_⟩
  · by_contra hnot
    rw [not_or, not_not] at hnot
    have hdrives := hadds.drives
    rw [hlist, driveList, if_neg hnot.2, hnot.1] at hdrives
    simpa using congrArg length hdrives
  have hold : cfg.driveList = cfg.drives := by
    rw [driveList]
    split_ifs with hdrives hdisk
    · rfl
    · exact (not_not.mp hdrives).symm
    · exact absurd hkeep (not_or.mpr ⟨hdrives, hdisk⟩)
  constructor
  case drives => rw [hlist, hold]
  case roots =>
    have hnone : extras.filter (·.root) = [] :=
      filter_eq_nil_iff.mpr fun d hd ↦ by simp [hroot d hd]
    rw [hlist, hold, filter_append, hnone, append_nil]
  case distinct =>
    rw [hlist, hold, map_append]
    refine fun hdistinct ↦ hdistinct.append hnodup fun id hid hid' ↦ ?_
    obtain ⟨d, hd, rfl⟩ := mem_map.mp hid'
    exact (hfresh d hd).2 (mem_filter.mpr ⟨hid, by simpa using (hfresh d hd).1⟩)

/-- A code disk, for a snapshot with a list of drives. -/
theorem adds_codeDisk : Adds vsockSnapshot [⟨"code", "/code.ext4", false, true⟩]
    { vsockSnapshot with
      drives := vsockSnapshot.drives ++ [⟨"code", "/code.ext4", false, true⟩] } :=
  (adds_iff rfl).mpr (.inr (.inl (cons_ne_nil _ _)))

/-- The same for a snapshot with a disk image: the root drive is gone. -/
theorem not_adds_codeDisk : ∃ cfg',
    applyAdditionalDrives { vsockSnapshot with drives := [], diskImage := "/disk.ext4" }
        [⟨"code", "/code.ext4", false, true⟩] = .ok cfg' ∧
      cfg'.driveList = [⟨"code", "/code.ext4", false, true⟩] ∧
      ¬ Adds { vsockSnapshot with drives := [], diskImage := "/disk.ext4" }
        [⟨"code", "/code.ext4", false, true⟩] cfg' :=
  ⟨_, rfl, rfl, fun h ↦ absurd h.roots (by decide)⟩

/-! ## The states of the vCPUs -/

/-- The state of a vCPU as a snapshot records it; `σ` is what its registers are. -/
structure VCPUState (σ : Type*) where
  id : ℤ
  regs : σ

/-- A snapshot document. An old one has no list of states, only the registers of the one vCPU. -/
structure Snapshot (σ : Type*) where
  config : Config
  vcpus : List (VCPUState σ)
  regs : σ

/-- The calls to the kernel for a processor. -/
inductive VCPUCall where
  | create (i : ℕ)
  | restore (i : ℕ)

/-- Where a restore ends with an error, or with a panic of Go. -/
inductive RestoreFailure where
  | config (err : RestoreError)
  | refused (call : VCPUCall)
  | indexOutOfRange (i : ℕ)

variable {σ : Type*}

/-- Without states of processors, the registers are those of the only one. -/
def normalizeSnapshotVCPUStates (snap : Snapshot σ) : List (VCPUState σ) :=
  if 0 < snap.vcpus.length then snap.vcpus else [⟨0, snap.regs⟩]

/-- What the first `n` vCPUs are given, on a host that refuses some calls. -/
def restoreVCPUs (refuses : VCPUCall → Bool) (states : List (VCPUState σ)) :
    ℕ → Except RestoreFailure (List (VCPUState σ))
  | 0 => .ok []
  | n + 1 => do
    let given ← restoreVCPUs refuses states n
    match states[n]? with
    | none => .error (.indexOutOfRange n)
    | some state =>
      if refuses (.restore n) then .error (.refused (.restore n)) else .ok (given ++ [state])

/-- The states that the vCPUs of the restored VM are given. -/
def restoreFromSnapshot (refuses : VCPUCall → Bool) (host : Arch) (dir : String)
    (snap : Snapshot σ) (opts : RestoreOptions) : Except RestoreFailure (List (VCPUState σ)) :=
  match restoreConfig host dir snap.vcpus.length snap.config opts with
  | .error err => .error (.config err)
  | .ok (_, cfg) =>
    match (range cfg.vcpus.toNat).find? fun i ↦ refuses (.create i) with
    | some i => .error (.refused (.create i))
    | none => restoreVCPUs refuses (normalizeSnapshotVCPUStates snap) cfg.vcpus.toNat

/-- The loop ends, is refused something, or runs out of states. -/
theorem restoreVCPUs_cases (refuses : VCPUCall → Bool) (states : List (VCPUState σ)) (n : ℕ) :
    n ≤ states.length ∧ restoreVCPUs refuses states n = .ok (states.take n) ∨
      (∃ call, refuses call = true ∧ restoreVCPUs refuses states n = .error (.refused call)) ∨
      states.length < n ∧
        restoreVCPUs refuses states n = .error (.indexOutOfRange states.length) := by
  induction n with
  | zero => exact .inl ⟨Nat.zero_le _, rfl⟩
  | succ n ih =>
    rw [restoreVCPUs]
    rcases ih with ⟨hle, hrun⟩ | ⟨call, hcall, hrun⟩ | ⟨hlt, hrun⟩
    · rw [hrun]
      rcases hle.lt_or_eq with hlt | rfl
      · have hstate := getElem?_eq_getElem hlt
        cases hrefused : refuses (.restore n) with
        | true => exact .inr (.inl ⟨_, hrefused, by simp [bind, Except.bind, hstate]⟩)
        | false =>
          refine .inl ⟨hlt, ?_⟩
          rw [hstate]
          simp [bind, Except.bind]
      · exact .inr (.inr ⟨Nat.lt_succ_self _, by simp [bind, Except.bind]⟩)
    · exact .inr (.inl ⟨call, hcall, by rw [hrun]; rfl⟩)
    · exact .inr (.inr ⟨Nat.lt_succ_of_lt hlt, by rw [hrun]; rfl⟩)

/-- The states that a document records: an old one that of its first vCPU. -/
def Snapshot.recorded (snap : Snapshot σ) : List (VCPUState σ) :=
  match snap.vcpus with
  | [] => [⟨0, snap.regs⟩]
  | states => states

/-- Every state stands at the number of its vCPU. -/
def InOrder (states : List (VCPUState σ)) : Prop :=
  ∀ (i : ℕ) (state : VCPUState σ), states[i]? = some state → state.id = i

/-- The restore failed, by no index out of range, or has given every state to its own vCPU. -/
def OneToOne (states : List (VCPUState σ)) : Except RestoreFailure (List (VCPUState σ)) → Prop
  | .error err => ∀ i, err ≠ .indexOutOfRange i
  | .ok given => given.Perm states ∧ InOrder given

section

variable {states : List (VCPUState σ)} {n : ℕ}

theorem OneToOne.inOrder (h : OneToOne states (restoreVCPUs (fun _ ↦ false) states n)) :
    n = states.length ∧ InOrder states := by
  rcases restoreVCPUs_cases (fun _ ↦ false) states n with ⟨hle, hrun⟩ | ⟨_, ⟨⟩, -⟩ | ⟨-, hrun⟩
  · rw [hrun] at h
    have hlen : n = states.length := by simpa [hle] using h.1.length_eq
    exact ⟨hlen, by simpa [hlen] using h.2⟩
  · rw [hrun] at h
    exact absurd rfl (h _)

theorem InOrder.oneToOne (h : InOrder states) (refuses : VCPUCall → Bool) :
    OneToOne states (restoreVCPUs refuses states states.length) := by
  rcases restoreVCPUs_cases refuses states states.length with
    ⟨-, hrun⟩ | ⟨call, -, hrun⟩ | ⟨hlt, -⟩
  · rw [hrun, take_length]
    exact ⟨.refl _, h⟩
  · rw [hrun]
    exact nofun
  · exact absurd hlt (lt_irrefl _)

end

/-- The list of states of a document, its number of vCPUs and the override fit together. An old
document is one of at most one vCPU. Otherwise the number is overridden, or missing, or that of the
states; and the states stand in order. -/
structure Snapshot.Fits (snap : Snapshot σ) (override : ℤ) : Prop where
  legacy : snap.vcpus = [] → snap.config.vcpus ≤ 1
  count : snap.vcpus ≠ [] →
    0 < override ∨ snap.config.vcpus ≤ 0 ∨ snap.config.vcpus = snap.vcpus.length
  order : InOrder snap.vcpus

theorem Rewritten.fits_iff {snap : Snapshot σ} {opts : RestoreOptions} {cfg : Config}
    (h : Rewritten snap.vcpus.length snap.config opts cfg) :
    cfg.vcpus.toNat = snap.recorded.length ∧ InOrder snap.recorded ↔
      snap.Fits opts.overrideVCPUs := by
  have hvcpus := h.vcpus
  have hover := h.override
  rw [snapshotVCPUCount] at hvcpus hover
  rw [Snapshot.recorded]
  cases hstates : snap.vcpus with
  | nil =>
    have hfirst : InOrder [(⟨0, snap.regs⟩ : VCPUState σ)] := by
      rintro (_ | i) state ⟨⟩
      rfl
    rw [hstates, length_nil] at hvcpus hover
    refine ⟨fun ⟨hlen, _⟩ ↦ ⟨fun _ ↦ ?_, fun hne ↦ absurd hstates hne, hstates ▸ nofun⟩,
      fun hfits ↦ ⟨?_, hfirst⟩⟩
    · change cfg.vcpus.toNat = 1 at hlen
      split_ifs at hvcpus <;> omega
    · have hle := hfits.legacy hstates
      change cfg.vcpus.toNat = 1
      split_ifs at hvcpus <;> omega
  | cons state states =>
    rw [hstates, if_pos (length_pos_of_mem mem_cons_self)] at hvcpus hover
    refine ⟨fun ⟨hlen, horder⟩ ↦ ⟨fun hnil ↦ ?_, fun _ ↦ ?_, hstates ▸ horder⟩,
      fun hfits ↦ ⟨?_, show InOrder (state :: states) from hstates ▸ hfits.order⟩⟩
    · rw [hstates] at hnil
      nomatch hnil
    · rw [hstates]
      change cfg.vcpus.toNat = (state :: states).length at hlen
      split_ifs at hvcpus <;> omega
    · have hcount := hfits.count (by rw [hstates]; exact cons_ne_nil _ _)
      rw [hstates] at hcount
      change cfg.vcpus.toNat = (state :: states).length
      split_ifs at hvcpus <;> omega

/-- **The states of the vCPUs are restored one to one** exactly if the document, its number of vCPUs
and the override fit together, or the restore is refused before. -/
theorem oneToOne_iff (host : Arch) (dir : String) (snap : Snapshot σ) (opts : RestoreOptions) :
    (∀ refuses, OneToOne snap.recorded (restoreFromSnapshot refuses host dir snap opts)) ↔
      ((restoreConfig host dir snap.vcpus.length snap.config opts).isOk = true →
        snap.Fits opts.overrideVCPUs) := by
  have hrecorded : normalizeSnapshotVCPUStates snap = snap.recorded := by
    rw [normalizeSnapshotVCPUStates, Snapshot.recorded]
    cases snap.vcpus <;> rfl
  simp only [restoreFromSnapshot, hrecorded]
  cases hconfig : restoreConfig host dir snap.vcpus.length snap.config opts with
  | error err => exact iff_of_true (fun _ ↦ nofun) nofun
  | ok res =>
    rw [← (rewritten_of_restoreConfig hconfig).fits_iff]
    constructor
    · intro h _
      have hall := h fun _ ↦ false
      dsimp only at hall
      rw [find?_eq_none.mpr fun _ _ ↦ Bool.false_ne_true] at hall
      exact hall.inOrder
    · intro h refuses
      obtain ⟨hlen, horder⟩ := h rfl
      dsimp only
      split
      · exact nofun
      · exact hlen ▸ horder.oneToOne refuses

/-- An old document of a VM with two vCPUs; and a VM that is to have fewer vCPUs than states. -/
theorem not_oneToOne :
    restoreFromSnapshot (fun _ ↦ false) .amd64 "" ⟨{ vsockSnapshot with vcpus := 2 }, [], ()⟩
        plainRestore = .error (.indexOutOfRange 1) ∧
      restoreFromSnapshot (fun _ ↦ false) .amd64 "" ⟨vsockSnapshot, [⟨0, ()⟩, ⟨1, ()⟩], ()⟩
        plainRestore = .ok [⟨0, ()⟩] := ⟨rfl, rfl⟩

end Gocracker
