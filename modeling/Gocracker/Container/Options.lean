import Gocracker.Machine.Json
import Gocracker.Posix.Path

/-!
# The options of a run, and what the guest is told

A run of a container is described by a large record, most of it optional. It decides in several ways
what is run: it selects what the root filesystem is built from, it overrides parts of the image's
configuration, and it configures the machine. Out of the image's configuration and the options
`buildGuestSpec` makes what the guest's init process reads when it starts.

A slice that is missing and one that is empty are the same here. Both are the empty list.
-/

namespace Gocracker.Container

open Machine Posix

/-! ## Options -/

/-- A Go map with string keys, listed in the order of its keys. -/
structure StringMap where
  entries : List (String × String)
  sorted : entries.Pairwise fun e e' ↦ e.1 < e'.1
  deriving DecidableEq

def StringMap.empty : StringMap := ⟨[], List.Pairwise.nil⟩

/-- A module that the ramdisk brings along. -/
structure KernelModule where
  name : String
  hostPath : String
  deriving DecidableEq

/-- The backend is `virtiofs`, or the mount is copied into the root filesystem. -/
structure Mount where
  source : String
  target : String
  readOnly : Bool
  populate : Bool
  backend : String
  deriving DecidableEq

/-- The backend that needs no copy of the files. -/
def mountBackendVirtioFS : String := "virtiofs"

/-- A limit on bytes or operations, with a burst. -/
structure TokenBucketConfig where
  size : ℕ
  oneTimeBurst : ℕ
  refillTimeMs : ℕ
  deriving DecidableEq

structure RateLimiterConfig where
  bandwidth : TokenBucketConfig
  ops : TokenBucketConfig
  deriving DecidableEq

/-- A disk beside the root disk. -/
structure DriveConfig where
  id : String
  path : String
  root : Bool
  readOnly : Bool
  rateLimiter : Option RateLimiterConfig
  deriving DecidableEq

/-- The settings of the memory balloon. -/
structure BalloonConfig where
  amountMiB : ℕ
  deflateOnOOM : Bool
  statsPollingIntervalS : ℤ
  freePageHinting : Bool
  freePageReporting : Bool
  auto : String
  snapshotPages : List ℕ
  deriving DecidableEq

def balloonAutoConservative : String := "conservative"

/-- The region for memory that is added later, in MiB. -/
structure MemoryHotplugConfig where
  totalSizeMiB : ℕ
  slotSizeMiB : ℕ
  blockSizeMiB : ℕ
  deriving DecidableEq

/-- The options of a run, as far as a modelled function reads them. -/
structure RunOptions where
  image : String := ""
  dockerfile : String := ""
  context : String := ""
  repoURL : String := ""
  repoRef : String := ""
  repoSubdir : String := ""
  repoDockerfile : String := ""
  memMB : ℕ := 0
  arch : String := ""
  cpus : ℤ := 0
  kernelPath : String := ""
  tapName : String := ""
  networkMode : String := ""
  cmd : List String := []
  entrypoint : List String := []
  env : List String := []
  hosts : List String := []
  workDir : String := ""
  pid1Mode : String := ""
  mounts : List Mount := []
  kernelModules : List KernelModule := []
  consoleIn : Bool := false
  diskSizeMB : ℤ := 0
  buildArgs : StringMap := .empty
  metadata : StringMap := .empty
  snapshotDir : String := ""
  execEnabled : Bool := false
  interactiveExec : Bool := false
  drives : List DriveConfig := []
  balloon : Option BalloonConfig := none
  memoryHotplug : Option MemoryHotplugConfig := none
  warmCapture : Bool := false
  warmRuntime : String := ""
  deriving DecidableEq

/-! ## The guest's specification -/

/-- The part of an image's configuration that reaches the guest. -/
structure ImageConfig where
  entrypoint : List String := []
  cmd : List String := []
  env : List String := []
  workingDir : String := ""
  user : String := ""
  deriving DecidableEq

/-- The command of the guest's first process. -/
structure Process where
  exec : String := ""
  args : List String := []
  deriving DecidableEq

/-- No command at all, as in the zero value of Go. -/
def Process.isZero (p : Process) : Bool := p.exec = "" ∧ p.args = []

/-- The first word is what is executed. -/
def resolveProcess (entrypoint cmd : List String) : Process :=
  match entrypoint, cmd with
  | exec :: args, cmd => ⟨exec, args ++ cmd⟩
  | [], exec :: args => ⟨exec, args⟩
  | [], [] => ⟨"", []⟩

/-- A shared directory, as the guest is told about it. -/
structure SharedFSMount where
  tag : String
  target : String
  readOnly : Bool
  deriving DecidableEq

/-- The agent that runs commands in the guest. -/
structure ExecConfig where
  enabled : Bool
  vsockPort : ℕ
  deriving DecidableEq

def defaultExecVsockPort : ℕ := 10022

/-- What the guest's init is told. -/
structure GuestSpec where
  process : Process
  env : List String
  hosts : List String
  sharedFS : List SharedFSMount
  workDir : String
  user : String
  pid1Mode : String
  exec : ExecConfig
  deriving DecidableEq

/-- Is anything set that the guest has to be told? -/
def GuestSpec.hasStructuredFields (s : GuestSpec) : Bool :=
  !s.process.isZero || s.env ≠ [] || s.hosts ≠ [] || s.sharedFS ≠ [] || s.workDir ≠ "" ||
    s.user ≠ "" || s.pid1Mode ≠ "" || s.exec.enabled

/-- Init is to stay in front of the command. -/
def pid1ModeSupervised : String := "supervised"

/-- The run's own words, or those of the image. -/
def effectiveSlice (override fallback : List String) : List String :=
  if override ≠ [] then override else fallback

/-- For statistics of the guest, or a balloon that follows them. -/
def balloonNeedsGuestAgent (cfg : Option BalloonConfig) : Bool :=
  cfg.any fun c ↦ c.statsPollingIntervalS > 0 || c.auto = balloonAutoConservative

/-- A balloon or hotplug may need the agent where no commands are run. -/
def guestAgentRequired (balloon : Option BalloonConfig) (hotplug : Option MemoryHotplugConfig) :
    Bool :=
  balloonNeedsGuestAgent balloon || hotplug.isSome

/-- Mounts whose files have to be copied into the disk. -/
def hasMaterializedMounts (mounts : List Mount) : Bool :=
  mounts.any fun m ↦ m.backend ≠ mountBackendVirtioFS

/-! ### Shared directories -/

/-- `filepath.Clean`, as the components of the result and whether it is absolute. -/
def cleanPath (path : String) : Bool × List Text :=
  (isAbs path.toList, cleanComponents path.toList)

/-- A directory that is exported to the guest, under a tag. -/
structure SharedFSExport where
  source : Bool × List Text
  tag : String
  target : String
  deriving DecidableEq

/-- The shared directories of a run: what is exported and what is mounted. -/
structure SharedFSPlan where
  exports : List SharedFSExport := []
  mounts : List SharedFSMount := []
  deriving DecidableEq

/-- One iteration of the loop: a source that was met before keeps its tag. -/
def SharedFSPlan.add (plan : SharedFSPlan) (mount : Mount) : SharedFSPlan :=
  if mount.backend ≠ mountBackendVirtioFS then plan
  else
    let source := cleanPath mount.source
    match plan.exports.find? fun e ↦ e.source = source with
    | some e => { plan with mounts := plan.mounts ++ [⟨e.tag, mount.target, mount.readOnly⟩] }
    | none =>
      let tag := "gocracker-fs-" ++ plan.exports.length.repr
      { exports := plan.exports ++ [⟨source, tag, mount.target⟩]
        mounts := plan.mounts ++ [⟨tag, mount.target, mount.readOnly⟩] }

def resolveSharedFSMounts (mounts : List Mount) : SharedFSPlan := mounts.foldl SharedFSPlan.add { }

/-- Modules are compared by name. -/
def hasKernelModule (modules : List KernelModule) (name : String) : Bool :=
  modules.any fun m ↦ m.name = name

/-- The module for shared directories, unless it is there already. -/
def appendVirtioFSKernelModule (hostVirtioFSModulePath : String) (modules : List KernelModule)
    (sharedFS : SharedFSPlan) : List KernelModule :=
  if sharedFS.exports = [] ∨ hasKernelModule modules "virtiofs" then modules
  else if hostVirtioFSModulePath = "" then modules
  else modules ++ [⟨"virtiofs", hostVirtioFSModulePath⟩]

/-! ### The specification -/

/-- The specification of the guest, from image, options and shared directories. -/
def buildGuestSpec (imgConfig : ImageConfig) (opts : RunOptions) (sharedFS : SharedFSPlan) :
    GuestSpec where
  process :=
    if opts.interactiveExec then { }
    else
      resolveProcess (effectiveSlice opts.entrypoint imgConfig.entrypoint)
        (effectiveSlice opts.cmd imgConfig.cmd)
  env := imgConfig.env ++ opts.env
  hosts := opts.hosts
  sharedFS := sharedFS.mounts
  workDir := if opts.workDir = "" then imgConfig.workingDir else opts.workDir
  user := imgConfig.user
  pid1Mode :=
    -- Somebody at the console needs a process that hands the terminal on.
    if opts.pid1Mode = "" ∧ (opts.consoleIn ∨ opts.interactiveExec) then pid1ModeSupervised
    else opts.pid1Mode
  exec :=
    { enabled := opts.execEnabled || guestAgentRequired opts.balloon opts.memoryHotplug
      vsockPort := defaultExecVsockPort }

end Gocracker.Container
