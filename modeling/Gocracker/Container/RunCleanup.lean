import Gocracker.Container.Artifacts
import Gocracker.Container.WarmKey

/-!
# What a failed run leaves behind

A run takes hold of up to three things outside of its work directory: a network of its own, with a
tap device and a subnet; a VM, in the same process or in a worker; and the directory of its runtime
disk. The caller gets a function that gives back the network and the directory. If the run fails
there is no such function, and it has to clean up after itself.

The two ways of running a VM are the same in their order, but not in what they do when a step fails.
`leaves` says for every error what is still held when it is returned, and in which state the VM is.
A VM in the same process that was never started is not stopped by `Stop`.
-/

namespace Gocracker.Container

open Machine Posix List

/-! ## The state -/

/-- What a run has taken hold of. -/
inductive Held where
  /-- An `AutoNetwork` that is not closed. -/
  | network
  /-- A runtime directory whose removal has not been triggered. -/
  | dir
  deriving DecidableEq

/-- The states of a VM. -/
inductive MachineState where
  | created
  | running
  | paused
  | stopped
  deriving DecidableEq

/-- `Start` refuses a VM that runs or has stopped. -/
def MachineState.start : MachineState → Option MachineState
  | .created | .paused => some .running
  | .running | .stopped => none

/-- `Stop` does nothing to a VM that was never started. -/
def MachineState.stop : MachineState → MachineState
  | .running | .paused => .stopped
  | .created => .created
  | .stopped => .stopped

/-- What a run holds, next to the artifacts that it prepares. -/
structure RunState where
  artifacts : Artifacts
  held : List Held
  /-- The VM of the run, in the same process or in the worker. -/
  vm : Option MachineState

/-- **Nothing is left behind**: all is given back, and a VM that there was has been stopped. -/
def RunState.Clean (s : RunState) : Prop :=
  s.held = [] ∧ ∀ v, s.vm = some v → v = .stopped

/-- Every error that a run can return. -/
inductive Failure where
  | devices
  | resolveWorkDir
  | createWorkDir
  | invalidNetworkMode (mode : String)
  | autoNetwork
  | slirpWithTap
  | restoreWithDrives
  | restoreMount (backend target : String)
  | activateOnRestore
  | startRestored
  | autoNetworkRetry
  | artifacts (e : RunError)
  | runtimeDir
  | copyDisk
  | createVM
  | launchWorker
  | activate
  | start
  deriving DecidableEq

/-- The steps that the host may fail, apart from those that prepare the artifacts. Whether a VM
starts is up to its state. -/
inductive Point where
  | devices
  | resolveWorkDir
  | createWorkDir
  | autoNetwork
  | restore
  | activateOnRestore
  | autoNetworkRetry
  | runtimeDir
  | copyDisk
  | createVM
  | launchWorker
  | activate
  deriving DecidableEq

/-- What the run finds outside: the inputs of the artifacts, what fails, and the warm cache. -/
structure RunHost where
  out : Outside
  faults : Faults
  fails : Point → Bool
  warmCacheEnabled : Bool
  cached : RunOptions → Option String
  hasSnapshot : String → Bool

abbrev RunM := EStateM Failure RunState

/-! ## Steps -/

def acquire (h : Held) : RunM PUnit := modify fun s ↦ { s with held := h :: s.held }

def release (h : Held) : RunM PUnit := modify fun s ↦ { s with held := s.held.erase h }

def onlyIf (b : Bool) (c : RunM PUnit) : RunM PUnit := if b then c else pure ⟨⟩

def failIf (b : Bool) (e : Failure) : RunM PUnit := onlyIf b (throw e)

def setVM (v : MachineState) : RunM PUnit := modify fun s ↦ { s with vm := some v }

def stopVM : RunM PUnit := modify fun s ↦ { s with vm := s.vm.map MachineState.stop }

/-- The VM of a worker is stopped, or the worker is killed. -/
def stopWorker : RunM PUnit := setVM .stopped

/-- `vm.Start()`, and what is done if it is refused. -/
def startVM (refused : RunM PUnit) (e : Failure) : RunM PUnit := do
  let s ← get
  match s.vm.bind MachineState.start with
  | some v => setVM v
  | none => do
    refused
    throw e

/-- `if autoNet != nil { autoNet.Close() }`. -/
def closeNetwork (autoNet : Bool) : RunM PUnit := onlyIf autoNet (release .network)

/-- An error for which the network is closed first. -/
def failClosing (autoNet b : Bool) (e : Failure) : RunM PUnit :=
  onlyIf b do
    closeNetwork autoNet
    throw e

def networkModeAuto : String := "auto"

def networkModeSlirp : String := "slirp"

variable (host : RunHost) (opts : RunOptions)

/-- Everything before the network. -/
def preflight : RunM PUnit := do
  failIf (host.fails .devices) .devices
  failIf (host.fails .resolveWorkDir) .resolveWorkDir
  failIf (host.fails .createWorkDir) .createWorkDir
  failIf (opts.networkMode ≠ "" ∧ opts.networkMode ≠ networkModeAuto ∧
    opts.networkMode ≠ networkModeSlirp) (.invalidNetworkMode opts.networkMode)

def newAuto (host : RunHost) (p : Point) (e : Failure) : RunM PUnit := do
  failIf (host.fails p) e
  acquire .network

variable (autoNet : Bool)

/-- The network of the run, if it is to have one, and the check of the other kind. -/
def allocateNetwork : RunM PUnit := do
  onlyIf autoNet (newAuto host .autoNetwork .autoNetwork)
  failIf (opts.networkMode = networkModeSlirp ∧ opts.tapName ≠ "") .slirpWithTap

/-- A hit in the warm cache is used like a snapshot of the caller. -/
def lookupSnapshot : String :=
  if opts.snapshotDir = "" ∧ (host.warmCacheEnabled ∨ opts.warmCapture) ∧
      warmCacheInputsReady opts then
    (host.cached opts).getD ""
  else opts.snapshotDir

/-- A restored guest can only keep shared directories. -/
def validateRestoreMounts : List Mount → RunM PUnit
  | [] => pure ⟨⟩
  | m :: mounts =>
    if m.backend ≠ mountBackendVirtioFS then throw (.restoreMount m.backend m.target)
    else validateRestoreMounts mounts

/-- What a snapshot cannot be restored with. -/
def checkRestore (opts : RunOptions) : RunM PUnit := do
  failIf (opts.drives ≠ []) .restoreWithDrives
  validateRestoreMounts opts.mounts

/-- If the network cannot be activated, the VM is told to stop and the network closed. -/
def activateNetwork (stop : RunM PUnit) (fails : Bool) (e : Failure) : RunM PUnit :=
  onlyIf (autoNet && fails) do
    stop
    release .network
    throw e

/-- From the resolution of the repository to the initial ramdisk. -/
def buildArtifacts : RunM PUnit := fun s ↦
  match prepareArtifacts host.out host.faults opts s.artifacts with
  | .ok _ artifacts => .ok ⟨⟩ { s with artifacts := artifacts }
  | .error e artifacts => .error (.artifacts e) { s with artifacts := artifacts }

/-- The directory is there before the disk is copied into it. -/
def prepareBootDisk (host : RunHost) : RunM PUnit := do
  failIf (host.fails .runtimeDir) .runtimeDir
  acquire .dir
  failIf (host.fails .copyDisk) .copyDisk

/-- What `Close` gives back. -/
abbrev RunResult := List Held

variable (restore : RunM (Option RunResult))

/-- A snapshot is restored if there is one. -/
def tryRestore :
    RunM (Option RunResult) :=
  if lookupSnapshot host opts = "" then pure none
  else do
    checkRestore opts
    if host.hasSnapshot (lookupSnapshot host opts) then restore else pure none

/-- Otherwise, or if that was not possible, the VM is booted. -/
def runWith (boot : RunM RunResult) : RunM RunResult := do
  preflight host opts
  allocateNetwork host opts autoNet
  let restored ← tryRestore host opts restore
  match restored with
  | some result => pure result
  | none => boot

/-! ## In the same process -/

def networks : List Held := if autoNet then [.network] else []

/-- A snapshot is restored. If that fails there is no result, and a new network. -/
def restoreLocal (host : RunHost) (autoNet : Bool) : RunM (Option RunResult) :=
  if host.fails .restore then do
    closeNetwork autoNet
    onlyIf autoNet (newAuto host .autoNetworkRetry .autoNetworkRetry)
    pure none
  else do
    setVM .created
    activateNetwork autoNet stopVM (host.fails .activateOnRestore) .activateOnRestore
    startVM (pure ⟨⟩) .startRestored
    pure (some (networks autoNet))

def bootLocal : RunM RunResult := do
  buildArtifacts host opts
  prepareBootDisk host
  failClosing autoNet (host.fails .createVM) .createVM
  setVM .created
  activateNetwork autoNet stopVM (host.fails .activate) .activate
  startVM (closeNetwork autoNet) .start
  pure (.dir :: networks autoNet)

/-- The mode alone decides. -/
def hasAutoNet (opts : RunOptions) : Bool := opts.networkMode = networkModeAuto

def runLocal : RunM RunResult :=
  runWith host opts (hasAutoNet opts) (restoreLocal host (hasAutoNet opts))
    (bootLocal host opts (hasAutoNet opts))

/-! ## In a worker -/

/-- The worker has resumed the VM when its handle is there. -/
def restoreViaWorker (host : RunHost) (autoNet : Bool) : RunM (Option RunResult) :=
  if host.fails .restore then pure none
  else do
    setVM .running
    activateNetwork autoNet stopWorker (host.fails .activateOnRestore) .activateOnRestore
    pure (some (networks autoNet))

/-- The worker has started the VM when its handle is there. -/
def bootViaWorker : RunM RunResult := do
  buildArtifacts host opts
  prepareBootDisk host
  failClosing autoNet (host.fails .launchWorker) .launchWorker
  setVM .running
  activateNetwork autoNet stopWorker (host.fails .activate) .activate
  pure (.dir :: networks autoNet)

/-- A run that restores a snapshot of the caller has no network of its own. -/
def hasAutoNetViaWorker (opts : RunOptions) : Bool :=
  opts.networkMode = networkModeAuto ∧ opts.snapshotDir = ""

def runViaWorker : RunM RunResult :=
  runWith host opts (hasAutoNetViaWorker opts) (restoreViaWorker host (hasAutoNetViaWorker opts))
    (bootViaWorker host opts (hasAutoNetViaWorker opts))

/-- Which of the two it is depends on the jailer mode. -/
inductive Runner where
  | direct
  | worker
  deriving DecidableEq

def Runner.run : Runner → RunM RunResult
  | .direct => runLocal host opts
  | .worker => runViaWorker host opts

def Runner.hasNetwork (opts : RunOptions) : Runner → Bool
  | .direct => hasAutoNet opts
  | .worker => hasAutoNetViaWorker opts

/-! ## What is left behind -/

/-- The VM of a run whose network could not be activated. -/
def Runner.abandoned : Runner → MachineState
  | .direct => .created
  | .worker => .stopped

/-- What is held when the error is returned, and the state of the VM; nothing for an error that no
run ends with. -/
def leaves (runner : Runner) (autoNet : Bool) : Failure → Option (List Held × Option MachineState)
  | .devices | .resolveWorkDir | .createWorkDir | .invalidNetworkMode _ | .autoNetwork
  | .slirpWithTap => some ([], none)
  | .restoreWithDrives | .restoreMount _ _ => some (networks autoNet, none)
  | .activateOnRestore => some ([], some runner.abandoned)
  | .autoNetworkRetry => some ([], none)
  | .artifacts _ | .runtimeDir => some (networks autoNet, none)
  | .copyDisk => some (.dir :: networks autoNet, none)
  | .createVM | .launchWorker => some ([.dir], none)
  | .activate => some ([.dir], some runner.abandoned)
  -- a VM that was just created can be started
  | .startRestored | .start => none

section Contracts

variable {host : RunHost} {opts : RunOptions} {autoNet : Bool} {l : List Held} {e : Failure}
  {v v' : Option MachineState} {E : Failure → RunState → Prop} {runner : Runner}

/-- A state that holds exactly this. -/
def Holds (l : List Held) (v : Option MachineState) (s : RunState) : Prop := s.held = l ∧ s.vm = v

theorem acquire_contract (h : Held) :
    Contract (Holds l v) (acquire h) (fun _ ↦ Holds (h :: l) v) E :=
  .modify fun _ hs ↦ ⟨congrArg (List.cons h) hs.1, hs.2⟩

theorem release_contract (h : Held) :
    Contract (Holds l v) (release h) (fun _ ↦ Holds (l.erase h) v) E := by
  refine .modify fun s hs ↦ ⟨?_, hs.2⟩
  rw [← hs.1]

theorem setVM_contract (v' : MachineState) :
    Contract (Holds l v) (setVM v') (fun _ ↦ Holds l (some v')) E :=
  .modify fun _ hs ↦ ⟨hs.1, rfl⟩

theorem stopVM_contract :
    Contract (Holds l v) stopVM (fun _ ↦ Holds l (v.map MachineState.stop)) E :=
  .modify fun _ hs ↦ ⟨hs.1, congrArg (Option.map MachineState.stop) hs.2⟩

/-- A VM that was created and not started yet is not refused. -/
theorem startVM_contract {refused : RunM PUnit} :
    Contract (Holds l (some .created)) (startVM refused e) (fun _ ↦ Holds l (some .running)) E := by
  rintro ⟨artifacts, held, vm⟩ ⟨hheld, hvm⟩
  obtain rfl : vm = some .created := hvm
  exact ⟨hheld, rfl⟩

variable {b : Bool}

theorem onlyIf_contract {c : RunM PUnit} {P Q : RunState → Prop}
    (hdone : b = true → Contract P c (fun _ ↦ Q) E) (hskipped : b = false → ∀ s, P s → Q s) :
    Contract P (onlyIf b c) (fun _ ↦ Q) E := by
  cases b with
  | true => exact hdone rfl
  | false => exact .pure (hskipped rfl)

theorem failIf_contract (hleft : b = true → ∀ s, Holds l v s → E e s) :
    Contract (Holds l v) (failIf b e) (fun _ ↦ Holds l v) E :=
  onlyIf_contract (fun hb ↦ .throw (hleft hb)) fun _ _ hs ↦ hs

/-- What an error leaves behind is what is held. -/
def Left (runner : Runner) (autoNet : Bool) (e : Failure) (s : RunState) : Prop :=
  leaves runner autoNet e = some (s.held, s.vm)

theorem left_of_holds (h : leaves runner autoNet e = some (l, v)) :
    ∀ s, Holds l v s → Left runner autoNet e s := by
  intro s hs
  rw [Left, h, hs.1, hs.2]

theorem preflight_contract :
    Contract (Holds [] none) (preflight host opts) (fun _ ↦ Holds [] none) (Left runner autoNet) :=
  .bind (failIf_contract fun _ ↦ left_of_holds rfl) fun _ ↦
    .bind (failIf_contract fun _ ↦ left_of_holds rfl) fun _ ↦
      .bind (failIf_contract fun _ ↦ left_of_holds rfl) fun _ ↦
        failIf_contract fun _ ↦ left_of_holds rfl

theorem newAuto_contract {p : Point} (hleft : ∀ s, Holds [] v s → E e s) :
    Contract (Holds [] v) (onlyIf autoNet (newAuto host p e)) (fun _ ↦ Holds (networks autoNet) v)
      E := by
  refine onlyIf_contract (fun hauto ↦ ?_) fun hnone s hs ↦ ?_
  · rw [networks, if_pos hauto]
    exact .bind (failIf_contract fun _ ↦ hleft) fun _ ↦ acquire_contract .network
  · rw [networks, if_neg (by simp [hnone])]
    exact hs

theorem allocateNetwork_contract (hauto : autoNet = true → opts.networkMode = networkModeAuto) :
    Contract (Holds [] none) (allocateNetwork host opts autoNet)
      (fun _ ↦ Holds (networks autoNet) none) (Left runner autoNet) := by
  refine .bind (newAuto_contract (left_of_holds rfl)) fun _ ↦ failIf_contract fun hslirp ↦ ?_
  -- The modes exclude each other.
  have hnone : autoNet = false := by
    refine eq_false_of_ne_true fun hnet ↦ ?_
    rw [hauto hnet] at hslirp
    simp [networkModeAuto, networkModeSlirp] at hslirp
  rw [hnone]
  exact left_of_holds rfl

theorem closeNetwork_contract (hl : .network ∉ l) :
    Contract (Holds (l ++ networks autoNet) v) (closeNetwork autoNet) (fun _ ↦ Holds l v) E := by
  refine onlyIf_contract (fun hauto ↦ ?_) fun hnone s hs ↦ ?_
  · have hrelease := release_contract (l := l ++ [.network]) (v := v) (E := E) .network
    rw [erase_append_right _ hl, erase_cons_head, append_nil] at hrelease
    rwa [networks, if_pos hauto]
  · rw [networks, if_neg (by simp [hnone]), append_nil] at hs
    exact hs

theorem failClosing_contract (hl : .network ∉ l) (hleft : ∀ s, Holds l v s → E e s) :
    Contract (Holds (l ++ networks autoNet) v) (failClosing autoNet b e)
      (fun _ ↦ Holds (l ++ networks autoNet) v) E :=
  onlyIf_contract (fun _ ↦ .bind (closeNetwork_contract hl) fun _ ↦ .throw hleft) fun _ _ hs ↦ hs

theorem validateRestoreMounts_contract (mounts : List Mount) :
    Contract (Holds (networks autoNet) none) (validateRestoreMounts mounts)
      (fun _ ↦ Holds (networks autoNet) none) (Left runner autoNet) := by
  induction mounts with
  | nil => exact .pure fun _ hs ↦ hs
  | cons m mounts ih =>
    rw [validateRestoreMounts]
    split_ifs
    · exact .throw (left_of_holds rfl)
    · exact ih

theorem checkRestore_contract :
    Contract (Holds (networks autoNet) none) (checkRestore opts)
      (fun _ ↦ Holds (networks autoNet) none) (Left runner autoNet) :=
  .bind (failIf_contract fun _ ↦ left_of_holds rfl) fun _ ↦
    validateRestoreMounts_contract opts.mounts

/-- The network is closed, whatever became of the VM. -/
theorem activateNetwork_contract {stop : RunM PUnit} {fails : Bool} (hl : .network ∉ l)
    (hstop : ∀ l, Contract (Holds l v) stop (fun _ ↦ Holds l v') E)
    (hleft : ∀ s, Holds l v' s → E e s) :
    Contract (Holds (l ++ networks autoNet) v) (activateNetwork autoNet stop fails e)
      (fun _ ↦ Holds (l ++ networks autoNet) v) E := by
  refine onlyIf_contract (fun hfails ↦ ?_) fun _ _ hs ↦ hs
  obtain ⟨rfl, -⟩ := Bool.and_eq_true_iff.mp hfails
  have hclose : Contract (Holds (l ++ networks true) v') (closeNetwork true)
      (fun _ ↦ Holds l v') E :=
    closeNetwork_contract hl
  exact .bind (hstop _) fun _ ↦ .bind hclose fun _ ↦ .throw hleft

theorem buildArtifacts_contract :
    Contract (Holds (networks autoNet) none) (buildArtifacts host opts)
      (fun _ ↦ Holds (networks autoNet) none) (Left runner autoNet) := by
  intro s hs
  rw [buildArtifacts]
  cases prepareArtifacts host.out host.faults opts s.artifacts with
  | ok => exact hs
  | error => exact left_of_holds rfl _ hs

theorem prepareBootDisk_contract :
    Contract (Holds (networks autoNet) none) (prepareBootDisk host)
      (fun _ ↦ Holds (.dir :: networks autoNet) none) (Left runner autoNet) :=
  .bind (failIf_contract fun _ ↦ left_of_holds rfl) fun _ ↦ .bind (acquire_contract .dir) fun _ ↦
    failIf_contract fun _ ↦ left_of_holds rfl

/-! ### Runs -/

/-- A run that returns has a VM that runs, and gives back all that it holds. -/
def Returned (result : RunResult) : RunState → Prop := Holds result (some .running)

/-- An attempt to restore has returned, or the run goes on with its network. -/
def Attempted (autoNet : Bool) : Option RunResult → RunState → Prop
  | some result => Returned result
  | none => Holds (networks autoNet) none

theorem restoreLocal_contract :
    Contract (Holds (networks autoNet) none) (restoreLocal host autoNet) (Attempted autoNet)
      (Left .direct autoNet) := by
  rw [restoreLocal]
  split_ifs
  · refine .bind (closeNetwork_contract (l := []) not_mem_nil) fun _ ↦ ?_
    exact .bind (newAuto_contract (left_of_holds rfl)) fun _ ↦ .pure fun _ hs ↦ hs
  · refine .bind (setVM_contract .created) fun _ ↦ ?_
    refine .bind (activateNetwork_contract (l := []) not_mem_nil (fun _ ↦ stopVM_contract)
      (left_of_holds rfl)) fun _ ↦ ?_
    exact .bind startVM_contract fun _ ↦ .pure fun _ hs ↦ hs

theorem bootLocal_contract :
    Contract (Holds (networks autoNet) none) (bootLocal host opts autoNet) Returned
      (Left .direct autoNet) := by
  refine .bind buildArtifacts_contract fun _ ↦ .bind prepareBootDisk_contract fun _ ↦ ?_
  refine .bind (failClosing_contract (l := [.dir]) (by simp) (left_of_holds rfl)) fun _ ↦ ?_
  refine .bind (setVM_contract .created) fun _ ↦ ?_
  refine .bind (activateNetwork_contract (l := [.dir]) (by simp) (fun _ ↦ stopVM_contract)
    (left_of_holds rfl)) fun _ ↦ ?_
  exact .bind startVM_contract fun _ ↦ .pure fun _ hs ↦ hs

theorem restoreViaWorker_contract :
    Contract (Holds (networks autoNet) none) (restoreViaWorker host autoNet) (Attempted autoNet)
      (Left .worker autoNet) := by
  rw [restoreViaWorker]
  split_ifs
  · exact .pure fun _ hs ↦ hs
  · refine .bind (setVM_contract .running) fun _ ↦ ?_
    refine .bind (activateNetwork_contract (l := []) not_mem_nil (fun _ ↦ setVM_contract .stopped)
      (left_of_holds rfl)) fun _ ↦ ?_
    exact .pure fun _ hs ↦ hs

theorem bootViaWorker_contract :
    Contract (Holds (networks autoNet) none) (bootViaWorker host opts autoNet) Returned
      (Left .worker autoNet) := by
  refine .bind buildArtifacts_contract fun _ ↦ .bind prepareBootDisk_contract fun _ ↦ ?_
  refine .bind (failClosing_contract (l := [.dir]) (by simp) (left_of_holds rfl)) fun _ ↦ ?_
  refine .bind (setVM_contract .running) fun _ ↦ ?_
  refine .bind (activateNetwork_contract (l := [.dir]) (by simp)
    (fun _ ↦ setVM_contract .stopped) (left_of_holds rfl)) fun _ ↦ ?_
  exact .pure fun _ hs ↦ hs

theorem runWith_contract {restore : RunM (Option RunResult)} {boot : RunM RunResult}
    (hauto : autoNet = true → opts.networkMode = networkModeAuto)
    (hrestore : Contract (Holds (networks autoNet) none) restore (Attempted autoNet)
      (Left runner autoNet))
    (hboot : Contract (Holds (networks autoNet) none) boot Returned (Left runner autoNet)) :
    Contract (Holds [] none) (runWith host opts autoNet restore boot) Returned
      (Left runner autoNet) := by
  have htry : Contract (Holds (networks autoNet) none) (tryRestore host opts restore)
      (Attempted autoNet) (Left runner autoNet) := by
    rw [tryRestore]
    split_ifs
    · exact .pure fun _ hs ↦ hs
    · exact .bind checkRestore_contract fun _ ↦ hrestore
    · exact .bind checkRestore_contract fun _ ↦ .pure fun _ hs ↦ hs
  refine .bind preflight_contract fun _ ↦ .bind (allocateNetwork_contract hauto) fun _ ↦ ?_
  refine .bind htry fun restored ↦ ?_
  cases restored with
  | some result => exact .pure fun _ hs ↦ hs
  | none => exact hboot

end Contracts

/-! ## The errors that are handled -/

/-- The errors that leave nothing behind: those before the network, those of its allocation, and in
a worker that of its activation on restore; and with no network of its own, those up to the runtime
directory. -/
def Failure.Handled (runner : Runner) (autoNet : Bool) : Failure → Prop
  | .devices | .resolveWorkDir | .createWorkDir | .invalidNetworkMode _ | .autoNetwork
  | .slirpWithTap => True
  | .restoreWithDrives | .restoreMount _ _ => autoNet = false
  | .activateOnRestore => runner = .worker
  | .autoNetworkRetry => True
  | .artifacts _ | .runtimeDir => autoNet = false
  | .copyDisk | .createVM | .launchWorker | .activate | .startRestored | .start => False

theorem networks_eq_nil {autoNet : Bool} : networks autoNet = [] ↔ autoNet = false := by
  cases autoNet <;> simp [networks]

theorem Runner.abandoned_eq_stopped {runner : Runner} :
    runner.abandoned = .stopped ↔ runner = .worker := by
  cases runner <;> simp [abandoned]

/-- **A run that fails leaves nothing behind**, for exactly these errors. -/
theorem clean_iff_handled {host : RunHost} {opts : RunOptions} {runner : Runner}
    {artifacts : Artifacts} {e : Failure} {s : RunState}
    (hrun : runner.run host opts ⟨artifacts, [], none⟩ = .error e s) :
    s.Clean ↔ e.Handled runner (runner.hasNetwork opts) := by
  -- What a run holds in the end: its VM and what its result gives back, or what the error leaves.
  have hcontract : Contract (Holds [] none) (runner.run host opts) Returned
      (Left runner (runner.hasNetwork opts)) := by
    cases runner with
    | direct => exact runWith_contract of_decide_eq_true restoreLocal_contract bootLocal_contract
    | worker =>
      exact runWith_contract (fun h ↦ (of_decide_eq_true h).1) restoreViaWorker_contract
        bootViaWorker_contract
  have hleft : leaves runner (runner.hasNetwork opts) e = some (s.held, s.vm) :=
    hcontract.of_error (show Holds [] none ⟨artifacts, [], none⟩ from ⟨rfl, rfl⟩) hrun
  rw [RunState.Clean]
  cases e with
  | start | startRestored => nomatch hleft
  | _ =>
    obtain ⟨hheld, hvm⟩ := Prod.mk.inj (Option.some.inj hleft)
    rw [← hheld, ← hvm]
    simp [Failure.Handled, networks_eq_nil, Runner.abandoned_eq_stopped]

def failingHost (p : Point) : RunHost where
  out := repoHost
  faults := fun _ ↦ .done
  fails := fun q ↦ q = p
  warmCacheEnabled := true
  cached := fun _ ↦ some "/c"
  hasSnapshot := fun _ ↦ true

/-- A run with a network of its own, that restores a snapshot if one is given. -/
def autoRun (snapshotDir : String) : RunOptions :=
  { repoRun "a" 256 with networkMode := networkModeAuto, snapshotDir := snapshotDir }

/-- A worker restores a snapshot of the warm cache. If the network cannot be activated then, worker
and network are given back. -/
theorem clean_activateViaWorker : ∃ s,
    Runner.worker.run (failingHost .activateOnRestore)
        { autoRun "" with image := "i", kernelPath := "/k" } ⟨{ }, [], none⟩ =
      .error .activateOnRestore s ∧ s.Clean := by
  obtain ⟨s, hs⟩ : ∃ s, Runner.worker.run (failingHost .activateOnRestore)
      { autoRun "" with image := "i", kernelPath := "/k" } ⟨{ }, [], none⟩ =
    .error .activateOnRestore s := ⟨_, rfl⟩
  exact ⟨s, hs, (clean_iff_handled hs).mpr rfl⟩

/-- In the same process the restored VM is left as it was created, and a worker that cannot be
launched leaves the directory of its disk. -/
theorem not_clean_activateOnRestore :
    (∃ s, Runner.direct.run (failingHost .activateOnRestore) (autoRun "/s") ⟨{ }, [], none⟩ =
      .error .activateOnRestore s ∧ s.vm = some .created ∧ ¬ s.Clean) ∧
    ∃ s, Runner.worker.run (failingHost .launchWorker) (autoRun "") ⟨{ }, [], none⟩ =
      .error .launchWorker s ∧ s.held = [.dir] ∧ ¬ s.Clean :=
  ⟨⟨_, rfl, rfl, fun h ↦ nomatch h.2 .created rfl⟩, ⟨_, rfl, rfl, fun h ↦ nomatch h.1⟩⟩

end Gocracker.Container
