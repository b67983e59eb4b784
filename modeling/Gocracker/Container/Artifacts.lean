import Gocracker.Container.ArtifactKey
import Gocracker.Machine.Stateful
import Gocracker.Repo.Resolve

/-!
# Reusing the artifacts of an earlier run

A run looks into the directory that its key names. A disk image is reused if the configuration of
its image can be read beside it, and an initial ramdisk if the guest's specification beside it is
the one that the run would write. Whatever is missing is built in place, by steps each of which may
fail, or break off and leave a file that is there but not whole.

The disk is safe against that: its configuration is written after it and removed before it. The
ramdisk is not. The specification beside it is written before the ramdisk is, so one that broke off
is reused by the next run.

`Genuine` compares the files with what the options make without a cache. It is kept by every run
that has the same key, names the same Dockerfile of a repository, has a console or not in the same
way, and whose ramdisk does not break off.
-/

namespace Gocracker.Container

open Machine Posix List Json

/-! ## What is built -/

/-- What a root file system is made from. -/
inductive RootfsSource where
  | image (ref arch : String)
  | dockerfile (path context : String) (buildArgs : StringMap)
  deriving DecidableEq

/-- What a disk image is made of: the runtime specification is in it only if it says something. -/
structure Disk where
  source : RootfsSource
  mounts : List Mount
  spec : Option GuestSpec
  sizeMB : ℤ
  deriving DecidableEq

/-- A ramdisk: the guest's specification and its kernel modules. -/
structure Initrd where
  kernelModules : List KernelModule
  spec : Option GuestSpec
  deriving DecidableEq

/-- The inputs that are not options: repositories, the configurations of what is built, the host's
kernel module, and the init program of this executable. -/
structure Outside where
  files : Repo.Files
  config : RootfsSource → ImageConfig
  virtioFSModulePath : String
  initDigest : String

/-- Where the preparation ends with an error. -/
inductive RunError where
  | repo (e : Repo.ResolveError)
  | inspectArtifactCache
  | resetArtifacts
  | noSource
  | rootfs
  | ext4
  | writeImageConfig
  | writeSpecCache
  | inspectInitrd
  | initrd
  deriving DecidableEq

def pathString (p : Path) : String := String.ofList ('/' :: ['/'].intercalate p)

variable (out : Outside) (opts : RunOptions)

/-- A repository is fetched, and its Dockerfile takes the place of its URL. -/
def resolveRepo : Except RunError RunOptions :=
  let src : Repo.Source := ⟨opts.repoURL, opts.repoRef, opts.repoSubdir, opts.repoDockerfile⟩
  match Repo.resolve out.files src with
  | .error e => .error (.repo e)
  | .ok result =>
    match result.dockerfilePath with
    | none => .error (.repo (.noDockerfile result.contextDir))
    | some path =>
      .ok { opts with dockerfile := pathString path, context := pathString result.contextDir }

/-- Where a repository is named, its Dockerfile is looked for. -/
def resolveSource : Except RunError RunOptions :=
  if opts.repoURL = "" then .ok opts else resolveRepo out opts

variable (opts : RunOptions)

/-- What `buildRootfs` builds from. -/
def rootfsSource : Except RunError RootfsSource :=
  if opts.image ≠ "" then .ok (.image opts.image opts.arch)
  else if opts.dockerfile ≠ "" then .ok (.dockerfile opts.dockerfile opts.context opts.buildArgs)
  else .error .noSource

/-- An empty specification is not written at all. -/
def GuestSpec.written (spec : GuestSpec) : Option GuestSpec :=
  if spec.hasStructuredFields then some spec else none

/-- The specification that goes into the disk and the ramdisk. -/
def specFor (imgConfig : ImageConfig) : GuestSpec :=
  buildGuestSpec imgConfig opts (resolveSharedFSMounts opts.mounts)

def diskFor (source : RootfsSource) (imgConfig : ImageConfig) : Disk where
  source := source
  mounts := opts.mounts
  spec := (specFor opts imgConfig).written
  sizeMB := opts.diskSizeMB

def initrdFor (imgConfig : ImageConfig) : Initrd where
  kernelModules := appendVirtioFSKernelModule out.virtioFSModulePath opts.kernelModules
    (resolveSharedFSMounts opts.mounts)
  spec := (specFor opts imgConfig).written

/-! ### The text of a specification -/

def Process.json (p : Process) : Json :=
  .record [("exec", some (.str p.exec)), ("args", omitEmpty [] (.list .str) p.args)]

def SharedFSMount.json (m : SharedFSMount) : Json :=
  .record [("tag", some (.str m.tag)),
    ("target", some (.str m.target)),
    ("read_only", omitEmpty false .bool m.readOnly)]

def ExecConfig.json (c : ExecConfig) : Json :=
  .record [("enabled", omitEmpty false .bool c.enabled),
    ("vsock_port", omitEmpty 0 .nat c.vsockPort)]

def GuestSpec.json (s : GuestSpec) : Json :=
  .record [("process", some s.process.json),
    ("env", omitEmpty [] (.list .str) s.env),
    ("hosts", omitEmpty [] (.list .str) s.hosts),
    ("shared_fs", omitEmpty [] (.list SharedFSMount.json) s.sharedFS),
    ("workdir", omitEmpty "" .str s.workDir),
    ("user", omitEmpty "" .str s.user),
    ("pid1_mode", omitEmpty "" .str s.pid1Mode),
    ("exec", some s.exec.json)]

/-- The text that is compared to decide whether a ramdisk may be reused. -/
def GuestSpec.marshal (s : GuestSpec) : Text := s.json.render

/-! ## The directory -/

/-- A file that was being written when something went wrong is there, but not whole. -/
inductive File (α : Type) where
  | missing
  | broken
  | whole (a : α)
  deriving DecidableEq

/-- A file that broke off is there, but cannot be read. -/
def File.read {α : Type} : File α → Option α
  | whole a => some a
  | missing | broken => none

structure SpecCache where
  initDigest : String
  spec : GuestSpec
  deriving DecidableEq

/-- The files in the directory of a key. -/
structure Artifacts where
  disk : File Disk := .missing
  config : File ImageConfig := .missing
  initrd : File Initrd := .missing
  spec : File SpecCache := .missing
  deriving DecidableEq

/-! ## The steps of a run -/

/-- What becomes of a step: it may fail without a trace, or midway. -/
inductive Outcome where
  | done
  | refused
  | cutShort
  deriving DecidableEq

/-- The steps that may fail. -/
inductive Step where
  | inspectDisk
  | removeDisk
  | removeInitrd
  | removeConfig
  | rootfs
  | disk
  | config
  | spec
  | inspectInitrd
  | removeStaleInitrd
  | initrd
  | specAfter
  deriving DecidableEq

abbrev Faults := Step → Outcome

abbrev Phase := EStateM RunError Artifacts

/-- A step that makes a change as a whole or not at all. -/
def atomically (outcome : Outcome) (e : RunError) (change : Artifacts → Artifacts) : Phase PUnit :=
  match outcome with
  | .done => modify change
  | .refused | .cutShort => throw e

/-- A file that is not renamed into place may be left unfinished. -/
def write {α : Type} (outcome : Outcome) (e : RunError) (put : File α → Artifacts → Artifacts)
    (a : α) : Phase PUnit :=
  match outcome with
  | .done => modify (put (.whole a))
  | .refused => throw e
  | .cutShort => do
    modify (put .broken)
    throw e

def putDisk (f : File Disk) (s : Artifacts) : Artifacts := { s with disk := f }

def putConfig (f : File ImageConfig) (s : Artifacts) : Artifacts := { s with config := f }

def putInitrd (f : File Initrd) (s : Artifacts) : Artifacts := { s with initrd := f }

def putSpec (f : File SpecCache) (s : Artifacts) : Artifacts := { s with spec := f }

/-- A disk is usable if it is there and the configuration can be read. -/
def inspectCachedRunArtifacts (s : Artifacts) : Option ImageConfig :=
  if s.disk = .missing then none else s.config.read

/-- The specification is left where it is. -/
def removeCachedRunArtifacts (faults : Faults) : Phase PUnit := do
  atomically (faults .removeDisk) .resetArtifacts (putDisk .missing)
  atomically (faults .removeInitrd) .resetArtifacts (putInitrd .missing)
  atomically (faults .removeConfig) .resetArtifacts (putConfig .missing)

def writeGuestSpecCache (out : Outside) (outcome : Outcome) (spec : GuestSpec) : Phase PUnit :=
  write outcome .writeSpecCache putSpec ⟨out.initDigest, spec⟩

variable (out : Outside) (faults : Faults) (opts : RunOptions)

/-- Root file system, disk, configuration and specification, in this order. -/
def rebuildDisk : Phase ImageConfig :=
  match rootfsSource opts with
  | .error e => throw e
  | .ok source => do
    atomically (faults .rootfs) .rootfs id
    let imgConfig := out.config source
    write (faults .disk) .ext4 putDisk (diskFor opts source imgConfig)
    write (faults .config) .writeImageConfig putConfig imgConfig
    writeGuestSpecCache out (faults .spec) (specFor opts imgConfig)
    pure imgConfig

/-- The configuration of the image, and whether the disk has been built anew. -/
def prepareDisk :
    Phase (ImageConfig × Bool) :=
  if hasMaterializedMounts opts.mounts then do
    let imgConfig ← rebuildDisk out faults opts
    pure (imgConfig, true)
  else do
    atomically (faults .inspectDisk) .inspectArtifactCache id
    let s ← get
    match inspectCachedRunArtifacts s with
    | some imgConfig => pure (imgConfig, false)
    | none => do
      removeCachedRunArtifacts faults
      let imgConfig ← rebuildDisk out faults opts
      pure (imgConfig, true)

/-- The texts of the two specifications are compared, and only if the init program is the same. -/
def cachedGuestSpecMatches (out : Outside) (s : Artifacts) (spec : GuestSpec) : Bool :=
  s.spec.read.any fun cached ↦
    cached.initDigest ≠ "" && cached.initDigest = out.initDigest &&
      cached.spec.marshal = spec.marshal

/-- A ramdisk with another specification is removed. -/
def shouldReuseCachedInitrd (out : Outside) (faults : Faults) (spec : GuestSpec) : Phase Bool := do
  atomically (faults .inspectInitrd) .inspectInitrd id
  let s ← get
  if s.initrd = .missing then pure false
  else if cachedGuestSpecMatches out s spec then pure true
  else do
    atomically (faults .removeStaleInitrd) .inspectInitrd (putInitrd .missing)
    pure false

/-- A ramdisk is reused unless the disk is new or the specification has changed. -/
def prepareInitrd (imgConfig : ImageConfig)
    (rebuilt : Bool) : Phase PUnit := do
  let reuse ← shouldReuseCachedInitrd out faults (specFor opts imgConfig)
  if reuse && !rebuilt then pure ⟨⟩
  else do
    write (faults .initrd) .initrd putInitrd (initrdFor out opts imgConfig)
    writeGuestSpecCache out (faults .specAfter) (specFor opts imgConfig)

/-- The part of a run that holds the lock of the directory. -/
def prepareArtifacts : Phase PUnit :=
  match resolveSource out opts with
  | .error e => throw e
  | .ok resolved => do
    let prepared ← prepareDisk out faults resolved
    prepareInitrd out faults resolved prepared.1 prepared.2

variable (out : Outside)

/-- The directory after some runs, each of which may have failed. -/
def afterRuns (runs : List (Faults × RunOptions)) (s : Artifacts) : Artifacts :=
  runs.foldl (fun s run ↦ endState (prepareArtifacts out run.1 run.2 s)) s

variable (opts : RunOptions)

/-- The run boots from what it would have built in an empty directory, had nothing failed. -/
def Transparent (s : Artifacts) : Prop :=
  ∃ fresh d i, prepareArtifacts out (fun _ ↦ .done) opts { } = .ok ⟨⟩ fresh ∧
    fresh.disk = .whole d ∧ fresh.initrd = .whole i ∧ s.disk = .whole d ∧ s.initrd = .whole i

/-! ## The options that matter -/

/-- The condition on two runs with the same key. -/
structure RunOptions.Agrees (o₁ o₂ : RunOptions) : Prop where
  dockerfile : o₁.repoURL = "" ∨ o₁.repoDockerfile = o₂.repoDockerfile
  console : o₁.pid1Mode ≠ "" ∨ o₁.interactiveExec = true ∨ o₁.consoleIn = o₂.consoleIn

/-- The options of the key, with the two others that matter where they do. -/
def RunOptions.relevant : RunOptions :=
  { opts.keyed with
    repoDockerfile := if opts.repoURL = "" then "" else opts.repoDockerfile
    consoleIn := opts.pid1Mode = "" ∧ opts.interactiveExec = false ∧ opts.consoleIn }

theorem RunOptions.Agrees.relevant_eq {o₁ o₂ : RunOptions} (h : o₁.Agrees o₂)
    (hkeyed : o₁.keyed = o₂.keyed) : o₁.relevant = o₂.relevant := by
  have hurl : o₁.keyed.repoURL = o₂.keyed.repoURL := by rw [hkeyed]
  have hpid1 : o₁.keyed.pid1Mode = o₂.keyed.pid1Mode := by rw [hkeyed]
  have hexec : o₁.keyed.interactiveExec = o₂.keyed.interactiveExec := by rw [hkeyed]
  simp only [RunOptions.keyed] at hurl hpid1 hexec
  have hdockerfile : (if o₁.repoURL = "" then "" else o₁.repoDockerfile) =
      if o₂.repoURL = "" then "" else o₂.repoDockerfile := by
    rw [← hurl]
    rcases h.dockerfile with hnone | hsame
    · rw [if_pos hnone, if_pos hnone]
    · rw [hsame]
  have hconsole : (o₁.pid1Mode = "" ∧ o₁.interactiveExec = false ∧ o₁.consoleIn = true) ↔
      (o₂.pid1Mode = "" ∧ o₂.interactiveExec = false ∧ o₂.consoleIn = true) := by
    rw [← hpid1, ← hexec]
    rcases h.console with hmode | hinteractive | hsame
    · simp [hmode]
    · simp [hinteractive]
    · rw [hsame]
  simp only [RunOptions.relevant, hkeyed, hdockerfile, hconsole]

theorem specFor_relevant : specFor opts.relevant = specFor opts := by
  have hmode : (opts.pid1Mode = "" ∧
        (opts.relevant.consoleIn = true ∨ opts.interactiveExec = true)) ↔
      (opts.pid1Mode = "" ∧ (opts.consoleIn = true ∨ opts.interactiveExec = true)) := by
    cases hexec : opts.interactiveExec <;> simp [RunOptions.relevant, hexec]
  funext imgConfig
  simp only [specFor, buildGuestSpec]
  congr 1
  exact if_congr hmode rfl rfl

theorem resolveSource_relevant :
    resolveSource out opts.relevant = (resolveSource out opts).map RunOptions.relevant := by
  unfold resolveSource
  by_cases hurl : opts.repoURL = ""
  · rw [if_pos hurl, if_pos (show opts.relevant.repoURL = "" from hurl)]
    rfl
  rw [if_neg hurl, if_neg (show opts.relevant.repoURL ≠ "" from hurl)]
  have hdockerfile : opts.relevant.repoDockerfile = opts.repoDockerfile := if_neg hurl
  have hsrc : (⟨opts.relevant.repoURL, opts.relevant.repoRef, opts.relevant.repoSubdir,
      opts.relevant.repoDockerfile⟩ : Repo.Source) =
      ⟨opts.repoURL, opts.repoRef, opts.repoSubdir, opts.repoDockerfile⟩ := by
    rw [hdockerfile]
    rfl
  simp only [resolveRepo, hsrc]
  rcases Repo.resolve out.files _ with e | ⟨contextDir, _ | path⟩
  · rfl
  · rfl
  · rfl

/-- **Only the relevant options matter** for what is prepared. -/
theorem prepareArtifacts_relevant (faults : Faults) (opts : RunOptions) :
    prepareArtifacts out faults opts.relevant = prepareArtifacts out faults opts := by
  have hinitrd : ∀ r : RunOptions, initrdFor out r.relevant = initrdFor out r := by
    intro r
    funext imgConfig
    simp only [initrdFor, specFor_relevant]
    rfl
  have hrebuild : ∀ r : RunOptions,
      rebuildDisk out faults r.relevant = rebuildDisk out faults r := by
    intro r
    simp only [rebuildDisk, diskFor, specFor_relevant]
    rfl
  have hdisk : ∀ r : RunOptions, prepareDisk out faults r.relevant = prepareDisk out faults r := by
    intro r
    simp only [prepareDisk, hrebuild]
    rfl
  rw [prepareArtifacts, prepareArtifacts, resolveSource_relevant]
  cases resolveSource out opts with
  | error e => rfl
  | ok r => simp only [Except.map, hdisk, prepareInitrd, hinitrd, specFor_relevant]

theorem prepareArtifacts_eq_of_relevant {out : Outside} {faults : Faults} {o₁ o₂ : RunOptions}
    (h : o₁.relevant = o₂.relevant) :
    prepareArtifacts out faults o₁ = prepareArtifacts out faults o₂ := by
  rw [← prepareArtifacts_relevant, h, prepareArtifacts_relevant]

/-! ## What a run keeps -/

section Genuine

variable {out : Outside} {faults : Faults} {r : RunOptions} {outcome : Outcome} {e : RunError}
  {P Q E : Artifacts → Prop}

theorem atomically_triple {change : Artifacts → Artifacts} (hdone : ∀ s, P s → Q (change s))
    (hfail : ∀ s, P s → E s) : Triple P (atomically outcome e change) (fun _ ↦ Q) E := by
  cases outcome with
  | done => exact hdone
  | refused | cutShort => exact hfail

theorem check_triple (hfail : ∀ s, P s → E s) : Triple P (atomically outcome e id) (fun _ ↦ P) E :=
  atomically_triple (fun _ hs ↦ hs) hfail

theorem write_triple {α : Type} {put : File α → Artifacts → Artifacts} {a : α}
    (hdone : ∀ s, P s → Q (put (.whole a) s)) (hrefused : ∀ s, P s → E s)
    (hcut : outcome = .cutShort → ∀ s, P s → E (put .broken s)) :
    Triple P (write outcome e put a) (fun _ ↦ Q) E := by
  cases outcome with
  | done => exact hdone
  | refused => exact hrefused
  | cutShort => exact hcut rfl

/-- The disk is the one that the options describe, with the configuration `imgConfig`. -/
structure Built (out : Outside) (r : RunOptions) (imgConfig : ImageConfig) (s : Artifacts) :
    Prop where
  exists_source : ∃ source, rootfsSource r = .ok source ∧ imgConfig = out.config source ∧
    s.disk = .whole (diskFor r source imgConfig)

/-- What may be reused is what the options describe: a disk with a configuration beside it, unless
it is built anew in any case, and the ramdisk. -/
structure Genuine (out : Outside) (r : RunOptions) (s : Artifacts) : Prop where
  disk : hasMaterializedMounts r.mounts = false → s.disk ≠ .missing →
    ∀ imgConfig, s.config = .whole imgConfig → Built out r imgConfig s
  initrd : ∀ source, rootfsSource r = .ok source →
    s.initrd = .missing ∨ s.initrd = .whole (initrdFor out r (out.config source))

theorem genuine_empty : Genuine out r { } where
  disk _ hdisk := absurd rfl hdisk
  initrd _ _ := .inl rfl

variable {s : Artifacts} {imgConfig : ImageConfig}

theorem Genuine.putSpec (h : Genuine out r s) (f : File SpecCache) :
    Genuine out r (putSpec f s) where
  disk hmounts hdisk imgConfig hconfig := ⟨(h.disk hmounts hdisk imgConfig hconfig).exists_source⟩
  initrd := h.initrd

theorem Genuine.putInitrd (h : Genuine out r s) {f : File Initrd}
    (hf : ∀ source, rootfsSource r = .ok source →
      f = .missing ∨ f = .whole (initrdFor out r (out.config source))) :
    Genuine out r (putInitrd f s) where
  disk hmounts hdisk imgConfig hconfig := ⟨(h.disk hmounts hdisk imgConfig hconfig).exists_source⟩
  initrd := hf

/-- While there is no configuration, the disk may be anything. -/
theorem Genuine.putDisk (h : Genuine out r s)
    (hconfig : hasMaterializedMounts r.mounts = false → s.config = .missing) (f : File Disk) :
    Genuine out r (putDisk f s) where
  disk hmounts _ _ hwhole := nomatch (hconfig hmounts).symm.trans hwhole
  initrd := h.initrd

theorem Genuine.putConfig (h : Genuine out r s) {f : File ImageConfig}
    (hf : ∀ imgConfig, f = .whole imgConfig → Built out r imgConfig s) :
    Genuine out r (putConfig f s) where
  disk _ _ imgConfig hconfig := ⟨(hf imgConfig hconfig).exists_source⟩
  initrd := h.initrd

theorem rebuildDisk_triple : Triple (fun s ↦ Genuine out r s ∧
        (hasMaterializedMounts r.mounts = false → s.config = .missing))
      (rebuildDisk out faults r) (fun imgConfig s ↦ Genuine out r s ∧ Built out r imgConfig s)
      (Genuine out r) := by
  unfold rebuildDisk
  cases hsource : rootfsSource r with
  | error e => exact .throw fun s hs ↦ hs.1
  | ok source =>
    refine .bind (check_triple fun s hs ↦ hs.1) fun _ ↦ ?_
    have hdisk : Triple (fun s ↦ Genuine out r s ∧
          (hasMaterializedMounts r.mounts = false → s.config = .missing))
        (write (faults .disk) .ext4 Container.putDisk (diskFor r source (out.config source)))
        (fun _ s ↦ Genuine out r s ∧ Built out r (out.config source) s) (Genuine out r) :=
      write_triple (fun s hs ↦ ⟨hs.1.putDisk hs.2 _, ⟨source, hsource, rfl, rfl⟩⟩)
        (fun s hs ↦ hs.1) fun _ s hs ↦ hs.1.putDisk hs.2 _
    refine .bind hdisk fun _ ↦ ?_
    -- From here on the disk is whole, so a configuration beside it is in order.
    have hconfig : Triple (fun s ↦ Genuine out r s ∧ Built out r (out.config source) s)
        (write (faults .config) .writeImageConfig Container.putConfig (out.config source))
        (fun _ s ↦ Genuine out r s ∧ Built out r (out.config source) s) (Genuine out r) := by
      refine write_triple (fun s hs ↦ ⟨hs.1.putConfig ?_, ⟨hs.2.exists_source⟩⟩)
        (fun s hs ↦ hs.1) fun _ s hs ↦ hs.1.putConfig nofun
      rintro imgConfig hwhole
      rw [← File.whole.inj hwhole]
      exact hs.2
    refine .bind hconfig fun _ ↦ ?_
    have hspec : Triple (fun s ↦ Genuine out r s ∧ Built out r (out.config source) s)
        (writeGuestSpecCache out (faults .spec) (specFor r (out.config source)))
        (fun _ s ↦ Genuine out r s ∧ Built out r (out.config source) s) (Genuine out r) :=
      write_triple (fun s hs ↦ ⟨hs.1.putSpec _, ⟨hs.2.exists_source⟩⟩) (fun s hs ↦ hs.1)
        fun _ s hs ↦ hs.1.putSpec _
    exact .bind hspec fun _ ↦ .pure fun _ hs ↦ hs

theorem removeCachedRunArtifacts_triple : Triple (Genuine out r) (removeCachedRunArtifacts faults)
      (fun _ s ↦ Genuine out r s ∧ s.config = .missing) (Genuine out r) := by
  have hdisk : Keeps (Genuine out r)
      (atomically (faults .removeDisk) .resetArtifacts (Container.putDisk .missing)) :=
    atomically_triple (fun s hs ↦ ⟨fun _ hdisk ↦ absurd rfl hdisk, hs.initrd⟩) fun s hs ↦ hs
  have hinitrd : Keeps (Genuine out r)
      (atomically (faults .removeInitrd) .resetArtifacts (Container.putInitrd .missing)) :=
    atomically_triple (fun s hs ↦ hs.putInitrd fun _ _ ↦ .inl rfl) fun s hs ↦ hs
  have hconfig : Triple (Genuine out r)
      (atomically (faults .removeConfig) .resetArtifacts (Container.putConfig .missing))
      (fun _ s ↦ Genuine out r s ∧ s.config = .missing) (Genuine out r) :=
    atomically_triple (fun s hs ↦ ⟨hs.putConfig nofun, rfl⟩) fun s hs ↦ hs
  exact .bind hdisk fun _ ↦ .bind hinitrd fun _ ↦ hconfig

theorem of_inspectCachedRunArtifacts (h : inspectCachedRunArtifacts s = some imgConfig) :
    s.disk ≠ .missing ∧ s.config = .whole imgConfig := by
  unfold inspectCachedRunArtifacts at h
  split_ifs at h with hdisk
  refine ⟨hdisk, ?_⟩
  cases hconfig : s.config with
  | whole c =>
    rw [hconfig] at h
    exact congrArg File.whole (Option.some.inj h)
  | missing | broken => rw [hconfig] at h; nomatch h

/-- **The disk that is used is the one that the options describe.** -/
theorem prepareDisk_triple : Triple (Genuine out r) (prepareDisk out faults r)
      (fun prepared s ↦ Genuine out r s ∧ Built out r prepared.1 s) (Genuine out r) := by
  unfold prepareDisk
  split_ifs with hmounts
  · refine .bind (rebuildDisk_triple.weaken (fun s hs ↦ ⟨hs, fun hnone ↦ ?_⟩)
      (fun _ _ hs ↦ hs) fun _ hs ↦ hs) fun imgConfig ↦ .pure fun _ hs ↦ hs
    nomatch hmounts.symm.trans hnone
  have hnone := eq_false_of_ne_true hmounts
  refine .bind (check_triple fun s hs ↦ hs) fun _ ↦ ?_
  refine .get_bind fun s hs ↦ ?_
  cases hinspect : inspectCachedRunArtifacts s with
  | some imgConfig =>
    refine .pure ?_
    rintro _ rfl
    obtain ⟨hdisk, hconfig⟩ := of_inspectCachedRunArtifacts hinspect
    exact ⟨hs, hs.disk hnone hdisk imgConfig hconfig⟩
  | none =>
    have hremove : Triple (· = s) (removeCachedRunArtifacts faults) (fun _ s' ↦ Genuine out r s' ∧
          (hasMaterializedMounts r.mounts = false → s'.config = .missing)) (Genuine out r) :=
      removeCachedRunArtifacts_triple.weaken (fun _ heq ↦ heq ▸ hs)
        (fun _ _ hs' ↦ ⟨hs'.1, fun _ ↦ hs'.2⟩) fun _ hs' ↦ hs'
    exact .bind hremove fun _ ↦ .bind rebuildDisk_triple fun _ ↦ .pure fun _ hs ↦ hs

theorem shouldReuseCachedInitrd_triple {spec : GuestSpec} :
    Triple (fun s ↦ Genuine out r s ∧ Built out r imgConfig s)
      (shouldReuseCachedInitrd out faults spec)
      (fun reuse s ↦ (Genuine out r s ∧ Built out r imgConfig s) ∧
        (reuse = true → s.initrd ≠ .missing)) (Genuine out r) := by
  unfold shouldReuseCachedInitrd
  refine .bind (check_triple fun s hs ↦ hs.1) fun _ ↦ ?_
  refine .get_bind fun s hs ↦ ?_
  split_ifs with hmissing hmatch
  · refine .pure ?_
    rintro _ rfl
    exact ⟨hs, nofun⟩
  · refine .pure ?_
    rintro _ rfl
    exact ⟨hs, fun _ ↦ hmissing⟩
  have hremove : Triple (· = s)
      (atomically (faults .removeStaleInitrd) .inspectInitrd (Container.putInitrd .missing))
      (fun _ s' ↦ Genuine out r s' ∧ Built out r imgConfig s') (Genuine out r) := by
    refine atomically_triple ?_ ?_
    · rintro _ rfl
      exact ⟨hs.1.putInitrd fun _ _ ↦ .inl rfl, ⟨hs.2.exists_source⟩⟩
    · rintro _ rfl
      exact hs.1
  exact .bind hremove fun _ ↦ .pure fun _ hs' ↦ ⟨hs', nofun⟩

/-- **The ramdisk that is used is the one that the options describe.** One that breaks off is not
used by this run, but it is left behind. -/
theorem prepareInitrd_triple {rebuilt : Bool} :
    Triple (fun s ↦ Genuine out r s ∧ Built out r imgConfig s)
      (prepareInitrd out faults r imgConfig rebuilt)
      (fun _ s ↦ Genuine out r s ∧ Built out r imgConfig s ∧
        s.initrd = .whole (initrdFor out r imgConfig))
      fun s ↦ faults .initrd ≠ .cutShort → Genuine out r s := by
  unfold prepareInitrd
  refine .bind (shouldReuseCachedInitrd_triple.weaken_error fun _ hs _ ↦ hs) fun reuse ↦ ?_
  split_ifs with hreuse
  · refine .pure fun s hs ↦ ⟨hs.1.1, hs.1.2, ?_⟩
    obtain ⟨source, hsource, himg, -⟩ := hs.1.2.exists_source
    rw [Bool.and_eq_true] at hreuse
    rw [himg]
    exact (hs.1.1.initrd source hsource).resolve_left (hs.2 hreuse.1)
  · have hwrite : Triple (fun s ↦ (Genuine out r s ∧ Built out r imgConfig s) ∧
          (reuse = true → s.initrd ≠ .missing))
        (write (faults .initrd) .initrd Container.putInitrd (initrdFor out r imgConfig))
        (fun _ s ↦ Genuine out r s ∧ Built out r imgConfig s ∧
          s.initrd = .whole (initrdFor out r imgConfig))
        fun s ↦ faults .initrd ≠ .cutShort → Genuine out r s := by
      refine write_triple (fun s hs ↦ ⟨hs.1.1.putInitrd fun source hsource ↦ .inr ?_,
        ⟨hs.1.2.exists_source⟩, rfl⟩) (fun s hs _ ↦ hs.1.1) fun hcut _ _ hne ↦ absurd hcut hne
      obtain ⟨source', hsource', himg, -⟩ := hs.1.2.exists_source
      rw [himg, Except.ok.inj (hsource'.symm.trans hsource)]
    refine .bind hwrite fun _ ↦ ?_
    exact write_triple (fun s hs ↦ ⟨hs.1.putSpec _, ⟨hs.2.1.exists_source⟩, hs.2.2⟩)
      (fun s hs _ ↦ hs.1) fun _ s hs _ ↦ hs.1.putSpec _

end Genuine

/-! ## The result -/

variable {out : Outside} {faults : Faults} {opts r : RunOptions}

section

variable (hresolve : resolveSource out opts = .ok r)
include hresolve

/-- One run keeps what may be reused in order, and boots from what its options describe. -/
theorem prepareArtifacts_triple : Triple (Genuine out r) (prepareArtifacts out faults opts)
      (fun _ s ↦ Genuine out r s ∧ ∃ imgConfig, Built out r imgConfig s ∧
        s.initrd = .whole (initrdFor out r imgConfig))
      fun s ↦ faults .initrd ≠ .cutShort → Genuine out r s := by
  simp only [prepareArtifacts, hresolve]
  refine .bind (prepareDisk_triple.weaken_error fun _ hs _ ↦ hs) fun prepared ↦ ?_
  exact prepareInitrd_triple.weaken_post (fun _ _ hs ↦ ⟨hs.1, prepared.1, hs.2.1, hs.2.2⟩) fun _ hs
    ↦ hs

variable {s : Artifacts}

theorem genuine_endState (hcut : faults .initrd ≠ .cutShort) (hs : Genuine out r s) :
    Genuine out r (endState (prepareArtifacts out faults opts s)) := by
  have hkeep : Keeps (Genuine out r) (prepareArtifacts out faults opts) :=
    (prepareArtifacts_triple hresolve).weaken_post (fun _ _ h ↦ h.1) fun _ h ↦ h hcut
  exact hkeep.endState hs

theorem genuine_afterRuns
    {runs : List (Faults × RunOptions)} (hopts : ∀ run ∈ runs, run.2.relevant = opts.relevant)
    (hcut : ∀ run ∈ runs, run.1 .initrd ≠ .cutShort) (hs : Genuine out r s) :
    Genuine out r (afterRuns out runs s) := by
  induction runs generalizing s with
  | nil => exact hs
  | cons run runs ih =>
    refine ih (fun run' h ↦ hopts run' (mem_cons_of_mem run h))
      (fun run' h ↦ hcut run' (mem_cons_of_mem run h)) ?_
    change Genuine out r (endState (prepareArtifacts out run.1 run.2 s))
    rw [prepareArtifacts_eq_of_relevant (hopts run mem_cons_self)]
    exact genuine_endState hresolve (hcut run mem_cons_self) hs

theorem prepareArtifacts_empty {source : RootfsSource} (hsource : rootfsSource r = .ok source) :
    ∃ fresh, prepareArtifacts out (fun _ ↦ .done) opts { } = .ok ⟨⟩ fresh ∧
      fresh.disk = .whole (diskFor r source (out.config source)) ∧
      fresh.initrd = .whole (initrdFor out r (out.config source)) := by
  simp only [prepareArtifacts, hresolve, prepareDisk, rebuildDisk, hsource]
  split_ifs
  · exact ⟨_, rfl, rfl, rfl⟩
  · exact ⟨_, rfl, rfl, rfl⟩

end

theorem exists_resolveSource_of_ok {s' : Artifacts}
    (h : prepareArtifacts out faults opts s = .ok ⟨⟩ s') : ∃ r, resolveSource out opts = .ok r := by
  cases hresolve : resolveSource out opts with
  | ok r => exact ⟨r, rfl⟩
  | error e =>
    simp only [prepareArtifacts, hresolve] at h
    nomatch h

/-- **The cache is transparent** for runs with the same key that name the same Dockerfile and agree
on the console, if no earlier ramdisk has broken off. -/
theorem transparent_of_agrees {sha256 : Digest} {runs : List (Faults × RunOptions)} {s : Artifacts}
    (hkey : ∀ run ∈ runs, runArtifactCacheKey sha256 run.2 = runArtifactCacheKey sha256 opts)
    (hagrees : ∀ run ∈ runs, run.2.Agrees opts) (hcut : ∀ run ∈ runs, run.1 .initrd ≠ .cutShort)
    (h : prepareArtifacts out faults opts (afterRuns out runs { }) = .ok ⟨⟩ s) :
    Transparent out opts s := by
  obtain ⟨r, hresolve⟩ := exists_resolveSource_of_ok h
  have hgenuine : Genuine out r (afterRuns out runs { }) :=
    genuine_afterRuns hresolve (fun run hrun ↦
      (hagrees run hrun).relevant_eq (runArtifactCacheKey_inj (hkey run hrun))) hcut genuine_empty
  have hend := @prepareArtifacts_triple out faults opts r hresolve _ hgenuine
  rw [h] at hend
  obtain ⟨-, imgConfig, ⟨source, hsource, rfl, hdisk⟩, hinitrd⟩ := hend
  obtain ⟨fresh, hfresh, hfreshDisk, hfreshInitrd⟩ := prepareArtifacts_empty hresolve hsource
  exact ⟨fresh, _, _, hfresh, hfreshDisk, hfreshInitrd, hdisk, hinitrd⟩

/-- A host with a repository at `/r`, in which every name is that of a file. -/
def repoHost : Outside where
  files :=
    { stat := fun _ ↦ some false
      abs := fun _ ↦ [['r']]
      clone := fun _ _ ↦ none
      findDockerfile := fun _ ↦ none }
  config _ := { cmd := ["sh"] }
  virtioFSModulePath := ""
  initDigest := "d"

def repoRun (dockerfile : String) (memMB : ℕ) : RunOptions where
  repoURL := "/r"
  repoDockerfile := dockerfile
  memMB := memMB
  diskSizeMB := 2048

/-- A disk that broke off, and a run that built everything. -/
def earlierRuns : List (Faults × RunOptions) :=
  [(fun step ↦ if step = .disk then .cutShort else .done, repoRun "a" 256),
    (fun _ ↦ .done, repoRun "a" 512)]

theorem transparent_repoRun : ∃ s,
    prepareArtifacts repoHost (fun _ ↦ .done) (repoRun "a" 1024)
      (afterRuns repoHost earlierRuns { }) = .ok ⟨⟩ s ∧
    Transparent repoHost (repoRun "a" 1024) s := by
  have hkey : ∀ run ∈ earlierRuns, runArtifactCacheKey .verbatim run.2 =
      runArtifactCacheKey .verbatim (repoRun "a" 1024) := by
    rw [earlierRuns, forall_mem_cons, forall_mem_singleton]
    exact ⟨rfl, rfl⟩
  have hagrees : ∀ run ∈ earlierRuns, run.2.Agrees (repoRun "a" 1024) := by
    rw [earlierRuns, forall_mem_cons, forall_mem_singleton]
    exact ⟨⟨.inr rfl, .inr (.inr rfl)⟩, ⟨.inr rfl, .inr (.inr rfl)⟩⟩
  obtain ⟨s, hs⟩ : ∃ s, prepareArtifacts repoHost (fun _ ↦ .done) (repoRun "a" 1024)
      (afterRuns repoHost earlierRuns { }) = .ok ⟨⟩ s := ⟨_, rfl⟩
  exact ⟨s, hs, transparent_of_agrees hkey hagrees (by decide) hs⟩

/-- The Dockerfile that is named has no part in the key: the second run boots the first one's
disk. -/
theorem not_transparent_repoDockerfile :
    (∀ sha256 : Digest, runArtifactCacheKey sha256 (repoRun "a" 256) =
      runArtifactCacheKey sha256 (repoRun "b" 256)) ∧
    ∃ s, prepareArtifacts repoHost (fun _ ↦ .done) (repoRun "b" 256)
        (afterRuns repoHost [(fun _ ↦ .done, repoRun "a" 256)] { }) = .ok ⟨⟩ s ∧
      ¬Transparent repoHost (repoRun "b" 256) s := by
  refine ⟨fun _ ↦ rfl, _, rfl, ?_⟩
  rintro ⟨fresh, d, i, hfresh, hd, -, hs, -⟩
  have hend : (endState (prepareArtifacts repoHost (fun _ ↦ .done) (repoRun "b" 256) { })).disk =
      .whole d := by
    rw [hfresh]
    exact hd
  exact absurd (hend.trans hs.symm) (by decide +kernel)

end Gocracker.Container
