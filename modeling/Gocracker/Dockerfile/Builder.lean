import Gocracker.Dockerfile.Archive
import Gocracker.Dockerfile.Environment

/-!
# Building a stage

The builder carries out the instructions of a stage one after the other in its root filesystem.
WORKDIR makes a directory, COPY and ADD copy their sources one by one, and RUN prepares the root
filesystem, runs a command in it and puts back what it has replaced. An archive of the context is
unpacked into a scratch directory first and copied from there.

Two things are recorded on the way. What the builder acts on should lie in the root filesystem, or
in a scratch directory that it has made. What it reads for an instruction should lie in what the
instruction reads from: the context, the root filesystem of another stage, or the scratch directory.
Both are settled by the names of things only, and the image and the context have any links they
like.
-/

namespace Gocracker

open Machine Posix Transition List Area Guarded

/-! ## States -/

/-- What does not change during a build: the files, the limit on the depth of a directory, the
matching of names with patterns, which files are archives, and the build context. -/
structure BuildHost where
  storage : Storage
  depth : ℕ
  glob : Text → Text → Option Bool
  archive : ℕ → Bool
  context : Path

/-- A COPY or ADD whose sources are known. -/
structure TransferJob where
  spec : TransferSpec
  dstAbs : Path
  dirHint : Bool

def TransferJob.archiveOptions (job : TransferJob) : CopyOptions :=
  { job.spec.options with preserveOwnership := true }

/-- Between two instructions, or inside one of them. -/
inductive BuildStage where
  | idle
  | transferring (job : TransferJob) (pending : List TransferSource)
  /-- An archive is about to be unpacked. -/
  | extracting (job : TransferJob) (pending : List TransferSource) (src : LocalSource)
  | unpacking (job : TransferJob) (pending : List TransferSource) (scratch : Path)
  | placing (job : TransferJob) (pending : List TransferSource) (scratch : Path)
    (entries : List Text)
  | removing (job : TransferJob) (pending : List TransferSource) (scratch : Path) (failed : Bool)
  /-- The files of the host that are still to be injected, and what is to be put back. -/
  | running (files : List Path) (backups : List (Path × PathBackup))
  | failed

/-- The state of a build. A read is recorded with the directory that the instruction reads from. -/
structure Build where
  world : World
  reads : List (Path × Path)
  scratches : List Path
  workdir : Option ContainerPath
  stage : BuildStage

/-- A bind mount of RUN, from a stage with the given root filesystem or from the context. -/
structure BindMount where
  stage : Option Path
  source : Text

/-- What a build does next. -/
inductive BuildEvent where
  | workdir (dir : Text)
  | transfer (spec : TransferSpec)
  | nextSource
  | makeScratch (scratch : Path)
  | archiveEntry (e : ArchiveEvent)
  | archiveEnd
  | nextEntry
  | removeScratch
  | run (env : BuildEnv)
  | inject (host : HostFile)
  | bind (mount : BindMount)
  /-- The command leaves the given root filesystem behind. -/
  | command (entries : List (Text × Tree)) (nextIno : ℕ)
  | restore
  | runEnd (ok : Bool)

/-! ## Mounts -/

/-- A path that leads out of the context is refused. -/
def resolveContextMountSource (root : Path) (src : Text) : Option Path :=
  if src = [] then some root
  else
    let cleaned := cleanComponents (if isAbs src then src.tail else src)
    if cleaned.head? = some dotdot then none else some (join root cleaned)

variable (context : Path) (mount : BindMount)

/-- A mount without a stage shows the context. -/
def BindMount.root : Path := mount.stage.getD context

/-- The source of a mount from a stage is not looked at. -/
def resolveBindRunMountSource : Option Path :=
  match mount.stage with
  | some root => some (if mount.source = [] then root else resolveCopySource root mount.source)
  | none => resolveContextMountSource context mount.source

/-- The files that every command gets from the host. -/
def injectedFiles (rootfs : Path) : List Path :=
  [rootfsFile rootfs "/etc/resolv.conf", rootfsFile rootfs "/etc/hosts"]

/-! ## Steps -/

namespace Build

def init (w : World) (workdir : Option ContainerPath) : Build :=
  ⟨{ w with touched := [] }, [], [], workdir, .idle⟩

variable (s : Build)

def session : Session := ⟨s.world, []⟩

/-- Go on in another stage after a program has read from a directory. -/
def after (root : Path) (session : Session) (stage : BuildStage) : Build :=
  { s with
    world := session.world
    reads := session.reads.map (root, ·) ++ s.reads
    stage := stage }

/-- Go on in one of two stages, after a program has succeeded or failed. -/
def ran {ε : Type} (root : Path) (r : EStateM.Result ε Session PUnit) (next other : BuildStage) :
    Build :=
  s.after root (endState r) (if isError r then other else next)

variable (h : BuildHost) (rootfs : Path)

/-- A relative directory starts at the current one. -/
def workdirPath (dir : Text) : ContainerPath := resolveContainerPath s.workdir dir

/-- The working directory is set whether it can be made or not. -/
def handleWORKDIR (dir : Text) : Option Build :=
  match s.stage with
  | .idle =>
    some { s.ran rootfs (act (mkdirAll ((s.workdirPath dir).inRootfs rootfs).reverse) s.session)
      .idle .failed with workdir := some (s.workdirPath dir) }
  | _ => none

/-- The first half of `handleTransfer`. -/
def beginTransfer (spec : TransferSpec) : Option Build :=
  match s.stage with
  | .idle =>
    match collectTransferSources h.glob s.world spec with
    | .error _ => some { s with stage := .failed }
    | .ok sources =>
      let dstAbs := (resolveContainerPath s.workdir spec.dst).inRootfs rootfs
      some { s with stage := .transferring ⟨spec, dstAbs, dstIsDirHint spec sources⟩ sources }
  | _ => none

/-- Copy a source, or make the directory that it is to be unpacked into. -/
def transferLocalSource (job : TransferJob) (src : LocalSource) : TransferM Bool := do
  if ← TransferM.os (shouldExtract h.storage h.archive job.spec src) then
    TransferM.os (ensureDestinationDir job.dstAbs)
    return true
  else
    transferLocal h.storage h.depth job.spec job.dstAbs job.dirHint src
    return false

/-- One iteration of the loop of `handleTransfer`. -/
def nextSource : Option Build :=
  match s.stage with
  | .transferring _ [] => some { s with stage := .idle }
  | .transferring job (.remote src :: pending) =>
    some (s.ran job.spec.srcRoot
      (transferRemote h.depth job.spec job.dstAbs job.dirHint src s.session)
      (.transferring job pending) .failed)
  | .transferring job (.local src :: pending) =>
    match transferLocalSource h job src s.session with
    | .ok true s' => some (s.after job.spec.srcRoot s' (.extracting job pending src))
    | .ok false s' => some (s.after job.spec.srcRoot s' (.transferring job pending))
    | .error _ s' => some (s.after job.spec.srcRoot s' .failed)
  | _ => none

/-- `MkdirTemp`, and the archive is opened. -/
def makeScratch (scratch : Path) : Option Build :=
  match s.stage with
  | .extracting job pending src =>
    match act (sys (·.mkdir scratch)) s.session with
    | .error _ _ => some { s with stage := .failed }
    | .ok _ s' =>
      let r := openRead src.abs s'
      some { s.after job.spec.srcRoot (endState r)
        (if isError r then .removing job pending scratch true
          else .unpacking job pending scratch) with scratches := scratch :: s.scratches }
  | _ => none

def archiveEntry (e : ArchiveEvent) : Option Build :=
  match s.stage with
  | .unpacking job pending scratch =>
    (Unpacking.step scratch ⟨s.world, false⟩ e).map fun u ↦
      { s with
        world := u.world
        stage := if u.failed then .removing job pending scratch true
          else .unpacking job pending scratch }
  | _ => none

/-- The scratch directory is listed. -/
def archiveEnd : Option Build :=
  match s.stage with
  | .unpacking job pending scratch =>
    match readDir scratch s.session with
    | .ok entries s' =>
      some (s.after scratch s' (.placing job pending scratch (entries.map Dirent.name)))
    | .error _ s' => some (s.after scratch s' (.removing job pending scratch true))
  | _ => none

/-- One iteration of the loop of `copyDirContentsWithOptions`. -/
def nextEntry : Option Build :=
  match s.stage with
  | .placing job pending scratch [] => some { s with stage := .removing job pending scratch false }
  | .placing job pending scratch (c :: entries) =>
    some (s.ran scratch (copyPathWithOptions h.storage h.depth job.archiveOptions
      (join scratch [c]) (join job.dstAbs [c]) s.session)
      (.placing job pending scratch entries) (.removing job pending scratch true))
  | _ => none

/-- The scratch directory goes, whether or not all went well. -/
def removeScratch : Option Build :=
  match s.stage with
  | .removing job pending scratch failed =>
    some (s.after scratch (endState (act (sys (·.removeAll scratch)) s.session))
      (if failed then .failed else .transferring job pending))
  | _ => none

/-- A command finds its environment prepared. -/
def beginRun (env : BuildEnv) : Option Build :=
  match s.stage with
  | .idle =>
    some (s.ran rootfs (ensureBuildEnvironment rootfs env s.session)
      (.running (injectedFiles rootfs) []) .failed)
  | _ => none

/-- What was injected before is put back if the next file cannot be injected. -/
def inject (host : HostFile) : Option Build :=
  match s.stage with
  | .running (file :: files) backups =>
    match injectHostFile file host s.session with
    | .ok new s' => some (s.after rootfs s' (.running files (new ++ backups)))
    | .error _ s' => some (s.after rootfs (endState (restoreAll backups s')) .failed)
  | _ => none

/-- A mount that cannot be made ends the instruction. -/
def addMount (mount : BindMount) : Option Build :=
  match s.stage with
  | .running [] backups =>
    match resolveBindRunMountSource h.context mount with
    | none => some (s.after rootfs (endState (restoreAll backups s.session)) .failed)
    | some source =>
      match openRead source s.session with
      | .ok _ s' => some (s.after (mount.root h.context) s' (.running [] backups))
      | .error _ _ => some (s.after rootfs (endState (restoreAll backups s.session)) .failed)
  | _ => none

/-- What the command does is not done by the builder. -/
def command (entries : List (Text × Tree)) (nextIno : ℕ) : Option Build :=
  match s.stage with
  | .running [] _ =>
    some { s with world := { s.world.put rootfs (some (.dir entries)) with
      touched := s.world.touched
      nextIno := nextIno } }
  | _ => none

/-- If a rootless run fails, the command is run again, with nothing injected. -/
def restore : Option Build :=
  match s.stage with
  | .running _ backups =>
    some (s.after rootfs (endState (restoreAll backups s.session)) (.running [] []))
  | _ => none

/-- A command is over when the files of the image are back. -/
def runEnd (ok : Bool) : Option Build :=
  match s.stage with
  | .running [] [] => some { s with stage := if ok then .idle else .failed }
  | _ => none

def step : BuildEvent → Option Build
  | .workdir dir => s.handleWORKDIR rootfs dir
  | .transfer spec => s.beginTransfer h rootfs spec
  | .nextSource => s.nextSource h
  | .makeScratch scratch => s.makeScratch scratch
  | .archiveEntry e => s.archiveEntry e
  | .archiveEnd => s.archiveEnd
  | .nextEntry => s.nextEntry h
  | .removeScratch => s.removeScratch
  | .run env => s.beginRun rootfs env
  | .inject host => s.inject rootfs host
  | .bind mount => s.addMount h rootfs mount
  | .command entries nextIno => s.command rootfs entries nextIno
  | .restore => s.restore rootfs
  | .runEnd ok => s.runEnd ok

end Build

/-! ## The condition -/

namespace BuildStage

def source? : BuildStage → Option (TransferJob × TransferSource)
  | .transferring job (src :: _) => some (job, src)
  | _ => none

def archive? : BuildStage → Option (TransferJob × LocalSource)
  | .extracting job _ src => some (job, src)
  | _ => none

def scratch? : BuildStage → Option Path
  | .unpacking _ _ scratch | .placing _ _ scratch _ | .removing _ _ scratch _ => some scratch
  | _ => none

/-- The entry of the scratch directory whose turn it is. -/
def entry? : BuildStage → Option (TransferJob × Path × Text)
  | .placing job _ scratch (c :: _) => some (job, scratch, c)
  | _ => none

/-- The file of the host whose turn it is. -/
def file? : BuildStage → Option Path
  | .running (file :: _) _ => some file
  | _ => none

end BuildStage

/-- The source will be found to be an archive that is to be unpacked. -/
def extracts (h : BuildHost) (w : World) (job : TransferJob) (src : LocalSource) : Bool :=
  match shouldExtract h.storage h.archive job.spec src ⟨w, []⟩ with
  | .ok found _ => found
  | .error _ _ => false

/-- The source is where it should be, and no link is in the way of what is done with it. -/
def TransferSource.Direct (h : BuildHost) (rootfs : Path) (w : World) (job : TransferJob) :
    TransferSource → Prop
  | .remote src => src.Direct rootfs w job.spec job.dstAbs job.dirHint
  | .local src =>
    Separate job.spec.srcRoot rootfs w src.abs ∧
      (src.info.isLink = false → w.linkAt (placeOf w src.abs) = none) ∧
      (extracts h w job src = true → rootfs <+: job.dstAbs ∧ Unlinked w.linkAt [] job.dstAbs) ∧
      (extracts h w job src = false → src.Direct rootfs w job.spec job.dstAbs job.dirHint)

instance TransferSource.decidableDirect (h : BuildHost) (rootfs : Path) (w : World)
    (job : TransferJob) (src : TransferSource) : Decidable (src.Direct h rootfs w job) :=
  match src with
  | .remote src => inferInstanceAs (Decidable (src.Direct rootfs w job.spec job.dstAbs job.dirHint))
  | .local _ => inferInstanceAs (Decidable (_ ∧ _))

/-- What has to hold where an unpacked entry is going to be put. -/
def EntryDirect (rootfs : Path) (w : World) (job : TransferJob) (scratch : Path) (c : Text) :
    Prop :=
  Rooted scratch w ∧ Separate scratch rootfs w (join scratch [c]) ∧ rootfs <+: job.dstAbs ∧
    Unlinked w.linkAt [] job.dstAbs ∧
    PathClear job.archiveOptions w (join scratch [c]) (placeOf w (join scratch [c]))
      (join job.dstAbs [c])
deriving Decidable

/-- The directory of the files that are injected. -/
def etcDir (rootfs : Path) : Path := rootfs ++ ["etc".toList]

namespace Build

variable (h : BuildHost) (rootfs : Path) (s : Build)

/-- The condition on a step, apart from the root filesystem. -/
def Permits : BuildEvent → Prop
  | .workdir dir =>
    rootfs <+: (s.workdirPath dir).inRootfs rootfs ∧
      Unlinked s.world.linkAt [] ((s.workdirPath dir).inRootfs rootfs)
  | .transfer spec => Clean spec.srcRoot
  | .nextSource => ∀ x ∈ s.stage.source?, x.2.Direct h rootfs s.world x.1
  | .makeScratch scratch =>
    Clean scratch ∧ Unlinked s.world.linkAt [] scratch.dropLast ∧
      ∀ x ∈ s.stage.archive?, Separate x.1.spec.srcRoot scratch s.world x.2.abs ∧
        s.world.linkAt (placeOf s.world x.2.abs) = none
  | .archiveEntry e =>
    ∀ scratch ∈ s.stage.scratch?,
      Rooted scratch s.world ∧ Unpacking.Direct scratch ⟨s.world, false⟩ e
  | .archiveEnd => ∀ scratch ∈ s.stage.scratch?, Rooted scratch s.world
  | .nextEntry => ∀ x ∈ s.stage.entry?, EntryDirect rootfs s.world x.1 x.2.1 x.2.2
  | .removeScratch =>
    ∀ scratch ∈ s.stage.scratch?, Clean scratch ∧ Unlinked s.world.linkAt [] scratch.dropLast
  | .run env => env.Direct rootfs s.world
  | .inject host =>
    Unlinked s.world.linkAt [] (etcDir rootfs) ∧
      (host = .present → ∀ file ∈ s.stage.file?, Unlinked s.world.linkAt [] file)
  | .bind mount =>
    Unlinked s.world.linkAt [] (etcDir rootfs) ∧
      ∀ source ∈ resolveBindRunMountSource h.context mount,
        Clean source ∧ mount.root h.context <+: source ∧ Unlinked s.world.linkAt [] source
  | .command _ _ => True
  | .restore => Unlinked s.world.linkAt [] (etcDir rootfs)
  | .runEnd _ => True

/-- The condition on a step. The root filesystem is there. No link is in the way of what is made,
and what is read lies, behind any links, in what the instruction reads from. -/
def Direct (e : BuildEvent) : Prop := Rooted rootfs s.world ∧ s.Permits h rootfs e

instance decidablePermits (e : BuildEvent) : Decidable (s.Permits h rootfs e) :=
  match e with
  | .workdir _ => inferInstanceAs (Decidable (_ ∧ _))
  | .transfer spec => inferInstanceAs (Decidable (∀ c ∈ spec.srcRoot, _))
  | .nextSource => inferInstanceAs (Decidable (∀ x ∈ s.stage.source?, _))
  | .makeScratch _ => inferInstanceAs (Decidable (_ ∧ _))
  | .archiveEntry _ => inferInstanceAs (Decidable (∀ scratch ∈ s.stage.scratch?, _))
  | .archiveEnd => inferInstanceAs (Decidable (∀ scratch ∈ s.stage.scratch?, _))
  | .nextEntry => inferInstanceAs (Decidable (∀ x ∈ s.stage.entry?, _))
  | .removeScratch => inferInstanceAs (Decidable (∀ scratch ∈ s.stage.scratch?, _))
  | .run env => inferInstanceAs (Decidable (env.Direct rootfs s.world))
  | .inject host => inferInstanceAs (Decidable (_ ∧ (host = .present → ∀ file ∈ s.stage.file?, _)))
  | .bind mount => inferInstanceAs
      (Decidable (_ ∧ ∀ source ∈ resolveBindRunMountSource h.context mount, _ ∧ _ ∧ _))
  | .command _ _ => .isTrue trivial
  | .restore => inferInstanceAs (Decidable (Unlinked s.world.linkAt [] (etcDir rootfs)))
  | .runEnd _ => .isTrue trivial

instance decidableDirect (e : BuildEvent) : Decidable (s.Direct h rootfs e) :=
  inferInstanceAs (Decidable (_ ∧ _))

end Build

/-! ## What holds in every stage -/

/-- A file directly in `/etc`. -/
def InEtc (rootfs file : Path) : Prop := ∃ c, IsName c ∧ file = etcDir rootfs ++ [c]

/-- The destination has names only, and the sources that are still to come have the names that they
were found under. -/
structure TransferJob.Valid (job : TransferJob) (pending : List TransferSource) : Prop where
  clean : Clean job.dstAbs
  named : ∀ src, .local src ∈ pending → src.Named job.spec.srcRoot

variable {job : TransferJob}

theorem TransferJob.Valid.tail {src : TransferSource}
    {pending : List TransferSource} (h : job.Valid (src :: pending)) : job.Valid pending :=
  ⟨h.clean, fun src' hsrc ↦ h.named src' (mem_cons_of_mem src hsrc)⟩

/-- What is known of the paths in a stage. -/
def BuildStage.Valid (rootfs : Path) (scratches : List Path) : BuildStage → Prop
  | .idle => True
  | .transferring job pending => job.Valid pending
  | .extracting job pending src => job.Valid pending ∧ src.Named job.spec.srcRoot
  | .unpacking job pending scratch => job.Valid pending ∧ scratch ∈ scratches
  | .placing job pending scratch entries =>
    job.Valid pending ∧ scratch ∈ scratches ∧ ∀ c ∈ entries, IsName c
  | .removing job pending scratch _ => job.Valid pending ∧ scratch ∈ scratches
  | .running files backups => (∀ file ∈ files, InEtc rootfs file) ∧ ∀ b ∈ backups, InEtc rootfs b.1
  | .failed => True

namespace Build

/-- Everything acted on lies in the root filesystem or in a scratch directory, and everything read
in what the instruction reads from. -/
structure Sound (rootfs : Path) (w₀ : World) (s : Build) : Prop where
  within : Within (.trees (rootfs :: s.scratches)) w₀ s.world
  reads : ∀ x ∈ s.reads, x.1 <+: x.2
  stage : s.stage.Valid rootfs s.scratches

variable {h : BuildHost} {rootfs root : Path} {w₀ : World} {s s' : Build} {A : Area}
  {L : Set Path} {sess : Session} {stage next other : BuildStage}

variable {scratches : List Path}

variable {workdir : Option ContainerPath}

section

variable (hs : s.Sound rootfs w₀)
include hs

theorem Sound.extend (hg : Guarded A (.tree root) s.session L sess)
    (hA : A ⊆ .trees (rootfs :: scratches)) (hsub : s.scratches ⊆ scratches)
    (hstage : stage.Valid rootfs scratches) : Sound rootfs w₀
      ⟨sess.world, sess.reads.map (root, ·) ++ s.reads, scratches, workdir, stage⟩ where
  within := (hs.within.mono (trees_mono (cons_subset_cons rootfs hsub))).trans
    (hg.safe.within.mono hA)
  reads := by
    intro x hx
    rcases mem_append.mp hx with hnew | hold
    · obtain ⟨p, hp, rfl⟩ := mem_map.mp hnew
      rcases hg.reads p hp with hmem | hnone
      · exact mem_tree.mp hmem
      · exact absurd hnone not_mem_nil
    · exact hs.reads x hold
  stage := hstage

theorem Sound.after (hg : Guarded A (.tree root) s.session L sess)
    (hA : A ⊆ .trees (rootfs :: s.scratches)) (hstage : stage.Valid rootfs s.scratches) :
    (s.after root sess stage).Sound rootfs w₀ :=
  hs.extend hg hA (List.Subset.refl _) hstage

theorem Sound.ran {ε : Type} {r : EStateM.Result ε Session PUnit}
    (hg : Guarded A (.tree root) s.session L (endState r))
    (hA : A ⊆ .trees (rootfs :: s.scratches)) (hnext : next.Valid rootfs s.scratches)
    (hother : other.Valid rootfs s.scratches) : (s.ran root r next other).Sound rootfs w₀ := by
  refine hs.after hg hA ?_
  split
  · exact hother
  · exact hnext

theorem Sound.stay (hstage : stage.Valid rootfs s.scratches) :
    Sound rootfs w₀ { s with stage := stage } :=
  ⟨hs.within, hs.reads, hstage⟩

end

theorem rootfs_subset : tree rootfs ⊆ .trees (rootfs :: scratches) :=
  tree_subset_trees mem_cons_self

variable {scratch : Path}

theorem scratch_subset (hmem : scratch ∈ scratches) : tree scratch ⊆ .trees (rootfs :: scratches) :=
  tree_subset_trees (mem_cons_of_mem rootfs hmem)

/-! ## WORKDIR, COPY and ADD -/

theorem sound_handleWORKDIR {dir : Text} (hs : s.Sound rootfs w₀)
    (hok : s.Direct h rootfs (.workdir dir)) (hstep : s.handleWORKDIR rootfs dir = some s') :
    s'.Sound rootfs w₀ := by
  obtain ⟨hroot, hpre, hunlinked⟩ := hok
  have hdst : Destination (.tree rootfs) s.session.world ((s.workdirPath dir).inRootfs rootfs) :=
    hroot.destination (clean_inRootfs hroot.clean _) hpre
  have hg := (hdst.mkdirAll_keeps (way_subset_clear hunlinked)).endState
      (refl (.tree rootfs) (.tree rootfs) s.session)
  revert hstep
  fun_cases handleWORKDIR s rootfs dir with rintro ⟨⟩
  | case1 =>
    have hran : (s.ran rootfs (act (mkdirAll ((s.workdirPath dir).inRootfs rootfs).reverse)
        s.session) .idle .failed).Sound rootfs w₀ :=
      hs.ran hg rootfs_subset trivial trivial
    exact ⟨hran.within, hran.reads, hran.stage⟩

theorem sound_beginTransfer {spec : TransferSpec} (hs : s.Sound rootfs w₀)
    (hok : s.Direct h rootfs (.transfer spec)) (hstep : s.beginTransfer h rootfs spec = some s') :
    s'.Sound rootfs w₀ := by
  obtain ⟨hroot, hclean⟩ := hok
  revert hstep
  fun_cases beginTransfer s h rootfs spec with rintro ⟨⟩
  | case1 => exact hs.stay trivial
  | case2 _ sources hsources =>
    exact hs.stay ⟨clean_inRootfs hroot.clean _, fun src hsrc ↦
      named_of_collectTransferSources hclean hsources hsrc⟩

variable {s₁ : Session}

theorem transferLocalSource_triple {src : LocalSource} (hcp : CpConfined h.storage.cp)
    (hreads : s₁.reads = []) (hroot : Rooted rootfs s₁.world) (hclean : Clean job.dstAbs)
    (hnamed : src.Named job.spec.srcRoot)
    (hdirect : (TransferSource.local src).Direct h rootfs s₁.world job) :
    Leads (· = s₁) (transferLocalSource h job src)
      (Guarded (.tree rootfs) (.tree job.spec.srcRoot) s₁ ∅) := by
  obtain ⟨hseparate, hlink, hextract, hcopy⟩ := hdirect
  have hB := hseparate.mem hnamed.clean hnamed.inside
  have haside := hseparate.aside hnamed.clean
  rw [transferLocalSource]
  refine .bind (.adaptExcept ((shouldExtract_triple hB haside
    hlink).result.weaken_error fun _ h ↦ h.elim)) fun found ↦ ?_
  apply Triple.of_forall
  rintro s₂ ⟨⟨hworld, hread⟩, hrun⟩
  have hfound : extracts h s₁.world job src = found := by
    have hsess : s₁ = ⟨s₁.world, []⟩ := by rw [← hreads]
    rw [extracts, ← hsess, hrun]
  have hmid : Guarded (.tree rootfs) (.tree job.spec.srcRoot) s₁ s₁.world.clear s₂ :=
    of_reads hworld hread
  split
  · rename_i htrue
    obtain ⟨hpre, hunlinked⟩ := hextract (hfound.trans htrue)
    refine .bind (.adaptExcept ((ensureDestinationDir_triple
      (hroot.destination hclean hpre) (way_subset_clear hunlinked)).weaken
      (fun _ h ↦ h ▸ hmid) (fun _ _ h ↦ h) fun _ h ↦ h.relax)) fun _ ↦ ?_
    exact .pure fun _ h ↦ h.relax
  · rename_i hfalse
    have hdirect := hcopy (hfound.trans (Bool.eq_false_iff.mpr hfalse))
    rw [← hworld] at hroot hseparate hdirect
    have hless : ∀ s, Guarded (.tree rootfs) (.tree job.spec.srcRoot) s₂ ∅ s →
        Guarded (.tree rootfs) (.tree job.spec.srcRoot) s₁ ∅ s := fun _ h ↦ hmid.trans h
    refine .bind
      ((transferLocal_triple hcp hroot hclean hnamed hseparate hdirect).weaken_leads hless)
      fun _ ↦ .skip

section

variable (hs : s.Sound rootfs w₀)
include hs

theorem sound_nextSource (hcp : CpConfined h.storage.cp) (hok : s.Direct h rootfs .nextSource)
    (hstep : s.nextSource h = some s') : s'.Sound rootfs w₀ := by
  obtain ⟨hroot, hok⟩ := hok
  have hvalid := hs.stage
  revert hstep
  fun_cases nextSource s h with rintro ⟨⟩
  | case1 => exact hs.stay trivial
  | case2 job src pending hstage =>
    rw [hstage] at hvalid
    have hdirect : src.Direct rootfs s.session.world job.spec job.dstAbs job.dirHint :=
      hok (job, .remote src) (by rw [hstage]; rfl)
    have hg := (transferRemote_triple (B := .tree job.spec.srcRoot) hroot hvalid.clean
      hdirect).endState (c := transferRemote h.depth job.spec job.dstAbs job.dirHint src)
      (Eq.refl s.session)
    exact hs.ran hg rootfs_subset hvalid.tail trivial
  | case3 job src pending hstage _ hrun | case4 job src pending hstage _ hrun
  | case5 job src pending hstage _ _ hrun =>
    rw [hstage] at hvalid
    have hnamed := hvalid.named src mem_cons_self
    have hdirect : (TransferSource.local src).Direct h rootfs s.session.world job :=
      hok (job, .local src) (by rw [hstage]; rfl)
    have hend := transferLocalSource_triple hcp rfl hroot hvalid.clean hnamed hdirect s.session rfl
    rw [hrun] at hend
    first
      | exact hs.after hend rootfs_subset ⟨hvalid.tail, hnamed⟩
      | exact hs.after hend rootfs_subset hvalid.tail
      | exact hs.after hend rootfs_subset trivial

/-! ## Archives -/

theorem sound_makeScratch
    (hok : s.Direct h rootfs (.makeScratch scratch)) (hstep : s.makeScratch scratch = some s') :
    s'.Sound rootfs w₀ := by
  obtain ⟨-, hclean, hparent, hsource⟩ := hok
  have hvalid := hs.stage
  revert hstep
  fun_cases makeScratch s scratch with rintro ⟨⟩
  | case1 => exact hs.stay trivial
  | case2 job pending src hstage _ sess hrun =>
    rw [hstage] at hvalid
    have hmake := act_triple (B := .tree job.spec.srcRoot) (sys_mkdir_triple hclean
      (way_subset_clear hparent) (mem_tree.mpr (prefix_refl scratch))) s.session
      (refl _ _ s.session)
    rw [hrun] at hmake
    -- The new directory is in the way of nothing.
    obtain ⟨hseparate, hlink⟩ := hsource (job, src) (by rw [hstage]; rfl)
    have hopen := (openRead_triple (.inr ⟨_, hseparate.mem hvalid.2.clean hvalid.2.inside,
      hseparate.aside hvalid.2.clean, hlink⟩)).endState hmake
    refine hs.extend hopen (scratch_subset mem_cons_self) (subset_cons_self _ _) ?_
    split
    · exact ⟨hvalid.1, mem_cons_self⟩
    · exact ⟨hvalid.1, mem_cons_self⟩

theorem sound_archiveEntry {e : ArchiveEvent}
    (hok : s.Direct h rootfs (.archiveEntry e)) (hstep : s.archiveEntry e = some s') :
    s'.Sound rootfs w₀ := by
  obtain ⟨-, hok⟩ := hok
  have hvalid := hs.stage
  rw [archiveEntry] at hstep
  split at hstep
  · rename_i job pending scratch hstage
    rw [hstage] at hvalid
    obtain ⟨hscratch, hdirect⟩ := hok scratch (by rw [hstage]; rfl)
    obtain ⟨u, hu, rfl⟩ := Option.map_eq_some_iff.mp hstep
    obtain ⟨M, hsafe, -⟩ := Unpacking.sound_step hscratch
      ⟨∅, ⟨Within.refl _ _, fun q hq ↦ absurd hq (Set.notMem_empty q)⟩, OwnFiles.refl _ _⟩
      hdirect hu
    have hg : Guarded (.below scratch) (.tree scratch) s.session ∅ ⟨u.world, []⟩ :=
      ⟨hsafe.mono (Set.empty_subset M), nofun⟩
    refine hs.extend hg (fun p hp ↦ scratch_subset hvalid.2 (mem_tree.mpr hp.1))
      (List.Subset.refl _) ?_
    split
    · exact hvalid
    · exact hvalid
  · nomatch hstep

theorem sound_archiveEnd (hok : s.Direct h rootfs .archiveEnd)
    (hstep : s.archiveEnd = some s') : s'.Sound rootfs w₀ := by
  obtain ⟨-, hok⟩ := hok
  have hvalid := hs.stage
  revert hstep
  fun_cases archiveEnd s with rintro ⟨⟩
  | case1 job pending scratch hstage _ _ hrun | case2 job pending scratch hstage _ _ hrun =>
    rw [hstage] at hvalid
    have hscratch := hok scratch (by rw [hstage]; rfl)
    have hself : scratch ∈ tree scratch := mem_tree.mpr (prefix_refl scratch)
    -- Nothing is written here.
    have haside : Aside (.trees []) s.session.world scratch scratch :=
      .of_unlinked hscratch.clean (unlinked_iff_way.mpr fun q hq ↦ unlinked_iff_way.mp
        hscratch.unlinked q (way_dropLast_subset scratch hq)) fun q _ hq ↦ by simp [mem_trees] at hq
    have hlink : s.session.world.linkAt scratch = none :=
      World.linkAt_eq_none_of_kindAt hscratch.isDir rfl
    have hread := readDir_triple (.inr ⟨_, hself, haside, hlink⟩) s.session
      (refl (.trees []) (.tree scratch) s.session)
    have hnothing : trees [] ⊆ .trees (rootfs :: s.scratches) := trees_mono (nil_subset _)
    rw [hrun] at hread
    first
      | exact hs.after hread hnothing hvalid
      | refine hs.after hread.1 hnothing ⟨hvalid.1, hvalid.2, fun c hc ↦ ?_⟩
        obtain ⟨entry, hentry, rfl⟩ := mem_map.mp hc
        exact (hread.2.2 entry hentry).1

theorem sound_nextEntry (hcp : CpConfined h.storage.cp) (hok : s.Direct h rootfs .nextEntry)
    (hstep : s.nextEntry h = some s') : s'.Sound rootfs w₀ := by
  obtain ⟨hroot, hok⟩ := hok
  have hvalid := hs.stage
  revert hstep
  fun_cases nextEntry s h with rintro ⟨⟩
  | case1 job pending scratch hstage =>
    rw [hstage] at hvalid
    exact hs.stay ⟨hvalid.1, hvalid.2.1⟩
  | case2 job pending scratch c entries hstage =>
    rw [hstage] at hvalid
    obtain ⟨hjob, hscratch, hnames⟩ := hvalid
    obtain ⟨hrooted, hseparate, hpre, hunlinked, hclear⟩ :=
      hok (job, scratch, c) (by rw [hstage]; rfl)
    have hname := clean_singleton.mpr (hnames c mem_cons_self)
    have hsrc := join_of_clean hrooted.clean hname
    have hdst := join_of_clean hjob.clean hname
    have hinside : scratch <+: join scratch [c] := by
      rw [hsrc]
      exact prefix_append _ _
    have hplace : Destination (.tree rootfs) s.session.world (join job.dstAbs [c]) := by
      refine hroot.destination (clean_join _ _) ?_
      rw [hdst]
      exact hpre.trans (prefix_append _ _)
    have hway : way (join job.dstAbs [c]).dropLast ⊆ s.session.world.clear := by
      rw [hdst, dropLast_concat]
      exact way_subset_clear hunlinked
    have hg := (copyPathWithOptions_triple hcp (hseparate.mem (clean_join _ _) hinside)
      (hseparate.aside (clean_join _ _)) hplace hway hclear.pathSpots_subset).endState
      (c := copyPathWithOptions h.storage h.depth job.archiveOptions (join scratch [c])
        (join job.dstAbs [c])) (refl _ _ s.session)
    exact hs.ran hg rootfs_subset
      ⟨hjob, hscratch, fun c' hc' ↦ hnames c' (mem_cons_of_mem c hc')⟩ ⟨hjob, hscratch⟩

theorem sound_removeScratch (hok : s.Direct h rootfs .removeScratch)
    (hstep : s.removeScratch = some s') : s'.Sound rootfs w₀ := by
  obtain ⟨-, hok⟩ := hok
  have hvalid := hs.stage
  revert hstep
  fun_cases removeScratch s with rintro ⟨⟩
  | case1 job pending scratch failed hstage =>
    rw [hstage] at hvalid
    obtain ⟨hclean, hunlinked⟩ := hok scratch (by rw [hstage]; rfl)
    have hg := (act_triple (B := .tree scratch) (sys_removeAll_triple hclean
      (way_subset_clear hunlinked) (mem_tree.mpr (prefix_refl scratch)))).endState
      (refl _ _ s.session)
    refine hs.after hg (scratch_subset hvalid.2) ?_
    split
    · trivial
    · exact hvalid.1

end

/-! ## RUN -/

variable {file : Path}

theorem inEtc_of_mem_injectedFiles (hclean : Clean rootfs)
    (hfile : file ∈ injectedFiles rootfs) : InEtc rootfs file := by
  simp only [injectedFiles, mem_cons, not_mem_nil, or_false] at hfile
  rcases hfile with rfl | rfl
  · exact ⟨"resolv.conf".toList, by decide, rootfsFile_eq hclean (by decide +kernel) (by decide)⟩
  · exact ⟨"hosts".toList, by decide, rootfsFile_eq hclean (by decide +kernel) (by decide)⟩

theorem destination_of_inEtc {w : World} (hworld : s₁.world = w)
    (hroot : Rooted rootfs w) (hfile : InEtc rootfs file) :
    Destination (.tree rootfs) s₁.world file := by
  obtain ⟨c, hname, rfl⟩ := hfile
  rw [← hworld] at hroot
  refine hroot.destination ?_ ?_
  · exact (hroot.clean.append (clean_singleton.mpr (by decide))).append (clean_singleton.mpr hname)
  · rw [etcDir, append_assoc]
    exact prefix_append _ _

theorem guarded_restoreAll {backups : List (Path × PathBackup)}
    (hroot : Rooted rootfs s.world) (hbackups : ∀ b ∈ backups, InEtc rootfs b.1)
    (hway : way (etcDir rootfs) ⊆ L) (hg : Guarded (.tree rootfs) (.tree rootfs) s.session L sess) :
    Guarded (.tree rootfs) (.tree rootfs) s.session ∅ (endState (restoreAll backups sess)) := by
  refine (restoreAll_triple (fun b hb ↦ ⟨destination_of_inEtc rfl hroot (hbackups b hb), ?_⟩)
    hway).endState hg
  obtain ⟨c, -, heq⟩ := hbackups b hb
  exact ⟨c, heq⟩

section

variable (hs : s.Sound rootfs w₀)
include hs

theorem sound_beginRun {env : BuildEnv}
    (hok : s.Direct h rootfs (.run env)) (hstep : s.beginRun rootfs env = some s') :
    s'.Sound rootfs w₀ := by
  obtain ⟨hroot, henv⟩ := hok
  have henv : env.Direct rootfs s.session.world := henv
  have hg := (ensureBuildEnvironment_triple (B := .tree rootfs) hroot henv).endState
    (c := ensureBuildEnvironment rootfs env) (Eq.refl s.session)
  revert hstep
  fun_cases beginRun s rootfs env with rintro ⟨⟩
  | case1 =>
    exact hs.ran hg rootfs_subset ⟨fun file hfile ↦ inEtc_of_mem_injectedFiles hroot.clean hfile,
      nofun⟩ trivial

theorem sound_inject {host : HostFile}
    (hok : s.Direct h rootfs (.inject host)) (hstep : s.inject rootfs host = some s') :
    s'.Sound rootfs w₀ := by
  obtain ⟨hroot, hetc, hok⟩ := hok
  have hvalid := hs.stage
  rw [inject] at hstep
  split at hstep
  · rename_i file files backups hstage
    rw [hstage] at hvalid
    obtain ⟨hfiles, hbackups⟩ := hvalid
    have hfile := hfiles file mem_cons_self
    have hinject : Triple (Guarded (.tree rootfs) (.tree rootfs) s.session s.session.world.clear)
        (injectHostFile file host) _ _ :=
      injectHostFile_triple (destination_of_inEtc rfl hroot hfile) fun hpresent ↦
        way_subset_clear (hok hpresent file (by rw [hstage]; rfl))
    have hinject := hinject s.session (refl _ _ s.session)
    split at hstep
    · rename_i hrun
      rw [hrun] at hinject
      obtain ⟨⟩ := hstep
      refine hs.after hinject.1 rootfs_subset
        ⟨fun file' hfile' ↦ hfiles file' (mem_cons_of_mem file hfile'), fun b hb ↦ ?_⟩
      rcases mem_append.mp hb with hnew | hold
      · rw [hinject.2 b hnew]
        exact hfile
      · exact hbackups b hold
    · rename_i hrun
      rw [hrun] at hinject
      obtain ⟨⟩ := hstep
      exact hs.after (guarded_restoreAll hroot hbackups (way_subset_clear hetc) hinject)
        rootfs_subset trivial
  · nomatch hstep

theorem sound_addMount {mount : BindMount}
    (hok : s.Direct h rootfs (.bind mount)) (hstep : s.addMount h rootfs mount = some s') :
    s'.Sound rootfs w₀ := by
  obtain ⟨hroot, hetc, hsource⟩ := hok
  have hvalid := hs.stage
  rw [addMount] at hstep
  split at hstep
  · rename_i backups hstage
    rw [hstage] at hvalid
    have habort := guarded_restoreAll hroot hvalid.2 (way_subset_clear hetc) (refl _ _ s.session)
    split at hstep
    · obtain ⟨⟩ := hstep
      exact hs.after habort rootfs_subset trivial
    rename_i source hresolve
    obtain ⟨hclean, hinside, hunlinked⟩ := hsource source hresolve
    have hread := openRead_of_way hclean (mem_tree.mpr hinside)
      (way_subset_clear hunlinked) s.session
      (refl (.tree rootfs) (.tree (mount.root h.context)) s.session)
    split at hstep
    · rename_i hrun
      rw [hrun] at hread
      obtain ⟨⟩ := hstep
      exact hs.after hread rootfs_subset hvalid
    · obtain ⟨⟩ := hstep
      exact hs.after habort rootfs_subset trivial
  · nomatch hstep

/-- The command changes what is in the root filesystem, and leaves no trace of the builder. -/
theorem sound_command {entries : List (Text × Tree)} {nextIno : ℕ}
    (hstep : s.command rootfs entries nextIno = some s') : s'.Sound rootfs w₀ := by
  have hmem : rootfs ∈ trees (rootfs :: s.scratches) :=
    rootfs_subset (mem_tree.mpr (prefix_refl rootfs))
  revert hstep
  fun_cases command s rootfs entries nextIno with rintro ⟨⟩
  | case1 => exact ⟨⟨hs.within.touched, (hs.within.put hmem).outside⟩, hs.reads, hs.stage⟩

theorem sound_restore (hok : s.Direct h rootfs .restore)
    (hstep : s.restore rootfs = some s') : s'.Sound rootfs w₀ := by
  obtain ⟨hroot, hetc⟩ := hok
  have hvalid := hs.stage
  revert hstep
  fun_cases restore s rootfs with rintro ⟨⟩
  | case1 files backups hstage =>
    rw [hstage] at hvalid
    exact hs.after (guarded_restoreAll hroot hvalid.2 (way_subset_clear hetc)
      (refl _ _ s.session)) rootfs_subset ⟨nofun, nofun⟩

theorem sound_runEnd {ok : Bool} (hstep : s.runEnd ok = some s') : s'.Sound rootfs w₀ := by
  revert hstep
  fun_cases runEnd s ok with rintro ⟨⟩
  | case1 =>
    refine hs.stay ?_
    split <;> trivial

/-! ## Builds -/

/-- **Every step** that no link is in the way of. -/
theorem sound_step (hcp : CpConfined h.storage.cp) {e : BuildEvent} (hok : s.Direct h rootfs e)
    (hstep : s.step h rootfs e = some s') : s'.Sound rootfs w₀ := by
  cases e with
  | workdir dir => exact sound_handleWORKDIR hs hok hstep
  | transfer spec => exact sound_beginTransfer hs hok hstep
  | nextSource => exact sound_nextSource hs hcp hok hstep
  | makeScratch scratch => exact sound_makeScratch hs hok hstep
  | archiveEntry e => exact sound_archiveEntry hs hok hstep
  | archiveEnd => exact sound_archiveEnd hs hok hstep
  | nextEntry => exact sound_nextEntry hs hcp hok hstep
  | removeScratch => exact sound_removeScratch hs hok hstep
  | run env => exact sound_beginRun hs hok hstep
  | inject host => exact sound_inject hs hok hstep
  | bind mount => exact sound_addMount hs hok hstep
  | command entries nextIno => exact sound_command hs hstep
  | restore => exact sound_restore hs hok hstep
  | runEnd ok => exact sound_runEnd hs hstep

end

theorem sound_run (hcp : CpConfined h.storage.cp) {events : List BuildEvent}
    (hrun : Run (step · h rootfs ·) (Direct h rootfs) (init w₀ workdir) events s) :
    s.Sound rootfs (init w₀ workdir).world :=
  hrun.invariant (I := Sound rootfs (init w₀ workdir).world)
    (fun _ _ _ hs hok hstep ↦ sound_step hs hcp hok hstep)
    ⟨Within.refl _ _, nofun, trivial⟩

/-- Only the root filesystem was acted on, and scratch directories that the builder has made itself;
the rest is as it was. -/
structure WritesConfined (rootfs : Path) (w₀ : World) (s : Build) : Prop where
  touched : ∀ p ∈ s.world.touched, rootfs <+: p ∨ ∃ scratch ∈ s.scratches, scratch <+: p
  outside : ∀ p, ¬ rootfs <+: p → (∀ scratch ∈ s.scratches, ¬ scratch <+: p) →
    s.world.kindAt p = w₀.kindAt p

/-- **A build writes into the root filesystem of its stage only**, if no links are in the way of its
steps and `cp` does what is asked of it. -/
theorem writesConfined_of_direct (hcp : CpConfined h.storage.cp)
    {workdir : Option ContainerPath} {events : List BuildEvent}
    (hrun : Run (step · h rootfs ·) (Direct h rootfs) (init w₀ workdir) events s) :
    s.WritesConfined rootfs w₀ := by
  have hwithin := (sound_run hcp hrun).within
  have hmem : ∀ {p}, p ∈ trees (rootfs :: s.scratches) ↔
      rootfs <+: p ∨ ∃ scratch ∈ s.scratches, scratch <+: p := by
    intro p
    rw [mem_trees, exists_mem_cons_iff]
  refine ⟨fun p hp ↦ ?_, fun p hroot hscratch ↦ ?_⟩
  · rcases hwithin.touched p hp with hin | hold
    · exact hmem.mp hin
    · exact absurd hold not_mem_nil
  refine hwithin.outside p fun hin ↦ ?_
  rcases hmem.mp hin with hpre | ⟨scratch, hscratch', hpre⟩
  · exact hroot hpre
  · exact hscratch scratch hscratch' hpre

end Build

/-! ## Four builds -/

/-- A host with the root filesystem `/r`, in which `l` is a link to `/e` and the file
`etc/resolv.conf` a link to `/e/s`; the context `/c`, in which `k` is a link to `/e` and `m` one to
`d`; a directory `/t` for scratch directories, and a directory `/e` with a file. -/
def buildWorld : World :=
  ⟨some (.dir [
    (['r'], .dir [(['l'], .symlink "/e".toList),
      ("etc".toList, .dir [("resolv.conf".toList, .symlink "/e/s".toList)])]),
    (['c'], .dir [(['d'], .dir [(['f'], .file 0)]), (['a'], .file 1),
      (['k'], .symlink "/e".toList), (['m'], .symlink "d".toList)]),
    (['t'], .dir []), (['e'], .dir [(['s'], .file 2)])]), 3, []⟩

/-- Names match themselves and a star, and the file `a` of the context is an archive. -/
def buildHost : BuildHost where
  storage := ⟨plainFiles, copyPath plainFiles 4⟩
  depth := 4
  glob := fun p r ↦ some (p = ['*'] || p = r)
  archive := fun ino ↦ ino = 1
  context := [['c']]

/-- An instruction that copies from the context, and unpacks archives if it is an ADD. -/
def contextSpec (extract : Bool) (src dst : String) : TransferSpec where
  srcRoot := [['c']]
  fromContext := true
  srcs := [.path src.toList]
  dst := dst.toList
  options := ⟨false, false, false, false⟩
  extract := extract
  checksum := false
  included := fun _ ↦ .keep
  verdict := fun _ _ ↦ .keep

def plainEnv : BuildEnv := ⟨"/root".toList, "/tmp".toList, "/tmp/gocracker-gitconfig".toList⟩

/-- WORKDIR, COPY of a directory, a RUN for which the host has no files and whose command replaces
the directory `etc`, and a RUN for which it has them. -/
def commandBuild : List BuildEvent :=
  [.workdir "w".toList, .transfer (contextSpec false "d" "x/"), .nextSource, .nextSource,
    .run plainEnv, .inject .missing, .inject .missing,
    .command [("etc".toList, .dir [("hosts".toList, .file 3)])] 9, .restore, .runEnd true,
    .run plainEnv, .inject .present, .inject .present, .restore, .runEnd true]

theorem writesConfined_of_direct_command :
    ∃ s, Run (Build.step · buildHost [['r']] ·) (Build.Direct buildHost [['r']])
        (.init buildWorld none) commandBuild s ∧ s.WritesConfined [['r']] buildWorld := by
  refine Run.exists_of_exec (·.scratches = []) (by decide +kernel) fun s hrun _ ↦ ?_
  exact Build.writesConfined_of_direct (copyPath_cpConfined _ _) hrun

/-- **WORKDIR behind a link of the image, and a file of the host written through one.** The working
directory `/l/x` is made in `/e`, and `resolv.conf` is written over the file `/e/s`. -/
theorem not_writesConfined_linkedImage :
    ∃ s, Run (Build.step · buildHost [['r']] ·) anyStep (.init buildWorld none)
        [.workdir "/l/x".toList, .run plainEnv, .inject .present] s ∧
      ¬s.WritesConfined [['r']] buildWorld := by
  refine Run.exists_of_exec (fun s ↦ [['e'], ['x']] ∈ s.world.touched ∧ s.scratches = [])
    (by decide +kernel) fun s hrun ⟨htouched, hscratches⟩ hconfined ↦ ?_
  rcases hconfined.touched _ htouched with hpre | ⟨scratch, hscratch, -⟩
  · exact absurd hpre (by decide)
  · rw [hscratches] at hscratch
    exact absurd hscratch not_mem_nil

end Gocracker
