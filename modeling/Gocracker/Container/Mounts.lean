import Gocracker.Container.CopyTree
import Gocracker.Transition.Run

/-!
# Preparing a root filesystem

Before a disk is made of it, the extracted image gets its mounts, a description of what is to be
run, certificates of the host and the toolbox. `applyMounts` replaces the target of each mount by a
copy of its source; a mount that is to be *populated* first has its source, if it is an empty
directory, filled with what the image has at the target.

All paths are made by joining a name to the directory of the root filesystem. The image has any
links it likes, and they lead from the root of the host when the host follows them. A target that
begins with double dots is joined as it is.
-/

namespace Gocracker

open Machine Posix Transition List Area Guarded Triple World

/-! ## Mounts -/

/-- How the guest gets to see the source. -/
inductive MountBackend where
  | materialized
  | virtioFS
  deriving DecidableEq

/-- A mount of the run: a host path and its place in the guest. -/
structure Mount where
  source : Text
  target : Text
  populate : Bool
  backend : MountBackend

/-- The components of a path of the host, without those that a walk ignores. Relative paths start at
the root here. -/
def hostPath (t : Text) : Path := (components t).filter fun c ↦ c ≠ [] ∧ c ≠ dot

/-- A path of the guest, joined to the root. -/
def rootfsPath (rootfs : Path) (path : Text) : Path :=
  let cleaned := cleanComponents path
  if cleaned = [] then rootfs else join rootfs cleaned

/-- Why the mounts cannot be prepared. -/
inductive MountError where
  | required
  | statSource (source : Text) (e : Errno)
  | populateSource (e : Errno)
  | restatSource (source : Text) (e : Errno)
  | notDirectory (source : Text)
  | removeTarget (target : Path) (e : Errno)
  | copyDir (source : Text) (target : Path) (e : Errno)
  | copyFile (source : Text) (target : Path) (e : Errno)
  | writeSpec (e : Errno)
  | marshalSpec

abbrev PrepareM := EStateM MountError Session

def failing {α : Type} (f : Errno → MountError) (c : FileM α) : PrepareM α :=
  EStateM.adaptExcept f c

section Mounts

variable (m : Medium) (depth : ℕ) (rootfs : Path)

/-- The second half of `populateMountSource`: fill a source that is empty or missing. -/
def fillMountSource (source : Path) (guestPath : Path) (sourceIsDir : Bool) : FileM PUnit := do
  match ← ask fun w ↦ .ok (w.lstat guestPath) with
  | .error .enoent => pure ⟨⟩
  | .error e => throw e
  | .ok kind =>
    if sourceIsDir then
      act (mkdirAll source.reverse)
      if kind = .dir then copyDirContents m depth guestPath source
      else copyFileOrSymlink m guestPath (join source guestPath.getLast?.toList)
    else if kind = .dir then pure ⟨⟩
    else copyFileOrSymlink m guestPath source

/-- An empty source is filled with what the image has at the target. -/
def populateMountSource (source : Path) (target : Text) (sourceIsDir : Bool) : FileM PUnit := do
  match ← ask fun w ↦ .ok (w.listDir source) with
  | .ok (_ :: _) => pure ⟨⟩
  | .ok [] => fillMountSource m depth source (rootfsPath rootfs target) sourceIsDir
  | .error e =>
    let info ← ask fun w ↦ .ok (w.stat source)
    if e ≠ .enoent ∧ sourceIsDir = false ∧ info.toOption.isSome then pure ⟨⟩
    else fillMountSource m depth source (rootfsPath rootfs target) sourceIsDir

/-- The part of an iteration that fills the source; what the source is may change by it. -/
def populateMount (mount : Mount) (info : Kind) : PrepareM Kind := do
  if mount.populate then
    failing .populateSource
      (populateMountSource m depth rootfs (hostPath mount.source) mount.target (info = .dir))
    failing (.restatSource mount.source) (ask (·.stat (hostPath mount.source)))
  else pure info

/-- The part of an iteration that copies the source to its target. Where it reads is for the caller
to say, not for the image. -/
def materializeMount (mount : Mount) (info : Kind) : PrepareM PUnit := do
  let target := rootfsPath rootfs mount.target
  match mount.backend with
  | .virtioFS => if info = .dir then pure ⟨⟩ else throw (.notDirectory mount.source)
  | .materialized =>
    failing (.removeTarget target) (act (sys (·.removeAll target)))
    if info = .dir then
      failing (.copyDir mount.source target)
        (unrecorded (copyDir m depth (hostPath mount.source) target))
    else
      failing (.copyFile mount.source target)
        (unrecorded (copyFileOrSymlink m (hostPath mount.source) target))

/-- One iteration of the loop of `applyMounts`. -/
def applyMount (mount : Mount) : PrepareM PUnit := do
  if mount.source = [] ∨ mount.target = [] then throw .required
  else
    let info ← failing (.statSource mount.source) (ask (·.stat (hostPath mount.source)))
    let info ← populateMount m depth rootfs mount info
    materializeMount m depth rootfs mount info

end Mounts

/-! ## Files that every root filesystem gets -/

variable (rootfs : Path)

/-- A path that is written down in the source. -/
def rootfsFile (path : String) : Path := join rootfs (cleanComponents path.toList)

def guestSpecPath : Path := rootfsFile rootfs "/etc/gocracker/runtime.json"

def toolboxPath : Path := rootfsFile rootfs "/opt/gocracker/toolbox/toolboxguest"

def toolboxVersionPath : Path := rootfsFile rootfs "/opt/gocracker/toolbox/VERSION"

def guestCertsPath : Path := rootfsFile rootfs "etc/ssl/certs/ca-certificates.crt"

def resolvPath : Path := rootfsFile rootfs "etc/resolv.conf"

/-- Create or replace a file. -/
def writeFile (path : Path) : FileM PUnit := act (sys (·.openTrunc path))

/-- `structured` says that there is something to write, `marshals` that it can be written down. -/
def writeRuntimeSpecToRootfs (structured marshals : Bool) : PrepareM PUnit :=
  if structured = false then pure ⟨⟩
  else if marshals = false then throw .marshalSpec
  else failing .writeSpec do
    act (mkdirAll (guestSpecPath rootfs).dropLast.reverse)
    writeFile (guestSpecPath rootfs)

def injectToolboxBinary (embedded : Bool) : FileM PUnit :=
  if embedded = false then pure ⟨⟩
  else attempt do
    act (mkdirAll (toolboxPath rootfs).dropLast.reverse)
    attempt (writeFile (toolboxPath rootfs))
    attempt (writeFile (toolboxVersionPath rootfs))

/-- `sized` says of an object of the root filesystem that its size is not 0, `bundle` that the host
has certificates. -/
def injectHostCACerts (sized : Kind → Bool) (bundle : Bool) : FileM PUnit := do
  let info ← ask fun w ↦ .ok (w.stat (guestCertsPath rootfs))
  if info.toOption.any sized = false ∧ bundle = true then
    attempt (act (mkdirAll (guestCertsPath rootfs).dropLast.reverse))
    attempt (writeFile (guestCertsPath rootfs))
  attempt (writeFile (resolvPath rootfs))

/-! ## Preparations -/

/-- The state of a preparation, with the sources that were to be populated. -/
structure Preparation where
  session : Session
  populated : List Path
  failed : Bool

/-- The next thing that is put into the root file system. -/
inductive PrepareEvent where
  | mount (mount : Mount)
  | writeRuntimeSpec (structured marshals : Bool)
  | injectHostCACerts (sized : Kind → Bool) (bundle : Bool)
  | injectToolboxBinary (embedded : Bool)

/-- The sources that a mount may write to. -/
def Mount.populated (mount : Mount) : List Path :=
  if mount.populate then [hostPath mount.source] else []

namespace Preparation

def init (w : World) : Preparation := ⟨⟨{ w with touched := [] }, []⟩, [], false⟩

/-- Go on after a function has returned. -/
def after {ε : Type} (populated : List Path) (r : EStateM.Result ε Session PUnit) : Preparation :=
  ⟨endState r, populated, isError r⟩

variable (m : Medium) (depth : ℕ) (rootfs : Path) (s : Preparation)

/-- What an event does, and what it fails with. -/
def perform :
    PrepareEvent → Preparation
  | .mount mount =>
    after (mount.populated ++ s.populated) (applyMount m depth rootfs mount s.session)
  | .writeRuntimeSpec structured marshals =>
    after s.populated (writeRuntimeSpecToRootfs rootfs structured marshals s.session)
  | .injectHostCACerts sized bundle =>
    after s.populated (Gocracker.injectHostCACerts rootfs sized bundle s.session)
  | .injectToolboxBinary embedded =>
    after s.populated (Gocracker.injectToolboxBinary rootfs embedded s.session)

/-- The first error ends a preparation. -/
def step (e : PrepareEvent) :
    Option Preparation :=
  if s.failed then none else some (s.perform m depth rootfs e)

end Preparation

/-! ## The condition -/

/-- A source and a place in the root filesystem that it may be filled from: no link is on the way to
either, and they lie apart. -/
@[mk_iff]
structure Fillable (rootfs : Path) (w : World) (source guestPath : Path) : Prop where
  clean : Clean source
  unlinked : Unlinked w.linkAt [] source
  inside : rootfs <+: guestPath
  reached : Unlinked w.linkAt [] guestPath.dropLast
  apart : ¬ source <+: guestPath
  apart' : ¬ guestPath <+: source

instance (rootfs : Path) (w : World) (source guestPath : Path) :
    Decidable (Fillable rootfs w source guestPath) :=
  decidable_of_iff _ (fillable_iff rootfs w source guestPath).symm

namespace Preparation

/-- The condition on a step. The root filesystem is there. The target of a mount lies in it, with no
link on the way, and its source may be filled from there if it is to be. No link is on the way to
the files that every root filesystem gets, nor in their place. -/
def Direct (s : Preparation) (e : PrepareEvent) : Prop :=
  Rooted rootfs s.session.world ∧
    match e with
    | .mount mount =>
      (mount.populate = true → Fillable rootfs s.session.world (hostPath mount.source)
        (rootfsPath rootfs mount.target)) ∧
      (mount.backend = .materialized → rootfs <+: rootfsPath rootfs mount.target ∧
        Unlinked s.session.world.linkAt [] (rootfsPath rootfs mount.target).dropLast)
    | .writeRuntimeSpec _ _ => Unlinked s.session.world.linkAt [] (guestSpecPath rootfs)
    | .injectHostCACerts _ _ =>
      Unlinked s.session.world.linkAt [] (guestCertsPath rootfs) ∧
        Unlinked s.session.world.linkAt [] (resolvPath rootfs)
    | .injectToolboxBinary _ =>
      Unlinked s.session.world.linkAt [] (toolboxPath rootfs) ∧
        Unlinked s.session.world.linkAt [] (toolboxVersionPath rootfs)

instance (rootfs : Path) (s : Preparation) (e : PrepareEvent) : Decidable (s.Direct rootfs e) :=
  match e with
  | .mount _ => inferInstanceAs (Decidable (_ ∧ _))
  | .writeRuntimeSpec _ _ => inferInstanceAs (Decidable (_ ∧ _))
  | .injectHostCACerts _ _ | .injectToolboxBinary _ => inferInstanceAs (Decidable (_ ∧ _))

end Preparation

/-! ## Filling a source -/

variable {m : Medium} {depth : ℕ} {rootfs source guestPath : Path} {s₁ : Session} {info : Kind}

theorem under_subset_clear {w : World} {dst : Path} (hdir : w.kindAt dst = some .dir)
    (hempty : w.listing dst = .ok []) : under dst ⊆ w.clear := by
  rintro q ⟨⟨r, rfl⟩, hclean⟩
  cases r with
  | nil =>
    rw [append_nil]
    exact linkAt_eq_none_iff.mpr fun target h ↦ absurd (hdir.symm.trans h) (by simp)
  | cons c r =>
    have hname : IsName c := hclean c (by simp)
    exact linkAt_eq_none (kindAt_of_listing_nil hempty hname r)

theorem Fillable.join_base (h : Fillable rootfs s₁.world source guestPath)
    (hclean : Clean guestPath) :
    ∃ c, IsName c ∧ join source guestPath.getLast?.toList = source ++ [c] := by
  cases guestPath using List.reverseRecOn with
  | nil => exact absurd nil_prefix h.apart'
  | append_singleton init c =>
    have hname : IsName c := hclean c (by simp)
    refine ⟨c, hname, ?_⟩
    rw [getLast?_concat]
    exact join_of_clean h.clean (clean_singleton.mpr hname)

/-- **Filling a source** acts on the source only, and reads in the root filesystem only. -/
theorem fillMountSource_triple (h : Fillable rootfs s₁.world source guestPath)
    (hclean : Clean guestPath) (hinfo : s₁.world.kindAt source = some info)
    (hempty : info = .dir → s₁.world.listing source = .ok []) :
    Leads (· = s₁) (fillMountSource m depth source guestPath (info = .dir))
      (Guarded (.tree source) (.tree rootfs) s₁ (besides s₁.world.clear source)) := by
  have hstart : Guarded (.tree source) (.tree rootfs) s₁ s₁.world.clear s₁ := refl _ _ s₁
  have hidle : ∀ s, s = s₁ → Guarded (.tree source) (.tree rootfs) s₁
      (besides s₁.world.clear source) s := by
    rintro s rfl
    exact hstart.less
  have haside := Aside.of_apart hclean h.reached h.apart h.apart'
  have hmem : guestPath ∈ tree rootfs := mem_tree.mpr h.inside
  have hread : Readable (.tree source) (.tree rootfs) s₁.world guestPath := .inr ⟨_, hmem, haside⟩
  have hdst : Destination (.tree source) s₁.world source :=
    Destination.of_parent h.clean (kindAt_ne_none_of_isPrefix (List.dropLast_prefix source)
      (by rw [hinfo]; simp))
  have hway : way source ⊆ s₁.world.clear := way_subset_clear h.unlinked
  rw [fillMountSource]
  refine .bind (ask_eq_triple.weaken_error hidle) fun stat ↦ .fact fun hstat ↦ ?_
  obtain ⟨⟩ := hstat
  split
  · exact .pure hidle
  · exact .throw hidle
  rename_i kind hkind
  have hat := haside.kindAt_of_lstat hstart hkind
  split
  · rename_i hdir
    have hdir : info = .dir := of_decide_eq_true hdir
    have hunder := under_subset_clear (hdir ▸ hinfo) (hempty hdir)
    refine bind_less ((hdst.mkdirAll_keeps hway).at_state hstart) fun _ ↦ ?_
    split_ifs with hguest
    · rw [hguest] at hat
      have hlink : s₁.world.linkAt guestPath = none := by rw [linkAt, hat]
      exact copyDirContents_triple (.inr ⟨_, hmem, haside, hlink⟩) hdst hway hunder
    · obtain ⟨c, hname, hjoin⟩ := h.join_base hclean
      have hpre : source <+: source ++ [c] := prefix_append source [c]
      have hsub : besides s₁.world.clear source ⊆ besides s₁.world.clear (source ++ [c]) :=
        fun q hq ↦ ⟨hq.1, fun hq' ↦ hq.2 (hpre.trans hq')⟩
      have hchild := hdst.child hname
      rw [hjoin]
      exact (copyFileOrSymlink_triple hread hchild (way_subset
        (hunder ⟨hpre, hchild.clean⟩) (by rwa [dropLast_concat]))).weaken_leads fun _ h ↦
          h.mono hsub
  · split
    · exact .pure hidle
    · exact (copyFileOrSymlink_triple hread hdst hway).at_state hstart

theorem clean_rootfsPath (hclean : Clean rootfs) (path : Text) :
    Clean (rootfsPath rootfs path) := by
  rw [rootfsPath]
  split
  · exact hclean
  · exact clean_join _ _

theorem populateMountSource_triple {target : Text} (hclean : Clean rootfs)
    (h : Fillable rootfs s₁.world source (rootfsPath rootfs target))
    (hstat : s₁.world.stat source = .ok info) :
    Leads (· = s₁) (populateMountSource m depth rootfs source target (info = .dir))
      (Guarded (.tree source) (.tree rootfs) s₁ (besides s₁.world.clear source)) := by
  have hidle : ∀ s, s = s₁ → Guarded (.tree source) (.tree rootfs) s₁
      (besides s₁.world.clear source) s := by
    rintro s rfl
    exact (refl _ _ s).less
  have hstraight : s₁.world.Straight true source := ⟨h.clean, h.unlinked.passable⟩
  have hinfo := hstraight.kindAt_of_statAt hstat
  have hguest := clean_rootfsPath hclean target
  rw [populateMountSource]
  refine .bind (ask_eq_triple.weaken_error hidle) fun entries ↦ .fact fun hentries ↦ ?_
  obtain ⟨⟩ := hentries
  split
  · exact .pure hidle
  · rename_i hlist
    exact fillMountSource_triple h hguest hinfo fun hdir ↦
      (hstraight.listDir_eq_listing (hdir ▸ hinfo)).symm.trans hlist
  rename_i e hlist
  refine .bind (ask_eq_triple.weaken_error hidle) fun stat ↦ .fact fun _ ↦ ?_
  split
  · exact .pure hidle
  · refine fillMountSource_triple h hguest hinfo fun hdir ↦ ?_
    rw [hstraight.listDir_eq_listing (hdir ▸ hinfo)] at hlist
    exact absurd hlist (listing_ne_error (hdir ▸ hinfo))

/-! ## One mount -/

variable {mount : Mount}

/-- The places that a mount may write to. -/
def Mount.area (rootfs : Path) (mount : Mount) : Area := .trees (rootfs :: mount.populated)

/-- What is clear of links after a source has been filled. -/
def Mount.cleared (mount : Mount) (w : World) : Set Path :=
  {q ∈ w.clear | ∀ d ∈ mount.populated, ¬ d <+: q}

theorem populateMount_triple (hclean : Clean rootfs) (h : mount.populate = true →
      Fillable rootfs s₁.world (hostPath mount.source) (rootfsPath rootfs mount.target))
    (hstat : s₁.world.stat (hostPath mount.source) = .ok info) :
    Leads (· = s₁) (populateMount m depth rootfs mount info)
      (Guarded (mount.area rootfs) (.tree rootfs) s₁ (mount.cleared s₁.world)) := by
  rw [populateMount]
  split_ifs with hpopulate
  · have hpopulated : mount.populated = [hostPath mount.source] := if_pos hpopulate
    have hweaken : ∀ s, Guarded (.tree (hostPath mount.source)) (.tree rootfs) s₁
        (besides s₁.world.clear (hostPath mount.source)) s →
        Guarded (mount.area rootfs) (.tree rootfs) s₁ (mount.cleared s₁.world) s := by
      intro s hs
      rw [Mount.area, Mount.cleared, hpopulated]
      refine (hs.mono_area (tree_subset_trees (by simp)) fun _ hq ↦ hq).mono ?_
      exact fun q hq ↦ ⟨hq.1, hq.2 _ mem_cons_self⟩
    refine .bind (.adaptExcept ((populateMountSource_triple hclean (h hpopulate)
      hstat).weaken_leads hweaken)) fun _ ↦ ?_
    exact .adaptExcept ask_keeps
  · refine .pure ?_
    rintro s rfl
    exact (refl _ _ s).mono (Set.sep_subset _ _)

theorem materializeMount_triple (hroot : Rooted rootfs s₁.world)
    (h : mount.backend = .materialized → rootfs <+: rootfsPath rootfs mount.target ∧
      way (rootfsPath rootfs mount.target).dropLast ⊆ mount.cleared s₁.world) :
    Leads (Guarded (mount.area rootfs) (.tree rootfs) s₁ (mount.cleared s₁.world))
      (materializeMount m depth rootfs mount info)
      (Guarded (mount.area rootfs) (.tree rootfs) s₁ ∅) := by
  rw [materializeMount]
  generalize htarget : rootfsPath rootfs mount.target = target at h
  have hclean : Clean target := htarget ▸ clean_rootfsPath hroot.clean mount.target
  split
  · split
    · exact .pure fun _ h ↦ h.relax
    · exact .throw fun _ h ↦ h.relax
  rename_i hbackend
  obtain ⟨hpre, hway⟩ := h hbackend
  have hdst : Destination (mount.area rootfs) s₁.world target :=
    (hroot.destination hclean hpre).mono (tree_subset_trees mem_cons_self)
  refine .bind (.adaptExcept ((act_triple (sys_removeAll_triple hclean hway
    hdst.mem)).weaken_error fun _ h ↦ h.relax)) fun _ ↦ ?_
  -- After the removal there is nothing left at the target.
  generalize hcleared : mount.cleared s₁.world ∪ {q | target <+: q} = L
  have hunder : under target ⊆ L := fun q hq ↦ hcleared ▸ .inr hq.1
  have hwayTarget : way target ⊆ L := hcleared ▸ way_subset_union hway
  split
  · exact .adaptExcept ((unrecorded_triple (copyDirWith_triple hdst hwayTarget (Set.sep_subset _ _)
      (copyDirContents_triple (.inl mem_everything) hdst hwayTarget hunder))
        mem_everything).weaken_leads fun _ h ↦ h.relax)
  · exact .adaptExcept ((unrecorded_triple (copyFileOrSymlink_triple (.inl mem_everything)
      hdst hwayTarget) mem_everything).weaken_leads fun _ h ↦ h.relax)

/-- **One mount** acts on the root filesystem and on its own source, if that is to be populated. -/
theorem applyMount_triple (hroot : Rooted rootfs s₁.world) (hfill : mount.populate = true →
      Fillable rootfs s₁.world (hostPath mount.source) (rootfsPath rootfs mount.target))
    (hplace : mount.backend = .materialized → rootfs <+: rootfsPath rootfs mount.target ∧
      Unlinked s₁.world.linkAt [] (rootfsPath rootfs mount.target).dropLast) :
    Leads (· = s₁) (applyMount m depth rootfs mount)
      (Guarded (mount.area rootfs) (.tree rootfs) s₁ ∅) := by
  have hidle : ∀ s, s = s₁ → Guarded (mount.area rootfs) (.tree rootfs) s₁ ∅ s := by
    rintro s rfl
    exact (refl _ _ s).relax
  rw [applyMount]
  split
  · exact .throw hidle
  refine .bind (.adaptExcept (ask_eq_triple.weaken_error hidle)) fun info ↦ .fact fun hstat ↦ ?_
  refine .bind ((populateMount_triple hroot.clean hfill hstat).weaken_error
    fun _ h ↦ h.relax) fun info' ↦ ?_
  refine materializeMount_triple hroot fun hbackend ↦ ?_
  obtain ⟨hpre, hunlinked⟩ := hplace hbackend
  refine ⟨hpre, fun q hq ↦ ⟨unlinked_iff_way.mp hunlinked q hq, fun d hd hdq ↦ ?_⟩⟩
  -- A source on the way to the target could be filled with links.
  rw [Mount.populated] at hd
  split_ifs at hd with hpopulate
  · rw [mem_singleton.mp hd] at hdq
    exact (hfill hpopulate).apart ((hdq.trans hq.2).trans (List.dropLast_prefix _))
  · exact absurd hd not_mem_nil

/-! ## Files that every root filesystem gets -/

section Files

variable {A B : Area} {L : Set Path} {path : Path}

theorem writeFile_triple (hdst : Destination A s₁.world path) (hway : way path ⊆ L) :
    Keeps (Guarded A B s₁ L) (writeFile path) :=
  act_triple (sys_openTrunc_triple hdst.clean hway (.inl hdst.mem))

theorem mkdirParent_triple (hdst : Destination A s₁.world path) (hway : way path ⊆ L) :
    Keeps (Guarded A B s₁ L) (act (mkdirAll path.dropLast.reverse)) :=
  hdst.mkdirParent_keeps ((way_dropLast_subset path).trans hway)

section

variable (hroot : Rooted rootfs s₁.world)
include hroot

/-- A file whose path is written down in the source has a place in the root filesystem. -/
theorem destination_rootfsFile {path : String} (hclean : Clean (cleanComponents path.toList)) :
    Destination (.tree rootfs) s₁.world (rootfsFile rootfs path) := by
  refine hroot.destination (clean_join _ _) ?_
  rw [rootfsFile, join_of_clean hroot.clean hclean]
  exact prefix_append _ _

theorem writeRuntimeSpecToRootfs_triple {structured marshals : Bool}
    (hway : way (guestSpecPath rootfs) ⊆ L) :
    Keeps (Guarded (.tree rootfs) B s₁ L)
      (writeRuntimeSpecToRootfs rootfs structured marshals) := by
  have hdst : Destination (.tree rootfs) s₁.world (guestSpecPath rootfs) :=
    destination_rootfsFile hroot (by decide +kernel)
  rw [writeRuntimeSpecToRootfs]
  split
  · exact .skip
  split
  · exact .raise
  · exact .adaptExcept (.bind (mkdirParent_triple hdst hway) fun _ ↦ writeFile_triple hdst hway)

theorem injectToolboxBinary_triple {embedded : Bool}
    (hway : way (toolboxPath rootfs) ⊆ L) (hwayVersion : way (toolboxVersionPath rootfs) ⊆ L) :
    Keeps (Guarded (.tree rootfs) B s₁ L) (injectToolboxBinary rootfs embedded) := by
  have hdst : Destination (.tree rootfs) s₁.world (toolboxPath rootfs) :=
    destination_rootfsFile hroot (by decide +kernel)
  have hversion : Destination (.tree rootfs) s₁.world (toolboxVersionPath rootfs) :=
    destination_rootfsFile hroot (by decide +kernel)
  rw [injectToolboxBinary]
  split
  · exact .skip
  · refine .attempt (.bind (mkdirParent_triple hdst hway) fun _ ↦ ?_)
    exact .bind (.attempt (writeFile_triple hdst hway)) fun _ ↦
      .attempt (writeFile_triple hversion hwayVersion)

theorem injectHostCACerts_triple {sized : Kind → Bool} {bundle : Bool}
    (hway : way (guestCertsPath rootfs) ⊆ L) (hwayResolv : way (resolvPath rootfs) ⊆ L) :
    Keeps (Guarded (.tree rootfs) B s₁ L) (injectHostCACerts rootfs sized bundle) := by
  have hcerts : Destination (.tree rootfs) s₁.world (guestCertsPath rootfs) :=
    destination_rootfsFile hroot (by decide +kernel)
  have hresolv : Destination (.tree rootfs) s₁.world (resolvPath rootfs) :=
    destination_rootfsFile hroot (by decide +kernel)
  refine bind ask_keeps fun info ↦ ?_
  have hlast := attempt (E := Guarded (.tree rootfs) B s₁ L)
    (writeFile_triple (B := B) hresolv hwayResolv)
  split
  · refine bind (attempt (mkdirParent_triple hcerts hway)) fun _ ↦ ?_
    exact bind (attempt (writeFile_triple hcerts hway)) fun _ ↦ hlast
  · exact hlast

end

end Files

/-! ## Preparations -/

namespace Preparation

variable {w₀ : World} {s s' : Preparation} {e : PrepareEvent}

/-- Everything acted on lies in the root filesystem or in a source that was to be populated, and
what was read to populate them in the root filesystem; the rest is as it was. -/
structure Confined (rootfs : Path) (w₀ : World) (s : Preparation) : Prop where
  touched : ∀ p ∈ s.session.world.touched, rootfs <+: p ∨ ∃ source ∈ s.populated, source <+: p
  outside : ∀ p, ¬ rootfs <+: p → (∀ source ∈ s.populated, ¬ source <+: p) →
    s.session.world.kindAt p = w₀.kindAt p
  reads : ∀ p ∈ s.session.reads, rootfs <+: p

/-- What may have been acted on so far. -/
def area (rootfs : Path) (s : Preparation) : Area := .trees (rootfs :: s.populated)

theorem guarded_perform (hok : s.Direct rootfs e) :
    Guarded ((s.perform m depth rootfs e).area rootfs) (.tree rootfs) s.session ∅
        (s.perform m depth rootfs e).session ∧
      s.populated ⊆ (s.perform m depth rootfs e).populated := by
  obtain ⟨hroot, hok⟩ := hok
  -- What stays in the root filesystem.
  have hfile : ∀ {ε : Type} {c : EStateM ε Session PUnit},
      Keeps (Guarded (.tree rootfs) (.tree rootfs) s.session s.session.world.clear) c →
      Guarded ((after s.populated (c s.session)).area rootfs) (.tree rootfs) s.session ∅
          (after s.populated (c s.session)).session ∧
        s.populated ⊆ (after s.populated (c s.session)).populated := by
    intro ε c hc
    have hguarded := hc.endState (refl _ _ s.session)
    exact ⟨(hguarded.mono_area (tree_subset_trees mem_cons_self) fun _ h ↦ h).mono
      (Set.empty_subset _), List.Subset.refl _⟩
  cases e with
  | mount mount =>
    have hguarded := (applyMount_triple hroot hok.1 hok.2).endState
      (c := applyMount m depth rootfs mount) (Eq.refl s.session)
    refine ⟨hguarded.mono_area (trees_mono ?_) fun _ h ↦ h, subset_append_right _ _⟩
    exact cons_subset_cons rootfs (subset_append_left _ _)
  | writeRuntimeSpec structured marshals =>
    exact hfile (writeRuntimeSpecToRootfs_triple hroot (way_subset_clear hok))
  | injectHostCACerts sized bundle =>
    exact hfile (injectHostCACerts_triple hroot (way_subset_clear hok.1) (way_subset_clear hok.2))
  | injectToolboxBinary embedded =>
    exact hfile (injectToolboxBinary_triple hroot (way_subset_clear hok.1) (way_subset_clear hok.2))

theorem guarded_step {s₀ : Session} (h : Guarded (s.area rootfs) (.tree rootfs) s₀ ∅ s.session)
    (hok : s.Direct rootfs e) (hstep : s.step m depth rootfs e = some s') :
    Guarded (s'.area rootfs) (.tree rootfs) s₀ ∅ s'.session := by
  obtain ⟨-, ⟨⟩⟩ := Option.ite_none_left_eq_some.mp hstep
  obtain ⟨hguarded, hpopulated⟩ := guarded_perform hok
  refine trans (h.mono_area (trees_mono ?_) fun _ h ↦ h) hguarded
  exact cons_subset_cons rootfs hpopulated

/-- **A root filesystem is prepared in its own directory**, and in the sources that it is to
populate, if no links are in the way of its steps. -/
theorem confined_of_directPaths {events : List PrepareEvent}
    (hrun : Run (step m depth rootfs) (Direct rootfs) (init w₀) events s) :
    s.Confined rootfs w₀ := by
  have hguarded : Guarded (s.area rootfs) (.tree rootfs) (init w₀).session ∅ s.session :=
    hrun.invariant
      (I := fun s ↦ Guarded (s.area rootfs) (.tree rootfs) (init w₀).session ∅ s.session)
      (fun _ _ _ h hok hstep ↦ guarded_step h hok hstep)
      ((refl _ _ _).relax)
  have hmem : ∀ {p}, p ∈ s.area rootfs ↔ rootfs <+: p ∨ ∃ source ∈ s.populated, source <+: p := by
    intro p
    rw [area, mem_trees, exists_mem_cons_iff]
  refine ⟨fun p hp ↦ ?_, fun p hroot hsource ↦ ?_, fun p hp ↦ ?_⟩
  · rcases hguarded.safe.within.touched p hp with hin | hold
    · exact hmem.mp hin
    · exact absurd hold not_mem_nil
  · refine hguarded.safe.within.outside p fun hin ↦ ?_
    rcases hmem.mp hin with hpre | ⟨source, hsource', hpre⟩
    · exact hroot hpre
    · exact hsource source hsource' hpre
  · rcases hguarded.reads p hp with hin | hold
    · exact mem_tree.mp hin
    · exact absurd hold not_mem_nil

end Preparation

/-! ## Two preparations -/

/-- A host with a root filesystem `/r`, in which `l` is a link to `/e`, an empty directory `/v` and
a directory `/e` with a file. -/
def mountHost : World :=
  ⟨some (.dir [
    (['r'], .dir [(['l'], .symlink "/e".toList), (['d'], .dir [(['f'], .file 0)])]),
    (['v'], .dir []), (['e'], .dir [(['s'], .file 1)])]), 2, []⟩

def plainFiles : Medium := ⟨fun _ ↦ false, fun _ ↦ false⟩

/-- A volume that is populated from the image and mounted there, and the files that every root
filesystem gets. -/
theorem confined_of_directPaths_populated :
    ∃ s, Run (Preparation.step plainFiles 3 [['r']]) (Preparation.Direct [['r']]) (.init mountHost)
        [.mount ⟨"/v".toList, "/d".toList, true, .materialized⟩, .writeRuntimeSpec true true,
          .injectHostCACerts (fun _ ↦ false) true, .injectToolboxBinary true] s ∧
      s.Confined [['r']] mountHost := by
  refine Run.exists_of_exec (·.failed = false) (by decide +kernel) fun s hrun _ ↦ ?_
  exact Preparation.confined_of_directPaths hrun

/-- **A mount behind a link of the image, and a target with double dots.** The target `/l/x` of the
first mount lies behind the link `l` of the image, and the copy is made in `/e`. The second mount
replaces `/e` itself. -/
theorem not_confined_linkedMount :
    ∃ s, Run (Preparation.step plainFiles 3 [['r']]) anyStep (.init mountHost)
        [.mount ⟨"/v".toList, "/l/x".toList, false, .materialized⟩,
          .mount ⟨"/v".toList, "../e".toList, false, .materialized⟩] s ∧
      ¬s.Confined [['r']] mountHost := by
  refine Run.exists_of_exec (fun s ↦ [['e'], ['x']] ∈ s.session.world.touched ∧ s.populated = [])
    (by decide +kernel) fun s hrun ⟨htouched, hpopulated⟩ hconfined ↦ ?_
  rcases hconfined.touched _ htouched with hpre | ⟨source, hsource, -⟩
  · exact absurd hpre (by decide)
  · rw [hpopulated] at hsource
    exact absurd hsource not_mem_nil

end Gocracker
