import Gocracker.Container.Mounts
import Gocracker.Dockerfile.Copy

/-!
# The sources and targets of COPY and ADD

An instruction first collects its sources: it joins each argument to the root that it copies from,
or matches it against everything found there, and refuses what does not lie below the root by its
name. Then the sources are copied one by one, each to a target that depends on what is found at the
destination. Neither the way to a source nor that to a target is looked at.
-/

namespace Gocracker

open Machine Posix List Option

/-! ## Paths of the container -/

/-- A path of the container, which may be relative if the base image says so. -/
structure ContainerPath where
  rooted : Bool
  names : List Text

/-- A path in the working directory, which is the root directory if there is none. -/
def resolveContainerPath (workdir : Option ContainerPath) (path : Text) : ContainerPath :=
  if isAbs path then ⟨true, cleanRooted (components path)⟩
  else
    let base := workdir.getD ⟨true, []⟩
    let joined := base.names ++ components path
    ⟨base.rooted, if base.rooted then cleanRooted joined else cleanRelative joined⟩

/-- `rootfsPath` of a path that was cleaned before. -/
def ContainerPath.inRootfs (path : ContainerPath) (rootfs : Path) : Path :=
  if path.names = [] then rootfs else join rootfs path.names

/-! ## Sources -/

/-- A source in the context or in a stage, with what `Lstat` has said about it. -/
structure LocalSource where
  abs : Path
  rel : Path
  info : Kind

/-- A source to be downloaded: its name, whether the server sends it, whether it arrives as a whole
and with the right checksum. -/
structure RemoteSource where
  base : Text
  served : Bool
  complete : Bool
  verified : Bool

/-- A source on the host or in a stage, or one that is downloaded. -/
inductive TransferSource where
  | remote (src : RemoteSource)
  | local (src : LocalSource)

/-- An argument of the instruction. -/
inductive RawSource where
  | url (src : RemoteSource)
  | path (value : Text)

/-- Why a `COPY` or `ADD` fails. -/
inductive TransferError where
  | os (e : Errno)
  | badPattern
  | escapes (raw : Text)
  /-- Nothing matches a pattern. -/
  | notFound (pattern : Text)
  /-- Not found in the build context, or excluded by `.dockerignore`. -/
  | excluded (raw : Text)
  | checksumSource
  | download
  | checksumMismatch

/-- Where an instruction copies from and to. `included` and `verdict` are what `.dockerignore` and
`--exclude` say about a source, and about a place in a source; `extract` says that archives are
unpacked. -/
structure TransferSpec where
  srcRoot : Path
  fromContext : Bool
  srcs : List RawSource
  dst : Text
  options : CopyOptions
  extract : Bool
  checksum : Bool
  included : TransferSource → Verdict
  verdict : Path → Path → Verdict

def hasWildcards (value : Text) : Bool := value.any (· ∈ ['*', '?', '['])

def doubleStar : Text := ['*', '*']

def anySuffix {α ε : Type} (test : List α → Except ε Bool) : List α → Except ε Bool
  | [] => test []
  | x :: xs => do if ← test (x :: xs) then return true else anySuffix test xs

/-- A double star stands for any number of directories. -/
def matchTransferSegments (glob : Text → Text → Option Bool) :
    List Text → List Text → Except TransferError Bool
  | [], rel => .ok rel.isEmpty
  | p :: ps, rel =>
    if p = doubleStar then
      if ps = [] then .ok true else anySuffix (matchTransferSegments glob ps) rel
    else
      match rel with
      | [] => .ok false
      | r :: rs =>
        match glob p r with
        | none => .error .badPattern
        | some false => .ok false
        | some true => matchTransferSegments glob ps rs

/-- The names of a pattern, which is always taken from the root. -/
def patternSegments (pattern : Text) : List Text :=
  cleanComponents (if isAbs pattern then pattern.tail else pattern)

def liftErrno {α : Type} (c : Except Errno α) : Except TransferError α :=
  match c with
  | .ok a => .ok a
  | .error e => .error (.os e)

/-- The places that `filepath.WalkDir` comes to, relative to the place where it starts. -/
def walked (w : World) (place : Path) : List Path :=
  ((w.places place).map (·.1)).dedup.filter fun r ↦ Clean r ∧ w.kindAt (place ++ r) ≠ none

variable (glob : Text → Text → Option Bool) (w : World)

/-- All places below the root that a pattern matches. The search goes into directories only, and
into no links. -/
def globTransferPattern (root : Path)
    (pattern : Text) : Except TransferError (List Path) := do
  let segments := patternSegments pattern
  if segments = [] then return [root]
  let place ← liftErrno (w.resolve false root)
  let rels ← selectM (matchTransferSegments glob segments) (walked w place)
  if rels = [] then throw (.notFound pattern)
  return rels.map (root ++ ·)

def resolveCopySource (root : Path) (src : Text) : Path := rootfsPath root src

/-- The path from the root to something whose path begins with that of the root, and whose name does
not begin with two dots. -/
def relativeTo (root abs : Path) : Option Path :=
  if root <+: abs ∧ ¬(abs.drop root.length).head?.any (fun c ↦ dotdot <+: c) then
    some (abs.drop root.length)
  else none

/-- A source has to exist below the root. -/
def localSource (w : World) (root : Path) (raw : Text) (abs : Path) :
    Except TransferError LocalSource := do
  let info ← liftErrno (w.lstat abs)
  match relativeTo root abs with
  | none => throw (.escapes raw)
  | some rel => return ⟨abs, rel, info⟩

/-- A pattern stands for everything that it matches. -/
def expandLocalTransferSources (root : Path)
    (value : Text) : Except TransferError (List LocalSource) := do
  let paths ← if hasWildcards value then globTransferPattern glob w root value
    else pure [resolveCopySource root value]
  paths.mapM (localSource w root value)

variable (spec : TransferSpec)

/-- What is ignored is left out. -/
def TransferSpec.kept (sources : List TransferSource) :
    Except TransferError (List TransferSource) :=
  selectM (fun src ↦
    match spec.included src with
    | .keep => .ok true
    | .skip => .ok false
    | .fail => .error .badPattern) sources

/-- The sources that one argument stands for. One of several patterns may match nothing. -/
def collectArgument :
    RawSource → Except TransferError (List TransferSource)
  | .url src => spec.kept [.remote src]
  | .path value => do
    match expandLocalTransferSources glob w spec.srcRoot value with
    | .error e => if hasWildcards value ∧ 1 < spec.srcs.length then return [] else throw e
    | .ok sources =>
      let kept ← spec.kept (sources.map .local)
      if kept.isEmpty ∧ hasWildcards value = false then throw (.excluded value)
      return kept

/-- A checksum is for one download and nothing else. -/
def collectTransferSources :
    Except TransferError (List TransferSource) := do
  let sources := (← spec.srcs.mapM (collectArgument glob w spec)).flatten
  match spec.checksum, sources with
  | false, _ => return sources
  | true, [.remote src] => return [.remote src]
  | true, _ => throw .checksumSource

/-- The destination is meant as a directory. -/
def dstIsDirHint (sources : List TransferSource) : Bool :=
  decide (1 < sources.length) || spec.dst.getLast? = some '/' || spec.dst = dot ||
    spec.dst = dotdot || spec.options.parents

/-! ## Targets -/

/-- The directory that `resolveFileTarget` makes, if it does, and the target. -/
def fileTarget (w : World) (dstAbs : Path) (dirHint : Bool) (base : List Text) :
    Option Path × Path :=
  if dirHint then (some dstAbs, join dstAbs base)
  else
    match w.stat dstAbs with
    | .ok .dir => (none, join dstAbs base)
    | _ => (some dstAbs.dropLast, dstAbs)

/-- The same for `resolveTransferTarget`. -/
def transferTarget (w : World) (opts : CopyOptions) (dstAbs : Path) (dirHint : Bool)
    (base rel : List Text) : Option Path × Path :=
  if opts.parents = false then fileTarget w dstAbs dirHint base
  else if rel = [] then fileTarget w dstAbs true base
  else (some (join dstAbs rel).dropLast, join dstAbs rel)

/-- The target of a source. Its directory is made if need be. -/
def resolveTransferTarget (opts : CopyOptions) (dstAbs : Path) (dirHint : Bool)
    (base rel : List Text) : FileM Path := do
  let target ← ask fun w ↦ .ok (transferTarget w opts dstAbs dirHint base rel)
  match target.1 with
  | some dir => act (mkdirAll dir.reverse)
  | none => pure ⟨⟩
  return target.2

abbrev TransferM := EStateM TransferError Session

def TransferM.os {α : Type} (c : FileM α) : TransferM α := EStateM.adaptExcept .os c

/-- The file is written before its checksum is known, and removed if that is wrong. -/
def downloadToPath (depth : ℕ) (opts : CopyOptions) (checksum : Bool) (src : RemoteSource)
    (target : Path) : TransferM PUnit := do
  if src.served = false then throw .download
  else
    TransferM.os do
      act (mkdirAll target.dropLast.reverse)
      act (sys (·.openTrunc target))
    if src.complete = false then throw .download
    else if checksum = true ∧ src.verified = false then
      TransferM.os (attempt (act (sys (·.remove target))))
      throw .checksumMismatch
    else TransferM.os (applyCopyAdjustments depth opts target)

def RemoteSource.rel (src : RemoteSource) : List Text := cleanComponents src.base

def transferRemote (depth : ℕ) (spec : TransferSpec) (dstAbs : Path) (dirHint : Bool)
    (src : RemoteSource) : TransferM PUnit := do
  let target ← TransferM.os (resolveTransferTarget spec.options dstAbs dirHint [src.base] src.rel)
  downloadToPath depth spec.options spec.checksum src target

/-- A source that is no archive. -/
def transferLocal (m : Storage) (depth : ℕ) (spec : TransferSpec) (dstAbs : Path) (dirHint : Bool)
    (src : LocalSource) : TransferM PUnit :=
  if src.info = .dir then
    TransferM.os (copyDirectorySource m depth spec.options (spec.verdict src.rel) src.abs src.rel
      dstAbs)
  else TransferM.os do
    let target ← resolveTransferTarget spec.options dstAbs dirHint (baseName src.abs) src.rel
    copyPathWithOptions m depth spec.options src.abs target

/-- A file that cannot be opened is no archive. `archive` says of a file that it is one, compressed
or not. -/
def isLocalArchivePath (archive : ℕ → Bool) (path : Path) : FileM Bool := fun s ↦
  match openRead path s with
  | .ok (.file ino) s' => .ok (archive ino) s'
  | .ok _ s' | .error _ s' => .ok false s'

/-- The source is to be unpacked. A file is only opened to see this if it is a regular one of the
context, and archives are to be unpacked at all. -/
def shouldExtract (m : Storage) (archive : ℕ → Bool) (spec : TransferSpec) (src : LocalSource) :
    FileM Bool :=
  match src.info with
  | .file ino =>
    if spec.extract = true ∧ spec.fromContext = true ∧ m.special ino = false then
      isLocalArchivePath archive src.abs
    else pure false
  | _ => pure false

/-! ## What the collection of sources establishes -/

/-- The path of a source begins with that of the root. Nothing is said about links. -/
structure LocalSource.Named (root : Path) (src : LocalSource) : Prop where
  clean : Clean src.abs
  inside : root <+: src.abs

section Collect

variable {glob : Text → Text → Option Bool} {w : World} {root abs : Path} {value pattern : Text}
  {spec : TransferSpec} {src : LocalSource}

theorem named_of_localSource (hclean : Clean abs) (h : localSource w root value abs = .ok src) :
    src.Named root := by
  obtain ⟨info, -, hrel⟩ := bind_eq_ok.mp h
  split at hrel
  · nomatch hrel
  rename_i rel hrelative
  obtain ⟨⟩ := hrel
  obtain ⟨hinside, hrelative⟩ := ite_none_right_eq_some.mp hrelative
  exact ⟨hclean, hinside.1⟩

theorem clean_of_globTransferPattern (hroot : Clean root) {paths : List Path}
    (h : globTransferPattern glob w root pattern = .ok paths) (hmem : abs ∈ paths) : Clean abs := by
  rw [globTransferPattern] at h
  split at h
  · obtain ⟨⟩ := h
    rw [mem_singleton.mp hmem]
    exact hroot
  obtain ⟨place, -, h⟩ := bind_eq_ok.mp h
  obtain ⟨rels, hrels, h⟩ := bind_eq_ok.mp h
  obtain ⟨-, ⟨⟩⟩ := unless_throw_eq_ok.mp h
  obtain ⟨rel, hrel, rfl⟩ := mem_map.mp hmem
  have hwalked := (mem_filter.mp (subset_of_selectM hrels hrel)).2
  exact hroot.append (of_decide_eq_true hwalked).1

theorem named_of_expandLocalTransferSources (hroot : Clean root) {sources : List LocalSource}
    (h : expandLocalTransferSources glob w root value = .ok sources) (hmem : src ∈ sources) :
    src.Named root := by
  rw [expandLocalTransferSources] at h
  split at h
  · obtain ⟨paths, hpaths, hsources⟩ := bind_eq_ok.mp h
    obtain ⟨abs, habs, hsrc⟩ := exists_of_mem_mapM hsources hmem
    exact named_of_localSource (clean_of_globTransferPattern hroot hpaths habs) hsrc
  · obtain ⟨abs, habs, hsrc⟩ := exists_of_mem_mapM h hmem
    rw [mem_singleton.mp habs] at hsrc
    exact named_of_localSource (clean_rootfsPath hroot value) hsrc

variable {sources : List TransferSource}

theorem named_of_collectArgument (hroot : Clean spec.srcRoot) {raw : RawSource}
    (h : collectArgument glob w spec raw = .ok sources)
    (hmem : .local src ∈ sources) : src.Named spec.srcRoot := by
  cases raw with
  | url remote =>
    have hremote := subset_of_selectM h hmem
    nomatch hremote
  | path value =>
    rw [collectArgument] at h
    split at h
    · split at h
      · obtain ⟨⟩ := h
        exact absurd hmem not_mem_nil
      · nomatch h
    · rename_i locals hlocals
      obtain ⟨kept, hkept, h⟩ := bind_eq_ok.mp h
      obtain ⟨-, ⟨⟩⟩ := unless_throw_eq_ok.mp h
      obtain ⟨src', hsrc', heq⟩ := mem_map.mp (subset_of_selectM hkept hmem)
      obtain rfl := TransferSource.local.inj heq
      exact named_of_expandLocalTransferSources hroot hlocals hsrc'

/-- **The check of the sources is sound, as far as names go.** -/
theorem named_of_collectTransferSources (hroot : Clean spec.srcRoot)
    (h : collectTransferSources glob w spec = .ok sources)
    (hmem : .local src ∈ sources) : src.Named spec.srcRoot := by
  obtain ⟨lists, hlists, h⟩ := bind_eq_ok.mp h
  have hall : .local src ∈ lists.flatten → src.Named spec.srcRoot := by
    intro hflat
    obtain ⟨list, hlist, hsrc⟩ := mem_flatten.mp hflat
    obtain ⟨raw, -, hraw⟩ := exists_of_mem_mapM hlists hlist
    exact named_of_collectArgument hroot hraw hsrc
  dsimp only at h
  split at h
  · obtain ⟨⟩ := h
    exact hall hmem
  · obtain ⟨⟩ := h
    nomatch hmem
  · nomatch h

end Collect

/-! ## The condition -/

variable (opts : CopyOptions) (w : World) (src place dst : Path)

/-- The place that a source leads to, or its own path if it leads nowhere. -/
def placeOf : Path :=
  match w.resolve false src with
  | .ok p => p
  | .error _ => src

/-- No link is in the way of `copyPathWithOptions`, for a source that leads to `place`. -/
def PathClear : Prop :=
  ∀ x ∈ w.places place,
    (opts.preserveOwnership = true →
      w.linkAt (dst ++ x.1) = none ∧ w.linkAt (dst ++ baseName src ++ x.1) = none) ∧
    (opts.preserveOwnership = false → x.2.isLink = false → w.linkAt (dst ++ x.1) = none)
deriving Decidable

/-- No link is in the way of `copyDirectorySource`. -/
def WalkClear : Prop :=
  ∀ x ∈ w.places place,
    (x.2 = .dir → w.linkAt (dst ++ x.1) = none) ∧
    (x.2 ≠ .dir → PathClear opts w (src ++ x.1) (place ++ x.1) (dst ++ x.1))
deriving Decidable

section Clear

variable {opts : CopyOptions} {w : World} {src place dst : Path}

theorem PathClear.pathSpots_subset (h : PathClear opts w src place dst) :
    pathSpots w src dst place opts ⊆ w.clear := by
  intro q hq
  rw [pathSpots] at hq
  split_ifs at hq with hpreserve
  · have hplace : ∀ r, w.kindAt (place ++ r) ≠ none →
        w.linkAt (dst ++ r) = none ∧ w.linkAt (dst ++ baseName src ++ r) = none := by
      intro r hr
      obtain ⟨kind, hkind⟩ := ne_none_iff_exists'.mp hr
      exact (h _ (World.mem_places hkind)).1 hpreserve
    rcases hq with ⟨r, hr, rfl⟩ | ⟨r, hr, rfl⟩
    · exact (hplace r hr).1
    · exact (hplace r hr).2
  · obtain ⟨r, kind, hkind, hlink, rfl⟩ := hq
    exact (h _ (World.mem_places hkind)).2 (Bool.eq_false_iff.mpr hpreserve) hlink

theorem WalkClear.walkSpots_subset (h : WalkClear opts w src place dst) :
    walkSpots w src dst place opts ⊆ w.clear := by
  rintro q (⟨r, hkind, rfl⟩ | ⟨r, kind, hkind, hdir, hq⟩)
  · exact (h _ (World.mem_places hkind)).1 rfl
  · exact ((h _ (World.mem_places hkind)).2 hdir).pathSpots_subset hq

end Clear

/-- The directory that is made for a target and the target lie in the root filesystem, and no link
is on the way to them. -/
def Placed (rootfs : Path) (w : World) (target : Option Path × Path) : Prop :=
  (∀ dir ∈ target.1, rootfs <+: dir ∧ Unlinked w.linkAt [] dir) ∧
    rootfs <+: target.2 ∧ Unlinked w.linkAt [] target.2.dropLast
deriving Decidable

/-- A source that is apart from the root filesystem. No link is on the way to it, or it leads into
the directory that it is taken from, and would lead there without the root filesystem. -/
@[mk_iff]
structure Separate (root rootfs : Path) (w : World) (src : Path) : Prop where
  leads : Unlinked w.linkAt [] src.dropLast ∨
    root <+: placeOf w src ∧ (w.put rootfs none).resolve false src = .ok (placeOf w src)
  apart : ¬ rootfs <+: placeOf w src
  apart' : ¬ placeOf w src <+: rootfs

instance (root rootfs : Path) (w : World) (src : Path) : Decidable (Separate root rootfs w src) :=
  decidable_of_iff _ (separate_iff root rootfs w src).symm

section

variable {root rootfs src : Path} {w : World}

theorem placeOf_of_unlinked (hclean : Clean src) (h : Unlinked w.linkAt [] src.dropLast) :
    placeOf w src = src := by
  have hclear : Clear (way src.dropLast) w := fun q hq ↦ unlinked_iff_way.mp h q hq
  rw [placeOf]
  split
  · rename_i hp
    exact (hclear.straight_parent hclean (subset_refl _)).eq_of_resolve hp
  · rfl

theorem Separate.aside (h : Separate root rootfs w src) (hclean : Clean src) :
    Aside (.tree rootfs) w src (placeOf w src) := by
  rcases h.leads with hunlinked | ⟨-, hleads⟩
  · have hplace := placeOf_of_unlinked hclean hunlinked
    have haside : Aside (.tree rootfs) w src src :=
      .of_apart hclean hunlinked (hplace ▸ h.apart) (hplace ▸ h.apart')
    rwa [hplace]
  · exact .of_resolve hclean hleads h.apart h.apart'

theorem Separate.mem (h : Separate root rootfs w src) (hclean : Clean src)
    (hinside : root <+: src) :
    placeOf w src ∈ Area.tree root := by
  rcases h.leads with hunlinked | ⟨hpre, -⟩
  · rw [placeOf_of_unlinked hclean hunlinked]
    exact Area.mem_tree.mpr hinside
  · exact Area.mem_tree.mpr hpre

end

variable (w : World) (spec : TransferSpec) (dstAbs : Path) (dirHint : Bool)

def remoteTarget
    (src : RemoteSource) : Option Path × Path :=
  transferTarget w spec.options dstAbs dirHint [src.base] src.rel

/-- The target of a source that is no directory. -/
def localTarget
    (src : LocalSource) : Option Path × Path :=
  transferTarget w spec.options dstAbs dirHint (baseName src.abs) src.rel

variable (rootfs : Path) (w : World) (spec : TransferSpec) (dstAbs : Path) (dirHint : Bool)

/-- No link is in the way of a download. -/
def RemoteSource.Direct (src : RemoteSource) : Prop :=
  Placed rootfs w (remoteTarget w spec dstAbs dirHint src) ∧
    w.linkAt (remoteTarget w spec dstAbs dirHint src).2 = none

/-- No link is in the way of a copy. -/
def LocalSource.Direct (src : LocalSource) : Prop :=
  if src.info = .dir then
    rootfs <+: rootTarget spec.options src.rel dstAbs ∧
      Unlinked w.linkAt [] (rootTarget spec.options src.rel dstAbs) ∧
      WalkClear spec.options w src.abs (placeOf w src.abs) (rootTarget spec.options src.rel dstAbs)
  else
    Placed rootfs w (localTarget w spec dstAbs dirHint src) ∧
      PathClear spec.options w src.abs (placeOf w src.abs) (localTarget w spec dstAbs dirHint src).2

instance RemoteSource.decidableDirect (rootfs : Path) (w : World) (spec : TransferSpec)
    (dstAbs : Path) (dirHint : Bool) (src : RemoteSource) :
    Decidable (src.Direct rootfs w spec dstAbs dirHint) := inferInstanceAs (Decidable (_ ∧ _))

instance LocalSource.decidableDirect (rootfs : Path) (w : World) (spec : TransferSpec)
    (dstAbs : Path) (dirHint : Bool) (src : LocalSource) :
    Decidable (src.Direct rootfs w spec dstAbs dirHint) :=
  if hdir : src.info = .dir then
    decidable_of_iff _ (by rw [LocalSource.Direct, if_pos hdir])
  else
    decidable_of_iff _ (by rw [LocalSource.Direct, if_neg hdir])

/-! ## Transfers -/

section Transfers

variable {rootfs dstAbs : Path} {B : Area} {s₁ : Session} {spec : TransferSpec}
  {opts : CopyOptions} {dirHint : Bool} {base rel : List Text} {m : Storage} {depth : ℕ}

theorem clean_inRootfs (hclean : Clean rootfs) (path : ContainerPath) :
    Clean (path.inRootfs rootfs) := by
  rw [ContainerPath.inRootfs]
  split
  · exact hclean
  · exact clean_join _ _

theorem clean_fileTarget {w : World} (hclean : Clean dstAbs) :
    (∀ dir ∈ (fileTarget w dstAbs dirHint base).1, Clean dir) ∧
      Clean (fileTarget w dstAbs dirHint base).2 := by
  rw [fileTarget]
  split
  · refine ⟨fun dir hdir ↦ ?_, clean_join _ _⟩
    rwa [← mem_some.mp hdir]
  split
  · exact ⟨nofun, clean_join _ _⟩
  · refine ⟨fun dir hdir ↦ ?_, hclean⟩
    rw [← mem_some.mp hdir]
    exact hclean.dropLast

theorem clean_transferTarget {w : World} (hclean : Clean dstAbs) :
    (∀ dir ∈ (transferTarget w opts dstAbs dirHint base rel).1, Clean dir) ∧
      Clean (transferTarget w opts dstAbs dirHint base rel).2 := by
  rw [transferTarget]
  split
  · exact clean_fileTarget hclean
  split
  · exact clean_fileTarget hclean
  · refine ⟨fun dir hdir ↦ ?_, clean_join _ _⟩
    rw [← mem_some.mp hdir]
    exact (clean_join _ _).dropLast

theorem resolveTransferTarget_triple (hroot : Rooted rootfs s₁.world) (hclean : Clean dstAbs)
    (hplaced : Placed rootfs s₁.world (transferTarget s₁.world opts dstAbs dirHint base rel)) :
    Triple (· = s₁) (resolveTransferTarget opts dstAbs dirHint base rel)
      (fun target s ↦ target = (transferTarget s₁.world opts dstAbs dirHint base rel).2 ∧
        Guarded (.tree rootfs) B s₁ s₁.world.clear s)
      (Guarded (.tree rootfs) B s₁ s₁.world.clear) := by
  have hstart := Guarded.refl (.tree rootfs) B s₁
  have hdirs : ∀ dir ∈ (transferTarget s₁.world opts dstAbs dirHint base rel).1, Clean dir :=
    (clean_transferTarget hclean).1
  rw [resolveTransferTarget]
  refine .bind (ask_eq_triple.weaken_error fun _ h ↦ h ▸ hstart) fun target ↦ ?_
  refine .fact fun htarget ↦ ?_
  obtain ⟨⟩ := htarget
  cases hdir : (transferTarget s₁.world opts dstAbs dirHint base rel).1 with
  | none => exact .pure fun _ h ↦ ⟨rfl, h ▸ hstart⟩
  | some dir =>
    obtain ⟨hpre, hunlinked⟩ := hplaced.1 dir hdir
    have hdst := hroot.destination (hdirs dir hdir) hpre
    exact .bind ((hdst.mkdirAll_keeps (way_subset_clear hunlinked)).at_state hstart)
      fun _ ↦ .pure fun _ h ↦ ⟨rfl, h⟩

variable {src : RemoteSource}

theorem downloadToPath_triple {checksum : Bool} {target : Path} {L : Set Path}
    (hdst : Destination (.tree rootfs) s₁.world target) (hway : way target ⊆ L) :
    Keeps (Guarded (.tree rootfs) B s₁ L) (downloadToPath depth opts checksum src target) := by
  have hparent := (way_dropLast_subset target).trans hway
  have hadjust : Keeps (Guarded (.tree rootfs) B s₁ L)
      (TransferM.os (applyCopyAdjustments depth opts target)) :=
    .adaptExcept (applyCopyAdjustments_triple hdst.clean hdst.mem hparent)
  have hremove : Keeps (Guarded (.tree rootfs) B s₁ L) (act (sys (·.remove target))) :=
    hdst.remove_keeps hparent
  rw [downloadToPath]
  split
  · exact .raise
  refine .bind (.adaptExcept (.bind (mkdirParent_triple hdst hway) fun _ ↦
    hdst.create_keeps hway)) fun _ ↦ ?_
  split
  · exact .raise
  split
  · exact .bind (.adaptExcept (.attempt hremove)) fun _ ↦ .raise
  · exact hadjust

/-- **A download** to a target that no link is in the way of. -/
theorem transferRemote_triple (hroot : Rooted rootfs s₁.world)
    (hclean : Clean dstAbs) (h : src.Direct rootfs s₁.world spec dstAbs dirHint) :
    Leads (· = s₁) (transferRemote depth spec dstAbs dirHint src)
      (Guarded (.tree rootfs) B s₁ ∅) := by
  obtain ⟨hplaced, hlink⟩ := h
  have hdst : Destination (.tree rootfs) s₁.world
      (remoteTarget s₁.world spec dstAbs dirHint src).2 :=
    hroot.destination (clean_transferTarget hclean).2 hplaced.2.1
  rw [transferRemote]
  refine .bind (.adaptExcept ((resolveTransferTarget_triple hroot hclean
    hplaced).weaken_error fun _ h ↦ h.relax)) fun target ↦ ?_
  apply Triple.of_forall
  rintro s ⟨rfl, hs⟩
  exact ((downloadToPath_triple hdst (way_subset hlink (way_subset_clear hplaced.2.2))).at_state
    hs).weaken_leads fun _ h ↦ h.relax

variable {src : LocalSource}

/-- **A copy** to a target that no link is in the way of, from a source in the directory that it is
taken from. -/
theorem transferLocal_triple (hcp : CpConfined m.cp) (hroot : Rooted rootfs s₁.world)
    (hclean : Clean dstAbs) (hnamed : src.Named spec.srcRoot)
    (hseparate : Separate spec.srcRoot rootfs s₁.world src.abs)
    (h : src.Direct rootfs s₁.world spec dstAbs dirHint) :
    Leads (· = s₁) (transferLocal m depth spec dstAbs dirHint src)
      (Guarded (.tree rootfs) (.tree spec.srcRoot) s₁ ∅) := by
  have hstart := Guarded.refl (.tree rootfs) (.tree spec.srcRoot) s₁
  have hB := hseparate.mem hnamed.clean hnamed.inside
  have haside := hseparate.aside hnamed.clean
  rw [LocalSource.Direct] at h
  rw [transferLocal]
  split_ifs at h with hdir
  · obtain ⟨hpre, hunlinked, hwalk⟩ := h
    have hcleanRoot : Clean (rootTarget spec.options src.rel dstAbs) := by
      rw [rootTarget]
      split
      · exact clean_join _ _
      · exact hclean
    rw [if_pos hdir]
    exact .adaptExcept ((copyDirectorySource_triple hcp hB haside
      (hroot.destination hcleanRoot hpre) (way_subset_clear hunlinked)
      hwalk.walkSpots_subset).at_state hstart |>.weaken_leads fun _ h ↦ h.relax)
  · obtain ⟨hplaced, hpath⟩ := h
    have hdst : Destination (.tree rootfs) s₁.world
        (localTarget s₁.world spec dstAbs dirHint src).2 :=
      hroot.destination (clean_transferTarget hclean).2 hplaced.2.1
    rw [if_neg hdir]
    refine .adaptExcept (.bind ((resolveTransferTarget_triple hroot hclean
      hplaced).weaken_error fun _ h ↦ h.relax) fun target ↦ ?_)
    apply Triple.of_forall
    rintro s ⟨rfl, hs⟩
    exact (copyPathWithOptions_triple hcp hB haside hdst (way_subset_clear hplaced.2.2)
      hpath.pathSpots_subset).at_state hs |>.weaken_leads fun _ h ↦ h.relax

theorem shouldExtract_triple {archive : ℕ → Bool} {A : Area} {place : Path}
    (hB : place ∈ B) (haside : Aside A s₁.world src.abs place)
    (hlink : src.info.isLink = false → s₁.world.linkAt place = none) :
    Triple (· = s₁) (shouldExtract m archive spec src)
      (fun _ s ↦ s.world = s₁.world ∧ ∀ p ∈ s.reads, p ∈ B ∨ p ∈ s₁.reads) fun _ ↦ False := by
  have hidle : ∀ s, s = s₁ → s.world = s₁.world ∧ ∀ p ∈ s.reads, p ∈ B ∨ p ∈ s₁.reads := by
    rintro s rfl
    exact ⟨rfl, fun _ hp ↦ .inr hp⟩
  rw [shouldExtract]
  split
  · rename_i ino hinfo
    split
    · rintro s rfl
      have hfile : s.world.linkAt place = none := hlink (by rw [hinfo]; rfl)
      rw [isLocalArchivePath, openRead, readAt]
      cases hres : s.world.resolve true src.abs with
      | error e => exact hidle s rfl
      | ok p =>
        have hmem : p ∈ B := by
          rwa [haside.eq_of_resolve_true (Guarded.refl A B s) hfile hres]
        have hread : ∀ q ∈ p :: s.reads, q ∈ B ∨ q ∈ s.reads := by
          intro q hq
          rcases mem_cons.mp hq with rfl | hold
          · exact .inl hmem
          · exact .inr hold
        dsimp only
        cases s.world.opened p with
        | error e => exact hidle s rfl
        | ok kind => cases kind <;> exact ⟨rfl, hread⟩
    · exact .pure hidle
  · exact .pure hidle

end Transfers

end Gocracker
