import Gocracker.Container.CopyTree
import Gocracker.Posix.Places

/-!
# Copying for COPY and ADD

A file is copied by `copyPath`, or by `cp -a` where owners are to be kept. A directory is walked,
and what it holds is copied place by place. Afterwards the owner and the mode of everything at the
destination may be changed.

`cp` is a program of the host, of which only the call is part of the builder. What it does is a
parameter, and what is asked of it is stated: `CpConfined`.

## What has to be clear

A copy goes to the places in the destination that the source has, its *spots*. If there are no links
at the spots, none of them is followed. A link that is copied is put at a spot below which the
source has nothing, so that it is in the way of no other copy.
-/

namespace Gocracker

open Machine Posix List World

/-! ## Walking a directory -/

/-- `filepath.Walk` from an object of the given kind on. `visit` says whether to go on into a
directory. -/
def walk (list : Path → FileM (List Dirent)) (visit : Path → Kind → FileM Bool) :
    ℕ → Path → Kind → FileM PUnit
  | 0, _, _ => throw .enametoolong
  | depth + 1, path, info => do
    if info = .dir then
      let entries ← list path
      if ← visit path info then
        entries.forM fun entry ↦ do
          let file := join path [entry.name]
          let info ← ask (·.lstat file)
          walk list visit depth file info
    else
      let _ ← visit path info

/-! ## Owners and modes -/

/-- The options of an instruction, as far as they decide what is done with files. -/
structure CopyOptions where
  preserveOwnership : Bool
  chown : Bool
  chmod : Bool
  parents : Bool

def lchown (path : Path) : FileM PUnit := act (sys (·.setAttr false path))

def chmod (path : Path) : FileM PUnit := act (sys (·.setAttr true path))

/-- Owner and mode as the instruction asks. Links keep their mode. -/
def applyPathAdjustments (opts : CopyOptions) (path : Path) (info : Kind) : FileM PUnit := do
  if opts.chown then lchown path
  if opts.chmod && !info.isLink then chmod path

/-- The same for a directory with everything below it. -/
def applyCopyAdjustments (depth : ℕ) (opts : CopyOptions) (path : Path) : FileM PUnit := do
  if opts.chown || opts.chmod then
    let info ← ask (·.lstat path)
    walk (fun dir ↦ ask (·.listDir dir))
      (fun current info ↦ do applyPathAdjustments opts current info; return true) depth path info

/-! ## Copying one object -/

/-- What the copies rest on: the contents of files, and what the host's `cp -a` does when it is
given a source and a destination. -/
structure Storage extends Medium where
  cp : Path → Path → FileM PUnit

/-- A copy file by file. Links are copied as links. -/
def copyPath (m : Medium) : ℕ → Path → Path → FileM PUnit
  | 0, _, _ => throw .enametoolong
  | depth + 1, src, dst => do
    match ← ask (·.lstat src) with
    | .dir =>
      act (mkdirAll dst.reverse)
      let entries ← readDir src
      entries.forM fun entry ↦ copyPath m depth (join src [entry.name]) (join dst [entry.name])
    | .symlink _ =>
      let link ← readLink src
      act (mkdirAll dst.dropLast.reverse)
      attempt (act (sys (·.removeAll dst)))
      act (sys (·.symlink link dst))
    | .file _ =>
      let source ← openRead src
      act (mkdirAll dst.dropLast.reverse)
      act (sys (·.openTrunc dst))
      m.copy source

/-- The name under which something is copied into a directory. -/
def baseName (path : Path) : List Text := path.getLast?.toList

/-- The host's `cp` keeps owners and modes. -/
def copyPathPreserveMetadata (m : Storage) (src dst : Path) : FileM PUnit := do
  act (mkdirAll dst.dropLast.reverse)
  m.cp src dst

variable (m : Storage) (depth : ℕ) (opts : CopyOptions)

/-- Which of the two is used, and what is adjusted afterwards. -/
def copyPathWithOptions (src dst : Path) :
    FileM PUnit := do
  if opts.preserveOwnership then copyPathPreserveMetadata m src dst
  else copyPath m.toMedium depth src dst
  applyCopyAdjustments depth opts dst

/-! ## Copying a directory -/

variable (opts : CopyOptions)

/-- A directory like the source. -/
def mkdirFromSource (src dst : Path) : FileM PUnit := do
  let info ← ask (·.lstat src)
  act (mkdirAll dst.reverse)
  if opts.preserveOwnership then lchown dst
  applyPathAdjustments opts dst info

/-- The destination is made with all directories on the way. -/
def ensureDestinationDir (path : Path) : FileM PUnit := do
  match ← ask fun w ↦ .ok (w.stat path) with
  | .ok .dir => pure ⟨⟩
  | .ok _ => throw .enotdir
  | .error _ => act (mkdirAll path.reverse)

/-- What `.dockerignore` and `--exclude` say about a path. -/
inductive Verdict where
  | keep
  | skip
  /-- A pattern could not be matched. -/
  | fail
  deriving DecidableEq

/-- What the walk of `copyDirectorySource` does at a place. -/
def visitSource (verdict : Path → Verdict)
    (src rootTarget path : Path) (info : Kind) : FileM Bool := do
  let rel := path.drop src.length
  if rel = [] then pure true
  else
    match verdict rel with
    | .fail => throw .einval
    | .skip => pure false
    | .keep =>
      let targetPath := join rootTarget rel
      if info = .dir then mkdirFromSource opts path targetPath
      else copyPathWithOptions m depth opts path targetPath
      pure true

/-- Where the contents of a directory go to. -/
def rootTarget (rel dstDir : Path) : Path :=
  if opts.parents ∧ rel ≠ [] then join dstDir rel else dstDir

/-- Make the directory that the contents go to. -/
def makeRootTarget (src rel dstDir : Path) : FileM PUnit :=
  if opts.parents then
    if rel = [] then ensureDestinationDir dstDir else mkdirFromSource opts src (join dstDir rel)
  else do
    match ← ask fun w ↦ .ok (w.lstat dstDir) with
    | .ok .dir => pure ⟨⟩
    | .ok _ => throw .enotdir
    | .error .enoent => mkdirFromSource opts src dstDir
    | .error e => throw e

/-- The content of a directory, without what is ignored. -/
def copyDirectorySource (verdict : Path → Verdict)
    (src rel dstDir : Path) : FileM PUnit := do
  makeRootTarget opts src rel dstDir
  let info ← ask (·.lstat src)
  walk readDir (visitSource m depth opts verdict src (rootTarget opts rel dstDir)) depth src info

/-! ## Spots -/

section Spots

variable (w : World) (src dst : Path)

/-- The places that `cp -a` goes to, if the source is at `src` and it copies to `dst`. -/
def cpSpots : Set Path := {q | ∃ r, w.kindAt (src ++ r) ≠ none ∧ q = dst ++ r}

/-- The places that `copyPath` follows: it does not matter what is in the place of a link. -/
def plainSpots : Set Path :=
  {q | ∃ r kind, w.kindAt (src ++ r) = some kind ∧ kind.isLink = false ∧ q = dst ++ r}

/-- The places that matter to `copyPathWithOptions`, if the source leads to `place`. -/
def pathSpots (place : Path) (opts : CopyOptions) : Set Path :=
  if opts.preserveOwnership then cpSpots w place dst ∪ cpSpots w place (dst ++ baseName src)
  else plainSpots w place dst

/-- The places that matter to `copyDirectorySource`. -/
def walkSpots (place : Path) (opts : CopyOptions) : Set Path :=
  {q | ∃ r, w.kindAt (place ++ r) = some .dir ∧ q = dst ++ r} ∪
    {q | ∃ r kind, w.kindAt (place ++ r) = some kind ∧ kind ≠ .dir ∧
      q ∈ pathSpots w (src ++ r) (dst ++ r) (place ++ r) opts}

end Spots

variable {A B : Area} {s₁ : Session} {L : Set Path} {w : World}
  {src place dst path : Path} {opts : CopyOptions} {m : Storage} {depth : ℕ}

/-! ## Owners and modes -/

section

variable (hclean : Clean path)
include hclean

theorem lchown_triple (hmem : path ∈ A) (hway : way path.dropLast ⊆ L) :
    Keeps (Guarded A B s₁ L) (lchown path) :=
  act_triple (sys_setAttr_triple (fun _ hw ↦ hw.clear.straight_parent hclean hway) hmem)

theorem chmod_triple (hmem : path ∈ A) (hway : way path ⊆ L) :
    Keeps (Guarded A B s₁ L) (chmod path) :=
  act_triple (sys_setAttr_triple (fun _ hw ↦ hw.clear.straight hclean hway true) hmem)

/-- The mode of a link is not changed, so that only what is no link has to be clear. -/
theorem applyPathAdjustments_triple {info : Kind} (hmem : path ∈ A)
    (hway : way path.dropLast ⊆ L) (hself : info.isLink = false → way path ⊆ L) :
    Keeps (Guarded A B s₁ L) (applyPathAdjustments opts path info) := by
  have hmode : Keeps (Guarded A B s₁ L)
      (if (opts.chmod && !info.isLink) = true then chmod path else pure ⟨⟩) := by
    split_ifs with hmode
    · have hlink : info.isLink = false := by
        rw [Bool.and_eq_true, Bool.not_eq_true'] at hmode
        exact hmode.2
      exact chmod_triple hclean hmem (hself hlink)
    · exact .skip
  rw [applyPathAdjustments]
  split
  · exact .bind (lchown_triple hclean hmem hway) fun _ ↦ hmode
  · exact hmode

/-- After `Lstat` an object that is no link counts as clear, if it is reached without links. -/
theorem lstat_bind_triple {c : Kind → FileM PUnit} (hway : way path.dropLast ⊆ L)
    (hc : ∀ info M, way path.dropLast ⊆ M → (info.isLink = false → path ∈ M) →
      Keeps (Guarded A B s₁ M) (c info)) : Keeps (Guarded A B s₁ L) (ask (·.lstat path) >>= c) := by
  refine .bind ask_triple fun info ↦ ?_
  apply Triple.of_forall
  rintro s ⟨hs, hstat⟩
  by_cases hlink : info.isLink = false
  · have hkind := (hs.safe.clear.straight_parent hclean hway).kindAt_of_statAt hstat
    refine (hc info (insert path L) (hway.trans (Set.subset_insert _ _)) fun _ ↦
      Set.mem_insert _ _).weaken (fun _ h ↦ ?_) (fun _ _ h ↦ h.mono (Set.subset_insert _ _))
      fun _ h ↦ h.mono (Set.subset_insert _ _)
    exact h ▸ hs.insert (linkAt_eq_none_of_kindAt hkind hlink)
  · exact (hc info L hway fun h ↦ absurd h hlink).at_state hs

/-- Changing owners and modes, from an object on that is reached without links. -/
theorem adjust_walk_triple {info : Kind} (hmem : path ∈ A)
    (hway : way path.dropLast ⊆ L) (hself : info.isLink = false → path ∈ L) :
    Triple (Guarded A B s₁ L) (walk (fun dir ↦ ask (·.listDir dir))
        (fun current info ↦ do applyPathAdjustments opts current info; return true) depth path info)
      (fun _ ↦ Guarded A B s₁ L) (Guarded A B s₁ L) := by
  induction depth generalizing path L info with
  | zero => exact .raise
  | succ depth ih =>
    have hvisit : Keeps (Guarded A B s₁ L)
        (do applyPathAdjustments opts path info; return true : FileM Bool) :=
      .bind (applyPathAdjustments_triple hclean hmem hway fun hlink ↦
        way_subset (hself hlink) hway) fun _ ↦ .skip
    rw [walk]
    split_ifs with hdir
    · have hwayPath : way path ⊆ L := way_subset (hself (by rw [hdir]; rfl)) hway
      refine .bind ask_triple fun entries ↦ ?_
      apply Triple.of_forall
      rintro s ⟨hs, hlist⟩
      obtain ⟨p, -, hlisting⟩ := bind_eq_ok.mp hlist
      refine .bind (hvisit.at_state hs) fun descend ↦ ?_
      split
      · refine .forM entries fun e he ↦ ?_
        have hname := isName_of_listing hlisting he
        have hchild : Clean (path ++ [e.name]) := hclean.append (clean_singleton.mpr hname)
        dsimp only
        rw [join_of_clean hclean (clean_singleton.mpr hname)]
        refine lstat_bind_triple hchild ?_ fun info M hwayM hselfM ↦
          ih hchild (A.mem_of_isPrefix hmem (prefix_append _ _)) hwayM hselfM
        rw [dropLast_concat]
        exact hwayPath
      · exact .skip
    · exact .bind hvisit fun _ ↦ .skip

/-- **Changing owners and modes** at a place and below it. -/
theorem applyCopyAdjustments_triple (hmem : path ∈ A) (hway : way path.dropLast ⊆ L) :
    Keeps (Guarded A B s₁ L) (applyCopyAdjustments depth opts path) := by
  rw [applyCopyAdjustments]
  split
  · exact lstat_bind_triple hclean hway fun info M hwayM hselfM ↦
      adjust_walk_triple hclean hmem hwayM hselfM
  · exact .skip

end

/-! ## Spots of a directory and of its entries -/

section Spots

variable {c : Text}

theorem isPrefix_of_mem_cpSpots : cpSpots w src dst ⊆ {q | dst <+: q} := by
  rintro q ⟨r, -, rfl⟩
  exact prefix_append dst r

theorem isPrefix_of_mem_plainSpots : plainSpots w src dst ⊆ {q | dst <+: q} := by
  rintro q ⟨r, kind, -, -, rfl⟩
  exact prefix_append dst r

theorem plainSpots_snoc : plainSpots w (src ++ [c]) (dst ++ [c]) ⊆ plainSpots w src dst := by
  rintro q ⟨r, kind, hr, hlink, rfl⟩
  refine ⟨c :: r, kind, ?_, hlink, by rw [append_assoc, singleton_append]⟩
  rwa [append_assoc, singleton_append] at hr

end Spots

/-! ## Copying one object -/

section Source

variable (hB : place ∈ B) (haside : Aside A s₁.world src place)

include hB haside

theorem readableDir_of_aside {info : Kind} (hkind : s₁.world.kindAt place = some info)
    (hlink : info.isLink = false) : ReadableDir A B s₁.world src :=
  .inr ⟨place, hB, haside, linkAt_eq_none_of_kindAt hkind hlink⟩

omit hB in
theorem lstat_aside_triple : Triple (Guarded A B s₁ L) (ask (·.lstat src))
      (fun info s ↦ Guarded A B s₁ L s ∧ s₁.world.kindAt place = some info)
      (Guarded A B s₁ L) :=
  ask_triple.weaken_post (fun _ _ h ↦ ⟨h.1, haside.kindAt_of_lstat h.1 h.2⟩) fun _ h ↦ h

end Source

section

variable (hB : place ∈ B) (haside : Aside A s₁.world src place) (hdst : Destination A s₁.world dst)
include hB haside hdst

theorem copyPath_triple {m : Medium}
    (hway : s₁.world.kindAt place ≠ none → way dst.dropLast ⊆ L)
    (hspots : plainSpots s₁.world place dst ⊆ L) :
    Leads (Guarded A B s₁ L) (copyPath m depth src dst) (Guarded A B s₁ (besides L dst)) := by
  induction depth generalizing src place dst L with
  | zero => exact .throw fun _ h ↦ h.less
  | succ depth ih =>
    refine bind_less (lstat_aside_triple haside) fun info ↦ ?_
    refine .fact fun hkind ↦ ?_
    have hparent : way dst.dropLast ⊆ L := hway (by rw [hkind]; simp)
    have hwayDst : info.isLink = false → way dst ⊆ L := by
      intro hlink
      refine way_subset (hspots ⟨[], info, ?_, hlink, (append_nil dst).symm⟩) hparent
      rw [append_nil, hkind]
    split
    · refine bind_less (hdst.mkdirAll_keeps (hwayDst rfl)) fun _ ↦ ?_
      refine bind_less (readDir_triple (readableDir_of_aside hB haside hkind rfl)) fun entries ↦ ?_
      refine .fact fun ⟨hnodup, hentries⟩ ↦ ?_
      refine entries_triple (N := fun c ↦ plainSpots s₁.world (place ++ [c]) (dst ++ [c]))
        (fun _ ↦ isPrefix_of_mem_plainSpots) hnodup (hwayDst rfl)
        (fun _ _ ↦ plainSpots_snoc.trans hspots) fun e he M hwayM hspotsM ↦ ?_
      have hname := (hentries e he).1
      have hlink := linkAt_eq_none_of_kindAt hkind rfl
      rw [join_of_clean haside.clean (clean_singleton.mpr hname),
        join_of_clean hdst.clean (clean_singleton.mpr hname)]
      exact ih (B.mem_of_isPrefix hB (prefix_append _ _)) (haside.child hlink hname)
        (hdst.child hname) (fun _ ↦ hwayM) hspotsM
    · refine bind_less (readLink_triple (.inr ⟨place, hB, haside⟩)) fun link ↦ ?_
      refine bind_less (hdst.mkdirParent_keeps hparent) fun _ ↦ ?_
      refine .bind (.attempt (hdst.removeAll_keeps hparent)) fun _ ↦ ?_
      exact hdst.makeLink hparent link
    · refine bind_less (openRead_triple (readableDir_of_aside hB haside hkind rfl)) fun source ↦ ?_
      refine bind_less (hdst.mkdirParent_keeps hparent) fun _ ↦ ?_
      refine bind_less (hdst.create_keeps (hwayDst rfl)) fun _ ↦ ?_
      exact (m.copy_triple source).weaken_leads fun _ h ↦ h.less

end

/-- What is asked of `cp -a`, given a source that lies aside. Where no link is on the way to the
destination, nor at the spots below it, nor at those below it under the source's name, it acts in
the area of the destination only and reads only where the source is; and it leaves links only at the
destination and below. -/
structure CpConfined (cp : Path → Path → FileM PUnit) : Prop where
  confined : ∀ {A B : Area} {s₁ : Session} {L : Set Path} {src place dst : Path}, place ∈ B →
    Aside A s₁.world src place → Destination A s₁.world dst → way dst.dropLast ⊆ L →
    cpSpots s₁.world place dst ⊆ L → cpSpots s₁.world place (dst ++ baseName src) ⊆ L →
    Leads (Guarded A B s₁ L) (cp src dst) (Guarded A B s₁ (besides L dst))

/-- A program that copies as `copyPath` does is one of this kind. -/
theorem copyPath_cpConfined (m : Medium) (depth : ℕ) : CpConfined (copyPath m depth) where
  confined hB haside hdst hway hspots _ := by
    refine copyPath_triple hB haside hdst (fun _ ↦ hway) (Set.Subset.trans ?_ hspots)
    rintro q ⟨r, kind, hkind, -, rfl⟩
    exact ⟨r, by rw [hkind]; simp, rfl⟩

section

variable (hcp : CpConfined m.cp)
include hcp

theorem copyPathWithOptions_triple (hB : place ∈ B) (haside : Aside A s₁.world src place)
    (hdst : Destination A s₁.world dst) (hway : way dst.dropLast ⊆ L)
    (hspots : pathSpots s₁.world src dst place opts ⊆ L) :
    Leads (Guarded A B s₁ L) (copyPathWithOptions m depth opts src dst)
      (Guarded A B s₁ (besides L dst)) := by
  have hadjust : Keeps (Guarded A B s₁ (besides L dst)) (applyCopyAdjustments depth opts dst) :=
    applyCopyAdjustments_triple hdst.clean hdst.mem (way_dropLast_subset_sep hway)
  rw [copyPathWithOptions]
  split_ifs with hpreserve
  · rw [pathSpots, if_pos hpreserve] at hspots
    refine .bind (bind_less (hdst.mkdirParent_keeps hway) fun _ ↦ ?_) fun _ ↦ hadjust
    exact hcp.confined hB haside hdst hway (Set.subset_union_left.trans hspots)
      (Set.subset_union_right.trans hspots)
  · rw [pathSpots, if_neg hpreserve] at hspots
    exact .bind (copyPath_triple hB haside hdst (fun _ ↦ hway) hspots) fun _ ↦ hadjust

end

/-! ## Copying a directory -/

theorem mkdirFromSource_triple (hdst : Destination A s₁.world dst) (hway : way dst ⊆ L) :
    Keeps (Guarded A B s₁ L) (mkdirFromSource opts src dst) := by
  have hparent := (way_dropLast_subset dst).trans hway
  refine .bind ask_keeps fun info ↦ ?_
  refine .bind (hdst.mkdirAll_keeps hway) fun _ ↦ ?_
  have hadjust : Keeps (Guarded A B s₁ L) (applyPathAdjustments opts dst info) :=
    applyPathAdjustments_triple hdst.clean hdst.mem hparent fun _ ↦ hway
  split
  · exact .bind (lchown_triple hdst.clean hdst.mem hparent) fun _ ↦ hadjust
  · exact hadjust

section Walk

variable {c : Text} {r : Path}

theorem walkSpots_snoc : walkSpots w (src ++ [c]) (dst ++ [c]) (place ++ [c]) opts ⊆
    walkSpots w src dst place opts := by
  have hsplit : ∀ p r : Path, p ++ [c] ++ r = p ++ c :: r := fun p r ↦ by
    rw [append_assoc, singleton_append]
  rintro q (⟨r, hkind, rfl⟩ | ⟨r, kind, hkind, hdir, hq⟩)
  · rw [hsplit] at hkind ⊢
    exact .inl ⟨c :: r, hkind, rfl⟩
  · rw [hsplit] at hkind
    rw [hsplit, hsplit, hsplit] at hq
    exact .inr ⟨c :: r, kind, hkind, hdir, hq⟩

theorem isPrefix_of_mem_pathSpots : pathSpots w src dst place opts ⊆ {q | dst <+: q} := by
  intro q hq
  rw [pathSpots] at hq
  split at hq
  · rcases hq with hq | hq
    · exact isPrefix_of_mem_cpSpots hq
    · exact (prefix_append _ _).trans (isPrefix_of_mem_cpSpots hq)
  · exact isPrefix_of_mem_plainSpots hq

theorem isPrefix_of_mem_walkSpots : walkSpots w src dst place opts ⊆ {q | dst <+: q} := by
  rintro q (⟨r, -, rfl⟩ | ⟨r, kind, -, -, hq⟩)
  · exact prefix_append dst r
  · exact (prefix_append dst r).trans (isPrefix_of_mem_pathSpots hq)

variable {verdict : Path → Verdict} {target : Path} {info : Kind}

variable (hcp : CpConfined m.cp) (hpath : path = src ++ r) (htarget : target = dst ++ r)
  (hclean : Clean r)
  (hcleanDst : Clean dst) (hB : place ∈ B) (haside : Aside A s₁.world path place)
  (hdst : Destination A s₁.world target) (hkind : s₁.world.kindAt place = some info)
  (hway : way target.dropLast ⊆ L) (hspots : walkSpots s₁.world path target place opts ⊆ L)

include hcp hpath htarget hclean hcleanDst hB haside hdst hkind hway hspots

theorem visitSource_triple :
    Triple (Guarded A B s₁ L) (visitSource m depth opts verdict src dst path info)
      (fun _ ↦ Guarded A B s₁ (if info = .dir then L else besides L target))
      (Guarded A B s₁ (besides L target)) := by
  have hstay : ∀ s, Guarded A B s₁ L s →
      Guarded A B s₁ (if info = .dir then L else besides L target) s := by
    intro s hs
    split
    · exact hs
    · exact hs.less
  have hrel : path.drop src.length = r := by rw [hpath, drop_left]
  rw [visitSource]
  dsimp only
  rw [hrel]
  split
  · exact .pure hstay
  split
  · exact .throw fun _ h ↦ h.less
  · exact .pure hstay
  rw [join_of_clean hcleanDst hclean, ← htarget]
  split_ifs with hdir
  · have hself : target ∈ L := hspots (.inl ⟨[], by rw [append_nil, hkind, hdir],
      (append_nil _).symm⟩)
    exact bind_less (mkdirFromSource_triple hdst (way_subset hself hway)) fun _ ↦ .skip
  · have hfile : pathSpots s₁.world path target place opts ⊆ L := fun q hq ↦
      hspots (.inr ⟨[], info, by rw [append_nil, hkind], hdir, by simpa only [append_nil] using hq⟩)
    exact .bind (copyPathWithOptions_triple hcp hB haside hdst hway hfile) fun _ ↦ .skip

theorem walk_triple {n : ℕ} :
    Leads (Guarded A B s₁ L) (walk readDir (visitSource m depth opts verdict src dst) n path info)
      (Guarded A B s₁ (besides L target)) := by
  induction n generalizing r L info path place target with
  | zero => exact .throw fun _ h ↦ h.less
  | succ n ih =>
    have hvisit : Triple (Guarded A B s₁ L) (visitSource m depth opts verdict src dst path info)
        (fun _ ↦ Guarded A B s₁ (if info = .dir then L else besides L target))
        (Guarded A B s₁ (besides L target)) :=
      visitSource_triple hcp hpath htarget hclean hcleanDst hB haside hdst hkind hway hspots
    rw [walk]
    split_ifs with hdir
    · rw [if_pos hdir] at hvisit
      have hlink : s₁.world.linkAt place = none :=
        linkAt_eq_none_of_kindAt hkind (by rw [hdir]; rfl)
      have hself : target ∈ L := hspots (.inl ⟨[], by rw [append_nil, hkind, hdir],
        (append_nil _).symm⟩)
      refine bind_less (readDir_triple (.inr ⟨place, hB, haside, hlink⟩)) fun entries ↦ ?_
      refine .fact fun ⟨hnodup, hentries⟩ ↦ .bind hvisit fun descend ↦ ?_
      split
      · refine entries_triple (N := fun c ↦ walkSpots s₁.world (path ++ [c]) (target ++ [c])
          (place ++ [c]) opts)
          (fun _ ↦ isPrefix_of_mem_walkSpots) hnodup (way_subset hself hway)
          (fun _ _ ↦ walkSpots_snoc.trans hspots) fun e he M hwayM hspotsM ↦ ?_
        have hname := (hentries e he).1
        have hchild := haside.child hlink hname
        dsimp only
        rw [join_of_clean haside.clean (clean_singleton.mpr hname)]
        refine bind_less (lstat_aside_triple hchild) fun info ↦ ?_
        exact .fact fun hkindChild ↦ ih (by rw [hpath, append_assoc])
          (by rw [htarget, append_assoc]) (hclean.append (clean_singleton.mpr hname))
          (B.mem_of_isPrefix hB (prefix_append _ _)) hchild (hdst.child hname) hkindChild hwayM
          hspotsM
      · exact .pure fun _ h ↦ h.less
    · rw [if_neg hdir] at hvisit
      exact .bind hvisit fun _ ↦ .skip

end Walk

theorem ensureDestinationDir_triple (hdst : Destination A s₁.world dst) (hway : way dst ⊆ L) :
    Keeps (Guarded A B s₁ L) (ensureDestinationDir dst) := by
  refine .bind ask_keeps fun info ↦ ?_
  split
  · exact .skip
  · exact .raise
  · exact hdst.mkdirAll_keeps hway

theorem makeRootTarget_triple {rel : Path} (hdst : Destination A s₁.world (rootTarget opts rel dst))
    (hway : way (rootTarget opts rel dst) ⊆ L) :
    Keeps (Guarded A B s₁ L) (makeRootTarget opts src rel dst) := by
  rw [makeRootTarget]
  rw [rootTarget] at hdst hway
  split
  · rename_i hparents
    split_ifs with hrel
    · rw [if_neg fun h ↦ h.2 hrel] at hdst hway
      exact ensureDestinationDir_triple hdst hway
    · rw [if_pos ⟨hparents, hrel⟩] at hdst hway
      exact mkdirFromSource_triple hdst hway
  · rename_i hparents
    rw [if_neg fun h ↦ hparents h.1] at hdst hway
    refine .bind ask_keeps fun info ↦ ?_
    split
    · exact .skip
    · exact .raise
    · exact mkdirFromSource_triple hdst hway
    · exact .raise

theorem copyDirectorySource_triple {verdict : Path → Verdict} {rel : Path}
    (hcp : CpConfined m.cp) (hB : place ∈ B) (haside : Aside A s₁.world src place)
    (hdst : Destination A s₁.world (rootTarget opts rel dst))
    (hway : way (rootTarget opts rel dst) ⊆ L)
    (hspots : walkSpots s₁.world src (rootTarget opts rel dst) place opts ⊆ L) :
    Leads (Guarded A B s₁ L) (copyDirectorySource m depth opts verdict src rel dst)
      (Guarded A B s₁ (besides L (rootTarget opts rel dst))) := by
  rw [copyDirectorySource]
  refine bind_less (makeRootTarget_triple hdst hway) fun _ ↦ ?_
  refine bind_less (lstat_aside_triple haside) fun info ↦ ?_
  exact .fact fun hkind ↦ walk_triple hcp (append_nil src).symm (append_nil _).symm nofun hdst.clean
    hB haside hdst hkind ((way_dropLast_subset _).trans hway) hspots

end Gocracker
