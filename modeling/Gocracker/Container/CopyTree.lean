import Gocracker.Posix.Copying

/-!
# Copying directories

The functions that materialize a mount in a root filesystem, and that bring a volume back to the
host. The packages `container` and `compose` have the same three, word for word: `copyDir` makes a
directory and copies the contents, `copyDirContents` goes through the entries of a directory, and
`copyFileOrSymlink` copies what is no directory. A link is copied as a link, in the place of
whatever is there; a file is written to whatever the destination leads to.

The recursion ends in any case where the names get too long for the kernel, which is what `depth`
stands for.

## Where a copy goes

A copy writes to its destination and below if there are no links: none on the way to the
destination, none in its place and none below. It may make links there itself, but never goes
through one of them, since a directory has each name once.
-/

namespace Gocracker

open Machine Posix

/-- What there is to know of a file besides where it is: whether it is a device, a pipe or a socket,
and whether it can be read to its end. -/
structure Medium where
  special : ℕ → Bool
  broken : ℕ → Bool

namespace Medium

variable (m : Medium)

/-- Sockets, pipes and devices are not copied. -/
def shouldSkipSpecialFile : Kind → Bool
  | .file ino => m.special ino
  | _ => false

/-- Copy the contents of what was opened. -/
def copy : Kind → FileM PUnit
  | .file ino => if m.broken ino then throw .eio else pure ⟨⟩
  | _ => throw .eisdir

end Medium

/-- A link is copied as a link. -/
def copyFileOrSymlink (m : Medium) (src dst : Path) : FileM PUnit := do
  let kind ← ask (·.lstat src)
  if m.shouldSkipSpecialFile kind then pure ⟨⟩
  else
    act (mkdirAll dst.dropLast.reverse)
    match kind with
    | .symlink _ =>
      let link ← readLink src
      attempt (act (sys (·.removeAll dst)))
      act (sys (·.symlink link dst))
    | _ =>
      let source ← openRead src
      act (sys (·.openTrunc dst))
      m.copy source

/-- `copyDir`, with the function that copies the contents. -/
def copyDirWith (contents : Path → Path → FileM PUnit) (src dst : Path) : FileM PUnit := do
  let _ ← ask (·.lstat src)
  act (mkdirAll dst.reverse)
  contents src dst

/-- The entries of a directory, one after the other. -/
def copyDirContents (m : Medium) : ℕ → Path → Path → FileM PUnit
  | 0, _, _ => throw .enametoolong
  | depth + 1, src, dst => do
    let entries ← readDir src
    entries.forM fun entry ↦
      let srcPath := join src [entry.name]
      let dstPath := join dst [entry.name]
      if entry.isDir then copyDirWith (copyDirContents m depth) srcPath dstPath
      else copyFileOrSymlink m srcPath dstPath

def copyDir (m : Medium) (depth : ℕ) : Path → Path → FileM PUnit :=
  copyDirWith (copyDirContents m depth)

variable {A B : Area} {s₀ : Session} {L : Set Path} {src dst : Path} {m : Medium}

/-! ## Files and links -/

theorem Medium.copy_triple (kind : Kind) {P : Session → Prop} : Keeps P (m.copy kind) := by
  cases kind with
  | file ino =>
    rw [Medium.copy]
    split
    · exact .raise
    · exact .skip
  | symlink | dir => exact .raise

/-- **Copying what is no directory**, to a place to which the way is clear. -/
theorem copyFileOrSymlink_triple (hsrc : Readable A B s₀.world src)
    (hdst : Destination A s₀.world dst) (hway : way dst ⊆ L) :
    Leads (Guarded A B s₀ L) (copyFileOrSymlink m src dst) (Guarded A B s₀ (besides L dst)) := by
  have hwayParent : way dst.dropLast ⊆ L := (way_dropLast_subset dst).trans hway
  refine bind_less ask_triple fun kind ↦ ?_
  -- What the kind says about a source that lies aside is true from the beginning to the end.
  apply Triple.of_forall
  rintro s ⟨hs, hkind⟩
  have hdir : (∀ target, kind ≠ .symlink target) → ReadableDir A B s₀.world src := by
    intro hnot
    rcases hsrc with hB | ⟨place, hmem, haside⟩
    · exact .inl hB
    refine .inr ⟨place, hmem, haside, World.linkAt_eq_none_iff.mpr fun target htarget ↦ ?_⟩
    rw [haside.kindAt_of_lstat hs hkind] at htarget
    exact hnot target (Option.some.inj htarget)
  refine .at_state (P := Guarded A B s₀ L) ?_ hs
  split
  · exact .pure fun _ h ↦ h.less
  refine bind_less (hdst.mkdirParent_keeps hwayParent) fun _ ↦ ?_
  split
  · refine bind_less (readLink_triple hsrc) fun link ↦ ?_
    refine .bind (.attempt (hdst.removeAll_keeps hwayParent)) fun _ ↦ ?_
    exact hdst.makeLink hwayParent link
  · rename_i hnot
    refine bind_less (openRead_triple (hdir fun target heq ↦ hnot target heq)) fun source ↦ ?_
    refine bind_less (hdst.create_keeps hway) fun _ ↦ ?_
    exact (m.copy_triple source).weaken_leads fun _ h ↦ h.less

/-! ## Directories -/

theorem copyDirWith_triple {contents : Path → Path → FileM PUnit} {M : Set Path}
    (hdst : Destination A s₀.world dst) (hway : way dst ⊆ L) (hML : M ⊆ L)
    (hcontents : Leads (Guarded A B s₀ L) (contents src dst) (Guarded A B s₀ M)) :
    Leads (Guarded A B s₀ L) (copyDirWith contents src dst) (Guarded A B s₀ M) := by
  refine .bind (ask_triple.weaken_post (fun _ _ h ↦ h.1) fun _ h ↦ h.mono hML) fun kind ↦ ?_
  exact .bind ((hdst.mkdirAll_keeps hway).weaken_error fun _ h ↦ h.mono hML) fun _ ↦ hcontents

/-- **Copying the contents of a directory**, to a place where there are no links, nor on the way,
nor below. -/
theorem copyDirContents_triple {depth : ℕ} (hsrc : ReadableDir A B s₀.world src)
    (hdst : Destination A s₀.world dst) (hway : way dst ⊆ L) (hunder : under dst ⊆ L) :
    Leads (Guarded A B s₀ L) (copyDirContents m depth src dst)
      (Guarded A B s₀ (besides L dst)) := by
  induction depth generalizing src dst L with
  | zero => exact .throw fun _ h ↦ h.less
  | succ depth ih =>
    rw [copyDirContents]
    refine bind_less (readDir_triple hsrc) fun entries ↦ ?_
    refine .fact fun ⟨hnodup, hentries⟩ ↦ ?_
    refine entries_triple (N := fun c ↦ under (dst ++ [c])) (fun _ _ hq ↦ hq.1)
      hnodup hway (fun e _ q hq ↦ ?_) fun e he M hwayM hunderM ↦ ?_
    · exact hunder ⟨(List.prefix_append dst [e.name]).trans hq.1, hq.2⟩
    obtain ⟨hname, hread, hreadDir⟩ := hentries e he
    have hchild := hdst.child hname
    have hwayChild := way_subset (hunderM ⟨List.prefix_refl _, hchild.clean⟩) hwayM
    dsimp only
    rw [join_of_clean hdst.clean (clean_singleton.mpr hname)]
    split_ifs with hdir
    · exact copyDirWith_triple hchild hwayChild (Set.sep_subset _ _)
        (ih (hreadDir hdir) hchild hwayChild hunderM)
    · exact copyFileOrSymlink_triple hread hchild hwayChild

end Gocracker
