import Gocracker.Oci.Layer
import Gocracker.Posix.Confined
import Gocracker.Transition.Run

/-!
# Layers stay inside their directory

Extraction is confined if nothing outside the directory is touched, where every path is resolved as
the kernel does it. It is not, in general: a chain of two links is followed out of the container, a
whiteout may name the directory itself or its parent, the metadata of a directory is applied to
whatever has taken its place, and a hard link to a link lets the mode be changed through it.

## The condition

`StaysDirect` excludes these, entry by entry: each link met on the way to an entry must lead, in one
hop, to a place whose path has no link. Then every path that reaches the kernel is straight, and
what happens on straight paths below the directory stays below it.
-/

namespace Gocracker

open Machine Posix Transition List Triple

/-! ## The condition -/

/-- Follow the parent directories of an entry inside the container, from `cursor` on. A link may be
met, but its target must not lead over a further link. -/
def directParent (links : Path → Option Text) (root : Path) : Path → List Text → Option Path
  | cursor, [] => some cursor
  | cursor, part :: parts =>
    match links (root ++ cursor ++ [part]) with
    | none => directParent links root (cursor ++ [part]) parts
    | some target =>
      if Unlinked links root (containerTarget cursor target) then
        directParent links root (containerTarget cursor target) parts
      else none

/-- The links once the object at `p` is gone. -/
def withoutLinks (p : Path) (links : Path → Option Text) (q : Path) : Option Text :=
  if p <+: q then none else links q

variable (links : Path → Option Text) (root : Path)

/-- The source of a hard link is reached directly, and it is no link itself. -/
def isDirectSource (rel : List Text) : Bool :=
  match rel.getLast? with
  | none => true
  | some base =>
    match directParent links root [] (cleanRooted rel.dropLast) with
    | none => false
    | some parent => decide (IsName base) && (links (root ++ parent ++ [base])).isNone

/-- Both places that may be meant by the target of a hard link. -/
def isDirectLink (rel : List Text) (linkname : Text) :
    Bool :=
  if isAbs linkname then isDirectSource links root (cleanRooted (components linkname))
  else
    isDirectSource links root (cleanRelative (components linkname)) &&
      isDirectSource links root (join rel.dropLast (cleanRelative (components linkname)))

/-- An entry is reached directly; a whiteout names something in its directory; and what a hard link
is made to is reached directly, once the link's old place is cleared. -/
def isDirectEntry (hdr : Header) : Bool :=
  let rel := cleanLayerEntryName hdr.name
  match rel.getLast? with
  | none => true
  | some base =>
    match directParent links root [] rel.dropLast with
    | none => false
    | some parent =>
      if whiteoutPrefix <+: base then
        decide (base = opaqueWhiteout ∨ IsName (base.drop whiteoutPrefix.length))
      else if hdr.typeflag = .link then
        isDirectLink (withoutLinks (root ++ parent ++ [base]) links) root rel hdr.linkname
      else true

/-- The condition on an extraction: entries are direct, and at the end of a layer no link has come
into the path of one of its directories. -/
def StaysDirect (root : Path) (s : Extraction) : ExtractEvent → Prop
  | .entry hdr => s.failed = true ∨ isDirectEntry s.world.linkAt root hdr = true
  | .readError => True
  | .endOfLayer => s.failed = true ∨ ∀ d ∈ s.dirs, Unlinked s.world.linkAt [] d.1

instance (root : Path) (s : Extraction) (e : ExtractEvent) : Decidable (StaysDirect root s e) :=
  match e with
  | .entry _ => inferInstanceAs (Decidable (_ ∨ _))
  | .readError => .isTrue trivial
  | .endOfLayer => inferInstanceAs (Decidable (_ ∨ _))

/-! ## Resolution -/

section Resolution

variable {w : World} {root cursor path host parent : Path} {parts rel : List Text} {base : Text}

theorem clean_containerTarget (cursor : Path) (target : Text) :
    Clean (containerTarget cursor target) := by
  rw [containerTarget]
  split
  · exact clean_cleanRooted _
  · exact clean_cleanRooted _

theorem linkAt_of_lstatLink {o : Option Text} (hpath : w.Straight false path)
    (h : lstatLink w path = .ok o) : w.linkAt path = o := by
  rw [lstatLink] at h
  split at h
  · rename_i target hstat
    rw [World.linkAt, hpath.kindAt_of_statAt hstat, ← Except.ok.inj h]
  · rename_i kind hne hstat
    rw [← Except.ok.inj h, World.linkAt_eq_none_iff, hpath.kindAt_of_statAt hstat]
    intro target heq
    exact hne target (Option.some.inj heq)
  · rename_i hstat
    rw [← Except.ok.inj h, World.linkAt_eq_none (hpath.kindAt_of_statAt_error hstat)]
  · cases h

section

variable (hroot : Rooted root w)
include hroot

/-- **One hop.** Along direct parents the walk on the host is the walk in the container, and it ends
at a path without links. -/
theorem resolveParts_eq_ok (hcursor : Clean cursor)
    (hu : Unlinked w.linkAt root cursor) (hparts : Clean parts)
    (h : resolveParts w root (root ++ cursor) cursor parts = .ok host)
    (hdirect : directParent w.linkAt root cursor parts = some parent) :
    host = root ++ parent ∧ Clean parent ∧ Unlinked w.linkAt root parent := by
  induction parts generalizing cursor with
  | nil =>
    obtain ⟨⟩ := hdirect
    exact ⟨(Except.ok.inj h).symm, hcursor, hu⟩
  | cons part parts ih =>
    have hpart : IsName part := hparts part mem_cons_self
    have hrest : Clean parts := fun c hc ↦ hparts c (mem_cons_of_mem part hc)
    have hone : Clean [part] := clean_singleton.mpr hpart
    rw [resolveParts, if_neg (not_or.mpr ⟨hpart.1, hpart.2.1⟩),
      join_of_clean (hroot.clean.append hcursor) hone, join_of_clean hcursor hone] at h
    obtain ⟨o, hlink, h⟩ := bind_eq_ok.mp h
    have hat := linkAt_of_lstatLink (hroot.straight_snoc hcursor hpart hu) hlink
    rw [directParent, hat] at hdirect
    -- No link: both cursors go on by the part. A link: both jump to its target, where the walk of
    -- the condition has found no further link.
    cases o with
    | none =>
      obtain ⟨_, -, h⟩ := bind_eq_ok.mp h
      rw [append_assoc] at h
      refine ih (hcursor.append hone) (unlinked_snoc.mpr ⟨hu, hat⟩) hrest h hdirect
    | some target =>
      obtain ⟨_, -, h⟩ := bind_eq_ok.mp h
      have htarget := clean_containerTarget cursor target
      rw [join_of_clean hroot.clean htarget] at h
      dsimp only at hdirect
      split at hdirect
      · exact ih htarget ‹_› hrest h hdirect
      · nomatch hdirect

theorem resolveLayerEntryPath_eq_ok (hbase : IsName base)
    (hlast : rel.getLast? = some base) (h : resolveLayerEntryPath w root rel = .ok path)
    (hdirect : directParent w.linkAt root [] (cleanRooted rel.dropLast) = some parent) :
    path = root ++ parent ++ [base] ∧ Clean parent ∧ Unlinked w.linkAt root parent := by
  rw [resolveLayerEntryPath, hlast] at h
  obtain ⟨host, hhost, h⟩ := bind_eq_ok.mp h
  obtain ⟨rfl, hclean, hu⟩ := resolveParts_eq_ok hroot (fun c hc ↦ absurd hc not_mem_nil) trivial
    (clean_cleanRooted _) (by rwa [append_nil]) hdirect
  obtain ⟨_, -, h⟩ := bind_eq_ok.mp h
  refine ⟨?_, hclean, hu⟩
  rw [← join_of_clean (hroot.clean.append hclean) (clean_singleton.mpr hbase)]
  exact (Except.ok.inj h).symm

/-- What a hard link may be made to: the root itself, or something reached directly that is no
link. -/
def DirectSource (w : World) (root path : Path) : Prop :=
  path = root ∨ ∃ parent base, path = root ++ parent ++ [base] ∧ Clean parent ∧ IsName base ∧
    Unlinked w.linkAt root parent ∧ w.linkAt path = none

theorem directSource_of_isDirectSource (h : resolveLayerEntryPath w root rel = .ok path)
    (hdirect : isDirectSource w.linkAt root rel = true) : DirectSource w root path := by
  rw [isDirectSource] at hdirect
  cases hlast : rel.getLast? with
  | none =>
    rw [resolveLayerEntryPath, hlast] at h
    exact .inl (Except.ok.inj h).symm
  | some base =>
    rw [hlast] at hdirect
    cases hparent : directParent w.linkAt root [] (cleanRooted rel.dropLast) with
    | none => rw [hparent] at hdirect; nomatch hdirect
    | some parent =>
      rw [hparent] at hdirect
      obtain ⟨hbase, hlink⟩ := Bool.and_eq_true_iff.mp hdirect
      have hbase := of_decide_eq_true hbase
      obtain ⟨rfl, hclean, hu⟩ := resolveLayerEntryPath_eq_ok hroot hbase hlast h hparent
      exact .inr ⟨parent, base, rfl, hclean, hbase, hu, Option.isNone_iff_eq_none.mp hlink⟩

theorem directSource_of_isDirectLink {linkname : Text}
    (h : resolveLayerLinkPath w root rel linkname = .ok path)
    (hdirect : isDirectLink w.linkAt root rel linkname = true) : DirectSource w root path := by
  rw [resolveLayerLinkPath] at h
  rw [isDirectLink] at hdirect
  split_ifs at h with habs
  · rw [if_pos habs] at hdirect
    exact directSource_of_isDirectSource hroot h hdirect
  rw [if_neg habs] at hdirect
  obtain ⟨hrootRelative, hentryRelative⟩ := Bool.and_eq_true_iff.mp hdirect
  obtain ⟨rootRelative, hresolve, h⟩ := bind_eq_ok.mp h
  split at h
  · obtain ⟨⟩ := h
    exact directSource_of_isDirectSource hroot hresolve hrootRelative
  · exact directSource_of_isDirectSource hroot h hentryRelative
  · nomatch h

end

end Resolution

/-! ## Programs -/

section Programs

variable {root : Path} {w₀ : World} {links : Path → Option Text} {parent : Path} {base : Text}
  {hdr : Header}

theorem query_triple {α : Type} {P : World → Prop} (f : World → Except ExtractError α) :
    Triple P (query f) (fun a w ↦ P w ∧ f w = .ok a) P := by
  apply get_bind
  intro w hw
  cases hf : f w with
  | ok a => exact .pure fun _ h ↦ h ▸ ⟨hw, hf⟩
  | error e => exact .throw fun _ h ↦ h ▸ hw

/-- A program that keeps a condition, or fails confined. -/
abbrev Stays (root : Path) (w₀ : World) (I : World → Prop) (c : ExtractM PUnit) : Prop :=
  Triple I c (fun _ ↦ I) (Confined root w₀)

/-- Confined, and the given path below the root has no link. -/
def ConfinedAlong (root : Path) (w₀ : World) (cs : List Text) (w : World) : Prop :=
  Confined root w₀ w ∧ Unlinked w.linkAt root cs

variable {w : World}

/-- Putting something without links at a path makes that path one without links. -/
theorem ConfinedAlong.put {o : Option Tree} (h : ConfinedAlong root w₀ parent w) (ho : LinkFree o) :
    ConfinedAlong root w₀ (parent ++ [base]) (w.put (root ++ parent ++ [base]) o) := by
  refine ⟨h.1.put (below_snoc root parent base), unlinked_snoc.mpr ⟨?_, ?_⟩⟩
  · apply h.2.mono
    intro q _ hq
    rw [World.linkAt_put ho]
    split
    · rfl
    · exact hq
  · rw [World.linkAt_put ho, if_pos (prefix_refl _)]

theorem ConfinedAlong.of_snoc (h : ConfinedAlong root w₀ (parent ++ [base]) w) :
    ConfinedAlong root w₀ parent w := ⟨h.1, (unlinked_snoc.mp h.2).1⟩

theorem isName_of_readDir {path : Path} {names : List Text}
    (h : w.readDir path = .ok names) : ∀ name ∈ names, IsName name := by
  obtain ⟨p, -, h⟩ := bind_eq_ok.mp h
  split at h
  · obtain ⟨⟩ := h
    intro name hname
    exact of_decide_eq_true (mem_filter.mp hname).2
  · nomatch h
  · nomatch h

/-- A program that keeps the links keeps a path without links. -/
theorem triple_along {c : ExtractM PUnit} {cs : List Text}
    (h : ∀ links, Unlinked links root cs → Stays root w₀ (ConfinedAt root w₀ links) c) :
    Stays root w₀ (ConfinedAlong root w₀ cs) c := by
  refine .of_forall fun w hw ↦ (h w.linkAt hw.2).weaken ?_ ?_ fun _ h ↦ h
  · rintro w' rfl
    exact ⟨hw.1, rfl⟩
  · rintro _ w' ⟨hconfined, hlinks⟩
    exact ⟨hconfined, hlinks ▸ hw.2⟩

theorem setAttr_triple {follow : Bool} (hstraight : ∀ w, ConfinedAt root w₀ links w →
      w.Straight follow (root ++ parent ++ [base])) :
    Stays root w₀ (ConfinedAt root w₀ links)
      (run (sys (·.setAttr follow (root ++ parent ++ [base])))) := by
  refine (sys_triple (fun w w' hw hop ↦ ?_) fun w hw ↦ hw.1).adaptExcept
  obtain rfl := (hstraight w hw).setAttr_eq_ok hop
  exact ⟨hw.1.touch (below_snoc root parent base), hw.2⟩

section

variable (hroot : Rooted root w₀) (hclean : Clean parent) (hbase : IsName base)
include hroot hclean hbase

theorem removeAll_confinedAlong {w' : World} (h : ConfinedAlong root w₀ parent w)
    (hop : w.removeAll (root ++ parent ++ [base]) = .ok w') :
    ConfinedAlong root w₀ (parent ++ [base]) w' := by
  have hstraight := (h.1.rooted hroot).straight_snoc hclean hbase h.2
  rcases hstraight.removeAll_eq_ok hop with ⟨rfl, hnone⟩ | rfl
  · exact ⟨h.1, unlinked_snoc.mpr ⟨h.2, World.linkAt_eq_none hnone⟩⟩
  · exact h.put linkFree_none

theorem removeAllQuietly_triple :
    Stays root w₀ (ConfinedAlong root w₀ parent) (removeAllQuietly (root ++ parent ++ [base])) := by
  apply get_bind
  intro w hw
  cases hop : w.removeAll (root ++ parent ++ [base]) with
  | ok w' => exact .set fun _ _ ↦ (removeAll_confinedAlong hroot hclean hbase hw hop).of_snoc
  | error e => exact .pure fun _ h ↦ h ▸ hw

omit hbase in
/-- A whiteout that names something in its directory. -/
theorem applyWhiteout_triple
    (hbase : base = opaqueWhiteout ∨ IsName (base.drop whiteoutPrefix.length)) :
    Stays root w₀ (ConfinedAlong root w₀ parent) (applyWhiteout (root ++ parent) base) := by
  have hjoin : ∀ name, IsName name →
      Stays root w₀ (ConfinedAlong root w₀ parent)
        (removeAllQuietly (join (root ++ parent) [name])) := by
    intro name hname
    rw [join_of_clean (hroot.clean.append hclean) (clean_singleton.mpr hname)]
    exact removeAllQuietly_triple hroot hclean hname
  rw [applyWhiteout]
  split_ifs with hopaque
  · apply get_bind
    intro w hw
    cases hnames : w.readDir (root ++ parent) with
    | ok names =>
      refine (forM names fun name hname ↦ hjoin name ?_).at_state hw
      exact isName_of_readDir hnames name hname
    | error e => exact .pure fun _ h ↦ h ▸ hw
  · exact hjoin _ (hbase.resolve_left hopaque)

/-- Afterwards the place is free, or holds what may stay: no link in any case. -/
theorem prepareTarEntryTarget_triple (typeflag : TypeFlag) : Triple (ConfinedAlong root w₀ parent)
      (prepareTarEntryTarget (root ++ parent ++ [base]) typeflag)
      (fun _ ↦ ConfinedAlong root w₀ (parent ++ [base])) (Confined root w₀) := by
  apply get_bind
  intro w hw
  have hstraight := (hw.1.rooted hroot).straight_snoc hclean hbase hw.2
  -- What `Lstat` reports decides whether there is a link.
  have hkeep : w.linkAt (root ++ parent ++ [base]) = none →
      ConfinedAlong root w₀ (parent ++ [base]) w :=
    fun hnone ↦ ⟨hw.1, unlinked_snoc.mpr ⟨hw.2, hnone⟩⟩
  split
  · rename_i hstat
    have hnone := World.linkAt_eq_none (hstraight.kindAt_of_statAt_error hstat)
    exact .pure fun _ h ↦ h ▸ hkeep hnone
  · exact .throw fun _ h ↦ h ▸ hw.1
  · rename_i hstat
    have hkind := hstraight.kindAt_of_statAt hstat
    exact .pure fun _ h ↦ h ▸ hkeep (by rw [World.linkAt, hkind])
  · rename_i ino hstat
    have hkind := hstraight.kindAt_of_statAt hstat
    exact .pure fun _ h ↦ h ▸ hkeep (by rw [World.linkAt, hkind])
  refine (sys_triple (fun w' w'' hw' hop ↦ ?_) fun w' hw' ↦ ?_).adaptExcept
  · subst hw'
    exact removeAll_confinedAlong hroot hclean hbase hw hop
  · exact hw' ▸ hw.1

/-- The metadata of an object that is no link, under a path without links. -/
theorem applyTarEntryMetadata_triple (hu : Unlinked links root (parent ++ [base])) :
    Stays root w₀ (ConfinedAt root w₀ links)
      (applyTarEntryMetadata (root ++ parent ++ [base]) hdr) := by
  have hstraight : ∀ follow w, ConfinedAt root w₀ links w →
      w.Straight follow (root ++ parent ++ [base]) := by
    intro follow w hw
    rw [append_assoc]
    exact (hw.1.rooted hroot).straight (hclean.append (clean_singleton.mpr hbase)) (hw.2 ▸ hu)
      follow
  apply bind (setAttr_triple (hstraight false))
  intro _
  split
  · apply bind (setAttr_triple (hstraight true))
    intro _
    split
    · exact setAttr_triple (hstraight true)
    · exact .skip
  · exact .skip

/-- The metadata of a link: only its owner is set, and the link is not followed. -/
theorem applyTarEntryMetadata_symlink_triple (hu : Unlinked links root parent)
    (hflag : hdr.typeflag = .symlink) :
    Stays root w₀ (ConfinedAt root w₀ links)
      (applyTarEntryMetadata (root ++ parent ++ [base]) hdr) := by
  rw [applyTarEntryMetadata, if_neg (not_not.mpr hflag)]
  refine .bind (setAttr_triple fun w hw ↦ ?_) fun _ ↦ .skip
  exact (hw.1.rooted hroot).straight_snoc hclean hbase (hw.2 ▸ hu)

theorem openTrunc_triple : Stays root w₀ (ConfinedAlong root w₀ (parent ++ [base]))
      (run (sys (·.openTrunc (root ++ parent ++ [base])))) := by
  refine (sys_triple (fun w w' hw hop ↦ ?_) fun w hw ↦ hw.1).adaptExcept
  have hstraight : w.Straight true (root ++ parent ++ [base]) := by
    rw [append_assoc]
    exact (hw.1.rooted hroot).straight (hclean.append (clean_singleton.mpr hbase)) hw.2 true
  rcases hstraight.openTrunc_eq_ok hop with rfl | ⟨-, rfl⟩
  · exact ⟨hw.1.touch (below_snoc root parent base), hw.2⟩
  have hput : ConfinedAlong root w₀ (parent ++ [base])
      (w.put (root ++ parent ++ [base]) (some (.file w.nextIno))) :=
    hw.of_snoc.put (linkFree_file w.nextIno)
  exact ⟨hput.1.of_eq rfl rfl, hput.2⟩

theorem removeTarget_triple (hu : Unlinked links root parent) :
    Triple (ConfinedAt root w₀ links) (removeTarget (root ++ parent ++ [base]))
      (fun _ ↦ ConfinedAt root w₀ (withoutLinks (root ++ parent ++ [base]) links))
      (Confined root w₀) := by
  apply get_bind
  intro w hw
  have hstraight := (hw.1.rooted hroot).straight_snoc hclean hbase (hw.2 ▸ hu)
  cases hop : w.remove (root ++ parent ++ [base]) with
  | ok w' =>
    obtain rfl := hstraight.remove_eq_ok hop
    refine .set fun _ _ ↦ ⟨hw.1.put (below_snoc root parent base), ?_⟩
    funext q
    rw [World.linkAt_put linkFree_none, hw.2, withoutLinks]
  | error e =>
    cases e with
    | enoent =>
      have hnone := hstraight.kindAt_of_remove_enoent hop
      refine .pure fun _ h ↦ h ▸ ⟨hw.1, ?_⟩
      have hput := World.linkAt_put_of_kindAt_eq_none linkFree_none hnone
      funext q
      rw [← hput, World.linkAt_put linkFree_none, hw.2, withoutLinks]
    | _ => exact .throw fun _ h ↦ h ▸ hw.1

theorem symlink_triple (target : Text) : Stays root w₀ (ConfinedAlong root w₀ parent)
      (run (sys (·.symlink target (root ++ parent ++ [base])))) := by
  refine (sys_triple (fun w w' hw hop ↦ ?_) fun w hw ↦ hw.1).adaptExcept
  obtain ⟨-, rfl⟩ := ((hw.1.rooted hroot).straight_snoc hclean hbase hw.2).symlink_eq_ok hop
  refine ⟨hw.1.put (below_snoc root parent base), hw.2.mono fun q hq hnone ↦ ?_⟩
  -- The new link is longer than every path that leads to its directory.
  have hlonger : ¬ root ++ parent ++ [base] <+: q := by
    intro hpre
    have hlength := (hpre.trans hq).length_le
    rw [length_append] at hlength
    exact Nat.not_succ_le_self _ hlength
  rw [World.linkAt_put_of_not_isPrefix hlonger, hnone]

/-- A hard link to something reached directly: it is a file, inside the root. -/
theorem link_triple (source : Path) :
    Triple (fun w ↦ ConfinedAlong root w₀ parent w ∧ DirectSource w root source)
      (run (sys (·.link source (root ++ parent ++ [base]))))
      (fun _ ↦ ConfinedAlong root w₀ (parent ++ [base])) (Confined root w₀) := by
  refine (sys_triple (fun w w' hw hop ↦ ?_) fun w hw ↦ hw.1.1).adaptExcept
  obtain ⟨hw, hsource⟩ := hw
  have hrooted := hw.1.rooted hroot
  have hstraight := hrooted.straight_snoc hclean hbase hw.2
  rcases hsource with rfl | ⟨parent', base', rfl, hclean', hbase', hu', hnone⟩
  · -- The root is a directory, which cannot be linked.
    have hsource : w.Straight false source := ⟨hrooted.clean, hrooted.unlinked.passable⟩
    obtain ⟨t, htree, hkind, -⟩ := hstraight.link_eq_ok hsource hop
    have hdir := hrooted.isDir
    rw [World.kindAt, kindAt, htree] at hdir
    exact absurd (Option.some.inj hdir) hkind
  · obtain ⟨t, htree, hkind, rfl⟩ :=
      hstraight.link_eq_ok (hrooted.straight_snoc hclean' hbase' hu') hop
    have hfile : LinkFree (some t) := by
      cases t with
      | file ino => exact linkFree_file ino
      | dir entries => exact absurd rfl hkind
      | symlink target =>
        rw [World.linkAt, World.kindAt, kindAt, htree] at hnone
        cases hnone
    have htouch : ConfinedAlong root w₀ parent (w.touch (root ++ parent' ++ [base'])) :=
      ⟨hw.1.touch (below_snoc root parent' base'), hw.2⟩
    exact htouch.put hfile

end

/-- A path whose metadata may be applied later. -/
def Deferred (root path : Path) : Prop :=
  ∃ parent base, path = root ++ parent ++ [base] ∧ Clean parent ∧ IsName base

theorem applyTarEntryTarget_triple (hroot : Rooted root w₀) (hclean : Clean parent)
    (hbase : IsName base) (hu : Unlinked links root parent) (rel : List Text)
    (hlink : hdr.typeflag = .link →
      isDirectLink (withoutLinks (root ++ parent ++ [base]) links) root rel hdr.linkname = true) :
    Triple (ConfinedAt root w₀ links) (applyTarEntryTarget root rel (root ++ parent ++ [base]) hdr)
      (fun dirs w ↦ Confined root w₀ w ∧ ∀ d ∈ dirs, Deferred root d.1) (Confined root w₀) := by
  have halong : ∀ w, ConfinedAt root w₀ links w → ConfinedAlong root w₀ parent w :=
    fun w hw ↦ ⟨hw.1, hw.2 ▸ hu⟩
  have hdone : ∀ {cs : List Text}, Triple (ConfinedAlong root w₀ cs)
      (pure [] : ExtractM (List (Path × Header)))
      (fun dirs w ↦ Confined root w₀ w ∧ ∀ d ∈ dirs, Deferred root d.1) (Confined root w₀) :=
    .pure fun w hw ↦ ⟨hw.1, by simp⟩
  have hprepare := (prepareTarEntryTarget_triple hroot hclean hbase hdr.typeflag).weaken_pre halong
  have hremove := removeTarget_triple hroot hclean hbase hu
  -- Clearing the place keeps the way to it free of links.
  have hcleared : Unlinked (withoutLinks (root ++ parent ++ [base]) links) root parent := by
    apply hu.mono
    intro q _ hq
    rw [withoutLinks]
    split
    · rfl
    · exact hq
  have halong' : ∀ w, ConfinedAt root w₀ (withoutLinks (root ++ parent ++ [base]) links) w →
      ConfinedAlong root w₀ parent w := fun w hw ↦ ⟨hw.1, hw.2 ▸ hcleared⟩
  have hmetadata : Stays root w₀ (ConfinedAlong root w₀ (parent ++ [base]))
      (applyTarEntryMetadata (root ++ parent ++ [base]) hdr) :=
    triple_along fun _ hu ↦ applyTarEntryMetadata_triple hroot hclean hbase hu
  rw [applyTarEntryTarget]
  cases hflag : hdr.typeflag with
  | dir =>
    rw [hflag] at hprepare
    apply bind hprepare
    intro _
    have hmkdir : Stays root w₀ (ConfinedAlong root w₀ (parent ++ [base]))
        (run (mkdirAll (root ++ parent ++ [base]).reverse)) := by
      rw [append_assoc]
      refine triple_along fun _ hu ↦ .adaptExcept ?_
      exact mkdirAll_triple hroot (hclean.append (clean_singleton.mpr hbase)) hu
    refine .bind hmkdir fun _ ↦ .pure fun w hw ↦ ⟨hw.1, ?_⟩
    intro d hd
    obtain rfl := mem_singleton.mp hd
    exact ⟨parent, base, rfl, hclean, hbase⟩
  | reg =>
    rw [hflag] at hprepare
    apply bind hprepare
    intro _
    apply bind (openTrunc_triple hroot hclean hbase)
    intro _
    split
    · exact .throw fun w hw ↦ hw.1
    · exact .bind hmetadata fun _ ↦ hdone
  | symlink =>
    apply bind (hremove.weaken_post (fun _ ↦ halong') fun _ h ↦ h)
    intro _
    apply bind (symlink_triple hroot hclean hbase hdr.linkname)
    intro _
    refine .bind (triple_along fun _ hu ↦ ?_) fun _ ↦ hdone
    exact applyTarEntryMetadata_symlink_triple hroot hclean hbase hu hflag
  | link =>
    apply bind hremove
    intro _
    refine .bind ((query_triple _).weaken_error fun _ h ↦ h.1) fun source ↦ ?_
    refine .bind ((link_triple hroot hclean hbase source).weaken_pre ?_) fun _ ↦
      .bind hmetadata fun _ ↦ hdone
    rintro w ⟨hw, hsource⟩
    refine ⟨halong' w hw, directSource_of_isDirectLink (hw.1.rooted hroot) hsource ?_⟩
    rw [hw.2]
    exact hlink hflag
  | other => exact hdone.weaken_pre halong

/-- **One entry.** A direct entry keeps the extraction confined. -/
theorem applyTarEntry_triple (hroot : Rooted root w₀)
    (hdirect : isDirectEntry links root hdr = true) :
    Triple (ConfinedAt root w₀ links) (applyTarEntry root hdr)
      (fun dirs w ↦ Confined root w₀ w ∧ ∀ d ∈ dirs, Deferred root d.1) (Confined root w₀) := by
  rw [isDirectEntry] at hdirect
  rw [applyTarEntry]
  have hrel : Clean (cleanLayerEntryName hdr.name) := clean_cleanRooted _
  cases hlast : (cleanLayerEntryName hdr.name).getLast? with
  | none => exact .pure fun w hw ↦ ⟨hw.1, by simp⟩
  | some base =>
    have hbase : IsName base := hrel base (mem_of_getLast? hlast)
    rw [hlast] at hdirect
    cases hparent : directParent links root [] (cleanLayerEntryName hdr.name).dropLast with
    | none => rw [hparent] at hdirect; nomatch hdirect
    | some parent =>
      rw [hparent] at hdirect
      dsimp only at hdirect
      refine .bind ((query_triple _).weaken_error fun _ h ↦ h.1) fun target ↦ .of_forall ?_
      rintro w ⟨hw, htarget⟩
      have hparent' : directParent w.linkAt root []
          (cleanRooted (cleanLayerEntryName hdr.name).dropLast) = some parent := by
        rw [cleanRooted_of_clean hrel.dropLast, hw.2, hparent]
      obtain ⟨rfl, hclean, hu⟩ :=
        resolveLayerEntryPath_eq_ok (hw.1.rooted hroot) hbase hlast htarget hparent'
      rw [hw.2] at hu
      rw [dropLast_concat]
      -- A whiteout removes, anything else creates its parents first and then itself.
      split_ifs with hwhiteout
      · rw [if_pos hwhiteout] at hdirect
        exact .bind ((applyWhiteout_triple hroot hclean (of_decide_eq_true hdirect)).at_state
          ⟨hw.1, hw.2 ▸ hu⟩) fun _ ↦ .pure fun w' hw' ↦ ⟨hw'.1, by simp⟩
      · rw [if_neg hwhiteout] at hdirect
        refine .bind ((mkdirAll_triple hroot hclean hu).adaptExcept.at_state hw) fun _ ↦ ?_
        apply applyTarEntryTarget_triple hroot hclean hbase hu _
        intro hflag
        rwa [if_pos hflag] at hdirect

/-- **The end of a layer.** The metadata of directories whose paths have no links. -/
theorem applyDirMetadata_triple (hroot : Rooted root w₀) {dirs : List (Path × Header)}
    (hdirs : ∀ d ∈ dirs, Deferred root d.1) (hu : ∀ d ∈ dirs, Unlinked links [] d.1) :
    Stays root w₀ (ConfinedAt root w₀ links) (applyDirMetadata dirs) := by
  apply forM dirs.reverse
  intro d hd
  have hmem := mem_reverse.mp hd
  obtain ⟨parent, base, hpath, hclean, hbase⟩ := hdirs d hmem
  have hpathLinks := hu d hmem
  rw [hpath, append_assoc, unlinked_append] at hpathLinks
  rw [hpath]
  exact applyTarEntryMetadata_triple hroot hclean hbase hpathLinks.2

end Programs

/-! ## Extractions -/

structure ExtractInv (root : Path) (w₀ : World) (s : Extraction) : Prop where
  confined : Confined root w₀ s.world
  deferred : ∀ d ∈ s.dirs, Deferred root d.1

theorem ExtractInv.step {root : Path} {w₀ : World} {s : Extraction} {e : ExtractEvent}
    (hroot : Rooted root w₀) (h : ExtractInv root w₀ s) (hdirect : StaysDirect root s e) :
    ExtractInv root w₀ (s.step root e) := by
  cases e with
  | readError => exact ⟨h.confined, h.deferred⟩
  | entry hdr =>
    rw [Extraction.step]
    split_ifs with hfailed
    · exact h
    -- An entry may fail in the middle; what it did until then is confined as well.
    have htriple := applyTarEntry_triple hroot (hdirect.resolve_left hfailed) s.world
      ⟨h.confined, rfl⟩
    split
    · rename_i dirs w hrun
      rw [hrun] at htriple
      refine ⟨htriple.1, ?_⟩
      intro d hd
      exact (mem_append.mp hd).elim (h.deferred d) (htriple.2 d)
    · rename_i e w hrun
      rw [hrun] at htriple
      exact ⟨htriple, h.deferred⟩
  | endOfLayer =>
    rw [Extraction.step]
    split_ifs with hfailed
    · exact h
    have htriple := applyDirMetadata_triple hroot h.deferred (hdirect.resolve_left hfailed)
      s.world ⟨h.confined, rfl⟩
    split
    · rename_i w hrun
      rw [hrun] at htriple
      exact ⟨htriple.1, by simp⟩
    · rename_i e w hrun
      rw [hrun] at htriple
      exact ⟨htriple, by simp⟩

def extractStep (root : Path) (s : Extraction) (e : ExtractEvent) : Option Extraction :=
  some (s.step root e)

/-- **Extraction is confined** while it stays direct: after any layers, in any filesystem in which
the directory is there, everything acted on lies below the directory, and nothing has changed
elsewhere. -/
theorem confined_of_staysDirect {root : Path} {w₀ : World} (hroot : Rooted root w₀)
    {events : List ExtractEvent} {s : Extraction}
    (hrun : Run (extractStep root) (StaysDirect root) (.init w₀) events s) :
    Confined root w₀ s.world := by
  have hinit : ExtractInv root w₀ (.init w₀) :=
    ⟨⟨by simp [Extraction.init], fun _ _ ↦ rfl⟩, by simp [Extraction.init]⟩
  refine (hrun.invariant (fun s e s' hs hok hstep ↦ ?_) hinit).confined
  obtain ⟨⟩ := hstep
  exact hs.step hroot hok

/-- A filesystem with the directories `/e` and `/d`, both empty. -/
def emptyDirs : World := ⟨some (.dir [(['e'], .dir []), (['d'], .dir [])]), 0, []⟩

def linkEntry (name target : Text) : ExtractEvent := .entry ⟨name, .symlink, target, false, true⟩

def fileEntry (name : Text) : ExtractEvent := .entry ⟨name, .reg, [], false, true⟩

/-- A file behind one link, to a directory of the container that does not exist yet. -/
theorem confined_of_staysDirect_oneLink :
    ∃ s, Run (extractStep [['d']]) (StaysDirect [['d']]) (.init emptyDirs)
        [linkEntry ['b'] ['/', 'e'], fileEntry ['b', '/', 'x'], .endOfLayer] s ∧
      Confined [['d']] emptyDirs s.world := by
  refine Run.exists_of_exec (·.failed = false) (by decide) fun s hrun _ ↦ ?_
  exact confined_of_staysDirect ⟨by decide, by decide, by decide⟩ hrun

/-- A chain of two links, `/d/b` to `/e` and `/d/a` to `b`, and a file `a/x`: it is created in `/e`,
outside the directory. -/
theorem not_confined_chain : ∃ s, Run (extractStep [['d']]) anyStep (.init emptyDirs)
        [linkEntry ['b'] ['/', 'e'], linkEntry ['a'] ['b'], fileEntry ['a', '/', 'x']] s ∧
      [['e'], ['x']] ∈ s.world.touched ∧ ¬ Below [['d']] [['e'], ['x']] := by
  exact Run.exists_of_exec _ (by decide) fun s hrun htouched ↦ ⟨htouched, by decide⟩

end Gocracker
