import Gocracker.Oci.Entries
import Gocracker.Posix.Places

/-!
# What a layer makes of the layers below

A layer replaces and adds files, and it hides what is in the layers below: a whiteout hides one
object, and an opaque marker everything in its directory. Whatever they hide, they hide in the
layers below only, so it does not matter where in the archive they stand: that is `Scene.applied`.

The extractor acts at once on each entry. A whiteout that stands behind the files of its own layer
takes those away, too. There are other differences. A file is written in place if there is a regular
file already, and then all its names change. A link cannot replace a directory that is not empty,
and devices are left out.

On paths on which there are only directories there is no further difference: an archive whose
whiteouts stand in front, and which has nothing of the other kinds, is extracted without an error
and to the tree that it describes.
-/

namespace Gocracker

open Machine Posix List Scene Option World Entry

variable {β : Type}

/-! ## What the entries of an archive describe -/

def layerItem (e : Header × β) : Item β :=
  match e.1.typeflag with
  | .dir => .dir
  | .reg => .leaf (.file e.2)
  | .symlink => .leaf (.symlink e.1.linkname)
  | .link => .link (linkSource e.1)
  | .other => .leaf .special

/-- The entry of a layer, with the contents of a file. The root itself is no entry. -/
def layerEntry (e : Header × β) : Option (Entry β) :=
  let rel := cleanLayerEntryName e.1.name
  match rel.getLast? with
  | none => none
  | some base =>
    if base = opaqueWhiteout then some (.clear rel.dropLast)
    else if whiteoutPrefix <+: base then
      some (.whiteout (rel.dropLast ++ [base.drop whiteoutPrefix.length]))
    else some (.item rel (layerItem e))

/-! ## Extracting an archive -/

/-- An extraction with the contents of all inodes. -/
structure Rootfs (β : Type) where
  extraction : Extraction
  data : ℕ → β

namespace Rootfs

def world (s : Rootfs β) : World := s.extraction.world

/-- The contents of inodes after an entry: those of a regular file go to the file at its target. -/
def written (root : Path) (s : Rootfs β) (w : World) (e : Header × β) : ℕ → β :=
  match layerEntry e with
  | some (.item rel (.leaf (.file b))) =>
    match (resolveLayerEntryPath s.world root rel).toOption.bind w.kindAt with
    | some (.file ino) => Function.update s.data ino b
    | _ => s.data
  | _ => s.data

/-- One iteration of the loop over an archive. -/
def entry (root : Path) (s : Rootfs β) (e : Header × β) : Rootfs β :=
  let extraction := s.extraction.step root (.entry e.1)
  ⟨extraction, if extraction.failed then s.data else s.written root extraction.world e⟩

/-- An archive is extracted to its end. -/
def applyTar (root : Path) (L : List (Header × β)) (s : Rootfs β) : Rootfs β :=
  let s' := L.foldl (entry root) s
  { s' with extraction := s'.extraction.step root .endOfLayer }

end Rootfs

def nodeOf (data : ℕ → β) : Kind → Node β
  | .dir => .dir
  | .file ino => .file (data ino)
  | .symlink target => .symlink target

/-- The tree in the directory, seen from there. -/
def Rootfs.view (root : Path) (s : Rootfs β) : Scene (Node β) := fun q ↦
  if Clean q then (s.world.kindAt (root ++ q)).map (nodeOf s.data) else none

/-! ## The condition -/

variable (root : Path) (w : World)

/-- On the way to a place there are directories, as far as there is anything. -/
def isOpen (d : List Text) : Bool :=
  d.inits.all fun q ↦ w.kindAt (root ++ q) = none || w.kindAt (root ++ q) = some .dir

/-- A file at the place has no other name. -/
def isUnshared (rel : List Text) : Bool :=
  (w.places root).all fun x ↦
    !x.2.isFile || w.kindAt (root ++ rel) ≠ some x.2 || x.1 = rel

/-- The condition on an entry that puts something at its place. -/
def fitsItem (rel : List Text) (hdr : Header) : Bool :=
  match hdr.typeflag with
  | .dir => true
  | .reg => hdr.readable && isUnshared root w rel
  | .symlink => hdr.linkname ≠ [] && !w.isFull (root ++ rel)
  | .link =>
    !w.isFull (root ++ rel) && linkSource hdr ≠ rel &&
      (isAbs hdr.linkname || cleanRelative (components hdr.linkname) = linkSource hdr) &&
      (w.kindAt (root ++ linkSource hdr)).any Kind.isFile
  | .other => false

/-- The condition on an entry. -/
def fits (hdr : Header) : Bool :=
  let rel := cleanLayerEntryName hdr.name
  match rel.getLast? with
  | none => true
  | some base =>
    isOpen root w rel.dropLast && if whiteoutPrefix <+: base then
        base = opaqueWhiteout || IsName (base.drop whiteoutPrefix.length)
      else fitsItem root w rel hdr

/-- Every entry fits where it is applied. -/
def Rootfs.admissible (root : Path) : Rootfs β → List (Header × β) → Bool
  | _, [] => true
  | s, e :: L => fits root s.world e.1 && admissible root (s.entry root e) L

/-- Before a layer: the directory exists, and the next inode is a new one. -/
structure Rootfs.Ready (root : Path) (s : Rootfs β) : Prop where
  clean : Clean root
  dir : s.world.kindAt root = some .dir
  fresh : ∀ p ino, s.world.kindAt p = some (.file ino) → ino < s.world.nextIno
  ok : s.extraction.failed = false

/-! ## Views -/

open Rootfs

section Views

variable {root p : Path} {s s' : Rootfs β} {kind : Kind} {keep : Bool}

theorem view_of_clean {q : Path} (hq : Clean q) :
    s.view root q = (s.world.kindAt (root ++ q)).map (nodeOf s.data) := if_pos hq

/-- Something is put at a place, and no other file has changed. -/
theorem view_of_place (hp : Clean p)
    (hkinds : s'.world.kindAt = place s.world.kindAt .dir (root ++ p) (some kind) keep)
    (hdata : ∀ q ino, q ≠ p → s.world.kindAt (root ++ q) = some (.file ino) →
      s'.data ino = s.data ino) :
    s'.view root = (s.view root).place .dir p (some (nodeOf s'.data kind)) keep := by
  have hsame : ∀ q, q ≠ p → (s.world.kindAt (root ++ q)).map (nodeOf s'.data) =
      (s.world.kindAt (root ++ q)).map (nodeOf s.data) := by
    intro q hq
    refine map_congr fun k hk ↦ ?_
    cases k with
    | dir | symlink => rfl
    | file ino => exact congrArg Node.file (hdata q ino hq hk)
  funext q
  simp only [view, hkinds, place, append_cancel_left_eq, prefix_append_right_inj]
  by_cases hq : q = p
  · simp [hq, hp]
  by_cases hclean : Clean q
  · split_ifs with hbelow hkeep habove
    · exact hsame q hq
    · rfl
    · rfl
    · exact hsame q hq
  · have habove : ¬ q <+: p := fun h ↦ hclean fun c hc ↦ hp c (h.subset hc)
    simp [hclean, hq, habove]

/-- Something is hidden, and no file has changed. -/
theorem view_of_hide {H : Path → Bool} (hdata : s'.data = s.data)
    (hkinds : ∀ q, Clean q → s'.world.kindAt (root ++ q) =
      if H q then none else s.world.kindAt (root ++ q)) : s'.view root = (s.view root).hide H := by
  funext q
  simp only [view, hide]
  by_cases hclean : Clean q
  · simp only [hkinds q hclean, hdata]
    cases H q <;> simp
  · simp [hclean]

theorem kindAt_of_view_dir (hp : Clean p) (h : s.view root p = some .dir) :
    s.world.kindAt (root ++ p) = some .dir := by
  rw [view_of_clean hp] at h
  obtain ⟨kind, hkind, hnode⟩ := map_eq_some_iff.mp h
  cases kind with
  | dir => exact hkind
  | file | symlink => nomatch hnode

theorem view_dir_of_isPrefix {q : Path} (hp : Clean p) (hq : q <+: p)
    (h : s.view root p = some .dir) : s.view root q = some .dir := by
  have hclean : Clean q := fun c hc ↦ hp c (hq.subset hc)
  have hqdir : s.world.kindAt (root ++ q) = some .dir :=
    kindAt_dir_of_isPrefix ((prefix_append_right_inj root).mpr hq) (kindAt_of_view_dir hp h)
  rw [view_of_clean hclean, hqdir]
  rfl

end Views

/-! ## Steps -/

/-- The entry `x` has been applied, and nothing else. -/
structure Rootfs.Advances (root : Path) (s s' : Rootfs β) (x : Entry β) : Prop where
  ready : s'.Ready root
  view : s'.view root = (s.view root).step x
  dirs : ∀ d ∈ s'.extraction.dirs,
    d ∈ s.extraction.dirs ∨ ∃ p, d.1 = root ++ p ∧ p ≠ [] ∧ Clean p ∧ x.dir? = some p

section Steps

variable {root d p : Path} {base : Text} {s : Rootfs β} {e : Header × β} {x : Entry β}
  {w : World} {dirs : List (Path × Header)}

theorem entry_of_ok (hs : s.extraction.failed = false)
    (h : applyTarEntry root e.1 s.world = .ok dirs w) :
    s.entry root e = ⟨⟨w, s.extraction.dirs ++ dirs, false⟩, s.written root w e⟩ := by
  have hstep : s.extraction.step root (.entry e.1) = ⟨w, s.extraction.dirs ++ dirs, false⟩ := by
    rw [Rootfs.world] at h
    rw [Extraction.step, hs, if_neg (by simp), h]
  rw [Rootfs.entry, hstep]
  rfl

theorem openAt_of_isOpen (hs : s.Ready root) (h : isOpen root s.world d = true) :
    OpenAt s.world.kindAt (root ++ d) := by
  intro q hq
  rcases prefix_or_prefix_of_prefix hq (prefix_append root d) with hroot | ⟨r, rfl⟩
  · exact .inr (kindAt_dir_of_isPrefix hroot hs.dir)
  · have hr : r ∈ d.inits := (mem_inits r d).mpr ((prefix_append_right_inj root).mp hq)
    have hopen := all_eq_true.mp h r hr
    simpa using hopen

theorem written_of_ne (hx : layerEntry e = some x)
    (hne : ∀ p b, x ≠ .item p (.leaf (.file b))) : s.written root w e = s.data := by
  rw [written, hx]
  split
  · rename_i p b heq
    exact absurd (some.inj heq) (hne p b)
  · rfl

/-- **An entry that hides something.** -/
theorem advances_hide {S : Path → Bool} (hs : s.Ready root) (hx : layerEntry e = some x)
    (hitem : x.item? = none) (h : applyTarEntry root e.1 s.world = .ok [] w)
    (hkinds : w.kindAt = hide s.world.kindAt S) (hnext : w.nextIno = s.world.nextIno)
    (hS : ∀ q, Clean q → hide s.world.kindAt S (root ++ q) =
      if x.hides q then none else s.world.kindAt (root ++ q))
    (hroot : x.hides [] = false) : Rootfs.Advances root s (s.entry root e) x := by
  have hwritten : s.written root w e = s.data := by
    refine written_of_ne hx fun p b hitem' ↦ ?_
    rw [hitem'] at hitem
    nomatch hitem
  rw [entry_of_ok hs.ok h, hwritten, append_nil]
  refine ⟨⟨hs.clean, ?_, fun q ino hq ↦ ?_, rfl⟩, ?_, fun d hd ↦ .inl hd⟩
  · have hself := hS [] nofun
    rw [append_nil, ← hkinds, hroot] at hself
    exact hself.trans hs.dir
  · have hq' : hide s.world.kindAt S q = some (.file ino) := hkinds ▸ hq
    rw [hide] at hq'
    split_ifs at hq'
    exact lt_of_lt_of_eq (hs.fresh q ino hq') hnext.symm
  · rw [step_eq_hide hitem]
    refine view_of_hide rfl fun q hq ↦ ?_
    rw [← hS q hq, ← hkinds]
    rfl

/-- **An entry that puts something at its place.** -/
theorem advances_item {y : Item β} {kind : Kind} {keep : Bool} (hs : s.Ready root)
    (hx : layerEntry e = some (.item p y)) (hp : Clean p) (hne : p ≠ [])
    (h : applyTarEntry root e.1 s.world = .ok dirs w)
    (hkinds : w.kindAt = place s.world.kindAt .dir (root ++ p) (some kind) keep)
    (hnext : s.world.nextIno ≤ w.nextIno) (hfresh : ∀ ino, kind = .file ino → ino < w.nextIno)
    (hdirs : ∀ d ∈ dirs, d.1 = root ++ p ∧ y = .dir)
    (hdata : ∀ q ino, q ≠ p → s.world.kindAt (root ++ q) = some (.file ino) →
      s.written root w e ino = s.data ino)
    (hadd : (s.view root).place .dir p (some (nodeOf (s.written root w e) kind)) keep =
      (s.view root).add p y) : Rootfs.Advances root s (s.entry root e) (.item p y) := by
  have hroot : ¬ root ++ p <+: root := by
    intro hpre
    have hle := hpre.length_le
    rw [length_append] at hle
    exact hne (length_eq_zero_iff.mp (by omega))
  rw [entry_of_ok hs.ok h]
  refine ⟨⟨hs.clean, ?_, fun q ino hq ↦ ?_, rfl⟩, ?_, fun d hd ↦ ?_⟩
  · change w.kindAt root = some .dir
    have hself : root ≠ root ++ p := fun heq ↦ hroot (heq ▸ prefix_refl root)
    rw [hkinds, place, if_neg hself, if_neg hroot, if_pos (prefix_append root p)]
  · have hq' : place s.world.kindAt .dir (root ++ p) (some kind) keep q =
        some (.file ino) := hkinds ▸ hq
    rw [place] at hq'
    split_ifs at hq' with hself hbelow hkeep habove
    · exact hfresh ino (some.inj hq')
    · exact (hs.fresh q ino hq').trans_le hnext
    · cases hq'
    · exact (hs.fresh q ino hq').trans_le hnext
  · refine Eq.trans ?_ hadd
    exact view_of_place hp hkinds hdata
  · rcases mem_append.mp hd with hold | hnew
    · exact .inl hold
    · obtain ⟨hpath, rfl⟩ := hdirs d hnew
      exact .inr ⟨p, hpath, hne, hp, rfl⟩

theorem Rootfs.Ready.nil (hs : s.Ready root) : s.world.kindAt [] = some .dir :=
  kindAt_dir_of_isPrefix nil_prefix hs.dir

theorem below_append_iff {q : Path} : Below (root ++ d) (root ++ q) ↔ Below d q := by
  rw [Below, Below, prefix_append_right_inj, Ne, append_cancel_left_eq]

theorem advances_marker (hs : s.Ready root)
    (hrel : cleanLayerEntryName e.1.name = d ++ [opaqueWhiteout])
    (hopen : OpenAt s.world.kindAt (root ++ d)) :
    Rootfs.Advances root s (s.entry root e) (.clear d) := by
  have hclean : Clean (d ++ [opaqueWhiteout]) := hrel ▸ clean_cleanRooted _
  have hx : layerEntry e = some (.clear d) := by
    simp only [layerEntry, hrel, getLast?_concat, dropLast_concat, if_true]
  obtain ⟨dirs, w, hrun, rfl, S, hshows, hS⟩ :=
    (applyTarEntry_whiteout hrel hs.clean hs.nil hopen (by decide)
      (applyWhiteout_marker (hs.clean.append hclean.left) hs.nil hopen)).exists_ok ⟨rfl, rfl⟩
  refine advances_hide hs hx rfl hrun hshows.kinds hshows.next (fun q hq ↦ ?_) ?_
  · rw [hS (root ++ q) (hs.clean.append hq)]
    simp only [hide, hides, decide_eq_true_eq, below_append_iff]
  · simp [hides, Below]

theorem advances_whiteout (hs : s.Ready root) (hrel : cleanLayerEntryName e.1.name = d ++ [base])
    (hopen : OpenAt s.world.kindAt (root ++ d)) (hmarker : base ≠ opaqueWhiteout)
    (hbase : whiteoutPrefix <+: base) (hname : IsName (base.drop whiteoutPrefix.length)) :
    Rootfs.Advances root s (s.entry root e)
      (.whiteout (d ++ [base.drop whiteoutPrefix.length])) := by
  have hclean : Clean (d ++ [base]) := hrel ▸ clean_cleanRooted _
  have hx : layerEntry e = some (.whiteout (d ++ [base.drop whiteoutPrefix.length])) := by
    simp only [layerEntry, hrel, getLast?_concat, dropLast_concat, hmarker, hbase,
      if_true, if_false]
  obtain ⟨dirs, w, hrun, rfl, hshows⟩ :=
    (applyTarEntry_whiteout hrel hs.clean hs.nil hopen hbase
      (applyWhiteout_name (hs.clean.append hclean.left) hs.nil hopen hmarker hname)).exists_ok
      ⟨rfl, rfl⟩
  refine advances_hide hs hx rfl hrun hshows.kinds hshows.next (fun q _ ↦ ?_) ?_
  · simp only [hide, hides, decide_eq_true_eq, append_assoc, prefix_append_right_inj]
  · simp [hides]

/-- An entry that puts something below an open path. -/
structure Rootfs.Puts (root : Path) (s : Rootfs β) (e : Header × β) (d : Path) (base : Text) :
    Prop where
  ready : s.Ready root
  rel : cleanLayerEntryName e.1.name = d ++ [base]
  isOpen : OpenAt s.world.kindAt (root ++ d)
  notWhiteout : ¬ whiteoutPrefix <+: base

namespace Rootfs.Puts

section

variable (h : Puts root s e d base)
include h

theorem clean : Clean (d ++ [base]) := h.rel ▸ clean_cleanRooted _

theorem isName : IsName base := h.clean base (by simp)

theorem cleanParent : Clean (root ++ d) := h.ready.clean.append h.clean.left

theorem layerEntry_eq : layerEntry e = some (.item (d ++ [base]) (layerItem e)) := by
  have hmarker : base ≠ opaqueWhiteout := by
    rintro rfl
    exact h.notWhiteout (by decide)
  simp only [layerEntry, h.rel, getLast?_concat, hmarker, h.notWhiteout, if_false]

/-- Once its parents are made, an entry is applied. -/
theorem exists_ok {Q : List (Path × Header) → World → Prop}
    (htarget : Gives (Scene.dirs s.world.kindAt .dir (root ++ d)) s.world.nextIno
      (applyTarEntryTarget root (d ++ [base]) (root ++ d ++ [base]) e.1) Q) :
    ∃ dirs w, applyTarEntry root e.1 s.world = .ok dirs w ∧ Q dirs w :=
  (applyTarEntry_item h.rel h.ready.clean h.ready.nil h.isOpen h.notWhiteout htarget).exists_ok
    ⟨rfl, rfl⟩

theorem written_eq (hleaf : ∀ b, layerItem e ≠ .leaf (.file b)) : s.written root w e = s.data := by
  refine written_of_ne h.layerEntry_eq fun p b heq ↦ hleaf b ?_
  exact (item.inj heq).2

/-- What is put at the place is no file whose contents are written. -/
theorem advances {y : Item β} {kind : Kind} {keep : Bool}
    (hitem : layerItem e = y) (hleaf : ∀ b, y ≠ .leaf (.file b))
    (hrun : applyTarEntry root e.1 s.world = .ok dirs w)
    (hshows : w.Shows (place s.world.kindAt .dir (root ++ d ++ [base]) (some kind) keep)
      s.world.nextIno) (hfresh : ∀ ino, kind = .file ino → ino < s.world.nextIno)
    (hdirs : ∀ d' ∈ dirs, d'.1 = root ++ d ++ [base] ∧ y = .dir)
    (hadd : (s.view root).place .dir (d ++ [base]) (some (nodeOf s.data kind)) keep =
      (s.view root).add (d ++ [base]) y) :
    Rootfs.Advances root s (s.entry root e) (.item (d ++ [base]) y) := by
  subst hitem
  have hwritten : s.written root w e = s.data := h.written_eq hleaf
  rw [append_assoc] at hshows hdirs
  refine advances_item h.ready h.layerEntry_eq h.clean (by simp) hrun hshows.kinds
    hshows.next.ge ?_ hdirs ?_ ?_
  · rw [hshows.next]
    exact hfresh
  · intro q ino _ _
    rw [hwritten]
  · rw [hwritten]
    exact hadd

theorem advances_dir (hflag : e.1.typeflag = .dir) :
    Rootfs.Advances root s (s.entry root e) (.item (d ++ [base]) .dir) := by
  obtain ⟨dirs, w, hrun, rfl, hshows⟩ :=
    h.exists_ok (applyTarEntryTarget_dir h.cleanParent h.isName hflag)
  refine h.advances (by simp only [layerItem, hflag]) nofun hrun hshows nofun ?_ ?_
  · intro d' hd'
    rw [mem_singleton.mp hd']
    exact ⟨rfl, rfl⟩
  rw [Scene.add, view_of_clean h.clean, ← append_assoc]
  cases hkind : s.world.kindAt (root ++ d ++ [base]) with
  | none => rfl
  | some kind => cases kind <;> rfl

theorem advances_symlink (hflag : e.1.typeflag = .symlink)
    (hlinkname : e.1.linkname ≠ []) (hfull : s.world.isFull (root ++ d ++ [base]) = false) :
    Rootfs.Advances root s (s.entry root e)
      (.item (d ++ [base]) (.leaf (.symlink e.1.linkname))) := by
  obtain ⟨dirs, w, hrun, rfl, hshows⟩ := h.exists_ok (applyTarEntryTarget_symlink h.cleanParent
    h.isName hflag hlinkname (kindAt_child_of_isFull hfull))
  exact h.advances (by simp only [layerItem, hflag]) nofun hrun hshows nofun nofun rfl

theorem advances_link {ino : ℕ} (hflag : e.1.typeflag = .link)
    (hfull : s.world.isFull (root ++ d ++ [base]) = false) (hself : linkSource e.1 ≠ d ++ [base])
    (hname : isAbs e.1.linkname = true ∨ cleanRelative (components e.1.linkname) = linkSource e.1)
    (hfile : s.world.kindAt (root ++ linkSource e.1) = some (.file ino)) :
    Rootfs.Advances root s (s.entry root e) (.item (d ++ [base]) (.link (linkSource e.1))) := by
  have hempty := kindAt_child_of_isFull hfull
  -- Below the place of the link there is nothing, so the source is elsewhere.
  have hsource : ¬ root ++ d ++ [base] <+: root ++ linkSource e.1 := by
    rintro ⟨r, hr⟩
    cases r with
    | nil =>
      rw [append_nil, append_assoc] at hr
      exact hself (append_cancel_left hr).symm
    | cons c r =>
      have hchild : root ++ d ++ [base] ++ [c] <+: root ++ linkSource e.1 := ⟨r, by simp [← hr]⟩
      exact kindAt_ne_none_of_isPrefix hchild (by simp [hfile]) (hempty c)
  obtain ⟨dirs, w, hrun, rfl, hshows⟩ := h.exists_ok (applyTarEntryTarget_link h.cleanParent
    h.isName hflag h.ready.clean (prefix_append root d) h.isOpen hempty hfile hsource hname)
  refine h.advances (by simp only [layerItem, hflag]) nofun hrun hshows ?_ nofun ?_
  · rintro _ ⟨⟩
    exact h.ready.fresh _ _ hfile
  · have hclean : Clean (linkSource e.1) := clean_cleanRooted _
    rw [Scene.add, view_of_clean hclean, hfile]
    rfl

/-- A regular file is written, under its one name. -/
theorem advances_reg (hflag : e.1.typeflag = .reg)
    (hread : e.1.readable = true) (hunshared : isUnshared root s.world (d ++ [base]) = true) :
    Rootfs.Advances root s (s.entry root e) (.item (d ++ [base]) (.leaf (.file e.2))) := by
  have hitem : layerItem e = .leaf (.file e.2) := by simp only [layerItem, hflag]
  have hassoc : root ++ d ++ [base] = root ++ (d ++ [base]) := append_assoc ..
  obtain ⟨dirs, w, hrun, rfl, ino, n', hshows, hino⟩ :=
    h.exists_ok (applyTarEntryTarget_reg h.cleanParent h.isName hflag hread
      fun ino hfile ↦ set_kindAt hfile nofun)
  rw [hassoc] at hshows hino
  have hwritten : s.written root w e = Function.update s.data ino e.2 := by
    have htarget := resolveLayerEntryPath_of_open h.ready.nil h.ready.clean h.clean.left h.isName
      h.isOpen
    have hfile : w.kindAt (root ++ (d ++ [base])) = some (.file ino) := by
      rw [hshows.kinds]
      exact if_pos rfl
    rw [written, h.layerEntry_eq, hitem]
    simp only [htarget, Except.toOption, bind_some, hassoc, hfile]
  rw [← hitem]
  refine advances_item h.ready h.layerEntry_eq h.clean (by simp) hrun hshows.kinds ?_ ?_ nofun ?_ ?_
  · rw [hshows.next]
    rcases hino with ⟨-, rfl⟩ | ⟨-, rfl⟩
    · exact le_rfl
    · exact Nat.le_succ _
  · rintro _ ⟨⟩
    rw [hshows.next]
    rcases hino with ⟨hfile, rfl⟩ | ⟨rfl, rfl⟩
    · exact h.ready.fresh _ _ hfile
    · exact Nat.lt_succ_self _
  · intro q ino' hq hfile'
    rw [hwritten, Function.update_of_ne]
    rintro rfl
    rcases hino with ⟨hfile, -⟩ | ⟨rfl, -⟩
    · have hmem := all_eq_true.mp hunshared _ (mem_places hfile')
      simp only [Kind.isFile, hfile, Bool.not_true, Bool.false_or, ne_eq, not_true, decide_false,
        decide_eq_true_eq] at hmem
      exact hq hmem
    · exact Nat.lt_irrefl _ (h.ready.fresh _ _ hfile')
  · rw [hitem, hwritten, Scene.add, nodeOf, Function.update_self]

theorem advances_of_fitsItem (hfits : fitsItem root s.world (d ++ [base]) e.1 = true) :
    Rootfs.Advances root s (s.entry root e) (.item (d ++ [base]) (layerItem e)) := by
  cases hflag : e.1.typeflag with
  | dir =>
    simp only [layerItem, hflag]
    exact h.advances_dir hflag
  | reg =>
    simp only [fitsItem, hflag, Bool.and_eq_true] at hfits
    simp only [layerItem, hflag]
    exact h.advances_reg hflag hfits.1 hfits.2
  | symlink =>
    simp only [fitsItem, hflag, Bool.and_eq_true, decide_eq_true_eq, Bool.not_eq_true',
      ← append_assoc] at hfits
    simp only [layerItem, hflag]
    exact h.advances_symlink hflag hfits.1 hfits.2
  | link =>
    simp only [fitsItem, hflag, Bool.and_eq_true, Bool.or_eq_true, decide_eq_true_eq,
      Bool.not_eq_true', ← append_assoc] at hfits
    obtain ⟨⟨⟨hfull, hself⟩, hname⟩, hfile⟩ := hfits
    obtain ⟨kind, hkind, hisFile⟩ := (any_eq_true _ _).mp hfile
    simp only [layerItem, hflag]
    cases kind with
    | file ino => exact h.advances_link hflag hfull hself hname hkind
    | dir | symlink => nomatch hisFile
  | other => simp [fitsItem, hflag] at hfits

end

end Rootfs.Puts

theorem entry_of_layerEntry_none (hs : s.Ready root) (hx : layerEntry e = none) :
    s.entry root e = s := by
  have hrel : cleanLayerEntryName e.1.name = [] := by
    rcases eq_nil_or_concat' (cleanLayerEntryName e.1.name) with hnil | ⟨d, base, hrel⟩
    · exact hnil
    · simp only [layerEntry, hrel, getLast?_concat] at hx
      split_ifs at hx
  have hrun : applyTarEntry root e.1 s.world = .ok [] s.world := by
    simp only [applyTarEntry, hrel]
    rfl
  have hwritten : s.written root s.world e = s.data := by rw [written, hx]
  rw [entry_of_ok hs.ok hrun, hwritten, append_nil, ← hs.ok]
  rfl

/-- **An entry that fits does what it describes.** -/
theorem advances_of_fits (hs : s.Ready root) (hx : layerEntry e = some x)
    (hfits : fits root s.world e.1 = true) : Rootfs.Advances root s (s.entry root e) x := by
  rcases eq_nil_or_concat' (cleanLayerEntryName e.1.name) with hnil | ⟨d, base, hrel⟩
  · simp [layerEntry, hnil] at hx
  simp only [fits, hrel, getLast?_concat, dropLast_concat, Bool.and_eq_true] at hfits
  obtain ⟨hopen, hfits⟩ := hfits
  have hopen := openAt_of_isOpen hs hopen
  simp only [layerEntry, hrel, getLast?_concat, dropLast_concat] at hx
  split_ifs at hx with hmarker hbase
  · rw [← some.inj hx]
    exact advances_marker hs (hmarker ▸ hrel) hopen
  · rw [if_pos hbase] at hfits
    rw [← some.inj hx]
    refine advances_whiteout hs hrel hopen hmarker hbase ?_
    simpa [hmarker] using hfits
  · rw [if_neg hbase] at hfits
    rw [← some.inj hx]
    exact Rootfs.Puts.advances_of_fitsItem ⟨hs, hrel, hopen, hbase⟩ hfits

end Steps

/-! ## A whole layer -/

/-- The directories whose metadata is to be applied in the end are there, and the entries `L` leave
them there. -/
def Rootfs.Kept (root : Path) (s : Rootfs β) (L : List (Entry β)) : Prop :=
  ∀ d ∈ s.extraction.dirs, ∃ p, d.1 = root ++ p ∧ p ≠ [] ∧ Clean p ∧ s.view root p = some .dir ∧
    ∀ x ∈ L, x.hides p = false ∧ x.replaces p = false

section Layers

variable {root : Path} {s s' : Rootfs β} {x : Entry β} {L : List (Header × β)}

theorem Rootfs.Kept.advances {rest : List (Entry β)} (h : s.Kept root (x :: rest))
    (hadvances : Rootfs.Advances root s s' x) (hspares : ∀ x' ∈ rest, x.Spares x') :
    s'.Kept root rest := by
  intro d hd
  rcases hadvances.dirs d hd with hold | ⟨p, hpath, hne, hclean, hdir⟩
  · obtain ⟨p, hpath, hne, hclean, hview, hrest⟩ := h d hold
    obtain ⟨hhides, hreplaces⟩ := hrest x mem_cons_self
    refine ⟨p, hpath, hne, hclean, ?_, fun x' hx' ↦ hrest x' (mem_cons_of_mem x hx')⟩
    rw [hadvances.view]
    exact step_eq_dir (fun q hq ↦ view_dir_of_isPrefix hclean hq hview) hhides hreplaces
  · refine ⟨p, hpath, hne, hclean, ?_, fun x' hx' ↦
      ⟨(hspares x' hx').1 p (mem_uses_of_dir? hdir), (hspares x' hx').2 p hdir⟩⟩
    rw [hadvances.view]
    exact step_self_of_dir? hdir

theorem foldl_entry (hs : s.Ready root) (hkept : s.Kept root (L.filterMap layerEntry))
    (hfits : s.admissible root L = true) (horder : (L.filterMap layerEntry).Pairwise Entry.Spares) :
    (L.foldl (entry root) s).Ready root ∧ (L.foldl (entry root) s).Kept root [] ∧
      (L.foldl (entry root) s).view root =
        (L.filterMap layerEntry).foldl step (s.view root) := by
  induction L generalizing s with
  | nil => exact ⟨hs, hkept, rfl⟩
  | cons e L ih =>
    rw [admissible, Bool.and_eq_true] at hfits
    cases hx : layerEntry e with
    | none =>
      rw [filterMap_cons_none hx] at hkept horder ⊢
      rw [entry_of_layerEntry_none hs hx] at hfits
      rw [foldl_cons, entry_of_layerEntry_none hs hx]
      exact ih hs hkept hfits.2 horder
    | some x =>
      rw [filterMap_cons_some hx] at hkept horder ⊢
      obtain ⟨hspares, hrest⟩ := pairwise_cons.mp horder
      have hadvances := advances_of_fits hs hx hfits.1
      rw [foldl_cons, foldl_cons, ← hadvances.view]
      exact ih hadvances.ready (hkept.advances hadvances hspares) hfits.2 hrest

/-- The metadata of directories that are there is applied. -/
theorem endOfLayer_of_kept (hs : s.Ready root) (hkept : s.Kept root []) :
    ∃ w, s.extraction.step root .endOfLayer = ⟨w, [], false⟩ ∧
      w.Shows s.world.kindAt s.world.nextIno := by
  have happly : Turns s.world.kindAt s.world.nextIno (applyDirMetadata s.extraction.dirs)
      s.world.kindAt s.world.nextIno := by
    refine .forM _ fun x hx ↦ ?_
    obtain ⟨p, hpath, hne, hclean, hview, -⟩ := hkept x (mem_reverse.mp hx)
    have hdirs (q : Path) (hq : q <+: root ++ p) : s.world.kindAt q = some .dir :=
      kindAt_dir_of_isPrefix hq (kindAt_of_view_dir hclean hview)
    obtain ⟨d, c, rfl⟩ := (eq_nil_or_concat' p).resolve_left hne
    rw [← append_assoc] at hpath hdirs
    rw [hpath]
    exact applyTarEntryMetadata_shows (hs.clean.append hclean.left) (hclean c (by simp))
      (hdirs _ (prefix_append _ _)) (hdirs _ (prefix_refl _)) (.inr rfl)
  obtain ⟨_, w, hrun, hshows⟩ := happly.exists_ok ⟨rfl, rfl⟩
  refine ⟨w, ?_, hshows⟩
  rw [world] at hrun
  rw [Extraction.step, hs.ok, if_neg (by simp), hrun]

theorem applyTar_ready (hs : s.Ready root) (hdirs : s.extraction.dirs = [])
    (hfits : s.admissible root L = true) (horder : (L.filterMap layerEntry).Pairwise Entry.Spares) :
    (s.applyTar root L).Ready root ∧ (s.applyTar root L).extraction.dirs = [] ∧
      (s.applyTar root L).view root = (s.view root).applied (L.filterMap layerEntry) := by
  have hkept : s.Kept root (L.filterMap layerEntry) := by
    intro d hd
    rw [hdirs] at hd
    nomatch hd
  obtain ⟨hready, hkept', hview⟩ := foldl_entry hs hkept hfits horder
  obtain ⟨w, hstep, hshows⟩ := endOfLayer_of_kept hready hkept'
  have hend : s.applyTar root L = ⟨⟨w, [], false⟩, (L.foldl (entry root) s).data⟩ := by
    rw [applyTar, hstep]
  rw [hend]
  refine ⟨⟨hready.clean, ?_, fun p ino hp ↦ ?_, rfl⟩, rfl, ?_⟩
  · exact (congrFun hshows.kinds root).trans hready.dir
  · exact lt_of_lt_of_eq (hready.fresh p ino ((congrFun hshows.kinds p).symm.trans hp))
      hshows.next.symm
  rw [← foldl_step_eq_applied horder, ← hview]
  funext q
  simp only [view, world]
  rw [hshows.kinds]
  rfl

/-- **A layer is extracted to the tree that it describes**: the lower layers without everything that
it hides, overlaid with what it has itself. -/
theorem applyTar_view (hs : s.Ready root) (hdirs : s.extraction.dirs = [])
    (hfits : s.admissible root L = true) (horder : (L.filterMap layerEntry).Pairwise Entry.Spares) :
    (s.applyTar root L).extraction.failed = false ∧
      (s.applyTar root L).view root = (s.view root).applied (L.filterMap layerEntry) :=
  have h := applyTar_ready hs hdirs hfits horder
  ⟨h.1.ok, h.2.2⟩

/-- All layers of an image, the lowest first. -/
def Rootfs.extractToDir (root : Path) (layers : List (List (Header × β))) (s : Rootfs β) :
    Rootfs β :=
  layers.foldl (fun s L ↦ s.applyTar root L) s

/-- Every layer meets the condition where it is applied. -/
def Rootfs.AllOrderly (root : Path) : Rootfs β → List (List (Header × β)) → Prop
  | _, [] => True
  | s, L :: layers => s.admissible root L = true ∧
      (L.filterMap layerEntry).Pairwise Entry.Spares ∧ AllOrderly root (s.applyTar root L) layers

/-- **An image is extracted to its layers, one over the other.** -/
theorem extractToDir_view {layers : List (List (Header × β))} (hs : s.Ready root)
    (hdirs : s.extraction.dirs = []) (horderly : s.AllOrderly root layers) :
    (s.extractToDir root layers).extraction.failed = false ∧
      (s.extractToDir root layers).view root =
        layers.foldl (fun T L ↦ T.applied (L.filterMap layerEntry)) (s.view root) := by
  induction layers generalizing s with
  | nil => exact ⟨hs.ok, rfl⟩
  | cons L layers ih =>
    obtain ⟨hfits, horder, hrest⟩ := horderly
    obtain ⟨hready, hnone, hview⟩ := applyTar_ready hs hdirs hfits horder
    rw [foldl_cons, ← hview]
    exact ih hready hnone hrest

end Layers

/-! ## Two archives -/

/-- The directory `/c` has the file `/a/old`. -/
def sampleRootfs : Rootfs String where
  extraction :=
    .init ⟨some (.dir [("c".toList, .dir [("a".toList, .dir [("old".toList, .file 0)])])]), 1, []⟩
  data _ := "old"

def sampleHeader (typeflag : TypeFlag) (name linkname : String) : Header :=
  ⟨name.toList, typeflag, linkname.toList, false, true⟩

/-- A directory is made opaque and then filled, and a file has a second name. -/
def earlyMarker : List (Header × String) :=
  [(sampleHeader .reg "a/.wh..wh..opq" "", ""), (sampleHeader .dir "a/sub" "", ""),
    (sampleHeader .reg "a/sub/new" "", "new"), (sampleHeader .symlink "a/l" "sub/new", ""),
    (sampleHeader .link "b/other" "a/sub/new", ""), (sampleHeader .reg "b/.wh.none" "", "")]

theorem ready_sampleRootfs : sampleRootfs.Ready [['c']] where
  clean := by decide
  dir := by decide
  fresh p ino h := by
    have hall : ∀ x ∈ sampleRootfs.world.places [], x.2 = .dir ∨ x.2 = .file 0 := by decide
    have hmem : (p, Kind.file ino) ∈ sampleRootfs.world.places [] := mem_places h
    rcases hall _ hmem with hdir | hfile
    · nomatch hdir
    · rw [Kind.file.inj hfile]
      exact Nat.zero_lt_one
  ok := rfl

theorem applyTar_earlyMarker :
    (sampleRootfs.applyTar [['c']] earlyMarker).view [['c']] ["b".toList, "other".toList] =
        some (.file "new") ∧
    (sampleRootfs.applyTar [['c']] earlyMarker).extraction.failed = false ∧
    (sampleRootfs.applyTar [['c']] earlyMarker).view [['c']] =
      (sampleRootfs.view [['c']]).applied (earlyMarker.filterMap layerEntry) :=
  ⟨by decide +kernel,
    applyTar_view ready_sampleRootfs rfl (by decide +kernel) (by decide +kernel)⟩

/-- In the second layer, the link is hidden. -/
def twoLayers : List (List (Header × String)) :=
  [earlyMarker, [(sampleHeader .reg "a/.wh.l" "", "")]]

theorem extractToDir_twoLayers :
    (sampleRootfs.extractToDir [['c']] twoLayers).extraction.failed = false ∧
    (sampleRootfs.extractToDir [['c']] twoLayers).view [['c']] =
      twoLayers.foldl (fun T L ↦ T.applied (L.filterMap layerEntry)) (sampleRootfs.view [['c']]) :=
  extractToDir_view ready_sampleRootfs rfl
    ⟨by decide +kernel, by decide +kernel, by decide +kernel, by decide +kernel, trivial⟩

/-- A new file, and behind it the marker that makes its directory opaque. -/
def lateMarker : List (Header × String) :=
  [(sampleHeader .reg "a/new" "", "new"), (sampleHeader .reg "a/.wh..wh..opq" "", "")]

/-- The marker takes away the file of its own layer. -/
theorem applyTar_lateMarker_ne :
    (sampleRootfs.applyTar [['c']] lateMarker).extraction.failed = false ∧
    (sampleRootfs.applyTar [['c']] lateMarker).view [['c']] ["a".toList, "new".toList] = none ∧
    (sampleRootfs.applyTar [['c']] lateMarker).view [['c']] ≠
      (sampleRootfs.view [['c']]).applied (lateMarker.filterMap layerEntry) := by
  have hlost : (sampleRootfs.applyTar [['c']] lateMarker).view [['c']]
      ["a".toList, "new".toList] = none := by decide +kernel
  have hhas : (sampleRootfs.view [['c']]).applied (lateMarker.filterMap layerEntry)
      ["a".toList, "new".toList] = some (.file "new") := by decide +kernel
  refine ⟨by decide +kernel, hlost, fun heq ↦ ?_⟩
  rw [heq] at hlost
  nomatch hlost

end Gocracker
