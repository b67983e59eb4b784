import Gocracker.Posix.Area

/-!
# Programs that read and write

A program that copies reads from one place and writes to another. A *session* is a filesystem with
the record of the places whose contents were read, resolved as the places that were acted on are.
What a directory holds, what a file holds and where a link leads are contents; to ask what kind of
object is somewhere is not to read it.

## Sources

Where a program reads is settled by the links on the way, as where it writes. But these links need
not be carried along: a source lies *aside* if it leads to a place apart from the area that is
written to, and does so whatever is in that area. It then leads there all the time, and the place
stays as it is, with everything below. Links on the way do no harm, as long as they do not lead
through the area.
-/

namespace Posix

open Machine List

/-! ## Contents -/

/-- An entry of a directory, as a listing shows it. -/
structure Dirent where
  name : Text
  isDir : Bool

namespace World

variable (w : World)

/-- The entries of the directory at a place. -/
def listing (p : Path) : Except Errno (List Dirent) :=
  match treeAt w.tree p with
  | some (.dir entries) =>
    .ok (((entries.map (·.1)).dedup.filter fun c ↦ IsName c).map fun c ↦
      ⟨c, decide (w.kindAt (p ++ [c]) = some .dir)⟩)
  | some _ => .error .enotdir
  | none => .error .enoent

def listDir (path : Path) : Except Errno (List Dirent) := do
  let p ← w.resolve true path
  w.listing p

/-- What a file or directory that is opened at a place is. -/
def opened (p : Path) : Except Errno Kind :=
  match w.kindAt p with
  | none => .error .enoent
  | some (.symlink _) => .error .eloop
  | some kind => .ok kind

def linkTarget (p : Path) : Except Errno Text :=
  match w.kindAt p with
  | none => .error .enoent
  | some (.symlink target) => .ok target
  | some _ => .error .einval

variable {w : World} {p : Path} {c : Text} {entries : List Dirent}

section

variable (h : w.listing p = .ok entries)
include h

theorem listing_eq_ok : ∃ named, treeAt w.tree p = some (.dir named) ∧
      entries = ((named.map (·.1)).dedup.filter fun c ↦ IsName c).map fun c ↦
        ⟨c, decide (w.kindAt (p ++ [c]) = some .dir)⟩ := by
  rw [listing] at h
  split at h
  · exact ⟨_, ‹_›, (Except.ok.inj h).symm⟩
  · nomatch h
  · nomatch h

theorem nodup_names_of_listing : (entries.map Dirent.name).Nodup := by
  obtain ⟨named, -, rfl⟩ := listing_eq_ok h
  rw [map_map]
  exact List.Nodup.map (fun _ _ heq ↦ heq) ((nodup_dedup _).filter _)

variable {e : Dirent}

theorem isName_of_listing (he : e ∈ entries) : IsName e.name := by
  obtain ⟨named, -, rfl⟩ := listing_eq_ok h
  obtain ⟨c, hc, rfl⟩ := mem_map.mp he
  exact of_decide_eq_true (mem_filter.mp hc).2

theorem isDir_of_listing (he : e ∈ entries)
    (hdir : e.isDir = true) : w.kindAt (p ++ [e.name]) = some .dir := by
  obtain ⟨named, -, rfl⟩ := listing_eq_ok h
  obtain ⟨c, -, rfl⟩ := mem_map.mp he
  exact of_decide_eq_true hdir

end

/-- A directory to which no link is on the way can be listed. -/
theorem Straight.listDir_eq_listing (h : w.Straight true p) (hdir : w.kindAt p = some .dir) :
    w.listDir p = w.listing p := by
  rcases h.resolve with hok | ⟨-, hnone⟩
  · rw [listDir, hok]
    rfl
  · exact absurd (hdir.symm.trans hnone) (by simp)

theorem listing_ne_error (hdir : w.kindAt p = some .dir) {e : Errno} : w.listing p ≠ .error e := by
  obtain ⟨t, htree, hkind⟩ := Option.map_eq_some_iff.mp hdir
  cases t with
  | dir named => rw [listing, htree]; simp
  | file | symlink => nomatch hkind

/-- An empty directory has nothing under a name. -/
theorem kindAt_of_listing_nil (h : w.listing p = .ok []) (hc : IsName c) (q : Path) :
    w.kindAt (p ++ c :: q) = none := by
  obtain ⟨named, hdir, hnil⟩ := listing_eq_ok h
  have hnone : entry c named = none := by
    rw [entry, Option.map_eq_none_iff, find?_eq_none]
    intro e he hname
    have hmem : c ∈ (named.map (·.1)).dedup.filter fun c ↦ IsName c := by
      refine mem_filter.mpr ⟨mem_dedup.mpr (mem_map.mpr ⟨e, he, ?_⟩), ?_⟩
      · exact of_decide_eq_true hname
      · exact decide_eq_true hc
    rw [map_eq_nil_iff.mp hnil.symm] at hmem
    exact absurd hmem not_mem_nil
  rw [kindAt, kindAt_append, hdir, Posix.kindAt, treeAt, hnone, treeAt_none]
  rfl

end World

/-! ## Sessions -/

/-- A filesystem, with the places whose contents were read. -/
structure Session where
  world : World
  reads : List Path

abbrev FileM := EStateM Errno Session

def act {α : Type} (c : EStateM Errno World α) : FileM α := fun s ↦
  match c s.world with
  | .ok a w => .ok a { s with world := w }
  | .error e w => .error e { s with world := w }

/-- Ask the filesystem something that is no content. -/
def ask {α : Type} (query : World → Except Errno α) : FileM α := fun s ↦
  match query s.world with
  | .ok a => .ok a s
  | .error e => .error e s

def readAt {α : Type} (follow : Bool) (path : Path) (content : World → Path → Except Errno α) :
    FileM α := fun s ↦
  match s.world.resolve follow path with
  | .error e => .error e s
  | .ok p =>
    match content s.world p with
    | .error e => .error e s
    | .ok a => .ok a { s with reads := p :: s.reads }

open World

def readDir (path : Path) : FileM (List Dirent) := readAt true path listing

/-- Open a file for reading, or a directory, from which nothing can be read then. -/
def openRead (path : Path) : FileM Kind := readAt true path opened

def readLink (path : Path) : FileM Text := readAt false path linkTarget

/-- Run a program whose reads do not count. -/
def unrecorded {α : Type} (c : FileM α) : FileM α := fun s ↦
  match c s with
  | .ok a s' => .ok a { s' with reads := s.reads }
  | .error e s' => .error e { s' with reads := s.reads }

/-! ## Guarded sessions -/

/-- Since `s₀`, everything acted on lies in `A`, and everything read in `B`; and the given places
are clear. -/
structure Guarded (A B : Area) (s₀ : Session) (L : Set Path) (s : Session) : Prop where
  safe : Safe A s₀.world L s.world
  reads : ∀ p ∈ s.reads, p ∈ B ∨ p ∈ s₀.reads

variable {A A' B B' : Area} {s₀ s₁ s : Session} {L M : Set Path} {w w' : World}
  {path p q src place dst : Path} {c : Text} {α : Type}

namespace Guarded

theorem refl (A B : Area) (s : Session) : Guarded A B s s.world.clear s :=
  ⟨⟨Within.refl A s.world, fun _ hq ↦ hq⟩, fun _ hp ↦ .inr hp⟩

theorem mono (h : Guarded A B s₀ L s) (hML : M ⊆ L) : Guarded A B s₀ M s :=
  ⟨h.safe.mono hML, h.reads⟩

/-- A place where no link is now may be counted among those that are clear. -/
theorem insert (h : Guarded A B s₀ L s) (hlink : s.world.linkAt p = none) :
    Guarded A B s₀ (insert p L) s := by
  refine ⟨⟨h.safe.within, fun q hq ↦ ?_⟩, h.reads⟩
  rcases hq with rfl | hq
  · exact hlink
  · exact h.safe.clear q hq

theorem mono_area (h : Guarded A B s₀ L s) (hA : A ⊆ A') (hB : B ⊆ B') : Guarded A' B' s₀ L s :=
  ⟨⟨h.safe.within.mono hA, h.safe.clear⟩, fun p hp ↦ (h.reads p hp).imp_left (hB ·)⟩

theorem of_reads (hworld : s.world = s₀.world) (hreads : ∀ p ∈ s.reads, p ∈ B ∨ p ∈ s₀.reads) :
    Guarded A B s₀ s₀.world.clear s := by
  refine ⟨⟨?_, fun q hq ↦ ?_⟩, hreads⟩
  · rw [hworld]
    exact Within.refl A s₀.world
  · rw [hworld]
    exact hq

theorem trans (h : Guarded A B s₀ L s₁) (h' : Guarded A B s₁ M s) : Guarded A B s₀ M s where
  safe := ⟨h.safe.within.trans h'.safe.within, h'.safe.clear⟩
  reads := by
    intro p hp
    rcases h'.reads p hp with hB | hold
    · exact .inl hB
    · exact h.reads p hold

theorem less (h : Guarded A B s₀ L s) : Guarded A B s₀ (besides L p) s :=
  ⟨h.safe.less, h.reads⟩

theorem relax (h : Guarded A B s₀ L s) : Guarded A B s₀ ∅ s := h.mono (Set.empty_subset L)

end Guarded

/-- The first part of a program that puts something at a place. -/
theorem bind_less {β : Type} {P : Session → Prop} {Q : α → Session → Prop} {R : β → Session → Prop}
    {c : FileM α} {f : α → FileM β} (hc : Triple P c Q (Guarded A B s₀ L))
    (hf : ∀ a, Triple (Q a) (f a) R (Guarded A B s₀ (besides L p))) :
    Triple P (c >>= f) R (Guarded A B s₀ (besides L p)) :=
  .bind (hc.weaken_error fun _ h ↦ h.less) hf

theorem act_triple {c : EStateM Errno World α}
    (hc : Leads (Safe A s₀.world L) c (Safe A s₀.world M)) :
    Leads (Guarded A B s₀ L) (act c) (Guarded A B s₀ M) := by
  intro s hs
  have hmid := hc s.world hs.safe
  rw [act]
  cases hrun : c s.world with
  | ok a w | error e w =>
    rw [hrun] at hmid
    exact ⟨hmid, hs.reads⟩

variable {query : World → Except Errno α}

theorem ask_eq_triple :
    Triple (· = s₀) (ask query) (fun a s ↦ s = s₀ ∧ query s₀.world = .ok a) (· = s₀) := by
  rintro s rfl
  rw [ask]
  cases hrun : query s.world with
  | ok a => exact ⟨rfl, rfl⟩
  | error e => exact rfl

theorem ask_triple : Triple (Guarded A B s₀ L) (ask query)
      (fun a s ↦ Guarded A B s₀ L s ∧ query s.world = .ok a) (Guarded A B s₀ L) := by
  intro s hs
  rw [ask]
  cases hrun : query s.world with
  | ok a => exact ⟨hs, hrun⟩
  | error e => exact hs

theorem ask_keeps : Keeps (Guarded A B s₀ L) (ask query) :=
  ask_triple.weaken_post (fun _ _ h ↦ h.1) fun _ h ↦ h

/-- The place that is read has to be one that may be read. -/
theorem readAt_triple {follow : Bool} {content : World → Path → Except Errno α}
    (hB : ∀ s p, Guarded A B s₀ L s → s.world.resolve follow path = .ok p → p ∈ B) :
    Triple (Guarded A B s₀ L) (readAt follow path content) (fun a s ↦ Guarded A B s₀ L s ∧
        ∃ p, s.world.resolve follow path = .ok p ∧ content s.world p = .ok a)
      (Guarded A B s₀ L) := by
  intro s hs
  rw [readAt]
  cases hres : s.world.resolve follow path with
  | error e => exact hs
  | ok p =>
    dsimp only
    cases hcontent : content s.world p with
    | error e => exact hs
    | ok a =>
      refine ⟨⟨hs.safe, fun q hq ↦ ?_⟩, p, hres, hcontent⟩
      rcases mem_cons.mp hq with rfl | hmem
      · exact .inl (hB s q hs hres)
      · exact hs.reads q hmem

theorem unrecorded_triple {c : FileM α} (hc : Leads (Guarded A B' s₀ L) c (Guarded A B' s₀ M))
    (hB : ∀ p, p ∈ B') : Leads (Guarded A B s₀ L) (unrecorded c) (Guarded A B s₀ M) := by
  intro s hs
  have hmid := hc s ⟨hs.safe, fun p _ ↦ .inl (hB p)⟩
  rw [unrecorded]
  cases hrun : c s with
  | ok a s' | error e s' =>
    rw [hrun] at hmid
    exact ⟨hmid.safe, hs.reads⟩

/-! ## Sources that lie aside -/

/-- A source that leads to a place apart from the area, whatever is in the area. -/
structure Aside (A : Area) (w : World) (src place : Path) : Prop where
  clean : Clean src
  leads : ∀ w' : World, (∀ q, q ∉ A → w'.kindAt q = w.kindAt q) →
    ∀ p, w'.resolve false src = .ok p → p = place
  apart : ∀ q, place <+: q → q ∉ A

namespace Aside

theorem of_unlinked (hclean : Clean src) (hunlinked : Unlinked w.linkAt [] src.dropLast)
    (hapart : ∀ q, src <+: q → q ∉ A) : Aside A w src src where
  clean := hclean
  leads := by
    intro w' hsame p hp
    have hclear : Clear (way src.dropLast) w' := by
      intro q hq
      have hmem : q ∉ A := fun hmem ↦ hapart src (prefix_refl src)
        (A.mem_of_isPrefix hmem (hq.2.trans (List.dropLast_prefix src)))
      rw [linkAt_congr (hsame q hmem)]
      exact unlinked_iff_way.mp hunlinked q hq
    exact (hclear.straight_parent hclean (subset_refl _)).eq_of_resolve hp
  apart := hapart

theorem not_mem_tree (h : ¬ dst <+: place) (h' : ¬ place <+: dst) (q : Path) (hq : place <+: q) :
    q ∉ Area.tree dst := by
  intro hmem
  rcases prefix_or_prefix_of_prefix hq (Area.mem_tree.mp hmem) with hpre | hpre
  · exact h' hpre
  · exact h hpre

theorem of_apart (hclean : Clean src) (hunlinked : Unlinked w.linkAt [] src.dropLast)
    (h : ¬ dst <+: src) (h' : ¬ src <+: dst) : Aside (.tree dst) w src src :=
  of_unlinked hclean hunlinked (not_mem_tree h h')

/-- A source that leads to its place even if nothing is in the area. -/
theorem of_resolve (hclean : Clean src) (hleads : (w.put dst none).resolve false src = .ok place)
    (h : ¬ dst <+: place) (h' : ¬ place <+: dst) : Aside (.tree dst) w src place where
  clean := hclean
  leads := by
    intro w' hsame p hp
    have hthere : w'.resolve false src = .ok place :=
      World.resolveFrom_of_agree (A := (dst <+: ·)) (fun q hq ↦ kindAt_put_none_of_isPrefix hq)
        (fun q hq ↦ (hsame q (hq ∘ Area.mem_tree.mp)).trans (kindAt_put_of_not_isPrefix hq).symm)
        h hleads
    exact Except.ok.inj (hp.symm.trans hthere)
  apart := not_mem_tree h h'

/-- It makes no difference whether the last link is followed, if the place is no link. -/
theorem eq_of_follow (h : Aside A w src place) (hlink : w.linkAt place = none)
    (hsame : ∀ q, q ∉ A → w'.kindAt q = w.kindAt q) (hp : w'.resolve true src = .ok p) :
    p = place := by
  rcases World.resolveFrom_true hp with hfalse | ⟨q, hq, hne⟩
  · exact h.leads w' hsame p hfalse
  · obtain rfl := h.leads w' hsame q hq
    rw [linkAt_congr (hsame q (h.apart q (prefix_refl q))), hlink] at hne
    exact absurd rfl hne

section

variable (h : Aside A s₀.world src place) (hs : Guarded A B s₀ L s)
include h hs

/-- Nothing changes at the place and below. -/
theorem kindAt_eq (hq : place <+: q) : s.world.kindAt q = s₀.world.kindAt q :=
  hs.safe.within.outside q (h.apart q hq)

theorem eq_of_resolve (hp : s.world.resolve false src = .ok p) : p = place :=
  h.leads s.world hs.safe.within.outside p hp

theorem eq_of_resolve_true (hlink : s₀.world.linkAt place = none)
    (hp : s.world.resolve true src = .ok p) : p = place :=
  h.eq_of_follow hlink hs.safe.within.outside hp

/-- What `Lstat` says about a source that lies aside was true from the beginning. -/
theorem kindAt_of_lstat {kind : Kind} (hstat : s.world.lstat src = .ok kind) :
    s₀.world.kindAt place = some kind := by
  obtain ⟨p, hp, hkind⟩ := bind_eq_ok.mp hstat
  rw [h.eq_of_resolve hs hp, h.kindAt_eq hs (prefix_refl place)] at hkind
  cases hat : s₀.world.kindAt place with
  | none => rw [hat] at hkind; nomatch hkind
  | some kind' => rw [hat] at hkind; exact congrArg some (Except.ok.inj hkind)

end

theorem child (h : Aside A w src place) (hlink : w.linkAt place = none) (hc : IsName c) :
    Aside A w (src ++ [c]) (place ++ [c]) where
  clean := h.clean.append (clean_singleton.mpr hc)
  leads := by
    intro w' hsame p hp
    obtain ⟨d, hd, rfl⟩ := World.resolveFrom_snoc hc hp
    rw [h.eq_of_follow hlink hsame hd]
  apart q hq := h.apart q ((prefix_append place [c]).trans hq)

end Aside

/-- What may be read: anything, or something that lies aside, at a place in `B`. -/
def Readable (A B : Area) (w : World) (src : Path) : Prop :=
  (∀ p, p ∈ B) ∨ ∃ place ∈ B, Aside A w src place

/-- A directory that may be read, with everything below. -/
def ReadableDir (A B : Area) (w : World) (src : Path) : Prop :=
  (∀ p, p ∈ B) ∨ ∃ place ∈ B, Aside A w src place ∧ w.linkAt place = none

theorem ReadableDir.child (h : ReadableDir A B w src) (hc : IsName c) :
    Readable A B w (join src [c]) := by
  rcases h with hB | ⟨place, hmem, haside, hlink⟩
  · exact .inl hB
  · rw [join_of_clean haside.clean (clean_singleton.mpr hc)]
    exact .inr ⟨_, B.mem_of_isPrefix hmem (prefix_append place [c]), haside.child hlink hc⟩

theorem readLink_triple (h : Readable A B s₀.world src) :
    Keeps (Guarded A B s₀ L) (readLink src) := by
  refine (readAt_triple fun s p hs hp ↦ ?_).weaken_post (fun _ _ h ↦ h.1) fun _ h ↦ h
  rcases h with hB | ⟨place, hmem, haside⟩
  · exact hB p
  · rw [haside.eq_of_resolve hs hp]
    exact hmem

theorem ReadableDir.mem_of_resolve (h : ReadableDir A B s₀.world src) (hs : Guarded A B s₀ L s)
    (hp : s.world.resolve true src = .ok p) : p ∈ B := by
  rcases h with hB | ⟨place, hmem, haside, hlink⟩
  · exact hB p
  · rw [haside.eq_of_resolve_true hs hlink hp]
    exact hmem

theorem openRead_triple (h : ReadableDir A B s₀.world src) :
    Keeps (Guarded A B s₀ L) (openRead src) :=
  (readAt_triple fun _ _ ↦ h.mem_of_resolve).weaken_post (fun _ _ h ↦ h.1) fun _ h ↦ h

theorem openRead_of_way (hclean : Clean src) (hmem : src ∈ B) (hway : way src ⊆ L) :
    Keeps (Guarded A B s₀ L) (openRead src) := by
  refine (readAt_triple fun s p hs hp ↦ ?_).weaken_post (fun _ _ h ↦ h.1) fun _ h ↦ h
  rw [(hs.safe.clear.straight hclean hway true).eq_of_resolve hp]
  exact hmem

/-- The entries of a listing have distinct names, and may be read in turn. -/
theorem readDir_triple (h : ReadableDir A B s₀.world src) : Triple (Guarded A B s₀ L) (readDir src)
      (fun entries s ↦ Guarded A B s₀ L s ∧ (entries.map Dirent.name).Nodup ∧
        ∀ e ∈ entries, IsName e.name ∧ Readable A B s₀.world (join src [e.name]) ∧
          (e.isDir = true → ReadableDir A B s₀.world (join src [e.name]))) (Guarded A B s₀ L) := by
  refine (readAt_triple fun _ _ ↦ h.mem_of_resolve).weaken_post ?_ fun _ h ↦ h
  rintro entries s ⟨hs, p, hp, hlisting⟩
  refine ⟨hs, nodup_names_of_listing hlisting, fun e he ↦ ?_⟩
  have hname := isName_of_listing hlisting he
  have hchild := h.child hname
  refine ⟨hname, hchild, fun hdir ↦ ?_⟩
  rcases h with hB | ⟨place, hmem, haside, hlink⟩
  · exact .inl hB
  have hpre : place <+: place ++ [e.name] := prefix_append place [e.name]
  rw [join_of_clean haside.clean (clean_singleton.mpr hname)]
  refine .inr ⟨_, B.mem_of_isPrefix hmem hpre, haside.child hlink hname, ?_⟩
  -- The listing was made later, but the source has not changed since.
  have hkind := isDir_of_listing hlisting he hdir
  rw [haside.eq_of_resolve_true hs hlink hp, haside.kindAt_eq hs hpre] at hkind
  rw [linkAt, hkind]

end Posix
