import Gocracker.Posix.Confined

/-!
# Staying inside an area

An *area* is a set of places that contains, with a place, everything below it: what lies below a
directory, a directory with everything below it, or several of these. A filesystem is *within* an
area, with respect to an earlier one, if every object that was acted on since then lies in the area
and nothing has changed anywhere else. Being within is transitive, so that a long run may be taken
apart, and each part given an area of its own.

## Where there are no links

Where an operation acts is settled by the links on the way to it. A proof carries along a set of
places at which there are none, `Clear`. Every operation but the making of a link keeps such a set,
whatever it is; a link takes away from it the place where it is made. So it is enough to say, for a
program, which places it needs to be clear, and where it makes links.
-/

namespace Posix

open Machine List

/-! ## Areas -/

/-- A set of places that contains, with a place, everything below it. -/
structure Area where
  places : Set Path
  extend : ∀ {p q : Path}, p ∈ places → p <+: q → q ∈ places

namespace Area

instance : Membership Path Area := ⟨fun A p ↦ p ∈ A.places⟩

/-- What lies below a directory. -/
def below (d : Path) : Area := ⟨{p | Below d p}, Below.trans_isPrefix⟩

/-- The given places, with everything below them. -/
def trees (ds : List Path) : Area where
  places := {p | ∃ d ∈ ds, d <+: p}
  extend := by
    rintro p q ⟨d, hd, hp⟩ hpq
    exact ⟨d, hd, hp.trans hpq⟩

/-- A place, with everything below it. -/
def tree (d : Path) : Area := trees [d]

def everything : Area := ⟨Set.univ, fun _ _ ↦ trivial⟩

instance : HasSubset Area := ⟨fun A B ↦ ∀ ⦃p⦄, p ∈ A → p ∈ B⟩

variable {A B C : Area} {d p q : Path} {ds ds' : List Path}

theorem mem_trees : p ∈ trees ds ↔ ∃ d ∈ ds, d <+: p := Iff.rfl

theorem mem_tree : p ∈ tree d ↔ d <+: p := by
  simp [tree, mem_trees]

theorem mem_everything (p : Path) : p ∈ everything := trivial

theorem mem_of_isPrefix (h : p ∈ A) (hpq : p <+: q) : q ∈ A := A.extend h hpq

theorem tree_subset_trees (h : d ∈ ds) : tree d ⊆ trees ds := fun _ hp ↦ ⟨d, h, mem_tree.mp hp⟩

theorem trees_mono (h : ds ⊆ ds') : trees ds ⊆ trees ds' := by
  rintro p ⟨d, hd, hp⟩
  exact ⟨d, h hd, hp⟩

end Area

def way (path : Path) : Set Path := {q | q ≠ [] ∧ q <+: path}

variable {p : Path}

theorem way_dropLast_subset (p : Path) : way p.dropLast ⊆ way p :=
  fun _ hr ↦ ⟨hr.1, hr.2.trans (List.dropLast_prefix p)⟩

/-- What is on the way to a place is the place itself, or on the way to its directory. -/
theorem eq_or_mem_way_dropLast {q : Path} (h : q ∈ way p) : q = p ∨ q ∈ way p.dropLast := by
  obtain ⟨hne, hpre⟩ := h
  cases p using List.reverseRecOn with
  | nil => exact absurd (prefix_nil.mp hpre) hne
  | append_singleton init c =>
    rw [dropLast_concat]
    exact (prefix_concat_iff.mp hpre).imp_right fun hpre ↦ ⟨hne, hpre⟩

variable {L : Set Path}

theorem way_subset (hself : p ∈ L) (hway : way p.dropLast ⊆ L) : way p ⊆ L := by
  intro q hq
  rcases eq_or_mem_way_dropLast hq with rfl | hparent
  · exact hself
  · exact hway hparent

/-- If the way to a directory is clear and an entry of it is too, the way to the entry is. -/
theorem way_subset_union (h : way p.dropLast ⊆ L) : way p ⊆ L ∪ {q | p <+: q} :=
  way_subset (.inr (prefix_refl p)) (h.trans Set.subset_union_left)

/-- The places that are not at or below a given one. -/
abbrev besides (L : Set Path) (p : Path) : Set Path := {q ∈ L | ¬ p <+: q}

/-- A path whose parents are clear keeps clear parents when a link is made in its place. -/
theorem way_dropLast_subset_sep {path : Path} (hway : way path.dropLast ⊆ L) :
    way path.dropLast ⊆ besides L path := by
  intro q hq
  refine ⟨hway hq, fun hpre ↦ ?_⟩
  have hlen := hpre.length_le.trans hq.2.length_le
  rw [length_dropLast] at hlen
  have hnil : path = [] := eq_nil_of_length_eq_zero (by omega)
  rw [hnil] at hq
  exact hq.1 (prefix_nil.mp hq.2)

variable {links : Path → Option Text}

theorem unlinked_iff {cur cs : List Text} :
    Unlinked links cur cs ↔ ∀ r, r ≠ [] → r <+: cs → links (cur ++ r) = none := by
  induction cs generalizing cur with
  | nil =>
    refine iff_of_true trivial fun r hr hpre ↦ ?_
    exact absurd (prefix_nil.mp hpre) hr
  | cons c cs ih =>
    rw [Unlinked, ih]
    constructor
    · rintro ⟨hhead, htail⟩ r hr hpre
      obtain ⟨a, r, rfl⟩ := exists_cons_of_ne_nil hr
      obtain ⟨rfl, hrest⟩ := cons_prefix_cons.mp hpre
      by_cases hnil : r = []
      · rw [hnil]
        exact hhead
      · have hnone := htail r hnil hrest
        rwa [append_assoc, singleton_append] at hnone
    · intro h
      refine ⟨h [c] (by simp) (by simp), fun r hr hpre ↦ ?_⟩
      rw [append_assoc]
      exact h (c :: r) (by simp) (cons_prefix_cons.mpr ⟨rfl, hpre⟩)

theorem unlinked_iff_way {path : Path} :
    Unlinked links [] path ↔ ∀ q ∈ way path, links q = none := by
  rw [unlinked_iff]
  exact ⟨fun h q hq ↦ h q hq.1 hq.2, fun h r hr hpre ↦ h r ⟨hr, hpre⟩⟩

/-! ## Within an area -/

/-- Since `w₀`, everything acted on lies in the area, and the rest is as it was. -/
structure Within (A : Area) (w₀ w : World) : Prop where
  touched : ∀ p ∈ w.touched, p ∈ A ∨ p ∈ w₀.touched
  outside : ∀ p, p ∉ A → w.kindAt p = w₀.kindAt p

variable {A B : Area} {L M : Set Path} {w₀ w₁ w w' : World} {path p q : Path} {o : Option Tree}

namespace Within

theorem refl (A : Area) (w : World) : Within A w w := ⟨fun _ hp ↦ .inr hp, fun _ _ ↦ rfl⟩

theorem mono (h : Within A w₀ w) (hAB : A ⊆ B) : Within B w₀ w where
  touched p hp := (h.touched p hp).imp_left (hAB ·)
  outside p hp := h.outside p fun hA ↦ hp (hAB hA)

theorem trans (h : Within A w₀ w₁) (h' : Within A w₁ w) : Within A w₀ w where
  touched := by
    intro p hp
    rcases h'.touched p hp with hA | hold
    · exact .inl hA
    · exact h.touched p hold
  outside p hp := (h'.outside p hp).trans (h.outside p hp)

theorem touch (h : Within A w₀ w) (hp : p ∈ A) : Within A w₀ (w.touch p) where
  touched := by
    intro q hq
    rcases mem_cons.mp hq with rfl | hmem
    · exact .inl hp
    · exact h.touched q hmem
  outside := h.outside

theorem put (h : Within A w₀ w) (hp : p ∈ A) : Within A w₀ (w.put p o) where
  touched := (h.touch hp).touched
  outside := by
    intro q hq
    rw [kindAt_put_of_not_isPrefix fun hpre ↦ hq (A.mem_of_isPrefix hp hpre)]
    exact h.outside q hq

theorem of_eq (h : Within A w₀ w) (htree : w'.tree = w.tree) (htouched : w'.touched = w.touched) :
    Within A w₀ w' where
  touched := by rw [htouched]; exact h.touched
  outside := by
    intro q hq
    rw [World.kindAt, htree]
    exact h.outside q hq

/-- What was there outside the area is not missing now. -/
theorem mem_of_missing (h : Within A w₀ w) (hA : p ∈ A ∨ w₀.kindAt p ≠ none)
    (hnone : w.kindAt p = none) : p ∈ A := by
  by_contra hnot
  rw [h.outside p hnot] at hnone
  exact hA.elim hnot fun hsome ↦ hsome hnone

end Within

theorem Within.confined {d : Path} (h : Within (.below d) w₀ w) (hnone : w₀.touched = []) :
    Confined d w₀ w where
  touched := by
    intro p hp
    rcases h.touched p hp with hA | hold
    · exact hA
    · rw [hnone] at hold
      exact absurd hold not_mem_nil
  outside := h.outside

/-- The way to something below a directory is there, or lies below the directory itself. -/
theorem Rooted.mem_below_or {d : Path} {cs : List Text} (hd : Rooted d w₀) (hq : q <+: d ++ cs) :
    q ∈ Area.below d ∨ w₀.kindAt q ≠ none := by
  by_cases hnone : w₀.kindAt q = none
  · exact .inl (below_of_kindAt_eq_none hd.isDir hq hnone)
  · exact .inr hnone

/-! ## Clear places -/

/-- The places of a filesystem at which there is no link. -/
def World.clear (w : World) : Set Path := {q | w.linkAt q = none}

theorem way_subset_clear (h : Unlinked w.linkAt [] path) : way path ⊆ w.clear :=
  fun q hq ↦ unlinked_iff_way.mp h q hq

/-- There is no link at the given places. -/
def Clear (L : Set Path) (w : World) : Prop := ∀ q ∈ L, w.linkAt q = none

theorem Clear.mono (h : Clear L w) (hML : M ⊆ L) : Clear M w := fun q hq ↦ h q (hML hq)

theorem Clear.straight (h : Clear L w) (hclean : Clean path) (hway : way path ⊆ L)
    (follow : Bool) : w.Straight follow path :=
  ⟨hclean, (unlinked_iff_way.mpr fun q hq ↦ h q (hway hq)).passable⟩

/-- If the last link is not followed, it does not matter. -/
theorem Clear.straight_parent (h : Clear L w) (hclean : Clean path)
    (hway : way path.dropLast ⊆ L) : w.Straight false path := by
  refine ⟨hclean, ?_⟩
  cases path using List.reverseRecOn with
  | nil => trivial
  | append_singleton init c =>
    rw [dropLast_concat] at hway
    exact (unlinked_iff_way.mpr fun q hq ↦ h q (hway hq)).passable_snoc

/-- Within an area, with places that are clear. -/
structure Safe (A : Area) (w₀ : World) (L : Set Path) (w : World) : Prop where
  within : Within A w₀ w
  clear : Clear L w

namespace Safe

section

variable (h : Safe A w₀ L w)
include h

theorem mono (hML : M ⊆ L) : Safe A w₀ M w := ⟨h.within, h.clear.mono hML⟩

theorem less : Safe A w₀ (besides L p) w := h.mono (Set.sep_subset _ _)

theorem touch (hp : p ∈ A) : Safe A w₀ L (w.touch p) :=
  ⟨h.within.touch hp, h.clear⟩

theorem put (hp : p ∈ A) : Safe A w₀ (besides L p) (w.put p o) := by
  refine ⟨h.within.put hp, ?_⟩
  rintro q ⟨hq, hpre⟩
  rw [World.linkAt_put_of_not_isPrefix hpre]
  exact h.clear q hq

/-- What has no links clears the place where it is put. -/
theorem put_linkFree (hp : p ∈ A) (ho : LinkFree o) :
    Safe A w₀ (L ∪ {q | p <+: q}) (w.put p o) := by
  refine ⟨h.within.put hp, ?_⟩
  intro q hq
  rw [World.linkAt_put ho]
  split_ifs with hpre
  · rfl
  · exact h.clear q (hq.resolve_right hpre)

theorem of_eq (htree : w'.tree = w.tree) (htouched : w'.touched = w.touched) : Safe A w₀ L w' := by
  refine ⟨h.within.of_eq htree htouched, fun q hq ↦ ?_⟩
  have hkind : w'.kindAt q = w.kindAt q := by rw [World.kindAt, htree]; rfl
  rw [World.linkAt_congr hkind]
  exact h.clear q hq

end

end Safe

/-! ## Operations -/

section Operations

variable {follow : Bool}

section

variable (hclean : Clean path)
include hclean

theorem sys_mkdir_triple (hway : way path.dropLast ⊆ L) (hA : path ∈ A) :
    Keeps (Safe A w₀ L) (sys (·.mkdir path)) := by
  refine sys_triple (fun w w' hw hop ↦ ?_) fun _ hw ↦ hw
  obtain ⟨-, rfl⟩ := (hw.clear.straight_parent hclean hway).mkdir_eq_ok hop
  exact (hw.put_linkFree hA linkFree_dir).mono Set.subset_union_left

theorem sys_openTrunc_triple (hway : way path ⊆ L) (hA : path ∈ A ∨ w₀.kindAt path = some .dir) :
    Keeps (Safe A w₀ L) (sys (·.openTrunc path)) := by
  refine sys_triple (fun w w' hw hop ↦ ?_) fun _ hw ↦ hw
  have hstraight := hw.clear.straight hclean hway true
  have hmem : path ∈ A := by
    by_contra hnot
    refine hstraight.openTrunc_ne_ok ?_ hop
    rw [hw.within.outside path hnot]
    exact hA.resolve_left hnot
  rcases hstraight.openTrunc_eq_ok hop with rfl | ⟨-, rfl⟩
  · exact hw.touch hmem
  · have hput := (hw.put_linkFree hmem (linkFree_file w.nextIno)).mono Set.subset_union_left
    exact hput.of_eq rfl rfl

theorem sys_openWrite_triple (hway : way path ⊆ L) (hA : path ∈ A) :
    Keeps (Safe A w₀ L) (sys (·.openWrite path)) := by
  refine sys_triple (fun w w' hw hop ↦ ?_) fun _ hw ↦ hw
  obtain rfl := (hw.clear.straight hclean hway true).openWrite_eq_ok hop
  exact hw.touch hA

/-- The new link takes its place from what is clear. -/
theorem sys_symlink_triple (hway : way path.dropLast ⊆ L)
    (hA : path ∈ A ∨ w₀.kindAt path ≠ none) (target : Text) :
    Leads (Safe A w₀ L) (sys (·.symlink target path)) (Safe A w₀ (besides L path)) := by
  refine sys_triple (fun w w' hw hop ↦ ?_) fun _ hw ↦ hw.less
  obtain ⟨hnone, rfl⟩ := (hw.clear.straight_parent hclean hway).symlink_eq_ok hop
  exact hw.put (hw.within.mem_of_missing hA hnone)

theorem sys_link_triple {old : Path} (hway : way path.dropLast ⊆ L)
    (hA : path ∈ A) (hold : Clean old) (hwayOld : way old.dropLast ⊆ L) (hAold : old ∈ A) :
    Leads (Safe A w₀ L) (sys (·.link old path)) (Safe A w₀ (besides L path)) := by
  refine sys_triple (fun w w' hw hop ↦ ?_) fun _ hw ↦ hw.less
  obtain ⟨t, -, -, rfl⟩ := (hw.clear.straight_parent hclean hway).link_eq_ok
    (hw.clear.straight_parent hold hwayOld) hop
  exact (hw.touch hAold).put hA

end

/-- Where nothing is, there is no link, nor below. -/
theorem Safe.of_kindAt_eq_none (h : Safe A w₀ L w) (hnone : w.kindAt path = none) :
    Safe A w₀ (L ∪ {q | path <+: q}) w := by
  refine ⟨h.within, ?_⟩
  rintro q (hq | ⟨r, rfl⟩)
  · exact h.clear q hq
  · by_cases hr : r = []
    · rw [hr, append_nil, World.linkAt_eq_none hnone]
    · rw [World.linkAt_eq_none (World.kindAt_append_of_eq (.inl hnone) hr)]

/-- Afterwards nothing is there, whether the removal has failed or not. -/
theorem sys_removeAll_triple (hclean : Clean path) (hway : way path.dropLast ⊆ L) (hA : path ∈ A) :
    Leads (Safe A w₀ L) (sys (·.removeAll path)) (Safe A w₀ (L ∪ {q | path <+: q})) := by
  apply Triple.get_bind
  intro w hw
  have hstraight := hw.clear.straight_parent hclean hway
  dsimp only
  cases hop : w.removeAll path with
  | ok w' =>
    refine .set fun _ _ ↦ ?_
    rcases hstraight.removeAll_eq_ok hop with ⟨rfl, hnone⟩ | rfl
    · exact hw.of_kindAt_eq_none hnone
    · exact hw.put_linkFree hA linkFree_none
  | error e =>
    refine .throw fun _ h ↦ h ▸ hw.of_kindAt_eq_none ?_
    rcases hstraight.resolve with hok | ⟨-, hnone⟩
    · rw [World.removeAll, hok] at hop
      dsimp only at hop
      split at hop <;> cases hop
    · exact hnone

theorem sys_setAttr_triple (hstraight : ∀ w, Safe A w₀ L w → w.Straight follow path)
    (hA : path ∈ A) : Keeps (Safe A w₀ L) (sys (·.setAttr follow path)) := by
  refine sys_triple (fun w w' hw hop ↦ ?_) fun _ hw ↦ hw
  obtain rfl := (hstraight w hw).setAttr_eq_ok hop
  exact hw.touch hA

/-- Directories are made where they are missing, which has to be in the area. -/
theorem mkdirAll_safe (hclean : Clean path) (hway : way path ⊆ L)
    (hA : ∀ q, q <+: path → q ∈ A ∨ w₀.kindAt q ≠ none) :
    Keeps (Safe A w₀ L) (mkdirAll path.reverse) := by
  refine mkdirAll_rule hclean (fun w hw ↦ ?_) fun w q hw hq hnone ↦ ?_
  · exact unlinked_iff_way.mpr fun q hq ↦ hw.clear q (hway hq)
  · have hmem := hw.within.mem_of_missing (hA q hq) hnone
    exact (hw.put_linkFree hmem linkFree_dir).mono Set.subset_union_left

end Operations

end Posix
