import Gocracker.Posix.FileSystem

/-!
# Staying inside a directory

A filesystem is *confined* to a directory `d`, with respect to an earlier one, if every object that
was acted on lies below `d` and nothing has changed anywhere else. Each operation on a straight path
below `d` keeps this. What the operation does to links is stated beside it, since the straightness
of the next path depends on nothing else.
-/

namespace Posix

open Machine List

/-- Everything acted on lies below `d`, and the rest is as in `w₀`. -/
structure Confined (d : Path) (w₀ w : World) : Prop where
  touched : ∀ p ∈ w.touched, Below d p
  outside : ∀ p, ¬ Below d p → w.kindAt p = w₀.kindAt p

variable {d : Path} {w₀ w w' : World} {path p q : Path} {o : Option Tree}

theorem Confined.touch (h : Confined d w₀ w) (hp : Below d p) : Confined d w₀ (w.touch p) where
  touched := by
    intro q hq
    rcases mem_cons.mp hq with rfl | hmem
    · exact hp
    · exact h.touched q hmem
  outside := h.outside

theorem kindAt_put_of_not_isPrefix (h : ¬ p <+: q) : (w.put p o).kindAt q = w.kindAt q :=
  kindAt_alter_of_not_isPrefix h

theorem kindAt_put_none_of_isPrefix (h : p <+: q) : (w.put p none).kindAt q = none := by
  obtain ⟨r, rfl⟩ := h
  have hself : treeAt (w.put p none).tree p = none :=
    (treeAt_alter_self (fun _ ↦ none) p w.tree).elim id And.left
  rw [World.kindAt, kindAt_append, hself, Posix.kindAt, treeAt_none, Option.map_none]

theorem Confined.put (h : Confined d w₀ w) (hp : Below d p) : Confined d w₀ (w.put p o) where
  touched := (h.touch hp).touched
  outside := by
    intro q hq
    rw [kindAt_put_of_not_isPrefix fun hpre ↦ hq (hp.trans_isPrefix hpre)]
    exact h.outside q hq

/-- Which inode comes next is nobody's business. -/
theorem Confined.of_eq (h : Confined d w₀ w) (htree : w'.tree = w.tree)
    (htouched : w'.touched = w.touched) : Confined d w₀ w' where
  touched := by rw [htouched]; exact h.touched
  outside := by
    intro q hq
    rw [World.kindAt, htree]
    exact h.outside q hq

/-! ## Links -/

/-- A tree without links. -/
def LinkFree (o : Option Tree) : Prop := ∀ p target, kindAt o p ≠ some (.symlink target)

theorem linkFree_none : LinkFree none := by
  intro p target
  cases p <;> simp [kindAt, treeAt]

theorem linkFree_file (ino : ℕ) : LinkFree (some (.file ino)) := by
  intro p target
  cases p <;> simp [kindAt, treeAt, Tree.kind]

theorem linkFree_dir : LinkFree (some (.dir [])) := by
  intro p target
  match p with
  | [] => simp [kindAt, treeAt, Tree.kind]
  | c :: p => simp [kindAt_dir_nil]

namespace World

theorem linkAt_eq_none_iff : w.linkAt p = none ↔ ∀ target, w.kindAt p ≠ some (.symlink target) := by
  rw [linkAt]
  split
  · rename_i target hkind
    exact iff_of_false (by simp) fun h ↦ h target hkind
  · rename_i hkind
    exact iff_of_true rfl fun target htarget ↦ hkind target htarget

theorem linkAt_eq_none_of_kindAt {kind : Kind} (h : w.kindAt p = some kind)
    (hlink : kind.isLink = false) : w.linkAt p = none := by
  rw [linkAt, h]
  cases kind with
  | file ino => rfl
  | symlink target => cases hlink
  | dir => rfl

theorem linkAt_congr (h : w'.kindAt p = w.kindAt p) : w'.linkAt p = w.linkAt p := by
  rw [linkAt, linkAt, h]

theorem linkAt_eq_none (h : w.kindAt p = none) : w.linkAt p = none := by
  rw [linkAt, h]

@[simp] theorem linkAt_touch (w : World) (p : Path) : (w.touch p).linkAt = w.linkAt := rfl

/-- Putting something without links somewhere takes away the links that were there. -/
theorem linkAt_put (ho : LinkFree o) (p q : Path) :
    (w.put p o).linkAt q = if p <+: q then none else w.linkAt q := by
  split_ifs with hpre
  · obtain ⟨r, rfl⟩ := hpre
    rw [linkAt_eq_none_iff]
    intro target
    have hself : treeAt (w.put p o).tree p = o ∨ treeAt (w.put p o).tree p = none :=
      (treeAt_alter_self (fun _ ↦ o) p w.tree).imp_right And.left
    rw [kindAt, kindAt_append]
    rcases hself with hself | hself
    · rw [hself]
      exact ho r target
    · rw [hself]
      exact linkFree_none r target
  · exact linkAt_congr (kindAt_put_of_not_isPrefix hpre)

theorem linkAt_put_of_kindAt_eq_none (ho : LinkFree o) (h : w.kindAt p = none) :
    (w.put p o).linkAt = w.linkAt := by
  funext q
  rw [linkAt_put ho]
  split_ifs with hpre
  · obtain ⟨r, rfl⟩ := hpre
    by_cases hr : r = []
    · rw [hr, append_nil, linkAt_eq_none h]
    · rw [linkAt_eq_none (kindAt_append_of_eq (.inl h) hr)]
  · rfl

theorem linkAt_put_of_not_isPrefix (h : ¬ p <+: q) : (w.put p o).linkAt q = w.linkAt q :=
  linkAt_congr (kindAt_put_of_not_isPrefix h)

/-! ## Operations on straight paths -/

section Operations

variable {follow : Bool}

theorem Straight.of_bind {α : Type} {a : α} {f : Path → Except Errno α} (h : w.Straight follow path)
    (hop : (w.resolve follow path >>= f) = .ok a) : f path = .ok a := by
  obtain ⟨p, hp, hop⟩ := bind_eq_ok.mp hop
  rwa [h.eq_of_resolve hp] at hop

theorem Straight.mkdir_eq_ok (h : w.Straight false path) (hop : w.mkdir path = .ok w') :
    w.kindAt path = none ∧ w' = w.put path (some (.dir [])) := by
  replace hop := h.of_bind hop
  split at hop
  · exact ⟨‹_›, (Except.ok.inj hop).symm⟩
  · nomatch hop

/-- The file is there afterwards, under a path whose last component is no link either. -/
theorem Straight.openTrunc_eq_ok (h : w.Straight true path) (hop : w.openTrunc path = .ok w') :
    w' = w.touch path ∨ w.kindAt path = none ∧
      w' = { w.put path (some (.file w.nextIno)) with nextIno := w.nextIno + 1 } := by
  replace hop := h.of_bind hop
  cases hkind : w.kindAt path with
  | none =>
    rw [hkind] at hop
    exact .inr ⟨rfl, (Except.ok.inj hop).symm⟩
  | some kind =>
    rw [hkind] at hop
    cases kind with
    | file ino => exact .inl (Except.ok.inj hop).symm
    | dir | symlink => nomatch hop

theorem Straight.openTrunc_ne_ok (h : w.Straight true path) (hdir : w.kindAt path = some .dir) :
    w.openTrunc path ≠ .ok w' := by
  intro hop
  replace hop := h.of_bind hop
  rw [hdir] at hop
  nomatch hop

theorem Straight.openWrite_eq_ok (h : w.Straight true path) (hop : w.openWrite path = .ok w') :
    w' = w.touch path := by
  replace hop := h.of_bind hop
  split at hop
  · nomatch hop
  · exact (Except.ok.inj hop).symm
  · nomatch hop
  · nomatch hop

section

variable (h : w.Straight false path)
include h

theorem Straight.symlink_eq_ok {target : Text} (hop : w.symlink target path = .ok w') :
    w.kindAt path = none ∧ w' = w.put path (some (.symlink target)) := by
  rw [symlink] at hop
  split at hop
  · nomatch hop
  replace hop := h.of_bind hop
  split at hop
  · exact ⟨‹_›, (Except.ok.inj hop).symm⟩
  · nomatch hop

/-- What is linked is no directory, and if its path names no link it is a file. -/
theorem Straight.link_eq_ok {old : Path} (hold : w.Straight false old)
    (hop : w.link old path = .ok w') :
    ∃ t, treeAt w.tree old = some t ∧ t.kind ≠ .dir ∧ w' = (w.touch old).put path (some t) := by
  replace hop := hold.of_bind hop
  split at hop
  · cases hop
  · cases hop
  rename_i t hdir htree
  replace hop := h.of_bind hop
  split at hop
  · refine ⟨t, htree, ?_, (Except.ok.inj hop).symm⟩
    cases t with
    | dir entries => exact absurd rfl (hdir entries)
    | file | symlink => simp [Tree.kind]
  · cases hop

theorem Straight.remove_eq_ok (hop : w.remove path = .ok w') : w' = w.put path none := by
  replace hop := h.of_bind hop
  split at hop
  · nomatch hop
  · nomatch hop
  · exact (Except.ok.inj hop).symm

theorem Straight.kindAt_of_remove_enoent
    (hop : w.remove path = .error .enoent) : w.kindAt path = none := by
  rcases h.resolve with hok | ⟨-, hnone⟩
  · rw [remove, hok] at hop
    simp only [bind, Except.bind] at hop
    split at hop
    · rename_i htree
      rw [kindAt, Posix.kindAt, htree]
      rfl
    · cases hop
    · cases hop
  · exact hnone

theorem Straight.removeAll_eq_ok (hop : w.removeAll path = .ok w') :
    w' = w ∧ w.kindAt path = none ∨ w' = w.put path none := by
  rw [removeAll] at hop
  split at hop
  · rename_i hres
    rcases h.resolve with hok | ⟨-, hnone⟩
    · exact absurd (hres.symm.trans hok) (by simp)
    · exact .inl ⟨(Except.ok.inj hop).symm, hnone⟩
  · nomatch hop
  · rename_i p hp
    rw [h.eq_of_resolve hp] at hop
    split at hop
    · exact .inl ⟨(Except.ok.inj hop).symm, ‹_›⟩
    · exact .inr (Except.ok.inj hop).symm

end

theorem Straight.setAttr_eq_ok (h : w.Straight follow path)
    (hop : w.setAttr follow path = .ok w') : w' = w.touch path := by
  replace hop := h.of_bind hop
  split at hop
  · nomatch hop
  · exact (Except.ok.inj hop).symm

end Operations

end World

/-! ## Programs below a directory -/

@[mk_iff]
structure Rooted (d : Path) (w : World) : Prop where
  clean : Clean d
  unlinked : Unlinked w.linkAt [] d
  isDir : w.kindAt d = some .dir

instance (d : Path) (w : World) : Decidable (Rooted d w) :=
  decidable_of_iff _ (rooted_iff d w).symm

section Programs

variable {links : Path → Option Text} {cs : List Text} {c : Text}

theorem not_below_of_isPrefix (h : p <+: d) : ¬ Below d p := by
  intro hbelow
  exact hbelow.2 (h.eq_of_length_le hbelow.1.length_le)

/-- The way to the directory cannot be changed from inside. -/
theorem Confined.rooted (h : Confined d w₀ w) (hd : Rooted d w₀) : Rooted d w where
  clean := hd.clean
  unlinked := by
    apply hd.unlinked.mono
    intro q hq hnone
    rw [World.linkAt_congr (h.outside q (not_below_of_isPrefix hq))]
    exact hnone
  isDir := by rw [h.outside d (not_below_of_isPrefix (prefix_refl d)), hd.isDir]

theorem Rooted.straight (h : Rooted d w) (hcs : Clean cs) (hu : Unlinked w.linkAt d cs)
    (follow : Bool) : w.Straight follow (d ++ cs) :=
  ⟨h.clean.append hcs, (unlinked_append.mpr ⟨h.unlinked, hu⟩).passable⟩

theorem Rooted.straight_snoc (h : Rooted d w) (hcs : Clean cs) (hc : IsName c)
    (hu : Unlinked w.linkAt d cs) : w.Straight false (d ++ cs ++ [c]) :=
  ⟨(h.clean.append hcs).append (clean_singleton.mpr hc),
    (unlinked_append.mpr ⟨h.unlinked, hu⟩).passable_snoc⟩

theorem below_snoc (d cs : Path) (c : Text) : Below d (d ++ cs ++ [c]) := by
  rw [append_assoc]
  exact below_append d (by simp)

def ConfinedAt (d : Path) (w₀ : World) (links : Path → Option Text) (w : World) : Prop :=
  Confined d w₀ w ∧ w.linkAt = links

theorem sys_triple {P Q E : World → Prop} {op : World → Except Errno World}
    (hok : ∀ w w', P w → op w = .ok w' → Q w') (herr : ∀ w, P w → E w) :
    Triple P (sys op) (fun _ ↦ Q) E := by
  apply Triple.get_bind
  intro w hw
  cases hop : op w with
  | ok w' => exact .set fun _ _ ↦ hok w w' hw hop
  | error e => exact .throw fun _ h ↦ h ▸ herr w hw

/-- **Making directories** along a path without links: what is kept by putting a directory where
nothing is, on the way, is kept. -/
theorem mkdirAll_rule {P : World → Prop} (hclean : Clean path)
    (hu : ∀ w, P w → Unlinked w.linkAt [] path)
    (hput : ∀ w q, P w → q <+: path → w.kindAt q = none → P (w.put q (some (.dir [])))) :
    Keeps P (mkdirAll path.reverse) := by
  -- From the end of the path: what the recursion leaves to do is the last component.
  induction path using List.reverseRecOn with
  | nil => exact .skip
  | append_singleton path c ih =>
    have hrev : (path ++ [c]).reverse = c :: path.reverse := by
      rw [reverse_append]
      rfl
    have hpath : (c :: path.reverse).reverse = path ++ [c] := by
      rw [reverse_cons, reverse_reverse]
    rw [hrev, mkdirAll, hpath]
    apply Triple.get_bind
    intro w hw
    cases w.stat (path ++ [c]) with
    | ok kind =>
      cases kind with
      | dir => exact .pure fun _ h ↦ h ▸ hw
      | file | symlink => exact .throw fun _ h ↦ h ▸ hw
    | error e =>
      have hparent := ih hclean.left (fun w hw ↦ (unlinked_snoc.mp (hu w hw)).1)
        fun w q hw hq ↦ hput w q hw (hq.trans (prefix_append path [c]))
      refine .bind (hparent.weaken (fun w' hw' ↦ hw' ▸ hw) (fun _ _ h ↦ h) fun _ h ↦ h) fun _ ↦ ?_
      apply Triple.get_bind
      intro w' hw'
      have hstraight : w'.Straight false (path ++ [c]) := ⟨hclean, (hu w' hw').passable⟩
      cases hop : w'.mkdir (path ++ [c]) with
      | ok w'' =>
        obtain ⟨hnone, rfl⟩ := hstraight.mkdir_eq_ok hop
        exact .set fun _ _ ↦ hput w' _ hw' (prefix_refl _) hnone
      | error e =>
        dsimp only
        split
        · exact .pure fun _ h ↦ h ▸ hw'
        · exact .throw fun _ h ↦ h ▸ hw'

/-- What is missing on the way to something below a directory that exists lies below it. -/
theorem below_of_kindAt_eq_none (hd : w.kindAt d = some .dir) (hq : q <+: d ++ cs)
    (hnone : w.kindAt q = none) : Below d q := by
  have hnot : ¬ q <+: d := fun hpre ↦ World.kindAt_ne_none_of_isPrefix hpre (by rw [hd]; simp) hnone
  refine ⟨(List.prefix_or_prefix_of_prefix hq (prefix_append d cs)).resolve_left hnot, ?_⟩
  rintro rfl
  exact hnot (prefix_refl q)

/-- Below `d`, along a path without links, making directories stays below `d` and changes no
link. -/
theorem mkdirAll_triple (hd : Rooted d w₀) (hcs : Clean cs) (hu : Unlinked links d cs) :
    Triple (ConfinedAt d w₀ links) (mkdirAll (d ++ cs).reverse) (fun _ ↦ ConfinedAt d w₀ links)
      (Confined d w₀) := by
  have hrule : Keeps (ConfinedAt d w₀ links) (mkdirAll (d ++ cs).reverse) := by
    refine mkdirAll_rule (hd.clean.append hcs) (fun w hw ↦ ?_) fun w q hw hq hnone ↦ ?_
    · exact unlinked_append.mpr ⟨(hw.1.rooted hd).unlinked, hw.2 ▸ hu⟩
    · have hbelow := below_of_kindAt_eq_none (hw.1.rooted hd).isDir hq hnone
      exact ⟨hw.1.put hbelow, (World.linkAt_put_of_kindAt_eq_none linkFree_dir hnone).trans hw.2⟩
  exact hrule.weaken_error fun _ h ↦ h.1

end Programs

end Posix
