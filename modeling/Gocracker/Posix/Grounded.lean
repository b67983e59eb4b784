import Gocracker.Posix.Confined
import Gocracker.Posix.Scene

/-!
# Operations that succeed

Where the directory of a path exists, and is reached over directories only, an operation on the path
does what it is meant to do. As a tree has nothing below anything but directories, it is enough that
a directory is at the path of the parent: then there is nothing but directories above it.

`Shows K n` is the assertion that the kinds of all objects are `K` and the next inode is `n`. A
triple between such assertions with the error condition `False` says that a program succeeds, and
what has changed.
-/

namespace Posix

open Machine List Option Scene

/-! ## Directories above -/

section Above

variable {w : World} {cur cs d p q : Path} {c : Text} {follow : Bool} {o : Option Tree}

theorem kindAt_eq_dir_of_append (hq : q ≠ []) (h : kindAt o (p ++ q) ≠ none) :
    kindAt o p = some .dir := by
  obtain ⟨c, q, rfl⟩ := exists_cons_of_ne_nil hq
  simp only [kindAt, treeAt_append] at h ⊢
  cases htree : treeAt o p with
  | none => simp [htree, treeAt] at h
  | some t =>
    cases t with
    | file | symlink => simp [htree, treeAt] at h
    | dir => rfl

namespace World

theorem kindAt_eq_dir_of_isPrefix (hpq : p <+: q) (hne : p ≠ q) (h : w.kindAt q ≠ none) :
    w.kindAt p = some .dir := by
  obtain ⟨r, rfl⟩ := hpq
  exact kindAt_eq_dir_of_append (fun hr ↦ hne (by rw [hr, append_nil])) h

theorem kindAt_dir_of_isPrefix (hpq : p <+: q) (h : w.kindAt q = some .dir) :
    w.kindAt p = some .dir := by
  by_cases hne : p = q
  · rw [hne, h]
  · exact kindAt_eq_dir_of_isPrefix hpq hne (by simp [h])

/-- A walk goes through directories. -/
theorem scan_append (hclean : Clean cs) (hdir : w.kindAt (cur ++ cs) = some .dir)
    (rest : List Text) : w.scan follow cur (cs ++ rest) = w.scan follow (cur ++ cs) rest := by
  induction cs generalizing cur with
  | nil => rw [nil_append, append_nil]
  | cons c cs ih =>
    obtain ⟨hempty, hdot, hdotdot⟩ := hclean c mem_cons_self
    rw [append_cons] at hdir ⊢
    have hnext : w.kindAt (cur ++ [c]) = some .dir :=
      kindAt_dir_of_isPrefix (prefix_append _ _) hdir
    rw [cons_append, scan, if_neg (not_or.mpr ⟨hempty, hdot⟩), if_neg hdotdot, hnext]
    exact ih (fun d hd ↦ hclean d (mem_cons_of_mem c hd)) hdir

theorem resolve_of_dir (hclean : Clean d) (hd : w.kindAt d = some .dir) :
    w.resolve follow d = .ok d := by
  have hscan : w.scan follow [] d = .reached d := by
    have happend : w.scan follow [] (d ++ []) = w.scan follow ([] ++ d) [] :=
      scan_append hclean hd []
    rwa [append_nil] at happend
  rw [resolve, resolveFrom, hscan]
  rfl

/-- **A path in a directory** leads to the place that it names. -/
theorem resolve_child (hclean : Clean d) (hc : IsName c) (hd : w.kindAt d = some .dir)
    (hlink : follow = false ∨ w.linkAt (d ++ [c]) = none) :
    w.resolve follow (d ++ [c]) = .ok (d ++ [c]) := by
  have hscan : w.scan follow [] (d ++ [c]) = .reached (d ++ [c]) := by
    have hd' : w.kindAt ([] ++ d) = some .dir := hd
    rw [scan_append hclean hd', nil_append, scan, if_neg (not_or.mpr ⟨hc.1, hc.2.1⟩), if_neg hc.2.2]
    cases hkind : w.kindAt (d ++ [c]) with
    | none => exact if_pos rfl
    | some kind =>
      cases kind with
      | dir => rfl
      | file ino => exact if_pos rfl
      | symlink target =>
        refine if_pos ⟨rfl, hlink.resolve_right fun hnone ↦ ?_⟩
        rw [linkAt, hkind] at hnone
        cases hnone
  rw [resolve, resolveFrom, hscan]
  rfl

theorem resolve_of_kindAt (hclean : Clean p) (h : w.kindAt p ≠ none) :
    w.resolve false p = .ok p := by
  rcases eq_nil_or_concat' p with rfl | ⟨d, c, rfl⟩
  · rfl
  · have hd : w.kindAt d = some .dir := kindAt_eq_dir_of_append (cons_ne_nil c []) h
    exact resolve_child hclean.left (hclean c (by simp)) hd (.inl rfl)

/-- Nothing but directories is above the path, as far as there is anything. -/
def Open (w : World) (p : Path) : Prop :=
  ∀ q, q <+: p → w.kindAt q = none ∨ w.kindAt q = some .dir

theorem Open.of_isPrefix (h : w.Open p) (hqp : q <+: p) : w.Open q := fun r hr ↦ h r (hr.trans hqp)

/-- On the way to a place below an open path, a walk gets there or finds nothing. -/
theorem scan_of_open (hclean : Clean cs) (hopen : w.Open (cur ++ cs))
    (hdir : w.kindAt cur = some .dir) :
    w.kindAt (cur ++ cs) = some .dir ∨ w.scan follow cur (cs ++ [c]) = .fail .enoent := by
  induction cs generalizing cur with
  | nil => exact .inl (by rw [append_nil, hdir])
  | cons e cs ih =>
    obtain ⟨hempty, hdot, hdotdot⟩ := hclean e mem_cons_self
    rw [append_cons] at hopen ⊢
    rw [cons_append, scan, if_neg (not_or.mpr ⟨hempty, hdot⟩), if_neg hdotdot]
    rcases hopen (cur ++ [e]) (prefix_append _ _) with hnone | hnext
    · rw [hnone]
      exact .inr (if_neg (by simp))
    · rw [hnext]
      exact ih (fun f hf ↦ hclean f (mem_cons_of_mem e hf)) hopen hnext

/-- **What is at a place below an open path** is found, or found to be missing. -/
theorem statAt_of_open (hclean : Clean d) (hc : IsName c) (hopen : w.Open d)
    (hroot : w.kindAt [] = some .dir) (hlink : follow = false ∨ w.linkAt (d ++ [c]) = none) :
    w.statAt follow (d ++ [c]) = (w.kindAt (d ++ [c])).elim (.error .enoent) .ok := by
  by_cases hd : w.kindAt d = some .dir
  · rw [statAt, resolve_child hclean hc hd hlink]
    cases hkind : w.kindAt (d ++ [c]) with
    | none => simp [bind, Except.bind, hkind, throw, throwThe, MonadExceptOf.throw]
    | some kind => simp [bind, Except.bind, hkind, pure, Except.pure]
  · have hfail : w.scan follow [] (d ++ [c]) = .fail .enoent :=
      (scan_of_open hclean hopen hroot).resolve_left hd
    have hnone : w.kindAt (d ++ [c]) = none := by
      by_contra hne
      exact hd (kindAt_eq_dir_of_append (cons_ne_nil c []) hne)
    rw [statAt, resolve, resolveFrom, hfail, hnone]
    rfl

end World

/-! ## Putting something into a directory -/

theorem treeAt_alter_child {f : Option Tree → Option Tree}
    (h : kindAt o d = some .dir) :
    treeAt (alter f (d ++ [c]) o) (d ++ [c]) = f (treeAt o (d ++ [c])) := by
  induction d generalizing o with
  | nil =>
    rcases o with _ | _ | _ | entries <;> try cases h
    simp [alter, treeAt]
  | cons e d ih =>
    rcases o with _ | _ | _ | entries <;> try cases h
    simpa only [cons_append, alter, treeAt, entry_setEntry_self] using ih h

/-- A tree with nothing below its root. -/
def Tree.IsLeaf (t : Tree) : Prop := ∀ e r, kindAt (some t) (e :: r) = none

namespace World

theorem kindAt_put_leaf {t : Tree} (hd : w.kindAt d = some .dir) (ht : t.IsLeaf) :
    (w.put (d ++ [c]) (some t)).kindAt = Scene.set w.kindAt (d ++ [c]) t.kind := by
  funext q
  rw [Scene.set]
  have hself : treeAt (w.put (d ++ [c]) (some t)).tree (d ++ [c]) = some t := treeAt_alter_child hd
  split_ifs with hq hpre
  · rw [hq, kindAt, Posix.kindAt, hself, map_some]
  · obtain ⟨r, rfl⟩ := hpre
    obtain ⟨e, r, rfl⟩ := exists_cons_of_ne_nil fun hr : r = [] ↦ hq (by simp [hr])
    rw [kindAt, kindAt_append, hself]
    exact ht e r
  · exact kindAt_put_of_not_isPrefix hpre

theorem kindAt_put_none (p : Path) : (w.put p none).kindAt = hide w.kindAt fun q ↦ p <+: q := by
  funext q
  simp only [hide, decide_eq_true_eq]
  split_ifs with hpre
  · exact kindAt_put_none_of_isPrefix hpre
  · exact kindAt_put_of_not_isPrefix hpre

/-- Nothing changes where there was nothing. -/
theorem hide_kindAt (h : w.kindAt p = none) : cut w.kindAt p = w.kindAt := by
  funext q
  simp only [hide, decide_eq_true_eq]
  split_ifs with hpre
  · by_contra hne
    exact kindAt_ne_none_of_isPrefix hpre (Ne.symm hne) h
  · rfl

/-- A file or a link has nothing below it. -/
theorem set_kindAt {kind : Kind} (h : w.kindAt p = some kind) (hkind : kind ≠ .dir) :
    Scene.set w.kindAt p kind = w.kindAt := by
  funext q
  rw [Scene.set]
  split_ifs with hq hpre
  · rw [hq, h]
  · by_contra hne
    have hdir := kindAt_eq_dir_of_isPrefix hpre (Ne.symm hq) (Ne.symm hne)
    exact hkind (mem_unique h hdir)
  · rfl

/-! ## Operations -/

/-- A directory that is not empty. -/
def isFull (w : World) (p : Path) : Bool :=
  match treeAt w.tree p with
  | some (.dir (_ :: _)) => true
  | _ => false

theorem kindAt_child_of_isFull (h : w.isFull p = false) (e : Text) :
    w.kindAt (p ++ [e]) = none := by
  rw [isFull] at h
  rw [kindAt, kindAt_append]
  cases htree : treeAt w.tree p with
  | none => rfl
  | some t =>
    cases t with
    | file | symlink => rfl
    | dir entries =>
      cases entries with
      | nil => rfl
      | cons => simp [htree] at h

theorem isFull_of_kindAt_child (h : ∀ e, w.kindAt (p ++ [e]) = none) : w.isFull p = false := by
  rw [isFull]
  match htree : treeAt w.tree p with
  | none | some (.file ino) | some (.symlink target) | some (.dir []) => rfl
  | some (.dir ((e, t) :: entries)) =>
    have hchild := h e
    rw [kindAt, kindAt_append, htree] at hchild
    simp [Posix.kindAt, treeAt, Posix.entry] at hchild

/-- **Removing whatever is there**, below an open path. -/
theorem removeAll_of_open (hclean : Clean d) (hc : IsName c) (hopen : w.Open d)
    (hroot : w.kindAt [] = some .dir) : ∃ w', w.removeAll (d ++ [c]) = .ok w' ∧
      w'.kindAt = (hide w.kindAt fun q ↦ d ++ [c] <+: q) ∧ w'.nextIno = w.nextIno := by
  by_cases hnone : w.kindAt (d ++ [c]) = none
  · refine ⟨w, ?_, (hide_kindAt hnone).symm, rfl⟩
    by_cases hd : w.kindAt d = some .dir
    · rw [removeAll, resolve_child hclean hc hd (.inl rfl)]
      exact if_pos hnone
    have hfail : w.scan false [] (d ++ [c]) = .fail .enoent :=
      (scan_of_open hclean hopen hroot).resolve_left hd
    rw [removeAll, resolve, resolveFrom, hfail]
    rfl
  · have hd : w.kindAt d = some .dir := kindAt_eq_dir_of_append (cons_ne_nil c []) hnone
    refine ⟨w.put (d ++ [c]) none, ?_, kindAt_put_none _, rfl⟩
    rw [removeAll, resolve_child hclean hc hd (.inl rfl)]
    exact if_neg hnone

theorem readDir_error {e : Errno} (h : w.statAt true p = .error e) :
    ∃ e', w.readDir p = .error e' := by
  rw [statAt] at h
  rw [readDir]
  cases hresolve : w.resolve true p with
  | error e' => exact ⟨e', rfl⟩
  | ok q =>
    rw [hresolve] at h
    cases hkind : w.kindAt q with
    | none =>
      have htree : treeAt w.tree q = none := map_eq_none_iff.mp hkind
      refine ⟨.enoent, ?_⟩
      simp only [bind, Except.bind, htree]
      rfl
    | some kind =>
      simp only [bind, Except.bind, hkind] at h
      cases h

theorem readDir_of_dir (hclean : Clean d) (hd : w.kindAt d = some .dir) :
    ∃ names, w.readDir d = .ok names ∧ (∀ c ∈ names, IsName c) ∧
      ∀ c r, IsName c → w.kindAt (d ++ c :: r) ≠ none → c ∈ names := by
  obtain ⟨entries, htree⟩ : ∃ entries, treeAt w.tree d = some (.dir entries) := by
    obtain ⟨t, ht, hkind⟩ := map_eq_some_iff.mp hd
    cases t with
    | dir entries => exact ⟨entries, ht⟩
    | file | symlink => nomatch hkind
  refine ⟨(entries.map (·.1)).filter fun c ↦ IsName c, ?_, ?_, ?_⟩
  · rw [readDir, resolve_of_dir hclean hd]
    simp only [bind, Except.bind, htree]
    rfl
  · intro c hc
    exact of_decide_eq_true (mem_filter.mp hc).2
  intro c r hc hne
  rw [kindAt, kindAt_append, htree] at hne
  refine mem_filter.mpr ⟨?_, decide_eq_true hc⟩
  by_contra hnot
  have hnone : Posix.entry c entries = none := by
    rw [Posix.entry, map_eq_none_iff, find?_eq_none]
    intro x hx hxc
    exact hnot (mem_map.mpr ⟨x, hx, of_decide_eq_true hxc⟩)
  simp [Posix.kindAt, treeAt, hnone, treeAt_none] at hne

section Operations

variable (hclean : Clean d) (hc : IsName c) (hd : w.kindAt d = some .dir)

include hclean hc hd

theorem mkdir_child (h : w.kindAt (d ++ [c]) = none) :
    w.mkdir (d ++ [c]) = .ok (w.put (d ++ [c]) (some (.dir []))) := by
  rw [mkdir, resolve_child hclean hc hd (.inl rfl)]
  exact if_pos h

theorem link_child {old : Path} {ino : ℕ} (hold : w.resolve false old = .ok old)
    (hfile : w.kindAt old = some (.file ino)) (h : w.kindAt (d ++ [c]) = none) :
    w.link old (d ++ [c]) = .ok ((w.touch old).put (d ++ [c]) (some (.file ino))) := by
  have htree : treeAt w.tree old = some (.file ino) := by
    obtain ⟨t, ht, hkind⟩ := map_eq_some_iff.mp hfile
    cases t with
    | file i => rw [ht, Kind.file.inj hkind]
    | symlink | dir => nomatch hkind
  rw [link, hold, resolve_child hclean hc hd (.inl rfl)]
  simp only [bind, Except.bind, htree]
  exact if_pos h

theorem remove_enoent (h : w.kindAt (d ++ [c]) = none) : w.remove (d ++ [c]) = .error .enoent := by
  have htree : treeAt w.tree (d ++ [c]) = none := map_eq_none_iff.mp h
  rw [remove, resolve_child hclean hc hd (.inl rfl)]
  simp only [bind, Except.bind, htree]
  rfl

theorem remove_child (h : w.kindAt (d ++ [c]) ≠ none) (hfull : w.isFull (d ++ [c]) = false) :
    w.remove (d ++ [c]) = .ok (w.put (d ++ [c]) none) := by
  rw [remove, resolve_child hclean hc hd (.inl rfl)]
  simp only [bind, Except.bind]
  cases htree : treeAt w.tree (d ++ [c]) with
  | none => exact absurd (congrArg (Option.map Tree.kind) htree) h
  | some t =>
    cases t with
    | file | symlink => rfl
    | dir entries =>
      cases entries with
      | nil => rfl
      | cons => simp [isFull, htree] at hfull

end Operations

end World

end Above

/-! ## What a world shows -/

/-- The kinds of all objects are `K`, and the next inode is `n`. -/
structure World.Shows (K : Scene Kind) (n : ℕ) (w : World) : Prop where
  kinds : w.kindAt = K
  next : w.nextIno = n

/-- A program that does not fail, from what is to be seen before it. -/
abbrev Gives {ε α : Type} (K : Scene Kind) (n : ℕ) (c : EStateM ε World α)
    (Q : α → World → Prop) : Prop :=
  Triple (World.Shows K n) c Q fun _ ↦ False

/-- The same, with what is to be seen after it. -/
abbrev Turns {ε : Type} (K : Scene Kind) (n : ℕ) (c : EStateM ε World PUnit) (K' : Scene Kind)
    (n' : ℕ) : Prop :=
  Gives K n c fun _ ↦ World.Shows K' n'

section Shows

variable {K K' : Scene Kind} {n n' : ℕ} {d p : Path} {c : Text} {w : World}

theorem triple_of_shows {ε α : Type} {prog : EStateM ε World α} {Q : α → World → Prop}
    {E : World → Prop} (h : Triple (World.Shows w.kindAt w.nextIno) prog Q E) :
    Triple (· = w) prog Q E := by
  refine h.weaken ?_ (fun _ _ hw ↦ hw) fun _ hw ↦ hw
  rintro _ rfl
  exact ⟨rfl, rfl⟩

theorem World.dirs_kindAt (h : w.kindAt p = some .dir) : dirs w.kindAt .dir p = w.kindAt := by
  funext q
  simp only [dirs]
  split_ifs with hq
  · exact (kindAt_dir_of_isPrefix hq h).symm
  · rfl

theorem World.set_dirs_kindAt (h : w.kindAt (d ++ [c]) = none) :
    (Scene.dirs w.kindAt .dir d).set (d ++ [c]) .dir = Scene.dirs w.kindAt .dir (d ++ [c]) := by
  funext q
  simp only [Scene.set, Scene.dirs, isPrefix_snoc_iff]
  by_cases hq : q = d ++ [c]
  · simp [hq]
  by_cases hpre : d ++ [c] <+: q
  · have hnone : w.kindAt q = none := by
      by_contra hne
      exact kindAt_ne_none_of_isPrefix hpre hne h
    have hnot : ¬ q <+: d := fun hqd ↦ not_snoc_isPrefix (hpre.trans hqd)
    simp [hnot, hnone]
  · simp [hq, hpre]

/-- **Making a directory and those above it** succeeds on an open path. -/
theorem mkdirAll_shows (hclean : Clean p) (hroot : K [] = some .dir)
    (hopen : ∀ q, q <+: p → K q = none ∨ K q = some .dir) :
    Turns K n (mkdirAll p.reverse) (K.dirs .dir p) n := by
  induction p using List.reverseRecOn with
  | nil =>
    rw [Scene.dirs_nil hroot]
    exact .skip
  | append_singleton d c ih =>
    have hd : Clean d := hclean.left
    have hc : IsName c := hclean c (by simp)
    rw [reverse_concat, mkdirAll, reverse_cons, reverse_reverse]
    refine .get_bind fun w hw ↦ ?_
    obtain ⟨rfl, rfl⟩ := hw
    have hopen' : w.Open (d ++ [c]) := hopen
    have hlink : w.linkAt (d ++ [c]) = none := by
      rcases hopen' (d ++ [c]) (prefix_refl _) with hnone | hdir
      · exact World.linkAt_eq_none hnone
      · exact World.linkAt_eq_none_of_kindAt hdir rfl
    have hstat := World.statAt_of_open hd hc (hopen'.of_isPrefix (prefix_append d [c])) hroot
      (.inr hlink : true = false ∨ _)
    rw [World.stat, hstat]
    rcases hopen' (d ++ [c]) (prefix_refl _) with hnone | hdir
    · rw [hnone]
      refine .bind (triple_of_shows
        (ih hd fun q hq ↦ hopen q (hq.trans (prefix_append d [c])))) fun _ ↦ ?_
      refine .get_bind fun w' hw' ↦ ?_
      have hd' : w'.kindAt d = some .dir := by
        rw [hw'.kinds]
        exact if_pos (prefix_refl d)
      have hnone' : w'.kindAt (d ++ [c]) = none := by
        rw [hw'.kinds, Scene.dirs, if_neg not_snoc_isPrefix, hnone]
      rw [World.mkdir_child hd hc hd' hnone']
      refine .set fun _ _ ↦ ⟨?_, hw'.next⟩
      rw [World.kindAt_put_leaf hd' kindAt_dir_nil, hw'.kinds]
      exact World.set_dirs_kindAt hnone
    · rw [hdir, World.dirs_kindAt hdir]
      exact triple_of_shows (.skip)

end Shows

end Posix
