import Gocracker.Oci.Layer
import Gocracker.Posix.Grounded

/-!
# Entries that are applied without an error

What each part of `applyTarEntry` does to the kinds of all objects, on a path on which there is
nothing but directories. There the place that is meant is the one that the path names, the parents
that are missing can be made, and no operation fails.

An entry ends up as one `Scene.place`: something at its place, and directories above. What was there
before matters in two ways. A directory keeps what is in it if there was a directory, and a regular
file keeps its inode if there was a regular file.
-/

namespace Gocracker

open Machine Posix List Option World Scene

/-- The place in the container that a hard link is made to. -/
def linkSource (hdr : Header) : Path := cleanRooted (components hdr.linkname)

/-! ## Resolution -/

section Resolution

variable {w : World} {root cursor d : Path} {parts : List Text} {c base : Text}

theorem lstatLink_of_open (hclean : Clean d) (hc : IsName c) (hopen : w.Open (d ++ [c]))
    (hnil : w.kindAt [] = some .dir) : lstatLink w (d ++ [c]) = .ok none := by
  rw [lstatLink, lstat, statAt_of_open hclean hc
    (hopen.of_isPrefix (prefix_append d [c])) hnil (.inl rfl)]
  rcases hopen (d ++ [c]) (prefix_refl _) with hnone | hdir
  · rw [hnone]
    rfl
  · rw [hdir]
    rfl

/-- On an open path there is no link to be followed. -/
theorem resolveParts_of_open (hnil : w.kindAt [] = some .dir) (hroot : Clean root)
    (hcursor : Clean cursor) (hparts : Clean parts) (hopen : w.Open (root ++ cursor ++ parts)) :
    resolveParts w root (root ++ cursor) cursor parts = .ok (root ++ cursor ++ parts) := by
  induction parts generalizing cursor with
  | nil => rw [resolveParts, append_nil]
  | cons part parts ih =>
    have hpart : IsName part := hparts part mem_cons_self
    have hsplit : root ++ cursor ++ part :: parts = root ++ (cursor ++ [part]) ++ parts := by simp
    have hnext : root ++ (cursor ++ [part]) = root ++ cursor ++ [part] :=
      (append_assoc root cursor [part]).symm
    rw [hsplit] at hopen ⊢
    have hlink : lstatLink w (root ++ cursor ++ [part]) = .ok none :=
      lstatLink_of_open (hroot.append hcursor) hpart
        (hnext ▸ hopen.of_isPrefix (prefix_append _ _)) hnil
    have hwithin : ensurePathWithinRoot root (root ++ cursor ++ [part]) = .ok () :=
      if_pos (hnext ▸ prefix_append root (cursor ++ [part]))
    rw [resolveParts, if_neg (not_or.mpr ⟨hpart.1, hpart.2.1⟩),
      join_of_clean (hroot.append hcursor) (clean_singleton.mpr hpart),
      join_of_clean hcursor (clean_singleton.mpr hpart)]
    simp only [hlink, hwithin, bind]
    rw [← hnext]
    exact ih (hcursor.append (clean_singleton.mpr hpart))
      (fun e he ↦ hparts e (mem_cons_of_mem part he)) hopen

theorem resolveLayerEntryPath_of_open (hnil : w.kindAt [] = some .dir) (hroot : Clean root)
    (hd : Clean d) (hbase : IsName base) (hopen : w.Open (root ++ d)) :
    resolveLayerEntryPath w root (d ++ [base]) = .ok (root ++ d ++ [base]) := by
  have hparent : resolveLayerParentDir w root d = .ok (root ++ d) := by
    have hparts : resolveParts w root (root ++ []) [] d = .ok (root ++ [] ++ d) :=
      resolveParts_of_open hnil hroot nofun hd (by rwa [append_nil])
    rw [resolveLayerParentDir, cleanRooted_of_clean hd]
    rwa [append_nil] at hparts
  have hwithin : ensurePathWithinRoot root (root ++ d ++ [base]) = .ok () :=
    if_pos ((prefix_append root d).trans (prefix_append _ _))
  rw [resolveLayerEntryPath, getLast?_concat, dropLast_concat]
  simp only [hparent, bind, Except.bind,
    join_of_clean (hroot.append hd) (clean_singleton.mpr hbase), hwithin]
  rfl

theorem resolveLayerLinkPath_of_file {rel : List Text} {hdr : Header} {ino : ℕ}
    (hroot : Clean root) (hdir : w.kindAt root = some .dir)
    (hfile : w.kindAt (root ++ linkSource hdr) = some (.file ino))
    (hname : isAbs hdr.linkname = true ∨ cleanRelative (components hdr.linkname) = linkSource hdr) :
    resolveLayerLinkPath w root rel hdr.linkname = .ok (root ++ linkSource hdr) := by
  have hclean : Clean (linkSource hdr) := clean_cleanRooted _
  have hnil : w.kindAt [] = some .dir := kindAt_dir_of_isPrefix nil_prefix hdir
  obtain ⟨e, b, hsource⟩ : ∃ e b, linkSource hdr = e ++ [b] := by
    rcases eq_nil_or_concat' (linkSource hdr) with hempty | hsource
    · rw [hempty, append_nil, hdir] at hfile
      nomatch hfile
    · exact hsource
  rw [hsource] at hfile hclean
  rw [← append_assoc] at hfile
  have hparent : w.kindAt (root ++ e) = some .dir :=
    kindAt_eq_dir_of_append (cons_ne_nil b []) (by rw [← World.kindAt, hfile]; simp)
  have hopen : w.Open (root ++ e) := fun q hq ↦ .inr (kindAt_dir_of_isPrefix hq hparent)
  have hb : IsName b := hclean b (by simp)
  have hentry : resolveLayerEntryPath w root (linkSource hdr) = .ok (root ++ e ++ [b]) := by
    rw [hsource]
    exact resolveLayerEntryPath_of_open hnil hroot hclean.left hb hopen
  rw [hsource, ← append_assoc, resolveLayerLinkPath]
  split_ifs with habs
  · exact hentry
  have hlstat : w.lstat (root ++ e ++ [b]) = .ok (.file ino) := by
    rw [lstat, statAt_of_open (hroot.append hclean.left) hb hopen hnil (.inl rfl),
      hfile]
    rfl
  rw [hname.resolve_left habs]
  simp only [hentry, bind, Except.bind, hlstat]
  rfl

end Resolution

/-! ## The parts of an entry -/

section Parts

variable {K : Scene Kind} {n : ℕ} {d : Path} {c : Text} {hdr : Header}

/-- Nothing but directories is on the way. -/
def OpenAt (K : Scene Kind) (p : Path) : Prop := ∀ q, q <+: p → K q = none ∨ K q = some .dir

theorem removeAllQuietly_shows (hclean : Clean d) (hc : IsName c) (hnil : K [] = some .dir)
    (hopen : OpenAt K d) : Turns K n (removeAllQuietly (d ++ [c])) (K.cut (d ++ [c])) n := by
  refine .get_bind fun w hw ↦ ?_
  obtain ⟨rfl, rfl⟩ := hw
  obtain ⟨w', hop, hkinds, hnext⟩ := removeAll_of_open hclean hc hopen hnil
  rw [hop]
  exact .set fun _ _ ↦ ⟨hkinds, hnext⟩

theorem OpenAt.hide_child (hopen : OpenAt K d) : OpenAt (K.cut (d ++ [c])) d := by
  intro q hq
  have hnot : ¬ d ++ [c] <+: q := fun h ↦ not_snoc_isPrefix (h.trans hq)
  rw [cut, hide, if_neg (by simpa using hnot)]
  exact hopen q hq

theorem forM_removeAllQuietly_shows {names : List Text} (hclean : Clean d)
    (hnames : ∀ c ∈ names, IsName c) (hnil : K [] = some .dir) (hopen : OpenAt K d) :
    Turns K n (names.forM fun name ↦ removeAllQuietly (join d [name]))
      (K.hide fun q ↦ names.any fun c ↦ d ++ [c] <+: q) n := by
  induction names generalizing K with
  | nil =>
    refine .pure fun _ hw ↦ ⟨hw.kinds.trans ?_, hw.next⟩
    funext q
    simp [hide]
  | cons c names ih =>
    have hc : IsName c := hnames c mem_cons_self
    have hnil' : (K.cut (d ++ [c])) [] = some .dir := by simp [hide, hnil]
    have hrest := ih (fun e he ↦ hnames e (mem_cons_of_mem c he)) hnil' hopen.hide_child
    refine .bind ?_ fun _ ↦ hrest.weaken_post (fun _ _ hw ↦ ?_) fun _ hw ↦ hw
    · change Triple _ (removeAllQuietly (join d [c])) _ _
      rw [join_of_clean hclean (clean_singleton.mpr hc)]
      exact removeAllQuietly_shows hclean hc hnil hopen
    · rw [hide_hide] at hw
      simpa only [any_cons] using hw

theorem applyWhiteout_name {base : Text} (hclean : Clean d) (hnil : K [] = some .dir)
    (hopen : OpenAt K d) (hbase : base ≠ opaqueWhiteout)
    (hname : IsName (base.drop whiteoutPrefix.length)) :
    Turns K n (applyWhiteout d base) (K.cut (d ++ [base.drop whiteoutPrefix.length])) n := by
  rw [applyWhiteout, if_neg hbase, join_of_clean hclean (clean_singleton.mpr hname)]
  exact removeAllQuietly_shows hclean hname hnil hopen

/-- **A marker hides what is in its directory**, on paths of names. -/
theorem applyWhiteout_marker (hclean : Clean d) (hnil : K [] = some .dir) (hopen : OpenAt K d) :
    Gives K n (applyWhiteout d opaqueWhiteout) (fun _ w ↦ ∃ S, w.Shows (K.hide S) n ∧
        ∀ q, Clean q → K.hide S q = K.hide (fun q ↦ Below d q) q) := by
  rw [applyWhiteout]
  refine .get_bind fun w hw ↦ ?_
  obtain ⟨rfl, rfl⟩ := hw
  rcases hopen d (prefix_refl d) with hnone | hd
  · have hbelow : ∀ q, Below d q → w.kindAt q = none := by
      intro q hq
      by_contra hne
      exact kindAt_ne_none_of_isPrefix hq.1 hne hnone
    obtain ⟨e, hread⟩ : ∃ e, w.readDir d = .error e := by
      obtain ⟨d', c, rfl⟩ : ∃ d' c, d = d' ++ [c] := by
        rcases eq_nil_or_concat' d with rfl | hsplit
        · nomatch hnone.symm.trans hnil
        · exact hsplit
      have hopen' : w.Open d' := fun q hq ↦ hopen q (hq.trans (prefix_append d' [c]))
      refine readDir_error (e := .enoent) ?_
      rw [statAt_of_open hclean.left (hclean c (by simp)) hopen' hnil
        (.inr (linkAt_eq_none hnone)), hnone]
      rfl
    rw [hread]
    rintro _ rfl
    refine ⟨fun _ ↦ false, ⟨by funext q; simp [hide], rfl⟩, fun q _ ↦ ?_⟩
    by_cases hq : Below d q
    · simp [hide, hbelow q hq]
    · simp [hide, hq]
  · obtain ⟨names, hread, hnames, hall⟩ := readDir_of_dir hclean hd
    rw [hread]
    refine triple_of_shows ((forM_removeAllQuietly_shows hclean hnames hnil hopen).weaken_post
      (fun _ w' hw' ↦ ⟨_, hw', fun q hq ↦ ?_⟩) fun _ h ↦ h)
    by_cases hbelow : Below d q
    · obtain ⟨⟨r, rfl⟩, hne⟩ := hbelow
      obtain ⟨c, r, rfl⟩ := exists_cons_of_ne_nil fun hr : r = [] ↦ hne (by simp [hr])
      have hmem : w.kindAt (d ++ c :: r) = none ∨ c ∈ names :=
        or_iff_not_imp_left.mpr (hall c r (hq c (by simp)))
      have hbelow : Below d (d ++ c :: r) := below_append d (cons_ne_nil c r)
      simp only [hide, hbelow, decide_true]
      split_ifs with hany
      · rfl
      · refine hmem.resolve_right fun hc ↦ hany ?_
        rw [List.any_eq_true]
        exact ⟨c, hc, decide_eq_true ⟨r, by simp⟩⟩
    · have hnot : (names.any fun c ↦ d ++ [c] <+: q) = false := by
        rw [List.any_eq_false]
        intro c _ hpre
        have hdq : Below d (d ++ [c]) := below_append d (cons_ne_nil c [])
        exact hbelow (hdq.trans_isPrefix (of_decide_eq_true hpre))
      simp [hide, hbelow, hnot]

theorem run_shows {K' : Scene Kind} {n' : ℕ} {op : World → Except Errno World}
    (h : ∀ w, w.Shows K n → ∃ w', op w = .ok w' ∧ w'.Shows K' n') :
    Turns K n (run (sys op)) K' n' := by
  refine Triple.adaptExcept (.get_bind fun w hw ↦ ?_)
  obtain ⟨w', hop, hw'⟩ := h w hw
  rw [hop]
  exact .set fun _ _ ↦ hw'

/-- What may stay in the place of a directory or a file. -/
def stays : TypeFlag → Kind → Bool
  | .dir, .dir | .reg, .file _ => true
  | _, _ => false

section

variable (hclean : Clean d) (hc : IsName c) (hd : K d = some .dir)
include hclean hc hd

theorem prepareTarEntryTarget_shows (flag : TypeFlag) :
    Turns K n (prepareTarEntryTarget (d ++ [c]) flag)
      (if (K (d ++ [c])).any (stays flag) then K else K.cut (d ++ [c])) n := by
  refine .get_bind fun w hw ↦ ?_
  obtain ⟨rfl, rfl⟩ := hw
  have hopen : w.Open d := fun q hq ↦ .inr (kindAt_dir_of_isPrefix hq hd)
  have hnil : w.kindAt [] = some .dir := kindAt_dir_of_isPrefix nil_prefix hd
  have hstat := statAt_of_open hclean hc hopen hnil (.inl (rfl : false = false))
  have hremove : Triple (· = w) (run (sys (·.removeAll (d ++ [c]))))
      (fun _ ↦ World.Shows (cut w.kindAt (d ++ [c])) w.nextIno)
      fun _ ↦ False := by
    refine triple_of_shows (run_shows fun w' hw' ↦ ?_)
    have hopen' : w'.Open d := by
      intro q hq
      rw [hw'.kinds]
      exact hopen q hq
    obtain ⟨w'', hop, hkinds, hnext⟩ := removeAll_of_open hclean hc hopen' (hw'.kinds ▸ hnil)
    exact ⟨w'', hop, hkinds.trans (by rw [hw'.kinds]), hnext.trans hw'.next⟩
  rw [lstat, hstat]
  cases hkind : w.kindAt (d ++ [c]) with
  | none =>
    rw [hide_kindAt hkind]
    exact triple_of_shows (.skip)
  | some kind =>
    have hkeep : Triple (· = w) (pure ⟨⟩ : ExtractM PUnit)
        (fun _ ↦ World.Shows w.kindAt w.nextIno) fun _ ↦ False :=
      triple_of_shows (.skip)
    cases flag <;> cases kind <;> first | exact hkeep | exact hremove

theorem removeTarget_shows (hempty : ∀ e, K (d ++ [c] ++ [e]) = none) :
    Turns K n (removeTarget (d ++ [c])) (K.cut (d ++ [c])) n := by
  refine .get_bind fun w hw ↦ ?_
  obtain ⟨rfl, rfl⟩ := hw
  by_cases hnone : w.kindAt (d ++ [c]) = none
  · rw [remove_enoent hclean hc hd hnone, hide_kindAt hnone]
    exact triple_of_shows (.skip)
  · rw [remove_child hclean hc hd hnone (isFull_of_kindAt_child hempty)]
    exact .set fun _ _ ↦ ⟨kindAt_put_none _, rfl⟩

theorem openTrunc_shows (hnone : K (d ++ [c]) = none) :
    Turns K n (run (sys (·.openTrunc (d ++ [c])))) (K.set (d ++ [c]) (.file n)) (n + 1) := by
  refine run_shows fun w hw ↦ ?_
  obtain ⟨rfl, rfl⟩ := hw
  refine ⟨{ w.put (d ++ [c]) (some (.file w.nextIno)) with nextIno := w.nextIno + 1 }, ?_,
    kindAt_put_leaf hd fun _ _ ↦ rfl, rfl⟩
  rw [openTrunc, resolve_child hclean hc hd (.inr (linkAt_eq_none hnone))]
  simp only [bind, Except.bind, hnone]
  rfl

theorem openTrunc_file_shows {ino : ℕ} (hfile : K (d ++ [c]) = some (.file ino)) :
    Turns K n (run (sys (·.openTrunc (d ++ [c])))) K n := by
  refine run_shows fun w hw ↦ ?_
  obtain ⟨rfl, rfl⟩ := hw
  have hlink := linkAt_eq_none_of_kindAt hfile rfl
  refine ⟨w.touch (d ++ [c]), ?_, rfl, rfl⟩
  rw [openTrunc, resolve_child hclean hc hd (.inr hlink)]
  simp only [bind, Except.bind, hfile]
  rfl

theorem symlink_shows {target : Text} (htarget : target ≠ []) (hnone : K (d ++ [c]) = none) :
    Turns K n (run (sys (·.symlink target (d ++ [c])))) (K.set (d ++ [c]) (.symlink target)) n := by
  refine run_shows fun w hw ↦ ?_
  obtain ⟨rfl, rfl⟩ := hw
  refine ⟨w.put (d ++ [c]) (some (.symlink target)), ?_,
    kindAt_put_leaf hd fun _ _ ↦ rfl, rfl⟩
  rw [symlink, if_neg htarget, resolve_child hclean hc hd (.inl rfl)]
  exact if_pos hnone

theorem setAttr_shows {follow : Bool} {kind : Kind} (hkind : K (d ++ [c]) = some kind)
    (hlink : follow = false ∨ kind.isLink = false) :
    Turns K n (run (sys (·.setAttr follow (d ++ [c])))) K n := by
  refine run_shows fun w hw ↦ ?_
  obtain ⟨rfl, rfl⟩ := hw
  have hlink' : follow = false ∨ w.linkAt (d ++ [c]) = none :=
    hlink.imp_right (linkAt_eq_none_of_kindAt hkind)
  refine ⟨w.touch (d ++ [c]), ?_, rfl, rfl⟩
  rw [setAttr, resolve_child hclean hc hd hlink']
  simp only [bind, Except.bind, hkind]
  rfl

theorem applyTarEntryMetadata_shows {kind : Kind} (hkind : K (d ++ [c]) = some kind)
    (hlink : hdr.typeflag = .symlink ∨ kind.isLink = false) :
    Turns K n (applyTarEntryMetadata (d ++ [c]) hdr) K n := by
  refine .bind (setAttr_shows hclean hc hd hkind (.inl rfl)) fun _ ↦ ?_
  split_ifs with hflag htimes
  · exact .bind (setAttr_shows hclean hc hd hkind (.inr (hlink.resolve_left hflag))) fun _ ↦
      setAttr_shows hclean hc hd hkind (.inr (hlink.resolve_left hflag))
  · exact .bind (setAttr_shows hclean hc hd hkind (.inr (hlink.resolve_left hflag))) fun _ ↦
      .skip
  · exact .skip

end

end Parts

/-! ## What an entry puts at its place -/

section Items

variable {K : Scene Kind} {n : ℕ} {root d : Path} {rel : List Text} {c : Text} {hdr : Header}

section

variable (K d)

theorem dirs_child (c : Text) : K.dirs .dir d (d ++ [c]) = K (d ++ [c]) := if_neg not_snoc_isPrefix

theorem dirs_self : K.dirs .dir d d = some .dir :=
  if_pos (prefix_refl d)

theorem cut_child_dirs (c : Text) : (K.dirs .dir d).cut (d ++ [c]) d = some .dir := by
  simp [hide, not_snoc_isPrefix, dirs_self]

theorem place_parent (c : Text) (kind : Kind) :
    K.place .dir (d ++ [c]) (some kind) false d = some .dir := by
  rw [← Scene.set_dirs, Scene.set, if_neg (by simp), if_neg not_snoc_isPrefix, dirs_self]

end

section

variable (hclean : Clean d) (hc : IsName c)
include hclean hc

/-- What stands in the place of a link is removed. -/
theorem removeTarget_dirs (hempty : ∀ e, K (d ++ [c] ++ [e]) = none) :
    Turns (K.dirs .dir d) n (removeTarget (d ++ [c])) ((K.dirs .dir d).cut (d ++ [c])) n := by
  refine removeTarget_shows hclean hc (dirs_self K d) fun e ↦ ?_
  have hnot : ¬ d ++ [c] ++ [e] <+: d := fun h ↦ not_snoc_isPrefix ((prefix_append _ _).trans h)
  exact (if_neg hnot).trans (hempty e)

theorem prepareTarEntryTarget_dirs (flag : TypeFlag) :
    Turns (K.dirs .dir d) n (prepareTarEntryTarget (d ++ [c]) flag)
      (if (K (d ++ [c])).any (stays flag) then K.dirs .dir d
        else (K.dirs .dir d).cut (d ++ [c])) n := by
  have hprepare := prepareTarEntryTarget_shows (n := n) hclean hc (dirs_self K d) flag
  rwa [dirs_child] at hprepare

theorem applyTarEntryTarget_dir (hflag : hdr.typeflag = .dir) :
    Gives (K.dirs .dir d) n (applyTarEntryTarget root rel (d ++ [c]) hdr)
      (fun dirs w ↦ dirs = [(d ++ [c], hdr)] ∧
        w.Shows (K.place .dir (d ++ [c]) (some .dir) (K (d ++ [c]) = some .dir)) n) := by
  have hpath : Clean (d ++ [c]) := hclean.append (clean_singleton.mpr hc)
  simp only [applyTarEntryTarget, hflag]
  refine .bind (prepareTarEntryTarget_dirs hclean hc .dir) fun _ ↦ ?_
  by_cases hdir : K (d ++ [c]) = some .dir
  · have hopen : OpenAt (K.dirs .dir d) (d ++ [c]) := by
      intro q hq
      rcases isPrefix_snoc_iff.mp hq with hqd | rfl
      · exact .inr (if_pos hqd)
      · exact .inr ((dirs_child K d c).trans hdir)
    have hmake := mkdirAll_shows (n := n) hpath (if_pos nil_prefix) hopen
    rw [dirs_dirs] at hmake
    simp only [hdir]
    exact .bind hmake.adaptExcept fun _ ↦ .pure fun _ hw ↦ ⟨rfl, hw⟩
  · have hopen : OpenAt ((K.dirs .dir d).cut (d ++ [c])) (d ++ [c]) := by
      intro q hq
      rcases isPrefix_snoc_iff.mp hq with hqd | rfl
      · have hnot : ¬ d ++ [c] <+: q := fun h ↦ not_snoc_isPrefix (h.trans hqd)
        simp [hide, dirs, hnot, hqd]
      · simp [hide]
    have hstays : (K (d ++ [c])).any (stays .dir) = false := by
      cases hkind : K (d ++ [c]) with
      | none => rfl
      | some kind =>
        cases kind with
        | dir => exact absurd hkind hdir
        | file | symlink => rfl
    have hnil : ((K.dirs .dir d).cut (d ++ [c])) [] = some .dir := by
      simp [hide, dirs]
    have hmake := mkdirAll_shows (n := n) hpath hnil hopen
    rw [dirs_hide_dirs] at hmake
    simp only [hstays, hdir]
    exact .bind hmake.adaptExcept fun _ ↦ .pure fun _ hw ↦ ⟨rfl, hw⟩

/-- A regular file is new, or it is the one that was there. -/
theorem applyTarEntryTarget_reg (hflag : hdr.typeflag = .reg) (hread : hdr.readable = true)
    (hleaf : ∀ ino, K (d ++ [c]) = some (.file ino) → K.set (d ++ [c]) (.file ino) = K) :
    Gives (K.dirs .dir d) n (applyTarEntryTarget root rel (d ++ [c]) hdr)
      (fun dirs w ↦ dirs = [] ∧ ∃ ino n',
        w.Shows (K.place .dir (d ++ [c]) (some (.file ino)) false) n' ∧
        (K (d ++ [c]) = some (.file ino) ∧ n' = n ∨ ino = n ∧ n' = n + 1)) := by
  have hlink : ∀ ino, hdr.typeflag = .symlink ∨ (Kind.file ino).isLink = false := fun _ ↦ .inr rfl
  simp only [applyTarEntryTarget, hflag, hread, Bool.true_eq_false]
  refine .bind (prepareTarEntryTarget_dirs hclean hc .reg) fun _ ↦ ?_
  by_cases hfile : ∃ ino, K (d ++ [c]) = some (.file ino)
  · obtain ⟨ino, hfile⟩ := hfile
    have hfile' : K.dirs .dir d (d ++ [c]) = some (.file ino) := (dirs_child K d c).trans hfile
    simp only [hfile]
    refine .bind (openTrunc_file_shows hclean hc (dirs_self K d) hfile') fun _ ↦ ?_
    refine .bind (applyTarEntryMetadata_shows hclean hc (dirs_self K d) hfile' (hlink ino))
      fun _ ↦ .pure fun _ hw ↦ ⟨rfl, ino, n, ?_, .inl ⟨rfl, rfl⟩⟩
    rwa [← set_dirs, ← dirs_set, hleaf ino hfile]
  · have hstays : (K (d ++ [c])).any (stays .reg) = false := by
      cases hkind : K (d ++ [c]) with
      | none => rfl
      | some kind =>
        cases kind with
        | dir => rfl
        | file ino => exact absurd ⟨ino, hkind⟩ hfile
        | symlink target => rfl
    have hopen := openTrunc_shows (n := n) hclean hc (cut_child_dirs K d c) (by simp [hide])
    rw [set_hide, set_dirs] at hopen
    simp only [hstays, Bool.false_eq_true]
    refine .bind hopen fun _ ↦ ?_
    exact .bind (applyTarEntryMetadata_shows hclean hc (place_parent K d c _) (if_pos rfl)
      (hlink n)) fun _ ↦ .pure fun _ hw ↦ ⟨rfl, n, n + 1, hw, .inr ⟨rfl, rfl⟩⟩

theorem applyTarEntryTarget_symlink (hflag : hdr.typeflag = .symlink)
    (hlinkname : hdr.linkname ≠ []) (hempty : ∀ e, K (d ++ [c] ++ [e]) = none) :
    Gives (K.dirs .dir d) n (applyTarEntryTarget root rel (d ++ [c]) hdr) (fun dirs w ↦ dirs = [] ∧
        w.Shows (K.place .dir (d ++ [c]) (some (.symlink hdr.linkname)) false) n) := by
  have hd := cut_child_dirs K d c
  have hmake := symlink_shows (n := n) hclean hc hd hlinkname (by simp [hide])
  rw [set_hide, set_dirs] at hmake
  simp only [applyTarEntryTarget, hflag]
  refine .bind (removeTarget_dirs hclean hc hempty) fun _ ↦ .bind hmake fun _ ↦ ?_
  exact .bind (applyTarEntryMetadata_shows hclean hc (place_parent K d c _) (if_pos rfl)
    (.inl hflag)) fun _ ↦ .pure fun _ hw ↦ ⟨rfl, hw⟩

omit hclean hc in
theorem query_shows {α : Type} {f : World → Except ExtractError α} {a : α}
    (h : ∀ w, w.Shows K n → f w = .ok a) :
    Gives K n (query f) (fun r w ↦ r = a ∧ w.Shows K n) := by
  refine .get_bind fun w hw ↦ ?_
  rw [h w hw]
  exact .pure fun _ hw' ↦ ⟨rfl, hw' ▸ hw⟩

theorem applyTarEntryTarget_link {ino : ℕ} (hflag : hdr.typeflag = .link) (hroot : Clean root)
    (hrootd : root <+: d) (hopen : OpenAt K d)
    (hempty : ∀ e, K (d ++ [c] ++ [e]) = none)
    (hfile : K (root ++ linkSource hdr) = some (.file ino))
    (hsource : ¬ d ++ [c] <+: root ++ linkSource hdr) (hname : isAbs hdr.linkname = true ∨
      cleanRelative (components hdr.linkname) = linkSource hdr) :
    Gives (K.dirs .dir d) n (applyTarEntryTarget root rel (d ++ [c]) hdr)
      (fun dirs w ↦ dirs = [] ∧ w.Shows (K.place .dir (d ++ [c]) (some (.file ino)) false) n) := by
  have hd := cut_child_dirs K d c
  have hrootdir : ((K.dirs .dir d).cut (d ++ [c])) root = some .dir := by
    have hnot : ¬ d ++ [c] <+: root := fun h ↦ not_snoc_isPrefix (h.trans hrootd)
    simp [hide, dirs, hnot, hrootd]
  have hfile' : ((K.dirs .dir d).cut (d ++ [c])) (root ++ linkSource hdr) =
      some (.file ino) := by
    have hnot : ¬ root ++ linkSource hdr <+: d := by
      intro h
      rcases hopen _ h with hnone | hdir
      · cases hfile.symm.trans hnone
      · cases hfile.symm.trans hdir
    simp [hide, dirs, hsource, hnot, hfile]
  have hquery : Gives ((K.dirs .dir d).cut (d ++ [c])) n
      (query (resolveLayerLinkPath · root rel hdr.linkname))
      (fun r w ↦ r = root ++ linkSource hdr ∧
        w.Shows ((K.dirs .dir d).cut (d ++ [c])) n) :=
    query_shows fun w hw ↦ resolveLayerLinkPath_of_file hroot (hw.kinds ▸ hrootdir)
      (hw.kinds ▸ hfile') hname
  have hlink : Turns ((K.dirs .dir d).cut (d ++ [c])) n
      (run (sys (·.link (root ++ linkSource hdr) (d ++ [c]))))
      (K.place .dir (d ++ [c]) (some (.file ino)) false) n := by
    refine run_shows fun w hw ↦ ?_
    have hd' : w.kindAt d = some .dir := hw.kinds ▸ hd
    have hfile'' : w.kindAt (root ++ linkSource hdr) = some (.file ino) := hw.kinds ▸ hfile'
    have hclean' : Clean (root ++ linkSource hdr) := hroot.append (clean_cleanRooted _)
    have hresolve : w.resolve false (root ++ linkSource hdr) = .ok (root ++ linkSource hdr) :=
      resolve_of_kindAt hclean' (by simp [hfile''])
    refine ⟨_, link_child hclean hc hd' hresolve hfile'' (by simp [hw.kinds, hide]),
      ?_, hw.next⟩
    have hput : ((w.touch (root ++ linkSource hdr)).put (d ++ [c]) (some (.file ino))).kindAt =
        set w.kindAt (d ++ [c]) (.file ino) := kindAt_put_leaf hd' fun _ _ ↦ rfl
    rw [hput, hw.kinds, set_hide, set_dirs]
  simp only [applyTarEntryTarget, hflag]
  refine .bind (removeTarget_dirs hclean hc hempty) fun _ ↦ .bind hquery fun source ↦ ?_
  refine .of_forall ?_
  rintro w ⟨rfl, hw⟩
  refine .bind (hlink.at_state hw) fun _ ↦ ?_
  exact .bind (applyTarEntryMetadata_shows hclean hc (place_parent K d c _) (if_pos rfl)
    (.inr rfl)) fun _ ↦ .pure fun _ hw ↦ ⟨rfl, hw⟩

end

end Items

/-! ## One entry -/

section Entries

variable {K : Scene Kind} {n : ℕ} {root d : Path} {base : Text} {hdr : Header}

theorem query_target (hroot : Clean root) (hnil : K [] = some .dir) (hd : Clean d)
    (hbase : IsName base) (hopen : OpenAt K (root ++ d)) :
    Gives K n (query (resolveLayerEntryPath · root (d ++ [base])))
      (fun r w ↦ r = root ++ d ++ [base] ∧ w.Shows K n) := by
  refine query_shows fun w hw ↦ ?_
  have hopen' : w.Open (root ++ d) := by
    intro q hq
    rw [hw.kinds]
    exact hopen q hq
  exact resolveLayerEntryPath_of_open (hw.kinds ▸ hnil) hroot hd hbase hopen'

section

variable (hrel : cleanLayerEntryName hdr.name = d ++ [base]) (hroot : Clean root)
  (hnil : K [] = some .dir) (hopen : OpenAt K (root ++ d))
include hrel hroot hnil hopen

theorem applyTarEntry_whiteout {Q : World → Prop} (hbase : whiteoutPrefix <+: base)
    (h : Gives K n (applyWhiteout (root ++ d) base) (fun _ ↦ Q)) :
    Gives K n (applyTarEntry root hdr) (fun dirs w ↦ dirs = [] ∧ Q w) := by
  have hclean : Clean (d ++ [base]) := hrel ▸ clean_cleanRooted _
  simp only [applyTarEntry, hrel, getLast?_concat]
  refine .bind (query_target hroot hnil hclean.left (hclean base (by simp)) hopen)
    fun target ↦ .of_forall ?_
  rintro w ⟨rfl, hw⟩
  rw [if_pos hbase, dropLast_concat]
  refine .bind (h.at_state hw) fun _ ↦ ?_
  exact .pure fun _ hw ↦ ⟨rfl, hw⟩

theorem applyTarEntry_item {Q : List (Path × Header) → World → Prop}
    (hbase : ¬ whiteoutPrefix <+: base)
    (h : Gives (K.dirs .dir (root ++ d)) n
      (applyTarEntryTarget root (d ++ [base]) (root ++ d ++ [base]) hdr) Q) :
    Gives K n (applyTarEntry root hdr) Q := by
  have hclean : Clean (d ++ [base]) := hrel ▸ clean_cleanRooted _
  simp only [applyTarEntry, hrel, getLast?_concat]
  refine .bind (query_target hroot hnil hclean.left (hclean base (by simp)) hopen)
    fun target ↦ .of_forall ?_
  rintro w ⟨rfl, hw⟩
  rw [if_neg hbase, dropLast_concat]
  have hmake := (mkdirAll_shows (n := n) (hroot.append hclean.left) hnil hopen).adaptExcept
    (g := ExtractError.os)
  exact .bind (hmake.at_state hw) fun _ ↦ h

end

end Entries

end Gocracker
