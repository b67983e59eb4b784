import Gocracker.Oci.Layer

/-!
# Paths in requests to the server

A path of a request is trimmed, made absolute and cleaned, then its links are followed, and what
comes out has to lie below a trusted directory. What does not exist yet is looked for in its parent.
A link that leads nowhere does not exist in this sense, but a file that is opened to be created is
created where it leads to. These links are the only paths that go wrong (`within_iff_not_dangling`).
-/

namespace Gocracker.Api

open Posix List

inductive PathKind where
  | any
  | file
  | dir
  deriving DecidableEq

inductive PathError where
  | os (e : Errno)
  | outside
  | wrongKind

section

variable (w : World)

/-- Go follows more links than the kernel. -/
def evalSymlinks (path : Path) : Except Errno Path := do
  let p ← w.resolveFrom true 255 [] path
  if w.kindAt p = none then throw .enoent
  return p

/-- Of a path that does not exist only the directory is resolved. -/
def resolvePathForContainment (path : Path) : Except Errno Path :=
  match evalSymlinks w path with
  | .ok p => .ok p
  | .error .enoent => do
    let parent ← evalSymlinks w path.dropLast
    return parent ++ path.getLast?.toList
  | .error e => .error e

/-- A root that is not absolute is skipped. -/
def pathWithinTrustedRoots (path : Path) (trustedRoots : List Text) : Bool :=
  trustedRoots.any fun root ↦ isAbs root && namedPlace root <+: path

/-- `filepath.Abs`. -/
def absolute (cwd value : Text) : Path :=
  if isAbs value then namedPlace value else namedPlace (cwd ++ '/' :: value)

/-- An empty list of roots trusts everything. -/
def validateServerPath (cwd value : Text) (trustedRoots : List Text) (kind : PathKind) :
    Except PathError Unit :=
  let value := trimSpace value
  if value = [] ∨ trustedRoots = [] then .ok ()
  else
    let abs := absolute cwd value
    match resolvePathForContainment w abs with
    | .error e => .error (.os e)
    | .ok resolved =>
      if pathWithinTrustedRoots resolved trustedRoots = false then .error .outside
      else if kind = .any then .ok ()
      else
        match w.stat abs with
        | .error e => .error (.os e)
        | .ok info => if (info = .dir) = (kind = .dir) then .ok () else .error .wrongKind

/-- The place where the kernel opens or creates a path, behind all links. -/
def opened (cwd value : Text) : Except Errno Path :=
  w.resolveFrom true 40 (if isAbs value then [] else namedPlace cwd) (components value)

/-- The last component is a link that leads nowhere. -/
def Dangling (path : Path) : Prop :=
  (∃ target, w.lstat path = .ok (.symlink target)) ∧ w.stat path = .error .enoent

end

variable {w : World} {cur p q : Path} {cs : List Text} {c : Text}

theorem resolveFrom_eq_ok_iff {n : ℕ} : w.resolveFrom true n cur cs = .ok p ↔
    w.scan true cur cs = .reached p ∨ ∃ m dir target rest, n = m + 1 ∧
      w.scan true cur cs = .link dir target rest ∧
      w.resolveFrom true m (if isAbs target then [] else dir) (components target ++ rest) =
        .ok p := by
  cases n with
  | zero =>
    rw [World.resolveFrom]
    cases w.scan true cur cs <;> simp [Scan.finish]
  | succ n =>
    rw [World.resolveFrom]
    cases w.scan true cur cs <;> simp [Scan.finish]

theorem resolveFrom_mono {m n : ℕ} (hmn : m ≤ n) (h : w.resolveFrom true m cur cs = .ok p) :
    w.resolveFrom true n cur cs = .ok p := by
  induction m generalizing n cur cs with
  | zero =>
    rcases resolveFrom_eq_ok_iff.mp h with hscan | ⟨_, _, _, _, hzero, -⟩
    · exact resolveFrom_eq_ok_iff.mpr (.inl hscan)
    · cases hzero
  | succ m ih =>
    rcases resolveFrom_eq_ok_iff.mp h with hscan | ⟨m', dir, target, rest, hsucc, hscan, hrest⟩
    · exact resolveFrom_eq_ok_iff.mpr (.inl hscan)
    · obtain ⟨n, rfl⟩ := Nat.exists_eq_add_of_le' hmn
      obtain rfl : m = m' := by omega
      exact resolveFrom_eq_ok_iff.mpr
        (.inr ⟨n + m, dir, target, rest, rfl, hscan, ih (Nat.le_add_left m n) hrest⟩)

theorem evalSymlinks_eq_ok_iff : evalSymlinks w cs = .ok p ↔
    w.resolveFrom true 255 [] cs = .ok p ∧ w.kindAt p ≠ none := by
  rw [evalSymlinks]
  cases w.resolveFrom true 255 [] cs with
  | error e => simp [bind, Except.bind]
  | ok q =>
    simp only [bind, Except.bind]
    split_ifs with hnone
    · grind
    · exact ⟨fun h ↦ ⟨h, Except.ok.inj h ▸ hnone⟩, And.left⟩

/-! ## Places that a walk can get to -/

/-- What a walk comes by: names without slashes, and no links. -/
def Walked (w : World) (p : Path) : Prop :=
  ∀ d c, d ++ [c] <+: p → IsName c ∧ '/' ∉ c ∧ w.linkAt (d ++ [c]) = none

theorem Walked.of_isPrefix (h : Walked w p) (hq : q <+: p) : Walked w q :=
  fun d c hd ↦ h d c (hd.trans hq)

theorem Walked.snoc (h : Walked w p) (hc : IsName c) (hslash : '/' ∉ c)
    (hlink : w.linkAt (p ++ [c]) = none) : Walked w (p ++ [c]) := by
  intro d c' hd
  rcases prefix_concat_iff.mp hd with heq | hd
  · obtain ⟨rfl, hcc⟩ := append_inj' heq rfl
    obtain rfl := singleton_inj.mp hcc
    exact ⟨hc, hslash, hlink⟩
  · exact h d c' hd

theorem Walked.names (h : Walked w p) (hc : c ∈ p) : IsName c ∧ '/' ∉ c := by
  obtain ⟨d, rest, rfl⟩ := append_of_mem hc
  obtain ⟨hname, hslash, -⟩ := h d c ⟨rest, by simp⟩
  exact ⟨hname, hslash⟩

theorem walked_nil : Walked w [] :=
  fun _ _ hd ↦ absurd (prefix_nil.mp hd) (by simp)

theorem walked_of_scan (hcur : Walked w cur) (hcs : ∀ c ∈ cs, '/' ∉ c) :
    match w.scan true cur cs with
    | .reached p => Walked w p
    | .fail _ => True
    | .link dir _ rest => Walked w dir ∧ ∀ c ∈ rest, '/' ∉ c := by
  have hnext {cur : Path} {c : Text} {kind : Option Kind} (hcur : Walked w cur)
      (hskip : ¬ (c = [] ∨ c = dot)) (hdots : c ≠ dotdot) (hslash : '/' ∉ c)
      (hkind : w.kindAt (cur ++ [c]) = kind) (hlink : ∀ target, kind ≠ some (.symlink target)) :
      Walked w (cur ++ [c]) := by
    rw [not_or] at hskip
    refine hcur.snoc ⟨hskip.1, hskip.2, hdots⟩ hslash ?_
    rw [World.linkAt, hkind]
    split
    · exact absurd rfl (hlink _)
    · rfl
  fun_induction w.scan true cur cs with
  | case1 => exact hcur
  | case2 cur c rest hskip ih => exact ih hcur fun d hd ↦ hcs d (mem_cons_of_mem c hd)
  | case3 cur rest hskip ih =>
    exact ih (hcur.of_isPrefix (List.dropLast_prefix cur)) fun d hd ↦ hcs d (mem_cons_of_mem _ hd)
  | case4 cur c hskip hdots hkind =>
    exact hnext hcur hskip hdots (hcs c mem_cons_self) hkind (by simp)
  | case5 => trivial
  | case6 cur c rest hskip hdots hkind ih =>
    exact ih (hnext hcur hskip hdots (hcs c mem_cons_self) hkind (by simp))
      fun d hd ↦ hcs d (mem_cons_of_mem c hd)
  | case7 cur c hskip hdots ino hkind =>
    exact hnext hcur hskip hdots (hcs c mem_cons_self) hkind (by simp)
  | case8 => trivial
  | case9 cur c rest hskip hdots target hkind hlast => exact absurd hlast.2 (by decide)
  | case10 cur c rest hskip hdots target hkind hlast =>
    exact ⟨hcur, fun d hd ↦ hcs d (mem_cons_of_mem c hd)⟩

theorem walked_of_resolveFrom {n : ℕ} (hcur : Walked w cur) (hcs : ∀ c ∈ cs, '/' ∉ c)
    (h : w.resolveFrom true n cur cs = .ok p) : Walked w p := by
  induction n using Nat.strong_induction_on generalizing cur cs with
  | h n ih =>
    have hscan := walked_of_scan hcur hcs
    rcases resolveFrom_eq_ok_iff.mp h with hp | ⟨m, dir, target, rest, rfl, hlink, hrest⟩
    · rwa [hp] at hscan
    · rw [hlink] at hscan
      refine ih m (Nat.lt_succ_self m) ?_ (forall_mem_append.mpr ⟨fun _ ↦ slash_not_mem, hscan.2⟩)
        hrest
      split_ifs
      · exact walked_nil
      · exact hscan.1

/-! ## What is accepted -/

theorem statAt_of_resolve {follow : Bool} {path : Path} (hp : w.resolve follow path = .ok p) :
    w.statAt follow path = (w.kindAt p).elim (.error .enoent) .ok := by
  rw [World.statAt, hp]
  cases hkind : w.kindAt p <;> simp [bind, Except.bind, hkind] <;> rfl

theorem exists_of_linkAt (h : w.linkAt p ≠ none) :
    ∃ target, w.kindAt p = some (.symlink target) := by
  rw [World.linkAt] at h
  split at h
  · rename_i target hkind
    exact ⟨target, hkind⟩
  · exact absurd rfl h

section

variable {path : Path} (hp : w.resolve true path = .ok p)
include hp

theorem resolvePathForContainment_of_resolve : resolvePathForContainment w path =
    if w.kindAt p = none then
      evalSymlinks w path.dropLast >>= fun parent ↦ .ok (parent ++ path.getLast?.toList)
    else .ok p := by
  have hresolve : w.resolveFrom true 255 [] path = .ok p := resolveFrom_mono (by decide) hp
  have heval : evalSymlinks w path = if w.kindAt p = none then .error .enoent else .ok p := by
    rw [evalSymlinks, hresolve]
    rfl
  rw [resolvePathForContainment, heval]
  split_ifs <;> rfl

variable (hclean : Clean path)
include hclean

/-- The check sees the place that is opened, unless that is behind a link that leads nowhere. -/
theorem eq_of_resolvePathForContainment (hdangling : ¬ Dangling w path)
    (h : resolvePathForContainment w path = .ok q) : q = p := by
  have hstat : w.stat path = _ := statAt_of_resolve hp
  rw [resolvePathForContainment_of_resolve hp] at h
  split_ifs at h with hnone
  · obtain ⟨parent, hparent, ⟨⟩⟩ := Machine.bind_eq_ok.mp h
    obtain ⟨hparent, hexists⟩ := evalSymlinks_eq_ok_iff.mp hparent
    rcases eq_nil_or_concat' path with rfl | ⟨d, c, rfl⟩
    · cases hparent
      cases hp
      exact absurd hnone hexists
    rw [hnone] at hstat
    rw [dropLast_concat] at hparent
    rcases w.resolveFrom_true hp with hsame | ⟨q, hq, hlink⟩
    · obtain ⟨d', hd', rfl⟩ := w.resolveFrom_snoc (hclean c (by simp)) hsame
      rw [Except.ok.inj (hparent.symm.trans (resolveFrom_mono (by decide) hd')), getLast?_concat]
      rfl
    · obtain ⟨target, htarget⟩ := exists_of_linkAt hlink
      have hlstat : w.lstat (d ++ [c]) = _ := statAt_of_resolve hq
      rw [htarget] at hlstat
      exact absurd ⟨⟨target, hlstat⟩, hstat⟩ hdangling
  · exact (Except.ok.inj h).symm

/-- A link that leads nowhere is looked for in its directory. -/
theorem resolvePathForContainment_of_dangling (h : Dangling w path) :
    ∃ d c parent, path = d ++ [c] ∧ w.resolve true d = .ok parent ∧
      w.linkAt (parent ++ [c]) ≠ none ∧
      resolvePathForContainment w path = .ok (parent ++ [c]) := by
  obtain ⟨⟨target, hlstat⟩, henoent⟩ := h
  have hstat : w.stat path = _ := statAt_of_resolve hp
  rw [henoent] at hstat
  have hnone : w.kindAt p = none := by
    cases hkind : w.kindAt p with
    | none => rfl
    | some kind =>
      rw [hkind] at hstat
      cases hstat
  obtain ⟨q, hq, hkind⟩ := Machine.bind_eq_ok.mp hlstat
  have hsymlink : w.kindAt q = some (.symlink target) := by
    split at hkind
    · cases hkind
    · rename_i kind hsome
      cases hkind
      exact hsome
  rcases eq_nil_or_concat' path with rfl | ⟨d, c, rfl⟩
  · cases hp
    cases hq
    cases hnone.symm.trans hsymlink
  obtain ⟨parent, hparent, rfl⟩ := w.resolveFrom_snoc (hclean c (by simp)) hq
  have hexists : w.kindAt parent ≠ none :=
    World.kindAt_ne_none_of_isPrefix (prefix_append parent [c]) (by simp [hsymlink])
  refine ⟨d, c, parent, rfl, hparent, by simp [World.linkAt, hsymlink], ?_⟩
  rw [resolvePathForContainment_of_resolve hp, if_pos hnone, dropLast_concat, getLast?_concat,
    evalSymlinks_eq_ok_iff.mpr ⟨resolveFrom_mono (by decide) hparent, hexists⟩]
  rfl

end

section

variable {cwd value : Text} {kind : PathKind} (hvalue : trimSpace value ≠ [])
include hvalue

theorem validateServerPath_eq_ok {trustedRoots : List Text} (hroots : trustedRoots ≠ [])
    (hok : validateServerPath w cwd value trustedRoots kind = .ok ()) :
    ∃ resolved, resolvePathForContainment w (absolute cwd (trimSpace value)) = .ok resolved ∧
      (∃ root ∈ trustedRoots, isAbs root = true ∧ namedPlace root <+: resolved) ∧
      (kind = .any ∨ ∃ info, w.stat (absolute cwd (trimSpace value)) = .ok info) := by
  rw [validateServerPath, if_neg (not_or.mpr ⟨hvalue, hroots⟩)] at hok
  dsimp only at hok
  cases hresolved : resolvePathForContainment w (absolute cwd (trimSpace value)) with
  | error e =>
    rw [hresolved] at hok
    cases hok
  | ok resolved =>
    rw [hresolved] at hok
    dsimp only at hok
    by_cases houtside : pathWithinTrustedRoots resolved trustedRoots = false
    · rw [if_pos houtside] at hok
      cases hok
    obtain ⟨root, hmem, hroot⟩ := any_eq_true.mp (Bool.of_not_eq_false houtside)
    rw [Bool.and_eq_true, decide_eq_true_eq] at hroot
    refine ⟨resolved, rfl, ⟨root, hmem, hroot⟩, ?_⟩
    rw [if_neg houtside] at hok
    by_cases hany : kind = .any
    · exact .inl hany
    rw [if_neg hany] at hok
    cases hstat : w.stat (absolute cwd (trimSpace value)) with
    | error e =>
      rw [hstat] at hok
      cases hok
    | ok info => exact .inr ⟨info, rfl⟩

/-- **What is accepted for some trusted directories is opened below one of them**, whatever the
directories are, exactly if it is no link that leads nowhere. For a file or a directory that has to
exist such a link is not accepted. -/
theorem within_iff_not_dangling
    (hsame : opened w cwd value = w.resolve true (absolute cwd (trimSpace value)))
    (hp : opened w cwd value = .ok p) :
    (∀ trustedRoots : List Text, trustedRoots ≠ [] →
      validateServerPath w cwd value trustedRoots kind = .ok () →
      ∃ root ∈ trustedRoots, isAbs root = true ∧ namedPlace root <+: p) ↔
    (kind = .any → ¬ Dangling w (absolute cwd (trimSpace value))) := by
  have hnames : ∀ c ∈ absolute cwd (trimSpace value), IsName c ∧ '/' ∉ c := by
    intro c hc
    rw [absolute] at hc
    split_ifs at hc
    all_goals exact ⟨clean_cleanRooted _ c hc, slash_not_mem (mem_of_mem_cleanRooted hc)⟩
  have hclean : Clean (absolute cwd (trimSpace value)) := fun c hc ↦ (hnames c hc).1
  rw [hsame] at hp
  constructor
  · rintro h rfl hdangling
    obtain ⟨d, c, parent, hpath, hparent, hlink, hresolved⟩ :=
      resolvePathForContainment_of_dangling hp hclean hdangling
    have hslash : ∀ c ∈ absolute cwd (trimSpace value), '/' ∉ c := fun c hc ↦ (hnames c hc).2
    have hwalked : Walked w p := walked_of_resolveFrom walked_nil hslash hp
    rw [hpath] at hnames hslash
    have hdir : Walked w parent :=
      walked_of_resolveFrom walked_nil (fun c hc ↦ hslash c (mem_append_left _ hc)) hparent
    -- the link itself, taken for a trusted directory
    have hplace : namedPlace ('/' :: intercalate ['/'] (parent ++ [c])) = parent ++ [c] :=
      namedPlace_rooted fun e he ↦ (mem_append.mp he).elim hdir.names fun he ↦
        hnames e (mem_append_right _ he)
    obtain ⟨root, hmem, -, hle⟩ := h ['/' :: intercalate ['/'] (parent ++ [c])] (by simp) (by
      rw [validateServerPath, if_neg (not_or.mpr ⟨hvalue, by simp⟩)]
      simp [hresolved, pathWithinTrustedRoots, hplace, isAbs])
    rw [mem_singleton.mp hmem, hplace] at hle
    exact hlink (hwalked parent c hle).2.2
  · intro h trustedRoots hroots hok
    obtain ⟨resolved, hresolved, hwithin, hkind⟩ := validateServerPath_eq_ok hvalue hroots hok
    have hdangling : ¬ Dangling w (absolute cwd (trimSpace value)) := by
      rcases hkind with hkind | ⟨info, hinfo⟩
      · exact h hkind
      · exact fun hdangling ↦ by cases hinfo.symm.trans hdangling.2
    rwa [eq_of_resolvePathForContainment hp hclean hdangling hresolved] at hwithin

end

/-- In the trusted directory `/t` there are a file and a link that leads nowhere. -/
def trustedHost : World :=
  ⟨some (.dir [(['t'], .dir [(['f'], .file 0), (['l'], .symlink "/e/x".toList)]),
    (['e'], .dir [])]), 1, []⟩

theorem within_newFile :
    validateServerPath trustedHost "/t".toList "n".toList ["/t".toList] .any = .ok () ∧
      ∃ root ∈ ["/t".toList], isAbs root = true ∧ namedPlace root <+: [['t'], ['n']] := by
  have hok : validateServerPath trustedHost "/t".toList "n".toList ["/t".toList] .any = .ok () :=
    rfl
  refine ⟨hok, (within_iff_not_dangling (by decide) rfl rfl).mpr (fun _ h ↦ ?_) _ (by decide) hok⟩
  obtain ⟨target, htarget⟩ := h.1
  cases htarget

/-- **A link that leads nowhere** is accepted, and a file that is opened there to be created is
created in `/e`. -/
theorem opened_dangling :
    validateServerPath trustedHost [] "/t/l".toList ["/t".toList] .any = .ok () ∧
      opened trustedHost [] "/t/l".toList = .ok [['e'], ['x']] := ⟨rfl, rfl⟩

end Gocracker.Api
