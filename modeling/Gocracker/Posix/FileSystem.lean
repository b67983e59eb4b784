import Gocracker.Machine.Fallible
import Gocracker.Machine.Stateful
import Gocracker.Posix.Tree

/-!
# A filesystem and its operations

A path is resolved as a kernel does it: component by component from the root, replacing every
symbolic link that is met by its target, and going up at a double dot. Whether a link in the last
place is followed depends on the operation. After forty links the walk gives up.

## The record of what was acted on

Every operation that creates, truncates, removes, links or changes the metadata of an object adds
the *resolved* path of that object to `touched`. A removal of a directory stands for everything
below it. Where an operation acts is then a statement about this record, however the paths that were
handed to it look.

## Paths without links

On a path no component of which is a link, resolution is the identity. That is all that is needed to
say where an operation acts, and it needs to look only at the links: `linkAt`.
-/

namespace Posix

open Machine List

inductive Errno where
  | enoent
  | enotdir
  | eexist
  | eloop
  | eisdir
  | enotempty
  | eperm
  | einval
  | enametoolong
  | eio
  deriving DecidableEq

/-- A filesystem, with the resolved paths of the objects that were acted on. -/
structure World where
  tree : Option Tree
  nextIno : ℕ
  touched : List Path

namespace World

variable (w : World)

def kindAt (p : Path) : Option Kind := Posix.kindAt w.tree p

/-- The target of the link at a path, if there is a link. -/
def linkAt (p : Path) : Option Text :=
  match w.kindAt p with
  | some (.symlink target) => some target
  | _ => none

/-! ## Resolution -/

end World

/-- How far a walk along directories gets. -/
inductive Scan where
  /-- At this place, whether something is there or not. -/
  | reached (p : Path)
  | fail (e : Errno)
  /-- In this directory a link stands in the way. -/
  | link (dir : Path) (target : Text) (rest : List Text)

/-- Go on behind a link: its target is walked from the directory it is in, or from the root. -/
def Scan.finish (next : Path → List Text → Except Errno Path) : Scan → Except Errno Path
  | .reached p => .ok p
  | .fail e => .error e
  | .link dir target rest => next (if isAbs target then [] else dir) (components target ++ rest)

namespace World

variable (w : World)

/-- Walk from the directory `cur` up to the first link. -/
def scan (follow : Bool) : Path → List Text → Scan
  | cur, [] => .reached cur
  | cur, c :: rest =>
    if c = [] ∨ c = dot then scan follow cur rest
    else if c = dotdot then scan follow cur.dropLast rest
    else
      match w.kindAt (cur ++ [c]) with
      | none => if rest = [] then .reached (cur ++ [c]) else .fail .enoent
      | some .dir => scan follow (cur ++ [c]) rest
      | some (.file _) => if rest = [] then .reached (cur ++ [c]) else .fail .enotdir
      | some (.symlink target) =>
        if rest = [] ∧ follow = false then .reached (cur ++ [c]) else .link cur target rest

/-- Resolve, with so many links to go. -/
def resolveFrom (follow : Bool) : ℕ → Path → List Text → Except Errno Path
  | 0, cur, cs => (w.scan follow cur cs).finish fun _ _ ↦ .error .eloop
  | links + 1, cur, cs => (w.scan follow cur cs).finish (resolveFrom follow links)

/-- The place that an absolute path leads to. -/
def resolve (follow : Bool) (path : Path) : Except Errno Path := w.resolveFrom follow 40 [] path

/-! ## Queries -/

def statAt (follow : Bool) (path : Path) : Except Errno Kind := do
  let p ← w.resolve follow path
  match w.kindAt p with
  | none => throw .enoent
  | some kind => return kind

variable (path : Path)

def lstat : Except Errno Kind := w.statAt false path

def stat : Except Errno Kind := w.statAt true path

/-- The names in a directory. A directory has no other entries than named ones. -/
def readDir : Except Errno (List Text) := do
  let p ← w.resolve true path
  match treeAt w.tree p with
  | some (.dir entries) => return (entries.map (·.1)).filter fun c ↦ IsName c
  | some _ => throw .enotdir
  | none => throw .enoent

/-! ## Operations -/

/-- Record that the object at `p` is acted on. -/
def touch (p : Path) : World := { w with touched := p :: w.touched }

/-- Replace the object at `p`. -/
def put (p : Path) (o : Option Tree) : World :=
  { w with tree := alter (fun _ ↦ o) p w.tree, touched := p :: w.touched }

def mkdir : Except Errno World := do
  let p ← w.resolve false path
  if w.kindAt p = none then return w.put p (some (.dir [])) else throw .eexist

def openTrunc : Except Errno World := do
  let p ← w.resolve true path
  match w.kindAt p with
  | none => return { w.put p (some (.file w.nextIno)) with nextIno := w.nextIno + 1 }
  | some (.file _) => return w.touch p
  | some .dir => throw .eisdir
  | some (.symlink _) => throw .eloop

def openWrite : Except Errno World := do
  let p ← w.resolve true path
  match w.kindAt p with
  | none => throw .enoent
  | some (.file _) => return w.touch p
  | some .dir => throw .eisdir
  | some (.symlink _) => throw .eloop

def symlink (target : Text) (path : Path) : Except Errno World := do
  if target = [] then throw .enoent
  let p ← w.resolve false path
  if w.kindAt p = none then return w.put p (some (.symlink target)) else throw .eexist

/-- A second name for an object, which may be a link but not a directory. -/
def link (old path : Path) : Except Errno World := do
  let source ← w.resolve false old
  match treeAt w.tree source with
  | none => throw .enoent
  | some (.dir _) => throw .eperm
  | some t =>
    let p ← w.resolve false path
    if w.kindAt p = none then return (w.touch source).put p (some t) else throw .eexist

/-- Remove a file, a link or an empty directory. -/
def remove : Except Errno World := do
  let p ← w.resolve false path
  match treeAt w.tree p with
  | none => throw .enoent
  | some (.dir (_ :: _)) => throw .enotempty
  | some _ => return w.put p none

/-- Remove whatever is there, with everything below it; nothing there is no error. -/
def removeAll : Except Errno World :=
  match w.resolve false path with
  | .error .enoent => .ok w
  | .error e => .error e
  | .ok p => if w.kindAt p = none then .ok w else .ok (w.put p none)

/-- Change the metadata of what is at the end of a path: its owner without following a link, its
mode and times following it. -/
def setAttr (follow : Bool) (path : Path) : Except Errno World := do
  let p ← w.resolve follow path
  if w.kindAt p = none then throw .enoent else return w.touch p

end World

/-- Run an operation on the filesystem. -/
def sys (op : World → Except Errno World) : EStateM Errno World PUnit := do
  let w ← get
  match op w with
  | .ok w' => set w'
  | .error e => throw e

/-- Make a directory and what is missing above it. The path is given from its end. -/
def mkdirAll : List Text → EStateM Errno World PUnit
  | [] => pure ⟨⟩
  | c :: rev => do
    let path := (c :: rev).reverse
    let w ← get
    match w.stat path with
    | .ok .dir => pure ⟨⟩
    | .ok _ => throw .enotdir
    | .error _ => do
      mkdirAll rev
      let w ← get
      match w.mkdir path with
      | .ok w' => set w'
      | .error e => if w.lstat path = .ok .dir then pure ⟨⟩ else throw e

/-! ## Straight paths -/

/-- No component of `cs`, walked from `cur`, is a link. -/
def Unlinked (links : Path → Option Text) : Path → List Text → Prop
  | _, [] => True
  | cur, c :: rest => links (cur ++ [c]) = none ∧ Unlinked links (cur ++ [c]) rest

instance decidableUnlinked (links : Path → Option Text) :
    ∀ cur cs, Decidable (Unlinked links cur cs)
  | _, [] => .isTrue trivial
  | cur, c :: rest =>
    have := decidableUnlinked links (cur ++ [c]) rest
    inferInstanceAs (Decidable (_ ∧ _))

/-- No link stands in the way, where the last component counts only if it is followed. -/
def Passable (links : Path → Option Text) (follow : Bool) : Path → List Text → Prop
  | _, [] => True
  | cur, c :: rest =>
    (links (cur ++ [c]) = none ∨ rest = [] ∧ follow = false) ∧
      Passable links follow (cur ++ [c]) rest

section Straight

variable {links links' : Path → Option Text} {cur p q cs : List Text} {c : Text} {follow : Bool}

theorem unlinked_append :
    Unlinked links cur (p ++ q) ↔ Unlinked links cur p ∧ Unlinked links (cur ++ p) q := by
  induction p generalizing cur with
  | nil => rw [nil_append, append_nil, Unlinked, true_and]
  | cons c p ih =>
    rw [cons_append, Unlinked, Unlinked, ih, and_assoc, append_assoc, singleton_append]

theorem unlinked_snoc :
    Unlinked links cur (p ++ [c]) ↔ Unlinked links cur p ∧ links (cur ++ p ++ [c]) = none := by
  rw [unlinked_append, Unlinked, Unlinked, and_true]

theorem Unlinked.mono (hu : Unlinked links cur cs)
    (h : ∀ q, q <+: cur ++ cs → links q = none → links' q = none) : Unlinked links' cur cs := by
  induction cs generalizing cur with
  | nil => trivial
  | cons c cs ih =>
    rw [append_cons] at h
    exact ⟨h _ (prefix_append _ _) hu.1, ih hu.2 h⟩

theorem Unlinked.passable (hu : Unlinked links cur cs) : Passable links follow cur cs := by
  induction cs generalizing cur with
  | nil => trivial
  | cons c cs ih => exact ⟨.inl hu.1, ih hu.2⟩

/-- A link in the last place is no obstacle to an operation that does not follow it. -/
theorem Unlinked.passable_snoc (hu : Unlinked links cur cs) :
    Passable links false cur (cs ++ [c]) := by
  induction cs generalizing cur with
  | nil => exact ⟨.inr ⟨rfl, rfl⟩, trivial⟩
  | cons d cs ih => exact ⟨.inl hu.1, ih hu.2⟩

end Straight

namespace World

variable {w w' : World} {follow : Bool} {cur path p q cs : List Text} {c : Text}

theorem kindAt_append_of_eq (h : w.kindAt p = none ∨ ∃ ino, w.kindAt p = some (.file ino))
    (hq : q ≠ []) : w.kindAt (p ++ q) = none := by
  obtain ⟨c, q, rfl⟩ := exists_cons_of_ne_nil hq
  simp only [kindAt, Posix.kindAt, treeAt_append] at h ⊢
  cases htree : treeAt w.tree p with
  | none => rfl
  | some t =>
    cases t with
    | file | symlink => rfl
    | dir => simp [htree, Tree.kind] at h

theorem kindAt_ne_none_of_isPrefix (hq : q <+: p) (hp : w.kindAt p ≠ none) : w.kindAt q ≠ none := by
  obtain ⟨r, rfl⟩ := hq
  intro hnone
  by_cases hr : r = []
  · rw [hr, append_nil] at hp
    exact hp hnone
  · exact hp (kindAt_append_of_eq (.inl hnone) hr)

/-- Along a passable path a walk reaches the end, or it fails and nothing is there. -/
theorem scan_of_passable (hclean : Clean cs) (hpass : Passable w.linkAt follow cur cs) :
    w.scan follow cur cs = .reached (cur ++ cs) ∨
      (∃ e, w.scan follow cur cs = .fail e) ∧ w.kindAt (cur ++ cs) = none := by
  induction cs generalizing cur with
  | nil => exact .inl (by rw [scan, append_nil])
  | cons c rest ih =>
    obtain ⟨hempty, hdot, hdotdot⟩ := hclean c mem_cons_self
    have hrest : Clean rest := fun d hd ↦ hclean d (mem_cons_of_mem c hd)
    rw [scan, if_neg (not_or.mpr ⟨hempty, hdot⟩), if_neg hdotdot, append_cons cur c rest]
    cases hkind : w.kindAt (cur ++ [c]) with
    | none =>
      by_cases hnil : rest = []
      · exact .inl (by rw [hnil, append_nil]; exact if_pos rfl)
      · exact .inr ⟨⟨.enoent, if_neg hnil⟩, kindAt_append_of_eq (.inl hkind) hnil⟩
    | some kind =>
      cases kind with
      | dir => exact ih hrest hpass.2
      | file ino =>
        by_cases hnil : rest = []
        · exact .inl (by rw [hnil, append_nil]; exact if_pos rfl)
        · exact .inr ⟨⟨.enotdir, if_neg hnil⟩, kindAt_append_of_eq (.inr ⟨ino, hkind⟩) hnil⟩
      | symlink target =>
        have hlink : w.linkAt (cur ++ [c]) = some target := by rw [linkAt, hkind]
        rcases hpass.1 with hnone | hlast
        · exact absurd (hlink.symm.trans hnone) (by simp)
        · exact .inl (by rw [hlast.1, append_nil]; exact if_pos ⟨rfl, hlast.2⟩)

/-- A path that leads to the place it names: its components are names, and no link is followed. -/
structure Straight (w : World) (follow : Bool) (path : Path) : Prop where
  clean : Clean path
  passable : Passable w.linkAt follow [] path

section

variable (h : w.Straight follow path)
include h

theorem Straight.resolve : w.resolve follow path = .ok path ∨
      (∃ e, w.resolve follow path = .error e) ∧ w.kindAt path = none := by
  rcases scan_of_passable h.clean h.passable with hreach | ⟨⟨e, hfail⟩, hnone⟩
  · exact .inl (by rw [World.resolve, resolveFrom, hreach]; rfl)
  · exact .inr ⟨⟨e, by rw [World.resolve, resolveFrom, hfail]; rfl⟩, hnone⟩

/-- **Resolution of a straight path** is the identity. -/
theorem Straight.eq_of_resolve (hp : w.resolve follow path = .ok p) : p = path := by
  rcases h.resolve with hok | ⟨⟨e, herr⟩, -⟩
  · exact Except.ok.inj (hp.symm.trans hok)
  · exact absurd (hp.symm.trans herr) (by simp)

theorem Straight.kindAt_of_statAt {kind : Kind}
    (hstat : w.statAt follow path = .ok kind) : w.kindAt path = some kind := by
  obtain ⟨p, hp, hkind⟩ := bind_eq_ok.mp hstat
  rw [h.eq_of_resolve hp] at hkind
  cases hat : w.kindAt path with
  | none => rw [hat] at hkind; nomatch hkind
  | some kind' => rw [hat] at hkind; exact congrArg some (Except.ok.inj hkind)

theorem Straight.kindAt_of_statAt_error {e : Errno}
    (hstat : w.statAt follow path = .error e) : w.kindAt path = none := by
  rcases h.resolve with hok | ⟨-, hnone⟩
  · cases hat : w.kindAt path with
    | none => rfl
    | some kind =>
      rw [statAt, hok] at hstat
      simp only [bind, Except.bind, hat] at hstat
      nomatch hstat
  · exact hnone

end

/-! ## Following the last link, and going one step further -/

variable {links : ℕ} {A : Path → Prop} {next next' : Path → List Text → Except Errno Path}

/-- Whether the last link is followed makes a difference only if a link is in the last place. -/
theorem scan_true (cur : Path) (cs : List Text) : w.scan true cur cs = w.scan false cur cs ∨
    ∃ q, w.scan false cur cs = .reached q ∧ w.linkAt q ≠ none := by
  fun_induction w.scan true cur cs with
  | case1 => exact .inl rfl
  | case2 cur c rest hskip ih => rwa [scan, if_pos hskip]
  | case3 cur rest hskip ih => rwa [scan, if_neg hskip, if_pos rfl]
  | case4 cur c hskip hup hkind | case5 cur c rest hskip hup hkind hrest
  | case7 cur c hskip hup ino hkind | case8 cur c rest hskip hup ino hkind hrest =>
    rw [scan, if_neg hskip, if_neg hup, hkind]
    simp_all
  | case6 cur c rest hskip hup hkind ih =>
    simpa only [scan, if_neg hskip, if_neg hup, hkind] using ih
  | case9 cur c rest hskip hup target hkind hlast => exact absurd hlast.2 (by simp)
  | case10 cur c rest hskip hup target hkind hlast =>
    simp only [scan, if_neg hskip, if_neg hup, hkind]
    by_cases hrest : rest = []
    · exact .inr ⟨cur ++ [c], by simp [hrest], by simp [linkAt, hkind]⟩
    · exact .inl (by simp [hrest])

theorem finish_true (h : (w.scan true cur cs).finish next = .ok p)
    (hnext : ∀ cur cs, next cur cs = .ok p →
      next' cur cs = .ok p ∨ ∃ q, next' cur cs = .ok q ∧ w.linkAt q ≠ none) :
    (w.scan false cur cs).finish next' = .ok p ∨
      ∃ q, (w.scan false cur cs).finish next' = .ok q ∧ w.linkAt q ≠ none := by
  rcases w.scan_true cur cs with hsame | ⟨q, hq, hlink⟩
  · rw [hsame] at h
    cases hscan : w.scan false cur cs with
    | reached q => exact .inl (by rwa [hscan] at h)
    | fail e => rw [hscan] at h; nomatch h
    | link dir target rest => exact hnext _ _ (by rwa [hscan] at h)
  · exact .inr ⟨q, by rw [hq]; rfl, hlink⟩

theorem resolveFrom_true (h : w.resolveFrom true links cur cs = .ok p) :
    w.resolveFrom false links cur cs = .ok p ∨
      ∃ q, w.resolveFrom false links cur cs = .ok q ∧ w.linkAt q ≠ none := by
  induction links generalizing cur cs with
  | zero => exact finish_true h nofun
  | succ links ih => exact finish_true h fun _ _ ↦ ih

/-- One step further, to a name: the walk gets to it from where it gets to without it. -/
theorem scan_snoc (hc : IsName c) (cur : Path) (cs : List Text) :
    (∃ d, w.scan true cur cs = .reached d ∧ w.scan false cur (cs ++ [c]) = .reached (d ++ [c])) ∨
      (∃ e, w.scan false cur (cs ++ [c]) = .fail e) ∨
      ∃ dir target rest, w.scan true cur cs = .link dir target rest ∧
        w.scan false cur (cs ++ [c]) = .link dir target (rest ++ [c]) := by
  obtain ⟨hempty, hdot, hdotdot⟩ := hc
  fun_induction w.scan true cur cs with
  | case1 cur =>
    refine .inl ⟨cur, rfl, ?_⟩
    rw [nil_append, scan, if_neg (not_or.mpr ⟨hempty, hdot⟩), if_neg hdotdot]
    split <;> simp [scan]
  | case2 cur c' rest hskip ih => rwa [cons_append, scan, if_pos hskip]
  | case3 cur rest hskip ih => rwa [cons_append, scan, if_neg hskip, if_pos rfl]
  | case4 cur c' hskip hup hkind | case5 cur c' rest hskip hup hkind hrest
  | case7 cur c' hskip hup ino hkind | case8 cur c' rest hskip hup ino hkind hrest =>
    refine .inr (.inl ?_)
    rw [cons_append, scan, if_neg hskip, if_neg hup, hkind]
    simp
  | case6 cur c' rest hskip hup hkind ih =>
    simpa only [cons_append, scan, if_neg hskip, if_neg hup, hkind] using ih
  | case9 cur c' rest hskip hup target hkind hlast => exact absurd hlast.2 (by simp)
  | case10 cur c' rest hskip hup target hkind hlast =>
    refine .inr (.inr ⟨cur, target, rest, rfl, ?_⟩)
    rw [cons_append, scan, if_neg hskip, if_neg hup, hkind]
    simp

theorem finish_snoc (hc : IsName c) (h : (w.scan false cur (cs ++ [c])).finish next = .ok p)
    (hnext : ∀ cur cs, next cur (cs ++ [c]) = .ok p → ∃ d, next' cur cs = .ok d ∧ p = d ++ [c]) :
    ∃ d, (w.scan true cur cs).finish next' = .ok d ∧ p = d ++ [c] := by
  rcases w.scan_snoc hc cur cs with ⟨d, hd, hlast⟩ | ⟨e, hfail⟩ | ⟨dir, target, rest, hlink, hlast⟩
  · rw [hlast] at h
    exact ⟨d, by rw [hd]; rfl, (Except.ok.inj h).symm⟩
  · rw [hfail] at h; nomatch h
  · rw [hlast, Scan.finish, ← append_assoc] at h
    rw [hlink]
    exact hnext _ _ h

theorem resolveFrom_snoc (hc : IsName c) (h : w.resolveFrom false links cur (cs ++ [c]) = .ok p) :
    ∃ d, w.resolveFrom true links cur cs = .ok d ∧ p = d ++ [c] := by
  induction links generalizing cur cs with
  | zero => exact finish_snoc hc h nofun
  | succ links ih => exact finish_snoc hc h fun _ _ ↦ ih

/-! ## Resolution that does not depend on a part of the tree -/

section

variable (hnone : ∀ q, A q → w.kindAt q = none) (hsame : ∀ q, ¬A q → w'.kindAt q = w.kindAt q)
include hnone hsame

theorem scan_of_agree (hfail : ∀ e, w.scan follow cur cs ≠ .fail e)
    (hout : ∀ q, w.scan follow cur cs = .reached q → ¬A q) :
    w'.scan follow cur cs = w.scan follow cur cs := by
  fun_induction w.scan follow cur cs with
  | case1 => rfl
  | case2 cur c rest hskip ih =>
    rw [scan, if_pos hskip]
    exact ih hfail hout
  | case3 cur rest hskip ih =>
    rw [scan, if_neg hskip, if_pos rfl]
    exact ih hfail hout
  | case4 cur c hskip hup hkind =>
    rw [scan, if_neg hskip, if_neg hup, hsame _ (hout _ rfl), hkind]
    rfl
  | case5 | case8 => exact absurd rfl (hfail _)
  | case6 cur c rest hskip hup hkind ih =>
    have hA : ¬A (cur ++ [c]) := fun hA ↦ by rw [hnone _ hA] at hkind; nomatch hkind
    simp only [scan, if_neg hskip, if_neg hup, hsame _ hA, hkind]
    exact ih hfail hout
  | case7 cur c hskip hup ino hkind | case9 cur c rest hskip hup target hkind hlast
  | case10 cur c rest hskip hup target hkind hlast =>
    have hA : ¬A (cur ++ [c]) := fun hA ↦ by rw [hnone _ hA] at hkind; nomatch hkind
    simp only [scan, if_neg hskip, if_neg hup, hsame _ hA, hkind]
    simp_all

theorem finish_of_agree (hp : ¬A p) (h : (w.scan follow cur cs).finish next = .ok p)
    (hnext : ∀ cur cs, next cur cs = .ok p → next' cur cs = .ok p) :
    (w'.scan follow cur cs).finish next' = .ok p := by
  rw [scan_of_agree hnone hsame]
  · cases hscan : w.scan follow cur cs with
    | reached q => rwa [hscan] at h
    | fail e => rw [hscan] at h; nomatch h
    | link dir target rest => exact hnext _ _ (by rwa [hscan] at h)
  · intro e he
    rw [he] at h
    nomatch h
  · intro q hq
    rw [hq] at h
    exact Except.ok.inj h ▸ hp

/-- **A path that leads somewhere without a part of the tree** leads there whatever that part is. -/
theorem resolveFrom_of_agree (hp : ¬A p) (h : w.resolveFrom follow links cur cs = .ok p) :
    w'.resolveFrom follow links cur cs = .ok p := by
  induction links generalizing cur cs with
  | zero => exact finish_of_agree hnone hsame hp h nofun
  | succ links ih => exact finish_of_agree hnone hsame hp h fun _ _ ↦ ih

end

end World

end Posix
