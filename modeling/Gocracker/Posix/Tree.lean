import Gocracker.Posix.Path

/-!
# Directory trees

A filesystem is a tree: a directory holds named entries, and a file is known by its inode number, so
that two entries may be the same file. Everything is read through `treeAt`, the object at a path of
names, and written through `alter`, which replaces one object and does nothing where the directory
that should hold it does not exist. An object is there only if the directories above it are, by the
shape of the tree.
-/

namespace Posix

open List Option

inductive Tree where
  | file (ino : ℕ)
  | symlink (target : Text)
  | dir (entries : List (Text × Tree))

/-- What an object is, without what it holds. -/
inductive Kind where
  | file (ino : ℕ)
  | symlink (target : Text)
  | dir
  deriving DecidableEq

def Kind.isLink : Kind → Bool
  | .symlink _ => true
  | _ => false

def Kind.isFile : Kind → Bool
  | .file _ => true
  | _ => false

def Tree.kind : Tree → Kind
  | .file ino => .file ino
  | .symlink target => .symlink target
  | .dir _ => .dir

/-! ## Entries -/

def entry (c : Text) (entries : List (Text × Tree)) : Option Tree :=
  (entries.find? fun e ↦ e.1 = c).map (·.2)

def setEntry (c : Text) (o : Option Tree) (entries : List (Text × Tree)) : List (Text × Tree) :=
  let rest := entries.filter fun e ↦ e.1 ≠ c
  match o with
  | none => rest
  | some t => (c, t) :: rest

variable {c d : Text} {o : Option Tree} {entries : List (Text × Tree)}

theorem entry_filter_self : entry c (entries.filter fun e ↦ e.1 ≠ c) = none := by
  simp [entry]

theorem entry_filter_of_ne (h : d ≠ c) :
    entry d (entries.filter fun e ↦ e.1 ≠ c) = entry d entries := by
  rw [entry, find?_filter]
  congr 2
  funext e
  by_cases hed : e.1 = d
  · simp [hed, h]
  · simp [hed]

@[simp] theorem entry_setEntry_self : entry c (setEntry c o entries) = o := by
  cases o with
  | none => exact entry_filter_self
  | some t => simp [setEntry, entry]

theorem entry_setEntry_of_ne (h : d ≠ c) : entry d (setEntry c o entries) = entry d entries := by
  cases o with
  | none => exact entry_filter_of_ne h
  | some t =>
    have hcons : entry d ((c, t) :: entries.filter fun e ↦ e.1 ≠ c) =
        entry d (entries.filter fun e ↦ e.1 ≠ c) := by
      simp [entry, h.symm]
    exact hcons.trans (entry_filter_of_ne h)

/-! ## Reading and writing at a path -/

def treeAt : Option Tree → Path → Option Tree
  | o, [] => o
  | some (.dir entries), c :: p => treeAt (entry c entries) p
  | _, _ :: _ => none

/-- Replace the object at a path. -/
def alter (f : Option Tree → Option Tree) : Path → Option Tree → Option Tree
  | [], o => f o
  | c :: p, some (.dir entries) => some (.dir (setEntry c (alter f p (entry c entries)) entries))
  | _ :: _, o => o

def kindAt (o : Option Tree) (p : Path) : Option Kind := (treeAt o p).map Tree.kind

theorem treeAt_none (p : Path) : treeAt none p = none := by
  cases p <;> rfl

theorem treeAt_append (o : Option Tree) (p q : Path) :
    treeAt o (p ++ q) = treeAt (treeAt o p) q := by
  induction p generalizing o with
  | nil => rfl
  | cons c p ih =>
    match o with
    | some (.dir entries) => exact ih _
    | some (.file _) | some (.symlink _) | none => exact (treeAt_none q).symm

theorem kindAt_append (o : Option Tree) (p q : Path) :
    kindAt o (p ++ q) = kindAt (treeAt o p) q := by
  rw [kindAt, treeAt_append]
  rfl

theorem kindAt_dir_nil (c : Text) (q : Path) : kindAt (some (.dir [])) (c :: q) = none := by
  rw [kindAt, treeAt, entry, find?_nil, map_none, treeAt_none, map_none]

theorem kindAt_alter_of_not_isPrefix {f : Option Tree → Option Tree} {p q : Path}
    (h : ¬ p <+: q) : kindAt (alter f p o) q = kindAt o q := by
  induction p generalizing o q with
  | nil => exact absurd nil_prefix h
  | cons c p ih =>
    match o with
    | some (.file _) | some (.symlink _) | none => rfl
    | some (.dir entries) =>
      cases q with
      | nil => rfl
      | cons d q =>
        change kindAt (entry d (setEntry c (alter f p (entry c entries)) entries)) q =
          kindAt (entry d entries) q
        rcases eq_or_ne d c with rfl | hne
        · rw [entry_setEntry_self]
          exact ih fun hpre ↦ h (cons_prefix_cons.mpr ⟨rfl, hpre⟩)
        · rw [entry_setEntry_of_ne hne]

/-- At the path itself the replacement stands, or nothing does, as before. -/
theorem treeAt_alter_self (f : Option Tree → Option Tree) (p : Path) (o : Option Tree) :
    treeAt (alter f p o) p = f (treeAt o p) ∨
      treeAt (alter f p o) p = none ∧ treeAt o p = none := by
  induction p generalizing o with
  | nil => exact .inl rfl
  | cons c p ih =>
    match o with
    | some (.file _) | some (.symlink _) | none => exact .inr ⟨rfl, rfl⟩
    | some (.dir entries) =>
      simpa only [alter, treeAt, entry_setEntry_self] using ih (entry c entries)

end Posix
