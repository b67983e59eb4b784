import Gocracker.Transition.Custody

/-!
# Names and inodes

A table of names, each of which may stand for an inode, and the content of every inode. Two names
may stand for one inode (`link`), and an inode may have no name left while a program still has it
open (`unlink`); so a program that holds an inode writes to it by its number (`write`), and a
program that has kept a name reads what the name stands for now (`read`).

An inode in use is below `next`. That is a field of the table, and no operation can break it: a
created file is never the file of another name.

## Holdings

Others rely on finding a certain content under a name. Such a *holding* survives a change of the
table as long as its name is left alone (`Pinned`) and its file is not written to (`Held`), which
is also the case when the name that is changed is a name of the same file.
-/

namespace Posix

open Option Function Transition

/-- Names `ν`, and files with content in `β`. -/
structure Inodes (ν β : Type*) where
  lookup : ν → Option ℕ
  content : ℕ → β
  next : ℕ
  lookup_lt : ∀ {name ino}, lookup name = some ino → ino < next

namespace Inodes

variable {ν β : Type*} (t : Inodes ν β)

def read (name : ν) : Option β := (t.lookup name).map t.content

/-- Replace the content of an open file. -/
def write (ino : ℕ) (b : β) : Inodes ν β :=
  { t with content := Function.update t.content ino b }

variable [DecidableEq ν]

def link (src dst : ν) : Inodes ν β where
  lookup := Function.update t.lookup dst (t.lookup src)
  content := t.content
  next := t.next
  lookup_lt := by
    intro name ino h
    exact forall_mem_update (fun _ _ ↦ t.lookup_lt) (fun _ _ ↦ t.lookup_lt) ino h

def unlink (name : ν) : Inodes ν β where
  lookup := Function.update t.lookup name none
  content := t.content
  next := t.next
  lookup_lt := by
    intro name' ino h
    exact forall_mem_update (by simp) (fun _ _ ↦ t.lookup_lt) ino h

/-- A new file. -/
def create (name : ν) (b : β) : Inodes ν β where
  lookup := Function.update t.lookup name (some t.next)
  content := Function.update t.content t.next b
  next := t.next + 1
  lookup_lt := by
    intro name' ino h
    exact forall_mem_update (by simp) (fun _ _ hb ↦ Nat.lt_succ_of_lt (t.lookup_lt hb)) ino h

@[simp] theorem read_link_self (src dst : ν) : (t.link src dst).read dst = t.read src := by
  simp [read, link]

@[simp] theorem read_create_self (name : ν) (b : β) : (t.create name b).read name = some b := by
  simp [read, create]

theorem read_link_of_ne {src dst name : ν} (h : name ≠ dst) :
    (t.link src dst).read name = t.read name := by
  simp [read, link, update_of_ne h]

theorem read_unlink_of_ne {name name' : ν} (h : name' ≠ name) :
    (t.unlink name).read name' = t.read name' := by
  simp [read, unlink, update_of_ne h]

theorem read_create_of_ne {name name' : ν} {b : β} (h : name' ≠ name) :
    (t.create name b).read name' = t.read name' := by
  have hlookup : (t.create name b).lookup name' = t.lookup name' := update_of_ne h _ _
  rw [read, hlookup]
  refine Option.map_congr fun ino hino ↦ ?_
  exact update_of_ne (Nat.ne_of_lt (t.lookup_lt hino)) _ _

end Inodes

/-! ## Names that are relied on -/

/-- A content that is to be found under a name, if there is one. -/
abbrev Holding (ν β : Type*) := Option ν × β

section Holdings

variable {ν β : Type*} {t : Inodes ν β} {hs hs' : List (Holding ν β)}

def Backed (t : Inodes ν β) (hs : List (Holding ν β)) : Prop :=
  ∀ x ∈ hs, x.1.bind t.read = some x.2

def Pinned (hs : List (Holding ν β)) (name : ν) : Prop := ∃ x ∈ hs, x.1 = some name

/-- Some holding is under a name of this file. -/
def Held (t : Inodes ν β) (hs : List (Holding ν β)) (ino : ℕ) : Prop :=
  ∃ x ∈ hs, x.1.bind t.lookup = some ino
deriving Decidable

section

variable (h : Backed t hs)
include h

theorem Backed.mono (hsub : hs' ⊆ hs) : Backed t hs' := fun x hx ↦ h x (hsub hx)

variable {name : ν} {b : β}

theorem Backed.cons (hread : t.read name = some b) :
    Backed t ((some name, b) :: hs) := by
  intro x hx
  rcases List.mem_cons.mp hx with rfl | hx
  · exact hread
  · exact h x hx

theorem Backed.not_pinned (hnone : t.lookup name = none) : ¬Pinned hs name := by
  rintro ⟨x, hx, hname⟩
  have hread := h x hx
  simp [hname, Inodes.read, hnone] at hread

theorem Backed.write {ino : ℕ} (hheld : ¬Held t hs ino) : Backed (t.write ino b) hs := by
  intro x hx
  obtain ⟨name, hname, hread⟩ := bind_eq_some_iff.mp (h x hx)
  rw [hname, ← hread]
  refine Option.map_congr fun i hi ↦ update_of_ne ?_ _ _
  rintro rfl
  exact hheld ⟨x, hx, by rw [hname]; exact hi⟩

/-- A table that answers alike under every name but one backs what is not held under that name. -/
theorem Backed.of_read_eq {t' : Inodes ν β}
    (hread : ∀ name', name' ≠ name → t'.read name' = t.read name') (hpin : ¬Pinned hs name) :
    Backed t' hs := by
  intro x hx
  obtain ⟨name', hname', hread'⟩ := bind_eq_some_iff.mp (h x hx)
  have hne : name' ≠ name := by
    rintro rfl
    exact hpin ⟨x, hx, hname'⟩
  rw [hname', bind_some, hread name' hne]
  exact hread'

variable [DecidableEq ν]

instance (hs : List (Holding ν β)) (name : ν) : Decidable (Pinned hs name) :=
  inferInstanceAs (Decidable (∃ x ∈ hs, _))

theorem Backed.link {src dst : ν} (hpin : ¬Pinned hs dst) : Backed (t.link src dst) hs :=
  h.of_read_eq (fun _ hne ↦ t.read_link_of_ne hne) hpin

theorem Backed.unlink (hpin : ¬Pinned hs name) : Backed (t.unlink name) hs :=
  h.of_read_eq (fun _ hne ↦ t.read_unlink_of_ne hne) hpin

theorem Backed.create (hpin : ¬Pinned hs name) : Backed (t.create name b) hs :=
  h.of_read_eq (fun _ hne ↦ t.read_create_of_ne hne) hpin

end

end Holdings

end Posix
