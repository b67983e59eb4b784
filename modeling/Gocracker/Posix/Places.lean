import Gocracker.Posix.FileSystem

/-!
# What a tree holds

All places of a tree, with what is there. The list is finite, so that a condition on everything a
directory holds can be evaluated.
-/

namespace Posix

mutual

def Tree.places : Tree → List (Path × Kind)
  | .file ino => [([], .file ino)]
  | .symlink target => [([], .symlink target)]
  | .dir entries => ([], .dir) :: entryPlaces entries

def entryPlaces : List (Text × Tree) → List (Path × Kind)
  | [] => []
  | (c, t) :: entries => (t.places.map fun x ↦ (c :: x.1, x.2)) ++ entryPlaces entries

end

def World.places (w : World) (p : Path) : List (Path × Kind) :=
  ((treeAt w.tree p).map Tree.places).getD []

variable {t : Tree} {entries : List (Text × Tree)} {c : Text} {p r : Path} {kind : Kind} {w : World}

theorem self_mem_places (t : Tree) : ([], t.kind) ∈ t.places := by
  cases t <;> simp [Tree.places, Tree.kind]

theorem cons_mem_entryPlaces (he : entry c entries = some t) (h : (r, kind) ∈ t.places) :
    (c :: r, kind) ∈ entryPlaces entries := by
  induction entries with
  | nil => nomatch he
  | cons e entries ih =>
    obtain ⟨d, t'⟩ := e
    rw [entryPlaces, List.mem_append]
    by_cases hd : d = c
    · have heq : t' = t := by simpa [entry, hd] using he
      rw [hd, heq]
      exact .inl (List.mem_map.mpr ⟨(r, kind), h, rfl⟩)
    · refine .inr (ih ?_)
      simpa [entry, hd] using he

theorem mem_places_of_kindAt (h : kindAt (some t) r = some kind) : (r, kind) ∈ t.places := by
  induction r generalizing t with
  | nil => exact Option.some.inj h ▸ self_mem_places t
  | cons c r ih =>
    cases t with
    | file | symlink => cases h
    | dir entries =>
      change kindAt (entry c entries) r = some kind at h
      cases he : entry c entries with
      | none =>
        rw [he, kindAt, treeAt_none] at h
        cases h
      | some t' =>
        rw [he] at h
        exact List.mem_cons_of_mem _ (cons_mem_entryPlaces he (ih h))

theorem World.mem_places (h : w.kindAt (p ++ r) = some kind) : (r, kind) ∈ w.places p := by
  rw [World.kindAt, kindAt_append] at h
  cases ht : treeAt w.tree p with
  | none =>
    rw [ht, Posix.kindAt, treeAt_none] at h
    cases h
  | some t =>
    rw [ht] at h
    rw [World.places, ht]
    exact mem_places_of_kindAt h

end Posix
