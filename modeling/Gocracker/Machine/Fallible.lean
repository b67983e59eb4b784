import Mathlib

/-!
# Computations that may fail

A fallible computation is an `Except`. To reason about one that succeeded, peel its binds apart:
`bind_eq_ok` names the intermediate result, so no proof unfolds the monad.
-/

namespace Machine

open List

universe u v

variable {ε : Type u} {α β : Type v} {e : ε} {f : α → Except ε β} {b : β}

theorem bind_eq_ok {x : Except ε α} : x >>= f = .ok b ↔ ∃ a, x = .ok a ∧ f a = .ok b := by
  cases x with
  | error | ok => simp [bind, Except.bind]

/-- A check that throws, and what comes after it. -/
theorem unless_throw_eq_ok {c : Prop} [Decidable c] {f : PUnit → Except ε β} :
    (if c then throw e >>= f else f ⟨⟩) = .ok b ↔ ¬c ∧ f ⟨⟩ = .ok b := by
  by_cases hc : c
  · rw [if_pos hc]
    exact ⟨nofun, fun h ↦ absurd hc h.1⟩
  · rw [if_neg hc]
    exact ⟨fun h ↦ ⟨hc, h⟩, fun h ↦ h.2⟩

/-! ## Lists -/

section Select

variable {γ : Type}

/-- The elements for which a test says yes. -/
def selectM (test : γ → Except ε Bool) : List γ → Except ε (List γ)
  | [] => return []
  | x :: xs => do
    let selected ← test x
    let rest ← selectM test xs
    return if selected then x :: rest else rest

theorem subset_of_selectM {test : γ → Except ε Bool} {xs ys : List γ}
    (h : selectM test xs = .ok ys) : ys ⊆ xs := by
  induction xs generalizing ys with
  | nil =>
    obtain ⟨⟩ := h
    exact List.Subset.refl _
  | cons x xs ih =>
    obtain ⟨selected, -, htail⟩ := bind_eq_ok.mp h
    obtain ⟨rest, hrest, ⟨⟩⟩ := bind_eq_ok.mp htail
    split
    · exact cons_subset_cons x (ih hrest)
    · exact subset_cons_of_subset x (ih hrest)

end Select

variable {xs : List α} {ys : List β}

theorem exists_of_mem_mapM {y : β}
    (h : xs.mapM f = .ok ys) (hy : y ∈ ys) : ∃ x ∈ xs, f x = .ok y := by
  induction xs generalizing ys with
  | nil =>
    obtain ⟨⟩ := h
    exact absurd hy not_mem_nil
  | cons x xs ih =>
    rw [mapM_cons] at h
    obtain ⟨first, hfirst, htail⟩ := bind_eq_ok.mp h
    obtain ⟨rest, hrest, ⟨⟩⟩ := bind_eq_ok.mp htail
    rcases mem_cons.mp hy with rfl | hmem
    · exact ⟨x, mem_cons_self, hfirst⟩
    · obtain ⟨x', hx', hfx'⟩ := ih hrest hmem
      exact ⟨x', mem_cons_of_mem x hx', hfx'⟩

theorem exists_mem_of_mapM {x : α}
    (h : xs.mapM f = .ok ys) (hx : x ∈ xs) : ∃ y ∈ ys, f x = .ok y := by
  induction xs generalizing ys with
  | nil => exact absurd hx not_mem_nil
  | cons first xs ih =>
    rw [mapM_cons] at h
    obtain ⟨y, hy, htail⟩ := bind_eq_ok.mp h
    obtain ⟨rest, hrest, ⟨⟩⟩ := bind_eq_ok.mp htail
    rcases mem_cons.mp hx with rfl | hmem
    · exact ⟨y, mem_cons_self, hy⟩
    · obtain ⟨z, hz, hfz⟩ := ih hrest hmem
      exact ⟨z, mem_cons_of_mem y hz, hfz⟩

end Machine
