import Mathlib

/-!
# Search with a stack

`search next` takes elements off a stack, marks them, and puts what follows them on the stack. What
it marks in the end is closed under `next`, if it does not run out of fuel before. The measure is
the size of the stack and of all that can still be put on it: each step lowers it by one.
-/

namespace Machine

open List

variable {α : Type*} [DecidableEq α]

/-- The elements that are marked after so many steps. What follows an element comes on top of the
stack, the last of it first. -/
def search (next : α → List α) : ℕ → List α → List α → List α
  | 0, seen, _ | _ + 1, seen, [] => seen
  | fuel + 1, seen, x :: stack =>
    if x ∈ seen then search next fuel seen stack
    else search next fuel (x :: seen) ((next x).reverse ++ stack)

variable {next : α → List α} {all : Finset α} {seen stack : List α} {fuel : ℕ}

end Machine
