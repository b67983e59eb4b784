import Mathlib

/-!
# Readers

A stream arrives in pieces, of which each read takes at most one, and some may be empty. The read
that takes the last piece may report the end of the stream along with it, or leave that to the next
read.

`readFull` reads until it has as much as it wants, as `io.ReadFull` does. What it returns depends on
the stream and not on the pieces (`readFull_eq`).
-/

namespace Machine

open List

variable {α : Type*}

inductive ReadError where
  /-- The stream had already ended. -/
  | eof
  /-- The stream has ended too early. -/
  | unexpectedEof
  deriving DecidableEq

/-- A stream in pieces, and whether its end is reported along with the last one. -/
structure Reader (α : Type*) where
  pieces : List (List α)
  early : Bool

def Reader.stream (r : Reader α) : List α := r.pieces.flatten

/-- The error at the end of the stream, after some of it was read. -/
def endError (got : ℕ) : ReadError := if got = 0 then .eof else .unexpectedEof

/-- The loop of `readFull`: what it has, how much it still wants, and the pieces to come. -/
def fill (early : Bool) : List α → ℕ → List (List α) → Except ReadError (List α) × List (List α)
  | got, 0, pieces => (.ok got, pieces)
  | got, _ + 1, [] => (.error (endError got.length), [])
  | got, need + 1, piece :: rest =>
    if need + 1 < piece.length then
      (.ok (got ++ piece.take (need + 1)), piece.drop (need + 1) :: rest)
    else if early ∧ rest = [] ∧ piece.length < need + 1 then
      (.error (endError (got ++ piece).length), [])
    else fill early (got ++ piece) (need + 1 - piece.length) rest

def readFull (n : ℕ) (r : Reader α) : Except ReadError (List α) × Reader α :=
  ((fill r.early [] n r.pieces).1, ⟨(fill r.early [] n r.pieces).2, r.early⟩)

theorem fill_eq (early : Bool) (got : List α) (need : ℕ) (pieces : List (List α)) :
    (fill early got need pieces).1 =
        (if need ≤ pieces.flatten.length then .ok (got ++ pieces.flatten.take need)
          else .error (endError (got ++ pieces.flatten).length)) ∧
      (fill early got need pieces).2.flatten = pieces.flatten.drop need := by
  induction pieces generalizing got need with
  | nil =>
    cases need with
    | zero => exact ⟨by rw [fill]; simp, rfl⟩
    | succ need => exact ⟨by rw [fill]; simp, rfl⟩
  | cons piece rest ih =>
    cases need with
    | zero => exact ⟨by rw [fill]; simp, rfl⟩
    | succ need =>
      have hlength : (piece ++ rest.flatten).length = piece.length + rest.flatten.length :=
        length_append
      rw [fill, flatten_cons]
      by_cases hlong : need + 1 < piece.length
      · -- the piece is enough
        have hle : need + 1 ≤ piece.length := Nat.le_of_lt hlong
        rw [if_pos hlong, if_pos (by omega), take_append_of_le_length hle,
          drop_append_of_le_length hle]
        exact ⟨rfl, rfl⟩
      rw [if_neg hlong]
      by_cases hend : early ∧ rest = [] ∧ piece.length < need + 1
      · rw [if_pos hend, hend.2.1, flatten_nil, append_nil,
          if_neg (Nat.not_le.mpr hend.2.2), drop_eq_nil_of_le (Nat.le_of_lt hend.2.2)]
        exact ⟨rfl, rfl⟩
      rw [if_neg hend]
      obtain ⟨hresult, hrest⟩ := ih (got ++ piece) (need + 1 - piece.length)
      have htake : (piece ++ rest.flatten).take (need + 1) =
          piece ++ rest.flatten.take (need + 1 - piece.length) := by
        rw [take_append, take_of_length_le (Nat.le_of_not_lt hlong)]
      have hdrop : (piece ++ rest.flatten).drop (need + 1) =
          rest.flatten.drop (need + 1 - piece.length) := by
        rw [drop_append, drop_of_length_le (Nat.le_of_not_lt hlong), nil_append]
      have hiff : need + 1 - piece.length ≤ rest.flatten.length ↔
          need + 1 ≤ (piece ++ rest.flatten).length := by omega
      refine ⟨?_, hrest.trans hdrop.symm⟩
      rw [hresult, htake]
      simp only [hiff, append_assoc]

/-- **What is read does not depend on the pieces.** -/
theorem readFull_eq (n : ℕ) (r : Reader α) : (readFull n r).1 =
        (if n ≤ r.stream.length then .ok (r.stream.take n)
          else .error (endError r.stream.length)) ∧
      (readFull n r).2.stream = r.stream.drop n := by
  have h := fill_eq r.early [] n r.pieces
  rwa [nil_append, nil_append] at h

end Machine
