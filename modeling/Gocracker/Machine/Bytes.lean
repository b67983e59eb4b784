import Mathlib

/-!
# Flat buffers

A buffer is a list of cells. The one update is `writeAt`, which stores a list of cells from an
offset on and clips what does not fit: the buffer never changes its length, exactly as copying
into a slice does. Every statement about buffers below is pointwise, through `getElem?`, so two
buffers are compared cell by cell and never by how they were assembled.

`slice` is the read of the same shape, and `extendAt` is the write to a *file*, which grows the
buffer (with a filler) when the write ends behind it.
-/

namespace Machine

open List

variable {α : Type*}

/-- What no step changes, a fold does not change. -/
theorem foldl_keeps {β γ : Type*} {f : β → α → β} {g : β → γ} (h : ∀ b a, g (f b a) = g b)
    (l : List α) (b : β) : g (l.foldl f b) = g b := by
  induction l generalizing b with
  | nil => rfl
  | cons a l ih => rw [foldl_cons, ih, h]

variable (dst : List α) (off : ℕ) (src : List α)

/-- Store `src` at offset `off`, clipped to the length of `dst`. -/
def writeAt : List α :=
  dst.mapIdx fun i x ↦ if off ≤ i then (src[i - off]?).getD x else x

/-- The `len` cells from offset `off` on, fewer at the end of the buffer. -/
def slice (src : List α) (off len : ℕ) : List α := (src.drop off).take len

/-- Store `src` at offset `off` of a file, which grows as needed. -/
def extendAt [DecidableEq α] (fill : α) (dst : List α) (off : ℕ) (src : List α) : List α :=
  if src = [] then dst
  else writeAt (dst ++ List.replicate (off + src.length - dst.length) fill) off src

@[simp] theorem length_writeAt : (writeAt dst off src).length = dst.length := by
  rw [writeAt, length_mapIdx]

theorem getElem?_writeAt (i : ℕ) : (writeAt dst off src)[i]? =
      dst[i]?.map fun x ↦ if off ≤ i then (src[i - off]?).getD x else x := by
  rw [writeAt, getElem?_mapIdx]

variable {dst src : List α} {off i : ℕ}

theorem getElem?_writeAt_of_lt (h : i < off) : (writeAt dst off src)[i]? = dst[i]? := by
  rw [getElem?_writeAt]
  simp [Nat.not_le.mpr h]

theorem getElem?_writeAt_of_ge (h : off + src.length ≤ i) :
    (writeAt dst off src)[i]? = dst[i]? := by
  have hnone : src[i - off]? = none := by rw [List.getElem?_eq_none_iff]; omega
  rw [getElem?_writeAt]
  simp [hnone]

theorem getElem?_writeAt_of_mem (hi : i < dst.length)
    (h : off ≤ i) (h' : i < off + src.length) : (writeAt dst off src)[i]? = src[i - off]? := by
  have hlt : i - off < src.length := by omega
  rw [getElem?_writeAt, getElem?_eq_getElem hi, getElem?_eq_getElem hlt]
  simp [h]

theorem getElem?_writeAt_of_not_mem
    (h : ¬(off ≤ i ∧ i < off + src.length)) : (writeAt dst off src)[i]? = dst[i]? := by
  rcases Nat.lt_or_ge i off with hlt | hge
  · exact getElem?_writeAt_of_lt hlt
  · exact getElem?_writeAt_of_ge (by omega)

@[simp] theorem writeAt_nil (dst : List α) (off : ℕ) : writeAt dst off [] = dst := by
  refine ext_getElem? fun i ↦ ?_
  rw [getElem?_writeAt_of_not_mem (by simp)]

theorem writeAt_of_length_eq (h : src.length = dst.length) : writeAt dst 0 src = src := by
  refine ext_getElem? fun i ↦ ?_
  rcases Nat.lt_or_ge i dst.length with hlt | hge
  · rw [getElem?_writeAt_of_mem hlt (Nat.zero_le i) (by omega), Nat.sub_zero]
  · rw [getElem?_eq_none (by rw [length_writeAt]; exact hge), getElem?_eq_none (by omega)]

/-- A write into two buffers that lie behind each other: the second takes what is left of it. -/
theorem writeAt_append (as bs : List α) (off : ℕ) (src : List α) : writeAt (as ++ bs) off src =
      writeAt as off src ++ writeAt bs (off - as.length) (src.drop (as.length - off)) := by
  rw [writeAt, mapIdx_append]
  refine congrArg₂ _ rfl (congrArg (mapIdx · bs) ?_)
  funext i x
  rw [getElem?_drop, show as.length - off + (i - (off - as.length)) = i + as.length - off by omega]
  exact if_congr Nat.sub_le_iff_le_add.symm rfl rfl

theorem extendAt_of_le [DecidableEq α] {fill : α}
    (h : off + src.length ≤ dst.length) : extendAt fill dst off src = writeAt dst off src := by
  rw [extendAt]
  split_ifs with hnil
  · rw [hnil, writeAt_nil]
  · rw [Nat.sub_eq_zero_of_le h, replicate_zero, append_nil]

theorem getElem?_of_drop {a : α} {l rest : List α} (h : l.drop i = a :: rest) :
    l[i]? = some a ∧ l.drop (i + 1) = rest := by
  rw [← head?_drop, ← tail_drop, h]
  exact ⟨rfl, rfl⟩

theorem length_slice (src : List α) (off len : ℕ) :
    (slice src off len).length = min len (src.length - off) := by
  rw [slice, length_take, length_drop]

theorem getElem?_slice {len : ℕ} (h : i < len) : (slice src off len)[i]? = src[off + i]? := by
  rw [slice, getElem?_take_of_lt h, getElem?_drop]

theorem slice_add (src : List α) (off n m : ℕ) :
    slice src off (n + m) = slice src off n ++ slice src (off + n) m := by
  rw [slice, slice, slice, take_add, drop_drop]

theorem slice_append_left {as bs : List α} {n : ℕ} (h : off + n ≤ as.length) :
    slice (as ++ bs) off n = slice as off n := by
  rw [slice, slice, drop_append_of_le_length (by omega),
    take_append_of_le_length (by rw [length_drop]; omega)]

theorem slice_of_isPrefix {as bs : List α} (h : as <+: bs) {n : ℕ} (hle : off + n ≤ as.length) :
    slice bs off n = slice as off n := by
  obtain ⟨cs, rfl⟩ := h
  exact slice_append_left hle

theorem slice_append_right (as bs : List α) (n : ℕ) :
    slice (as ++ bs) as.length n = slice bs 0 n := by
  rw [slice, slice, drop_left, drop_zero]

end Machine
