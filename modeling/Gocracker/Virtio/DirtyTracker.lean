import Gocracker.Machine.Bitmap

/-!
# The dirty tracker

`DirtyTracker` records the host-side writes to a buffer (guest RAM, or a disk image) that KVM's own
dirty log does not see. It is sized for the buffer when it is created; its bitmap has one bit for
each page, and that length is a field of the structure, so that no call of `mark` can index behind
the bitmap.

`mark` takes 64-bit arguments and clips at the buffer's size, also when the sum of its arguments
wraps. `isMarked_mark_iff` says exactly which pages a call adds: those that hold an offset in the
marked range *and* inside the buffer. Whether that range is the one that was written is the
caller's business.
-/

namespace Gocracker

open Machine

/-- The pages of a buffer written by the host since the last reset. -/
structure DirtyTracker where
  /-- The size of the tracked buffer, the length of a slice or of a file. -/
  memSize : ℕ
  pageSize : ℕ+
  bits : List (BitVec 64)
  memSize_lt : memSize < 2 ^ 63
  length_bits : bits.length = wordCount memSize pageSize

/-- A tracker with no page marked, for a buffer of `memSize` bytes. -/
def newDirtyTracker (pageSize : ℕ+) (memSize : ℕ) (h : memSize < 2 ^ 63) : DirtyTracker where
  memSize := memSize
  pageSize := pageSize
  bits := List.replicate (wordCount memSize pageSize) 0
  memSize_lt := h
  length_bits := List.length_replicate

namespace DirtyTracker

variable (d : DirtyTracker)

def isMarked (page : ℕ) : Bool := testPage d.bits page

variable (addr length : BitVec 64)

/-- The end of a marked range: clipped to the buffer, also when the sum wraps. -/
def markEnd : ℕ :=
  if addr + length < addr ∨ d.memSize < (addr + length).toNat then d.memSize
  else (addr + length).toNat

/-- Mark every page of the range from `addr` on. -/
def mark : DirtyTracker :=
  if length = 0 ∨ d.memSize ≤ addr.toNat then d
  else
    let startPage := addr.toNat / d.pageSize
    let endPage := (d.markEnd addr length - 1) / d.pageSize
    { d with
      bits := setPages d.bits startPage (endPage + 1 - startPage)
      length_bits := by rw [length_setPages, d.length_bits] }

/-- Clear every mark. -/
def reset : DirtyTracker :=
  { d with bits := clearPages d.bits, length_bits := by rw [length_clearPages, d.length_bits] }

/-- Is no page marked? -/
def isClean : Bool := d.bits.all (· == 0)

/-- Read the marks and clear them. -/
def snapshotAndReset : List (BitVec 64) × DirtyTracker := (d.bits, d.reset)

@[simp] theorem memSize_mark : (d.mark addr length).memSize = d.memSize := by
  rw [mark]; split <;> rfl

@[simp] theorem pageSize_mark : (d.mark addr length).pageSize = d.pageSize := by
  rw [mark]; split <;> rfl

variable {d}

theorem isMarked_of_isClean (h : d.isClean = true) (page : ℕ) : d.isMarked page = false := by
  have hzero : ∀ w ∈ d.bits, w = 0 := fun w hw ↦ eq_of_beq (List.all_eq_true.mp h w hw)
  rw [isMarked, List.eq_replicate_of_mem hzero]
  exact testPage_replicate _ _

theorem markEnd_eq_min {addr length : BitVec 64} (h : addr.toNat < d.memSize) :
    d.markEnd addr length = min (addr.toNat + length.toNat) d.memSize := by
  have hlt := d.memSize_lt
  simp only [markEnd, BitVec.lt_def, BitVec.toNat_add]
  split <;> omega

/-- **What one call marks.** A page is marked afterwards when it was marked before or holds an
offset of the range that lies inside the buffer. -/
theorem isMarked_mark_iff {addr length : BitVec 64} {page : ℕ} :
    (d.mark addr length).isMarked page = true ↔ d.isMarked page = true ∨
      ∃ o, addr.toNat ≤ o ∧ o < addr.toNat + length.toNat ∧ o < d.memSize ∧
        o / d.pageSize = page := by
  rw [mark]
  split_ifs with h
  · refine ⟨.inl, ?_⟩
    rintro (hp | ⟨o, ho, hlen, hsize, -⟩)
    · exact hp
    · rcases h with rfl | h
      · simp at hlen; omega
      · omega
  · rw [not_or, not_le] at h
    obtain ⟨hlen, hsize⟩ := h
    have hpos : 0 < length.toNat := by
      rw [Nat.pos_iff_ne_zero]
      exact fun h0 ↦ hlen (BitVec.eq_of_toNat_eq h0)
    have hend : d.markEnd addr length = min (addr.toNat + length.toNat) d.memSize :=
      markEnd_eq_min hsize
    have hps : 0 < (d.pageSize : ℕ) := d.pageSize.pos
    -- Every page of the range holds a byte of the buffer, so its word exists.
    have hrange : ∀ i < (d.markEnd addr length - 1) / d.pageSize + 1 - addr.toNat / d.pageSize,
        (addr.toNat / d.pageSize + i) / 64 < d.bits.length := by
      intro i hi
      have hle : addr.toNat / d.pageSize + i ≤ (d.markEnd addr length - 1) / d.pageSize := by omega
      rw [d.length_bits]
      exact lt_of_le_of_lt (Nat.div_le_div_right hle)
        (page_lt_of_lt hps (show d.markEnd addr length - 1 < d.memSize by omega))
    rw [isMarked, testPage_setPages hrange, Bool.or_eq_true, decide_eq_true_iff]
    refine or_congr Iff.rfl ?_
    constructor
    · rintro ⟨hlo, hhi⟩
      have hhi' : page ≤ (d.markEnd addr length - 1) / d.pageSize := by omega
      -- The first offset of the page, or the start of the range when that comes later.
      refine ⟨max addr.toNat (page * d.pageSize), le_max_left _ _, ?_, ?_, ?_⟩
      · have := (Nat.le_div_iff_mul_le hps).mp hhi'
        omega
      · have := (Nat.le_div_iff_mul_le hps).mp hhi'
        omega
      rcases le_total addr.toNat (page * d.pageSize) with hc | hc
      · rw [max_eq_right hc, Nat.mul_div_cancel _ hps]
      · rw [max_eq_left hc]
        refine le_antisymm hlo ((Nat.le_div_iff_mul_le hps).mpr hc)
    · rintro ⟨o, ho, holen, hosize, rfl⟩
      have h1 : addr.toNat / d.pageSize ≤ o / d.pageSize := Nat.div_le_div_right ho
      have h2 : o / d.pageSize ≤ (d.markEnd addr length - 1) / d.pageSize :=
        Nat.div_le_div_right (by omega)
      omega

end DirtyTracker

end Gocracker
