import Gocracker.Vmm.Patch

/-!
# Sparse snapshots

A snapshot of a VM whose RAM was logged from the start needs only the dirty pages: the file is as
long as RAM, and a page that was never written is a hole, which reads as zeros. RAM is filled by the
host as well, which is not logged, so the bitmap is augmented by every page with a byte other than
zero. The dirty pages are written in runs, and a run may go on from one word of the bitmap to the
next. All calls of the host are taken to succeed.
-/

namespace Gocracker

open Machine List Nat

/-- Eight bytes at a time, as an integer; then the rest. -/
def isAllZero : List Byte → Bool
  | a :: b :: c :: d :: e :: f :: g :: h :: buf =>
    if getLE [a, b, c, d, e, f, g, h] ≠ 0 then false else isAllZero buf
  | buf => buf.all (· = 0)

/-- RAM, its pages, and a bit for each of them. -/
structure LoggedRam where
  pageSize : ℕ
  pos : 0 < pageSize
  mem : List Byte
  bitmap : List (BitVec 64)

/-- The file, and the first page and the number of pages of the run that is not written yet. -/
structure SaveState where
  file : List Byte
  run : Option (ℕ × ℕ)

namespace LoggedRam

variable (c : LoggedRam)

def augmentPage (bitmap : List (BitVec 64)) (page : ℕ) : List (BitVec 64) :=
  if testPage bitmap page then bitmap
  else if isAllZero (slice c.mem (page * c.pageSize) c.pageSize) then bitmap
  else setPage bitmap page

/-- The loop is left at the first page without a word. -/
def augmentDirtyBitmap : LoggedRam where
  __ := c
  bitmap := (List.range (min (pageCount c.mem.length c.pageSize) (c.bitmap.length * 64))).foldl
    c.augmentPage c.bitmap

def flush (s : SaveState) : SaveState :=
  match s.run with
  | none => s
  | some (start, n) => ⟨extendAt 0 s.file (start * c.pageSize)
      (slice c.mem (start * c.pageSize) (n * c.pageSize)), none⟩

def saveBits (wi : ℕ) (word : BitVec 64) : List ℕ → SaveState → SaveState
  | [], s => s
  | bit :: bits, s =>
    let page := wi * 64 + bit
    if c.mem.length ≤ page * c.pageSize then s
    else if word.getLsbD bit then
      let (start, n) := s.run.getD (page, 0)
      saveBits wi word bits { s with run := some (start, n + 1) }
    else saveBits wi word bits (c.flush s)

/-- The outer loop, over the words of the bitmap from index `wi` on. -/
def saveWords : ℕ → List (BitVec 64) → SaveState → SaveState
  | _, [], s => c.flush s
  | wi, word :: words, s =>
    saveWords (wi + 1) words (if word = 0 then c.flush s else c.saveBits wi word (List.range 64) s)

def saveDirtyPages : List Byte :=
  (c.saveWords 0 c.bitmap ⟨List.replicate c.mem.length 0, none⟩).file

/-- The whole of RAM is copied into the mapping of a file of its size. -/
def saveMemAsync : List Byte :=
  if c.mem.length = 0 then [] else writeAt (List.replicate c.mem.length 0) 0 c.mem

/-! ## The bitmap -/

theorem isAllZero_iff (buf : List Byte) : isAllZero buf = true ↔ ∀ x ∈ buf, x = 0 := by
  fun_induction isAllZero buf with
  | case1 a b c d e f g h buf hne =>
    refine iff_of_false Bool.false_ne_true fun hzero ↦ hne ?_
    simp only [forall_mem_cons] at hzero
    simp [getLE, hzero]
  | case2 a b c d e f g h buf heq ih =>
    simp only [getLE, ne_eq, not_not, Nat.add_eq_zero_iff, Nat.mul_eq_zero, OfNat.ofNat_ne_zero,
      false_or] at heq
    simp only [ih, forall_mem_cons, ← BitVec.toNat_inj]
    tauto
  | case3 buf => simp

variable {c} {s : SaveState} {p p' : ℕ}

theorem isAllZero_of_augment {n : ℕ} (hn : n ≤ c.bitmap.length * 64) :
    ((List.range n).foldl c.augmentPage c.bitmap).length = c.bitmap.length ∧
      ∀ p < n, testPage ((List.range n).foldl c.augmentPage c.bitmap) p = false →
        isAllZero (slice c.mem (p * c.pageSize) c.pageSize) = true := by
  induction n with
  | zero => exact ⟨rfl, nofun⟩
  | succ n ih =>
    obtain ⟨hlen, hzero⟩ := ih (by omega)
    rw [range_succ, foldl_append, foldl_cons, foldl_nil]
    generalize (List.range n).foldl c.augmentPage c.bitmap = b at hlen hzero ⊢
    rw [augmentPage]
    split_ifs with hset hall
    · exact ⟨hlen, by grind⟩
    · exact ⟨hlen, by grind⟩
    · refine ⟨(length_setPage b n).trans hlen, fun p hp hclean ↦ ?_⟩
      rw [testPage_setPage (by omega)] at hclean
      grind

/-- **A page that stays clean is zero.** -/
theorem eq_zero_of_augment (hlen : c.bitmap.length = wordCount c.mem.length c.pageSize) {i : ℕ}
    (hi : i < c.mem.length)
    (hclean : testPage c.augmentDirtyBitmap.bitmap (i / c.pageSize) = false) :
    c.mem[i]? = some 0 := by
  have hpage : i / c.pageSize < min (pageCount c.mem.length c.pageSize) (c.bitmap.length * 64) := by
    have hword := page_lt_of_lt c.pos hi
    have hcount := div_lt_pageCount c.pos hi
    omega
  have hzero := (isAllZero_of_augment (min_le_right _ _)).2 (i / c.pageSize) hpage hclean
  have hget : (slice c.mem (i / c.pageSize * c.pageSize) c.pageSize)[i % c.pageSize]? =
      c.mem[i]? := by
    rw [getElem?_slice (mod_lt i c.pos), div_add_mod']
  rw [getElem?_eq_getElem hi] at hget ⊢
  exact congrArg some ((isAllZero_iff _).mp hzero _ (mem_of_getElem? hget))

/-! ## The file -/

/-- RAM with zeros in place of the clean pages, and of all pages from `p` on. -/
def written (c : LoggedRam) (p : ℕ) : List Byte :=
  c.mem.mapIdx fun i x ↦
    if i / c.pageSize < p ∧ testPage c.bitmap (i / c.pageSize) = true then x else 0

/-- **The loop invariant**, before page `p` is looked at: the file has the dirty pages before the
run, and the run has those from there to `p`. -/
structure Saving (c : LoggedRam) (p : ℕ) (s : SaveState) : Prop where
  none : s.run = none → s.file = c.written p
  run : ∀ start n, s.run = some (start, n) → s.file = c.written start ∧
    start * c.pageSize < c.mem.length ∧
      (∀ q, start ≤ q → q < start + n → testPage c.bitmap q = true) ∧
    c.written (start + n) = c.written p ∧ (p * c.pageSize < c.mem.length → start + n = p)

theorem written_eq (hclean : ∀ i < c.mem.length, i / c.pageSize ∈ Set.Ico p p' →
      testPage c.bitmap (i / c.pageSize) = false) (hle : p ≤ p') : c.written p = c.written p' := by
  refine mapIdx_eq_mapIdx_iff.mpr fun i hi ↦ ?_
  have := hclean i hi
  grind

theorem written_eq_mem (hp : c.bitmap.length * 64 ≤ p) (hzero : ∀ i < c.mem.length,
      testPage c.bitmap (i / c.pageSize) = false → c.mem[i]? = some 0) : c.written p = c.mem := by
  refine mapIdx_eq_iff.mpr fun i ↦ ?_
  rcases lt_or_ge i c.mem.length with hi | hi
  · have hclean := hzero i hi
    have hdirty := @lt_of_testPage c.bitmap (i / c.pageSize)
    grind
  · rw [getElem?_eq_none hi, Option.map_none]

theorem extendAt_written {start n : ℕ} (hstart : start * c.pageSize < c.mem.length)
    (hdirty : ∀ q, start ≤ q → q < start + n → testPage c.bitmap q = true) :
    extendAt 0 (c.written start) (start * c.pageSize)
      (slice c.mem (start * c.pageSize) (n * c.pageSize)) = c.written (start + n) := by
  have hlen := length_slice c.mem (start * c.pageSize) (n * c.pageSize)
  have hold : (c.written start).length = c.mem.length := length_mapIdx
  rw [extendAt_of_le (by omega), writeAt, written, mapIdx_mapIdx]
  refine mapIdx_eq_mapIdx_iff.mpr fun i hi ↦ ?_
  have hle : start ≤ i / c.pageSize ↔ start * c.pageSize ≤ i := le_div_iff_mul_le c.pos
  have hlt : i / c.pageSize < start + n ↔ i < start * c.pageSize + n * c.pageSize := by
    rw [div_lt_iff_lt_mul c.pos, add_mul]
  by_cases hin : start * c.pageSize ≤ i ∧ i < start * c.pageSize + n * c.pageSize
  · have hget : (slice c.mem (start * c.pageSize) (n * c.pageSize))[i - start * c.pageSize]? =
        some c.mem[i] := by
      rw [getElem?_slice (by omega), Nat.add_sub_cancel' hin.1, getElem?_eq_getElem hi]
    grind
  · grind

theorem Saving.of_none (h : s.run = .none ∧ s.file = c.written p) : c.Saving p s :=
  ⟨fun _ ↦ h.2, fun _ _ hrun ↦ nomatch h.1.symm.trans hrun⟩

theorem Saving.flush (h : c.Saving p s) (hsame : c.written p = c.written p') :
    (c.flush s).run = .none ∧ (c.flush s).file = c.written p' := by
  rw [LoggedRam.flush]
  split
  · rename_i hnone
    exact ⟨hnone, (h.none hnone).trans hsame⟩
  · rename_i start n hrun
    obtain ⟨hfile, hstart, hdirty, hend, -⟩ := h.run start n hrun
    refine ⟨rfl, ?_⟩
    rw [hfile, extendAt_written hstart hdirty, hend, hsame]

theorem Saving.grow (h : c.Saving p s) (hdirty : testPage c.bitmap p = true)
    (hin : p * c.pageSize < c.mem.length) : c.Saving (p + 1)
      { s with run := some ((s.run.getD (p, 0)).1, (s.run.getD (p, 0)).2 + 1) } := by
  obtain ⟨start, n, hrun, hfile, hstart, hrest, rfl⟩ : ∃ start n, s.run.getD (p, 0) = (start, n) ∧
      s.file = c.written start ∧ start * c.pageSize < c.mem.length ∧
      (∀ q, start ≤ q → q < start + n → testPage c.bitmap q = true) ∧ start + n = p := by
    cases hrun : s.run with
    | none => exact ⟨p, 0, rfl, h.none hrun, hin, fun q hle hlt ↦ by omega, rfl⟩
    | some r =>
      obtain ⟨hfile, hstart, hrest, -, hend⟩ := h.run r.1 r.2 hrun
      exact ⟨r.1, r.2, rfl, hfile, hstart, hrest, hend hin⟩
  rw [hrun]
  refine ⟨nofun, ?_⟩
  rintro _ _ ⟨⟩
  refine ⟨hfile, hstart, fun q hle hlt ↦ ?_, rfl, fun _ ↦ rfl⟩
  rcases Nat.lt_succ_iff_lt_or_eq.mp hlt with hlt | rfl
  · exact hrest q hle hlt
  · exact hdirty

/-- Behind the end of RAM nothing is left to write. -/
theorem Saving.beyond (h : c.Saving p s) (hout : c.mem.length ≤ p * c.pageSize) (hle : p ≤ p') :
    c.Saving p' s := by
  have hsame : c.written p = c.written p' := by
    refine written_eq (fun i hi hp ↦ ?_) hle
    have := (le_div_iff_mul_le c.pos).mp hp.1
    omega
  have hmul := mul_le_mul_right c.pageSize hle
  refine ⟨fun hnone ↦ (h.none hnone).trans hsame, fun start n hrun ↦ ?_⟩
  obtain ⟨hfile, hstart, hdirty, hend, -⟩ := h.run start n hrun
  exact ⟨hfile, hstart, hdirty, hend.trans hsame, fun hin ↦ by omega⟩

/-- **The inner loop**: the bits from `bit` on. -/
theorem Saving.saveBits {wi : ℕ} {word : BitVec 64} (hword : c.bitmap[wi]? = some word) {n bit : ℕ}
    (hn : bit + n = 64) (h : c.Saving (wi * 64 + bit) s) :
    c.Saving ((wi + 1) * 64) (c.saveBits wi word (List.range' bit n) s) := by
  induction n generalizing bit s with
  | zero =>
    obtain rfl : bit = 64 := hn
    rwa [succ_mul]
  | succ n ih =>
    have hbit := getLsbD_eq_testPage (show bit < 64 by omega) hword
    rw [range'_succ, LoggedRam.saveBits]
    split_ifs with hout hset
    · exact h.beyond hout (by omega)
    · exact ih (by omega) (h.grow (hbit.symm.trans hset) (by omega))
    · refine ih (by omega) (.of_none (h.flush (written_eq (fun i _ hpage ↦ ?_) (le_succ _))))
      rw [show i / c.pageSize = wi * 64 + bit by grind, ← hbit]
      exact Bool.eq_false_of_not_eq_true hset

/-- **The outer loop**: the words from `wi` on. -/
theorem Saving.saveWords {wi : ℕ} {words : List (BitVec 64)} (hwords : c.bitmap.drop wi = words)
    (h : c.Saving (wi * 64) s) : ∃ p, c.bitmap.length * 64 ≤ p ∧
      (c.saveWords wi words s).file = c.written p := by
  induction words generalizing wi s with
  | nil =>
    have hle := drop_eq_nil_iff.mp hwords
    exact ⟨wi * 64, by omega, (h.flush rfl).2⟩
  | cons word words ih =>
    obtain ⟨hword, hrest⟩ := getElem?_of_drop hwords
    rw [LoggedRam.saveWords]
    refine ih hrest ?_
    split_ifs with hzero
    · refine .of_none (h.flush (written_eq (fun i _ hpage ↦ ?_) (by omega)))
      have hbit := getLsbD_eq_testPage (show i / c.pageSize - wi * 64 < 64 by grind) hword
      rw [Nat.add_sub_cancel' hpage.1, hzero] at hbit
      exact hbit.symm.trans BitVec.getLsbD_zero
    · rw [range_eq_range']
      exact h.saveBits hword (zero_add 64)

/-- **A sparse snapshot is a full one.** -/
theorem saveDirtyPages_eq (hlen : c.bitmap.length = wordCount c.mem.length c.pageSize) :
    c.augmentDirtyBitmap.saveDirtyPages = c.mem ∧ c.saveMemAsync = c.mem := by
  constructor
  · have hinit : c.augmentDirtyBitmap.Saving (0 * 64) ⟨List.replicate c.mem.length 0, none⟩ :=
      .of_none ⟨rfl, (mapIdx_eq_replicate_iff.mpr fun i hi ↦ if_neg fun h ↦ not_lt_zero _ h.1).symm⟩
    obtain ⟨p, hp, hfile⟩ := hinit.saveWords drop_zero
    exact hfile.trans (written_eq_mem hp fun i hi ↦ eq_zero_of_augment hlen hi)
  · rw [saveMemAsync]
    split_ifs with hzero
    · exact (eq_nil_of_length_eq_zero hzero).symm
    · exact writeAt_of_length_eq length_replicate.symm

end LoggedRam

/-- Five bytes in pages of two, the last of them cut short. A clean page was filled by the host. -/
theorem saveDirtyPages_filled : (LoggedRam.augmentDirtyBitmap
    ⟨2, two_pos, [1, 0, 0, 0, 7], [1]⟩).saveDirtyPages = [1, 0, 0, 0, 7] :=
  (LoggedRam.saveDirtyPages_eq rfl).1

end Gocracker
