import Mathlib

/-!
# Page bitmaps

One bit a page, packed into 64-bit words, least significant bit first. A page whose word is behind
the end of the bitmap reads as unset; marking such a page is an index error in the code that uses
these bitmaps, so the marking lemmas ask for a bitmap that is long enough.

`wordCount` is the number of words for a buffer of a given size, and `page_lt_of_lt` is the one
fact that keeps every mark in range: a page holding a byte of the buffer has a word.
-/

namespace Machine

open List Option BitVec

def testPage (bits : List (BitVec 64)) (page : ℕ) : Bool :=
  (bits.getD (page / 64) 0).getLsbD (page % 64)

def setPage (bits : List (BitVec 64)) (page : ℕ) : List (BitVec 64) :=
  bits.modify (page / 64) fun w ↦ w ||| 1#64 <<< (page % 64)

def setPages (bits : List (BitVec 64)) (start count : ℕ) : List (BitVec 64) :=
  (List.range count).foldl (fun b i ↦ setPage b (start + i)) bits

/-- All bits cleared. -/
def clearPages (bits : List (BitVec 64)) : List (BitVec 64) := List.replicate bits.length 0

/-- The bitwise union, as long as the longer of the two. -/
def mergePages (a b : List (BitVec 64)) : List (BitVec 64) :=
  (List.range (max a.length b.length)).map fun i ↦ a.getD i 0 ||| b.getD i 0

/-- The number of pages a buffer of `size` bytes touches. -/
def pageCount (size pageSize : ℕ) : ℕ := (size + pageSize - 1) / pageSize

/-- The number of words that hold one bit for each page of a buffer of `size` bytes. -/
def wordCount (size pageSize : ℕ) : ℕ := (pageCount size pageSize + 63) / 64

@[simp] theorem length_setPage (bits : List (BitVec 64)) (page : ℕ) :
    (setPage bits page).length = bits.length := by
  rw [setPage, length_modify]

@[simp] theorem length_clearPages (bits : List (BitVec 64)) :
    (clearPages bits).length = bits.length := by
  rw [clearPages, length_replicate]

@[simp] theorem testPage_clearPages (bits : List (BitVec 64)) (page : ℕ) :
    testPage (clearPages bits) page = false := by
  rw [testPage, clearPages, getD_eq_getElem?_getD]
  rcases Nat.lt_or_ge (page / 64) bits.length with h | h
  · rw [getElem?_replicate_of_lt h]; simp
  · rw [List.getElem?_eq_none (by simpa using h)]; simp

@[simp] theorem testPage_replicate (n page : ℕ) : testPage (List.replicate n 0) page = false := by
  have h := testPage_clearPages (List.replicate n (0 : BitVec 64)) page
  rwa [clearPages, length_replicate] at h

private theorem getLsbD_or_one_shiftLeft (w : BitVec 64) {k i : ℕ} (hi : i < 64) :
    (w ||| 1#64 <<< k).getLsbD i = (w.getLsbD i || decide (i = k)) := by
  by_cases h : i = k
  · subst h; simp [hi]
  rcases Nat.lt_or_ge i k with hlt | hge
  · simp [h, hlt]
  · have : i - k ≠ 0 := by omega
    simp [h, this]

variable {bits : List (BitVec 64)}

theorem testPage_setPage {page : ℕ} (h : page / 64 < bits.length)
    (p : ℕ) : testPage (setPage bits page) p = (testPage bits p || decide (p = page)) := by
  rw [testPage, testPage, setPage, getD_eq_getElem?_getD, getD_eq_getElem?_getD, getElem?_modify]
  by_cases hw : page / 64 = p / 64
  · rw [← hw, List.getElem?_eq_getElem h, Option.map_eq_map, map_some, if_pos rfl,
      getD_some, getLsbD_or_one_shiftLeft _ (Nat.mod_lt p (by omega))]
    congr 1
    exact decide_eq_decide.mpr ⟨fun h' ↦ by omega, fun h' ↦ by rw [h']⟩
  · have hne : p ≠ page := fun h' ↦ hw (by rw [h'])
    simp [hw, hne]

theorem setPages_succ (bits : List (BitVec 64)) (start count : ℕ) :
    setPages bits start (count + 1) = setPage (setPages bits start count) (start + count) := by
  rw [setPages, range_succ, foldl_append, foldl_cons, foldl_nil, setPages]

@[simp] theorem length_setPages (bits : List (BitVec 64)) (start count : ℕ) :
    (setPages bits start count).length = bits.length := by
  induction count with
  | zero => rfl
  | succ n ih => rw [setPages_succ, length_setPage, ih]

theorem testPage_setPages {start count : ℕ}
    (h : ∀ i < count, (start + i) / 64 < bits.length) (p : ℕ) :
    testPage (setPages bits start count) p =
      (testPage bits p || decide (start ≤ p ∧ p < start + count)) := by
  induction count with
  | zero =>
    have : ¬(start ≤ p ∧ p < start + 0) := by omega
    rw [setPages, range_zero, foldl_nil, decide_eq_false this, Bool.or_false]
  | succ n ih =>
    rw [setPages_succ, testPage_setPage (by simpa using h n (Nat.lt_succ_self n)),
      ih fun i hi ↦ h i (Nat.lt_succ_of_lt hi), Bool.or_assoc]
    congr 1
    rw [← Bool.decide_or]
    exact decide_eq_decide.mpr (by omega)

theorem lt_of_testPage {page : ℕ} (h : testPage bits page = true) : page < bits.length * 64 := by
  rcases Nat.lt_or_ge page (bits.length * 64) with hlt | hge
  · exact hlt
  have hword : bits[page / 64]? = none := by
    rw [List.getElem?_eq_none_iff]
    omega
  rw [testPage, getD_eq_getElem?_getD, hword] at h
  exact absurd h (by simp)

theorem testPage_mergePages (a b : List (BitVec 64)) (page : ℕ) :
    testPage (mergePages a b) page = (testPage a page || testPage b page) := by
  rw [testPage, testPage, testPage, mergePages]
  rcases Nat.lt_or_ge (page / 64) (max a.length b.length) with h | h
  · rw [getD_eq_getElem?_getD, getElem?_map, getElem?_range h, map_some, getD_some, getLsbD_or]
  have ha : a.length ≤ page / 64 := Nat.le_trans (Nat.le_max_left _ _) h
  have hb : b.length ≤ page / 64 := Nat.le_trans (Nat.le_max_right _ _) h
  rw [getD_eq_default _ _ (by simpa using h), getD_eq_default _ _ ha, getD_eq_default _ _ hb]
  simp

theorem div_lt_pageCount {size pageSize off : ℕ} (hps : 0 < pageSize) (h : off < size) :
    off / pageSize < pageCount size pageSize := by
  rw [pageCount, Nat.div_lt_iff_lt_mul hps]
  have hdm := Nat.div_add_mod (size + pageSize - 1) pageSize
  have hlt := Nat.mod_lt (size + pageSize - 1) hps
  rw [Nat.mul_comm] at hdm
  omega

theorem page_lt_of_lt {size pageSize off : ℕ} (hps : 0 < pageSize) (h : off < size) :
    off / pageSize / 64 < wordCount size pageSize := by
  have hpage := div_lt_pageCount hps h
  rw [wordCount]
  omega

end Machine
