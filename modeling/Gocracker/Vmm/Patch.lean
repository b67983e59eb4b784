import Gocracker.Virtio.Queue

/-!
# Migration patches

A migration ships a base image of a file while the guest runs, and later only the pages that became
dirty since. `buildDirtyFilePatch` walks a page bitmap, coalesces neighbouring dirty pages of one
word into an entry, and appends the entries' bytes to the patch data file; `applyMigrationPatches`
writes the entries over the base on the other side.

## What a patch means

An entry is *faithful* to a source when the bytes it points to in the data file are the source's
bytes at its offset. Applying faithful entries puts the source's bytes where an entry covers the
offset and leaves the rest of the base (`applyEntries_spec`), whatever the order of the entries. The
loop invariant `PatchInv` says that the entries produced so far are faithful and cover exactly the
dirty pages that were walked.
-/

namespace Gocracker

open Machine List Nat

/-! ## Patches -/

/-- A run of dirty pages: where it belongs, and where its bytes are in the data file. -/
structure DirtyPatchEntry where
  offset : ℕ
  length : ℕ
  dataOffset : ℕ
  deriving DecidableEq

/-- The entries for one file of the bundle. -/
structure DirtyFilePatch where
  path : String
  pageSize : ℕ
  entries : List DirtyPatchEntry
  deriving DecidableEq

/-- Why patches cannot be written or applied. -/
inductive PatchError where
  | unexpectedEOF
  | noSuchFile (path : String)
  | shortPatchData
  deriving DecidableEq

def migrationMemFile : String := "mem.bin"
def migrationDiskPath : String := "artifacts/disk.ext4"

/-- Pages that are dirty in either. -/
def mergeDirtyBitmaps (a b : List (BitVec 64)) : List (BitVec 64) := mergePages a b

/-! ## Copying a range of the source -/

def copyChunkSize : ℕ := 2 ^ 20

/-- The loop of `copyReaderAtRange`. Every iteration reads at least one byte, so `length` of them
end it; the fuel counts them. -/
def copyReaderAtLoop (src : List Byte) : ℕ → ℕ → ℕ → Except PatchError (List Byte)
  | 0, _, _ => .ok []
  | fuel + 1, offset, length =>
    if length = 0 then .ok []
    else
      let read := slice src offset (min copyChunkSize length)
      if read = [] then .error .unexpectedEOF
      else do
        let rest ← copyReaderAtLoop src fuel (offset + read.length) (length - read.length)
        return read ++ rest

def copyReaderAtRange (src : List Byte) (offset length : ℕ) : Except PatchError (List Byte) :=
  copyReaderAtLoop src length offset length

theorem copyReaderAtLoop_eq {src : List Byte} {fuel offset length : ℕ} (hfuel : length ≤ fuel)
    (h : offset + length ≤ src.length) :
    copyReaderAtLoop src fuel offset length = .ok (slice src offset length) := by
  induction fuel generalizing offset length with
  | zero =>
    obtain rfl := le_zero.mp hfuel
    rw [copyReaderAtLoop, slice, take_zero]
  | succ fuel ih =>
    rw [copyReaderAtLoop]
    split
    · rename_i hzero
      rw [hzero, slice, take_zero]
    rename_i hpos
    -- A read inside the source is never short, so the loop goes on with the rest of the range.
    have hchunk : 0 < copyChunkSize := by decide
    have hread : (slice src offset (min copyChunkSize length)).length =
        min copyChunkSize length := by
      rw [length_slice]
      omega
    have hne : slice src offset (min copyChunkSize length) ≠ [] := by
      intro hnil
      rw [hnil, length_nil] at hread
      omega
    simp only [hread]
    rw [if_neg hne, ih (by omega) (by omega)]
    have hsum : min copyChunkSize length + (length - min copyChunkSize length) = length := by
      omega
    have hadd := slice_add src offset (min copyChunkSize length) (length - min copyChunkSize length)
    rw [hsum] at hadd
    rw [hadd]
    rfl

/-! ## Building a patch -/

/-- The variables of the loop: the bytes written so far, the finished entries, the entry being
extended, and the offset of the next byte in the data file. -/
structure PatchState where
  out : List Byte
  entries : List DirtyPatchEntry
  pending : Option DirtyPatchEntry
  dataOffset : ℕ

section Build

variable (src : List Byte) (srcSize pageSize : ℕ)

/-- Write the bytes of the pending entry and finish it. -/
def appendPending (s : PatchState) : Except PatchError PatchState :=
  match s.pending with
  | none => .ok s
  | some e => do
    let bytes ← copyReaderAtRange src e.offset e.length
    return { s with out := s.out ++ bytes, entries := s.entries ++ [e], pending := none }

/-- The last page may be shorter. -/
def pageLength (offset : ℕ) : ℕ :=
  if srcSize < offset + pageSize then srcSize - offset else pageSize

/-- A page behind a gap begins an entry. -/
def startEntry (s : PatchState) (offset : ℕ) : PatchState :=
  { s with
    pending := some ⟨offset, pageLength srcSize pageSize offset, s.dataOffset⟩
    dataOffset := s.dataOffset + pageLength srcSize pageSize offset }

/-- A page next to the entry belongs to it. -/
def extendEntry (s : PatchState) (e : DirtyPatchEntry) (offset : ℕ) : PatchState :=
  { s with
    pending := some { e with length := e.length + pageLength srcSize pageSize offset }
    dataOffset := s.dataOffset + pageLength srcSize pageSize offset }

/-- The inner loop, over the bits of one word. It is left at the first dirty page that starts
behind the source. -/
def scanBits (wordIdx : ℕ) (word : BitVec 64) :
    List ℕ → PatchState → Except PatchError PatchState
  | [], s => .ok s
  | bit :: bits, s =>
    if word.getLsbD bit = false then do
      let s ← appendPending src s
      scanBits wordIdx word bits s
    else
      let offset := (wordIdx * 64 + bit) * pageSize
      if srcSize ≤ offset then appendPending src s
      else
        match s.pending with
        | some e =>
          if e.offset + e.length = offset then
            scanBits wordIdx word bits (extendEntry srcSize pageSize s e offset)
          else do
            let s ← appendPending src s
            scanBits wordIdx word bits (startEntry srcSize pageSize s offset)
        | none => scanBits wordIdx word bits (startEntry srcSize pageSize s offset)

/-- The outer loop, over the words of the bitmap from index `wordIdx` on. -/
def scanWords : ℕ → List (BitVec 64) → PatchState → Except PatchError PatchState
  | _, [], s => .ok s
  | wordIdx, word :: words, s =>
    if word = 0 then scanWords (wordIdx + 1) words s
    else do
      let s ← scanBits src srcSize pageSize wordIdx word (List.range 64) s
      let s ← appendPending src s
      scanWords (wordIdx + 1) words s

end Build

/-- The patch for the dirty pages of `src`, the bytes it appends to the data file, and the offset
of the next byte there. -/
def buildDirtyFilePatch (src : List Byte) (srcSize : ℕ) (relPath : String) (pageSize : ℕ)
    (bitmap : List (BitVec 64)) (nextDataOffset : ℕ) :
    Except PatchError (DirtyFilePatch × List Byte × ℕ) :=
  if bitmap = [] ∨ srcSize = 0 then .ok (⟨relPath, pageSize, []⟩, [], nextDataOffset)
  else do
    let pageSize := if pageSize = 0 then 4096 else pageSize
    let s ← scanWords src srcSize pageSize 0 bitmap ⟨[], [], none, nextDataOffset⟩
    return (⟨relPath, pageSize, s.entries⟩, s.out, s.dataOffset)

/-! ## What the loops produce -/

/-- The bytes that an entry covers. -/
def DirtyPatchEntry.Spans (e : DirtyPatchEntry) (i : ℕ) : Prop :=
  e.offset ≤ i ∧ i < e.offset + e.length

/-- The data of an entry is what the source has there. -/
structure Faithful (src data : List Byte) (e : DirtyPatchEntry) : Prop where
  offset_le : e.offset + e.length ≤ src.length
  data_le : e.dataOffset + e.length ≤ data.length
  bytes : slice data e.dataOffset e.length = slice src e.offset e.length

variable {e : DirtyPatchEntry} {file : List Byte}

/-- What is faithful to the first part of a file is faithful to the file. -/
theorem Faithful.of_isPrefix {src data : List Byte}
    (h : Faithful src data e) (hfile : src <+: file) : Faithful file data e := by
  refine ⟨h.offset_le.trans hfile.length_le, h.data_le, ?_⟩
  rw [h.bytes, slice_of_isPrefix hfile h.offset_le]

theorem Faithful.append {src data : List Byte} (h : Faithful src data e)
    (more : List Byte) : Faithful src (data ++ more) e := by
  refine ⟨h.offset_le, ?_, ?_⟩
  · rw [length_append]
    exact le_add_right_of_le h.data_le
  · rw [← h.bytes]
    exact slice_append_left h.data_le

/-- **The loop invariant**, before page `p` is looked at: the finished entries are faithful, the
pending one continues the data file, and together they cover the dirty pages before `p`. The bytes
`pre` were in the data file before. -/
structure PatchInv (src pre : List Byte) (pageSize : ℕ) (bitmap : List (BitVec 64)) (p : ℕ)
    (s : PatchState) : Prop where
  faithful : ∀ e ∈ s.entries, Faithful src (pre ++ s.out) e
  pending_le : ∀ e ∈ s.pending, e.offset + e.length ≤ src.length ∧
    e.dataOffset = (pre ++ s.out).length
  dataOffset_eq : s.dataOffset = (pre ++ s.out).length + (s.pending.map (·.length)).getD 0
  spans_iff : ∀ i < src.length, (∃ e, (e ∈ s.entries ∨ e ∈ s.pending) ∧ e.Spans i) ↔
    i / pageSize < p ∧ testPage bitmap (i / pageSize) = true

section Spec

variable {file src pre : List Byte} {pageSize : ℕ} {bitmap : List (BitVec 64)} {p : ℕ}
  {s : PatchState}

/-- The source may be the first part of the file that is read. -/
theorem PatchInv.appendPending (hfile : src <+: file) (h : PatchInv src pre pageSize bitmap p s) :
    ∃ s', appendPending file s = .ok s' ∧ PatchInv src pre pageSize bitmap p s' ∧
      s'.pending = none := by
  obtain ⟨out, entries, pending, dataOffset⟩ := s
  cases pending with
  | none => exact ⟨_, rfl, h, rfl⟩
  | some e =>
    obtain ⟨hle, hdata⟩ := h.pending_le e rfl
    have hcopy : copyReaderAtRange file e.offset e.length = .ok (slice src e.offset e.length) := by
      rw [← slice_of_isPrefix hfile hle]
      exact copyReaderAtLoop_eq le_rfl (hle.trans hfile.length_le)
    have hlen : (slice src e.offset e.length).length = e.length := by
      rw [length_slice]
      omega
    -- The pending entry was counted when it was opened: finishing it copies its bytes and moves
    -- nothing else.
    refine ⟨⟨out ++ slice src e.offset e.length, entries ++ [e], none, dataOffset⟩, ?_, ?_, rfl⟩
    · rw [Gocracker.appendPending]
      exact bind_eq_ok.mpr ⟨_, hcopy, rfl⟩
    refine ⟨fun e' he' ↦ ?_, nofun, ?_, fun i hi ↦ ?_⟩
    · rw [← append_assoc]
      rcases mem_append.mp he' with he' | he'
      · exact (h.faithful e' he').append _
      obtain rfl := mem_singleton.mp he'
      refine ⟨hle, ?_, ?_⟩
      · rw [length_append, hlen, hdata]
      · rw [hdata, slice_append_right, slice, drop_zero, take_of_length_le hlen.le]
    · have hoff := h.dataOffset_eq
      simp only [Option.map_some, Option.getD_some, Option.map_none, Option.getD_none,
        length_append, hlen] at hoff ⊢
      omega
    · rw [← h.spans_iff i hi]
      simp only [mem_append, mem_singleton, Option.mem_def, reduceCtorEq, or_false,
        Option.some.injEq, eq_comm]

/-- The offsets of the page at `p * pageSize`, cut at the end of the source. -/
theorem spans_page_iff {size i : ℕ} (hps : 0 < pageSize) (hi : i < size) :
    p * pageSize ≤ i ∧ i < p * pageSize + pageLength size pageSize (p * pageSize) ↔
      i / pageSize = p := by
  have hsucc : (p + 1) * pageSize = p * pageSize + pageSize := Nat.succ_mul p pageSize
  rw [Nat.div_eq_iff hps, pageLength]
  split <;> omega

theorem pageLength_le {size : ℕ} (h : p * pageSize < size) :
    p * pageSize + pageLength size pageSize (p * pageSize) ≤ size := by
  rw [pageLength]
  split <;> omega

private theorem dirty_lt_succ_iff (hp : testPage bitmap p = true) (q : ℕ) :
    q < p + 1 ∧ testPage bitmap q = true ↔ (q < p ∧ testPage bitmap q = true) ∨ q = p := by
  rw [Nat.lt_succ_iff, Nat.le_iff_lt_or_eq]
  constructor
  · rintro ⟨hlt | rfl, hq⟩
    · exact .inl ⟨hlt, hq⟩
    · exact .inr rfl
  · rintro (⟨hlt, hq⟩ | rfl)
    · exact ⟨.inl hlt, hq⟩
    · exact ⟨.inr rfl, hp⟩

section

variable (h : PatchInv src pre pageSize bitmap p s)
include h

theorem PatchInv.startEntry (hnone : s.pending = none)
    (hps : 0 < pageSize) (hp : testPage bitmap p = true) (hlt : p * pageSize < src.length) :
    PatchInv src pre pageSize bitmap (p + 1) (startEntry src.length pageSize s (p * pageSize)) := by
  have hoff := h.dataOffset_eq
  rw [hnone, Option.map_none, Option.getD_none, add_zero] at hoff
  refine ⟨h.faithful, ?_, ?_, fun i hi ↦ ?_⟩
  · rintro e ⟨rfl⟩
    exact ⟨pageLength_le hlt, hoff⟩
  · rw [Gocracker.startEntry, hoff]
    rfl
  · rw [dirty_lt_succ_iff hp, ← h.spans_iff i hi, ← spans_page_iff hps hi, hnone]
    simp only [Gocracker.startEntry, Option.mem_def, reduceCtorEq, or_false, Option.some.injEq,
      or_and_right, exists_or, exists_eq_left', DirtyPatchEntry.Spans]

theorem PatchInv.extendEntry
    (hsome : s.pending = some e) (hend : e.offset + e.length = p * pageSize)
    (hps : 0 < pageSize) (hp : testPage bitmap p = true) (hlt : p * pageSize < src.length) :
    PatchInv src pre pageSize bitmap (p + 1)
      (extendEntry src.length pageSize s e (p * pageSize)) := by
  obtain ⟨-, hdata⟩ := h.pending_le e hsome
  have hoff := h.dataOffset_eq
  rw [hsome, Option.map_some, Option.getD_some] at hoff
  have hle := pageLength_le hlt
  refine ⟨h.faithful, ?_, ?_, fun i hi ↦ ?_⟩
  · rintro e' ⟨rfl⟩
    refine ⟨?_, hdata⟩
    dsimp only
    omega
  · simp only [Gocracker.extendEntry, Option.map_some, Option.getD_some]
    omega
  · rw [dirty_lt_succ_iff hp, ← h.spans_iff i hi, ← spans_page_iff hps hi, hsome]
    simp only [Gocracker.extendEntry, Option.mem_def, Option.some.injEq, or_and_right, exists_or,
      exists_eq_left', DirtyPatchEntry.Spans, or_assoc]
    refine or_congr Iff.rfl ?_
    omega

theorem PatchInv.skip
    (hp : testPage bitmap p = false) : PatchInv src pre pageSize bitmap (p + 1) s := by
  refine { h with spans_iff := fun i hi ↦ ?_ }
  rw [h.spans_iff i hi]
  apply and_congr_left
  intro hdirty
  have hne : i / pageSize ≠ p := by
    rintro rfl
    exact absurd hdirty (by rw [hp]; simp)
  omega

/-- Behind the source there is nothing left to cover. -/
theorem PatchInv.beyond (hps : 0 < pageSize)
    (hp : src.length ≤ p * pageSize) {p' : ℕ} (hle : p ≤ p') :
    PatchInv src pre pageSize bitmap p' s := by
  refine { h with spans_iff := fun i hi ↦ ?_ }
  rw [h.spans_iff i hi]
  apply and_congr_left
  have hlt : i / pageSize < p := (div_lt_iff_lt_mul hps).mpr (by omega)
  omega

end

variable {wordIdx : ℕ}

variable {word : BitVec 64}

theorem getLsbD_eq_testPage {bit : ℕ} (hbit : bit < 64) (hword : bitmap[wordIdx]? = some word) :
    word.getLsbD bit = testPage bitmap (wordIdx * 64 + bit) := by
  have hdiv : (wordIdx * 64 + bit) / 64 = wordIdx := by omega
  have hmod : (wordIdx * 64 + bit) % 64 = bit := by omega
  rw [testPage, hdiv, hmod, getD_eq_getElem?_getD, hword, Option.getD_some]

/-- **The inner loop**: the bits from `bit` on. -/
theorem scanBits_spec (hfile : src <+: file) (hps : 0 < pageSize)
    (hword : bitmap[wordIdx]? = some word) {n bit : ℕ} (hn : bit + n = 64)
    (h : PatchInv src pre pageSize bitmap (wordIdx * 64 + bit) s) :
    ∃ s', scanBits file src.length pageSize wordIdx word (List.range' bit n) s = .ok s' ∧
      PatchInv src pre pageSize bitmap (wordIdx * 64 + 64) s' := by
  induction n generalizing bit s with
  | zero =>
    obtain rfl : bit = 64 := hn
    exact ⟨s, rfl, h⟩
  | succ n ih =>
    have hdirty := getLsbD_eq_testPage (show bit < 64 by omega) hword
    have hnext : bit + 1 + n = 64 := by omega
    rw [range'_succ, scanBits]
    split
    · -- A clean page ends the pending entry.
      rename_i hclean
      obtain ⟨s₁, hs₁, h₁, -⟩ := h.appendPending hfile
      obtain ⟨s₂, hs₂, h₂⟩ := ih hnext (h₁.skip (hdirty.symm.trans hclean))
      exact ⟨s₂, bind_eq_ok.mpr ⟨s₁, hs₁, hs₂⟩, h₂⟩
    rename_i hset
    have hp : testPage bitmap (wordIdx * 64 + bit) = true :=
      hdirty.symm.trans (Bool.eq_true_of_not_eq_false hset)
    dsimp only
    -- A set bit behind the end of the source stops the loop: the bits after it lie behind it too.
    by_cases hout : src.length ≤ (wordIdx * 64 + bit) * pageSize
    · obtain ⟨s₁, hs₁, h₁, -⟩ := h.appendPending hfile
      rw [if_pos hout]
      exact ⟨s₁, hs₁, h₁.beyond hps hout (by omega)⟩
    have hin := not_le.mp hout
    rw [if_neg hout]
    -- A dirty page extends the pending entry if it adjoins it, and opens a new one otherwise.
    split
    · rename_i e hsome
      split_ifs with hend
      · exact ih hnext (h.extendEntry hsome hend hps hp hin)
      · obtain ⟨s₁, hs₁, h₁, hnone⟩ := h.appendPending hfile
        obtain ⟨s₂, hs₂, h₂⟩ := ih hnext (h₁.startEntry hnone hps hp hin)
        exact ⟨s₂, bind_eq_ok.mpr ⟨s₁, hs₁, hs₂⟩, h₂⟩
    · rename_i hnone
      exact ih hnext (h.startEntry hnone hps hp hin)

theorem PatchInv.skipWord (h : PatchInv src pre pageSize bitmap (wordIdx * 64) s)
    (hword : bitmap[wordIdx]? = some 0) :
    PatchInv src pre pageSize bitmap ((wordIdx + 1) * 64) s := by
  have hbits : ∀ bit ≤ 64, PatchInv src pre pageSize bitmap (wordIdx * 64 + bit) s := by
    intro bit
    induction bit with
    | zero => exact fun _ ↦ h
    | succ bit ih =>
      intro hle
      refine (ih (by omega)).skip ?_
      rw [← getLsbD_eq_testPage (by omega) hword]
      exact BitVec.getLsbD_zero
  rw [succ_mul]
  exact hbits 64 le_rfl

/-- **The outer loop**: the words from `wordIdx` on. -/
theorem scanWords_spec (hfile : src <+: file) (hps : 0 < pageSize) {words : List (BitVec 64)}
    (hwords : bitmap.drop wordIdx = words) (hle : wordIdx ≤ bitmap.length)
    (hnone : s.pending = none) (h : PatchInv src pre pageSize bitmap (wordIdx * 64) s) :
    ∃ s', scanWords file src.length pageSize wordIdx words s = .ok s' ∧ s'.pending = none ∧
      PatchInv src pre pageSize bitmap (bitmap.length * 64) s' := by
  induction words generalizing wordIdx s with
  | nil =>
    have hlen : bitmap.length = wordIdx := by
      have := drop_eq_nil_iff.mp hwords
      omega
    rw [hlen]
    exact ⟨s, rfl, hnone, h⟩
  | cons word words ih =>
    obtain ⟨hword, hrest⟩ := getElem?_of_drop hwords
    have hlt : wordIdx < bitmap.length := (List.getElem?_eq_some_iff.mp hword).1
    rw [scanWords]
    -- Each word ends the entry it leaves open, so none is pending when a zero word is skipped.
    split_ifs with hzero
    · exact ih hrest hlt hnone (h.skipWord (by rw [hword, hzero]))
    obtain ⟨s₁, hs₁, h₁⟩ := scanBits_spec hfile hps hword (zero_add 64) h
    obtain ⟨s₂, hs₂, h₂, hnone₂⟩ := h₁.appendPending hfile
    rw [← succ_mul] at h₂
    obtain ⟨s₃, hs₃, hnone₃, h₃⟩ := ih hrest hlt hnone₂ h₂
    exact ⟨s₃, bind_eq_ok.mpr ⟨s₁, hs₁, bind_eq_ok.mpr ⟨s₂, hs₂, hs₃⟩⟩, hnone₃, h₃⟩

end Spec

variable {src data base : List Byte} {pageSize : ℕ}

/-- **What a patch of the first part of a file holds**: it is always built; its entries are faithful
to that part and cover exactly its dirty pages. The data file grew from `pre` to `pre ++ out`. -/
theorem buildDirtyFilePatch_part_spec (hfile : src <+: file)
    (pre : List Byte) (relPath : String) (hps : 0 < pageSize) (bitmap : List (BitVec 64)) :
    ∃ entries out, buildDirtyFilePatch file src.length relPath pageSize bitmap pre.length =
        .ok (⟨relPath, pageSize, entries⟩, out, (pre ++ out).length) ∧
      (∀ e ∈ entries, Faithful src (pre ++ out) e) ∧
      ∀ i < src.length, (∃ e ∈ entries, e.Spans i) ↔ testPage bitmap (i / pageSize) = true := by
  rw [buildDirtyFilePatch]
  split
  · rename_i hempty
    refine ⟨[], [], ?_, nofun, fun i hi ↦ ?_⟩
    · rw [append_nil]
    -- An empty bitmap marks no page, and an empty source has none.
    · have hclean : testPage bitmap (i / pageSize) = false := by
        rcases hempty with rfl | hzero
        · exact BitVec.getLsbD_zero
        · omega
      rw [hclean]
      simp
  · have hinit : PatchInv src pre pageSize bitmap (0 * 64) ⟨[], [], none, pre.length⟩ := by
      refine ⟨nofun, nofun, ?_, ?_⟩
      · rw [append_nil]
        rfl
      · simp
    obtain ⟨s, hs, hnone, h⟩ := scanWords_spec hfile hps drop_zero (zero_le _) rfl hinit
    have hoff := h.dataOffset_eq
    rw [hnone, Option.map_none, Option.getD_none, add_zero] at hoff
    refine ⟨s.entries, s.out, ?_, h.faithful, fun i hi ↦ ?_⟩
    · rw [if_neg hps.ne', ← hoff]
      exact bind_eq_ok.mpr ⟨s, hs, rfl⟩
    have hspans := h.spans_iff i hi
    rw [hnone] at hspans
    simp only [Option.mem_def, reduceCtorEq, or_false] at hspans
    rw [hspans]
    apply and_iff_right_of_imp
    intro hdirty
    exact lt_of_testPage hdirty

/-! ## The patches of a VM -/

/-- The root disk of a VM that has one: its bytes and the tracker of the host's writes to it. -/
structure DiskImage where
  bytes : List Byte
  dirty : DirtyTracker

def migrationPatchData : String := "patches.bin"

/-- A patch without entries is left out. -/
def DirtyFilePatch.nonEmpty (patch : DirtyFilePatch) : List DirtyFilePatch :=
  if patch.entries = [] then [] else [patch]

/-- The patches of RAM and, if there is a disk, of the disk. Both share one data file. -/
def writeMigrationPatches (ram : List Byte) (pageSize : ℕ) (memBitmap : List (BitVec 64))
    (disk : Option DiskImage) : Except PatchError (List DirtyFilePatch × List Byte) := do
  let (memPatch, memData, dataOffset) ←
    buildDirtyFilePatch ram ram.length migrationMemFile pageSize memBitmap 0
  match disk with
  | none => return (memPatch.nonEmpty, memData)
  | some d =>
    if d.dirty.bits = [] then return (memPatch.nonEmpty, memData)
    else
      let (diskPatch, diskData, _) ← buildDirtyFilePatch d.bytes d.bytes.length migrationDiskPath
        d.dirty.pageSize d.dirty.bits dataOffset
      return (memPatch.nonEmpty ++ diskPatch.nonEmpty, memData ++ diskData)

/-- **What the patches hold**: those of RAM cover its dirty pages, and those of the disk, if there
is one, its dirty pages. -/
theorem writeMigrationPatches_spec (ram : List Byte) (hps : 0 < pageSize)
    (bitmap : List (BitVec 64)) (disk : Option DiskImage) :
    ∃ entries rest data, writeMigrationPatches ram pageSize bitmap disk =
        .ok (DirtyFilePatch.nonEmpty ⟨migrationMemFile, pageSize, entries⟩ ++ rest, data) ∧
      (∀ e ∈ entries, Faithful ram data e) ∧
      (∀ i < ram.length, (∃ e ∈ entries, e.Spans i) ↔ testPage bitmap (i / pageSize) = true) ∧
      (disk = none ∧ rest = [] ∨ ∃ d, disk = some d ∧ ∃ diskEntries,
        rest = DirtyFilePatch.nonEmpty ⟨migrationDiskPath, d.dirty.pageSize, diskEntries⟩ ∧
        (∀ e ∈ diskEntries, Faithful d.bytes data e) ∧
        ∀ i < d.bytes.length, (∃ e ∈ diskEntries, e.Spans i) ↔
          testPage d.dirty.bits (i / d.dirty.pageSize) = true) := by
  obtain ⟨entries, memData, hbuild, hfaith, hspans⟩ :=
    buildDirtyFilePatch_part_spec (prefix_refl ram) [] migrationMemFile hps bitmap
  rw [nil_append] at hbuild hfaith
  rw [length_nil] at hbuild
  cases disk with
  | none =>
    refine ⟨entries, [], memData, ?_, hfaith, hspans, .inl ⟨rfl, rfl⟩⟩
    rw [append_nil]
    exact bind_eq_ok.mpr ⟨_, hbuild, rfl⟩
  | some d =>
    by_cases hbits : d.dirty.bits = []
    · -- No page of the disk is marked, and a patch without entries is none.
      refine ⟨entries, [], memData, ?_, hfaith, hspans, .inr ⟨d, rfl, [], rfl, by simp, ?_⟩⟩
      · rw [append_nil]
        refine bind_eq_ok.mpr ⟨_, hbuild, ?_⟩
        dsimp only
        rw [if_pos hbits]
        rfl
      · intro i _
        rw [hbits]
        simp [testPage]
    · obtain ⟨diskEntries, diskData, hbuild', hfaith', hspans'⟩ :=
        buildDirtyFilePatch_part_spec (prefix_refl d.bytes) memData migrationDiskPath
          d.dirty.pageSize.pos d.dirty.bits
      refine ⟨entries, _, memData ++ diskData, ?_, fun e he ↦ (hfaith e he).append _, hspans,
        .inr ⟨d, rfl, diskEntries, rfl, hfaith', hspans'⟩⟩
      rw [writeMigrationPatches]
      refine bind_eq_ok.mpr ⟨_, hbuild, ?_⟩
      dsimp only
      rw [if_neg hbits]
      exact bind_eq_ok.mpr ⟨_, hbuild', rfl⟩

/-! ## Applying patches -/

/-- A bundle directory: its files, and the two files of the patch set if they were written. -/
structure BundleDir where
  files : String → Option (List Byte)
  patchMeta : Option (List DirtyFilePatch)
  patchData : Option (List Byte)

def applyEntry (data file : List Byte) (e : DirtyPatchEntry) : Except PatchError (List Byte) :=
  if (slice data e.dataOffset e.length).length < e.length then .error .shortPatchData
  else .ok (extendAt 0 file e.offset (slice data e.dataOffset e.length))

def applyEntries (data : List Byte) (entries : List DirtyPatchEntry) (file : List Byte) :
    Except PatchError (List Byte) :=
  entries.foldlM (applyEntry data) file

def applyFilePatch (data : List Byte) (dir : BundleDir) (patch : DirtyFilePatch) :
    Except PatchError BundleDir :=
  match dir.files patch.path with
  | none => .error (.noSuchFile patch.path)
  | some file => do
    let file ← applyEntries data patch.entries file
    return { dir with files := fun path ↦ if path = patch.path then some file else dir.files path }

def applyMigrationPatches (dir : BundleDir) : Except PatchError BundleDir :=
  match dir.patchMeta with
  | none | some [] => .ok dir
  | some patches =>
    match dir.patchData with
    | none => .error (.noSuchFile migrationPatchData)
    | some data => patches.foldlM (applyFilePatch data) dir

variable {entries : List DirtyPatchEntry}

/-- **Applying faithful entries** to a base of the source's size: the source where an entry covers
the offset, the base elsewhere. -/
theorem applyEntries_spec
    (h : ∀ e ∈ entries, Faithful src data e) (hlen : base.length = src.length) :
    ∃ out, applyEntries data entries base = .ok out ∧ out.length = src.length ∧
      (∀ i, (∃ e ∈ entries, e.Spans i) → out[i]? = src[i]?) ∧
      ∀ i, (¬∃ e ∈ entries, e.Spans i) → out[i]? = base[i]? := by
  induction entries generalizing base with
  | nil =>
    refine ⟨base, rfl, hlen, ?_, fun i _ ↦ rfl⟩
    rintro i ⟨e, he, -⟩
    exact absurd he not_mem_nil
  | cons e entries ih =>
    have he := h e mem_cons_self
    have hread : (slice data e.dataOffset e.length).length = e.length := by
      have := he.data_le
      rw [length_slice]
      omega
    have happly : applyEntry data base e =
        .ok (writeAt base e.offset (slice src e.offset e.length)) := by
      have hfit := he.offset_le
      rw [applyEntry, if_neg (by omega), extendAt_of_le (by omega), he.bytes]
    have hbuf : (slice src e.offset e.length).length = e.length := he.bytes ▸ hread
    obtain ⟨out, hout, houtlen, hin, hnot⟩ :=
      ih (fun e' he' ↦ h e' (mem_cons_of_mem _ he'))
        ((length_writeAt base e.offset (slice src e.offset e.length)).trans hlen)
    refine ⟨out, ?_, houtlen, fun i hi ↦ ?_, fun i hi ↦ ?_⟩
    · exact bind_eq_ok.mpr ⟨_, happly, hout⟩
    · by_cases hrest : ∃ e' ∈ entries, e'.Spans i
      · exact hin i hrest
      -- Only the first entry covers `i`: its bytes stay.
      obtain ⟨e', he', hspan⟩ := hi
      rcases mem_cons.mp he' with rfl | he'
      · have hlt : i < base.length := by
          have := he.offset_le
          have := hspan.2
          omega
        rw [hnot i hrest, getElem?_writeAt_of_mem hlt hspan.1 (by rw [hbuf]; exact hspan.2),
          getElem?_slice (by have := hspan.1; have := hspan.2; omega),
          Nat.add_sub_cancel' hspan.1]
      · exact absurd ⟨e', he', hspan⟩ hrest
    · have hrest : ¬∃ e' ∈ entries, e'.Spans i := fun ⟨e', he', hspan⟩ ↦
        hi ⟨e', mem_cons_of_mem _ he', hspan⟩
      rw [hnot i hrest]
      refine getElem?_writeAt_of_not_mem ?_
      rw [hbuf]
      exact fun hspan ↦ hi ⟨e, mem_cons_self, hspan⟩

def BundleDir.write (dir : BundleDir) (path : String) (file : List Byte) : BundleDir :=
  { dir with files := fun path' ↦ if path' = path then some file else dir.files path' }

@[simp] theorem BundleDir.files_write_self (dir : BundleDir) (path : String) (file : List Byte) :
    (dir.write path file).files path = some file := if_pos rfl

variable {dir : BundleDir}

theorem applyMigrationPatches_eq_foldlM {patches : List DirtyFilePatch}
    (hmeta : dir.patchMeta = some patches) (hdata : dir.patchData = some data) :
    applyMigrationPatches dir = patches.foldlM (applyFilePatch data) dir := by
  rw [applyMigrationPatches, hmeta, hdata]
  cases patches <;> rfl

variable {bitmap : List (BitVec 64)}

/-- **One file's patch**, in a bundle whose base has the size of the source. -/
theorem applyFilePatch_spec {path : String}
    (dir : BundleDir) (hfaith : ∀ e ∈ entries, Faithful src data e) (hspans : ∀ i < src.length,
      (∃ e ∈ entries, e.Spans i) ↔ testPage bitmap (i / pageSize) = true)
    (hfile : dir.files path = some base) (hlen : base.length = src.length) :
    ∃ out, applyFilePatch data dir ⟨path, pageSize, entries⟩ = .ok (dir.write path out) ∧
      out.length = src.length ∧ ∀ i < src.length,
        out[i]? = if testPage bitmap (i / pageSize) = true then src[i]? else base[i]? := by
  obtain ⟨out, hout, houtlen, hin, hnot⟩ := applyEntries_spec hfaith hlen
  refine ⟨out, ?_, houtlen, fun i hi ↦ ?_⟩
  · rw [applyFilePatch, hfile]
    exact bind_eq_ok.mpr ⟨out, hout, rfl⟩
  split
  · rename_i hdirty
    exact hin i ((hspans i hi).mpr hdirty)
  · rename_i hclean
    exact hnot i fun h ↦ hclean ((hspans i hi).mp h)

/-- Leaving out a patch without entries is applying it. -/
theorem foldlM_nonEmpty {patch : DirtyFilePatch} (hfile : dir.files patch.path = some base) :
    patch.nonEmpty.foldlM (applyFilePatch data) dir = applyFilePatch data dir patch := by
  rw [DirtyFilePatch.nonEmpty]
  split_ifs with hnil
  · have hsame : (fun path ↦ if path = patch.path then some base else dir.files path) =
        dir.files := by
      funext path
      split_ifs with hpath
      · rw [hpath, hfile]
      · rfl
    rw [applyFilePatch, hfile, hnil]
    refine (bind_eq_ok.mpr ⟨base, rfl, ?_⟩).symm
    rw [hsame]
    rfl
  · rw [foldlM_cons]
    cases applyFilePatch data dir patch <;> rfl

/-- The bundle has a disk file of the size of the VM's disk, if the VM has a disk. -/
def BundleDir.HoldsDisk (dir : BundleDir) (disk : Option DiskImage) : Prop :=
  ∀ d ∈ disk, ∃ file, dir.files migrationDiskPath = some file ∧ file.length = d.bytes.length

/-- The file with the marked pages taken from `src`, and the others from the base. -/
def Patched (src base : List Byte) (pageSize : ℕ) (bitmap : List (BitVec 64)) (out : List Byte) :
    Prop :=
  out.length = src.length ∧ ∀ i < src.length,
    out[i]? = if testPage bitmap (i / pageSize) = true then src[i]? else base[i]?

/-- If every page that differs is marked, the file is the source. -/
theorem Patched.eq {out : List Byte}
    (h : Patched src base pageSize bitmap out)
    (hsame : ∀ i < src.length, testPage bitmap (i / pageSize) = false → base[i]? = src[i]?) :
    out = src := by
  refine ext_getElem? fun i ↦ ?_
  rcases lt_or_ge i src.length with hi | hi
  · rw [h.2 i hi]
    split_ifs with hclean
    · rfl
    · exact hsame i hi (Bool.eq_false_of_not_eq_true hclean)
  · rw [getElem?_eq_none hi, getElem?_eq_none (by rw [h.1]; exact hi)]

/-- **The patches of a VM, applied to its base bundle**, are always written, always apply, and give
RAM and the disk where a page is dirty and the base elsewhere. -/
theorem applyMigrationPatches_spec {ram : List Byte} (hps : 0 < pageSize)
    (bitmap : List (BitVec 64)) {disk : Option DiskImage} {files : String → Option (List Byte)}
    (hmem : files migrationMemFile = some base) (hlen : base.length = ram.length)
    (hdisk : BundleDir.HoldsDisk ⟨files, none, none⟩ disk) :
    ∃ patches data dir out, writeMigrationPatches ram pageSize bitmap disk = .ok (patches, data) ∧
      applyMigrationPatches ⟨files, some patches, some data⟩ = .ok dir ∧
      dir.files migrationMemFile = some out ∧ Patched ram base pageSize bitmap out ∧
      (disk = none → dir.files migrationDiskPath = files migrationDiskPath) ∧
      ∀ d ∈ disk, ∀ file, files migrationDiskPath = some file → ∃ diskOut,
        dir.files migrationDiskPath = some diskOut ∧
          Patched d.bytes file d.dirty.pageSize d.dirty.bits diskOut := by
  obtain ⟨entries, rest, data, hwrite, hfaith, hspans, hrest⟩ :=
    writeMigrationPatches_spec ram hps bitmap disk
  refine ⟨DirtyFilePatch.nonEmpty ⟨migrationMemFile, pageSize, entries⟩ ++ rest, data, ?_⟩
  rw [applyMigrationPatches_eq_foldlM rfl rfl, foldlM_append]
  generalize hdir : BundleDir.mk files _ (some data) = dir
  have hfiles : dir.files = files := by rw [← hdir]
  obtain ⟨out, hout, hres⟩ := applyFilePatch_spec dir hfaith hspans (by rw [hfiles, hmem]) hlen
  rw [foldlM_nonEmpty (by rw [hfiles, hmem]), hout]
  have hne : migrationDiskPath ≠ migrationMemFile := by decide
  have hdiskFile : (dir.write migrationMemFile out).files migrationDiskPath =
      files migrationDiskPath := by simp [BundleDir.write, hne, hfiles]
  rcases hrest with ⟨rfl, rfl⟩ | ⟨d, rfl, diskEntries, rfl, hdiskFaith, hdiskSpans⟩
  · refine ⟨_, out, hwrite, rfl, BundleDir.files_write_self _ _ _, hres, fun _ ↦ hdiskFile, ?_⟩
    simp
  -- The disk's patch finds its file and leaves the memory file alone.
  obtain ⟨file, hfile, hfilelen⟩ := hdisk d rfl
  have hfile' := hdiskFile.trans hfile
  obtain ⟨diskOut, hdiskOut, hdiskRes⟩ :=
    applyFilePatch_spec (dir.write migrationMemFile out) hdiskFaith hdiskSpans hfile' hfilelen
  refine ⟨(dir.write migrationMemFile out).write migrationDiskPath diskOut, out, hwrite,
    (foldlM_nonEmpty hfile').trans hdiskOut, ?_, hres, by simp, ?_⟩
  · simp [BundleDir.write, hne.symm]
  intro d' hd' file' hfile'
  obtain ⟨⟩ := hd'
  obtain rfl := Option.mem_unique hfile' hfile
  exact ⟨diskOut, BundleDir.files_write_self _ _ _, hdiskRes⟩

end Gocracker
