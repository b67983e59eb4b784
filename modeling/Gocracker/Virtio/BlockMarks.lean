import Gocracker.Virtio.Block
import Gocracker.Virtio.DirtyComplete

/-!
# Does a block request mark what it writes?

An OUT request writes a descriptor's bytes to the image and marks their range afterwards, a DISCARD
request punches a hole and marks it. As for guest memory, a list of operations is in order when each
of its writes is covered by a mark still to come; here the writes must also stay inside the image,
since a file grows where memory does not.

One thing can go wrong. A call that fails may have written a part, or even all, of its bytes, and
nothing is marked then. Requests without such calls are in order
(`BlockDevice.wellTracked_handleRequest`). That the length of a request is added up in 32 bits does
no harm, as no chain is so long.
-/

namespace Gocracker

open Machine List DirtyTracker

/-! ## Operations on an image -/

namespace DiskOp

/-- The operation, if the image were memory. -/
def toMemOp : DiskOp → MemOp
  | .write off buf => .store off buf
  | .punch off len => .store off (List.replicate len 0)
  | .mark addr length => .mark addr length

/-- The operation writes inside the first `size` bytes. -/
def Fits (size : ℕ) : DiskOp → Prop
  | .write off buf => buf = [] ∨ off + buf.length ≤ size
  | .punch off len => off + len ≤ size
  | .mark _ _ => True

variable (dirty : DirtyTracker)

def track : DiskOp → DirtyTracker
  | .mark addr length => dirty.mark addr length
  | _ => dirty

@[simp] theorem memSize_track (op : DiskOp) : (op.track dirty).memSize = dirty.memSize := by
  cases op with
  | mark addr length => exact memSize_mark _ _ _
  | _ => rfl

@[simp] theorem pageSize_track (op : DiskOp) : (op.track dirty).pageSize = dirty.pageSize := by
  cases op with
  | mark addr length => exact pageSize_mark _ _ _
  | _ => rfl

variable {op : DiskOp} {image : List Byte} {size : ℕ}

theorem length_apply (hfit : op.Fits size) (hsize : size ≤ image.length) :
    (op.apply image).length = image.length := by
  cases op with
  | write off buf =>
    rw [apply]
    rcases hfit with rfl | hle
    · rw [extendAt, if_pos rfl]
    · rw [extendAt_of_le (hle.trans hsize), length_writeAt]
  | punch off len => exact length_writeAt _ _ _
  | mark addr length => rfl

theorem getElem?_apply (hfit : op.Fits size) (hsize : size ≤ image.length) {o : ℕ}
    (hne : (op.apply image)[o]? ≠ image[o]?) :
    ∃ off buf, op.toMemOp = .store off buf ∧ off ≤ o ∧ o < off + buf.length ∧ o < size := by
  cases op with
  | write off buf =>
    rw [apply] at hne
    rcases hfit with rfl | hle
    · exact absurd rfl hne
    rw [extendAt_of_le (hle.trans hsize)] at hne
    by_contra hnone
    refine hne (getElem?_writeAt_of_not_mem fun hmem ↦ hnone ?_)
    exact ⟨off, buf, rfl, hmem.1, hmem.2, by omega⟩
  | punch off len =>
    rw [Fits] at hfit
    by_contra hnone
    refine hne (getElem?_writeAt_of_not_mem fun hmem ↦ hnone ?_)
    refine ⟨off, List.replicate len 0, rfl, hmem.1, hmem.2, ?_⟩
    rw [length_replicate] at hmem
    omega
  | mark addr length => exact absurd rfl hne

/-- What was marked, or is covered by the operation or a later one, is marked after the operation
or covered by a later one. -/
theorem isMarked_track_or_covers {dirty : DirtyTracker} {ops : List MemOp} {o : ℕ}
    (ho : o < dirty.memSize)
    (h : dirty.isMarked (o / dirty.pageSize) = true ∨ Covers (op.toMemOp :: ops) o) :
    (op.track dirty).isMarked (o / (op.track dirty).pageSize) = true ∨ Covers ops o := by
  rw [pageSize_track]
  rcases h with h | ⟨addr, length, hmem, hlo, hhi⟩
  · cases op with
    | mark addr length => exact .inl (isMarked_mark_iff.mpr (.inl h))
    | _ => exact .inl h
  rcases mem_cons.mp hmem with heq | hmem
  · cases op with
    | mark addr' length' =>
      obtain ⟨rfl, rfl⟩ := MemOp.mark.inj heq
      exact .inl (isMarked_mark_iff.mpr (.inr ⟨o, hlo, hhi, ho, rfl⟩))
    | write | punch => nomatch heq
  · exact .inr ⟨addr, length, hmem, hlo, hhi⟩

end DiskOp

/-- Operations that stay inside the image and mark what they write. -/
structure WellTracked (size : ℕ) (ops : List DiskOp) : Prop where
  fits : ∀ op ∈ ops, op.Fits size
  marked : WellMarked (ops.map DiskOp.toMemOp)

theorem wellTracked_nil (size : ℕ) : WellTracked size [] := ⟨nofun, trivial⟩

variable {ops : List DiskOp} {size : ℕ}

theorem WellTracked.tail {op : DiskOp}
    (h : WellTracked size (op :: ops)) : WellTracked size ops :=
  ⟨fun op' hop' ↦ h.fits op' (mem_cons_of_mem _ hop'), h.marked.tail⟩

variable {buf : List Byte} {addr : BitVec 64}

/-- A write or a hole, directly followed by its mark. -/
theorem WellTracked.cons_mark {op : DiskOp} {length : BitVec 64}
    {off : ℕ} (h : WellTracked size ops) (hop : op.toMemOp = .store off buf)
    (hfit : op.Fits size) (haddr : addr.toNat = off) (hlength : length.toNat = buf.length) :
    WellTracked size (op :: .mark addr length :: ops) := by
  constructor
  · intro op' hop'
    rcases mem_cons.mp hop' with rfl | hop'
    · exact hfit
    · rcases mem_cons.mp hop' with rfl | hop'
      · exact trivial
      · exact h.fits op' hop'
  · rw [map_cons, hop]
    refine ⟨fun o hlo hhi ↦ ⟨addr, length, mem_cons_self, ?_, ?_⟩, h.marked⟩
    · rw [haddr]
      exact hlo
    · rw [haddr, hlength]
      exact hhi

/-! ## The loops -/

/-- A call that fails has written nothing. -/
def Harmless (faults : List (Option ℕ)) : Prop := ∀ f ∈ faults, f = none ∨ f = some 0
deriving Decidable

variable {faults : List (Option ℕ)}

theorem Harmless.tail (h : Harmless faults) : Harmless faults.tail :=
  fun f hf ↦ h f (mem_of_mem_tail hf)

theorem Harmless.nextFault (h : Harmless faults) {n : ℕ}
    (hn : nextFault faults = some n) : n = 0 := by
  cases faults with
  | nil => nomatch hn
  | cons f faults =>
    rcases h f mem_cons_self with rfl | rfl
    · nomatch hn
    · exact (Option.some.inj hn).symm

theorem length_of_guestRead {q : Queue} {r : Ram} {len : ℕ}
    (hlen : len < 2 ^ 64) (h : q.guestRead r addr len = .ok buf) : buf.length = len := by
  obtain ⟨⟨start, stop⟩, hrange, hbuf⟩ := bind_eq_ok.mp h
  obtain ⟨⟩ := hbuf
  have hnat : (BitVec.ofNat 64 len).toNat = len := by
    rw [BitVec.toNat_ofNat, Nat.mod_eq_of_lt hlen]
  rw [length_slice]
  by_cases hzero : BitVec.ofNat 64 len = 0
  · rw [Queue.checkedRange, if_pos hzero] at hrange
    obtain ⟨⟩ := hrange
    rw [hzero] at hnat
    simpa using hnat
  · obtain ⟨-, -, hstop, hle⟩ := Queue.checkedRange_eq_ok hzero hrange
    omega

variable {sector : BitVec 64}

theorem toNat_mul_sectorSize (h : sector.toNat * blkSectorSize < 2 ^ 63) :
    (sector * BitVec.ofNat 64 blkSectorSize).toNat = sector.toNat * blkSectorSize := by
  rw [BitVec.toNat_mul, BitVec.toNat_ofNat, blkSectorSize] at *
  omega

theorem sectorOffset_of_lt (h : sector.toNat * blkSectorSize < 2 ^ 63) :
    sectorOffset sector = some (sector.toNat * blkSectorSize) := by
  have hnat := toNat_mul_sectorSize h
  have hpos : ¬(sector * BitVec.ofNat 64 blkSectorSize).toInt < 0 := by
    rw [BitVec.toInt_eq_toNat_of_lt (by omega)]
    omega
  rw [sectorOffset, if_neg hpos, hnat]

theorem sectorOffset_of_ge (h : 2 ^ 64 - 2 ^ 23 ≤ sector.toNat) : sectorOffset sector = none := by
  have hnat : 2 ^ 63 ≤ (sector * BitVec.ofNat 64 blkSectorSize).toNat := by
    rw [BitVec.toNat_mul, BitVec.toNat_ofNat, blkSectorSize]
    omega
  have hneg : (sector * BitVec.ofNat 64 blkSectorSize).toInt < 0 := by
    rw [BitVec.toInt_eq_toNat_cond]
    omega
  rw [sectorOffset, if_pos hneg]

variable {descs : List Desc}

/-- **The loop of an OUT request** that stays inside the image. -/
theorem wellTracked_outLoop {q : Queue} {r : Ram} (hsize : size < 2 ^ 63)
    (hfaults : Harmless faults)
    (hfit : sector.toNat * blkSectorSize + (descs.map fun desc ↦ desc.len.toNat).sum ≤ size) :
    WellTracked size (outLoop q r faults sector descs).ops := by
  induction descs generalizing faults sector with
  | nil => exact wellTracked_nil size
  | cons desc descs ih =>
    rw [map_cons, sum_cons] at hfit
    rw [outLoop]
    split
    · rename_i buf off hread hoff
      have hlen : buf.length = desc.len.toNat :=
        length_of_guestRead (by have := desc.len.isLt; omega) hread
      rw [sectorOffset_of_lt (by omega), Option.some.injEq] at hoff
      split
      · -- The failing call has written nothing.
        rename_i n hfault
        obtain rfl := hfaults.nextFault hfault
        refine ⟨fun op hop ↦ ?_, ?_⟩
        · obtain rfl := mem_singleton.mp hop
          exact .inl take_zero
        · refine ⟨fun o hlo hhi ↦ ?_, trivial⟩
          rw [take_zero, length_nil] at hhi
          omega
      · have hnext : (nextSector sector desc).toNat * blkSectorSize ≤
            sector.toNat * blkSectorSize + desc.len.toNat := by
          rw [nextSector, BitVec.toNat_add, BitVec.toNat_ofNat, blkSectorSize]
          omega
        have hrest := @ih _ (nextSector sector desc) hfaults.tail (by omega)
        refine hrest.cons_mark rfl (.inr ?_) ?_ ?_
        · omega
        · rw [toNat_mul_sectorSize (by omega), hoff]
        · rw [BitVec.toNat_ofNat, Nat.mod_eq_of_lt (by omega)]
    · exact wellTracked_nil size

def BlkDiscardSegment.Inside (sectors : BitVec 64) (seg : BlkDiscardSegment) : Prop :=
  seg.numSectors = 0 ∨ seg.sector.toNat + seg.numSectors.toNat ≤ sectors.toNat

theorem BlkDiscardSegment.toNat_length (seg : BlkDiscardSegment) :
    (BitVec.ofNat 64 (seg.numSectors.toNat * blkSectorSize)).toNat =
      seg.numSectors.toNat * blkSectorSize := by
  have hlt := seg.numSectors.isLt
  rw [BitVec.toNat_ofNat, blkSectorSize]
  omega

variable {segs : List BlkDiscardSegment}

/-- **The loop of a DISCARD request** whose segments lie inside the device. -/
theorem wellTracked_discardLoop {sectors : BitVec 64}
    (hsize : sectors.toNat * blkSectorSize < 2 ^ 63) (hfaults : Harmless faults)
    (hsegs : ∀ seg ∈ segs, seg.Inside sectors) :
    WellTracked (sectors.toNat * blkSectorSize) (discardLoop faults segs).ops := by
  induction segs generalizing faults with
  | nil => exact wellTracked_nil _
  | cons seg segs ih =>
    have hrest := fun {faults} hfaults ↦
      @ih faults hfaults fun seg hseg ↦ hsegs seg (mem_cons_of_mem _ hseg)
    rw [discardLoop]
    split_ifs with hne
    · exact hrest hfaults
    have hinside := (hsegs seg mem_cons_self).resolve_left hne
    have hend : seg.sector.toNat * blkSectorSize + seg.numSectors.toNat * blkSectorSize ≤
        sectors.toNat * blkSectorSize := by
      rw [← Nat.add_mul]
      exact Nat.mul_le_mul_right _ hinside
    have hsector : seg.sector.toNat * blkSectorSize < 2 ^ 63 := by omega
    dsimp only
    rw [sectorOffset_of_lt hsector, seg.toNat_length]
    dsimp only
    split
    · -- The failing call has punched nothing.
      rename_i n hfault
      obtain rfl := hfaults.nextFault hfault
      rw [Nat.zero_min]
      refine ⟨fun op hop ↦ ?_, ?_⟩
      · obtain rfl := mem_singleton.mp hop
        rw [DiskOp.Fits]
        omega
      · refine ⟨fun o hlo hhi ↦ ?_, trivial⟩
        rw [replicate_zero, length_nil] at hhi
        omega
    · refine (hrest hfaults.tail).cons_mark rfl ?_ ?_ ?_
      · exact hend
      · rw [toNat_mul_sectorSize hsector]
      · rw [seg.toNat_length, length_replicate]

/-! ## Requests -/

namespace BlockDevice

variable {d : BlockDevice} {q : Queue} {r : Ram}

theorem inside_of_parseSegments {n : ℕ}
    (h : d.parseSegments n buf = .ok segs) : ∀ seg ∈ segs, seg.Inside d.sectors := by
  induction n generalizing buf segs with
  | zero =>
    obtain ⟨⟩ := h
    nofun
  | succ n ih =>
    rw [parseSegments] at h
    generalize hseg : BlkDiscardSegment.mk (BitVec.ofNat 64 (getLE (slice buf 0 8)))
      (BitVec.ofNat 32 (getLE (slice buf 8 4)))
      (BitVec.ofNat 32 (getLE (slice buf 12 4))) = seg at h
    -- Behind the checks stands the rest of the segments.
    have hrest : ∀ {segs}, (do
        let segments ← d.parseSegments n (buf.drop blkDiscardSegmentBytes)
        return seg :: segments) = Except.ok segs →
        seg.Inside d.sectors → ∀ seg ∈ segs, seg.Inside d.sectors := by
      intro segs h hinside seg' hseg'
      obtain ⟨segments, hsegments, ⟨⟩⟩ := bind_eq_ok.mp h
      rcases mem_cons.mp hseg' with rfl | hseg'
      · exact hinside
      · exact ih hsegments seg' hseg'
    obtain ⟨-, h⟩ := unless_throw_eq_ok.mp h
    split at h
    · obtain ⟨htop, h⟩ := unless_throw_eq_ok.mp h
      refine hrest h (.inr ?_)
      simp only [BitVec.lt_def, BitVec.toNat_add, BitVec.toNat_setWidth] at htop
      omega
    · rename_i hzero
      exact hrest h (.inl (not_not.mp hzero))

theorem inside_of_checkData {len : BitVec 32}
    (h : d.checkData q r .tDiscard sector descs len = .ok segs) :
    ∀ seg ∈ segs, seg.Inside d.sectors := by
  rw [checkData] at h
  split at h
  · nomatch h
  rw [readDiscardSegments] at h
  split at h
  · nomatch h
  obtain ⟨bufs, -, hsegs⟩ := bind_eq_ok.mp h
  exact inside_of_parseSegments hsegs

variable {head : BitVec 16}

theorem requestAt_eq_some {req : BlkRequest}
    (h : d.requestAt q r head = some req) : req.dataLen = (req.dataDescs.map Desc.len).sum ∧
      d.checkData q r req.reqType req.sector req.dataDescs req.dataLen = .ok req.discards ∧
      (∃ hdrDesc, q.walkChain r head = .ok (hdrDesc :: (req.dataDescs ++ [req.statusDesc]))) ∧
      req.statusDesc.flags &&& descFlagWrite ≠ 0 ∧ 1 ≤ req.statusDesc.len.toNat ∧
      ∀ desc ∈ req.dataDescs, ∃ u, checkDirection req.reqType desc = .ok u := by
  rw [requestAt] at h
  split at h
  · nomatch h
  rename_i chain hchain
  cases hparse : d.parseRequest q r chain with
  | error e => exact absurd h (by simp [hparse, Except.toOption])
  | ok req' =>
    rw [hparse] at h
    obtain rfl : req' = req := Option.some.inj h
    unfold parseRequest at hparse
    split at hparse
    · nomatch hparse
    rename_i hdrDesc rest
    split at hparse
    · nomatch hparse
    rename_i statusDesc hlast
    -- The checks come one by one, in the order of the source.
    obtain ⟨-, hparse⟩ := unless_throw_eq_ok.mp hparse
    obtain ⟨-, hparse⟩ := unless_throw_eq_ok.mp hparse
    obtain ⟨hdr, -, hparse⟩ := bind_eq_ok.mp hparse
    obtain ⟨hflags, hparse⟩ := unless_throw_eq_ok.mp hparse
    obtain ⟨hlen, hparse⟩ := unless_throw_eq_ok.mp hparse
    obtain ⟨-, hparse⟩ := unless_throw_eq_ok.mp hparse
    obtain ⟨-, hparse⟩ := unless_throw_eq_ok.mp hparse
    obtain ⟨units, hdir, hparse⟩ := bind_eq_ok.mp hparse
    obtain ⟨discards, hcheck, ⟨⟩⟩ := bind_eq_ok.mp hparse
    have hrest : rest.dropLast ++ [statusDesc] = rest := dropLast_append_getLast? _ hlast
    refine ⟨rfl, hcheck, ⟨hdrDesc, ?_⟩, hflags, not_lt.mp hlen, fun desc hdesc ↦ ?_⟩
    · dsimp only
      rw [hrest]
      exact hchain
    · obtain ⟨u, -, hu⟩ := exists_mem_of_mapM hdir hdesc
      exact ⟨u, hu⟩

theorem toNat_sum_len (h : (descs.map fun desc ↦ desc.len.toNat).sum < 2 ^ 32) :
    (descs.map Desc.len).sum.toNat = (descs.map fun desc ↦ desc.len.toNat).sum := by
  induction descs with
  | nil => rfl
  | cons desc descs ih =>
    rw [map_cons, sum_cons] at h ⊢
    rw [map_cons, sum_cons, BitVec.toNat_add, ih (by omega), Nat.mod_eq_of_lt h]

/-- The length of a request does not wrap. -/
theorem toNat_dataLen {req : BlkRequest} (h : d.requestAt q r head = some req) :
    req.dataLen.toNat = (req.dataDescs.map fun desc ↦ desc.len.toNat).sum := by
  obtain ⟨hsum, -, ⟨hdrDesc, hchain⟩, -⟩ := requestAt_eq_some h
  have hle := Queue.sum_len_of_walkChain hchain
  rw [map_cons, map_append, sum_cons, sum_append, maxDescriptorChainBytes] at hle
  rw [hsum, toNat_sum_len (by omega)]

/-- **A request marks what it writes**, if no failing call has written anything. -/
theorem wellTracked_handleRequest (hsize : d.sectors.toNat * blkSectorSize < 2 ^ 63)
    {file : List Byte} (hfaults : Harmless faults) :
    WellTracked (d.sectors.toNat * blkSectorSize) (d.handleRequest q r file faults head).ops := by
  rw [handleRequest]
  cases hreq : d.requestAt q r head with
  | none => exact wellTracked_nil _
  | some req =>
    obtain ⟨-, hcheck, -⟩ := requestAt_eq_some hreq
    have hnat := toNat_dataLen hreq
    rw [ops_finish, perform]
    split
    · rw [ops_inLoop]
      exact wellTracked_nil _
    · rename_i htype
      rw [htype, checkData] at hcheck
      split
      · exact wellTracked_nil _
      split at hcheck
      · cases hcheck
      split at hcheck
      · cases hcheck
      rename_i haligned hbound
      simp only [BitVec.lt_def, BitVec.toNat_add, BitVec.toNat_ofNat] at hbound
      by_cases hwrap : 2 ^ 64 ≤ req.sector.toNat + req.dataLen.toNat / blkSectorSize
      -- The sum wraps only for sectors whose offset is negative: nothing is written.
      · have hnone : sectorOffset req.sector = none := by
          refine sectorOffset_of_ge ?_
          rw [blkSectorSize] at hwrap
          omega
        cases hdescs : req.dataDescs with
        | nil => exact wellTracked_nil _
        | cons desc descs =>
          rw [outLoop, hnone]
          split
          · rename_i heq
            cases heq
          · exact wellTracked_nil _
      · refine wellTracked_outLoop hsize hfaults ?_
        rw [blkSectorSize] at *
        omega
    · exact wellTracked_nil _
    · rw [ops_getID]
      exact wellTracked_nil _
    · rename_i htype
      split
      · rw [htype] at hcheck
        exact wellTracked_discardLoop hsize hfaults (inside_of_checkData hcheck)
      · exact wellTracked_nil _
    · exact wellTracked_nil _

end BlockDevice

end Gocracker
