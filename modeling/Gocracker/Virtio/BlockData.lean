import Gocracker.Virtio.BlockMarks

/-!
# The data of block requests

A request names a first sector, and its data descriptors should stand for one range of the file, in
their order. The device goes through them with a sector number: after each descriptor it adds the
number of *whole* sectors of the descriptor. So a descriptor that ends within a sector makes the
next one begin too early, at the same sector again, and the last byte of the range is not reached.

The bound of a request is checked with a sum of 64 bits, and only that of a discarded segment is
checked for having wrapped.
-/

namespace Gocracker

open Machine List BitVec

def gather (q : Queue) (r : Ram) (descs : List Desc) : List Byte :=
  descs.flatMap fun desc ↦ slice r.bytes (desc.addr.toNat - q.guestPhysBase.toNat) desc.len.toNat

def dataLength (descs : List Desc) : ℕ := (descs.map fun desc ↦ desc.len.toNat).sum

theorem gather_cons (q : Queue) (r : Ram) (desc : Desc) (descs : List Desc) :
    gather q r (desc :: descs) =
      slice r.bytes (desc.addr.toNat - q.guestPhysBase.toNat) desc.len.toNat ++
        gather q r descs := rfl

theorem dataLength_cons (desc : Desc) (descs : List Desc) :
    dataLength (desc :: descs) = desc.len.toNat + dataLength descs := rfl

/-- The buffers of two descriptors have no byte in common. -/
def Desc.Apart (d d' : Desc) : Prop :=
  d.addr.toNat + d.len.toNat ≤ d'.addr.toNat ∨ d'.addr.toNat + d'.len.toNat ≤ d.addr.toNat

/-! ## Where the sector number leads -/

/-- The bytes of the file that the descriptors get, if the first one begins at sector `n`. -/
def readBack (file : List Byte) : ℕ → List Desc → List Byte
  | _, [] => []
  | n, desc :: descs => slice file (n * blkSectorSize) desc.len.toNat ++
    readBack file (n + desc.len.toNat / blkSectorSize) descs

/-- No descriptor gets to a byte behind the first `stop` ones. -/
def Short (stop : ℕ) : ℕ → List Desc → Prop
  | _, [] => True
  | n, desc :: descs => n * blkSectorSize + desc.len.toNat ≤ stop ∧
    Short stop (n + desc.len.toNat / blkSectorSize) descs

section

variable {file file' : List Byte} {descs : List Desc} {n stop : ℕ}

theorem readBack_of_aligned (h : ∀ desc ∈ descs, 512 ∣ desc.len.toNat) :
    readBack file n descs = slice file (n * blkSectorSize) (dataLength descs) := by
  induction descs generalizing n with
  | nil => rfl
  | cons desc descs ih =>
    obtain ⟨hdesc, hdescs⟩ := forall_mem_cons.mp h
    rw [readBack, ih hdescs, dataLength_cons, slice_add, blkSectorSize, Nat.add_mul,
      Nat.div_mul_cancel hdesc]

theorem readBack_congr (h : Short stop n descs) (heq : file.take stop = file'.take stop) :
    readBack file n descs = readBack file' n descs := by
  induction descs generalizing n with
  | nil => rfl
  | cons desc descs ih =>
    have hslice (l : List Byte) : slice l (n * blkSectorSize) desc.len.toNat =
        slice (l.take stop) (n * blkSectorSize) desc.len.toNat := by
      rw [slice, slice, drop_take, take_take, min_eq_left (Nat.le_sub_of_add_le' h.1)]
    rw [readBack, readBack, ih h.2, hslice, hslice file', heq]

/-- What is less than a sector does not count. -/
theorem nextSector_le (n len : ℕ) :
    (n + len / blkSectorSize) * blkSectorSize ≤ n * blkSectorSize + len := by
  rw [Nat.add_mul]
  exact Nat.add_le_add_left (Nat.div_mul_le_self len blkSectorSize) _

theorem short_of_le (h : n * blkSectorSize + dataLength descs ≤ stop) : Short stop n descs := by
  induction descs generalizing n with
  | nil => trivial
  | cons desc descs ih =>
    rw [dataLength_cons] at h
    have hnext := nextSector_le n desc.len.toNat
    exact ⟨by omega, ih (by omega)⟩

theorem dataLength_pos (h : ¬ ∀ desc ∈ descs, 512 ∣ desc.len.toNat) : 0 < dataLength descs := by
  refine Nat.pos_of_ne_zero fun hzero ↦ h fun desc hmem ↦ ?_
  rw [sum_eq_zero_iff.mp hzero _ (mem_map_of_mem hmem)]
  exact dvd_zero 512

/-- **Whole sectors in parts that are not**: the last byte is out of reach. -/
theorem short_of_not_aligned (hwhole : 512 ∣ dataLength descs)
    (h : ¬ ∀ desc ∈ descs, 512 ∣ desc.len.toNat) :
    Short (n * blkSectorSize + dataLength descs - 1) n descs := by
  induction descs generalizing n with
  | nil => exact absurd nofun h
  | cons desc descs ih =>
    rw [dataLength_cons] at hwhole ⊢
    by_cases hdesc : 512 ∣ desc.len.toNat
    · have hrest : ¬ ∀ desc ∈ descs, 512 ∣ desc.len.toNat :=
        fun hall ↦ h (forall_mem_cons.mpr ⟨hdesc, hall⟩)
      have hpos := dataLength_pos hrest
      have hshort := @ih (n + desc.len.toNat / blkSectorSize) (by omega) hrest
      rw [Short]
      rw [blkSectorSize] at *
      refine ⟨by omega, ?_⟩
      rwa [show (n + desc.len.toNat / 512) * 512 = n * 512 + desc.len.toNat by omega,
        Nat.add_assoc] at hshort
    · rw [Short]
      refine ⟨by omega, short_of_le ?_⟩
      rw [blkSectorSize]
      omega

end

section Loops

variable {q : Queue} {r : Ram} {file : List Byte} {faults : List (Option ℕ)} {sector : BitVec 64}
  {descs : List Desc}

theorem writeAt_writeAt (dst x y : List Byte) (a : ℕ) :
    writeAt (writeAt dst a x) (a + x.length) y = writeAt dst a (x ++ y) := by
  refine ext_getElem? fun i ↦ ?_
  rw [getElem?_writeAt, getElem?_writeAt, getElem?_writeAt, Option.map_map]
  congr 1
  funext b
  grind

/-- Inside the file, the number of a sector does not wrap. -/
theorem toNat_nextSector {desc : Desc}
    (h : sector.toNat * blkSectorSize + desc.len.toNat < 2 ^ 63) :
    (nextSector sector desc).toNat = sector.toNat + desc.len.toNat / blkSectorSize := by
  rw [nextSector, toNat_add, toNat_ofNat]
  rw [blkSectorSize] at *
  omega

/-- What the other descriptors need is left behind the first one. -/
theorem nextSector_bound {desc : Desc} {n : ℕ} (hn : n < 2 ^ 63)
    (h : sector.toNat * blkSectorSize + (desc.len.toNat + dataLength descs) ≤ n) :
    (nextSector sector desc).toNat * blkSectorSize + dataLength descs ≤ n := by
  have hle := nextSector_le sector.toNat desc.len.toNat
  rw [toNat_nextSector (by omega)]
  omega

theorem eq_zero_of_ofNat {len : ℕ} (hlen : len < 2 ^ 64) (h : BitVec.ofNat 64 len = 0) :
    len = 0 := by
  have hnat : len % 2 ^ 64 = 0 := by rw [← toNat_ofNat, h]; rfl
  omega

variable {addr : BitVec 64} {buf : List Byte}

theorem guestRead_eq {len : ℕ} (hlen : len < 2 ^ 64)
    (h : q.guestRead r addr len = .ok buf) :
    buf = slice r.bytes (addr.toNat - q.guestPhysBase.toNat) len := by
  have hlength := length_of_guestRead hlen h
  obtain ⟨⟨start, stop⟩, hrange, hbuf⟩ := bind_eq_ok.mp h
  obtain ⟨⟩ := hbuf
  by_cases hzero : BitVec.ofNat 64 len = 0
  · obtain rfl := eq_zero_of_ofNat hlen hzero
    rw [eq_nil_of_length_eq_zero hlength]
    rfl
  · obtain ⟨-, rfl, rfl, -⟩ := Queue.checkedRange_eq_ok hzero hrange
    rw [toNat_ofNat, Nat.mod_eq_of_lt hlen, Nat.add_sub_cancel_left]

/-- **An OUT request writes the data of its descriptors** one behind the other, if they are whole
sectors; and nothing behind what they reach. -/
theorem overlay_outLoop (hbound : sector.toNat * blkSectorSize + dataLength descs ≤ file.length)
    (hfile : file.length < 2 ^ 63) (hok : (outLoop q r faults sector descs).status = .ok) :
    ((∀ desc ∈ descs, 512 ∣ desc.len.toNat) → overlay file (outLoop q r faults sector descs).ops =
      writeAt file (sector.toNat * blkSectorSize) (gather q r descs)) ∧
    (∀ stop, Short stop sector.toNat descs → ∀ i, stop ≤ i →
      (overlay file (outLoop q r faults sector descs).ops)[i]? = file[i]?) ∧
    (gather q r descs).length = dataLength descs := by
  induction descs generalizing faults sector file with
  | nil =>
    rw [outLoop, overlay_nil, gather, flatMap_nil, writeAt_nil]
    exact ⟨fun _ ↦ rfl, fun _ _ _ _ ↦ rfl, rfl⟩
  | cons desc descs ih =>
    rw [dataLength_cons] at hbound
    have hnext := @toNat_nextSector sector desc (by omega)
    rw [outLoop, sectorOffset_of_lt (by omega)] at hok ⊢
    cases hread : q.guestRead r desc.addr desc.len.toNat with
    | error e =>
      rw [hread] at hok
      cases hok
    | ok buf =>
      have hlen : desc.len.toNat < 2 ^ 64 := desc.len.isLt.trans (by decide)
      have hlength := length_of_guestRead hlen hread
      rw [hread] at hok
      dsimp only at hok ⊢
      cases hfault : nextFault faults with
      | some n =>
        rw [hfault] at hok
        cases hok
      | none =>
        rw [hfault] at hok
        have hwrite : extendAt 0 file (sector.toNat * blkSectorSize) buf = _ :=
          extendAt_of_le (by omega)
        have hle : (nextSector sector desc).toNat * blkSectorSize + dataLength descs ≤
            (writeAt file (sector.toNat * blkSectorSize) buf).length := by
          rw [length_writeAt]
          exact nextSector_bound hfile hbound
        obtain ⟨hwhole, hkept, hlen'⟩ := ih hle (by rwa [length_writeAt]) hok
        change (_ → overlay (extendAt 0 file _ buf) (outLoop q r faults.tail _ descs).ops = _) ∧
          (∀ stop, _ → ∀ i, _ → (overlay (extendAt 0 file _ buf) (outLoop q r faults.tail _
            descs).ops)[i]? = _) ∧ _
        rw [hwrite, gather_cons, ← guestRead_eq hlen hread, length_append, hlen', hlength,
          dataLength_cons]
        refine ⟨fun halign ↦ ?_, fun stop hshort i hi ↦ ?_, rfl⟩
        · obtain ⟨hdesc, halign⟩ := forall_mem_cons.mp halign
          have hend : (nextSector sector desc).toNat * blkSectorSize =
              sector.toNat * blkSectorSize + buf.length := by
            rw [hnext, blkSectorSize, Nat.add_mul, Nat.div_mul_cancel hdesc, hlength]
          rw [hwhole halign, hend, writeAt_writeAt]
        · rw [hkept stop (hnext ▸ hshort.2) i hi]
          exact getElem?_writeAt_of_ge (hlength ▸ hshort.1.trans hi)

/-! ## Reads -/

/-- The operations leave a range of guest addresses alone. -/
def Keeps (q : Queue) (ops : List MemOp) (a n : ℕ) : Prop :=
  n = 0 ∨ q.guestPhysBase.toNat ≤ a → ∀ m : Dma,
    slice (ops.foldl Dma.exec m).ram.bytes (a - q.guestPhysBase.toNat) n =
      slice m.ram.bytes (a - q.guestPhysBase.toNat) n

theorem Keeps.append {ops ops' : List MemOp} {a n : ℕ} (h : Keeps q ops a n)
    (h' : Keeps q ops' a n) : Keeps q (ops ++ ops') a n := by
  intro hbase m
  rw [foldl_append, h' hbase, h hbase]

/-- **What a successful `GuestWrite` does.** The buffer has the bytes then, and others are kept. -/
theorem guestWriteOps_spec {ops : List MemOp} {memLen : ℕ}
    (hlen : buf.length < 2 ^ 64) (h : q.guestWriteOps memLen addr buf = .ok ops) :
    (buf.length = 0 ∨ q.guestPhysBase.toNat ≤ addr.toNat) ∧
    (∀ m : Dma, m.ram.bytes.length = memLen → slice (ops.foldl Dma.exec m).ram.bytes
      (addr.toNat - q.guestPhysBase.toNat) buf.length = buf) ∧
    ∀ a n, addr.toNat + buf.length ≤ a ∨ a + n ≤ addr.toNat → Keeps q ops a n := by
  obtain ⟨start, stop, hrange, rfl⟩ := Queue.guestWriteOps_eq_ok h
  by_cases hzero : BitVec.ofNat 64 buf.length = 0
  · obtain rfl : buf = [] := eq_nil_of_length_eq_zero (eq_zero_of_ofNat hlen hzero)
    refine ⟨.inl rfl, fun m _ ↦ rfl, fun a n _ _ m ↦ ?_⟩
    change slice (writeAt m.ram.bytes start _) _ n = _
    rw [take_nil, writeAt_nil]
  · obtain ⟨hbase, rfl, rfl, hle⟩ := Queue.checkedRange_eq_ok hzero hrange
    rw [toNat_ofNat, Nat.mod_eq_of_lt hlen] at hle ⊢
    rw [Nat.add_sub_cancel_left, take_length]
    have hslice (m : Dma) (a n i : ℕ) (hi : ¬ i < n) : (slice m.ram.bytes a n)[i]? = none :=
      List.getElem?_eq_none (by rw [length_slice]; omega)
    refine ⟨.inr hbase, fun m hm ↦ ext_getElem? fun i ↦ ?_,
      fun a n hapart hbase' m ↦ ext_getElem? fun i ↦ ?_⟩
    · by_cases hi : i < buf.length
      · rw [getElem?_slice hi]
        refine (getElem?_writeAt_of_mem (by omega) (by omega) (by omega)).trans ?_
        rw [Nat.add_sub_cancel_left]
      · rw [hslice _ _ _ _ hi, List.getElem?_eq_none (by omega)]
    · by_cases hi : i < n
      · rw [getElem?_slice hi, getElem?_slice hi]
        exact getElem?_writeAt_of_not_mem (by omega)
      · rw [hslice _ _ _ _ hi, hslice _ _ _ _ hi]

/-- **An IN request reads into its descriptors** what the sector number leads to. -/
theorem inLoop_spec {memLen : ℕ} {written : BitVec 32}
    (hbound : sector.toNat * blkSectorSize + dataLength descs ≤ file.length)
    (hfile : file.length < 2 ^ 63)
    (hok : (inLoop q memLen file faults sector descs written).status = .ok) :
    (∀ desc ∈ descs, desc.len.toNat = 0 ∨ q.guestPhysBase.toNat ≤ desc.addr.toNat) ∧
    (∀ a n, (∀ desc ∈ descs, desc.addr.toNat + desc.len.toNat ≤ a ∨ a + n ≤ desc.addr.toNat) →
      Keeps q (inLoop q memLen file faults sector descs written).stores a n) ∧
    (descs.Pairwise Desc.Apart → ∀ m : Dma, m.ram.bytes.length = memLen →
      gather q ((inLoop q memLen file faults sector descs written).stores.foldl Dma.exec m).ram
        descs = readBack file sector.toNat descs) := by
  induction descs generalizing faults sector written with
  | nil => exact ⟨by simp, fun _ _ _ _ _ ↦ rfl, fun _ _ _ ↦ rfl⟩
  | cons desc descs ih =>
    rw [dataLength_cons] at hbound
    have hnext := @toNat_nextSector sector desc (by omega)
    have hlength : (slice file (sector.toNat * blkSectorSize) desc.len.toNat).length =
        desc.len.toNat := by
      rw [length_slice]
      omega
    rw [inLoop, sectorOffset_of_lt (by omega)] at hok ⊢
    cases hfault : nextFault faults with
    | some n =>
      rw [hfault] at hok
      cases hok
    | none =>
      rw [hfault] at hok
      dsimp only at hok ⊢
      rw [if_neg (not_not.mpr hlength)] at hok ⊢
      cases hwrite : q.guestWriteOps memLen desc.addr
          (slice file (sector.toNat * blkSectorSize) desc.len.toNat) with
      | error e =>
        rw [hwrite] at hok
        cases hok
      | ok stores =>
        rw [hwrite] at hok
        obtain ⟨hbase, hbuf, hkeeps⟩ := guestWriteOps_spec
          (by rw [hlength]; exact desc.len.isLt.trans (by decide)) hwrite
        obtain ⟨hbases, hkeeps', hgather⟩ := ih (nextSector_bound hfile hbound) hok
        rw [hlength] at hbase hbuf hkeeps
        dsimp only
        refine ⟨forall_mem_cons.mpr ⟨hbase, hbases⟩, fun a n hapart ↦ ?_, fun hapart m hm ↦ ?_⟩
        · obtain ⟨hfirst, hrest⟩ := forall_mem_cons.mp hapart
          exact (hkeeps a n hfirst).append (hkeeps' a n hrest)
        obtain ⟨hfirst, hrest⟩ := pairwise_cons.mp hapart
        have hm' : (stores.foldl Dma.exec m).ram.bytes.length = memLen := by
          obtain ⟨start, stop, -, rfl⟩ := Queue.guestWriteOps_eq_ok hwrite
          exact (Dma.length_exec m _).trans hm
        have hkept := hkeeps' desc.addr.toNat desc.len.toNat
          (fun desc' hmem ↦ (hfirst desc' hmem).symm) hbase (stores.foldl Dma.exec m)
        rw [foldl_append, gather_cons, hkept, hbuf m hm, hgather hrest _ hm', hnext, readBack]

/-- Whether an IN request succeeds depends on the length of the file, not on what is in it. -/
theorem status_inLoop {file' : List Byte} {memLen : ℕ} {written : BitVec 32}
    (hlen : file.length = file'.length) :
    (inLoop q memLen file faults sector descs written).status =
      (inLoop q memLen file' faults sector descs written).status := by
  induction descs generalizing faults sector written with
  | nil => rfl
  | cons desc descs ih =>
    have hslice (off : ℕ) : (slice file off desc.len.toNat).length =
        (slice file' off desc.len.toNat).length := by
      rw [length_slice, length_slice, hlen]
    rw [inLoop, inLoop]
    split
    · rename_i off _ _
      dsimp only
      rw [hslice off]
      split
      · rfl
      · rw [Queue.guestWriteOps, Queue.guestWriteOps, hslice off]
        cases q.checkedRange memLen desc.addr (BitVec.ofNat 64 (slice file' off _).length) with
        | error e => rfl
        | ok range => exact ih
    · rfl

end Loops

namespace BlockDevice

variable {d : BlockDevice} {q : Queue} {file : List Byte} {faults : List (Option ℕ)}
  {head : BitVec 16} {req : BlkRequest}

/-- **The data of a request.** -/
structure Faithful (d : BlockDevice) (q : Queue) (m : Dma) (file : List Byte)
    (faults : List (Option ℕ)) (head : BitVec 16) (req : BlkRequest) : Prop where
  /-- The buffers have the bytes of the file, if no two of them overlap. -/
  reads : req.reqType = .tIn → req.dataDescs.Pairwise Desc.Apart →
    (∀ desc ∈ req.dataDescs, desc.Apart { req.statusDesc with len := 1 }) →
    gather q ((d.handleRequest q m.ram file faults head).stores.foldl Dma.exec m).ram
      req.dataDescs = slice file (req.sector.toNat * blkSectorSize) (dataLength req.dataDescs)
  /-- The file has the bytes of the buffers, and is otherwise as before. -/
  writes : req.reqType = .tOut → overlay file (d.handleRequest q m.ram file faults head).ops =
    writeAt file (req.sector.toNat * blkSectorSize) (gather q m.ram req.dataDescs)

section

variable {m : Dma} (hreq : d.requestAt q m.ram head = some req)
include hreq

theorem status_handleRequest : (d.handleRequest q m.ram file faults head).status =
    (d.perform q m.ram file faults req).status := by
  rw [handleRequest, hreq]
  dsimp only [finish]
  split <;> rfl

theorem status_handleRequest_congr {file' : List Byte} (hlen : file.length = file'.length)
    (hio : req.reqType = .tIn ∨ req.reqType = .tOut) :
    (d.handleRequest q m.ram file faults head).status =
      (d.handleRequest q m.ram file' faults head).status := by
  rw [status_handleRequest hreq, status_handleRequest hreq, perform, perform]
  rcases hio with htype | htype
  · rw [htype]
    exact status_inLoop hlen
  · rw [htype]

variable (hbound : req.sector.toNat * blkSectorSize + dataLength req.dataDescs ≤ file.length)
  (hfile : file.length < 2 ^ 63) (hok : (d.handleRequest q m.ram file faults head).status = .ok)
include hbound hfile hok

theorem gather_handleRequest (htype : req.reqType = .tIn)
    (hpairwise : req.dataDescs.Pairwise Desc.Apart)
    (hlast : ∀ desc ∈ req.dataDescs, desc.Apart { req.statusDesc with len := 1 }) :
    gather q ((d.handleRequest q m.ram file faults head).stores.foldl Dma.exec m).ram
      req.dataDescs = readBack file req.sector.toNat req.dataDescs := by
  rw [status_handleRequest hreq, perform, htype] at hok
  obtain ⟨hbases, -, hgather⟩ := inLoop_spec hbound hfile hok
  rw [handleRequest, hreq]
  dsimp only [finish]
  rw [perform, htype]
  split
  · exact hgather hpairwise m rfl
  rename_i stores hstores
  obtain ⟨-, -, hkeeps⟩ := guestWriteOps_spec (Nat.one_lt_two_pow (by decide)) hstores
  rw [foldl_append, ← hgather hpairwise m rfl]
  exact flatMap_congr fun desc hdesc ↦ hkeeps _ _ (hlast desc hdesc).symm (hbases desc hdesc) _

theorem overlay_handleRequest (htype : req.reqType = .tOut) :
    ((∀ desc ∈ req.dataDescs, 512 ∣ desc.len.toNat) →
      overlay file (d.handleRequest q m.ram file faults head).ops =
        writeAt file (req.sector.toNat * blkSectorSize) (gather q m.ram req.dataDescs)) ∧
    (∀ stop, Short stop req.sector.toNat req.dataDescs → ∀ i, stop ≤ i →
      (overlay file (d.handleRequest q m.ram file faults head).ops)[i]? = file[i]?) ∧
    (gather q m.ram req.dataDescs).length = dataLength req.dataDescs := by
  rw [status_handleRequest hreq, perform, htype] at hok
  rw [handleRequest, hreq]
  rw [ops_finish, perform, htype]
  dsimp only at hok ⊢
  split_ifs at hok ⊢
  exact overlay_outLoop hbound hfile hok

end

theorem dvd_dataLength {r : Ram} (hreq : d.requestAt q r head = some req)
    (hio : req.reqType = .tIn ∨ req.reqType = .tOut) : 512 ∣ dataLength req.dataDescs := by
  obtain ⟨-, hcheck, -⟩ := requestAt_eq_some hreq
  rw [dataLength, ← toNat_dataLen hreq]
  rcases hio with htype | htype
  all_goals
    rw [htype, checkData] at hcheck
    split_ifs at hcheck with haligned
    exact Nat.dvd_of_mod_eq_zero (not_not.mp haligned)

/-- **Data arrives where it should** for every content of the file exactly if every descriptor of
the request is whole sectors. Buffers that overlap cannot all have what was read. -/
theorem faithful_iff_aligned {m : Dma} (hreq : d.requestAt q m.ram head = some req)
    (hio : req.reqType = .tIn ∨ req.reqType = .tOut)
    (hapart : req.reqType = .tIn → req.dataDescs.Pairwise Desc.Apart ∧
      ∀ desc ∈ req.dataDescs, desc.Apart { req.statusDesc with len := 1 })
    (hbound : req.sector.toNat * blkSectorSize + dataLength req.dataDescs ≤ file.length)
    (hfile : file.length < 2 ^ 63)
    (hok : (d.handleRequest q m.ram file faults head).status = .ok) :
    (∀ file' : List Byte, file'.length = file.length → Faithful d q m file' faults head req) ↔
      ∀ desc ∈ req.dataDescs, 512 ∣ desc.len.toNat := by
  have hok' {file' : List Byte} (hlen : file'.length = file.length) :
      (d.handleRequest q m.ram file' faults head).status = .ok :=
    (status_handleRequest_congr hreq hlen hio).trans hok
  refine ⟨fun hfaithful ↦ by_contra fun hnot ↦ ?_, fun halign file' hlen ↦ ?_⟩
  · have hpos := dataLength_pos hnot
    have hshort := @short_of_not_aligned _ req.sector.toNat (dvd_dataLength hreq hio) hnot
    -- what the request does with the last byte does not depend on what that byte is
    obtain ⟨last, hlast⟩ : ∃ last : Option Byte, ∀ b : Byte, some b = last := by
      let stop := req.sector.toNat * blkSectorSize + dataLength req.dataDescs - 1
      have hstop : req.sector.toNat * blkSectorSize + (dataLength req.dataDescs - 1) = stop :=
        (Nat.add_sub_assoc hpos _).symm
      have hget (b : Byte) : (file.set stop b)[stop]? = some b :=
        getElem?_set_self (by omega)
      have hlen (b : Byte) : (file.set stop b).length = file.length := length_set
      rcases hio with htype | htype
      · refine ⟨(readBack file req.sector.toNat req.dataDescs)[dataLength req.dataDescs - 1]?,
          fun b ↦ ?_⟩
        obtain ⟨hpairwise, hstatus⟩ := hapart htype
        have hread := (hfaithful _ (hlen b)).reads htype hpairwise hstatus
        rw [gather_handleRequest hreq (by rwa [hlen]) (by rwa [hlen]) (hok' (hlen b)) htype
          hpairwise hstatus] at hread
        rw [← readBack_congr hshort (take_set_of_le le_rfl), hread, getElem?_slice (by omega),
          hstop, hget]
      · refine ⟨(gather q m.ram req.dataDescs)[dataLength req.dataDescs - 1]?, fun b ↦ ?_⟩
        obtain ⟨-, hkept, hlength⟩ := overlay_handleRequest hreq (by rwa [hlen]) (by rwa [hlen])
          (hok' (hlen b)) htype
        have hsame := hkept _ hshort stop le_rfl
        rw [(hfaithful _ (hlen b)).writes htype, getElem?_writeAt_of_mem (by rw [hlen]; omega)
          (by omega) (by omega), hget, ← hstop, Nat.add_sub_cancel_left] at hsame
        exact hsame.symm
    exact absurd ((hlast 0).trans (hlast 1).symm) (by decide)
  · rw [← hlen] at hbound hfile
    refine ⟨fun htype hpairwise hstatus ↦ ?_, fun htype ↦ ?_⟩
    · rw [gather_handleRequest hreq hbound hfile (hok' hlen) htype hpairwise hstatus,
        readBack_of_aligned halign]
    · exact (overlay_handleRequest hreq hbound hfile (hok' hlen) htype).1 halign

end BlockDevice

/-! ## Whole and half sectors -/

def sectorDisk : BlockDevice := ⟨false, false, 1⟩

/-- The memory of a guest that asks for 256 sevens and 256 eights to be written to sector 0: four
descriptors, the header at 64, the status at 80 and the data from 96 on. -/
def halves : Dma := .fresh 4096 <| .mk
  (putLE 8 64 ++ putLE 4 16 ++ putLE 2 1 ++ putLE 2 1 ++
  putLE 8 96 ++ putLE 4 256 ++ putLE 2 1 ++ putLE 2 2 ++
  putLE 8 352 ++ putLE 4 256 ++ putLE 2 1 ++ putLE 2 3 ++
  putLE 8 80 ++ putLE 4 1 ++ putLE 2 2 ++ putLE 2 0 ++
  putLE 4 1 ++ putLE 4 0 ++ putLE 8 0 ++ List.replicate 16 0 ++
  List.replicate 256 7 ++ List.replicate 256 8) (by decide +kernel)

def whole : Dma := .fresh 4096 ⟨outBytes, length_outBytes⟩

theorem isSome_requestAt_whole : (sectorDisk.requestAt (newQueue 4) whole.ram 0).isSome := by
  decide +kernel

theorem isSome_requestAt_halves : (sectorDisk.requestAt (newQueue 4) halves.ram 0).isSome := by
  decide +kernel

theorem faithful_wholeSector : ∃ req : BlkRequest,
    sectorDisk.requestAt (newQueue 4) whole.ram 0 = some req ∧
    ∀ file : List Byte, file.length = oneSector.length →
      BlockDevice.Faithful sectorDisk (newQueue 4) whole file [] 0 req := by
  have hreq := (Option.some_get isSome_requestAt_whole).symm
  exact ⟨_, hreq, (BlockDevice.faithful_iff_aligned hreq (by decide +kernel)
    (fun htype ↦ absurd htype (by decide +kernel)) (by decide +kernel) (by decide +kernel)
    (by decide +kernel)).mpr (by decide +kernel)⟩

/-- Both halves are written to the first half of the sector. -/
theorem not_faithful_halfSectors : ∃ req : BlkRequest,
    sectorDisk.requestAt (newQueue 4) halves.ram 0 = some req ∧
    req.sector.toNat * blkSectorSize + dataLength req.dataDescs ≤ oneSector.length ∧
    512 ∣ dataLength req.dataDescs ∧
    (sectorDisk.handleRequest (newQueue 4) halves.ram oneSector [] 0).status = .ok ∧
    ¬ BlockDevice.Faithful sectorDisk (newQueue 4) halves oneSector [] 0 req := by
  refine ⟨_, (Option.some_get isSome_requestAt_halves).symm, by decide +kernel, by decide +kernel,
    by decide +kernel, fun h ↦ ?_⟩
  exact absurd (h.writes (by decide +kernel)) (by decide +kernel)

/-! ## Requests inside the device -/

/-- The offset and the length of a segment in bytes, as they are passed on: signed integers. -/
def BlkDiscardSegment.range (seg : BlkDiscardSegment) : ℤ × ℤ :=
  ((seg.sector * BitVec.ofNat 64 blkSectorSize).toInt,
    (BitVec.ofNat 64 (seg.numSectors.toNat * blkSectorSize)).toInt)

namespace BlockDevice

/-- **A request is about whole sectors of the device**, as integers go. -/
structure Bounded (d : BlockDevice) (req : BlkRequest) : Prop where
  data : req.reqType = .tIn ∨ req.reqType = .tOut → 512 ∣ dataLength req.dataDescs ∧
    req.sector.toNat + dataLength req.dataDescs / blkSectorSize ≤ d.sectors.toNat
  discards : req.reqType = .tDiscard → ∀ seg ∈ req.discards,
    seg.sector.toNat + seg.numSectors.toNat ≤ d.sectors.toNat ∧
      seg.range = (↑(seg.sector.toNat * blkSectorSize), ↑(seg.numSectors.toNat * blkSectorSize)) ∧
      seg.range.1 < 2 ^ 63 ∧ seg.range.2 < 2 ^ 63

/-- The sum of sectors does not wrap, and an empty segment begins inside the device. -/
structure Sums (d : BlockDevice) (req : BlkRequest) : Prop where
  data : req.reqType = .tIn ∨ req.reqType = .tOut →
    req.sector.toNat + dataLength req.dataDescs / blkSectorSize < 2 ^ 64
  discards : req.reqType = .tDiscard → ∀ seg ∈ req.discards, seg.numSectors = 0 →
    seg.sector.toNat ≤ d.sectors.toNat

/-- **Accepted requests stay inside the device**, whose size in bytes is a signed integer, exactly
if no sum wraps. -/
theorem bounded_iff_sums {d : BlockDevice} {q : Queue} {r : Ram} {head : BitVec 16}
    {req : BlkRequest} (hsize : d.sectors.toNat * blkSectorSize < 2 ^ 63)
    (hreq : d.requestAt q r head = some req) : d.Bounded req ↔ d.Sums req := by
  refine ⟨fun h ↦ ⟨fun htype ↦ (h.data htype).2.trans_lt d.sectors.isLt,
    fun htype seg hseg _ ↦ (Nat.le_add_right _ _).trans (h.discards htype seg hseg).1⟩,
    fun hsums ↦ ⟨fun htype ↦ ⟨dvd_dataLength hreq htype, ?_⟩, fun htype seg hseg ↦ ?_⟩⟩
  · obtain ⟨-, hcheck, -⟩ := requestAt_eq_some hreq
    have hlt := hsums.data htype
    have hle : ¬ d.sectors < req.sector + BitVec.ofNat 64 (req.dataLen.toNat / blkSectorSize) := by
      rcases htype with htype | htype
      all_goals
        rw [htype, checkData] at hcheck
        split_ifs at hcheck with _ hbound
        exact hbound
    rw [lt_def, toNat_add, toNat_ofNat, toNat_dataLen hreq, ← dataLength] at hle
    omega
  · obtain ⟨-, hcheck, -⟩ := requestAt_eq_some hreq
    rw [htype] at hcheck
    have hinside : seg.sector.toNat + seg.numSectors.toNat ≤ d.sectors.toNat := by
      rcases inside_of_checkData hcheck seg hseg with hzero | hle
      · rw [hzero]
        exact hsums.discards htype seg hseg hzero
      · exact hle
    have hend : seg.sector.toNat * blkSectorSize + seg.numSectors.toNat * blkSectorSize ≤
        d.sectors.toNat * blkSectorSize := by
      rw [← Nat.add_mul]
      exact Nat.mul_le_mul_right _ hinside
    have hrange : seg.range =
        (↑(seg.sector.toNat * blkSectorSize), ↑(seg.numSectors.toNat * blkSectorSize)) := by
      have hoff : (seg.sector * _).toNat = _ := toNat_mul_sectorSize (by omega)
      rw [BlkDiscardSegment.range, toInt_eq_toNat_of_lt (by rw [hoff]; omega), hoff,
        toInt_eq_toNat_of_lt (by rw [seg.toNat_length]; omega), seg.toNat_length]
    rw [hrange]
    refine ⟨hinside, rfl, ?_, ?_⟩ <;> omega

end BlockDevice

/-- The request to write 512 bytes, but to the last of all sectors. -/
def lastSector : Ram :=
  ⟨outBytes.take 72 ++ putLE 8 (2 ^ 64 - 1) ++ outBytes.drop 80, by decide +kernel⟩

theorem isSome_requestAt_lastSector : (sectorDisk.requestAt (newQueue 4) lastSector 0).isSome := by
  decide +kernel

theorem bounded_wholeSector : ∃ req : BlkRequest,
    sectorDisk.requestAt (newQueue 4) whole.ram 0 = some req ∧ sectorDisk.Bounded req := by
  have hreq := (Option.some_get isSome_requestAt_whole).symm
  exact ⟨_, hreq, (BlockDevice.bounded_iff_sums (by decide) hreq).mpr
    ⟨by decide +kernel, by decide +kernel⟩⟩

/-- The sector behind the last one is 0, and the device has one. -/
theorem not_bounded_lastSector : ∃ req : BlkRequest,
    sectorDisk.requestAt (newQueue 4) lastSector 0 = some req ∧ ¬ sectorDisk.Bounded req := by
  refine ⟨_, (Option.some_get isSome_requestAt_lastSector).symm, fun h ↦ ?_⟩
  exact absurd (h.data (by decide +kernel)).2 (by decide +kernel)

end Gocracker
