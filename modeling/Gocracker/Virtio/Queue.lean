import Gocracker.Machine.Bytes
import Gocracker.Machine.Fallible
import Gocracker.Machine.LittleEndian
import Gocracker.Virtio.DirtyTracker

/-!
# Guest RAM and virtqueues

A virtqueue lives in guest RAM: the driver publishes descriptor heads in the available ring, the
device walks each chain, moves data and returns the head through the used ring. The queue's own
fields are addresses in the guest-physical space, and `guestPhysBase` is the guest-physical address
of the first byte of RAM: `0` on x86, `0x80000000` on ARM64.

## Two address spaces

`checkedRange` and `off` translate a guest-physical address to an offset in RAM, and every load and
store below goes through that translation. The dirty tracker does not: `markDirty` hands it the
guest-physical address it was given.

## A call as a list of memory operations

What a successful `GuestWrite` or `PushUsed` does to memory is a list of `MemOp`s, stores first and
marks after them, in the order of the source. A call run to its end folds that list; a model in
which other parties act between two of its operations runs the same list one operation at a time.

## The table in memory

What a chain should be is stated on the bytes of RAM: entry `idx` of the descriptor table is the
sixteen bytes at `descAddr + 16 * idx`. That `readDesc` reads these bytes is a theorem.
-/

namespace Gocracker

open Machine BitVec

abbrev Byte := BitVec 8

/-- Guest RAM. Its length is the length of a Go slice. -/
structure Ram where
  bytes : List Byte
  length_lt : bytes.length < 2 ^ 63

namespace Ram

variable (r : Ram) (off : ℕ) (buf : List Byte)

/-- Copy `buf` into RAM from offset `off` on. -/
def store : Ram where
  bytes := writeAt r.bytes off buf
  length_lt := by rw [length_writeAt]; exact r.length_lt

def load (r : Ram) (off len : ℕ) : ℕ := getLE (slice r.bytes off len)

@[simp] theorem length_store :
    (r.store off buf).bytes.length = r.bytes.length := length_writeAt _ _ _

end Ram

/-! ## Errors -/

/-- The ways a queue operation fails. -/
inductive QueueError where
  | invalidSize (size : ℕ)
  | belowBase (addr base : ℕ)
  | overflow (addr len : ℕ)
  | outOfBounds (addr len mem : ℕ)
  | indexOutOfBounds (idx size : ℕ)
  | headOutOfBounds (head size : ℕ)
  | nextOutOfBounds (next size : ℕ)
  | cycle (idx : ℕ)
  | indirect
  | descTooLong (len : ℕ)
  | chainTooLong (total : ℕ)
  | tooManyEntries
  deriving DecidableEq

def maxQueueSize : ℕ := 256
def maxDescriptorChainLength : ℕ := maxQueueSize
def maxDescriptorSizeBytes : ℕ := 16 * 2 ^ 20
def maxDescriptorChainBytes : ℕ := 64 * 2 ^ 20

def QueueError.message : QueueError → String
  | .invalidSize size => s!"invalid queue size {size}"
  | .belowBase addr base => s!"guest memory access below base: addr={addr} base={base}"
  | .overflow addr len => s!"guest memory access overflow: addr={addr} len={len}"
  | .outOfBounds addr len mem =>
    s!"guest memory access out of bounds: addr={addr} len={len} mem={mem}"
  | .indexOutOfBounds idx size => s!"descriptor index {idx} out of bounds for queue size {size}"
  | .headOutOfBounds head size => s!"descriptor head {head} out of bounds for queue size {size}"
  | .nextOutOfBounds next size =>
    s!"descriptor next index {next} out of bounds for queue size {size}"
  | .cycle idx => s!"descriptor chain cycle detected at index {idx}"
  | .indirect => "indirect descriptors are not supported"
  | .descTooLong len => s!"descriptor length {len} exceeds limit {maxDescriptorSizeBytes}"
  | .chainTooLong total =>
    s!"descriptor chain length {total} exceeds limit {maxDescriptorChainBytes}"
  | .tooManyEntries => s!"descriptor chain exceeds {maxDescriptorChainLength} entries"

/-! ## The queue -/

/-- A virtqueue. Guest RAM and the tracker are shared and passed separately. -/
@[ext] structure Queue where
  size : BitVec 32
  ready : Bool
  lastAvail : BitVec 16
  descAddr : BitVec 64
  driverAddr : BitVec 64
  deviceAddr : BitVec 64
  guestPhysBase : BitVec 64
  deriving DecidableEq

/-- A fresh queue of the given size. -/
def newQueue (size : BitVec 32) : Queue := ⟨size, false, 0, 0, 0, 0, 0⟩

/-- Set the guest-physical address of the first byte of RAM. -/
def Queue.setGuestPhysBase (q : Queue) (base : BitVec 64) : Queue :=
  { q with guestPhysBase := base }

/-- A descriptor of 16 bytes. -/
structure Desc where
  addr : BitVec 64
  len : BitVec 32
  flags : BitVec 16
  next : BitVec 16
  deriving DecidableEq

/-- The available ring, with as many entries as the queue has. -/
structure AvailRing where
  flags : BitVec 16
  idx : BitVec 16
  ring : List (BitVec 16)

def descFlagNext : BitVec 16 := 1
def descFlagWrite : BitVec 16 := 2
def descFlagIndirect : BitVec 16 := 4

/-- One step of a device's access to guest memory: a store at an offset of RAM, or a mark in the
dirty tracker for a range of addresses. -/
inductive MemOp where
  | store (off : ℕ) (buf : List Byte)
  | mark (addr length : BitVec 64)

namespace Queue

variable (q : Queue)

/-- Translate a guest-physical address to an offset of RAM. -/
def off (gpa : BitVec 64) : BitVec 64 := gpa - q.guestPhysBase

def normalizedSize : Except QueueError (BitVec 16) :=
  if q.size = 0 ∨ maxQueueSize < q.size.toNat then .error (.invalidSize q.size.toNat)
  else .ok (q.size.setWidth 16)

/-- The start and end, as offsets of a RAM of `memLen` bytes, of a guest-physical range. -/
def checkedRange (memLen : ℕ) (addr length : BitVec 64) : Except QueueError (ℕ × ℕ) :=
  if length = 0 then .ok (0, 0)
  else if addr < q.guestPhysBase then .error (.belowBase addr.toNat q.guestPhysBase.toNat)
  else
    let off := addr - q.guestPhysBase
    let stop := off + length
    if stop < off then .error (.overflow addr.toNat length.toNat)
    else if memLen < stop.toNat then .error (.outOfBounds addr.toNat length.toNat memLen)
    else .ok (off.toNat, stop.toNat)

variable (r : Ram)

/-- The available ring as it stands in guest RAM. -/
def readAvail : Except QueueError AvailRing := do
  let size ← q.normalizedSize
  let gpa := q.driverAddr
  let _ ← q.checkedRange r.bytes.length gpa (4 + size.setWidth 64 * 2)
  let o := (q.off gpa).toNat
  return {
    flags := BitVec.ofNat 16 (r.load o 2)
    idx := BitVec.ofNat 16 (r.load (o + 2) 2)
    ring := (List.range size.toNat).map fun i ↦ BitVec.ofNat 16 (r.load (o + 4 + i * 2) 2) }

/-- The head that the available ring holds for the queue's next entry. -/
def nextHead (a : AvailRing) : BitVec 16 :=
  a.ring.getD (q.lastAvail % q.size.setWidth 16).toNat 0

def readDesc (idx : BitVec 16) : Except QueueError Desc := do
  let size ← q.normalizedSize
  if size ≤ idx then throw (.indexOutOfBounds idx.toNat size.toNat)
  let gpa := q.descAddr + idx.setWidth 64 * 16
  let _ ← q.checkedRange r.bytes.length gpa 16
  let o := (q.off gpa).toNat
  return {
    addr := BitVec.ofNat 64 (r.load o 8)
    len := BitVec.ofNat 32 (r.load (o + 8) 4)
    flags := BitVec.ofNat 16 (r.load (o + 12) 2)
    next := BitVec.ofNat 16 (r.load (o + 14) 2) }

/-- The loop of `walkChain`. The indices in `seen` are distinct and below `size`, so `size + 1`
iterations end it; the fuel counts them. -/
def walkFrom (r : Ram) (size : BitVec 16) :
    ℕ → BitVec 16 → List (BitVec 16) → ℕ → List Desc → Except QueueError (List Desc)
  | 0, idx, _, _, _ => .error (.cycle idx.toNat)
  | fuel + 1, idx, seen, total, chain => do
    if idx ∈ seen then throw (.cycle idx.toNat)
    let d ← q.readDesc r idx
    if d.flags &&& descFlagIndirect ≠ 0 then throw .indirect
    if maxDescriptorSizeBytes < d.len.toNat then throw (.descTooLong d.len.toNat)
    let total := total + d.len.toNat
    if maxDescriptorChainBytes < total then throw (.chainTooLong total)
    let chain := chain ++ [d]
    if maxDescriptorChainLength < chain.length then throw .tooManyEntries
    if d.flags &&& descFlagNext = 0 then return chain
    if size ≤ d.next then throw (.nextOutOfBounds d.next.toNat size.toNat)
    walkFrom r size fuel d.next (idx :: seen) total chain

/-- All descriptors of the chain that starts at `head`. -/
def walkChain (head : BitVec 16) : Except QueueError (List Desc) := do
  let size ← q.normalizedSize
  if size ≤ head then throw (.headOutOfBounds head.toNat size.toNat)
  q.walkFrom r size (size.toNat + 1) head [] 0 []

def readUsedIdx : Except QueueError (BitVec 16) := do
  let _ ← q.checkedRange r.bytes.length (q.deviceAddr + 2) 2
  return BitVec.ofNat 16 (r.load (q.off (q.deviceAddr + 2)).toNat 2)

/-- The guest-physical address of the used-ring entry for the used index `used`. -/
def usedEntry (used : BitVec 16) : BitVec 64 :=
  q.deviceAddr + 4 + (used % q.size.setWidth 16).setWidth 64 * 8

/-! ### Reads and writes of guest memory -/

def guestRead (addr : BitVec 64) (len : ℕ) : Except QueueError (List Byte) := do
  let (start, stop) ← q.checkedRange r.bytes.length addr (BitVec.ofNat 64 len)
  return slice r.bytes start (stop - start)

/-- The memory operations of `GuestWrite`: copy, then mark the guest-physical range. -/
def guestWriteOps (memLen : ℕ) (addr : BitVec 64) (buf : List Byte) :
    Except QueueError (List MemOp) := do
  let (start, stop) ← q.checkedRange memLen addr (BitVec.ofNat 64 buf.length)
  return [.store start (buf.take (stop - start)), .mark addr (BitVec.ofNat 64 buf.length)]

/-- The memory operations of `PushUsed`: the entry, then the index, then the two marks. -/
def pushUsedOps (id written : BitVec 32) : Except QueueError (List MemOp) := do
  let _ ← q.normalizedSize
  let used ← q.readUsedIdx r
  let entryGPA := q.usedEntry used
  let _ ← q.checkedRange r.bytes.length entryGPA 8
  let _ ← q.checkedRange r.bytes.length (q.deviceAddr + 2) 2
  let entryOff := (q.off entryGPA).toNat
  let idxOff := (q.off (q.deviceAddr + 2)).toNat
  return [.store entryOff (putLE 4 id.toNat),
    .store (entryOff + 4) (putLE 4 written.toNat),
    .store idxOff (putLE 2 (used + 1).toNat),
    .mark entryGPA 8,
    .mark (q.deviceAddr + 2) 2]

/-! ### What a checked range and a call are -/

variable {q} {memLen : ℕ} {addr length : BitVec 64} {r : Ram} {ops : List MemOp}

theorem checkedRange_eq_ok {start stop : ℕ} (hpos : length ≠ 0)
    (h : q.checkedRange memLen addr length = .ok (start, stop)) :
    q.guestPhysBase.toNat ≤ addr.toNat ∧ start = addr.toNat - q.guestPhysBase.toNat ∧
      stop = start + length.toNat ∧ stop ≤ memLen := by
  rw [checkedRange, if_neg hpos] at h
  simp only [lt_def, toNat_add, toNat_sub] at h
  split at h
  · nomatch h
  split at h
  · nomatch h
  split at h
  · nomatch h
  obtain ⟨⟩ := h
  omega

theorem checkedRange_of_le (h : q.guestPhysBase.toNat ≤ addr.toNat)
    (hle : addr.toNat - q.guestPhysBase.toNat + length.toNat ≤ memLen) (hmem : memLen < 2 ^ 63) :
    ∃ range, q.checkedRange memLen addr length = .ok range := by
  rw [checkedRange]
  split
  · exact ⟨_, rfl⟩
  simp only [lt_def, toNat_add, toNat_sub]
  rw [if_neg (by omega), if_neg (by omega), if_neg (by omega)]
  exact ⟨_, rfl⟩

theorem toNat_off (h : q.guestPhysBase.toNat ≤ addr.toNat) :
    (q.off addr).toNat = addr.toNat - q.guestPhysBase.toNat := by
  rw [off, toNat_sub]; omega

/-- A queue that is used has a size. -/
theorem size_of_normalizedSize {size : BitVec 16} (h : q.normalizedSize = .ok size) :
    size = q.size.setWidth 16 ∧ size.toNat = q.size.toNat ∧ 0 < size.toNat ∧ size.toNat ≤ 256 := by
  rw [normalizedSize] at h
  split_ifs at h with hcases
  obtain ⟨⟩ := h
  obtain ⟨hzero, hmax⟩ := not_or.mp hcases
  have hpos : q.size.toNat ≠ 0 := fun h ↦ hzero (eq_of_toNat_eq h)
  rw [maxQueueSize] at hmax
  rw [toNat_setWidth]
  exact ⟨rfl, by omega, by omega, by omega⟩

theorem normalizedSize_of_readAvail {avail : AvailRing}
    (h : q.readAvail r = .ok avail) : ∃ size, q.normalizedSize = .ok size := by
  obtain ⟨size, hsize, -⟩ := bind_eq_ok.mp h
  exact ⟨size, hsize⟩

theorem guestWriteOps_eq_ok {buf : List Byte} (h : q.guestWriteOps memLen addr buf = .ok ops) :
    ∃ start stop, q.checkedRange memLen addr (BitVec.ofNat 64 buf.length) = .ok (start, stop) ∧
      ops = [.store start (buf.take (stop - start)), .mark addr (BitVec.ofNat 64 buf.length)] := by
  rw [guestWriteOps] at h
  obtain ⟨range, hrange, h⟩ := bind_eq_ok.mp h
  exact ⟨range.1, range.2, hrange, (Except.ok.inj h).symm⟩

section Chains

open List

/-- The offset in RAM of an entry of the descriptor table. -/
def descOff (q : Queue) (idx : BitVec 16) : ℕ :=
  (q.descAddr.toNat + 16 * idx.toNat) % 2 ^ 64 - q.guestPhysBase.toNat

/-- Entry `idx` of the descriptor table is `d`: the index is one of the queue's, the address of the
entry is not below RAM, and the sixteen bytes there are those of `d`. -/
structure Entry (q : Queue) (r : Ram) (idx : BitVec 16) (d : Desc) : Prop where
  lt : idx.toNat < q.size.toNat
  size_le : q.size.toNat ≤ maxQueueSize
  base_le : q.guestPhysBase.toNat ≤ (q.descAddr.toNat + 16 * idx.toNat) % 2 ^ 64
  addr : slice r.bytes (q.descOff idx) 8 = putLE 8 d.addr.toNat
  len : slice r.bytes (q.descOff idx + 8) 4 = putLE 4 d.len.toNat
  flags : slice r.bytes (q.descOff idx + 12) 2 = putLE 2 d.flags.toNat
  next : slice r.bytes (q.descOff idx + 14) 2 = putLE 2 d.next.toNat

/-- A path along the links from `idx` on, which ends at the first descriptor without one. -/
def Follows (q : Queue) (r : Ram) : BitVec 16 → List (BitVec 16 × Desc) → Prop
  | _, [] => False
  | idx, (i, d) :: path => i = idx ∧ q.Entry r idx d ∧
    if d.flags &&& descFlagNext = 0 then path = [] else Follows q r d.next path

/-- The limits on a path behind the indices in `seen` and `total` bytes. -/
@[mk_iff]
structure Admissible (seen : List (BitVec 16)) (total : ℕ) (path : List (BitVec 16 × Desc)) :
    Prop where
  once : (path.map Prod.fst).Nodup
  fresh : ∀ e ∈ path, e.1 ∉ seen
  direct : ∀ e ∈ path, e.2.flags &&& descFlagIndirect = 0
  each : ∀ e ∈ path, e.2.len.toNat ≤ maxDescriptorSizeBytes
  bytes : total + (path.map fun e ↦ e.2.len.toNat).sum ≤ maxDescriptorChainBytes

variable {idx size : BitVec 16} {d : Desc} {fuel fuel' total : ℕ}
  {seen : List (BitVec 16)} {chain out : List Desc} {path : List (BitVec 16 × Desc)}

theorem admissible_cons : Admissible seen total ((idx, d) :: path) ↔
    (idx ∉ seen ∧ d.flags &&& descFlagIndirect = 0 ∧ d.len.toNat ≤ maxDescriptorSizeBytes ∧
      total + d.len.toNat ≤ maxDescriptorChainBytes) ∧
    Admissible (idx :: seen) (total + d.len.toNat) path := by
  simp only [admissible_iff, forall_mem_cons]
  grind

theorem Entry.normalizedSize (h : q.Entry r idx d) :
    q.normalizedSize = .ok (q.size.setWidth 16) := by
  rw [Queue.normalizedSize, if_neg]
  rintro (hzero | hmax)
  · exact absurd h.lt (by rw [hzero]; exact Nat.not_lt_zero _)
  · exact absurd h.size_le (Nat.not_le.mpr hmax)

theorem Entry.descOff_le (h : q.Entry r idx d) : q.descOff idx + 16 ≤ r.bytes.length := by
  have hlen := congrArg List.length h.next
  rw [length_slice, length_putLE] at hlen
  omega

/-- A word that is loaded and written out again. -/
theorem putLE_load {off n : ℕ} (h : off + n ≤ r.bytes.length) :
    putLE n (BitVec.ofNat (8 * n) (r.load off n)).toNat = slice r.bytes off n := by
  have hlen : (slice r.bytes off n).length = n := by rw [length_slice]; omega
  have hlt := getLE_lt (slice r.bytes off n)
  rw [hlen, show 256 = 2 ^ 8 from rfl, ← pow_mul] at hlt
  rw [Ram.load, toNat_ofNat, Nat.mod_eq_of_lt hlt]
  exact (congrArg (putLE · _) hlen.symm).trans (putLE_getLE _)

theorem ofNat_load {off n : ℕ} {v : BitVec (8 * n)} (h : slice r.bytes off n = putLE n v.toNat) :
    BitVec.ofNat (8 * n) (r.load off n) = v := by
  have hlt : v.toNat < 256 ^ n := by
    rw [show 256 = 2 ^ 8 from rfl, ← pow_mul]
    exact v.isLt
  rw [Ram.load, h, getLE_putLE_of_lt hlt, ofNat_toNat, setWidth_eq]

/-- **What `readDesc` returns is the entry of the table.** -/
theorem readDesc_eq_ok_iff : q.readDesc r idx = .ok d ↔ q.Entry r idx d := by
  have hgpa : (q.descAddr + idx.setWidth 64 * 16).toNat =
      (q.descAddr.toNat + 16 * idx.toNat) % 2 ^ 64 := by
    rw [toNat_add, toNat_mul, toNat_setWidth, show (16 : BitVec 64).toNat = 16 from rfl]
    omega
  simp only [readDesc, bind_eq_ok, unless_throw_eq_ok]
  constructor
  · rintro ⟨size, hsize, hlt, range, hrange, hd⟩
    obtain ⟨-, heq, -, hle⟩ := size_of_normalizedSize hsize
    obtain ⟨hbase, hstart, hstop, hmem⟩ := checkedRange_eq_ok (by decide) hrange
    obtain rfl := Except.ok.inj hd
    rw [toNat_off hbase, ← hstart]
    rw [hgpa] at hbase hstart
    have hstart : range.1 = q.descOff idx := hstart
    have hin : range.1 + 16 ≤ r.bytes.length := hstop.symm.trans_le hmem
    refine ⟨heq ▸ BitVec.not_le.mp hlt, heq ▸ hle, hbase, ?_, ?_, ?_, ?_⟩
    all_goals
      rw [← hstart]
      exact (putLE_load (by omega)).symm
  · intro h
    obtain ⟨-, heq, -, -⟩ := size_of_normalizedSize h.normalizedSize
    obtain ⟨range, hrange⟩ : ∃ range, q.checkedRange r.bytes.length
        (q.descAddr + idx.setWidth 64 * 16) 16 = .ok range :=
      checkedRange_of_le (hgpa ▸ h.base_le) (hgpa ▸ h.descOff_le) r.length_lt
    refine ⟨_, h.normalizedSize, BitVec.not_le.mpr (lt_def.mpr (heq ▸ h.lt)), range, hrange, ?_⟩
    rw [toNat_off (hgpa ▸ h.base_le), hgpa]
    exact congrArg Except.ok (Desc.mk.injEq .. ▸ ⟨ofNat_load h.addr, ofNat_load h.len,
      ofNat_load h.flags, ofNat_load h.next⟩)

theorem Follows.lt (hsize : q.normalizedSize = .ok size) (h : q.Follows r idx path) :
    idx < size ∧ ∀ e ∈ path, e.1 < size := by
  induction path generalizing idx with
  | nil => exact h.elim
  | cons e path ih =>
    obtain ⟨rfl, hentry, hrest⟩ := h
    have hlt := BitVec.lt_def.mpr (hentry.lt.trans_eq (size_of_normalizedSize hsize).2.1.symm)
    refine ⟨hlt, forall_mem_cons.mpr ⟨hlt, ?_⟩⟩
    split_ifs at hrest
    · exact hrest ▸ nofun
    · exact (ih hrest).2

/-- **The loop.** It returns the chain so far with the path from `idx` on. -/
theorem walkFrom_eq_ok_iff (hsize : q.normalizedSize = .ok size) :
    q.walkFrom r size fuel idx seen total chain = .ok out ↔ ∃ path, q.Follows r idx path ∧
      Admissible seen total path ∧ chain.length + path.length ≤ maxDescriptorChainLength ∧
        path.length ≤ fuel ∧ chain ++ path.map Prod.snd = out := by
  induction fuel generalizing idx seen total chain with
  | zero =>
    refine iff_of_false nofun ?_
    rintro ⟨path, hpath, -, -, hfuel, -⟩
    rw [length_eq_zero_iff.mp (Nat.le_zero.mp hfuel)] at hpath
    exact hpath
  | succ fuel ih =>
    rw [walkFrom]
    simp only [unless_throw_eq_ok, bind_eq_ok, readDesc_eq_ok_iff, not_ne_iff, Nat.not_lt,
      length_append,
      length_singleton]
    constructor
    · rintro ⟨hseen, d, hentry, hdirect, heach, htotal, hlen, hrest⟩
      obtain ⟨path, hpath, hadmissible, hlength, hfuel, rfl⟩ : ∃ path,
          (if d.flags &&& descFlagNext = 0 then path = [] else q.Follows r d.next path) ∧
            Admissible (idx :: seen) (total + d.len.toNat) path ∧
            chain.length + 1 + path.length ≤ maxDescriptorChainLength ∧ path.length ≤ fuel ∧
            chain ++ [d] ++ path.map Prod.snd = out := by
        split_ifs at hrest with hlast hnext
        · obtain ⟨⟩ := hrest
          exact ⟨[], by rw [if_pos hlast], ⟨nodup_nil, nofun, nofun, nofun, htotal⟩, hlen, by simp⟩
        · nomatch hrest
        · obtain ⟨path, hpath, hrest⟩ := ih.mp hrest
          exact ⟨path, by rwa [if_neg hlast], by simpa using hrest⟩
      exact ⟨(idx, d) :: path, ⟨rfl, hentry, hpath⟩,
        admissible_cons.mpr ⟨⟨hseen, hdirect, heach, htotal⟩, hadmissible⟩, by simp; omega,
        by simpa using hfuel, by simp⟩
    · rintro ⟨_ | ⟨⟨i, d⟩, path⟩, hpath, hadmissible, hlen, hfuel, rfl⟩
      · exact hpath.elim
      obtain ⟨rfl, hentry, hrest⟩ := hpath
      obtain ⟨⟨hseen, hdirect, heach, htotal⟩, hadmissible⟩ := admissible_cons.mp hadmissible
      rw [length_cons] at hlen hfuel
      refine ⟨hseen, d, hentry, hdirect, heach, htotal, by omega, ?_⟩
      split_ifs at hrest ⊢ with hlast hnext
      · rw [hrest]
        rfl
      · exact absurd (hrest.lt hsize).1 (BitVec.not_lt.mpr hnext)
      · exact ih.mpr ⟨path, hrest, hadmissible, by simp; omega, by omega, by simp⟩

/-- No chain has more than 64 MiB. -/
theorem sum_len_of_walkChain {head : BitVec 16} (h : q.walkChain r head = .ok chain) :
    (chain.map fun d ↦ d.len.toNat).sum ≤ maxDescriptorChainBytes := by
  obtain ⟨size, hsize, h⟩ := bind_eq_ok.mp h
  obtain ⟨path, -, hadmissible, -, -, rfl⟩ :=
    (walkFrom_eq_ok_iff hsize).mp (unless_throw_eq_ok.mp h).2
  rw [nil_append, map_map]
  exact (Nat.zero_add _).symm.trans_le hadmissible.bytes

theorem length_le_of_nodup (hseen : seen.Nodup) (hlt : ∀ i ∈ seen, i < size) :
    seen.length ≤ size.toNat := by
  have hsub : seen.map BitVec.toNat ⊆ List.range size.toNat := by
    intro _ hmem
    obtain ⟨i, hi, rfl⟩ := mem_map.mp hmem
    exact mem_range.mpr (hlt i hi)
  have hnodup : (seen.map BitVec.toNat).Nodup :=
    Pairwise.map _ (fun _ _ hne heq ↦ hne (eq_of_toNat_eq heq)) hseen
  simpa using (subperm_of_subset hnodup hsub).length_le

/-- Enough fuel is not used up: the indices that were seen are distinct. -/
theorem walkFrom_eq (hseen : seen.Nodup) (hlt : ∀ i ∈ seen, i < size) (hidx : idx < size)
    (hfuel : size.toNat < fuel + seen.length) (hfuel' : size.toNat < fuel' + seen.length) :
    q.walkFrom r size fuel idx seen total chain = q.walkFrom r size fuel' idx seen total chain := by
  induction fuel generalizing fuel' idx seen total chain with
  | zero =>
    have hle := length_le_of_nodup hseen hlt
    omega
  | succ fuel ih =>
    obtain _ | fuel' := fuel'
    · have hle := length_le_of_nodup hseen hlt
      omega
    rw [walkFrom, walkFrom]
    split_ifs with hmem
    · rfl
    refine congrArg _ (funext fun d ↦ ?_)
    iterate 5 refine ite_congr rfl (fun _ ↦ rfl) fun _ ↦ ?_
    refine ite_congr rfl (fun _ ↦ rfl) fun hnext ↦ ih (nodup_cons.mpr ⟨hmem, hseen⟩)
      (forall_mem_cons.mpr ⟨hidx, hlt⟩) (BitVec.not_le.mp hnext) ?_ ?_
    all_goals
      rw [length_cons]
      omega

/-- **The walk returns the path along the links from the head**, if and only if it keeps to the
limits; and the loop ends, whatever the links are. -/
theorem walkChain_eq_ok_iff (q : Queue) (r : Ram) (head : BitVec 16) :
    (∀ fuel size, q.normalizedSize = .ok size → head < size → size.toNat < fuel →
      q.walkFrom r size fuel head [] 0 [] = q.walkChain r head) ∧
    ∀ chain, q.walkChain r head = .ok chain ↔ ∃ path, q.Follows r head path ∧
      Admissible [] 0 path ∧ path.length ≤ q.size.toNat ∧ path.map Prod.snd = chain := by
  have hwalk {size : BitVec 16} (hsize : q.normalizedSize = .ok size) (hhead : head < size) :
      q.walkChain r head = q.walkFrom r size (size.toNat + 1) head [] 0 [] := by
    rw [walkChain, hsize]
    exact if_neg (BitVec.not_le.mpr hhead)
  refine ⟨fun fuel size hsize hhead hfuel ↦ ?_, fun chain ↦ ⟨fun h ↦ ?_, ?_⟩⟩
  · rw [hwalk hsize hhead]
    exact walkFrom_eq nodup_nil nofun hhead hfuel (Nat.lt_succ_self _)
  · obtain ⟨size, hsize, h⟩ := bind_eq_ok.mp h
    obtain ⟨path, hpath, hadmissible, -, -, hchain⟩ :=
      (walkFrom_eq_ok_iff hsize).mp (unless_throw_eq_ok.mp h).2
    have hlen := length_le_of_nodup hadmissible.once (forall_mem_map.mpr (hpath.lt hsize).2)
    rw [length_map, (size_of_normalizedSize hsize).2.1] at hlen
    exact ⟨path, hpath, hadmissible, hlen, hchain⟩
  · rintro ⟨path, hpath, hadmissible, hlen, rfl⟩
    obtain ⟨size, hsize⟩ : ∃ size, q.normalizedSize = .ok size := by
      obtain _ | ⟨e, path⟩ := path
      · exact hpath.elim
      · exact ⟨_, hpath.2.1.normalizedSize⟩
    obtain ⟨-, heq, -, hle⟩ := size_of_normalizedSize hsize
    rw [hwalk hsize (hpath.lt hsize).1, walkFrom_eq_ok_iff hsize]
    refine ⟨path, hpath, hadmissible, ?_, by omega, rfl⟩
    rw [length_nil, Nat.zero_add]
    exact (hlen.trans_eq heq.symm).trans hle

end Chains

end Queue

/-! ## RAM with its tracker -/

/-- Guest RAM and the tracker attached to it. -/
structure Dma where
  ram : Ram
  dirty : DirtyTracker
  /-- The tracker was created for this RAM. -/
  sized : dirty.memSize = ram.bytes.length

namespace Dma

instance neZero_page : NeZero 4096 := ⟨by decide⟩

def fresh (pageSize : ℕ+) (r : Ram) : Dma :=
  ⟨r, newDirtyTracker pageSize r.bytes.length r.length_lt, rfl⟩

variable (d : Dma)

/-- Execute one memory operation. -/
def exec : MemOp → Dma
  | .store off buf =>
    { d with
      ram := d.ram.store off buf
      sized := by rw [Ram.length_store, d.sized] }
  | .mark addr length =>
    { d with
      dirty := d.dirty.mark addr length
      sized := by rw [DirtyTracker.memSize_mark, d.sized] }

/-- Clear the marks. -/
def reset : Dma := { d with dirty := d.dirty.reset }

def isDirty (o : ℕ) : Bool := d.dirty.isMarked (o / d.dirty.pageSize)

@[simp] theorem length_exec (op : MemOp) : (d.exec op).ram.bytes.length = d.ram.bytes.length := by
  cases op with
  | store off buf => exact Ram.length_store _ _ _
  | mark addr length => rfl

@[simp] theorem pageSize_exec (op : MemOp) : (d.exec op).dirty.pageSize = d.dirty.pageSize := by
  cases op with
  | store off buf => rfl
  | mark addr length => exact DirtyTracker.pageSize_mark _ _ _

theorem getElem?_exec {d : Dma} {op : MemOp} {o : ℕ}
    (h : (d.exec op).ram.bytes[o]? ≠ d.ram.bytes[o]?) :
    ∃ off buf, op = .store off buf ∧ off ≤ o ∧ o < off + buf.length := by
  cases op with
  | store off buf =>
    by_contra hne
    refine h (getElem?_writeAt_of_not_mem fun hmem ↦ hne ?_)
    exact ⟨off, buf, rfl, hmem.1, hmem.2⟩
  | mark addr length => exact absurd rfl h

@[simp] theorem isDirty_exec_store (off : ℕ) (buf : List Byte) (o : ℕ) :
    (d.exec (.store off buf)).isDirty o = d.isDirty o := rfl

theorem isDirty_exec_mark_iff {d : Dma} {addr length : BitVec 64} {o : ℕ} :
    (d.exec (.mark addr length)).isDirty o = true ↔ d.isDirty o = true ∨
      ∃ o', addr.toNat ≤ o' ∧ o' < addr.toNat + length.toNat ∧ o' < d.ram.bytes.length ∧
        o' / d.dirty.pageSize = o / d.dirty.pageSize := by
  rw [isDirty, pageSize_exec, ← d.sized]
  exact DirtyTracker.isMarked_mark_iff

@[simp] theorem isDirty_reset (o : ℕ) : d.reset.isDirty o = false :=
  testPage_clearPages _ _

@[simp] theorem isDirty_fresh (ps : ℕ+) (r : Ram) (o : ℕ) : (fresh ps r).isDirty o = false :=
  testPage_replicate _ _

end Dma

end Gocracker
