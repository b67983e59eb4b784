import Gocracker.Virtio.Device

/-!
# The block device

A request of the guest is a descriptor chain: a header of 16 bytes, data, and a byte for the status.
`parseRequest` reads the header, checks the descriptors against the type of the request, and checks
the sectors against the size of the device. `handleRequest` then moves data between the image file
and guest memory, one descriptor at a time, and stops at the first error.

## What is done to the image

A request is modelled by the operations it performs on the image, in order (`DiskOp`), like the
operations of a call on guest memory. A call of the host may fail; `faults` says for each call, in
the order of the calls, how far it came. A write that fails may have written a part of its bytes,
and is not marked in the drive's tracker.
-/

namespace Gocracker

open Machine

/-! ## Requests -/

inductive BlkType where
  | tIn
  | tOut
  | tFlush
  | tGetID
  | tDiscard
  | other (code : ℕ)
  deriving DecidableEq

def BlkType.ofCode : ℕ → BlkType
  | 0 => .tIn
  | 1 => .tOut
  | 4 => .tFlush
  | 8 => .tGetID
  | 11 => .tDiscard
  | code => .other code

/-- What the guest is told. -/
inductive BlkStatus where
  | ok
  | ioErr
  | unsup
  deriving DecidableEq

def BlkStatus.code : BlkStatus → Byte
  | .ok => 0
  | .ioErr => 1
  | .unsup => 2

def blkSectorSize : ℕ := 512
def blkIDBytes : ℕ := 20
def blkDiscardSegmentBytes : ℕ := 16

structure BlkDiscardSegment where
  sector : BitVec 64
  numSectors : BitVec 32
  flags : BitVec 32
  deriving DecidableEq

structure BlkRequest where
  reqType : BlkType
  sector : BitVec 64
  dataDescs : List Desc
  dataLen : BitVec 32
  discards : List BlkDiscardSegment
  statusDesc : Desc
  deriving DecidableEq

/-- The ways a request is malformed. -/
inductive BlkError where
  | queue (e : QueueError)
  | chainTooShort
  | headerWriteOnly
  | headerTooSmall
  | statusNotWritable
  | statusTooSmall
  | flushWithData
  | missingData
  | dataNotWritable
  | dataWritable
  | unaligned (dataLen : ℕ)
  | outOfBounds (sector dataLen sectors : ℕ)
  | idBufferTooSmall (dataLen : ℕ)
  | discardUnaligned (dataLen : ℕ)
  | discardMissing
  | discardFlags (flags : ℕ)
  | discardOutOfBounds (sector numSectors sectors : ℕ)
  deriving DecidableEq

def hexText (n : ℕ) : String := "0x" ++ String.ofList (Nat.toDigits 16 n)

def BlkError.message : BlkError → String
  | .queue e => e.message
  | .chainTooShort => "descriptor chain too short"
  | .headerWriteOnly => "header descriptor is write-only"
  | .headerTooSmall => "header descriptor too small"
  | .statusNotWritable => "status descriptor is not writable"
  | .statusTooSmall => "status descriptor too small"
  | .flushWithData => "flush request has unexpected data descriptors"
  | .missingData => "request missing data descriptors"
  | .dataNotWritable => "read/get-id data descriptor is not writable"
  | .dataWritable => "write data descriptor is writable"
  | .unaligned dataLen => s!"data length {dataLen} is not sector-aligned"
  | .outOfBounds sector dataLen sectors =>
    s!"request out of bounds: sector={sector} data_len={dataLen} sectors={sectors}"
  | .idBufferTooSmall dataLen => s!"get-id buffer too small: {dataLen}"
  | .discardUnaligned dataLen =>
    s!"discard segment data length {dataLen} is not {blkDiscardSegmentBytes}-byte aligned"
  | .discardMissing => "discard request missing segments"
  | .discardFlags flags => "discard segment flags " ++ hexText flags ++ " are unsupported"
  | .discardOutOfBounds sector numSectors sectors =>
    s!"discard segment out of bounds: sector={sector} num_sectors={numSectors} sectors={sectors}"

/-! ## Parsing -/

/-- `GuestRead`, as part of parsing. -/
def blkRead (q : Queue) (r : Ram) (addr : BitVec 64) (len : ℕ) : Except BlkError (List Byte) :=
  (q.guestRead r addr len).mapError .queue

namespace BlockDevice

variable (d : BlockDevice) (q : Queue) (r : Ram)

/-- The end of a range is computed with overflow, which is noticed. -/
def parseSegments : ℕ → List Byte → Except BlkError (List BlkDiscardSegment)
  | 0, _ => .ok []
  | n + 1, buf => do
    let seg : BlkDiscardSegment := {
      sector := BitVec.ofNat 64 (getLE (slice buf 0 8))
      numSectors := BitVec.ofNat 32 (getLE (slice buf 8 4))
      flags := BitVec.ofNat 32 (getLE (slice buf 12 4)) }
    if seg.flags ≠ 0 then throw (.discardFlags seg.flags.toNat)
    if seg.numSectors ≠ 0 then
      let topSector := seg.sector + seg.numSectors.setWidth 64
      if topSector < seg.sector ∨ d.sectors < topSector then
        throw (.discardOutOfBounds seg.sector.toNat seg.numSectors.toNat d.sectors.toNat)
    let segments ← parseSegments n (buf.drop blkDiscardSegmentBytes)
    return seg :: segments

/-- The ranges may be split over descriptors anywhere. -/
def readDiscardSegments (descs : List Desc) (totalLen : BitVec 32) :
    Except BlkError (List BlkDiscardSegment) := do
  if totalLen = 0 then throw .discardMissing
  let bufs ← descs.mapM fun desc ↦ blkRead q r desc.addr desc.len.toNat
  d.parseSegments (totalLen.toNat / blkDiscardSegmentBytes) bufs.flatten

/-- The data descriptors point the right way. -/
def checkDirection (reqType : BlkType) (desc : Desc) : Except BlkError Unit :=
  match reqType with
  | .tIn | .tGetID => if desc.flags &&& descFlagWrite = 0 then .error .dataNotWritable else .ok ()
  | .tOut | .tDiscard => if desc.flags &&& descFlagWrite ≠ 0 then .error .dataWritable else .ok ()
  | _ => .ok ()

/-- The last part of `parseRequest`: lengths and sectors. -/
def checkData (reqType : BlkType) (sector : BitVec 64) (dataDescs : List Desc)
    (dataLen : BitVec 32) : Except BlkError (List BlkDiscardSegment) :=
  match reqType with
  | .tIn | .tOut =>
    if dataLen.toNat % blkSectorSize ≠ 0 then .error (.unaligned dataLen.toNat)
    else if d.sectors < sector + BitVec.ofNat 64 (dataLen.toNat / blkSectorSize) then
      .error (.outOfBounds sector.toNat dataLen.toNat d.sectors.toNat)
    else .ok []
  | .tGetID =>
    if dataLen.toNat < blkIDBytes then .error (.idBufferTooSmall dataLen.toNat) else .ok []
  | .tDiscard =>
    if dataLen.toNat % blkDiscardSegmentBytes ≠ 0 then .error (.discardUnaligned dataLen.toNat)
    else d.readDiscardSegments q r dataDescs dataLen
  | _ => .ok []

/-- The first descriptor is the header, the last one for the status. -/
def parseRequest (chain : List Desc) : Except BlkError BlkRequest := do
  match chain with
  | [] => throw .chainTooShort
  | hdrDesc :: rest =>
    match rest.getLast? with
    | none => throw .chainTooShort
    | some statusDesc =>
      if hdrDesc.flags &&& descFlagWrite ≠ 0 then throw .headerWriteOnly
      if hdrDesc.len.toNat < 16 then throw .headerTooSmall
      let hdr ← blkRead q r hdrDesc.addr 16
      let reqType := BlkType.ofCode (getLE (slice hdr 0 4))
      let sector := BitVec.ofNat 64 (getLE (slice hdr 8 8))
      if statusDesc.flags &&& descFlagWrite = 0 then throw .statusNotWritable
      if statusDesc.len.toNat < 1 then throw .statusTooSmall
      let dataDescs := rest.dropLast
      if reqType = .tFlush ∧ dataDescs ≠ [] then throw .flushWithData
      if reqType ∈ [.tIn, .tOut, .tGetID, .tDiscard] ∧ dataDescs = [] then throw .missingData
      let _ ← dataDescs.mapM (checkDirection reqType)
      -- The sum of the lengths is an unsigned integer of 32 bits.
      let dataLen := (dataDescs.map Desc.len).sum
      let discards ← d.checkData q r reqType sector dataDescs dataLen
      return { reqType, sector, dataDescs, dataLen, discards, statusDesc }

end BlockDevice

/-! ## The image -/

/-- What a request does to the image file, or to the drive's tracker. -/
inductive DiskOp where
  | write (off : ℕ) (buf : List Byte)
  /-- Zeros; the size of the file is kept. -/
  | punch (off len : ℕ)
  | mark (addr length : BitVec 64)
  deriving DecidableEq

variable (file : List Byte)

/-- The file after an operation on it. -/
def DiskOp.apply : DiskOp → List Byte
  | .write off buf => extendAt 0 file off buf
  | .punch off len => writeAt file off (List.replicate len 0)
  | .mark _ _ => file

/-- The image after a list of operations. -/
def overlay (ops : List DiskOp) : List Byte := ops.foldl DiskOp.apply file

@[simp] theorem overlay_nil : overlay file [] = file := rfl

/-- The offset in the file of a sector; the host refuses a negative one. -/
def sectorOffset (sector : BitVec 64) : Option ℕ :=
  let off := sector * BitVec.ofNat 64 blkSectorSize
  if off.toInt < 0 then none else some off.toNat

/-- How far the next call of the host comes. `none`: to its end. -/
def nextFault (faults : List (Option ℕ)) : Option ℕ := faults.headD none

/-- The sector after a descriptor's data. -/
def nextSector (sector : BitVec 64) (desc : Desc) : BitVec 64 :=
  sector + BitVec.ofNat 64 (desc.len.toNat / blkSectorSize)

/-- What came of a request. -/
structure BlkOutcome where
  /-- What was done to the image. -/
  ops : List DiskOp
  /-- What was done to guest memory. -/
  stores : List MemOp
  status : BlkStatus
  /-- The number of bytes written to guest memory. -/
  written : BitVec 32

/-! ## Handling a request -/

/-- A read goes descriptor by descriptor, up to the first fault. -/
def inLoop (q : Queue) (memLen : ℕ) (file : List Byte) :
    List (Option ℕ) → BitVec 64 → List Desc → BitVec 32 → BlkOutcome
  | _, _, [], written => ⟨[], [], .ok, written⟩
  | faults, sector, desc :: descs, written =>
    match sectorOffset sector, nextFault faults with
    | some off, none =>
      let buf := slice file off desc.len.toNat
      if buf.length ≠ desc.len.toNat then ⟨[], [], .ioErr, written⟩
      else
        match q.guestWriteOps memLen desc.addr buf with
        | .error _ => ⟨[], [], .ioErr, written⟩
        | .ok stores =>
          let rest := inLoop q memLen file faults.tail (nextSector sector desc) descs
            (written + desc.len)
          { rest with stores := stores ++ rest.stores }
    | _, _ => ⟨[], [], .ioErr, written⟩

/-- A write goes descriptor by descriptor, up to the first fault. -/
def outLoop (q : Queue) (r : Ram) : List (Option ℕ) → BitVec 64 → List Desc → BlkOutcome
  | _, _, [] => ⟨[], [], .ok, 0⟩
  | faults, sector, desc :: descs =>
    match q.guestRead r desc.addr desc.len.toNat, sectorOffset sector with
    | .ok buf, some off =>
      match nextFault faults with
      | some n => ⟨[.write off (buf.take n)], [], .ioErr, 0⟩
      | none =>
        let rest := outLoop q r faults.tail (nextSector sector desc) descs
        let mark := DiskOp.mark (sector * BitVec.ofNat 64 blkSectorSize)
          (BitVec.ofNat 64 buf.length)
        { rest with ops := .write off buf :: mark :: rest.ops }
    | _, _ => ⟨[], [], .ioErr, 0⟩

/-- Ranges are discarded in order, up to the first fault. -/
def discardLoop : List (Option ℕ) → List BlkDiscardSegment → BlkOutcome
  | _, [] => ⟨[], [], .ok, 0⟩
  | faults, seg :: segs =>
    if seg.numSectors = 0 then discardLoop faults segs
    else
      let length := BitVec.ofNat 64 (seg.numSectors.toNat * blkSectorSize)
      match sectorOffset seg.sector with
      | none => ⟨[], [], .ioErr, 0⟩
      | some off =>
        match nextFault faults with
        | some n => ⟨[.punch off (min n length.toNat)], [], .ioErr, 0⟩
        | none =>
          let rest := discardLoop faults.tail segs
          let mark := DiskOp.mark (seg.sector * BitVec.ofNat 64 blkSectorSize) length
          { rest with ops := .punch off length.toNat :: mark :: rest.ops }

def blkID : List Byte := "gocracker\x00".toList.map fun c ↦ BitVec.ofNat 8 c.toNat

/-- Only the first descriptor is written. -/
def getID (q : Queue) (memLen : ℕ) : List Desc → BlkOutcome
  | [] => ⟨[], [], .ok, 0⟩
  | desc :: _ =>
    let n := min blkID.length desc.len.toNat
    match q.guestWriteOps memLen desc.addr (blkID.take n) with
    | .error _ => ⟨[], [], .ioErr, 0⟩
    | .ok stores => ⟨[], stores, .ok, BitVec.ofNat 32 n⟩

namespace BlockDevice

variable (d : BlockDevice) (q : Queue) (r : Ram) (file : List Byte) (faults : List (Option ℕ))

/-- The switch on the type of the request. -/
def perform (req : BlkRequest) : BlkOutcome :=
  match req.reqType with
  | .tIn => inLoop q r.bytes.length file faults req.sector req.dataDescs 0
  | .tOut =>
    if d.readOnly then ⟨[], [], .ioErr, 0⟩ else outLoop q r faults req.sector req.dataDescs
  | .tFlush => ⟨[], [], if nextFault faults = none then .ok else .ioErr, 0⟩
  | .tGetID => getID q r.bytes.length req.dataDescs
  | .tDiscard => if d.discard then discardLoop faults req.discards else ⟨[], [], .unsup, 0⟩
  | .other _ => ⟨[], [], .unsup, 0⟩

/-- The status byte goes to the last descriptor, and counts as written if it gets there. -/
def finish (req : BlkRequest) (out : BlkOutcome) : BlkOutcome :=
  match q.guestWriteOps r.bytes.length req.statusDesc.addr [out.status.code] with
  | .error _ => out
  | .ok stores => { out with stores := out.stores ++ stores, written := out.written + 1 }

variable (head : BitVec 16)

/-- The request of the chain at `head`, if it is well formed. -/
def requestAt : Option BlkRequest :=
  match q.walkChain r head with
  | .error _ => none
  | .ok chain => (d.parseRequest q r chain).toOption

/-- One iteration of `HandleQueue`, up to the return of the chain with `written` bytes. A malformed
chain is returned as it is. -/
def handleRequest : BlkOutcome :=
  match d.requestAt q r head with
  | none => ⟨[], [], .ok, 0⟩
  | some req => finish q r req (d.perform q r file faults req)

/-- The request writes or discards. -/
def modifies : Bool :=
  match d.requestAt q r head with
  | none => false
  | some req => req.reqType = .tOut || req.reqType = .tDiscard

end BlockDevice

/-! ## Requests that leave the image alone -/

variable {descs : List Desc}

theorem ops_inLoop {q : Queue} {memLen : ℕ} {file : List Byte} {faults : List (Option ℕ)}
    {sector : BitVec 64} {written : BitVec 32} :
    (inLoop q memLen file faults sector descs written).ops = [] := by
  induction descs generalizing faults sector written with
  | nil => rfl
  | cons desc descs ih =>
    rw [inLoop]
    split
    · dsimp only
      split
      · rfl
      · split
        · rfl
        · exact ih
    · rfl

theorem ops_getID {q : Queue} {memLen : ℕ} :
    (getID q memLen descs).ops = [] := by
  cases descs with
  | nil => rfl
  | cons desc descs =>
    rw [getID]
    split <;> rfl

namespace BlockDevice

variable {d : BlockDevice} {q : Queue} {r : Ram} {file : List Byte} {faults : List (Option ℕ)}
  {head : BitVec 16}

@[simp] theorem ops_finish (req : BlkRequest) (out : BlkOutcome) :
    (finish q r req out).ops = out.ops := by
  rw [finish]
  split <;> rfl

theorem ops_handleRequest (h : d.modifies q r head = false) :
    (d.handleRequest q r file faults head).ops = [] := by
  rw [modifies] at h
  rw [handleRequest]
  split at h
  · rfl
  rename_i req hreq
  rw [ops_finish, perform]
  split
  · exact ops_inLoop
  · rename_i htype
    rw [htype] at h
    nomatch h
  · rfl
  · exact ops_getID
  · rename_i htype
    rw [htype] at h
    nomatch h
  · rfl

end BlockDevice

/-! ## An image and a request, byte by byte -/

def oneSector : List Byte := List.replicate 512 1

/-- The memory of a guest that asks for 512 zeros to be written to sector 0: three descriptors, the
header at 64, the status at 80 and the data at 96. -/
def outBytes : List Byte :=
  putLE 8 64 ++ putLE 4 16 ++ putLE 2 1 ++ putLE 2 1 ++
  putLE 8 96 ++ putLE 4 512 ++ putLE 2 1 ++ putLE 2 2 ++
  putLE 8 80 ++ putLE 4 1 ++ putLE 2 2 ++ putLE 2 0 ++ List.replicate 16 0 ++
  putLE 4 1 ++ putLE 4 0 ++ putLE 8 0 ++ List.replicate 16 0 ++ List.replicate 512 0

theorem length_outBytes : outBytes.length < 2 ^ 63 := by
  decide +kernel

end Gocracker
