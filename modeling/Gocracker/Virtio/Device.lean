import Gocracker.Virtio.Pump

/-!
# The virtio devices behind a transport

What a guest can observe of a device through its MMIO window: the device number, the feature bits
and the configuration space. Five devices are modelled, each with the part of its state that these
depend on, and with what a guest's notification or configuration write does to that part.

## A balloon

The balloon keeps one flag for each page of RAM and, separately, the count it shows to the guest.
The guest may write that count, so the two need not agree. Page frame numbers have 32 bits, hence no
page beyond `2 ^ 32` is ever ballooned: the structure carries this.
-/

namespace Gocracker

open Machine List BitVec

/-- The architectures there are VMs for. -/
inductive Arch where
  | amd64
  | arm64
  deriving DecidableEq

/-- Collect the new heads of the available ring, as `IterAvail` does before it handles them. -/
def Queue.iterAvail (q : Queue) (r : Ram) : Except QueueError (List (BitVec 16) × Queue) := do
  let avail ← q.readAvail r
  let count := (avail.idx - q.lastAvail).toNat
  let heads := (List.range count).map fun i ↦
    Queue.nextHead { q with lastAvail := q.lastAvail + BitVec.ofNat 16 i } avail
  return (heads, { q with lastAvail := avail.idx })

/-! ## The balloon -/

def balloonPageSize : ℕ := 4096

/-- Five seconds, in nanoseconds. -/
def balloonAutoInterval : ℤ := 5000000000

/-- The number of pages is cut to 32 bits. -/
def mibToBalloonPages (miB : BitVec 64) : BitVec 32 := (miB * 256).setWidth 32

structure BalloonDeviceConfig where
  amountMiB : BitVec 64
  deflateOnOOM : Bool
  statsPollingInterval : ℤ
  autoConservative : Bool
  snapshotPages : List (BitVec 32)

/-- The automatic policy needs statistics, and has an interval of its own for them. -/
def BalloonDeviceConfig.pollingInterval (cfg : BalloonDeviceConfig) : ℤ :=
  if cfg.autoConservative = true ∧ cfg.statsPollingInterval ≤ 0 then balloonAutoInterval
  else cfg.statsPollingInterval

/-- A balloon: how large it is to be and is, and the pages in it. -/
structure BalloonDevice where
  targetPages : BitVec 32
  actualPages : BitVec 32
  deflateOnOOM : Bool
  statsEnabled : Bool
  ballooned : List Bool
  /-- A ballooned page has a page frame number. -/
  pfn_lt : ∀ i, ballooned.getD i false = true → i < 2 ^ 32

namespace BalloonDevice

variable (d : BalloonDevice)

/-- Is the page with this index ballooned? -/
def isBallooned (i : ℕ) : Bool := d.ballooned.getD i false

variable (pfn : BitVec 32)

/-- A page goes into the balloon or out of it. -/
def setPage (flag : Bool) (actual : BitVec 32) :
    BalloonDevice where
  targetPages := d.targetPages
  actualPages := actual
  deflateOnOOM := d.deflateOnOOM
  statsEnabled := d.statsEnabled
  ballooned := d.ballooned.set pfn.toNat flag
  pfn_lt := by
    intro i hi
    rcases eq_or_ne i pfn.toNat with rfl | hne
    · exact pfn.isLt
    · refine d.pfn_lt i ?_
      rwa [getD_eq_getElem?_getD, getElem?_set_ne hne.symm,
        ← getD_eq_getElem?_getD] at hi

/-- A page outside of memory or in the balloon is ignored. -/
def inflatePFN : BalloonDevice :=
  if d.ballooned.length ≤ pfn.toNat then d
  else if d.isBallooned pfn.toNat then d
  else d.setPage pfn true (d.actualPages + 1)

/-- A page that is not in the balloon is ignored. -/
def deflatePFN : BalloonDevice :=
  if d.ballooned.length ≤ pfn.toNat then d
  else if d.isBallooned pfn.toNat = false then d
  else d.setPage pfn false (if 0 < d.actualPages then d.actualPages - 1 else d.actualPages)

/-- The page frame numbers of the ballooned pages, in order. -/
def snapshotPages : List (BitVec 32) :=
  ((List.range d.ballooned.length).filter d.isBallooned).map (BitVec.ofNat 32)

/-- The pages of a snapshot are put back one by one. -/
def restoreSnapshotPages (pfns : List (BitVec 32)) : BalloonDevice :=
  pfns.foldl inflatePFN d

theorem getD_replicate_false (n i : ℕ) : (List.replicate n false).getD i false = false := by
  rw [getD_eq_getElem?_getD, getElem?_replicate]
  split <;> rfl

/-- A balloon over `memLen` bytes of RAM with no page ballooned. -/
def empty (memLen : ℕ) (cfg : BalloonDeviceConfig) : BalloonDevice where
  targetPages := mibToBalloonPages cfg.amountMiB
  actualPages := 0
  deflateOnOOM := cfg.deflateOnOOM
  statsEnabled := decide (0 < cfg.pollingInterval)
  ballooned := List.replicate (memLen / balloonPageSize) false
  pfn_lt := by
    intro i hi
    rw [getD_replicate_false] at hi
    exact absurd hi Bool.false_ne_true

def deviceFeatures : BitVec 64 :=
  (if d.statsEnabled then 1#64 <<< 1 else 0) ||| (if d.deflateOnOOM then 1#64 <<< 2 else 0)

def configBytes : List Byte :=
  putLE 4 d.targetPages.toNat ++ putLE 4 d.actualPages.toNat ++ List.replicate 8 0

/-- A write to the configuration space lands in the count, wherever it was aimed. -/
def writeConfig (offset : BitVec 32) (data : List Byte) : BalloonDevice :=
  if 4 < offset ∨ data = [] then d
  else
    let raw := writeAt (putLE 4 d.actualPages.toNat) offset.toNat data
    { d with actualPages := BitVec.ofNat 32 (getLE raw) }

/-- The page frame numbers in a buffer, an incomplete one at its end left out. -/
def decodePFNs (buf : List Byte) : List (BitVec 32) :=
  (List.range (buf.length / 4)).map fun i ↦ BitVec.ofNat 32 (getLE (slice buf (i * 4) 4))

/-- The page frame numbers of a chain, up to the first buffer that cannot be read. -/
def chainPFNs (q : Queue) (r : Ram) : List Desc → List (BitVec 32)
  | [] => []
  | desc :: chain =>
    if desc.flags &&& descFlagWrite ≠ 0 then chainPFNs q r chain
    else
      match q.guestRead r desc.addr desc.len.toNat with
      | .error _ => []
      | .ok buf => decodePFNs buf ++ chainPFNs q r chain

/-- A chain that cannot be walked is ignored. -/
def handleHead (q : Queue) (r : Ram) (inflate : Bool) (d : BalloonDevice) (head : BitVec 16) :
    BalloonDevice :=
  match q.walkChain r head with
  | .error _ => d
  | .ok chain => (chainPFNs q r chain).foldl (if inflate then inflatePFN else deflatePFN) d

/-- Drain a PFN queue. `ram i` is guest RAM when the `i`-th read of it starts: the available ring is
read at `0` and the `i`-th head handled at `i + 1`, and the device's own used-ring stores as well as
other vCPUs change RAM in between. The flag says whether any head was handled. -/
def handlePFNQueue (q : Queue) (ram : ℕ → Ram) (inflate : Bool) :
    BalloonDevice × Queue × Bool :=
  match q.iterAvail (ram 0) with
  | .error _ => (d, q, false)
  | .ok (heads, q') =>
    (heads.zipIdx.foldl (fun d h ↦ handleHead q' (ram (h.2 + 1)) inflate d h.1) d, q',
      !heads.isEmpty)

end BalloonDevice

/-- A balloon, and the pages ballooned in the snapshot it is restored from. -/
def newBalloonDevice (memLen : ℕ) (cfg : BalloonDeviceConfig) : BalloonDevice :=
  (BalloonDevice.empty memLen cfg).restoreSnapshotPages cfg.snapshotPages

/-! ## Network and block devices -/

/-- A network card, with the state of its link. -/
structure NetDevice where
  mac : List Byte
  status : BitVec 16

/-- The link starts down. -/
def newNetDevice (mac : List Byte) : NetDevice := ⟨writeAt (List.replicate 6 0) 0 mac, 0⟩

def NetDevice.activateLink (d : NetDevice) : NetDevice := { d with status := 1 }

def NetDevice.configBytes (d : NetDevice) : List Byte := d.mac ++ putLE 2 d.status.toNat

/-- Whether holes can be punched is tried out, or said here. -/
structure BlockDeviceOptions where
  skipDiscardProbe : Bool
  discard : Bool

/-- An image file: its size, and whether the filesystem it lies on can punch holes. -/
structure BlockImage where
  size : ℕ
  punchesHoles : Bool

/-- A disk, as the guest sees it. -/
structure BlockDevice where
  readOnly : Bool
  discard : Bool
  sectors : BitVec 64

/-- A part of a sector at the end is not seen. A read-only disk has no discard. -/
def newBlockDeviceWithOptions (image : BlockImage) (readOnly : Bool) (opts : BlockDeviceOptions) :
    BlockDevice where
  readOnly := readOnly
  discard := if readOnly then false
    else if opts.skipDiscardProbe then opts.discard else image.punchesHoles
  sectors := BitVec.ofNat 64 (image.size / 512)

def BlockDevice.deviceFeatures (d : BlockDevice) : BitVec 64 :=
  1#64 <<< 9 ||| (if d.readOnly then 1#64 <<< 5 else 0) ||| (if d.discard then 1#64 <<< 13 else 0)

def BlockDevice.configBytes (d : BlockDevice) : List Byte :=
  putLE 8 d.sectors.toNat ++ putLE 4 0 ++ putLE 4 128

/-! ## A device -/

inductive DeviceConfig where
  | rng
  | balloon (cfg : BalloonDeviceConfig)
  | net (mac : List Byte)
  | vsock
  | blk (image : BlockImage) (readOnly : Bool) (opts : BlockDeviceOptions)

/-- A device behind the transport. -/
inductive Device where
  | rng
  | balloon (d : BalloonDevice)
  | net (d : NetDevice)
  | vsock
  | blk (d : BlockDevice)

/-- The device that `setupDevices` builds. -/
def newDevice (memLen : ℕ) : DeviceConfig → Device
  | .rng => .rng
  | .balloon cfg => .balloon (newBalloonDevice memLen cfg)
  | .net mac => .net (newNetDevice mac)
  | .vsock => .vsock
  | .blk image readOnly opts => .blk (newBlockDeviceWithOptions image readOnly opts)

/-- The configuration a restore builds the device from: the balloon is told the ballooned pages,
and on x86 a writable drive is told to advertise discard without probing for it. -/
def DeviceConfig.restoring (arch : Arch) (pages : List (BitVec 32)) : DeviceConfig → DeviceConfig
  | .balloon cfg => .balloon { cfg with snapshotPages := pages }
  | .blk image readOnly opts =>
    match arch with
    | .amd64 => .blk image readOnly ⟨true, !readOnly⟩
    | .arm64 => .blk image readOnly opts
  | cfg => cfg

def guestCID : ℕ := 3

namespace Device

def deviceID : Device → BitVec 32
  | .rng => 4
  | .balloon _ => 5
  | .net _ => 1
  | .vsock => 19
  | .blk _ => 2

def deviceFeatures : Device → BitVec 64
  | .rng => 0
  | .balloon d => d.deviceFeatures
  | .net _ => 1#64 <<< 5 ||| 1#64 <<< 15 ||| 1#64 <<< 16
  | .vsock => 1#64 <<< 35
  | .blk d => d.deviceFeatures

def configBytes : Device → List Byte
  | .rng => []
  | .balloon d | .net d => d.configBytes
  | .vsock => putLE 8 guestCID
  | .blk d => d.configBytes

/-- Only the balloon takes configuration writes. -/
def writeConfig (offset : BitVec 32) (data : List Byte) : Device → Device
  | .balloon d => .balloon (d.writeConfig offset data)
  | dev => dev

/-- The link of a network device comes up; the flag says whether the device has a link. -/
def activateLink : Device → Device × Bool
  | .net d => (.net d.activateLink, true)
  | dev => (dev, false)

def snapshotPages : Device → List (BitVec 32)
  | .balloon d => d.snapshotPages
  | _ => []

/-- How packets from the host reach the device's queue 0. -/
def pumpKind : Device → Option PumpKind
  | .net _ => some .net
  | .vsock => some .vsock
  | _ => none

/-- Drain a queue whose requests change nothing a guest reads from the MMIO window. The flag says
whether there was any. -/
def drain (q : Queue) (r : Ram) : Queue × Bool :=
  match q.iterAvail r with
  | .error _ => (q, false)
  | .ok (heads, q') => (q', !heads.isEmpty)

instance neZero_queues : NeZero 8 := ⟨by decide⟩

/-- A guest's notification of queue `idx`: the device and the queue afterwards, and whether the
transport is to raise the interrupt. The balloon and vsock say themselves whether it is. -/
def notify (dev : Device) (idx : Fin 8) (q : Queue) (ram : ℕ → Ram) : Device × Queue × Bool :=
  match dev with
  | .rng => (.rng, if idx = 0 then (drain q (ram 0)).1 else q, true)
  | .balloon d =>
    if idx = 0 then
      let r := d.handlePFNQueue q ram true
      (.balloon r.1, r.2)
    else if idx = 1 then
      let r := d.handlePFNQueue q ram false
      (.balloon r.1, r.2)
    else (.balloon d, q, false)
  | .net d => (.net d, if idx = 1 then (drain q (ram 0)).1 else q, true)
  | .vsock => (.vsock, if idx = 1 then drain q (ram 0) else (q, false))
  | .blk d => (.blk d, if idx = 0 then (drain q (ram 0)).1 else q, true)

end Device

/-! ## What a guest cannot change

`blank` forgets the state a guest can change. Whatever happens to a device, its blank form stays
what it was at the construction, which is all that its identity and its features depend on. -/

namespace BalloonDevice

/-- The balloon with no page in it. -/
def blank (d : BalloonDevice) : BalloonDevice where
  targetPages := d.targetPages
  actualPages := 0
  deflateOnOOM := d.deflateOnOOM
  statsEnabled := d.statsEnabled
  ballooned := List.replicate d.ballooned.length false
  pfn_lt := by
    intro i hi
    rw [getD_replicate_false] at hi
    exact absurd hi Bool.false_ne_true

variable (d : BalloonDevice)

variable (pfn : BitVec 32)

theorem blank_setPage (flag : Bool) (actual : BitVec 32) :
    (d.setPage pfn flag actual).blank = d.blank := by
  simp only [blank, setPage, length_set]

theorem blank_inflatePFN : (d.inflatePFN pfn).blank = d.blank := by
  rw [inflatePFN]
  split
  · rfl
  split
  · rfl
  · exact d.blank_setPage _ _ _

theorem blank_deflatePFN : (d.deflatePFN pfn).blank = d.blank := by
  rw [deflatePFN]
  split
  · rfl
  split
  · rfl
  · exact d.blank_setPage _ _ _

theorem blank_handlePFNQueue (q : Queue) (ram : ℕ → Ram) (inflate : Bool) :
    (d.handlePFNQueue q ram inflate).1.blank = d.blank := by
  rw [handlePFNQueue]
  split
  · rfl
  · refine foldl_keeps (fun d head ↦ ?_) _ d
    rw [handleHead]
    split
    · rfl
    · cases inflate with
      | true => exact foldl_keeps blank_inflatePFN _ d
      | false => exact foldl_keeps blank_deflatePFN _ d

theorem blank_writeConfig (offset : BitVec 32) (data : List Byte) :
    (d.writeConfig offset data).blank = d.blank := by
  rw [writeConfig]
  split <;> rfl

theorem blank_newBalloonDevice (memLen : ℕ) (cfg : BalloonDeviceConfig) :
    (newBalloonDevice memLen cfg).blank = empty memLen cfg := by
  have hempty : (empty memLen cfg).blank = empty memLen cfg := by
    simp only [blank, empty, length_replicate]
  rw [newBalloonDevice, restoreSnapshotPages, foldl_keeps blank_inflatePFN, hempty]

/-! ### The count of a restored balloon -/

variable {d}

theorem isBallooned_setPage {pfn i : BitVec 32} {flag : Bool} {actual : BitVec 32}
    (h : i.toNat < d.ballooned.length) : (d.setPage pfn flag actual).isBallooned i.toNat =
      if i = pfn then flag else d.isBallooned i.toNat := by
  simp only [isBallooned, setPage, ← BitVec.toNat_inj]
  split <;> grind

/-- Inflating distinct pages, none of them ballooned yet, counts each of them. -/
theorem actualPages_foldl_inflatePFN {pfns : List (BitVec 32)} (hnodup : pfns.Nodup)
    (h : ∀ pfn ∈ pfns, pfn.toNat < d.ballooned.length ∧ d.isBallooned pfn.toNat = false) :
    (pfns.foldl inflatePFN d).actualPages = d.actualPages + BitVec.ofNat 32 pfns.length := by
  induction pfns generalizing d with
  | nil => exact (BitVec.add_zero _).symm
  | cons pfn pfns ih =>
    obtain ⟨hnotin, hnodup⟩ := nodup_cons.mp hnodup
    obtain ⟨hlt, hfree⟩ := h pfn mem_cons_self
    have hstep : d.inflatePFN pfn = d.setPage pfn true (d.actualPages + 1) := by
      rw [inflatePFN, if_neg (Nat.not_le.mpr hlt), if_neg (by rw [hfree]; decide)]
    have hrest : ∀ pfn' ∈ pfns, pfn'.toNat < (d.inflatePFN pfn).ballooned.length ∧
        (d.inflatePFN pfn).isBallooned pfn'.toNat = false := by
      intro pfn' hmem
      obtain ⟨hlt', hfree'⟩ := h pfn' (mem_cons_of_mem _ hmem)
      have hne : pfn' ≠ pfn := fun heq ↦ hnotin (heq ▸ hmem)
      rw [hstep, isBallooned_setPage hlt', if_neg hne]
      exact ⟨by rwa [setPage, length_set], hfree'⟩
    rw [foldl_cons, ih hnodup hrest, hstep, length_cons, setPage, BitVec.add_assoc,
      Nat.add_comm, ofNat_add]
    rfl

theorem length_filter_getD (flags : List Bool) :
    ((List.range flags.length).filter (flags.getD · false)).length = flags.count true := by
  induction flags with
  | nil => rfl
  | cons b flags ih =>
    rw [length_cons, range_succ_eq_map, filter_cons, filter_map, count_cons, ← ih]
    cases b <;> simp [Function.comp_def]

theorem nodup_snapshotPages (d : BalloonDevice) : d.snapshotPages.Nodup := by
  refine Nodup.map_on ?_ (nodup_range.filter _)
  intro i hi j hj heq
  have hi := d.pfn_lt i (mem_filter.mp hi).2
  have hj := d.pfn_lt j (mem_filter.mp hj).2
  have heq := congrArg BitVec.toNat heq
  rwa [toNat_ofNat, toNat_ofNat, Nat.mod_eq_of_lt hi, Nat.mod_eq_of_lt hj] at heq

theorem length_snapshotPages (d : BalloonDevice) :
    d.snapshotPages.length = d.ballooned.count true := by
  rw [snapshotPages, length_map]
  exact length_filter_getD d.ballooned

theorem toNat_lt_of_mem_snapshotPages {pfn : BitVec 32} (h : pfn ∈ d.snapshotPages) :
    pfn.toNat < d.ballooned.length := by
  obtain ⟨i, hi, rfl⟩ := mem_map.mp h
  obtain ⟨hrange, hset⟩ := mem_filter.mp hi
  rw [toNat_ofNat, Nat.mod_eq_of_lt (d.pfn_lt i hset)]
  exact mem_range.mp hrange

/-- **The count after a restore.** A balloon restored from the pages of `d` counts them. -/
theorem actualPages_restored {memLen : ℕ} {cfg : BalloonDeviceConfig}
    (h : d.blank = empty memLen cfg) :
    (newBalloonDevice memLen { cfg with snapshotPages := d.snapshotPages }).actualPages =
      BitVec.ofNat 32 (d.ballooned.count true) := by
  have hlen : d.ballooned.length = memLen / balloonPageSize := by
    have := congrArg (fun b ↦ b.ballooned.length) h
    simpa only [blank, empty, length_replicate] using this
  rw [newBalloonDevice, restoreSnapshotPages,
    actualPages_foldl_inflatePFN d.nodup_snapshotPages, length_snapshotPages]
  · exact BitVec.zero_add _
  intro pfn hmem
  refine ⟨?_, getD_replicate_false _ _⟩
  rw [empty, length_replicate, ← hlen]
  exact toNat_lt_of_mem_snapshotPages hmem

end BalloonDevice

namespace Device

/-- The device without what the guest has done to it. -/
def blank : Device → Device
  | .balloon d => .balloon d.blank
  | .net d => .net { d with status := 0 }
  | dev => dev

variable (dev : Device)

theorem blank_writeConfig (offset : BitVec 32) (data : List Byte) :
    (dev.writeConfig offset data).blank = dev.blank := by
  cases dev with
  | balloon d => exact congrArg Device.balloon (d.blank_writeConfig offset data)
  | _ => rfl

theorem blank_activateLink : dev.activateLink.1.blank = dev.blank := by
  cases dev <;> rfl

theorem blank_notify (idx : Fin 8) (q : Queue) (ram : ℕ → Ram) :
    (dev.notify idx q ram).1.blank = dev.blank := by
  cases dev with
  | balloon d =>
    rw [notify]
    split
    · exact congrArg Device.balloon (d.blank_handlePFNQueue q ram true)
    split
    · exact congrArg Device.balloon (d.blank_handlePFNQueue q ram false)
    · rfl
  | _ => rfl

theorem deviceID_blank : dev.blank.deviceID = dev.deviceID := by
  cases dev <;> rfl

theorem deviceFeatures_blank : dev.blank.deviceFeatures = dev.deviceFeatures := by
  cases dev <;> rfl

end Device

end Gocracker
