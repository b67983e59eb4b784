import Gocracker.Virtio.Device

/-!
# The MMIO transport, and its snapshots

A transport is the register window in front of a device. The guest reads and writes it byte-wise:
below `0x100` lie the registers, which answer to accesses of four bytes only, and above it the
device's configuration space. `state` is what a snapshot keeps of a transport and `restoreState`
puts it into a freshly constructed one.

## What a restored guest reads

A restore is transparent if the restored transport answers every read as the original would have.
The registers are: each register that can be read comes back from the snapshot. The device behind
the window is not, for a device state that is kept nowhere, and `Restorable` says exactly when it
makes no difference. A network device comes back with its link down. A balloon comes back with a
count recomputed from its pages. And on x86 a writable drive comes back with the discard feature,
probed for or not.
-/

namespace Gocracker

open Machine List BitVec

/-! ## Registers -/

inductive Reg where
  | magic
  | version
  | deviceID
  | vendorID
  | devFeatures
  | devFeaturesSel
  | drvFeatures
  | drvFeaturesSel
  | queueSel
  | queueNumMax
  | queueNum
  | queueReady
  | queueNotify
  | interruptStat
  | interruptACK
  | status
  | queueDescLow
  | queueDescHigh
  | queueDriverLow
  | queueDriverHigh
  | queueDeviceLow
  | queueDeviceHigh
  | shmSel
  | shmLenLow
  | shmLenHigh
  | shmBaseLow
  | shmBaseHigh
  | configGeneration
  deriving DecidableEq

/-- The register at an offset of the window. -/
def Reg.ofOffset : ℕ → Option Reg
  | 0x000 => some .magic
  | 0x004 => some .version
  | 0x008 => some .deviceID
  | 0x00C => some .vendorID
  | 0x010 => some .devFeatures
  | 0x014 => some .devFeaturesSel
  | 0x020 => some .drvFeatures
  | 0x024 => some .drvFeaturesSel
  | 0x030 => some .queueSel
  | 0x034 => some .queueNumMax
  | 0x038 => some .queueNum
  | 0x044 => some .queueReady
  | 0x050 => some .queueNotify
  | 0x060 => some .interruptStat
  | 0x064 => some .interruptACK
  | 0x070 => some .status
  | 0x080 => some .queueDescLow
  | 0x084 => some .queueDescHigh
  | 0x090 => some .queueDriverLow
  | 0x094 => some .queueDriverHigh
  | 0x0A0 => some .queueDeviceLow
  | 0x0A4 => some .queueDeviceHigh
  | 0x0AC => some .shmSel
  | 0x0B0 => some .shmLenLow
  | 0x0B4 => some .shmLenHigh
  | 0x0B8 => some .shmBaseLow
  | 0x0BC => some .shmBaseHigh
  | 0x0FC => some .configGeneration
  | _ => none

/-- Where the configuration space starts. -/
def regConfig : BitVec 32 := 0x100

/-! ## The transport -/

structure Transport where
  dev : Device
  status : BitVec 32
  drvFeatures : BitVec 64
  devFeaturesSel : BitVec 32
  drvFeaturesSel : BitVec 32
  /-- Only one of the eight queues can be selected. -/
  queueSel : Fin 8
  shmSel : BitVec 32
  interruptStat : BitVec 32
  queues : Fin 8 → Queue

/-- A transport as it is constructed, for a guest whose RAM starts at `base`. -/
def newTransport (dev : Device) (base : BitVec 64) : Transport where
  dev := dev
  status := 0
  drvFeatures := 0
  devFeaturesSel := 0
  drvFeaturesSel := 0
  queueSel := 0
  shmSel := 0
  interruptStat := 0
  queues := fun _ ↦ (newQueue 256).setGuestPhysBase base

/-- Replace the low word. -/
def setLow (x : BitVec 64) (val : BitVec 32) : BitVec 64 :=
  x &&& ~~~0xFFFFFFFF#64 ||| val.setWidth 64

/-- Replace the high word. -/
def setHigh (x : BitVec 64) (val : BitVec 32) : BitVec 64 :=
  x &&& 0xFFFFFFFF#64 ||| val.setWidth 64 <<< 32

/-- A queue as it is after its creation; where RAM starts is not forgotten. -/
def Queue.reset (q : Queue) : Queue := (newQueue 256).setGuestPhysBase q.guestPhysBase

/-- The half of a device's features selected by `sel`, with `VIRTIO_F_VERSION_1`. -/
def Device.featureWord (dev : Device) (sel : BitVec 32) : BitVec 32 :=
  let feat := dev.deviceFeatures ||| 1#64 <<< 32
  if sel = 1 then (feat >>> 32).setWidth 32 else feat.setWidth 32

namespace Transport

variable (t : Transport)

/-- What a register reads, if it can be read. None of the devices here has shared memory, whose
length then reads as all ones. -/
def readRegister : Reg → Option (BitVec 32)
  | .magic => some 0x74726976
  | .version => some 2
  | .deviceID => some t.dev.deviceID
  | .vendorID => some 0x554D4551
  | .devFeatures => some (t.dev.featureWord t.devFeaturesSel)
  | .queueNumMax => some 256
  | .queueReady => some (if (t.queues t.queueSel).ready then 1 else 0)
  | .interruptStat => some t.interruptStat
  | .status => some t.status
  | .shmLenLow | .shmLenHigh => some 0xFFFFFFFF
  | .shmBaseLow | .shmBaseHigh | .configGeneration => some 0
  | _ => none

/-- A guest's read of `len` bytes: zeros where there is nothing to read. -/
def readBytes (offset : BitVec 32) (len : ℕ) : List Byte :=
  if offset < regConfig then
    if len ≠ 4 then List.replicate len 0
    else
      match (Reg.ofOffset offset.toNat).bind t.readRegister with
      | none => List.replicate len 0
      | some v => putLE 4 v.toNat
  else
    let start := (offset - regConfig).toNat
    if t.dev.configBytes.length ≤ start then List.replicate len 0
    else writeAt (List.replicate len 0) 0 (t.dev.configBytes.drop start)

/-- Change the selected queue. -/
def modifyQueue (f : Queue → Queue) : Transport :=
  { t with queues := Function.update t.queues t.queueSel (f (t.queues t.queueSel)) }

/-- The driver wrote zero to the status register. The device's own state stays. -/
def resetTransport : Transport where
  dev := t.dev
  status := 0
  drvFeatures := 0
  devFeaturesSel := 0
  drvFeaturesSel := 0
  queueSel := 0
  shmSel := 0
  interruptStat := 0
  queues := fun i ↦ (t.queues i).reset

/-- The driver set the status. When `DRIVER_OK` is set for the first time the link comes up, which
is announced as a configuration change. -/
def setStatus (val : BitVec 32) : Transport :=
  if val = 0 then t.resetTransport
  else if val &&& 4 ≠ 0 ∧ t.status &&& 4 = 0 ∧ t.dev.activateLink.2 = true then
    { t with
      status := val
      dev := t.dev.activateLink.1
      interruptStat := t.interruptStat ||| 2 }
  else { t with status := val }

def notifyQueue (idx : Fin 8) (ram : ℕ → Ram) : Transport :=
  if (t.queues idx).ready then
    let r := t.dev.notify idx (t.queues idx) ram
    { t with
      dev := r.1
      queues := Function.update t.queues idx r.2.1
      interruptStat := if r.2.2 then t.interruptStat ||| 1 else t.interruptStat }
  else t

def writeRegister (val : BitVec 32) (ram : ℕ → Ram) : Reg → Transport
  | .devFeaturesSel => { t with devFeaturesSel := val }
  | .drvFeaturesSel => { t with drvFeaturesSel := val }
  | .drvFeatures =>
    { t with
      drvFeatures := if t.drvFeaturesSel = 0 then setLow t.drvFeatures val
        else setHigh t.drvFeatures val }
  | .queueSel => if h : val.toNat < 8 then { t with queueSel := ⟨val.toNat, h⟩ } else t
  | .shmSel => { t with shmSel := val }
  | .queueNum =>
    if 1 ≤ val.toNat ∧ val.toNat ≤ maxQueueSize then t.modifyQueue fun q ↦ { q with size := val }
    else t
  | .queueReady => t.modifyQueue fun q ↦ { q with ready := decide (val ≠ 0) }
  | .queueNotify => if h : val.toNat < 8 then t.notifyQueue ⟨val.toNat, h⟩ ram else t
  | .interruptACK => { t with interruptStat := t.interruptStat &&& ~~~val }
  | .status => t.setStatus val
  | .queueDescLow => t.modifyQueue fun q ↦ { q with descAddr := setLow q.descAddr val }
  | .queueDescHigh => t.modifyQueue fun q ↦ { q with descAddr := setHigh q.descAddr val }
  | .queueDriverLow => t.modifyQueue fun q ↦ { q with driverAddr := setLow q.driverAddr val }
  | .queueDriverHigh => t.modifyQueue fun q ↦ { q with driverAddr := setHigh q.driverAddr val }
  | .queueDeviceLow => t.modifyQueue fun q ↦ { q with deviceAddr := setLow q.deviceAddr val }
  | .queueDeviceHigh => t.modifyQueue fun q ↦ { q with deviceAddr := setHigh q.deviceAddr val }
  | _ => t

/-- A guest's write. `ram` is guest RAM at the successive reads of it, should the write be a
notification. -/
def writeBytes (offset : BitVec 32) (data : List Byte) (ram : ℕ → Ram) :
    Transport :=
  if regConfig ≤ offset then { t with dev := t.dev.writeConfig (offset - regConfig) data }
  else if data.length ≠ 4 then t
  else
    match Reg.ofOffset offset.toNat with
    | none => t
    | some reg => t.writeRegister (BitVec.ofNat 32 (getLE data)) ram reg

end Transport

/-! ## What happens to a transport -/

inductive TransportEvent where
  /-- The guest writes to the window. -/
  | write (offset : BitVec 32) (data : List Byte) (ram : ℕ → Ram)
  /-- A packet from the host takes a head off queue 0, and may raise the interrupt. -/
  | deliver (pkt : List Byte) (r : Ram) (irq : Bool)

namespace Transport

/-- A pump of the device takes a head off queue 0. -/
def deliver (t : Transport) (kind : PumpKind) (pkt : List Byte) (r : Ram) (irq : Bool) :
    Transport :=
  { t with
    queues := Function.update t.queues 0 ((t.queues 0).consumeHead r kind pkt).1
    interruptStat := if irq then t.interruptStat ||| 1 else t.interruptStat }

def act (t : Transport) : TransportEvent → Transport
  | .write offset data ram => t.writeBytes offset data ram
  | .deliver pkt r irq =>
    match t.dev.pumpKind with
    | none => t
    | some kind => t.deliver kind pkt r irq

end Transport

/-! ## Snapshots -/

structure QueueState where
  size : BitVec 32
  ready : Bool
  lastAvail : BitVec 16
  descAddr : BitVec 64
  driverAddr : BitVec 64
  deviceAddr : BitVec 64

structure TransportState where
  status : BitVec 32
  drvFeatures : BitVec 64
  devFeaturesSel : BitVec 32
  drvFeaturesSel : BitVec 32
  queueSel : Fin 8
  interruptStat : BitVec 32
  queues : List QueueState

def Queue.state (q : Queue) : QueueState :=
  ⟨q.size, q.ready, q.lastAvail, q.descAddr, q.driverAddr, q.deviceAddr⟩

def Queue.restoreState (q : Queue) (s : QueueState) : Queue where
  size := s.size
  ready := s.ready
  lastAvail := s.lastAvail
  descAddr := s.descAddr
  driverAddr := s.driverAddr
  deviceAddr := s.deviceAddr
  guestPhysBase := q.guestPhysBase

def Device.rebuilt (arch : Arch) (memLen : ℕ) (cfg : DeviceConfig) (dev : Device) : Device :=
  newDevice memLen (cfg.restoring arch dev.snapshotPages)

open Device

namespace Transport

/-- What a snapshot keeps of a transport; the shared-memory selector is not kept. -/
def state (t : Transport) : TransportState where
  status := t.status
  drvFeatures := t.drvFeatures
  devFeaturesSel := t.devFeaturesSel
  drvFeaturesSel := t.drvFeaturesSel
  queueSel := t.queueSel
  interruptStat := t.interruptStat
  queues := List.ofFn fun i ↦ (t.queues i).state

def restoreState (t : Transport) (s : TransportState) : Transport where
  dev := t.dev
  status := s.status
  drvFeatures := s.drvFeatures
  devFeaturesSel := s.devFeaturesSel
  drvFeaturesSel := s.drvFeaturesSel
  queueSel := s.queueSel
  shmSel := t.shmSel
  interruptStat := s.interruptStat
  queues := fun i ↦
    match s.queues[i.val]? with
    | none => t.queues i
    | some qs => (t.queues i).restoreState qs

/-- A device of configuration `cfg` is constructed, and things happen to its transport. -/
def reached (memLen : ℕ) (base : BitVec 64) (cfg : DeviceConfig) (events : List TransportEvent) :
    Transport :=
  events.foldl act (newTransport (newDevice memLen cfg) base)

/-- The transport a restore builds for the device of configuration `cfg` whose transport was `t` at
the snapshot. -/
def restored (arch : Arch) (memLen : ℕ) (base : BitVec 64) (cfg : DeviceConfig) (t : Transport) :
    Transport :=
  (newTransport (rebuilt arch memLen cfg t.dev) base).restoreState t.state

end Transport

/-- A restore brings the device back as the guest saw it, where `sel` selects the features that are
read. -/
def Device.Restorable (arch : Arch) (sel : BitVec 32) : Device → Prop
  | .rng => True
  | .balloon d => d.actualPages = BitVec.ofNat 32 (d.ballooned.count true)
  | .net d => d.status = 0
  | .vsock => True
  | .blk d => d.readOnly = true ∨ d.discard = true ∨ arch = .arm64 ∨ sel = 1

/-! ### A run leaves the device's identity -/

namespace Transport

variable (t : Transport)

theorem blank_setStatus (val : BitVec 32) : (t.setStatus val).dev.blank = t.dev.blank := by
  rw [setStatus]
  split
  · rfl
  split
  · exact t.dev.blank_activateLink
  · rfl

theorem blank_notifyQueue (idx : Fin 8) (ram : ℕ → Ram) :
    (t.notifyQueue idx ram).dev.blank = t.dev.blank := by
  rw [notifyQueue]
  split
  · exact t.dev.blank_notify idx _ ram
  · rfl

theorem blank_writeRegister (val : BitVec 32) (ram : ℕ → Ram) (reg : Reg) :
    (t.writeRegister val ram reg).dev.blank = t.dev.blank := by
  cases reg with
  | status => exact t.blank_setStatus val
  | queueNotify =>
    rw [writeRegister]
    split
    · exact t.blank_notifyQueue _ ram
    · rfl
  | queueSel | queueNum => rw [writeRegister]; split <;> rfl
  | _ => rfl

theorem blank_act (e : TransportEvent) : (t.act e).dev.blank = t.dev.blank := by
  cases e with
  | write offset data ram =>
    rw [act, writeBytes]
    split
    · exact t.dev.blank_writeConfig _ data
    split
    · rfl
    split
    · rfl
    · exact t.blank_writeRegister _ ram _
  | deliver pkt r irq =>
    rw [act]
    split <;> rfl

/-! ### What decides the answers -/

theorem readBytes_regConfig :
    t.readBytes regConfig t.dev.configBytes.length = t.dev.configBytes := by
  have hstart : (regConfig - regConfig).toNat = 0 := by decide
  rw [readBytes, if_neg (by decide)]
  simp only [hstart]
  split_ifs with hempty
  · rw [length_eq_zero_iff.mp (Nat.le_zero.mp hempty)]
    rfl
  · exact writeAt_of_length_eq (length_replicate).symm

/-- Two transports that differ in their devices answer alike if the devices show the same features
and the same configuration space. -/
theorem readBytes_eq_iff {t t' : Transport}
    (hregs : ∀ reg, reg ≠ .devFeatures → t'.readRegister reg = t.readRegister reg)
    (hlen : t'.dev.configBytes.length = t.dev.configBytes.length) :
    (∀ offset len, t'.readBytes offset len = t.readBytes offset len) ↔
      t'.dev.featureWord t'.devFeaturesSel = t.dev.featureWord t.devFeaturesSel ∧
        t'.dev.configBytes = t.dev.configBytes := by
  constructor
  · intro h
    constructor
    · have hread : putLE 4 (t'.dev.featureWord t'.devFeaturesSel).toNat =
          putLE 4 (t.dev.featureWord t.devFeaturesSel).toNat := h 0x010 4
      exact eq_of_toNat_eq (putLE_inj (BitVec.isLt _) (BitVec.isLt _) hread)
    · -- The configuration space is read at its start, in one access.
      have hread := h regConfig t.dev.configBytes.length
      rwa [readBytes_regConfig, ← hlen, readBytes_regConfig] at hread
  · rintro ⟨hword, hcfg⟩ offset len
    have hreg : t'.readRegister = t.readRegister := by
      funext reg
      rcases eq_or_ne reg .devFeatures with rfl | hne
      · exact congrArg some hword
      · exact hregs reg hne
    simp only [readBytes, hreg, hcfg]

/-- Every register comes back, but for what the device itself shows. -/
theorem readRegister_restored {arch : Arch} {memLen : ℕ} {base : BitVec 64} {cfg : DeviceConfig}
    {t : Transport} (hid : (restored arch memLen base cfg t).dev.deviceID = t.dev.deviceID)
    {reg : Reg} (hne : reg ≠ .devFeatures) :
    (restored arch memLen base cfg t).readRegister reg = t.readRegister reg := by
  cases reg with
  | deviceID => exact congrArg some hid
  | devFeatures => exact absurd rfl hne
  | queueReady =>
    have hstate (i : Fin 8) : t.state.queues[i.val]? = some (t.queues i).state := by
      rw [state, List.getElem?_ofFn, dif_pos i.isLt]
    simp only [restored, restoreState, hstate]
    rfl
  | _ => rfl

end Transport

/-! ### What the device shows after a restore -/

namespace Device

variable {arch : Arch} {memLen : ℕ} {cfg : DeviceConfig} {dev : Device}

theorem deviceID_rebuilt (h : dev.blank = (newDevice memLen cfg).blank) :
    (rebuilt arch memLen cfg dev).deviceID = dev.deviceID := by
  rw [← dev.deviceID_blank, h]
  cases cfg <;> cases arch <;> rfl

theorem length_configBytes_rebuilt (h : dev.blank = (newDevice memLen cfg).blank) :
    (rebuilt arch memLen cfg dev).configBytes.length = dev.configBytes.length := by
  have hlen : ∀ dev : Device, dev.configBytes.length = dev.blank.configBytes.length := by
    intro dev
    cases dev with
    | balloon d =>
      simp only [configBytes, blank, BalloonDevice.configBytes, length_append, length_putLE]
    | net d => simp only [configBytes, blank, NetDevice.configBytes, length_append, length_putLE]
    | _ => rfl
  have hkind : (rebuilt arch memLen cfg dev).blank.configBytes.length =
      (newDevice memLen cfg).blank.configBytes.length := by
    cases cfg with
    | balloon cfg =>
      rfl
    | blk image readOnly opts => cases arch <;> rfl
    | _ => rfl
  rw [hlen, hkind, ← h, ← hlen]

theorem configBytes_net_rebuilt_iff {mac : List Byte} {d : NetDevice}
    (h : (net d).blank = (newDevice memLen (.net mac)).blank) :
    (rebuilt arch memLen (.net mac) (.net d)).configBytes = (net d).configBytes ↔ d.status = 0 := by
  have hmac : d.mac = (newNetDevice mac).mac := by
    injection h with hnet
    exact congrArg (fun d ↦ d.mac) hnet
  change (newNetDevice mac).mac ++ putLE 2 0 = d.mac ++ putLE 2 d.status.toNat ↔ d.status = 0
  rw [hmac, append_cancel_left_eq]
  constructor
  · intro hput
    exact eq_of_toNat_eq (putLE_inj (by decide) d.status.isLt hput).symm
  · intro hstatus
    rw [hstatus]
    rfl

theorem configBytes_balloon_rebuilt_iff {c : BalloonDeviceConfig} {d : BalloonDevice}
    (h : (balloon d).blank = (newDevice memLen (.balloon c)).blank) :
    (rebuilt arch memLen (.balloon c) (.balloon d)).configBytes = (balloon d).configBytes ↔
      d.actualPages = BitVec.ofNat 32 (d.ballooned.count true) := by
  have hblank : d.blank = BalloonDevice.empty memLen c := by
    rw [← BalloonDevice.blank_newBalloonDevice]
    exact balloon.inj h
  have hrebuilt : (newBalloonDevice memLen { c with snapshotPages := d.snapshotPages }).blank =
      d.blank := by
    rw [BalloonDevice.blank_newBalloonDevice, hblank]
    rfl
  have hactual := BalloonDevice.actualPages_restored hblank
  have htarget : (newBalloonDevice memLen { c with snapshotPages := d.snapshotPages }).targetPages =
      d.targetPages := congrArg (fun b ↦ b.targetPages) hrebuilt
  change (newBalloonDevice memLen { c with snapshotPages := d.snapshotPages }).configBytes =
    d.configBytes ↔ _
  rw [BalloonDevice.configBytes, BalloonDevice.configBytes, htarget, hactual,
    append_cancel_right_eq, append_cancel_left_eq]
  constructor
  · intro hput
    exact eq_of_toNat_eq (putLE_inj d.actualPages.isLt (BitVec.isLt _) hput.symm)
  · intro hcount
    rw [hcount]

variable {sel : BitVec 32}

theorem featureWord_blk_iff {sectors : BitVec 64} {discard : Bool} :
    (blk ⟨false, true, sectors⟩).featureWord sel =
        (blk ⟨false, discard, sectors⟩).featureWord sel ↔
      discard = true ∨ sel = 1 := by
  have hfeatures : ∀ b, (blk ⟨false, b, sectors⟩).deviceFeatures =
      if b then 0x2200 else 0x200 := by
    intro b
    cases b <;> simp [deviceFeatures, BlockDevice.deviceFeatures]
  simp only [featureWord, hfeatures]
  rcases eq_or_ne sel 1 with hsel | hsel
  · simp only [hsel, or_true]
    cases discard <;> decide
  · simp only [hsel, if_false]
    cases discard <;> decide

/-- On x86 a rebuilt writable drive advertises discard; on ARM64 it probes again. -/
theorem featureWord_blk_rebuilt_iff {image : BlockImage} {readOnly : Bool}
    {opts : BlockDeviceOptions} :
    (rebuilt arch memLen (.blk image readOnly opts) dev).featureWord sel =
        (newDevice memLen (.blk image readOnly opts)).featureWord sel ↔
      (newDevice memLen (.blk image readOnly opts)).Restorable arch sel := by
  cases arch with
  | arm64 => exact iff_of_true rfl (.inr (.inr (.inl rfl)))
  | amd64 =>
    cases readOnly with
    | true => exact iff_of_true rfl (.inl rfl)
    | false =>
      refine featureWord_blk_iff.trans ?_
      simp only [newDevice, newBlockDeviceWithOptions, Restorable, false_or,
        reduceCtorEq]

/-- **The device after a restore.** It shows what it showed before exactly if it is restorable. -/
theorem rebuilt_shows_iff (h : dev.blank = (newDevice memLen cfg).blank) (sel : BitVec 32) :
    ((rebuilt arch memLen cfg dev).featureWord sel = dev.featureWord sel ∧
        (rebuilt arch memLen cfg dev).configBytes = dev.configBytes) ↔
      dev.Restorable arch sel := by
  cases cfg with
  | rng =>
    cases dev with
    | rng => exact iff_of_true ⟨rfl, rfl⟩ trivial
    | _ => exact Device.noConfusion h
  | vsock =>
    cases dev with
    | vsock => exact iff_of_true ⟨rfl, rfl⟩ trivial
    | _ => exact Device.noConfusion h
  | net mac =>
    cases dev with
    | net d => exact (and_iff_right rfl).trans (configBytes_net_rebuilt_iff h)
    | _ => exact Device.noConfusion h
  | balloon c =>
    cases dev with
    | balloon d =>
      have hfeatures : (rebuilt arch memLen (.balloon c) (.balloon d)).deviceFeatures =
          (balloon d).deviceFeatures := by
        rw [← deviceFeatures_blank, ← (balloon d).deviceFeatures_blank, h]
        simp only [rebuilt, newDevice, DeviceConfig.restoring, blank,
          BalloonDevice.blank_newBalloonDevice]
        rfl
      refine (and_iff_right ?_).trans (configBytes_balloon_rebuilt_iff h)
      rw [featureWord, featureWord, hfeatures]
    | _ => exact Device.noConfusion h
  | blk image readOnly opts =>
    cases dev with
    | blk d =>
      -- A guest changes nothing about a block device, so `d` is what was constructed.
      obtain rfl : d = newBlockDeviceWithOptions image readOnly opts := blk.inj h
      refine (and_iff_left ?_).trans featureWord_blk_rebuilt_iff
      cases arch <;> rfl
    | _ => exact Device.noConfusion h

end Device

open Transport

/-- **Transparency of a restore.** Whatever a guest has done to a device, the transport restored
from its snapshot answers every read as the original does exactly if the device is restorable. -/
theorem readBytes_restored_iff_restorable (arch : Arch) (memLen : ℕ) (base : BitVec 64)
    (cfg : DeviceConfig) (events : List TransportEvent) : (∀ offset len,
        (restored arch memLen base cfg (reached memLen base cfg events)).readBytes offset len =
          (reached memLen base cfg events).readBytes offset len) ↔
      (reached memLen base cfg events).dev.Restorable arch
        (reached memLen base cfg events).devFeaturesSel := by
  have hblank : (reached memLen base cfg events).dev.blank =
      (newDevice memLen cfg).blank :=
    foldl_keeps (g := fun t : Transport ↦ t.dev.blank) blank_act events _
  have hregs : ∀ reg, reg ≠ .devFeatures →
      (restored arch memLen base cfg (reached memLen base cfg events)).readRegister reg =
        (reached memLen base cfg events).readRegister reg := by
    intro reg hne
    exact readRegister_restored (deviceID_rebuilt hblank) hne
  rw [readBytes_eq_iff hregs (length_configBytes_rebuilt hblank)]
  exact rebuilt_shows_iff hblank _

/-- A network device whose driver has come up, on any RAM: after the restore the link status reads
as down. -/
theorem not_readBytes_restored_driverOK : ¬ ∀ offset len,
      (restored .amd64 0 0 (.net []) (reached 0 0 (.net [])
            [.write 0x070 [4, 0, 0, 0] fun _ ↦ ⟨[], by decide⟩])).readBytes offset len =
        (reached 0 0 (.net [])
          [.write 0x070 [4, 0, 0, 0] fun _ ↦ ⟨[], by decide⟩]).readBytes offset len := by
  intro h
  exact absurd (h 0x106 2) (by decide)

/-! ## Where a balloon takes a configuration write -/

namespace BalloonDevice

variable (d : BalloonDevice) (offset : ℕ) (data : List Byte)

/-- What a guest is to read after its write: `actual`, in the bytes 4 to 7, is the one field that
takes it. -/
def writtenConfig : List Byte :=
  d.configBytes.take 4 ++ slice (writeAt d.configBytes offset data) 4 4 ++ d.configBytes.drop 8

theorem writtenConfig_eq : d.writtenConfig offset data = putLE 4 d.targetPages.toNat ++
      writeAt (putLE 4 d.actualPages.toNat) (offset - 4) (data.drop (4 - offset)) ++
        List.replicate 8 0 := by
  rw [writtenConfig, configBytes, writeAt_append, writeAt_append]
  refine congrArg₂ _ (congrArg₂ _ rfl ?_) rfl
  rw [slice_append_left (by simp)]
  exact (slice_append_right _ _ 4).trans (take_of_length_le (by simp))

/-- The code lets the write land in `actual` as if that field stood at 0. -/
theorem configBytes_writeConfig (d : BalloonDevice) (offset : BitVec 32) (data : List Byte) :
    (d.writeConfig offset data).configBytes = putLE 4 d.targetPages.toNat ++
      writeAt (putLE 4 d.actualPages.toNat) offset.toNat data ++ List.replicate 8 0 := by
  rw [writeConfig]
  split_ifs with hskip
  · have hkept : writeAt (putLE 4 d.actualPages.toNat) offset.toNat data =
        putLE 4 d.actualPages.toNat := by
      rcases hskip with hlt | rfl
      · refine ext_getElem (length_writeAt ..) fun i hi _ ↦ ?_
        have hi' : i < offset.toNat := by
          rw [length_writeAt] at hi
          exact hi.trans hlt
        simp only [writeAt, getElem_mapIdx, if_neg hi'.not_ge]
      · exact writeAt_nil _ _
    rw [hkept, configBytes]
  · have hraw := putLE_getLE (writeAt (putLE 4 d.actualPages.toNat) offset.toNat data)
    have hlt := getLE_lt (writeAt (putLE 4 d.actualPages.toNat) offset.toNat data)
    rw [length_writeAt, length_putLE] at hraw hlt
    rw [configBytes, toNat_ofNat, Nat.mod_eq_of_lt (b := 2 ^ 32) hlt, hraw]

end BalloonDevice

/-- What the data of a write at an offset has to be, if a field that stands at 4 and has the bytes
`old` is taken to stand at 0: bytes that are four apart are equal; a byte before the field with none
four behind it is the one the field has there; and so is one in the field with none four before. -/
structure Unshifted (old : List Byte) (offset : ℕ) (data : List Byte) : Prop where
  both : ∀ k < data.length, k + 4 < data.length → data[k]? = data[k + 4]?
  before : ∀ k < data.length, data.length ≤ k + 4 → offset + k < 4 → data[k]? = old[offset + k]?
  within : ∀ k < data.length, k < 4 → 4 ≤ offset + k → data[k]? = old[offset + k - 4]?

theorem writeAt_eq_iff_unshifted {old data : List Byte} {offset : ℕ} (hold : old.length = 4)
    (hle : offset + data.length ≤ 8) :
    writeAt old offset data = writeAt old (offset - 4) (data.drop (4 - offset)) ↔
      Unshifted old offset data := by
  have hcode : ∀ i < 4, (writeAt old offset data)[i]? =
      if offset ≤ i ∧ i < offset + data.length then data[i - offset]? else old[i]? := by
    intro i hi
    split_ifs with hin
    · exact getElem?_writeAt_of_mem (by omega) hin.1 hin.2
    · exact getElem?_writeAt_of_not_mem hin
  have hlayout : ∀ i < 4, (writeAt old (offset - 4) (data.drop (4 - offset)))[i]? =
      if offset ≤ i + 4 ∧ i + 4 < offset + data.length then data[i + 4 - offset]? else old[i]? := by
    intro i hi
    split_ifs with hin
    · rw [getElem?_writeAt_of_mem (by omega) (by omega) (by rw [length_drop]; omega), getElem?_drop,
        show 4 - offset + (i - (offset - 4)) = i + 4 - offset by omega]
    · exact getElem?_writeAt_of_not_mem (by rw [length_drop]; omega)
  constructor
  · intro h
    have hat : ∀ i < 4, _ := fun i hi ↦
      (hcode i hi).symm.trans ((congrArg (·[i]?) h).trans (hlayout i hi))
    refine ⟨fun k hk hk' ↦ ?_, fun k hk hk' hlt ↦ ?_, fun k hk hk' hge ↦ ?_⟩
    · have heq := hat (offset + k) (by omega)
      rwa [if_pos (by omega), if_pos (by omega), Nat.add_sub_cancel_left,
        show offset + k + 4 - offset = k + 4 by omega] at heq
    · have heq := hat (offset + k) hlt
      rwa [if_pos (by omega), if_neg (by omega), Nat.add_sub_cancel_left] at heq
    · have heq := hat (offset + k - 4) (by omega)
      rw [if_neg (by omega), if_pos (by omega),
        show offset + k - 4 + 4 - offset = k by omega] at heq
      exact heq.symm
  · intro h
    refine ext_getElem? fun i ↦ ?_
    by_cases hi : i < 4
    · rw [hcode i hi, hlayout i hi]
      split_ifs
      · rw [h.both (i - offset) (by omega) (by omega),
          show i - offset + 4 = i + 4 - offset by omega]
      · rw [h.before (i - offset) (by omega) (by omega) (by omega),
          show offset + (i - offset) = i by omega]
      · rw [h.within (i + 4 - offset) (by omega) (by omega) (by omega),
          show offset + (i + 4 - offset) - 4 = i by omega]
      · rfl
    · rw [getElem?_eq_none (by rw [length_writeAt]; omega),
        getElem?_eq_none (by rw [length_writeAt]; omega)]

/-- **Configuration writes to a balloon.** The guest reads what the layout promises exactly if its
data does not show that the code takes `actual` to stand at 0. -/
theorem readBytes_balloon_written_iff {t : Transport} {d : BalloonDevice}
    (hdev : t.dev = .balloon d) (ram : ℕ → Ram) {offset : BitVec 32} {data : List Byte}
    (hle : offset.toNat + data.length ≤ 8) :
    (t.writeBytes (regConfig + offset) data ram).readBytes regConfig 16 =
        d.writtenConfig offset.toNat data ↔
      Unshifted (putLE 4 d.actualPages.toNat) offset.toNat data := by
  have hreg : regConfig ≤ regConfig + offset := by
    rw [regConfig]
    bv_omega
  have hdev' : (t.writeBytes (regConfig + offset) data ram).dev =
      .balloon (d.writeConfig offset data) := by
    rw [writeBytes, if_pos hreg, hdev, BitVec.add_comm, BitVec.add_sub_cancel]
    rfl
  have hread := readBytes_regConfig (t.writeBytes (regConfig + offset) data ram)
  rw [hdev', configBytes, d.configBytes_writeConfig] at hread
  simp only [length_append, length_putLE, length_writeAt, length_replicate] at hread
  rw [hread, d.writtenConfig_eq, append_cancel_right_eq, append_cancel_left_eq]
  exact writeAt_eq_iff_unshifted (length_putLE 4 _) hle

/-- One write over both fields, with the same number for both. -/
theorem readBytes_balloon_written_both :
    ((newTransport (.balloon (.empty 0 ⟨0, false, 0, false, []⟩)) 0).writeBytes
        (regConfig + 0) [1, 0, 0, 0, 1, 0, 0, 0] fun _ ↦ ⟨[], by decide⟩).readBytes regConfig 16 =
      (BalloonDevice.empty 0 ⟨0, false, 0, false, []⟩).writtenConfig 0 [1, 0, 0, 0, 1, 0, 0, 0] :=
  (readBytes_balloon_written_iff rfl _ (by decide)).mpr ⟨by decide, by decide, by decide⟩

/-- A driver reports one page in `actual`, and reads back zero. -/
theorem readBytes_balloon_written_actual :
    ((newTransport (.balloon (.empty 0 ⟨0, false, 0, false, []⟩)) 0).writeBytes
        (regConfig + 4) [1, 0, 0, 0] fun _ ↦ ⟨[], by decide⟩).readBytes regConfig 16 ≠
      (BalloonDevice.empty 0 ⟨0, false, 0, false, []⟩).writtenConfig 4 [1, 0, 0, 0] := by
  decide

end Gocracker
