import Gocracker.Virtio.Transport

/-!
# Does an index stay in its slice?

Go panics at an index outside of its slice, and a panic ends the process with all that it serves.
The guest chooses the addresses of the rings, the indices in them, and the descriptors. So each
function of the queue and of the transport is modelled once more, by the index expressions it
evaluates with a given memory: the slices of RAM, the ring of 256 heads, the table of the indices
seen, the eight queues. Every address there has been checked before.

The activation of virtio-fs is another matter. It hands the addresses of the rings to the backend,
and takes each by indexing RAM with what the guest has written (`hostAddr`).
-/

namespace Gocracker

open Machine List Nat

/-- An expression that can panic. -/
inductive Access where
  | slice (lo hi len : ℕ)
  | rem (divisor : ℕ)
  deriving DecidableEq

/-- It does not. -/
def Access.Ok : Access → Prop
  | .slice lo hi len => lo ≤ hi ∧ hi ≤ len
  | .rem divisor => divisor ≠ 0

instance : DecidablePred Access.Ok
  | .slice lo hi len => inferInstanceAs (Decidable (lo ≤ hi ∧ hi ≤ len))
  | .rem divisor => inferInstanceAs (Decidable (divisor ≠ 0))

abbrev Safe (accs : List Access) : Prop := ∀ a ∈ accs, a.Ok

namespace Safe

variable {a : Access} {accs accs' : List Access}

theorem nil : Safe [] := forall_mem_nil _

theorem cons (h : a.Ok) (hs : Safe accs) : Safe (a :: accs) := forall_mem_cons.mpr ⟨h, hs⟩

theorem one (h : a.Ok) : Safe [a] := .cons h .nil

theorem append (h : Safe accs) (h' : Safe accs') : Safe (accs ++ accs') :=
  forall_mem_append.mpr ⟨h, h'⟩

theorem flatMap {α : Type} {l : List α} {f : α → List Access} (h : ∀ x ∈ l, Safe (f x)) :
    Safe (l.flatMap f) := by
  intro a ha
  obtain ⟨x, hx, ha⟩ := mem_flatMap.mp ha
  exact h x hx a ha

theorem guard {c : Prop} [Decidable c] (h : ¬ c → Safe accs) : Safe (if c then [] else accs) := by
  split_ifs with hc
  · exact .nil
  · exact h hc

end Safe

/-! ## Queues -/

inductive QueueCall where
  | availIdx
  | iterAvail
  | consumeAvail
  | walkChain (head : BitVec 16)
  | pushUsed
  | guestRead (addr : BitVec 64) (len : ℕ)
  | guestWrite (addr : BitVec 64) (len : ℕ)

namespace Queue

variable (q : Queue) (r : Ram)

def word (o : BitVec 64) (n : ℕ) : Access := .slice o.toNat (o.toNat + n) r.bytes.length

def behind {α : Type} (check : Except QueueError α) (accs : α → List Access) : List Access :=
  match check with
  | .error _ => []
  | .ok a => accs a

def readAvailAccs : List Access :=
  behind q.normalizedSize fun size ↦
    behind (q.checkedRange r.bytes.length q.driverAddr (4 + size.setWidth 64 * 2)) fun _ ↦
      let o := q.off q.driverAddr
      word r o 2 :: word r (o + 2) 2 :: (List.range size.toNat).flatMap fun i ↦
        [.slice i (i + 1) 256, word r (o + 4 + BitVec.ofNat 64 i * 2) 2]

def ringAccs (n : BitVec 16) : List Access :=
  let i := (n % q.size.setWidth 16).toNat
  [.rem (q.size.setWidth 16).toNat, .slice i (i + 1) 256]

def readDescAccs (idx : BitVec 16) : List Access :=
  behind q.normalizedSize fun size ↦
    if size ≤ idx then []
    else
      let gpa := q.descAddr + idx.setWidth 64 * 16
      behind (q.checkedRange r.bytes.length gpa 16) fun _ ↦
        let o := q.off gpa
        [word r o 8, word r (o + 8) 4, word r (o + 12) 2, word r (o + 14) 2]

/-- The walk, without the limits that end it earlier. -/
def walkAccs (size : BitVec 16) : ℕ → BitVec 16 → List (BitVec 16) → List Access
  | 0, _, _ => []
  | fuel + 1, idx, seen =>
    .slice idx.toNat (idx.toNat + 1) size.toNat :: if idx ∈ seen then [] else
      q.readDescAccs r idx ++ behind (q.readDesc r idx) fun d ↦
        if d.flags &&& descFlagNext = 0 ∨ size ≤ d.next then []
        else walkAccs size fuel d.next (idx :: seen)

def usedIdxAccs : List Access :=
  behind (q.checkedRange r.bytes.length (q.deviceAddr + 2) 2) fun _ ↦
    [word r (q.off (q.deviceAddr + 2)) 2]

def pushUsedAccs : List Access :=
  behind q.normalizedSize fun _ ↦
    q.usedIdxAccs r ++ behind (q.readUsedIdx r) fun used ↦
      .rem (q.size.setWidth 16).toNat ::
        behind (q.checkedRange r.bytes.length (q.usedEntry used) 8) fun _ ↦
          behind (q.checkedRange r.bytes.length (q.deviceAddr + 2) 2) fun _ ↦
            let entryOff := q.off (q.usedEntry used)
            [word r entryOff 4, word r (entryOff + 4) 4, word r (q.off (q.deviceAddr + 2)) 2]

/-- The index expressions of a call. -/
def accs : QueueCall → List Access
  | .availIdx =>
    if q.driverAddr = 0 then []
    else behind (q.checkedRange r.bytes.length (q.driverAddr + 2) 2) fun _ ↦
      [word r (q.off (q.driverAddr + 2)) 2]
  | .iterAvail =>
    q.readAvailAccs r ++ behind (q.readAvail r) fun avail ↦
      (List.range (avail.idx - q.lastAvail).toNat).flatMap fun i ↦
        q.ringAccs (q.lastAvail + BitVec.ofNat 16 i)
  | .consumeAvail =>
    q.readAvailAccs r ++ behind (q.readAvail r) fun avail ↦
      if q.lastAvail = avail.idx then [] else q.ringAccs q.lastAvail
  | .walkChain head =>
    behind q.normalizedSize fun size ↦
      if size ≤ head then [] else q.walkAccs r size (size.toNat + 1) head []
  | .pushUsed => q.pushUsedAccs r
  | .guestRead addr len | .guestWrite addr len =>
    behind (q.checkedRange r.bytes.length addr (BitVec.ofNat 64 len)) fun range ↦
      [.slice range.1 range.2 r.bytes.length]

variable {q r}

theorem safe_behind {α : Type} {check : Except QueueError α} {accs : α → List Access}
    (h : ∀ a, check = .ok a → Safe (accs a)) : Safe (behind check accs) := by
  cases check with
  | error e => exact .nil
  | ok a => exact h a rfl

variable {range : ℕ × ℕ}

/-- An integer inside a checked range can be accessed. -/
theorem ok_word {gpa len k : BitVec 64} {n : ℕ}
    (h : q.checkedRange r.bytes.length gpa len = .ok range) (hn : 0 < n)
    (hk : k.toNat + n ≤ len.toNat) : (word r (q.off gpa + k) n).Ok := by
  have hlen : len ≠ 0 := by
    rintro rfl
    exact absurd hk (by change ¬ _ ≤ 0; omega)
  obtain ⟨hbase, hstart, hstop, hle⟩ := checkedRange_eq_ok hlen h
  have hlt := r.length_lt
  have ho : (q.off gpa + k).toNat = gpa.toNat - q.guestPhysBase.toNat + k.toNat := by
    rw [BitVec.toNat_add, toNat_off hbase]
    omega
  exact ⟨by omega, by omega⟩

theorem ok_word_zero {gpa len : BitVec 64} {n : ℕ}
    (h : q.checkedRange r.bytes.length gpa len = .ok range) (hn : 0 < n) (hle : n ≤ len.toNat) :
    (word r (q.off gpa) n).Ok := by
  have hword := ok_word (k := 0) h hn (by change 0 + n ≤ _; omega)
  rwa [show q.off gpa + 0 = q.off gpa from BitVec.add_zero _] at hword

theorem ok_readAvailAccs : Safe (q.readAvailAccs r) := by
  refine safe_behind fun size hsize ↦ safe_behind fun range hrange ↦ ?_
  obtain ⟨-, -, -, hmax⟩ := size_of_normalizedSize hsize
  have hlen : (4 + size.setWidth 64 * 2).toNat = 4 + size.toNat * 2 := by
    simp only [BitVec.toNat_add, BitVec.toNat_mul, BitVec.toNat_setWidth]
    change (4 + _ * 2 % _) % _ = _
    omega
  refine .cons (ok_word_zero hrange (by omega) (by omega))
    (.cons (ok_word hrange (by omega) (by change 2 + 2 ≤ _; omega)) (.flatMap fun i hi ↦ ?_))
  have hlt := mem_range.mp hi
  refine .cons ⟨by omega, by omega⟩ (.one ?_)
  · rw [BitVec.add_assoc]
    refine ok_word hrange (by omega) ?_
    change (4 + i % _ * 2 % _) % _ + 2 ≤ _
    omega

variable {size : BitVec 16}

theorem ok_ringAccs (hsize : q.normalizedSize = .ok size) (n : BitVec 16) :
    Safe (q.ringAccs n) := by
  obtain ⟨rfl, -, hpos, hmax⟩ := size_of_normalizedSize hsize
  have hmod : (n % q.size.setWidth 16).toNat < (q.size.setWidth 16).toNat := by
    exact mod_lt _ hpos
  exact .cons hpos.ne' (.one ⟨by omega, by omega⟩)

theorem ok_readDescAccs (idx : BitVec 16) : Safe (q.readDescAccs r idx) := by
  refine safe_behind fun size hsize ↦ .guard fun _ ↦ safe_behind fun range hrange ↦ ?_
  exact .cons (ok_word_zero hrange (by decide) (by decide)) (.cons (ok_word hrange (by decide)
    (by decide)) (.cons (ok_word hrange (by decide) (by decide)) (.one (ok_word hrange (by decide)
    (by decide)))))

/-- **The walk.** Every index it looks up is below the size of the queue. -/
theorem ok_walkAccs {fuel : ℕ} {idx : BitVec 16} {seen : List (BitVec 16)}
    (hidx : idx < size) : Safe (q.walkAccs r size fuel idx seen) := by
  induction fuel generalizing idx seen with
  | zero => exact .nil
  | succ fuel ih =>
    exact .cons ⟨le_succ _, hidx⟩ (.guard fun _ ↦ .append (ok_readDescAccs idx)
      (safe_behind fun d _ ↦ .guard fun hstop ↦ ih (BitVec.not_le.mp (not_or.mp hstop).2)))

theorem ok_usedIdxAccs : Safe (q.usedIdxAccs r) :=
  safe_behind fun _ hrange ↦ .one (ok_word_zero hrange (by decide) (by decide))

theorem ok_pushUsedAccs : Safe (q.pushUsedAccs r) := by
  refine safe_behind fun size hsize ↦ .append ok_usedIdxAccs (safe_behind fun used _ ↦ ?_)
  obtain ⟨rfl, -, hpos, -⟩ := size_of_normalizedSize hsize
  refine .cons hpos.ne' (safe_behind fun _ hentry ↦ safe_behind fun _ hidx ↦ ?_)
  exact .cons (ok_word_zero hentry (by decide) (by decide)) (.cons (ok_word hentry (by decide)
    (by decide)) (.one (ok_word_zero hidx (by decide) (by decide))))

/-- **No call on a queue leaves a slice**, whatever the queue and the memory. -/
theorem ok_accs (call : QueueCall) : Safe (q.accs r call) := by
  have hguest (addr : BitVec 64) (len : ℕ) : Safe (behind (q.checkedRange r.bytes.length addr
      (BitVec.ofNat 64 len)) fun range ↦ [.slice range.1 range.2 r.bytes.length]) := by
    refine safe_behind fun range hrange ↦ .one ?_
    by_cases hzero : BitVec.ofNat 64 len = 0
    · rw [hzero] at hrange
      obtain ⟨⟩ := hrange
      exact ⟨le_rfl, zero_le _⟩
    · obtain ⟨-, -, hstop, hle⟩ := checkedRange_eq_ok hzero hrange
      exact ⟨by omega, hle⟩
  cases call with
  | availIdx =>
    exact .guard fun _ ↦ safe_behind fun _ hrange ↦
      .one (ok_word_zero hrange (by decide) (by decide))
  | iterAvail =>
    refine .append ok_readAvailAccs (safe_behind fun avail havail ↦ .flatMap fun i _ ↦ ?_)
    obtain ⟨size, hsize⟩ := normalizedSize_of_readAvail havail
    exact ok_ringAccs hsize _
  | consumeAvail =>
    refine .append ok_readAvailAccs (safe_behind fun avail havail ↦ .guard fun _ ↦ ?_)
    obtain ⟨size, hsize⟩ := normalizedSize_of_readAvail havail
    exact ok_ringAccs hsize _
  | walkChain head =>
    exact safe_behind fun size hsize ↦ .guard fun hhead ↦ ok_walkAccs (BitVec.not_le.mp hhead)
  | pushUsed => exact ok_pushUsedAccs
  | guestRead addr len | guestWrite addr len => exact hguest addr len

end Queue

/-! ## The window -/

/-- The selected queue is looked up for the register that says whether it is ready. -/
def Transport.selectedAccs (t : Transport) (reg : Option Reg) : List Access :=
  if reg = some .queueReady then [.slice t.queueSel (t.queueSel + 1) 8] else []

variable (t : Transport) (cfg : List Byte) (offset : BitVec 32) (len : ℕ)

/-- The index expressions of `ReadBytes`, for a device with the configuration `cfg`. -/
def Transport.readAccs :
    List Access :=
  if offset < regConfig then
    if len ≠ 4 then []
    else
      let reg := Reg.ofOffset offset.toNat
      match reg.bind t.readRegister with
      | none => t.selectedAccs reg
      | some _ => t.selectedAccs reg ++ [.slice 0 4 len]
  else
    let start := (offset - regConfig).toNat
    if cfg.length ≤ start then [] else [.slice start cfg.length cfg.length]

/-- The index expressions of `WriteBytes`, and of the balloon for its configuration. -/
def Transport.writeAccs (t : Transport) (offset : BitVec 32) (data : List Byte) : List Access :=
  if regConfig ≤ offset then
    let o := offset - regConfig
    match t.dev with
    | .balloon _ => if 4 < o ∨ data = [] then [] else [.slice o.toNat 4 4]
    | _ => []
  else if data.length ≠ 4 then []
  else
    let val := getLE data
    .slice 0 4 data.length :: .slice t.queueSel (t.queueSel + 1) 8 ::
      if Reg.ofOffset offset.toNat = some .queueNotify ∧ val < 8 then [.slice val (val + 1) 8]
      else []

theorem Transport.ok_readAccs : Safe (t.readAccs cfg offset len) := by
  have hsel (reg : Option Reg) : Safe (t.selectedAccs reg) := by
    rw [selectedAccs]
    split
    · exact .one ⟨le_succ _, t.queueSel.isLt⟩
    · exact .nil
  rw [readAccs]
  split
  · refine .guard fun hlen ↦ ?_
    obtain rfl := not_not.mp hlen
    dsimp only
    split
    · exact hsel _
    · exact .append (hsel _) (.one (by decide))
  · exact .guard fun hstart ↦ .one ⟨(not_le.mp hstart).le, le_rfl⟩

theorem Transport.ok_writeAccs (t : Transport) (offset : BitVec 32) (data : List Byte) :
    Safe (t.writeAccs offset data) := by
  rw [writeAccs]
  split
  · split
    · exact .guard fun ho ↦ .one ⟨BitVec.not_lt.mp (not_or.mp ho).1, le_rfl⟩
    · exact .nil
  · refine .guard fun hlen ↦ .cons ⟨by decide, (not_not.mp hlen).ge⟩
      (.cons ⟨le_succ _, t.queueSel.isLt⟩ ?_)
    split_ifs with hval
    · exact .one ⟨le_succ _, hval.2⟩
    · exact .nil

/-! ## The activation of virtio-fs -/

def fsQueueCount : ℕ := 2

/-- A virtio-fs device with its registers. These are those of a device without a link and without
configuration writes; a notification is passed on to the backend. -/
structure FsTransport where
  regs : Transport
  cfg : List Byte
  activated : Bool
  failed : Bool

namespace FsTransport

variable (s : FsTransport) (memLen : ℕ)

def served : List Queue := ((List.finRange 8).take fsQueueCount).map s.regs.queues

def transportReady : Prop :=
  s.regs.status &&& 15 = 15 ∧ ∀ q ∈ s.served, q.ready = true ∧ q.size ≠ 0 ∧ q.descAddr ≠ 0 ∧
    q.driverAddr ≠ 0 ∧ q.deviceAddr ≠ 0
deriving Decidable

def hostAddr (guestAddr : BitVec 64) : Access :=
  .slice guestAddr.toNat (guestAddr.toNat + 1) memLen

variable (fault : Option ℕ)

/-- The index expressions of the activation, for a backend that fails after `fault` queues. -/
def activateAccs : List Access :=
  if memLen = 0 then []
  else .slice 0 1 memLen :: (s.served.take (fault.getD fsQueueCount)).flatMap fun q ↦
    [hostAddr memLen q.descAddr, hostAddr memLen q.deviceAddr, hostAddr memLen q.driverAddr]

/-- What the activation leaves behind, if it gets through. -/
def activate : FsTransport :=
  if memLen = 0 ∨ fault.isSome then
    { s with failed := true, regs := { s.regs with status := s.regs.status ||| 128 } }
  else { s with activated := true }

/-- `OnTransportStateChange` activates the backend at most once. -/
def stateChanged : FsTransport × List Access :=
  if s.activated = true ∨ s.failed = true ∨ ¬ s.transportReady then (s, [])
  else (s.activate memLen fault, s.activateAccs memLen fault)

end FsTransport

def Reg.changesState (val : BitVec 32) : Reg → Bool
  | .drvFeatures | .queueReady | .queueDescLow | .queueDescHigh | .queueDriverLow
  | .queueDriverHigh | .queueDeviceLow | .queueDeviceHigh => true
  | .queueNum => decide (1 ≤ val.toNat ∧ val.toNat ≤ maxQueueSize)
  | .status => decide (val ≠ 0)
  | _ => false

namespace FsTransport

variable (s : FsTransport)

/-- The registers after a guest's write. -/
def setRegs (offset : BitVec 32) (data : List Byte) (ram : ℕ → Ram) :
    FsTransport :=
  if Reg.ofOffset offset.toNat = some .queueNotify then s
  else { s with regs := s.regs.writeBytes offset data ram }

/-- A guest's write. -/
def write (memLen : ℕ) (offset : BitVec 32) (data : List Byte)
    (fault : Option ℕ) (ram : ℕ → Ram) : FsTransport × List Access :=
  let val := BitVec.ofNat 32 (getLE data)
  let accs := s.regs.writeAccs offset data
  let s' := s.setRegs offset data ram
  match Reg.ofOffset offset.toNat with
  | none => (s', accs)
  | some reg =>
    if data.length ≠ 4 then (s', accs)
    else if reg = .status ∧ val = 0 then ({ s' with activated := false, failed := false }, accs)
    else if reg.changesState val then
      ((s'.stateChanged memLen fault).1, accs ++ (s'.stateChanged memLen fault).2)
    else (s', accs)

/-- The rings begin in RAM, should the transport be ready. -/
def RingsInRam (memLen : ℕ) : Prop :=
  s.transportReady → ∀ q ∈ s.served, q.descAddr.toNat < memLen ∧ q.deviceAddr.toNat < memLen ∧
    q.driverAddr.toNat < memLen

variable {s : FsTransport}

theorem ok_stateChanged {memLen : ℕ} (h : s.RingsInRam memLen)
    (fault : Option ℕ) : Safe (s.stateChanged memLen fault).2 := by
  rw [stateChanged]
  split_ifs with hdone
  · exact .nil
  obtain ⟨-, -, hready⟩ := by simpa only [not_or] using hdone
  refine .guard fun hzero ↦ .cons ⟨zero_le _, one_le_iff_ne_zero.mpr hzero⟩ (.flatMap fun q hq ↦ ?_)
  obtain ⟨hdesc, hdevice, hdriver⟩ := h (not_not.mp hready) q (mem_of_mem_take hq)
  exact .cons ⟨le_succ _, hdesc⟩ (.cons ⟨le_succ _, hdevice⟩ (.one ⟨le_succ _, hdriver⟩))

theorem ok_write {memLen : ℕ} {offset : BitVec 32} {data : List Byte}
    {ram : ℕ → Ram} (h : (s.setRegs offset data ram).RingsInRam memLen) (fault : Option ℕ) :
    Safe (s.write memLen offset data fault ram).2 := by
  have haccs := s.regs.ok_writeAccs offset data
  rw [write]
  split
  · exact haccs
  split_ifs
  · exact haccs
  · exact haccs
  · exact .append haccs (ok_stateChanged h fault)
  · exact haccs

end FsTransport

/-! ## Runs -/

/-- What a guest does to a window; `fault` is for the backend of virtio-fs. -/
inductive MmioEvent where
  | read (offset : BitVec 32) (len : ℕ)
  | write (offset : BitVec 32) (data : List Byte) (ram : ℕ → Ram) (fault : Option ℕ)

/-- The window of virtio-fs, or of another device. -/
inductive Window where
  | plain (t : Transport)
  | fs (s : FsTransport)

namespace Window

def step (memLen : ℕ) : Window → MmioEvent → Window × List Access
  | .plain t, .read offset len => (.plain t, t.readAccs t.dev.configBytes offset len)
  | .plain t, .write offset data ram _ =>
    (.plain (t.writeBytes offset data ram), t.writeAccs offset data)
  | .fs s, .read offset len => (.fs s, s.regs.readAccs s.cfg offset len)
  | .fs s, .write offset data ram fault =>
    (.fs (s.write memLen offset data fault ram).1, (s.write memLen offset data fault ram).2)

/-- The index expressions of a run. -/
def run (memLen : ℕ) : Window → List MmioEvent → List Access
  | _, [] => []
  | w, e :: events => (w.step memLen e).2 ++ run memLen (w.step memLen e).1 events

/-- The event leaves the rings of virtio-fs in RAM. -/
def Admits (memLen : ℕ) : Window → MmioEvent → Prop
  | .fs s, .write offset data ram _ => (s.setRegs offset data ram).RingsInRam memLen
  | _, _ => True

/-- Whenever virtio-fs may be activated, its rings begin in RAM. -/
def Fits (memLen : ℕ) : Window → List MmioEvent → Prop
  | _, [] => True
  | w, e :: events => w.Admits memLen e ∧ Fits memLen (w.step memLen e).1 events

instance (memLen : ℕ) : ∀ w e, Decidable (Admits memLen w e)
  | .fs s, .write offset data ram _ =>
    inferInstanceAs (Decidable ((s.setRegs offset data ram).transportReady → _))
  | .fs _, .read _ _ | .plain _, _ => inferInstanceAs (Decidable True)

instance decidableFits (memLen : ℕ) : ∀ w events, Decidable (Fits memLen w events)
  | _, [] => inferInstanceAs (Decidable True)
  | w, e :: events =>
    have := decidableFits memLen (w.step memLen e).1 events
    inferInstanceAs (Decidable (_ ∧ _))

/-- **No guest makes the process panic**, by whatever it writes to a window and to its memory, if
the rings of virtio-fs begin in RAM. -/
theorem ok_of_fits {memLen : ℕ} {w : Window} {events : List MmioEvent} (h : w.Fits memLen events) :
    (Safe (w.run memLen events)) ∧
      ∀ (q : Queue) (r : Ram) (call : QueueCall), Safe (q.accs r call) := by
  refine ⟨?_, fun q r call ↦ Queue.ok_accs call⟩
  induction events generalizing w with
  | nil => exact .nil
  | cons e events ih =>
    refine .append ?_ (ih h.2)
    cases w with
    | plain t =>
      cases e with
      | read offset len => exact t.ok_readAccs _ offset len
      | write offset data ram fault => exact t.ok_writeAccs offset data
    | fs s =>
      cases e with
      | read offset len => exact s.regs.ok_readAccs _ offset len
      | write offset data ram fault => exact FsTransport.ok_write h.1 fault

end Window

/-- A driver of virtio-fs: both queues get a descriptor table at `desc` and rings at 4096, and then
the status is set. -/
def driverRun (desc : ℕ) : List MmioEvent :=
  ([(0x30, 0), (0x80, desc), (0x90, 4096), (0xA0, 4096), (0x44, 1),
    (0x30, 1), (0x80, desc), (0x90, 4096), (0xA0, 4096), (0x44, 1), (0x70, 15)] :
      List (BitVec 32 × ℕ)).map fun w ↦
    .write w.1 (putLE 4 w.2) (fun _ ↦ ⟨[], by decide⟩) none

def freshFs : Window := .fs ⟨newTransport .rng 0, List.replicate 40 0, false, false⟩

theorem ok_driverRun : Safe (freshFs.run 8192 (driverRun 2048)) :=
  (Window.ok_of_fits (by decide +kernel)).1

/-- A descriptor table outside of RAM ends the process. -/
theorem not_ok_driverRun : ¬ Safe (freshFs.run 8192 (driverRun 8192)) := by
  decide +kernel

end Gocracker
