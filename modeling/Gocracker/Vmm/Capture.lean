import Gocracker.Transition.Custody
import Gocracker.Transition.Run
import Gocracker.Virtio.Pump

/-!
# Capturing a snapshot while the pumps run

`TakeSnapshotWithOptions` pauses the vCPUs, writes RAM to a file, and then reads the state of each
queue. The pumps of net and vsock are not paused. RAM is saved byte by byte and in any order, which
covers the full copy as well as the sparse one (a page left out of the sparse file is one that was
read as zero); a queue's state is read in one step, as it holds the queue's mutex.

## One instant

The restored guest sees the saved RAM, and its devices go on from the saved `LastAvail`. A head that
was returned through the used ring before the queue's state was read, but after its part of RAM was
saved, is taken for good: the device will not use it again, and the guest will not see it returned.
Nothing of this kind happens while no store hits a part of a used ring that is already saved.
-/

namespace Gocracker

open Machine Transition List Option

/-! ## The rings in RAM -/

namespace Queue

variable (q : Queue)

def slots : ℕ := if q.size.toNat ≤ maxQueueSize then q.size.toNat else 0

def usedSlot (slot : ℕ) : BitVec 64 := q.deviceAddr + 4 + BitVec.ofNat 64 slot * 8

/-- Offset `o` belongs to the used ring: to its index or to one of its slots. -/
def InUsedRing (o : ℕ) : Prop :=
  ((q.off (q.deviceAddr + 2)).toNat ≤ o ∧ o < (q.off (q.deviceAddr + 2)).toNat + 2) ∨
    ∃ slot < q.slots, (q.off (q.usedSlot slot)).toNat ≤ o ∧ o < (q.off (q.usedSlot slot)).toNat + 8

instance (o : ℕ) : Decidable (q.InUsedRing o) := inferInstanceAs (Decidable (_ ∨ _))

def usedIdx (r : Ram) : ℕ := r.load (q.off (q.deviceAddr + 2)).toNat 2

/-- The used ring as the guest reads it: its index, and the head and the length in each slot. -/
def usedRing (r : Ram) : ℕ × List (ℕ × ℕ) :=
  (q.usedIdx r, (range q.slots).map fun slot ↦
    let off := (q.off (q.usedSlot slot)).toNat
    (r.load off 4, r.load (off + 4) 4))

end Queue

theorem Ram.load_congr {r r' : Ram} {off len : ℕ}
    (h : ∀ i < len, r.bytes[off + i]? = r'.bytes[off + i]?) : r.load off len = r'.load off len := by
  have hslice : slice r.bytes off len = slice r'.bytes off len := by
    refine ext_getElem? fun i ↦ ?_
    by_cases hi : i < len
    · rw [getElem?_slice hi, getElem?_slice hi, h i hi]
    · rw [getElem?_eq_none (by rw [length_slice]; omega),
        getElem?_eq_none (by rw [length_slice]; omega)]
  rw [load, load, hslice]

/-- What is read from a used ring depends on its own bytes only. -/
theorem Queue.usedRing_congr {q : Queue} {r r' : Ram}
    (h : ∀ o, q.InUsedRing o → r.bytes[o]? = r'.bytes[o]?) : q.usedRing r = q.usedRing r' := by
  have hidx : q.usedIdx r = q.usedIdx r' :=
    Ram.load_congr fun i hi ↦ h _ (.inl ⟨Nat.le_add_right _ _, Nat.add_lt_add_left hi _⟩)
  rw [usedRing, usedRing, hidx]
  refine congrArg _ (map_congr_left fun slot hslot ↦ Prod.ext ?_ ?_)
  · refine Ram.load_congr fun i hi ↦ h _ (.inr ⟨slot, mem_range.mp hslot, ?_, ?_⟩)
    · exact Nat.le_add_right _ _
    · exact Nat.add_lt_add_left (by omega) _
  · refine Ram.load_congr fun i hi ↦ h _ (.inr ⟨slot, mem_range.mp hslot, ?_, ?_⟩)
    · exact (Nat.le_add_right _ 4).trans (Nat.le_add_right _ i)
    · rw [Nat.add_assoc]
      exact Nat.add_lt_add_left (by omega) _

/-! ## The snapshot and the pumps -/

/-- A queue's state as it was saved, and RAM at the instant it was read. -/
structure SavedQueue where
  state : Queue
  live : Ram

structure CaptureState where
  dma : Dma
  /-- The queues of all transports, in the order in which their states are read. -/
  queues : List Queue
  pumps : List Pump
  /-- The saved bytes of RAM. -/
  image : List (Option Byte)
  /-- RAM has been written. -/
  memDone : Bool
  saved : List SavedQueue
  length_image : image.length = dma.ram.bytes.length

inductive CaptureAction where
  | arrive (kind : PumpKind) (queue : ℕ) (pkt : List Byte)
  | pumpStep (i : ℕ)
  | copyRange (off len : ℕ)
  | memWritten
  | readState

namespace CaptureState

/-- The vCPUs have parked; nothing is saved. -/
def init (dma : Dma) (queues : List Queue) (pumps : List Pump) : CaptureState where
  dma := dma
  queues := queues
  pumps := pumps
  image := List.replicate dma.ram.bytes.length none
  memDone := false
  saved := []
  length_image := length_replicate

variable (s : CaptureState)

/-- The image after the bytes of a range were saved. A byte is saved once. -/
def copied (off len : ℕ) : List (Option Byte) :=
  s.image.mapIdx fun o b ↦
    if b.isNone ∧ off ≤ o ∧ o < off + len then s.dma.ram.bytes[o]? else b

/-- A pump executes its next memory operation, or goes on. -/
def stepPump (i : ℕ) (p : Pump) : Option CaptureState :=
  match p.pending with
  | op :: ops =>
    some { s with
      dma := s.dma.exec op
      pumps := s.pumps.set i { p with pending := ops }
      length_image := by rw [Dma.length_exec]; exact s.length_image }
  | [] =>
    match s.queues[p.queue]? with
    | none => none
    | some q =>
      let next := q.pumpStep s.dma.ram p.kind p.next
      some { s with
        queues := s.queues.set p.queue next.1
        pumps := s.pumps.set i { p with pending := next.2.1, next := next.2.2 } }

def step : CaptureAction → Option CaptureState
  | .arrive kind queue pkt => some { s with pumps := s.pumps ++ [⟨kind, queue, [], .consume pkt⟩] }
  | .pumpStep i =>
    match s.pumps[i]? with
    | none => none
    | some p => s.stepPump i p
  | .copyRange off len =>
    if s.memDone then none
    else some { s with
      image := s.copied off len
      length_image := by rw [copied, length_mapIdx]; exact s.length_image }
  | .memWritten => if s.image.all Option.isSome then some { s with memDone := true } else none
  | .readState =>
    if s.memDone then
      match s.queues[s.saved.length]? with
      | none => none
      | some q => some { s with saved := s.saved ++ [⟨q, s.dma.ram⟩] }
    else none

def savedRam : Ram where
  bytes := s.image.map (·.getD 0)
  length_lt := by rw [length_map, s.length_image]; exact s.dma.ram.length_lt

end CaptureState

/-- The used ring in the saved RAM is the one that was in RAM at the instant the state was read, so
that a head is returned in the saved RAM if it was returned before that instant. -/
def SavedQueue.Consistent (sq : SavedQueue) (saved : Ram) : Prop :=
  sq.state.usedRing saved = sq.state.usedRing sq.live
deriving Decidable

/-! ## Runs in which the saved rings stay as they are -/

variable (s : CaptureState)

/-- The memory operation that a pump executes next, if it has one pending. -/
def CaptureState.nextOp (i : ℕ) : Option MemOp :=
  s.pumps[i]?.bind fun p ↦ p.pending.head?

/-- An operation misses every saved byte of the used ring of a queue whose state has still to be
read. -/
def CaptureState.MissesSaved : Option MemOp → Prop
  | some (.store off buf) =>
    ∀ q ∈ s.queues.drop s.saved.length, ∀ i < buf.length, q.InUsedRing (off + i) →
      (s.image[off + i]?.join).isNone = true
  | _ => True

instance (s : CaptureState) (op : Option MemOp) : Decidable (s.MissesSaved op) :=
  match op with
  | some (.store _ _) => inferInstanceAs (Decidable (∀ _ ∈ _, _))
  | some (.mark _ _) | none => .isTrue trivial

/-- The condition on a step: a pump does not store to a saved byte of such a used ring. -/
def RingsQuiet : CaptureAction → Prop
  | .pumpStep i => s.MissesSaved (s.nextOp i)
  | _ => True

instance (s : CaptureState) (a : CaptureAction) : Decidable (RingsQuiet s a) :=
  match a with
  | .pumpStep i => inferInstanceAs (Decidable (s.MissesSaved (s.nextOp i)))
  | .arrive _ _ _ | .copyRange _ _ | .memWritten | .readState => .isTrue trivial

/-- **The invariant of a capture**: the saved bytes of a used ring are those in RAM until the
queue's state is read; after that, the saved ring is the one that was in RAM at that instant. -/
structure CaptureInv (s : CaptureState) : Prop where
  complete : s.memDone = true → ∀ b ∈ s.image, b.isSome = true
  pending : ∀ q ∈ s.queues.drop s.saved.length, ∀ o b, q.InUsedRing o →
    s.image[o]? = some (some b) → s.dma.ram.bytes[o]? = some b
  memDone : s.saved ≠ [] → s.memDone = true
  agree : ∀ sq ∈ s.saved, ∀ o, sq.state.InUsedRing o →
    s.savedRam.bytes[o]? = sq.live.bytes[o]?

open CaptureState

namespace CaptureInv

variable {s : CaptureState}

theorem init (dma : Dma) (queues : List Queue) (pumps : List Pump) :
    CaptureInv (init dma queues pumps) where
  complete := nofun
  pending := by
    intro q _ o b _ hb
    have hmem := mem_of_getElem? hb
    exact absurd (eq_of_mem_replicate hmem) (by simp)
  memDone := fun h ↦ absurd rfl h
  agree := nofun

variable {pumps : List Pump}

theorem exec (h : CaptureInv s) {op : MemOp} (hmiss : s.MissesSaved (some op)) :
    CaptureInv { s with
      dma := s.dma.exec op
      pumps := pumps
      length_image := by rw [Dma.length_exec]; exact s.length_image } := by
  refine ⟨h.complete, fun q hq o b ho hb ↦ ?_, h.memDone, h.agree⟩
  have hold := h.pending q hq o b ho hb
  by_contra hne
  have hchange : (s.dma.exec op).ram.bytes[o]? ≠ s.dma.ram.bytes[o]? := by
    rw [hold]
    exact hne
  obtain ⟨off, buf, rfl, hlo, hhi⟩ := Dma.getElem?_exec hchange
  obtain ⟨i, rfl⟩ := Nat.exists_eq_add_of_le hlo
  have hnone := hmiss q hq i (by omega) ho
  rw [show s.image[off + i]? = some (some b) from hb] at hnone
  nomatch hnone

/-- A pump goes on: at most the number of heads taken changes. -/
theorem setQueue (h : CaptureInv s) {j : ℕ} {q q' : Queue}
    (hq : s.queues[j]? = some q) (hsame : q.SameRings q') :
    CaptureInv { s with queues := s.queues.set j q', pumps := pumps } := by
  refine ⟨h.complete, fun p hp o b ho hb ↦ ?_, h.memDone, h.agree⟩
  obtain ⟨i, hi⟩ := getElem?_of_mem hp
  rcases getElem?_set_cases (getElem?_drop.symm.trans hi) with ⟨hij, rfl⟩ | ⟨-, hi⟩
  · obtain ⟨n, rfl⟩ := hsame
    refine h.pending q ?_ o b ho hb
    exact mem_of_getElem? (getElem?_drop.trans (hij ▸ hq))
  · exact h.pending p (mem_of_getElem? (getElem?_drop.trans hi)) o b ho hb

/-- More of RAM is saved: a byte that was not saved before is the byte in RAM. -/
theorem copyRange (h : CaptureInv s) (hdone : s.memDone = false) (off len : ℕ) : CaptureInv { s with
      image := s.copied off len
      length_image := by
        rw [copied, length_mapIdx]
        exact s.length_image } := by
  have hnil : s.saved = [] := by
    by_contra hne
    rw [h.memDone hne] at hdone
    nomatch hdone
  refine ⟨fun hd ↦ ?_, fun q hq o b ho hb ↦ ?_, h.memDone, fun sq hsq ↦ ?_⟩
  · rw [show s.memDone = true from hd] at hdone
    nomatch hdone
  · change (s.copied off len)[o]? = some (some b) at hb
    rw [copied, getElem?_mapIdx, map_eq_some_iff] at hb
    obtain ⟨b', hb', hval⟩ := hb
    split at hval
    · exact hval
    · exact h.pending q hq o b ho (by rw [hb', hval])
  · rw [show s.saved = [] from hnil] at hsq
    exact absurd hsq not_mem_nil

theorem readState (h : CaptureInv s) (hdone : s.memDone = true) {q : Queue}
    (hq : s.queues[s.saved.length]? = some q) :
    CaptureInv { s with saved := s.saved ++ [⟨q, s.dma.ram⟩] } := by
  have hdrop : ∀ p, p ∈ s.queues.drop (s.saved.length + 1) → p ∈ s.queues.drop s.saved.length :=
    fun p hp ↦ drop_subset_drop_left s.queues (Nat.le_succ _) hp
  have hhead : q ∈ s.queues.drop s.saved.length := by
    refine mem_of_getElem? (i := 0) ?_
    rw [getElem?_drop, Nat.add_zero, hq]
  refine ⟨h.complete, fun p hp ↦ h.pending p (hdrop p ?_), fun _ ↦ hdone, fun sq hsq o ho ↦ ?_⟩
  · rwa [length_append, length_singleton] at hp
  rcases mem_append.mp hsq with hsq | hsq
  · exact h.agree sq hsq o ho
  obtain rfl := mem_singleton.mp hsq
  change (s.image.map (·.getD 0))[o]? = s.dma.ram.bytes[o]?
  rw [getElem?_map]
  cases hb : s.image[o]? with
  | none =>
    have hlen := List.getElem?_eq_none_iff.mp hb
    rw [s.length_image] at hlen
    rw [getElem?_eq_none hlen]
    rfl
  | some b =>
    have hsome := h.complete hdone b (mem_of_getElem? hb)
    obtain ⟨x, rfl⟩ := isSome_iff_exists.mp hsome
    rw [h.pending q hhead o x ho hb]
    rfl

/-- **Every step that leaves the saved rings alone keeps the invariant.** -/
theorem step (h : CaptureInv s) {a : CaptureAction} (hok : RingsQuiet s a) {s' : CaptureState}
    (hs : s.step a = some s') : CaptureInv s' := by
  revert hs
  fun_cases CaptureState.step s a with try rintro ⟨⟩
  | case1 kind queue pkt => exact { h with }
  | case3 i p hp =>
    rw [RingsQuiet, nextOp, hp] at hok
    fun_cases stepPump s i p with rintro ⟨⟩
    | case1 op ops hpending => exact h.exec (by rwa [Option.bind_some, hpending] at hok)
    | case3 hpending q hq => exact h.setQueue hq (q.sameRings_pumpStep _ _ _)
  | case5 off len hdone => exact h.copyRange (Bool.eq_false_of_not_eq_true hdone) off len
  | case6 hall => exact ⟨fun _ ↦ all_eq_true.mp hall, h.pending, fun _ ↦ rfl, h.agree⟩
  | case9 hdone q hq => exact h.readState hdone hq

end CaptureInv

/-! ## What is saved -/

/-- A receive queue of two slots: descriptors at `0`, available ring at `32`, used ring at `40`. -/
def rxQueue : Queue where
  size := 2
  ready := true
  lastAvail := 0
  descAddr := 0
  driverAddr := 32
  deviceAddr := 40
  guestPhysBase := 0

/-- The RAM of that queue: the driver has made head `1` available, whose chain is one buffer of 12
bytes at `60`. -/
def rxRam : Ram where
  bytes := List.replicate 16 0 ++ putLE 8 60 ++ putLE 4 12 ++ putLE 2 2 ++ putLE 2 0 ++
    putLE 2 0 ++ putLE 2 1 ++ putLE 2 1 ++ putLE 2 0 ++ List.replicate 32 0
  length_lt := by decide

/-- The steps of a receive pump that delivers a packet of 12 bytes: it takes the head, fills the
buffer (a store and a mark), and returns the head (three stores and two marks). -/
def deliver (i : ℕ) : List CaptureAction := List.replicate 10 (.pumpStep i)

/-- **Consistency of a snapshot**: in every run in which no pump stores to a saved byte of the used
ring of a queue whose state has still to be read, every saved state is consistent with the saved
RAM. -/
theorem consistent_of_ringsQuiet {dma : Dma} {queues : List Queue} {pumps : List Pump}
    {as : List CaptureAction} {s : CaptureState}
    (hrun : Run step RingsQuiet (init dma queues pumps) as s)
    {sq : SavedQueue} (hsq : sq ∈ s.saved) : sq.Consistent s.savedRam := by
  have hinv : CaptureInv s :=
    hrun.invariant (fun _ _ _ h hok hs ↦ h.step hok hs) (CaptureInv.init dma queues pumps)
  exact Queue.usedRing_congr fun o ho ↦ hinv.agree sq hsq o ho

/-- A packet delivered before RAM is saved: its head is taken, and it is in the used ring. -/
theorem consistent_of_ringsQuiet_deliver :
    ∃ s, Run step RingsQuiet (init (Dma.fresh 4096 rxRam) [rxQueue] [])
        ([.arrive .net 0 (List.replicate 12 0)] ++ deliver 0 ++
          [.copyRange 0 72, .memWritten, .readState]) s ∧
      ∃ sq ∈ s.saved, sq.state.lastAvail = 1 ∧ sq.state.usedRing sq.live = (1, [(1, 12), (0, 0)]) ∧
        sq.Consistent s.savedRam := by
  refine Run.exists_of_exec (fun s ↦ ∃ sq ∈ s.saved, sq.state.lastAvail = 1 ∧
    sq.state.usedRing sq.live = (1, [(1, 12), (0, 0)]))
    (by decide +kernel) fun s hrun ⟨sq, hsq, htaken, hused⟩ ↦ ?_
  exact ⟨sq, hsq, htaken, hused, consistent_of_ringsQuiet hrun hsq⟩

/-- **A packet delivered between the two parts of the capture.** RAM is saved, a pump takes head
`1`, fills its buffer and returns it, and then the queue's state is read: the saved state has taken
the head, and the used ring in the saved RAM is empty. -/
theorem not_consistent_deliver : ∃ s, Run step anyStep (init (Dma.fresh 4096 rxRam) [rxQueue] [])
        ([.copyRange 0 72, .memWritten, .arrive .net 0 (List.replicate 12 0)] ++ deliver 0 ++
          [.readState]) s ∧
      ∃ sq ∈ s.saved, sq.state.lastAvail = 1 ∧ sq.state.usedRing sq.live = (1, [(1, 12), (0, 0)]) ∧
        sq.state.usedIdx s.savedRam = 0 ∧ ¬sq.Consistent s.savedRam := by
  exact Run.exists_of_exec _ (by decide +kernel) fun s hrun h ↦ h

end Gocracker
