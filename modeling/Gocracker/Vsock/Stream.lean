import Gocracker.Transition.Run
import Gocracker.Virtio.Queue

/-!
# A stream of the vsock device

Two threads put packets of a connection into the guest's RX ring: the worker of the TX queue, which
forwards the guest's bytes and credits it for them, and the connection's `rxPump`. Each reads the
counter under `fwdCntMu` and sends after unlocking, so the other may act in between, and neither
looks at what `sendPkt` returns.
-/

namespace Gocracker.Vsock

open Transition List

def hdrSize : ℕ := 44

/-- The size of the buffer of `rxPump`. -/
def pumpBuffer : ℕ := 4096

inductive Op where
  | request | response | reset | shutdown | rw | creditUpdate
  deriving DecidableEq

/-- What the guest's buffers got of a packet, with the count of the bytes forwarded by then. -/
structure Packet where
  op : Op
  data : List Byte
  fwdCnt : BitVec 32
  forwarded : ℕ
  deriving DecidableEq

/-- Where `rxPump` is: in `Read`, about to send what it read, about to announce the end, or out of
its loop, with or without the announcement. -/
inductive RxPump where
  | reading
  | sending (data : List Byte) (fc : BitVec 32) (err : Bool)
  | ending
  | done (announced : Bool)
  deriving DecidableEq

def RxPump.next (err : Bool) : RxPump := if err then .ending else .reading

/-- The counter that it has read for the packet. -/
def RxPump.counter : RxPump → Option (BitVec 32)
  | .sending _ fc _ => some fc
  | .reading | .ending | .done _ => none

def RxPump.inHand : RxPump → List Byte
  | .sending data _ _ => data
  | .reading | .ending | .done _ => []

structure Stream where
  fwdCnt : BitVec 32 := 0
  /-- The connection stands in `conns`. -/
  filed : Bool := true
  closed : Bool := false
  /-- The counter that `handleData` has read and not sent yet. -/
  worker : Option (BitVec 32) := none
  pump : RxPump := .reading
  ring : List Packet := []
  /-- The number of bytes that went to the host. -/
  forwarded : ℕ := 0
  /-- The bytes that `rxPump` has read from the host. -/
  received : List Byte := []

inductive StreamEvent where
  /-- `handleData` up to the unlocking of `fwdCntMu`, with the number of bytes to forward, if there
  are any and they can be read. -/
  | data (n : Option ℕ) (fails : Bool) (room : ℕ)
  | creditUpdate (room : ℕ)
  /-- `handleDisconnect`, or the snapshot's `QuiesceForSnapshot`. -/
  | disconnect (quiesce : Bool) (room : ℕ)
  | read (data : List Byte) (err : Bool)
  | send (room : ℕ)
  | shutdown (room : ℕ)
  /-- The deferred function of `rxPump`, which deletes by the ports: also that of an older pump. -/
  | exit
  | close

/-- What the guest's buffers take when the event sends a packet. -/
def StreamEvent.room : StreamEvent → ℕ
  | .data _ _ room | .creditUpdate room | .disconnect _ room | .send room | .shutdown room => room
  | .read .. | .exit | .close => 0

namespace Stream

variable (s : Stream)

/-- `room` is the number of bytes that the guest's buffers take: none if the queue is not ready or
no chain is available. -/
def sendPkt (op : Op) (data : List Byte) (fwdCnt : BitVec 32) (room : ℕ) : Stream :=
  if room < hdrSize then s
  else { s with ring := s.ring ++ [⟨op, data.take (room - hdrSize), fwdCnt, s.forwarded⟩] }

/-- A new connection, with the request of `Dial` or the response of `handleConnect`. -/
def opened (dialed : Bool) (room : ℕ) : Stream :=
  sendPkt {} (if dialed then .request else .response) [] 0 room

def handleDisconnect (room : ℕ) : Stream :=
  if s.filed then { s with filed := false }.sendPkt .reset [] 0 room else s

def handleData (n : Option ℕ) (fails : Bool) (room : ℕ) : Stream :=
  if s.filed then
    match n with
    | none => s
    | some n =>
      if fails then s.handleDisconnect room
      else
        let fc := s.fwdCnt + BitVec.ofNat 32 n
        { s with fwdCnt := fc, forwarded := s.forwarded + n, worker := some fc }
  else s.sendPkt .reset [] 0 room

def step : StreamEvent → Option Stream
  | .data n fails room => if s.worker = none then some (s.handleData n fails room) else none
  | .creditUpdate room =>
    match s.worker with
    | some fc => some ({ s with worker := none }.sendPkt .creditUpdate [] fc room)
    | none => none
  | .disconnect quiesce room =>
    if s.worker = none ∨ quiesce then some (s.handleDisconnect room) else none
  | .read data err =>
    match s.pump with
    | .reading =>
      if pumpBuffer < data.length then none
      else some { s with
        received := s.received ++ data
        pump := if s.closed then .done false
          else if data = [] then .next err
          else .sending data s.fwdCnt err }
    | _ => none
  | .send room =>
    match s.pump with
    | .sending data fc err => some { s.sendPkt .rw data fc room with pump := .next err }
    | _ => none
  | .shutdown room =>
    match s.pump with
    | .ending =>
      if s.closed then some { s with pump := .done false }
      else some { s.sendPkt .shutdown [] 0 room with pump := .done true }
    | _ => none
  | .exit => some { s with filed := false }
  | .close => some { s with closed := true, filed := false }

variable {s s' : Stream} {e : StreamEvent} {op : Op} {data : List Byte} {fc : BitVec 32} {room : ℕ}
  {dialed : Bool} {events : List StreamEvent}

/-! ### The credit -/

/-- The packets carry the residues of a count that never goes back and is never ahead of what was
forwarded. -/
def CreditMonotone (ring : List Packet) : Prop :=
  ∃ counts : List ℕ, counts.Pairwise (· ≤ ·) ∧
    Forall₂ (fun c p ↦ p.fwdCnt = BitVec.ofNat 32 c ∧ c ≤ p.forwarded) counts ring

/-- The counter in the packet that the event sends, if it sends one. -/
def carried (s : Stream) : StreamEvent → Option (BitVec 32)
  | .data n fails _ => if s.filed ∧ ¬ (n.isSome ∧ fails) then none else some 0
  | .creditUpdate _ => s.worker
  | .disconnect .. => if s.filed then some 0 else none
  | .send _ => s.pump.counter
  | .shutdown _ => if s.closed then none else some 0
  | .read .. | .exit | .close => none

/-- A packet that reaches the ring is sent while the counter has the value that it carries. -/
def Fresh (s : Stream) (e : StreamEvent) : Prop :=
  hdrSize ≤ e.room → s.carried e = none ∨ s.carried e = some s.fwdCnt
deriving Decidable

/-- The stream goes on: more bytes are forwarded, and a packet with this counter may have been put
into the ring. -/
def Extends (s s' : Stream) (room : ℕ) (fc : Option (BitVec 32)) : Prop :=
  ∃ n ps, s'.fwdCnt = s.fwdCnt + BitVec.ofNat 32 n ∧ s'.forwarded = s.forwarded + n ∧
    s'.ring = s.ring ++ ps ∧
      ∀ p ∈ ps, p.forwarded = s.forwarded ∧ hdrSize ≤ room ∧ fc = some p.fwdCnt

theorem Extends.refl (s : Stream) {sent : Option (BitVec 32)} : s.Extends s room sent :=
  ⟨0, [], by simp⟩

theorem extends_sendPkt (s : Stream) : s.Extends (s.sendPkt op data fc room) room (some fc) := by
  rw [sendPkt]
  split_ifs with hroom
  · exact .refl s
  · exact ⟨0, _, by simp, rfl, rfl, by simpa using hroom⟩

theorem extends_handleDisconnect (s : Stream) (hfiled : s.filed = true) :
    s.Extends (s.handleDisconnect room) room (some 0) := by
  rw [handleDisconnect, if_pos hfiled]
  exact extends_sendPkt { s with filed := false }

theorem extends_step (h : s.step e = some s') : s.Extends s' e.room (s.carried e) := by
  revert h
  fun_cases step s e
  all_goals rintro ⟨⟩
  · rename_i n fails room _
    unfold handleData
    by_cases hfiled : s.filed = true
    · rw [if_pos hfiled]
      cases n with
      | none => exact .refl s
      | some n =>
        cases fails with
        | true =>
          have hsent : s.carried (.data (some n) true room) = some 0 :=
            if_neg fun h ↦ h.2 ⟨rfl, rfl⟩
          rw [hsent]
          exact s.extends_handleDisconnect hfiled
        | false => exact ⟨n, [], rfl, rfl, (append_nil _).symm, nofun⟩
    · have hsent : s.carried (.data n fails room) = some 0 := if_neg fun h ↦ hfiled h.1
      rw [if_neg hfiled, hsent]
      exact s.extends_sendPkt
  · rename_i hworker
    rw [carried, hworker]
    exact extends_sendPkt { s with worker := none }
  · rw [carried]
    split_ifs with hfiled
    · exact s.extends_handleDisconnect hfiled
    · rw [handleDisconnect, if_neg hfiled]
      exact .refl s
  · exact .refl s
  · rename_i hpump
    rw [carried, hpump]
    exact s.extends_sendPkt
  · exact .refl s
  · rename_i hclosed
    rw [carried, if_neg hclosed]
    exact s.extends_sendPkt
  · exact .refl s
  · exact .refl s

structure Credited (s : Stream) : Prop where
  fwdCnt : s.fwdCnt = BitVec.ofNat 32 s.forwarded
  sorted : s.ring.Pairwise fun p q ↦ p.forwarded ≤ q.forwarded
  ring : ∀ p ∈ s.ring, p.fwdCnt = BitVec.ofNat 32 p.forwarded ∧ p.forwarded ≤ s.forwarded

theorem Credited.step (hs : s.Credited) (hfresh : s.Fresh e) (h : s.step e = some s') :
    s'.Credited := by
  obtain ⟨n, ps, hfwd, hcount, hring, hps⟩ := extends_step h
  refine ⟨?_, ?_, fun p hp ↦ ?_⟩
  · rw [hfwd, hcount, hs.fwdCnt, BitVec.ofNat_add]
  · rw [hring, pairwise_append]
    refine ⟨hs.sorted, pairwise_of_forall_mem_list fun p hp q hq ↦ ?_, fun p hp q hq ↦ ?_⟩
    · rw [(hps p hp).1, (hps q hq).1]
    · exact (hs.ring p hp).2.trans (hps q hq).1.ge
  rw [hcount]
  rcases mem_append.mp (hring ▸ hp) with hold | hnew
  · exact ⟨(hs.ring p hold).1, (hs.ring p hold).2.trans (Nat.le_add_right _ n)⟩
  · obtain ⟨hforwarded, hroom, hsent⟩ := hps p hnew
    rw [hforwarded, ← hs.fwdCnt]
    have hcurrent := (hfresh hroom).resolve_left (hsent ▸ nofun)
    exact ⟨Option.some.inj (hsent.symm.trans hcurrent), Nat.le_add_right _ n⟩

/-- If every packet carries the counter as it stands when the packet is put into the ring, the
credit never goes back. -/
theorem credit_monotone (h : Run step Fresh (opened dialed room) events s) :
    CreditMonotone s.ring := by
  have hopen : (opened dialed room).Credited := by
    rw [opened, sendPkt]
    split_ifs
    all_goals constructor <;> simp
  have hs : s.Credited := h.invariant (fun _ _ _ hs hok h ↦ hs.step hok h) hopen
  refine ⟨s.ring.map Packet.forwarded, pairwise_map.mpr hs.sorted, ?_⟩
  exact forall₂_map_left_iff.mpr (forall₂_same.mpr fun p hp ↦ ⟨(hs.ring p hp).1, le_rfl⟩)

theorem credit_monotone_exchange : ∃ s, Run step Fresh (opened true 44)
    [.read [1] false, .send 45, .data (some 10) false 0, .creditUpdate 44] s ∧
      s.ring.map Packet.fwdCnt = [0, 0, 10] ∧ CreditMonotone s.ring :=
  Run.exists_of_exec _ (by decide)
    fun _ hrun hs ↦ ⟨hs, credit_monotone hrun⟩

/-- The pump has read the counter, and sends it when the worker has credited ten more bytes. -/
theorem credit_rolled_back : ∃ s, Run step anyStep (opened true 44)
    [.read [1] false, .data (some 10) false 0, .creditUpdate 44, .send 45] s ∧
      ¬ CreditMonotone s.ring :=
  Run.exists_of_exec
    (·.ring = [⟨.request, [], 0, 0⟩, ⟨.creditUpdate, [], 10, 10⟩, ⟨.rw, [1], 0, 10⟩]) (by decide)
    fun s _ hs ↦ by
      rw [hs]
      rintro ⟨_, hsorted, _ | ⟨-, _ | ⟨⟨hten, -⟩, _ | ⟨⟨hzero, hle : _ ≤ 10⟩, _⟩⟩⟩⟩
      have h10 := congrArg BitVec.toNat hten
      have h0 := congrArg BitVec.toNat hzero
      simp at hsorted h10 h0
      omega

/-! ### The bytes from the host -/

/-- The payloads in the ring. Only `opRW` has one. -/
def delivered (s : Stream) : List Byte := s.ring.flatMap Packet.data

/-- The packet that the pump sends fits into the guest's buffers. -/
def Roomy (s : Stream) : StreamEvent → Prop
  | .send room => hdrSize + s.pump.inHand.length ≤ room
  | _ => True

instance (s : Stream) : ∀ e, Decidable (s.Roomy e)
  | .send _ => inferInstanceAs (Decidable (_ ≤ _))
  | .data .. | .creditUpdate _ | .disconnect .. | .read .. | .shutdown _ | .exit | .close =>
    .isTrue trivial

/-- Bytes are missing only if the device was closed under the pump. -/
def Intact (s : Stream) : Prop := s.delivered ++ s.pump.inHand = s.received ∨
  s.delivered <+: s.received ∧ s.pump = .done false

theorem Intact.sendPkt (hs : s.Intact) : (s.sendPkt op [] fc room).Intact := by
  rw [Stream.sendPkt]
  split_ifs
  · exact hs
  · simpa [Intact, delivered] using hs

theorem Intact.handleDisconnect (hs : s.Intact) : (s.handleDisconnect room).Intact := by
  rw [Stream.handleDisconnect]
  split_ifs
  · exact Intact.sendPkt (s := { s with filed := false }) hs
  · exact hs

theorem Intact.step (hs : s.Intact) (hroom : s.Roomy e) (h : s.step e = some s') : s'.Intact := by
  have hlive {pump : RxPump} (hpump : s.pump = pump) (hne : pump ≠ .done false) :
      s.delivered ++ pump.inHand = s.received := by
    subst hpump
    exact hs.resolve_right fun h ↦ hne h.2
  revert hroom h
  fun_cases Stream.step s e
  all_goals rintro hroom ⟨⟩
  · unfold handleData
    repeat' split
    · exact hs
    · exact hs.handleDisconnect
    · exact hs
    · exact hs.sendPkt
  · exact Intact.sendPkt (s := { s with worker := none }) hs
  · exact hs.handleDisconnect
  · rename_i data err hpump _
    rw [← hlive hpump nofun, RxPump.inHand, append_nil]
    split_ifs with hclosed hdata
    · exact .inr ⟨prefix_append _ _, rfl⟩
    · cases err <;> exact .inl (congrArg _ hdata.symm)
    · exact .inl rfl
  · rename_i room data fc err hpump
    simp only [Roomy, hpump, RxPump.inHand] at hroom
    have hfits : data.take (room - hdrSize) = data := take_of_length_le (by omega)
    have h := hlive hpump nofun
    rw [Stream.sendPkt, if_neg (by omega), hfits]
    cases err <;> simpa [Intact, delivered, RxPump.next, RxPump.inHand] using h
  · rename_i hpump _
    have h := hlive hpump nofun
    exact .inl h
  · rename_i hpump _
    have h := hlive hpump nofun
    rw [Stream.sendPkt]
    split_ifs
    · exact .inl h
    · exact .inl (by simpa [delivered, RxPump.inHand] using h)
  · exact hs
  · exact hs

/-- If the pump's packets fit, the guest gets what was read, and all of it if the end is
announced. -/
theorem delivered_of_roomy (h : Run step Roomy (opened dialed room) events s) :
    s.delivered <+: s.received ∧ (s.pump = .done true → s.delivered = s.received) := by
  have hopen : (opened dialed room).Intact := Intact.sendPkt (.inl rfl)
  rcases h.invariant (fun _ _ _ hs hok h ↦ hs.step hok h) hopen with heq | ⟨hpre, hpump⟩
  · refine ⟨heq ▸ prefix_append _ _, fun hpump ↦ ?_⟩
    rwa [hpump, RxPump.inHand, append_nil] at heq
  · exact ⟨hpre, fun h ↦ by simp [hpump] at h⟩

theorem delivered_of_roomy_read : ∃ s, Run step Roomy (opened true 44)
    [.read [1, 2] true, .send 46, .shutdown 44] s ∧ (s.delivered = [1, 2] ∧ s.pump = .done true) ∧
      s.delivered <+: s.received ∧ (s.pump = .done true → s.delivered = s.received) :=
  Run.exists_of_exec _ (by decide) fun _ hrun hs ↦ ⟨hs, delivered_of_roomy hrun⟩

/-- No buffer is available for the first packet, and the pump goes on with the second. -/
theorem read_bytes_lost : ∃ s, Run step anyStep (opened true 44)
    [.read [1, 2] false, .send 0, .read [3] true, .send 45, .shutdown 44] s ∧
      ¬ (s.delivered <+: s.received ∧ (s.pump = .done true → s.delivered = s.received)) :=
  Run.exists_of_exec (fun s ↦ ¬ s.delivered <+: s.received) (by decide) fun s _ hs h ↦ hs h.1

end Stream
end Gocracker.Vsock
