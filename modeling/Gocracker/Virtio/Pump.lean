import Gocracker.Virtio.Queue

/-!
# The pumps of net and vsock

Packets from the host reach the guest through threads that nothing stops when the vCPUs are paused:
the receive pump of virtio-net (`deliverRXPacket`) and every caller of vsock's `sendPkt`. Both take
one head off the available ring, fill the chain's buffers, and return the head through the used
ring; they differ in where the chain is walked and in what an error does.

A pump is modelled as a thread. Between two of its own steps everybody else may act. The section
that takes the head is one step, as it holds the queue's mutex; each copy into RAM and each mark in
the tracker is a step of its own.
-/

namespace Gocracker

open Machine

def netHeaderLen : ℕ := 12

inductive PumpKind where
  | net
  | vsock
  deriving DecidableEq

/-- What a pump does when its pending memory operations are done. -/
inductive PumpNext where
  /-- Take a head off the available ring, for this packet. -/
  | consume (pkt : List Byte)
  | walk (head : BitVec 16) (pkt : List Byte)
  | fill (head : BitVec 16) (chain : List Desc) (pkt : List Byte) (written : BitVec 32)
  /-- Return the head through the used ring. -/
  | push (head : BitVec 16) (written : BitVec 32)
  | done

/-- A pump thread on the queue with the given index. -/
structure Pump where
  kind : PumpKind
  queue : ℕ
  pending : List MemOp
  next : PumpNext

variable (q : Queue) (r : Ram) (kind : PumpKind)

/-- The section that takes a head: nothing is taken if the queue is not ready, the packet is shorter
than its header, the ring cannot be read, or no head is new. virtio-net walks the chain here, still
holding the mutex, and a head whose chain is invalid is never returned. -/
def Queue.consumeHead (pkt : List Byte) :
    Queue × PumpNext :=
  if (kind = .net ∧ pkt.length < netHeaderLen) ∨ q.ready = false then (q, .done)
  else
    match q.readAvail r with
    | .error _ => (q, .done)
    | .ok avail =>
      if q.lastAvail = avail.idx then (q, .done)
      else
        let head := q.nextHead avail
        let taken := { q with lastAvail := q.lastAvail + 1 }
        match kind with
        | .vsock => (taken, .walk head pkt)
        | .net =>
          match q.walkChain r head with
          | .error _ | .ok [] => (taken, .done)
          -- `num_buffers` of the header is set to one.
          | .ok (d :: chain) => (taken, .fill head (d :: chain) (writeAt pkt 10 [1, 0]) 0)

/-- One descriptor of the chain is filled. A failing write makes virtio-net give up, and vsock
return what it has written. -/
def Queue.fillDesc (q : Queue) (memLen : ℕ) (kind : PumpKind) (head : BitVec 16) (d : Desc)
    (chain : List Desc) (pkt : List Byte) (written : BitVec 32) : List MemOp × PumpNext :=
  if d.flags &&& descFlagWrite = 0 then ([], .fill head chain pkt written)
  else
    let sz := min pkt.length d.len.toNat
    match q.guestWriteOps memLen d.addr (pkt.take sz), kind with
    | .error _, .net => ([], .done)
    | .error _, .vsock => ([], .push head written)
    | .ok ops, _ =>
      let rest := pkt.drop sz
      (ops, if rest = [] then .push head (written + BitVec.ofNat 32 sz)
        else .fill head chain rest (written + BitVec.ofNat 32 sz))

/-- What a pump without pending operations does: the queue afterwards, the operations it issues, and
how it goes on. -/
def Queue.pumpStep :
    PumpNext → Queue × List MemOp × PumpNext
  | .consume pkt => ((q.consumeHead r kind pkt).1, [], (q.consumeHead r kind pkt).2)
  | .walk head pkt =>
    match q.walkChain r head with
    | .error _ => (q, [], .push head 0)
    | .ok chain => (q, [], .fill head chain pkt 0)
  | .fill head [] _ written => (q, [], .push head written)
  | .fill head (d :: chain) pkt written =>
    (q, q.fillDesc r.bytes.length kind head d chain pkt written)
  | .push head written =>
    match q.pushUsedOps r (head.setWidth 32) written with
    | .error _ => (q, [], .done)
    | .ok ops => (q, ops, .done)
  | .done => (q, [], .done)

/-- Two queues that differ at most in how many heads the device has taken. -/
def Queue.SameRings (q q' : Queue) : Prop := ∃ n, q' = { q with lastAvail := n }

theorem Queue.SameRings.refl (q : Queue) : q.SameRings q := ⟨q.lastAvail, rfl⟩

theorem Queue.sameRings_consumeHead (pkt : List Byte) :
    q.SameRings (q.consumeHead r kind pkt).1 := by
  rw [consumeHead]
  split
  · exact SameRings.refl q
  split
  · exact SameRings.refl q
  split
  · exact SameRings.refl q
  cases kind with
  | vsock => exact ⟨_, rfl⟩
  | net =>
    dsimp only
    split <;> exact ⟨_, rfl⟩

theorem Queue.sameRings_pumpStep (next : PumpNext) : q.SameRings (q.pumpStep r kind next).1 := by
  cases next with
  | consume pkt => exact q.sameRings_consumeHead r kind pkt
  | walk head pkt | push head written =>
    rw [pumpStep]
    split <;> exact SameRings.refl q
  | fill head chain pkt written => cases chain <;> exact SameRings.refl q
  | done => exact SameRings.refl q

end Gocracker
