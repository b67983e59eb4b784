import Gocracker.Virtio.Queue

/-!
# Is every page a device writes marked?

A device's call is a list of memory operations in which the stores come first and the marks that
should cover them after. `WellMarked` says that they do: each stored offset lies in the range of a
mark that is still to come. While such a list is executed, every offset written so far is on a
marked page or covered by a mark that is pending (`Dma.isDirty_or_covers_exec`), so once it has been
executed the tracker is complete.

`GuestWrite` and `PushUsed` store at an offset of RAM and mark a guest-physical address. The two
agree when RAM starts at guest-physical address `0`; then the calls are well marked
(`Queue.wellMarked_guestWriteOps`, `Queue.wellMarked_pushUsedOps`). With any other base there is a
one-byte write whose page is not marked (`exists_write_not_dirty`).
-/

namespace Gocracker

open Machine List

/-! ## Lists of memory operations that mark what they store -/

/-- Some mark of the list has offset `o` in its range. -/
def Covers (ops : List MemOp) (o : ℕ) : Prop :=
  ∃ addr length, MemOp.mark addr length ∈ ops ∧ addr.toNat ≤ o ∧ o < addr.toNat + length.toNat

/-- Every offset that the list stores to is covered by a mark that comes after the store. -/
def WellMarked : List MemOp → Prop
  | [] => True
  | .store off buf :: ops => (∀ o, off ≤ o → o < off + buf.length → Covers ops o) ∧ WellMarked ops
  | .mark _ _ :: ops => WellMarked ops

variable {ops : List MemOp}

variable {o : ℕ}

theorem Covers.cons (h : Covers ops o) (op : MemOp) : Covers (op :: ops) o := by
  obtain ⟨addr, length, hmem, hlo, hhi⟩ := h
  exact ⟨addr, length, mem_cons_of_mem _ hmem, hlo, hhi⟩

theorem not_covers_nil (o : ℕ) : ¬Covers [] o := by
  rintro ⟨addr, length, hmem, -⟩
  exact absurd hmem not_mem_nil

variable {op : MemOp}

theorem WellMarked.tail (h : WellMarked (op :: ops)) : WellMarked ops := by
  cases op with
  | store off buf => exact h.2
  | mark addr length => exact h

/-- **One operation of a well marked list.** What was marked or covered by the list is marked or
covered by its rest. -/
theorem Dma.isDirty_or_covers_exec {d : Dma}
    (hsize : o < d.ram.bytes.length) (h : d.isDirty o = true ∨ Covers (op :: ops) o) :
    (d.exec op).isDirty o = true ∨ Covers ops o := by
  cases op with
  | store off buf =>
    refine h.imp id ?_
    rintro ⟨addr, length, hmem, hlo, hhi⟩
    rw [mem_cons] at hmem
    rcases hmem with hmem | hmem
    · nomatch hmem
    · exact ⟨addr, length, hmem, hlo, hhi⟩
  | mark addr length =>
    rcases h with h | ⟨addr', length', hmem, hlo, hhi⟩
    · exact .inl (isDirty_exec_mark_iff.mpr (.inl h))
    rw [mem_cons] at hmem
    rcases hmem with hmem | hmem
    · obtain ⟨rfl, rfl⟩ := MemOp.mark.inj hmem
      exact .inl (isDirty_exec_mark_iff.mpr (.inr ⟨o, hlo, hhi, hsize, rfl⟩))
    · exact .inr ⟨addr', length', hmem, hlo, hhi⟩

/-! ## The calls of a queue whose RAM starts at guest-physical address zero -/

variable {r : Ram}

namespace Queue

variable {q : Queue} {ops : List MemOp}

theorem wellMarked_guestWriteOps (hbase : q.guestPhysBase = 0) {memLen : ℕ} {addr : BitVec 64}
    {buf : List Byte} (h : q.guestWriteOps memLen addr buf = .ok ops) : WellMarked ops := by
  obtain ⟨start, stop, hrange, rfl⟩ := guestWriteOps_eq_ok h
  refine ⟨fun o hlo hhi ↦ ?_, trivial⟩
  rw [length_take] at hhi
  refine ⟨addr, _, mem_singleton.mpr rfl, ?_⟩
  by_cases hpos : BitVec.ofNat 64 buf.length = 0
  · -- An empty range is checked to be `[0, 0)`, so nothing is stored.
    rw [checkedRange, if_pos hpos] at hrange
    obtain ⟨⟩ := hrange
    omega
  · obtain ⟨-, hstart, hstop, -⟩ := checkedRange_eq_ok hpos hrange
    have hzero : q.guestPhysBase.toNat = 0 := by rw [hbase]; rfl
    omega

theorem wellMarked_pushUsedOps (hbase : q.guestPhysBase = 0) {id written : BitVec 32}
    (h : q.pushUsedOps r id written = .ok ops) : WellMarked ops := by
  obtain ⟨-, -, h⟩ := bind_eq_ok.mp h
  obtain ⟨used, -, h⟩ := bind_eq_ok.mp h
  obtain ⟨-, -, h⟩ := bind_eq_ok.mp h
  obtain ⟨-, -, ⟨⟩⟩ := bind_eq_ok.mp h
  have hzero : q.guestPhysBase.toNat = 0 := by rw [hbase]; rfl
  have hoff : ∀ gpa, (q.off gpa).toNat = gpa.toNat := by
    intro gpa
    rw [toNat_off (by omega), hzero, Nat.sub_zero]
  -- Each store lies in the range of the mark named in the second component.
  have hentry : ∀ o, (q.usedEntry used).toNat ≤ o → o < (q.usedEntry used).toNat + 8 →
      Covers [.mark (q.usedEntry used) 8, .mark (q.deviceAddr + 2) 2] o := fun o hlo hhi ↦
    ⟨_, 8, mem_cons_self, hlo, hhi⟩
  have hidx : ∀ o, (q.deviceAddr + 2).toNat ≤ o → o < (q.deviceAddr + 2).toNat + 2 →
      Covers [.mark (q.usedEntry used) 8, .mark (q.deviceAddr + 2) 2] o := fun o hlo hhi ↦
    ⟨_, 2, mem_cons_of_mem _ mem_cons_self, hlo, hhi⟩
  simp only [WellMarked, hoff, length_putLE, and_true]
  refine ⟨fun o hlo hhi ↦ ?_, fun o hlo hhi ↦ ?_, fun o hlo hhi ↦ ?_⟩
  · exact ((hentry o hlo (by omega)).cons _).cons _
  · exact (hentry o (by omega) (by omega)).cons _
  · exact hidx o hlo hhi

end Queue

/-! ## Sequences of calls -/

/-- RAM with its tracker, and the ranges (offset and length) stored to since the last reset of the
tracker. The ranges are recorded at the one operation that stores. -/
structure Traced where
  dma : Dma
  stores : List (ℕ × ℕ)

/-- What a device's host-side code does with RAM and tracker. A call of a queue names the queue, of
any size and with any ring addresses; the transport gives all its queues one base. -/
inductive DmaCall where
  | guestWrite (q : Queue) (addr : BitVec 64) (buf : List Byte)
  | pushUsed (q : Queue) (id written : BitVec 32)
  | snapshotAndReset
  | reset

namespace Traced

variable (t : Traced)

def exec (op : MemOp) : Traced where
  dma := t.dma.exec op
  stores :=
    match op with
    | .store off buf => (off, buf.length) :: t.stores
    | .mark _ _ => t.stores

/-- Execute the operations of a call: none if it fails. -/
def perform : Except QueueError (List MemOp) → Traced
  | .ok ops => ops.foldl exec t
  | .error _ => t

def call (base : BitVec 64) (t : Traced) : DmaCall → Traced
  | .guestWrite q addr buf =>
    t.perform ((q.setGuestPhysBase base).guestWriteOps t.dma.ram.bytes.length addr buf)
  | .pushUsed q id written => t.perform ((q.setGuestPhysBase base).pushUsedOps t.dma.ram id written)
  | .snapshotAndReset | .reset => ⟨t.dma.reset, []⟩

/-- Offset `o` was written by a call since the last reset. -/
def Written (o : ℕ) : Prop :=
  o < t.dma.ram.bytes.length ∧ ∃ r ∈ t.stores, r.1 ≤ o ∧ o < r.1 + r.2

/-- Every page that holds a written byte is marked. -/
def Complete : Prop := ∀ o, t.Written o → t.dma.isDirty o = true

@[simp] theorem length_exec (op : MemOp) :
    (t.exec op).dma.ram.bytes.length = t.dma.ram.bytes.length := Dma.length_exec _ _

variable {t : Traced} {base : BitVec 64}

/-- **A whole call.** If every written byte was marked or covered before a well marked list is
executed, every written byte is marked after it. -/
theorem complete_foldl_exec (hops : WellMarked ops)
    (h : ∀ o, t.Written o → t.dma.isDirty o = true ∨ Covers ops o) :
    (ops.foldl exec t).Complete := by
  induction ops generalizing t with
  | nil =>
    intro o ho
    exact (h o ho).resolve_right (not_covers_nil o)
  | cons op ops ih =>
    apply ih hops.tail
    intro o ho
    have hsize : o < t.dma.ram.bytes.length := by
      rw [← length_exec t op]
      exact ho.1
    by_cases hold : t.Written o
    · exact Dma.isDirty_or_covers_exec hsize (h o hold)
    -- A byte written for the first time: this operation stored it, and the rest covers it.
    obtain ⟨-, r, hr, hlo, hhi⟩ := ho
    cases op with
    | store off buf =>
      rcases mem_cons.mp hr with rfl | hr
      · exact .inr (hops.1 o hlo hhi)
      · exact absurd ⟨hsize, r, hr, hlo, hhi⟩ hold
    | mark addr length => exact absurd ⟨hsize, r, hr, hlo, hhi⟩ hold

theorem Complete.perform (ht : t.Complete) {res : Except QueueError (List MemOp)}
    (h : ∀ ops, res = .ok ops → WellMarked ops) : (t.perform res).Complete := by
  cases res with
  | ok ops => exact complete_foldl_exec (h ops rfl) fun o ho ↦ .inl (ht o ho)
  | error e => exact ht

/-- **One call keeps the tracker complete**, if RAM starts at guest-physical address zero. -/
theorem Complete.call (ht : t.Complete) (c : DmaCall) : (t.call 0 c).Complete := by
  cases c with
  | guestWrite q addr buf => exact ht.perform fun ops h ↦ Queue.wellMarked_guestWriteOps rfl h
  | pushUsed q id written => exact ht.perform fun ops h ↦ Queue.wellMarked_pushUsedOps rfl h
  | snapshotAndReset | reset =>
    rintro o ⟨-, r, hr, -⟩
    exact absurd hr not_mem_nil

theorem Complete.foldl_call (ht : t.Complete) (calls : List DmaCall) :
    (calls.foldl (Traced.call 0) t).Complete := by
  induction calls generalizing t with
  | nil => exact ht
  | cons c calls ih => exact ih (ht.call c)

theorem length_call (base : BitVec 64) (t : Traced) (c : DmaCall) :
    (t.call base c).dma.ram.bytes.length = t.dma.ram.bytes.length := by
  have hperform : ∀ res, (t.perform res).dma.ram.bytes.length = t.dma.ram.bytes.length := by
    rintro (e | ops)
    · rfl
    · exact foldl_keeps (g := fun t : Traced ↦ t.dma.ram.bytes.length) length_exec ops t
  cases c with
  | guestWrite | pushUsed => exact hperform _
  | snapshotAndReset | reset => rfl

/-! ## Any other base -/

/-- Nothing written, nothing marked. -/
def fresh (pageSize : ℕ+) (r : Ram) : Traced := ⟨Dma.fresh pageSize r, []⟩

theorem complete_fresh (pageSize : ℕ+) (r : Ram) : (fresh pageSize r).Complete := by
  rintro o ⟨-, x, hx, -⟩
  exact absurd hx not_mem_nil

theorem toNat_add_ofNat (h : base.toNat + o < 2 ^ 64) :
    (base + BitVec.ofNat 64 o).toNat = base.toNat + o := by
  rw [BitVec.toNat_add, BitVec.toNat_ofNat]
  omega

variable {pageSize : ℕ+} {q : Queue} {b : Byte}

theorem call_guestWrite_singleton (ho : o < r.bytes.length) (hbase : base.toNat + o < 2 ^ 64) :
    (fresh pageSize r).call base (.guestWrite q (base + BitVec.ofNat 64 o) [b]) =
      ⟨((Dma.fresh pageSize r).exec (.store o [b])).exec (.mark (base + BitVec.ofNat 64 o) 1),
        [(o, 1)]⟩ := by
  have haddr := toNat_add_ofNat hbase
  have hlt := r.length_lt
  have hone : (1 : BitVec 64).toNat = 1 := rfl
  have hgpb : (q.setGuestPhysBase base).guestPhysBase = base := rfl
  have hrange : (q.setGuestPhysBase base).checkedRange r.bytes.length
      (base + BitVec.ofNat 64 o) 1 = .ok (o, o + 1) := by
    have hoff : (base + BitVec.ofNat 64 o - base).toNat = o := by
      rw [BitVec.toNat_sub]
      omega
    have hstop : (base + BitVec.ofNat 64 o - base + 1).toNat = o + 1 := by
      rw [BitVec.toNat_add]
      omega
    rw [Queue.checkedRange, if_neg (by decide), hgpb]
    simp only [BitVec.lt_def, hoff, hstop]
    rw [if_neg (by omega), if_neg (by omega), if_neg (by omega)]
  have hops : (q.setGuestPhysBase base).guestWriteOps r.bytes.length
      (base + BitVec.ofNat 64 o) [b] = .ok [.store o [b], .mark (base + BitVec.ofNat 64 o) 1] := by
    refine bind_eq_ok.mpr ⟨(o, o + 1), hrange, ?_⟩
    simp [pure, Except.pure]
  have hperform := congrArg (fresh pageSize r).perform hops
  exact hperform

/-- **One byte written at offset `o`** is on a marked page exactly when the address `base + o`,
taken as an offset, lies in RAM and on the page of `o`. -/
theorem complete_guestWrite_singleton_iff
    (ho : o < r.bytes.length) (hbase : base.toNat + o < 2 ^ 64) :
    ((fresh pageSize r).call base (.guestWrite q (base + BitVec.ofNat 64 o) [b])).Complete ↔
      base.toNat + o < r.bytes.length ∧ (base.toNat + o) / pageSize = o / pageSize := by
  have hlen : ((fresh pageSize r).dma.exec (.store o [b])).ram.bytes.length = r.bytes.length :=
    Dma.length_exec _ _
  have hdirty : (((Dma.fresh pageSize r).exec (.store o [b])).exec
      (.mark (base + BitVec.ofNat 64 o) 1)).isDirty o = true ↔
        base.toNat + o < r.bytes.length ∧ (base.toNat + o) / pageSize = o / pageSize := by
    rw [Dma.isDirty_exec_mark_iff, Dma.isDirty_exec_store, Dma.isDirty_fresh, toNat_add_ofNat hbase]
    constructor
    · rintro (h | ⟨o', hlo, hhi, hsize, hpage⟩)
      · nomatch h
      · have : o' = base.toNat + o := le_antisymm (Nat.lt_succ_iff.mp hhi) hlo
        subst this
        exact ⟨lt_of_lt_of_eq hsize hlen, hpage⟩
    · rintro ⟨hsize, hpage⟩
      exact .inr ⟨_, le_rfl, Nat.lt_succ_self _, lt_of_lt_of_eq hsize hlen.symm, hpage⟩
  rw [call_guestWrite_singleton ho hbase, ← hdirty]
  constructor
  · intro h
    exact h o ⟨lt_of_lt_of_eq ho ((Dma.length_exec _ _).trans hlen).symm, (o, 1),
      mem_cons_self, le_rfl, Nat.lt_succ_self o⟩
  rintro h o' ⟨-, x, hx, hlo, hhi⟩
  obtain rfl := mem_singleton.mp hx
  have : o' = o := le_antisymm (Nat.lt_succ_iff.mp hhi) hlo
  rwa [this]

/-- Off base zero, some byte of RAM is not on the page its guest-physical address marks. -/
theorem exists_offset_misplaced {base n : ℕ} (pageSize : ℕ+) (hbase : base ≠ 0) (hn : n ≠ 0) :
    ∃ o < n, (o = 0 ∨ base < n) ∧ ¬(base + o < n ∧ (base + o) / pageSize = o / pageSize) := by
  have hps := pageSize.pos
  by_cases hout : n ≤ base
  · exact ⟨0, Nat.pos_of_ne_zero hn, .inl rfl, by omega⟩
  -- The last offset of the first page, or of RAM if that is shorter.
  refine ⟨min (pageSize : ℕ) n - 1, by omega, .inr (by omega), ?_⟩
  rintro ⟨hlt, hpage⟩
  rcases le_total n pageSize with hle | hle
  · omega
  · rw [min_eq_left hle, Nat.div_eq_of_lt (show (pageSize : ℕ) - 1 < pageSize by omega),
      Nat.div_eq_zero_iff] at hpage
    omega

end Traced

open Traced in
/-- **Completeness of the tracker for device DMA.** It is complete after every sequence of calls
exactly when RAM starts at guest-physical address zero (or there is no RAM to write). -/
theorem complete_iff_guestPhysBase_eq_zero (pageSize : ℕ+) (r : Ram) (base : BitVec 64) :
    (∀ calls : List DmaCall, (calls.foldl (call base) (fresh pageSize r)).Complete) ↔
      base = 0 ∨ r.bytes = [] := by
  constructor
  · intro h
    by_contra hne
    rw [not_or] at hne
    have hbase : base.toNat ≠ 0 := fun h0 ↦ hne.1 (BitVec.eq_of_toNat_eq h0)
    have hlen : r.bytes.length ≠ 0 := fun h0 ↦ hne.2 (length_eq_zero_iff.mp h0)
    obtain ⟨o, ho, hor, hbad⟩ := exists_offset_misplaced pageSize hbase hlen
    have hfit : base.toNat + o < 2 ^ 64 := by
      have := base.isLt
      have := r.length_lt
      omega
    exact hbad ((complete_guestWrite_singleton_iff ho hfit).mp
      (h [.guestWrite (newQueue 0) (base + BitVec.ofNat 64 o) [0]]))
  · rintro (rfl | hr) calls
    · exact (complete_fresh pageSize r).foldl_call calls
    rintro o ⟨hlt, -⟩
    rw [foldl_keeps (g := fun t : Traced ↦ t.dma.ram.bytes.length) (length_call base)] at hlt
    have hzero : (fresh pageSize r).dma.ram.bytes.length = 0 := by
      rw [length_eq_zero_iff]
      exact hr
    omega

def twoPages : Ram := ⟨List.replicate 8192 0, by rw [length_replicate]; decide⟩

open Traced in
/-- On ARM64 RAM starts at `0x80000000`: a byte that a device writes to the first page of a RAM of
two pages is on no marked page. -/
theorem not_complete_guestWrite_arm64 :
    ¬([DmaCall.guestWrite (newQueue 256) 0x80000000 [1]].foldl (call 0x80000000)
      (fresh 4096 twoPages)).Complete := by
  rw [foldl_cons, foldl_nil]
  intro h
  have hlen : twoPages.bytes.length = 8192 := length_replicate
  have haddr : (0x80000000 : BitVec 64) + BitVec.ofNat 64 0 = 0x80000000 := by decide
  have hiff : ((fresh 4096 twoPages).call 0x80000000
      (.guestWrite (newQueue 256) (0x80000000 + BitVec.ofNat 64 0) [1])).Complete ↔ _ :=
    complete_guestWrite_singleton_iff (by rw [hlen]; decide) (by decide)
  rw [haddr] at hiff
  have hin := (hiff.mp h).1
  rw [hlen] at hin
  nomatch hin

end Gocracker
