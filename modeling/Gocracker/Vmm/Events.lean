import Gocracker.Transition.Custody
import Gocracker.Transition.Run

/-!
# Subscribers of the event log

`Emit` copies the list of subscribers under the lock and sends behind it. An unsubscribe function
takes its channel out of the list and closes it. So an `Emit` that has copied the list before may
send on the channel after it was closed, and that ends the process.
-/

namespace Gocracker

open Transition List

/-- The events that are kept. -/
def maxEvents : ℕ := 1000

/-- The room in the channel of a subscriber. -/
def subscriberBuffer : ℕ := 64

/-- The misuses of a channel for which Go panics. -/
inductive ChanPanic where
  | sendOnClosed (ch : ℕ)
  | closeOfClosed (ch : ℕ)
  deriving DecidableEq

/-- Channels are numbered in the order in which they are made. -/
structure EventLog (ε : Type) where
  events : List ε
  subs : List ℕ
  made : ℕ
  buffers : ℕ → List ε
  closed : List ℕ
  /-- The calls of `Emit`, each with its event and the channels it has still to send on. -/
  emits : List (ε × List ℕ)
  panics : List ChanPanic

/-- What is done to the log, by anybody and in any order. -/
inductive LogAction (ε : Type) where
  /-- `Emit`, up to its unlocking. -/
  | emit (ev : ε)
  /-- The next channel operation of a call of `Emit`. -/
  | send (i : ℕ)
  | subscribe
  | unsubscribe (ch : ℕ)
  /-- A subscriber takes an event out of its channel. -/
  | receive (ch : ℕ)

open EventLog

namespace EventLog

variable {ε : Type}

/-- Nothing has happened yet. -/
def newEventLog : EventLog ε := ⟨[], [], 0, fun _ ↦ [], [], [], []⟩

/-- Older events are forgotten. -/
def lastEvents (events : List ε) : List ε := events.drop (events.length - maxEvents)

variable (l : EventLog ε)

/-- A `select` with a default: it never blocks. -/
def sendTo (ev : ε) (ch : ℕ) : EventLog ε :=
  if ch ∈ l.closed then { l with panics := .sendOnClosed ch :: l.panics }
  else if (l.buffers ch).length < subscriberBuffer then
    { l with buffers := Function.update l.buffers ch (l.buffers ch ++ [ev]) }
  -- the subscriber is too slow, and the event is dropped
  else l

/-- To close a channel twice is a panic. -/
def close (ch : ℕ) : EventLog ε :=
  if ch ∈ l.closed then { l with panics := .closeOfClosed ch :: l.panics }
  else { l with closed := ch :: l.closed }

/-- A step of the log. `Emit` sends to the subscribers there were when it had the lock. -/
def step : LogAction ε → Option (EventLog ε)
  | .emit ev =>
    some { l with events := lastEvents (l.events ++ [ev]), emits := l.emits ++ [(ev, l.subs)] }
  | .send i =>
    match l.emits[i]? with
    | some (ev, ch :: rest) => some (sendTo { l with emits := l.emits.set i (ev, rest) } ev ch)
    | _ => none
  | .subscribe => some { l with subs := l.subs ++ [l.made], made := l.made + 1 }
  | .unsubscribe ch => some (if ch ∈ l.subs then close { l with subs := l.subs.erase ch } ch else l)
  | .receive ch => some { l with buffers := Function.update l.buffers ch (l.buffers ch).tail }

/-- No call of `Emit` has still to send on a channel that is closed. -/
def Settled : LogAction ε → Prop
  | .unsubscribe ch => ∀ e ∈ l.emits, ch ∉ e.2
  | _ => True

instance (l : EventLog ε) : ∀ a, Decidable (l.Settled a)
  | .unsubscribe _ => inferInstanceAs (Decidable (∀ e ∈ l.emits, _))
  | .emit _ | .send _ | .subscribe | .receive _ => .isTrue trivial

/-- Subscribers are open; in a strict run so are the channels that a call of `Emit` has to send
on. -/
structure Sound (strict : Prop) (l : EventLog ε) : Prop where
  nodup : l.subs.Nodup
  isOpen : ∀ ch ∈ l.subs, ch ∉ l.closed
  made : ∀ ch, ch ∈ l.subs ∨ ch ∈ l.closed → ch < l.made
  pending : strict → ∀ e ∈ l.emits, ∀ ch ∈ e.2, ch < l.made ∧ ch ∉ l.closed
  panics : ∀ p ∈ l.panics, ¬ strict ∧ ∃ ch, p = .sendOnClosed ch

variable {strict : Prop} {l l' : EventLog ε} {a : LogAction ε}

theorem Sound.sendTo (hl : l.Sound strict) {ev : ε} {ch : ℕ} (hch : strict → ch ∉ l.closed) :
    (l.sendTo ev ch).Sound strict := by
  rw [EventLog.sendTo]
  split_ifs with hclosed
  · refine { hl with panics := fun p hp ↦ ?_ }
    rcases mem_cons.mp hp with rfl | hp
    · exact ⟨fun hs ↦ hch hs hclosed, ch, rfl⟩
    · exact hl.panics p hp
  · exact { hl with }
  · exact hl

theorem Sound.subscribe (hl : l.Sound strict) :
    Sound strict { l with subs := l.subs ++ [l.made], made := l.made + 1 } := by
  have hfresh {P : ℕ → Prop} (hold : ∀ ch ∈ l.subs, P ch) (hnew : P l.made) :
      ∀ ch ∈ l.subs ++ [l.made], P ch :=
    forall_mem_append.mpr ⟨hold, forall_mem_singleton.mpr hnew⟩
  have hlt (ch : ℕ) (hch : ch ∈ l.subs ∨ ch ∈ l.closed) : ch < l.made + 1 :=
    Nat.lt_succ_of_lt (hl.made ch hch)
  refine ⟨?_, hfresh hl.isOpen fun h ↦ Nat.lt_irrefl _ (hl.made _ (.inr h)), fun ch hch ↦ ?_,
    fun hs e he ch hch ↦ ?_, hl.panics⟩
  · exact concat_eq_append ▸ hl.nodup.concat fun h ↦ Nat.lt_irrefl _ (hl.made _ (.inl h))
  · rcases hch with hch | hch
    · exact hfresh (fun ch h ↦ hlt ch (.inl h)) (Nat.lt_succ_self _) ch hch
    · exact hlt ch (.inr hch)
  · exact (hl.pending hs e he ch hch).imp_left Nat.lt_succ_of_lt

theorem Sound.unsubscribe (hl : l.Sound strict) {ch : ℕ} (hch : ch ∈ l.subs)
    (hok : strict → ∀ e ∈ l.emits, ch ∉ e.2) :
    Sound strict (close { l with subs := l.subs.erase ch } ch) := by
  rw [close, if_neg (hl.isOpen ch hch)]
  refine ⟨hl.nodup.erase ch, fun ch' hch' ↦ ?_, fun ch' hch' ↦ ?_, fun hs e he ch' hch' ↦ ?_,
    hl.panics⟩
  · obtain ⟨hne, hmem⟩ := hl.nodup.mem_erase_iff.mp hch'
    exact not_mem_cons_of_ne_of_not_mem hne (hl.isOpen ch' hmem)
  · refine hl.made ch' ?_
    rcases hch' with hch' | hch'
    · exact .inl (mem_of_mem_erase hch')
    · rcases mem_cons.mp hch' with rfl | hch'
      · exact .inl hch
      · exact .inr hch'
  · obtain ⟨hlt, hopen⟩ := hl.pending hs e he ch' hch'
    refine ⟨hlt, not_mem_cons_of_ne_of_not_mem ?_ hopen⟩
    rintro rfl
    exact hok hs e he hch'

theorem Sound.step (hl : l.Sound strict) (hok : strict → l.Settled a)
    (h : l.step a = some l') : l'.Sound strict := by
  cases a with
  | emit ev =>
    rw [← Option.some.inj h]
    refine ⟨hl.nodup, hl.isOpen, hl.made, fun hs ↦ forall_mem_append.mpr ⟨hl.pending hs, ?_⟩,
      hl.panics⟩
    exact forall_mem_singleton.mpr fun ch hch ↦ ⟨hl.made ch (.inl hch), hl.isOpen ch hch⟩
  | send i =>
    rw [step] at h
    split at h
    · rename_i ev ch rest hi
      have hmem := mem_of_getElem? hi
      rw [← Option.some.inj h]
      have hrest : Sound strict { l with emits := l.emits.set i (ev, rest) } :=
        { hl with pending := fun hs ↦ forall_mem_set (hl.pending hs) fun ch' hch' ↦
            hl.pending hs _ hmem ch' (mem_cons_of_mem ch hch') }
      exact hrest.sendTo fun hs ↦ (hl.pending hs _ hmem ch mem_cons_self).2
    · nomatch h
  | subscribe => exact Option.some.inj h ▸ hl.subscribe
  | unsubscribe ch =>
    rw [← Option.some.inj h]
    split_ifs with hch
    · exact hl.unsubscribe hch hok
    · exact hl
  | receive ch => exact Option.some.inj h ▸ { hl with }

theorem sound_newEventLog : (newEventLog : EventLog ε).Sound strict where
  nodup := .nil
  isOpen := nofun
  made _ h := h.elim nofun nofun
  pending _ := nofun
  panics := nofun

/-- **No channel is closed twice; and no event is sent on a channel that was closed**, if nobody is
about to send on a channel when it is closed. -/
theorem panics_eq_nil_of_settled {as : List (LogAction ε)}
    (h : Run step Settled newEventLog as l) : l.panics = [] ∧
      ∀ as' l', Run step anyStep (newEventLog : EventLog ε) as' l' →
        ∀ ch, ChanPanic.closeOfClosed ch ∉ l'.panics := by
  refine ⟨eq_nil_iff_forall_not_mem.mpr fun p hp ↦ ?_, fun as' l' h' ch hch ↦ ?_⟩
  · have hl : l.Sound True := h.invariant (fun _ _ _ hl hok ↦ hl.step fun _ ↦ hok) sound_newEventLog
    exact (hl.panics p hp).1 trivial
  · have hl : l'.Sound False := h'.invariant (fun _ _ _ hl _ ↦ hl.step nofun) sound_newEventLog
    obtain ⟨-, _, hp⟩ := hl.panics _ hch
    nomatch hp

end EventLog

/-- A subscriber gets an event, and leaves when it has been sent. -/
theorem panics_eq_nil_leaving : ∃ l : EventLog ℕ, Run step EventLog.Settled newEventLog
      [.subscribe, .emit 7, .send 0, .unsubscribe 0, .unsubscribe 0, .emit 8] l ∧
      l.panics = [] := by
  refine Run.exists_of_exec (·.events = [7, 8]) (by decide +kernel) fun l hrun _ ↦ ?_
  exact (panics_eq_nil_of_settled hrun).1

/-- **A send on a closed channel.** The subscriber leaves when the list has been copied. -/
theorem panics_ne_nil_leaving : ∃ l : EventLog ℕ, Run step anyStep newEventLog
      [.subscribe, .emit 7, .unsubscribe 0, .send 0] l ∧ l.panics = [.sendOnClosed 0] :=
  Run.exists_of_exec _ (by decide +kernel) fun _ _ h ↦ h

end Gocracker
