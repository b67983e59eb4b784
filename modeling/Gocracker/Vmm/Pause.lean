import Gocracker.Transition.Run

/-!
# Pausing a VM

`Pause`, `Resume`, `Stop` and the vCPUs' `waitIfPaused` meet around one mutex and one condition
variable. A step of the model is one critical section of one thread, or the return of a call: what
lies between two critical sections of a thread is interleaved with everything else. The VM has `n`
vCPUs, and `k` threads may be inside `Pause` at the same time, for arbitrary `n` and `k`.

## A sleeping thread

A thread that waits on the condition variable is `waiting`. A broadcast makes it `woken`; it sleeps
no longer but has not the mutex yet, and other threads may act before it looks at the state again. A
vCPU is inside `waitIfPaused` in either phase, and executes no guest code.

## What goes wrong

`Pause` publishes the state `paused` before any vCPU has parked, and a second `Pause` that finds the
VM `paused` returns at once. And `Pause` clears the set of parked vCPUs although a vCPU woken by an
earlier `Resume` may still be inside: that vCPU goes back to sleep without entering the set again.
-/

namespace Gocracker

open Transition Option Function Finset

/-! ## The protocol -/

inductive VMState where
  | running
  | paused
  | stopped
  deriving DecidableEq

/-- Where a vCPU's run loop stands. -/
inductive VCPUPhase where
  /-- Outside `waitIfPaused`: it may execute guest code. -/
  | running
  /-- Asleep on the condition variable inside `waitIfPaused`. -/
  | waiting
  /-- Woken inside `waitIfPaused`, without the mutex. -/
  | woken
  /-- It has left its run loop. -/
  | exited
  deriving DecidableEq

/-- Where a thread that may call `Pause` stands. -/
inductive PauserPhase where
  | idle
  /-- About to take the mutex and look whether every vCPU has parked. -/
  | checking
  /-- Asleep on the condition variable. -/
  | waiting
  /-- It has released the mutex and is about to return without an error. -/
  | returning
  deriving DecidableEq

/-- The vCPU is inside `waitIfPaused`. -/
def VCPUPhase.isInside : VCPUPhase → Bool
  | .waiting | .woken => true
  | _ => false

structure PauseState (n k : ℕ) where
  state : VMState
  pausedVCPUs : Finset (Fin n)
  vcpus : Fin n → VCPUPhase
  pausers : Fin k → PauserPhase

/-- The critical sections of the protocol. The deadline of `Pause` may have passed or not whenever
it is looked at. -/
inductive PauseAction (n k : ℕ) where
  | pauseCall (i : Fin k)
  | pauseCheck (i : Fin k) (expired : Bool)
  | pauseReturn (i : Fin k)
  | timerFire
  | resume
  | stop
  | vcpuEnter (v : Fin n)
  | vcpuWake (v : Fin n)
  | vcpuExit (v : Fin n)

namespace PauseState

variable {n k : ℕ}

/-- A VM whose vCPUs have been started. -/
def init (n k : ℕ) : PauseState n k where
  state := .running
  pausedVCPUs := ∅
  vcpus := fun _ ↦ .running
  pausers := fun _ ↦ .idle

variable (s : PauseState n k)

def setVCPU (v : Fin n) (phase : VCPUPhase) : PauseState n k :=
  { s with vcpus := Function.update s.vcpus v phase }

def setPauser (i : Fin k) (phase : PauserPhase) : PauseState n k :=
  { s with pausers := Function.update s.pausers i phase }

/-- Wake every thread that sleeps on the condition variable. -/
def broadcast : PauseState n k :=
  { s with
    vcpus := fun v ↦ if s.vcpus v = .waiting then .woken else s.vcpus v
    pausers := fun i ↦ if s.pausers i = .waiting then .checking else s.pausers i }

/-- What a vCPU that is not to wait does: it leaves the set, and its loop if the VM is stopped. -/
def leave (v : Fin n) : PauseState n k :=
  { s with
    pausedVCPUs := s.pausedVCPUs.erase v
    vcpus := Function.update s.vcpus v (if s.state = .stopped then .exited else .running) }

/-- The timeout of `Pause`: roll back. -/
def rollback (i : Fin k) : PauseState n k :=
  broadcast { s with
    state := if s.state = .paused then .running else s.state
    pausedVCPUs := ∅
    pausers := Function.update s.pausers i .idle }

/-- One critical section, or the return of a call. `none`: the thread is not there. -/
def step : PauseAction n k → Option (PauseState n k)
  | .pauseCall i =>
    if s.pausers i = .idle then
      match s.state with
      | .paused => some (s.setPauser i .returning)
      | .running => some (setPauser { s with state := .paused, pausedVCPUs := ∅ } i .checking)
      | .stopped => some s
    else none
  | .pauseCheck i expired =>
    if s.pausers i = .checking then
      if s.state = .stopped then some (s.setPauser i .idle)
      else if n ≤ s.pausedVCPUs.card then some (s.setPauser i .returning)
      else if expired then some (s.rollback i)
      else some (s.setPauser i .waiting)
    else none
  | .pauseReturn i => if s.pausers i = .returning then some (s.setPauser i .idle) else none
  | .timerFire => some s.broadcast
  | .resume =>
    if s.state = .paused then some (broadcast { s with state := .running, pausedVCPUs := ∅ })
    else none
  | .stop => if s.state = .stopped then none else some (broadcast { s with state := .stopped })
  | .vcpuEnter v =>
    if s.vcpus v = .running then
      if s.state = .paused then
        some ((broadcast { s with pausedVCPUs := insert v s.pausedVCPUs }).setVCPU v .waiting)
      else some (s.leave v)
    else none
  | .vcpuWake v =>
    if s.vcpus v = .woken then
      if s.state = .paused then some (s.setVCPU v .waiting) else some (s.leave v)
    else none
  | .vcpuExit v =>
    if s.vcpus v = .running ∧ s.state = .stopped then some (s.setVCPU v .exited) else none

/-- A vCPU is inside `waitIfPaused`. -/
def Inside (v : Fin n) : Prop := (s.vcpus v).isInside = true
deriving Decidable

/-- Every vCPU that sleeps in a paused VM is in the set. -/
def NoLostParking : Prop :=
  s.state = .paused → ∀ v, s.vcpus v = .waiting → v ∈ s.pausedVCPUs

/-! ### Who is inside after a step -/

variable {s : PauseState n k}

variable {w : Fin n}

theorem inside_setVCPU_iff {v : Fin n} {phase : VCPUPhase} :
    (s.setVCPU v phase).Inside w ↔ if w = v then phase.isInside = true else s.Inside w := by
  rw [Inside, setVCPU]
  dsimp only
  rw [update_apply]
  split <;> rfl

@[simp] theorem inside_broadcast_iff : s.broadcast.Inside w ↔ s.Inside w := by
  rw [Inside, Inside, broadcast]
  dsimp only
  split_ifs with h
  · rw [h]
    rfl
  · rfl

theorem inside_leave_iff {v : Fin n} : (s.leave v).Inside w ↔ w ≠ v ∧ s.Inside w := by
  rw [Inside, leave]
  dsimp only
  rw [update_apply]
  by_cases hw : w = v
  · rw [if_pos hw]
    constructor
    · intro h
      split at h <;> nomatch h
    · intro h
      exact absurd hw h.1
  · rw [if_neg hw]
    exact ⟨fun h ↦ ⟨hw, h⟩, fun h ↦ h.2⟩

/-- A broadcast sends nobody to its return. -/
@[simp] theorem pausers_broadcast_eq_returning_iff {i : Fin k} :
    s.broadcast.pausers i = .returning ↔ s.pausers i = .returning := by
  rw [broadcast]
  dsimp only
  split_ifs with h
  · rw [h]
    simp
  · rfl

theorem pausers_setPauser_eq {i j : Fin k} {phase target : PauserPhase}
    (h : (s.setPauser i phase).pausers j = target) :
    (j = i ∧ phase = target) ∨ s.pausers j = target := by
  rw [setPauser] at h
  dsimp only at h
  rw [update_apply] at h
  split_ifs at h with hij
  · exact .inl ⟨hij, h⟩
  · exact .inr h

end PauseState

open PauseState

/-- What a step can do, branch by branch. -/
inductive PauseStep {n k : ℕ} (s : PauseState n k) : PauseAction n k → PauseState n k → Prop
  | alreadyPaused (i : Fin k) (hstate : s.state = .paused) :
      PauseStep s (.pauseCall i) (s.setPauser i .returning)
  | beginPause (i : Fin k) (hstate : s.state = .running) : PauseStep s (.pauseCall i)
        (setPauser { s with state := .paused, pausedVCPUs := ∅ } i .checking)
  | refused (i : Fin k) : PauseStep s (.pauseCall i) s
  | stoppedWhilePausing (i : Fin k) (expired : Bool) :
      PauseStep s (.pauseCheck i expired) (s.setPauser i .idle)
  | allParked (i : Fin k) (expired : Bool) (hstate : s.state ≠ .stopped)
      (hcard : n ≤ s.pausedVCPUs.card) :
      PauseStep s (.pauseCheck i expired) (s.setPauser i .returning)
  | timeout (i : Fin k) (hstate : s.state ≠ .stopped) (hcard : ¬n ≤ s.pausedVCPUs.card) :
      PauseStep s (.pauseCheck i true) (s.rollback i)
  | waitForVCPUs (i : Fin k) : PauseStep s (.pauseCheck i false) (s.setPauser i .waiting)
  | returns (i : Fin k) (hphase : s.pausers i = .returning) :
      PauseStep s (.pauseReturn i) (s.setPauser i .idle)
  | timerFire : PauseStep s .timerFire s.broadcast
  | resume (hstate : s.state = .paused) :
      PauseStep s .resume (broadcast { s with state := .running, pausedVCPUs := ∅ })
  | stop : PauseStep s .stop (broadcast { s with state := .stopped })
  | park (v : Fin n) (hphase : s.vcpus v = .running) (hstate : s.state = .paused) :
      PauseStep s (.vcpuEnter v)
        ((broadcast { s with pausedVCPUs := insert v s.pausedVCPUs }).setVCPU v .waiting)
  | pass (v : Fin n) (hphase : s.vcpus v = .running) (hstate : s.state ≠ .paused) :
      PauseStep s (.vcpuEnter v) (s.leave v)
  | sleepAgain (v : Fin n) (hphase : s.vcpus v = .woken) (hstate : s.state = .paused) :
      PauseStep s (.vcpuWake v) (s.setVCPU v .waiting)
  | wakeUp (v : Fin n) (hphase : s.vcpus v = .woken) (hstate : s.state ≠ .paused) :
      PauseStep s (.vcpuWake v) (s.leave v)
  | exit (v : Fin n) (hphase : s.vcpus v = .running) :
      PauseStep s (.vcpuExit v) (s.setVCPU v .exited)

theorem PauseStep.of_step {n k : ℕ} {s s' : PauseState n k} {a : PauseAction n k}
    (hs : s.step a = some s') : PauseStep s a s' := by
  revert hs
  fun_cases step s a with rintro ⟨⟩
  | case8 i expired _ _ _ hexpired => exact Bool.eq_false_of_not_eq_true hexpired ▸ .waitForVCPUs i
  | case23 v h => exact .exit v h.1
  | _ => all_goals constructor <;> assumption

/-! ## The set of parked vCPUs -/

/-- What holds in every reachable state: only vCPUs that are inside are in the set, and the set of a
running VM is empty. -/
structure SetInv {n k : ℕ} (s : PauseState n k) : Prop where
  inside : ∀ v ∈ s.pausedVCPUs, s.Inside v
  running_empty : s.state = .running → s.pausedVCPUs = ∅

namespace SetInv

variable {n k : ℕ} {s : PauseState n k}

theorem init (n k : ℕ) : SetInv (init n k) :=
  ⟨fun v h ↦ absurd h (notMem_empty v), fun _ ↦ rfl⟩

theorem of_empty (h : s.pausedVCPUs = ∅) : SetInv s := by
  refine ⟨fun v hv ↦ ?_, fun _ ↦ h⟩
  rw [h] at hv
  exact absurd hv (notMem_empty v)

section

variable (h : SetInv s)
include h

theorem setPauser (i : Fin k) (phase : PauserPhase) :
    SetInv (s.setPauser i phase) := ⟨h.inside, h.running_empty⟩

theorem broadcast : SetInv s.broadcast :=
  ⟨fun v hv ↦ inside_broadcast_iff.mpr (h.inside v hv), h.running_empty⟩

theorem leave (v : Fin n) : SetInv (s.leave v) := by
  refine ⟨fun w hw ↦ ?_, fun hrun ↦ ?_⟩
  · obtain ⟨hne, hmem⟩ := mem_erase.mp hw
    exact inside_leave_iff.mpr ⟨hne, h.inside w hmem⟩
  · change s.pausedVCPUs.erase v = ∅
    rw [h.running_empty hrun, erase_empty]

theorem park (hpaused : s.state = .paused) (v : Fin n) :
    SetInv ((PauseState.broadcast { s with pausedVCPUs := insert v s.pausedVCPUs }).setVCPU v
      .waiting) := by
  refine ⟨fun w hw ↦ ?_, fun hrun ↦ ?_⟩
  · rw [PauseState.inside_setVCPU_iff]
    split_ifs with hne
    · rfl
    · rw [PauseState.inside_broadcast_iff]
      exact h.inside w ((mem_insert.mp hw).resolve_left hne)
  · exact absurd (hpaused.symm.trans hrun) (by simp)

theorem sleep (v : Fin n) : SetInv (s.setVCPU v .waiting) := by
  refine ⟨fun w hw ↦ ?_, h.running_empty⟩
  rw [PauseState.inside_setVCPU_iff]
  split
  · rfl
  · exact h.inside w hw

/-- **Every step keeps the invariant of the set.** -/
theorem step {a : PauseAction n k} {s' : PauseState n k}
    (hstep : PauseStep s a s') : SetInv s' := by
  cases hstep with
  | alreadyPaused i _ | allParked i _ _ _ => exact h.setPauser i .returning
  | beginPause i _ => exact of_empty rfl
  | refused i => exact h
  | stoppedWhilePausing i _ | returns i _ => exact h.setPauser i .idle
  | timeout i _ _ => exact of_empty rfl
  | waitForVCPUs i => exact h.setPauser i .waiting
  | timerFire => exact h.broadcast
  | resume _ => exact of_empty rfl
  | stop =>
    refine ⟨fun v hv ↦ PauseState.inside_broadcast_iff.mpr (h.inside v hv), fun hrun ↦ ?_⟩
    nomatch hrun
  | park v _ hstate => exact h.park hstate v
  | pass v _ _ => exact h.leave v
  | sleepAgain v _ _ => exact h.sleep v
  | wakeUp v _ _ => exact h.leave v
  | exit v hphase =>
    refine ⟨fun w hw ↦ ?_, h.running_empty⟩
    have hw' : s.Inside w := h.inside w hw
    rw [PauseState.inside_setVCPU_iff]
    split_ifs with heq
    · rw [heq, PauseState.Inside, hphase] at hw'
      nomatch hw'
    · exact hw'

theorem inside_of_card (hcard : n ≤ s.pausedVCPUs.card) (v : Fin n) :
    s.Inside v ∧ s.state ≠ .running := by
  have huniv : s.pausedVCPUs = univ :=
    card_eq_iff_eq_univ _ |>.mp (le_antisymm (card_le_univ _) (by simpa using hcard))
  have hmem : v ∈ s.pausedVCPUs := by rw [huniv]; exact mem_univ v
  refine ⟨h.inside v hmem, fun hrun ↦ ?_⟩
  rw [h.running_empty hrun] at hmem
  exact notMem_empty v hmem

end

end SetInv

/-! ## Is every vCPU parked when `Pause` returns? -/

section Soundness

variable {n k : ℕ}

/-- No `Pause` is between its last critical section and its return. -/
def PauseState.NoneReturning (s : PauseState n k) : Prop := ∀ i, s.pausers i ≠ .returning
deriving Decidable

/-- The condition on a step: `Pause` is called on a paused VM only when all its vCPUs have parked,
and nobody resumes, stops or rolls back the VM while a `Pause` is about to return. -/
def Undisturbed (s : PauseState n k) : PauseAction n k → Prop
  | .pauseCall _ => s.state = .paused → ∀ v, s.Inside v
  | .pauseCheck _ true => s.pausedVCPUs.card < n → s.NoneReturning
  | .resume | .stop => s.NoneReturning
  | _ => True

instance (s : PauseState n k) (a : PauseAction n k) : Decidable (Undisturbed s a) :=
  match a with
  | .pauseCall _ => inferInstanceAs (Decidable (_ → _))
  | .pauseCheck _ true => inferInstanceAs (Decidable (_ → _))
  | .resume | .stop => inferInstanceAs (Decidable (PauseState.NoneReturning _))
  | .pauseCheck _ false | .pauseReturn _ | .timerFire | .vcpuEnter _ | .vcpuWake _
  | .vcpuExit _ => .isTrue trivial

/-- While a `Pause` is about to return, the VM is paused and every vCPU is inside. -/
structure ReturnInv (s : PauseState n k) : Prop extends SetInv s where
  returning : ∀ i, s.pausers i = .returning → ∀ v, s.Inside v ∧ s.state = .paused

namespace ReturnInv

variable {s : PauseState n k}

theorem init (n k : ℕ) : ReturnInv (init n k) := ⟨SetInv.init n k, nofun⟩

theorem returning_setPauser (h : ReturnInv s) (i : Fin k) {phase : PauserPhase}
    (hphase : phase ≠ .returning) (j : Fin k)
    (hj : (s.setPauser i phase).pausers j = .returning) (v : Fin n) :
    s.Inside v ∧ s.state = .paused := by
  rcases pausers_setPauser_eq hj with ⟨-, heq⟩ | hj
  · exact absurd heq hphase
  · exact h.returning j hj v

/-- **Every undisturbed step keeps it.** -/
theorem step (h : ReturnInv s) {a : PauseAction n k} {s' : PauseState n k}
    (hok : Undisturbed s a) (hstep : PauseStep s a s') : ReturnInv s' := by
  refine ⟨h.toSetInv.step hstep, fun j hj v ↦ ?_⟩
  cases hstep with
  | alreadyPaused i hstate =>
    rcases pausers_setPauser_eq hj with - | hj
    · exact ⟨hok hstate v, hstate⟩
    · exact h.returning j hj v
  | beginPause i hstate =>
    have hold := h.returning_setPauser i (by simp) j hj v
    rw [hstate] at hold
    nomatch hold.2
  | refused i => exact h.returning j hj v
  | stoppedWhilePausing i _ => exact h.returning_setPauser i (by simp) j hj v
  -- The set is full, its members are inside, and a set with a member belongs to a paused VM.
  | allParked i _ hstate hcard =>
    rcases pausers_setPauser_eq hj with - | hj
    · obtain ⟨hinside, hrun⟩ := h.inside_of_card hcard v
      refine ⟨hinside, ?_⟩
      change s.state = .paused
      cases hs : s.state with
      | running => exact absurd hs hrun
      | paused => rfl
      | stopped => exact absurd hs hstate
    · exact h.returning j hj v
  -- Waking everybody up would free a `Pause` that is about to return; the condition excludes it.
  | timeout i _ hcard =>
    have hnone := hok (not_le.mp hcard)
    rw [rollback, pausers_broadcast_eq_returning_iff] at hj
    rcases pausers_setPauser_eq (s := s) hj with ⟨-, heq⟩ | hj
    · nomatch heq
    · exact absurd hj (hnone j)
  | waitForVCPUs i | returns i _ => exact h.returning_setPauser i (by simp) j hj v
  | timerFire =>
    rw [pausers_broadcast_eq_returning_iff] at hj
    rw [inside_broadcast_iff]
    exact h.returning j hj v
  | resume | stop => exact absurd (pausers_broadcast_eq_returning_iff.mp hj) (hok j)
  | park w _ hstate =>
    have hold := h.returning j (pausers_broadcast_eq_returning_iff.mp hj) v
    refine ⟨?_, hstate⟩
    rw [inside_setVCPU_iff]
    split
    · rfl
    · exact inside_broadcast_iff.mpr hold.1
  | pass w _ hstate | wakeUp w _ hstate => exact absurd (h.returning j hj v).2 hstate
  | sleepAgain w _ hstate =>
    refine ⟨?_, hstate⟩
    rw [inside_setVCPU_iff]
    split
    · rfl
    · exact (h.returning j hj v).1
  | exit w hphase =>
    have hinside := (h.returning j hj w).1
    rw [PauseState.Inside, hphase] at hinside
    nomatch hinside

end ReturnInv

/-- **Soundness of `Pause`**: in every run whose steps are undisturbed, when a `Pause` returns
without an error every vCPU is inside `waitIfPaused`. -/
theorem inside_of_pauseReturn {as : List (PauseAction n k)} {s s' : PauseState n k}
    (hrun : Run step Undisturbed (init n k) as s) {i : Fin k}
    (hret : s.step (.pauseReturn i) = some s') (v : Fin n) : s.Inside v := by
  have hinv : ReturnInv s :=
    hrun.invariant (fun _ _ _ h hok hs ↦ h.step hok (.of_step hs)) (ReturnInv.init n k)
  obtain ⟨hphase, -⟩ := ite_none_right_eq_some.mp hret
  exact (hinv.returning i hphase v).1

/-- One vCPU parks, the `Pause` that waits for it sees the full set and returns. -/
theorem inside_of_pauseReturn_single : ∃ s s' : PauseState 1 1, Run step Undisturbed (init 1 1)
        [.pauseCall 0, .pauseCheck 0 false, .vcpuEnter 0, .pauseCheck 0 false] s ∧
      s.step (.pauseReturn 0) = some s' ∧ s.Inside 0 := by
  have hend : ∃ s, Run step Undisturbed (init 1 1)
      [.pauseCall 0, .pauseCheck 0 false, .vcpuEnter 0, .pauseCheck 0 false] s ∧
        (s.step (.pauseReturn 0)).isSome := Run.exists_of_exec _ (by decide) fun _ _ h ↦ h
  obtain ⟨s, hrun, hsome⟩ := hend
  obtain ⟨s', hret⟩ := isSome_iff_exists.mp hsome
  exact ⟨s, s', hrun, hret, inside_of_pauseReturn hrun hret 0⟩

/-- **A second `Pause` returns too early.** The first has published the state `paused`, the vCPU
still runs, and the second returns at once. -/
theorem not_inside_of_second_pause : ∃ s s' : PauseState 1 2, Run step anyStep (init 1 2)
        [.pauseCall 0, .pauseCall 1] s ∧
      s.step (.pauseReturn 1) = some s' ∧ ¬s.Inside 0 := by
  have hend : ∃ s, Run step anyStep (init 1 2) [.pauseCall 0, .pauseCall 1] s ∧
      (s.step (.pauseReturn 1)).isSome ∧ ¬s.Inside 0 :=
    Run.exists_of_exec _ (by decide) fun _ _ h ↦ h
  obtain ⟨s, hrun, hsome, hinside⟩ := hend
  obtain ⟨s', hret⟩ := isSome_iff_exists.mp hsome
  exact ⟨s, s', hrun, hret, hinside⟩

end Soundness

/-! ## Is every sleeping vCPU in the set? -/

section Parking

variable {n k : ℕ}

/-- The condition on a step: `Pause` is called on a running VM only when every vCPU has left
`waitIfPaused`. -/
def FreshPause (s : PauseState n k) : PauseAction n k → Prop
  | .pauseCall _ => s.state = .running → ∀ v, ¬s.Inside v
  | _ => True

instance (s : PauseState n k) (a : PauseAction n k) : Decidable (FreshPause s a) :=
  match a with
  | .pauseCall _ => inferInstanceAs (Decidable (_ → _))
  | .pauseCheck _ _ | .pauseReturn _ | .timerFire | .resume | .stop | .vcpuEnter _ | .vcpuWake _
  | .vcpuExit _ => .isTrue trivial

/-- In a paused VM every vCPU inside, asleep or woken, is in the set. -/
def ParkedInv (s : PauseState n k) : Prop :=
  s.state = .paused → ∀ v, s.Inside v → v ∈ s.pausedVCPUs

/-- **Every step of a fresh pause keeps it.** -/
theorem ParkedInv.step {s s' : PauseState n k} (h : ParkedInv s) {a : PauseAction n k}
    (hok : FreshPause s a) (hstep : PauseStep s a s') : ParkedInv s' := by
  intro hpaused v hv
  cases hstep with
  | alreadyPaused i hstate => exact h hstate v hv
  | beginPause i hstate => exact absurd hv (hok hstate v)
  | refused | stoppedWhilePausing | allParked => exact h hpaused v hv
  -- The roll-back leaves no paused VM behind.
  | timeout i _ _ =>
    change (if s.state = .paused then VMState.running else s.state) = .paused at hpaused
    split at hpaused
    · nomatch hpaused
    · rename_i hne
      exact absurd hpaused hne
  | waitForVCPUs | returns => exact h hpaused v hv
  | timerFire => exact h hpaused v (inside_broadcast_iff.mp hv)
  | resume | stop => nomatch hpaused
  | park w _ hstate =>
    rw [inside_setVCPU_iff] at hv
    split_ifs at hv with heq
    · rw [heq]
      exact mem_insert_self w _
    · exact mem_insert_of_mem (h hstate v (inside_broadcast_iff.mp hv))
  | pass w _ hstate => exact absurd hpaused hstate
  -- A vCPU that goes back to sleep was inside before, and therefore in the set.
  | sleepAgain w hphase hstate =>
    rw [inside_setVCPU_iff] at hv
    split_ifs at hv with heq
    · refine h hstate v ?_
      rw [heq, PauseState.Inside, hphase]
      rfl
    · exact h hstate v hv
  | wakeUp w _ hstate => exact absurd hpaused hstate
  | exit w _ =>
    rw [inside_setVCPU_iff] at hv
    split at hv
    · nomatch hv
    · exact h hpaused v hv

/-- **No lost parking**: in every run in which `Pause` is called on a running VM only after every
vCPU has left `waitIfPaused`, each sleeping vCPU of a paused VM is in the set; and a `Pause` that
looks at a VM whose vCPUs all sleep returns without an error, whether its deadline has passed or
not. -/
theorem noLostParking_of_freshPause {as : List (PauseAction n k)} {s : PauseState n k}
    (hrun : Run step FreshPause (init n k) as s) :
    s.NoLostParking ∧ ∀ (i : Fin k) (expired : Bool) (s' : PauseState n k),
      s.state = .paused → (∀ v, s.vcpus v = .waiting) →
      s.step (.pauseCheck i expired) = some s' →
        s'.state = .paused ∧ s'.pausers i = .returning := by
  have hinv : ParkedInv s := by
    refine hrun.invariant (fun _ _ _ h hok hs ↦ h.step hok (.of_step hs)) ?_
    nofun
  have hwaiting : ∀ v, s.vcpus v = .waiting → s.Inside v := by
    intro v hv
    rw [PauseState.Inside, hv]
    rfl
  refine ⟨fun hpaused v hv ↦ hinv hpaused v (hwaiting v hv), ?_⟩
  intro i expired s' hpaused hall hs
  -- All vCPUs sleep, so all are in the set, and the check finds it full before it looks at the
  -- deadline.
  have huniv : s.pausedVCPUs = univ :=
    eq_univ_of_forall fun v ↦ hinv hpaused v (hwaiting v (hall v))
  have hcard : n ≤ s.pausedVCPUs.card := by
    rw [huniv, card_univ, Fintype.card_fin]
  obtain ⟨-, hs⟩ := ite_none_right_eq_some.mp hs
  rw [if_neg (by rw [hpaused]; simp), if_pos hcard] at hs
  obtain ⟨⟩ := hs
  exact ⟨hpaused, update_self _ _ _⟩

/-- One `Pause`, one vCPU: it sleeps and is in the set. -/
theorem noLostParking_of_freshPause_single : ∃ s : PauseState 1 1, Run step FreshPause (init 1 1)
        [.pauseCall 0, .pauseCheck 0 false, .vcpuEnter 0] s ∧
      s.state = .paused ∧ s.vcpus 0 = .waiting ∧ 0 ∈ s.pausedVCPUs := by
  refine Run.exists_of_exec (fun s ↦ s.state = .paused ∧ s.vcpus 0 = .waiting) (by decide)
    fun s hrun ⟨hstate, hphase⟩ ↦ ?_
  exact ⟨hstate, hphase, (noLostParking_of_freshPause hrun).1 hstate 0 hphase⟩

/-- **A vCPU sleeps outside the set.** `Resume` wakes it, and before it has the mutex the next
`Pause` sets the state to `paused` again and clears the set. -/
theorem not_noLostParking_pause_after_resume : ∃ s : PauseState 1 1, Run step anyStep (init 1 1)
        [.pauseCall 0, .vcpuEnter 0, .pauseCheck 0 false, .pauseReturn 0, .resume, .pauseCall 0,
          .vcpuWake 0] s ∧ ¬s.NoLostParking := by
  refine Run.exists_of_exec (fun s ↦ s.state = .paused ∧ s.vcpus 0 = .waiting ∧ 0 ∉ s.pausedVCPUs)
    (by decide) fun s hrun ⟨hstate, hphase, hmem⟩ h ↦ hmem (h hstate 0 hphase)

end Parking

end Gocracker
