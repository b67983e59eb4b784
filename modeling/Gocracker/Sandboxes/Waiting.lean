import Gocracker.Sandboxes.Pool

/-!
# Waiting for a sandbox

`AcquireWait` looks whether something is available, and reads the channel to wait for after that, in
another critical section. A boot that comes back in between closes the channel that the caller does
not know yet. Then the caller waits for the next boot, while there is something to take.
-/

namespace Gocracker.Sandboxes

open Transition List

def Store.IsEmpty (s : Store) : Prop := s.availableHot = [] ∧ s.availablePaused = []

theorem Store.isEmpty_of_front {s : Store} (h : s.front = none) : s.IsEmpty := by
  obtain ⟨hhot, hpaused⟩ := Option.or_eq_none_iff.mp (Option.orElse_eq_or.symm.trans h)
  exact ⟨head?_eq_none_iff.mp hhot, head?_eq_none_iff.mp hpaused⟩

theorem Store.Retires.isEmpty {s t : Store} (h : Retires s t) (hs : s.IsEmpty) : t.IsEmpty := by
  induction h with
  | refl => exact hs
  | tail _ hi hhot hpaused ih =>
    obtain ⟨hh, hp⟩ := ih
    rw [IsEmpty, retire, dequeueAvailable]
    split
    · exact ⟨hh, hp⟩
    · split <;> simp [hh, hp]

namespace Pool

/-- Whoever waits for the channel that is open has nothing to take. -/
def NoLostWakeUp (p : Pool) : Prop :=
  .waiting p.warmAvailableCh ∈ p.callers → p.availableHot = [] ∧ p.availablePaused = []

/-- No boot comes back while a caller has found nothing and has not read the channel; and entries
come in by boots only. -/
def Uninterrupted (p : Pool) (a : PoolAction) : Prop :=
  a.isAddPaused = false ∧ ∀ _ ∈ a.newId, .empty ∉ p.callers
deriving Decidable

structure Awake (p : Pool) : Prop where
  known : ∀ ch, .waiting ch ∈ p.callers → ch ≤ p.warmAvailableCh
  idle : .empty ∈ p.callers ∨ .waiting p.warmAvailableCh ∈ p.callers → p.toStore.IsEmpty

variable {p p' : Pool} {a : PoolAction}

/-- Nobody begins to wait. -/
theorem Awake.of_callers (h : p.Awake) (hch : p'.warmAvailableCh = p.warmAvailableCh)
    (hstore : p.toStore.IsEmpty → p'.toStore.IsEmpty)
    (hcallers : ∀ c ∈ p'.callers, c ∈ p.callers ∨ c ≠ .empty ∧ ∀ ch, c ≠ .waiting ch) :
    p'.Awake := by
  refine ⟨fun ch hmem ↦ ?_, fun hidle ↦ hstore (h.idle ?_)⟩
  · rw [hch]
    exact h.known ch ((hcallers _ hmem).resolve_right fun hnot ↦ hnot.2 ch rfl)
  · rw [hch] at hidle
    exact hidle.imp (fun hmem ↦ (hcallers _ hmem).resolve_right fun hnot ↦ hnot.1 rfl)
      fun hmem ↦ (hcallers _ hmem).resolve_right fun hnot ↦ hnot.2 _ rfl

theorem Awake.step (h : p.Awake) (hok : p.Uninterrupted a) (hstep : p.step a = some p') :
    p'.Awake := by
  have hempty (hnew : a.newId = none) : p.toStore.IsEmpty → p'.toStore.IsEmpty := by
    rcases store_of_step hstep with hret | ⟨id, -, -, -, -, ha⟩
    · exact hret.isEmpty
    · cases hnew.symm.trans ha
  revert hstep
  fun_cases Pool.step p a with
  | case5 k id =>
    intro hstep
    obtain ⟨isHot, -, rfl⟩ := Option.map_eq_some_iff.mp hstep
    rw [bootOk]
    split
    · exact ⟨h.known, h.idle⟩
    · refine ⟨fun ch hmem ↦ (h.known ch hmem).trans (Nat.le_succ _), fun hidle ↦ ?_⟩
      rcases hidle with hmem | hmem
      · exact absurd hmem (hok.2 id rfl)
      · exact absurd (h.known _ hmem) (Nat.not_succ_le_self _)
  | case7 => cases hok.1
  | case9 c hc hnone =>
    rintro ⟨⟩
    refine ⟨fun ch hmem ↦ h.known ch ?_, fun _ ↦ ?_⟩
    · exact (mem_or_eq_of_mem_set hmem).resolve_right (by simp)
    · exact Store.isEmpty_of_front (Option.map_eq_none_iff.mp hnone)
  | case12 c hc =>
    rintro ⟨⟩
    refine ⟨fun ch hmem ↦ ?_, fun _ ↦ h.idle (.inl (mem_of_getElem? hc))⟩
    rcases mem_or_eq_of_mem_set hmem with hmem | heq
    · exact h.known ch hmem
    · exact (Caller.waiting.inj heq).le
  | _ =>
    intro hstep
    all_goals
      refine h.of_callers ?_ (hempty rfl) ?_
      all_goals grind [setCaller, reconcile, launch, bootFail, finish, sweepAll]

/-- **No wake-up is lost**, if no boot comes back while a caller is between looking and waiting. -/
theorem noLostWakeUp_of_uninterrupted {cfg : Config} {as : List PoolAction}
    (h : Run step Uninterrupted (newPool cfg) as p) : p.NoLostWakeUp := by
  have hp : p.Awake := h.invariant (fun _ _ _ hp ↦ hp.step) ⟨nofun, fun h ↦ h.elim nofun nofun⟩
  exact fun hmem ↦ hp.idle (.inr hmem)

end Pool

/-- A caller finds nothing, and reads the channel before or after a boot comes back. -/
def waitingRun (early : Bool) : List PoolAction :=
  [.start, .reconcile 0 none, .call, .acquire 0] ++
    if early then [.capture 0] else [.bootOk 0 "a", .capture 0]

theorem noLostWakeUp_waitingRun :
    ∃ p, Run Pool.step Pool.Uninterrupted (.newPool (smallConfig 2)) (waitingRun true) p ∧
      p.callers = [.waiting p.warmAvailableCh] ∧ p.NoLostWakeUp := by
  refine Run.exists_of_exec (fun p ↦ p.callers = [.waiting p.warmAvailableCh]) (by decide +kernel)
    fun p hrun hp ↦ ⟨hp, ?_⟩
  exact Pool.noLostWakeUp_of_uninterrupted hrun

/-- **A caller sleeps** next to a sandbox that it could take. -/
theorem not_noLostWakeUp_waitingRun :
    ∃ p, Run Pool.step anyStep (.newPool (smallConfig 2)) (waitingRun false) p ∧
      ¬ p.NoLostWakeUp := by
  refine Run.exists_of_exec
    (fun p ↦ p.callers = [.waiting 1] ∧ p.warmAvailableCh = 1 ∧ p.availableHot = [0])
    (by decide +kernel) fun p hrun hp h ↦ ?_
  grind [Pool.NoLostWakeUp]

end Gocracker.Sandboxes
