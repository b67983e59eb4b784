import Gocracker.Sandboxes.Pool
import Gocracker.Transition.Custody

/-!
# How many boots

A pass of the refiller computes how many boots of each kind to launch, by a sequence of differences
and limits. `Validate` does not look at `MaxHot`. If it is negative then so is the number of hot
boots, and the counter goes below zero.
-/

namespace Gocracker.Sandboxes

open Transition List

namespace Store

variable {s t : Store} {i : ℕ} {state : State} {id : String} {st : State} {result : Option ℕ}

theorem Retires.countByState_le (h : Retires s t) (hstate : state = .hot ∨ state = .paused) :
    t.countByState state ≤ s.countByState state := by
  induction h with
  | refl => exact le_rfl
  | @tail t i st result _ _ hhot hpaused ih =>
    refine le_trans ?_ ih
    obtain ⟨hmade, hentries⟩ := retire_eq t i st result
    have hentry : (t.retire i st result).entry =
      Function.update t.entry i { t.entry i with state := st, result := result } := rfl
    rw [countByState, hmade]
    refine countP_mono_left fun j _ hj ↦ ?_
    simp only [Filed, hentry] at hj ⊢
    grind

theorem countByState_insert_le (s : Store) (state : State) (id : String) (st : State)
    (result : Option ℕ) : (s.insert id st result).countByState state ≤
      s.countByState state + if state = st then 1 else 0 := by
  obtain ⟨hmade, hentries, hentry⟩ := insert_eq s id st result
  rw [countByState, hmade, range_succ, countP_append]
  refine Nat.add_le_add (countP_mono_left fun j hj hold ↦ ?_) ?_
  · have hlt := mem_range.mp hj
    simp only [Filed, hentries, hentry] at hold ⊢
    grind
  · simp only [hentry]
    grind

end Store

namespace Pool

structure Sized (p : Pool) : Prop where
  hotBoots : p.inflightHot = p.boots.count true
  pausedBoots : p.inflightPaused = p.boots.count false
  parallel : p.inflightHot + p.inflightPaused ≤ p.cfg.replenishParallelism
  hot : p.countByState .hot + p.inflightHot ≤ p.cfg.maxHot
  paused : p.countByState .paused + p.inflightPaused ≤ p.cfg.maxPaused

/-- The limits are kept, and while the pool cools down nothing is launched. -/
def Limited (p : Pool) : Prop :=
  p.Sized ∧ ∀ now remain, ∀ t ∈ p.cooldownUntil, now < t → (p.reconcile now remain).boots = p.boots

variable {p p' : Pool} {a : PoolAction}

/-- **A pass stays inside the limits** if the pool is inside. -/
theorem Sized.plan_eq (h : p.Sized) {remain : Option ℤ} {n m : ℤ} (hn : p.plan remain = (n, m)) :
    0 ≤ n ∧ 0 ≤ m ∧ p.inflightHot + p.inflightPaused + n + m ≤ p.cfg.replenishParallelism ∧
      p.countByState .hot + p.inflightHot + n ≤ p.cfg.maxHot ∧
      p.countByState .paused + p.inflightPaused + m ≤ p.cfg.maxPaused ∧
      ∀ r ∈ remain, 0 ≤ r → n + m ≤ r := by
  obtain ⟨-, -, hparallel, hhot, hpaused⟩ := h
  simp only [plan] at hn
  generalize hwant : (if p.cfg.minHot - (p.countByState .hot + p.inflightHot) < 0 ∨ p.cfg.maxHot = 0
    then 0 else p.cfg.minHot - (p.countByState .hot + p.inflightHot)) = want at hn
  have hwant0 : 0 ≤ want := by grind
  cases remain with
  | none => grind
  | some r =>
    simp only [Option.mem_some_iff] at *
    grind

theorem Sized.reconcile (h : p.Sized) (now : ℤ) (remain : Option ℤ) :
    (p.reconcile now remain).Sized := by
  rw [Pool.reconcile]
  split
  · exact h
  rcases hn : p.plan remain with ⟨n, m⟩
  obtain ⟨hhot, hpaused, hparallel, hmaxHot, hmaxPaused, -⟩ := h.plan_eq hn
  have hhotBoots := h.hotBoots
  have hpausedBoots := h.pausedBoots
  refine ⟨?_, ?_, ?_, ?_, ?_⟩
  · simp [launch, hhotBoots, count_replicate, hhot]
  · simp [launch, hpausedBoots, count_replicate, hpaused]
  · change p.inflightHot + n + (p.inflightPaused + m) ≤ p.cfg.replenishParallelism
    omega
  · change p.countByState .hot + (p.inflightHot + n) ≤ p.cfg.maxHot
    omega
  · change p.countByState .paused + (p.inflightPaused + m) ≤ p.cfg.maxPaused
    omega

/-- A boot that comes back makes room for one entry of its kind. -/
theorem Sized.finish (h : p.Sized) {k : ℕ} {isHot : Bool} (hk : p.boots[k]? = some isHot) :
    (p.finish k isHot).Sized ∧
      p.countByState .hot + (if isHot then 1 else 0) + (p.finish k isHot).inflightHot ≤
        p.cfg.maxHot ∧
      p.countByState .paused + (if isHot then 0 else 1) + (p.finish k isHot).inflightPaused ≤
        p.cfg.maxPaused := by
  obtain ⟨hhotBoots, hpausedBoots, hparallel, hhot, hpaused⟩ := h
  have hcount (b : Bool) := (cons_eraseIdx_perm hk).count_eq b
  have htrue := hcount true
  have hfalse := hcount false
  rw [count_cons] at htrue hfalse
  refine ⟨⟨?_, ?_, ?_, ?_, ?_⟩, ?_, ?_⟩
  all_goals grind [Pool.finish]

theorem Sized.of_retires (h : p.Sized) (hret : Store.Retires p.toStore p'.toStore)
    (hsame : (p'.cfg, p'.inflightHot, p'.inflightPaused, p'.boots) =
      (p.cfg, p.inflightHot, p.inflightPaused, p.boots)) : p'.Sized := by
  have hhot := hret.countByState_le (.inl rfl)
  have hpaused := hret.countByState_le (.inr rfl)
  obtain ⟨hhotBoots, hpausedBoots, hparallel, hmaxHot, hmaxPaused⟩ := h
  refine ⟨?_, ?_, ?_, ?_, ?_⟩
  all_goals grind

theorem Sized.step (h : p.Sized) (ha : a.isAddPaused = false) (hstep : p.step a = some p') :
    p'.Sized := by
  have hstore := store_of_step hstep
  cases a with
  | addPaused id => cases ha
  | reconcile now remain => exact Option.some.inj hstep ▸ h.reconcile now remain
  | bootFail k canceled now =>
    obtain ⟨isHot, hk, rfl⟩ := Option.map_eq_some_iff.mp hstep
    rw [bootFail]
    split
    · exact (h.finish hk).1
    · exact { (h.finish hk).1 with }
  | bootOk k id =>
    obtain ⟨isHot, hk, rfl⟩ := Option.map_eq_some_iff.mp hstep
    obtain ⟨hsized, hhot, hpaused⟩ := h.finish hk
    rw [bootOk]
    split
    · exact { hsized with }
    have hhotCount := p.countByState_insert_le .hot id (if isHot then .hot else .paused) p.results
    have hpausedCount :=
      p.countByState_insert_le .paused id (if isHot then .hot else .paused) p.results
    refine ⟨hsized.hotBoots, hsized.pausedBoots, hsized.parallel, ?_, ?_⟩
    · refine le_trans (Int.add_le_add_right (Int.ofNat_le.mpr hhotCount) _) ?_
      change _ ≤ p.cfg.maxHot
      cases isHot <;> simpa using hhot
    · refine le_trans (Int.add_le_add_right (Int.ofNat_le.mpr hpausedCount) _) ?_
      change _ ≤ p.cfg.maxPaused
      cases isHot <;> simpa using hpaused
  | start | stop | call | acquire | capture | wake | giveUp | resumed | release | reap | drain =>
    exact h.of_retires (hstore.resolve_right (by simp [PoolAction.newId])) (boots_of_step hstep rfl)

theorem Sized.newPool {cfg : Config} (hcfg : cfg.Valid) (hmaxHot : 0 ≤ cfg.maxHot) :
    (newPool cfg).Sized := by
  have hmax : cfg.defaultsApplied.maxHot = cfg.maxHot := by
    grind [Config.defaultsApplied]
  refine ⟨rfl, rfl, hcfg.parallelism.le, ?_, hcfg.minPaused.trans hcfg.maxPaused⟩
  exact hmax.symm ▸ hmaxHot

/-- **A pool that only its refiller fills keeps to its limits**, if `MaxHot` is not negative. -/
theorem limited_of_maxHot_nonneg {cfg : Config} {as : List PoolAction} (hcfg : cfg.Valid)
    (hmaxHot : 0 ≤ cfg.maxHot)
    (h : Run step (fun _ a ↦ a.isAddPaused = false) (newPool cfg) as p) : p.Limited := by
  refine ⟨h.invariant (fun _ _ _ hp ↦ hp.step) (.newPool hcfg hmaxHot), ?_⟩
  intro now remain t ht hlt
  rw [reconcile, if_pos (.inr ⟨t, ht, hlt⟩)]

end Pool

theorem smallConfig_valid (maxHot : ℤ) : (smallConfig maxHot).Valid := by
  constructor <;> simp [smallConfig, Config.defaultsApplied]

theorem limited_bootBoth :
    ∃ p, Run Pool.step (fun _ a ↦ a.isAddPaused = false) (.newPool (smallConfig 2))
      (bootBoth "a" "b") p ∧ p.Limited ∧ p.countByState .hot = 1 := by
  exact Run.exists_of_exec _ (by decide +kernel) fun p hrun hp ↦
    ⟨Pool.limited_of_maxHot_nonneg (smallConfig_valid 2) (by decide) hrun, hp⟩

/-- **A negative number of boots** is launched. -/
theorem not_limited_negative : (smallConfig (-1)).Valid ∧
    ∃ p, Run Pool.step (fun _ a ↦ a.isAddPaused = false) (.newPool (smallConfig (-1)))
      [.start, .reconcile 0 none] p ∧ ¬ p.Limited := by
  refine ⟨smallConfig_valid _, ?_⟩
  refine Run.exists_of_exec (·.inflightHot = -1) (by decide +kernel) fun p hrun hp h ↦ ?_
  have hboots := h.1.hotBoots
  omega

end Gocracker.Sandboxes
