import Gocracker.Sandboxes.Sizing

/-!
# The budget of all pools

A pass reads how many slots of the budget are left, and takes some in a later critical section of
the budget. It keeps the lock of its own pool; but another pool may read what is left in between,
and then both take it.
-/

namespace Gocracker.Sandboxes

open Transition List Option

/-- A pool, and what a pass that has not taken its slots has read. -/
structure Member where
  pool : Pool
  remain : Option ℤ

/-- The pools, and the slots in use. -/
structure Fleet where
  inUse : ℤ
  members : List Member

inductive FleetAction where
  | read (i : ℕ)
  | launch (i : ℕ) (now : ℤ)
  | act (i : ℕ) (a : PoolAction)

def Pool.inflight (p : Pool) : ℤ := p.inflightHot + p.inflightPaused

theorem Pool.Sized.inflight {p : Pool} (h : p.Sized) : p.inflight = p.boots.length := by
  rw [Pool.inflight, h.hotBoots, h.pausedBoots]
  exact_mod_cast count_true_add_count_false p.boots

namespace Fleet

def newFleet (cfgs : List Config) : Fleet := ⟨0, cfgs.map fun cfg ↦ ⟨.newPool cfg, none⟩⟩

variable (capacity : ℤ) (f : Fleet)

def remaining : ℤ :=
  if capacity ≤ 0 then 2 ^ 30 else max (capacity - f.inUse) 0

/-- A pool does nothing else during a pass, since the pass has its lock. -/
def step : FleetAction → Option Fleet
  | .read i =>
    match f.members[i]? with
    | some ⟨p, none⟩ => some { f with members := f.members.set i ⟨p, some (f.remaining capacity)⟩ }
    | _ => none
  | .launch i now =>
    match f.members[i]? with
    | some ⟨p, some r⟩ =>
      let p' := p.reconcile now (some r)
      some ⟨f.inUse + (p'.inflight - p.inflight), f.members.set i ⟨p', none⟩⟩
    | _ => none
  | .act _ (.reconcile ..) => none
  | .act i a =>
    match f.members[i]? with
    | some ⟨p, none⟩ => (p.step a).map fun p' ↦
      ⟨if a.isRefill then max (f.inUse - 1) 0 else f.inUse, f.members.set i ⟨p', none⟩⟩
    | _ => none

def running (f : Fleet) : ℕ := (f.members.map fun m ↦ m.pool.boots.length).sum

def Capped : Prop :=
  f.inUse ≤ capacity ∧ f.running ≤ capacity ∧ (f.running = 0 → f.inUse = 0)

/-- No pass reads what is left while another one is about to take some of it. -/
def Apart (f : Fleet) : FleetAction → Prop
  | .read _ => ∀ m ∈ f.members, m.remain = none
  | .launch .. => True
  | .act _ a => a.isAddPaused = false

instance (f : Fleet) : ∀ a, Decidable (f.Apart a)
  | .read _ => inferInstanceAs (Decidable (∀ m ∈ f.members, _))
  | .launch .. => .isTrue trivial
  | .act _ a => inferInstanceAs (Decidable (a.isAddPaused = false))

/-- The slots that are in use or about to be taken are within the capacity. -/
structure Sound (capacity : ℤ) (f : Fleet) : Prop where
  pools : ∀ m ∈ f.members, m.pool.Sized ∧ ∀ r ∈ m.remain, 0 ≤ r
  slots : f.inUse = f.running
  reserved : f.inUse + (f.members.map fun m ↦ m.remain.getD 0).sum ≤ capacity

variable {capacity : ℤ} {f f' : Fleet} {i : ℕ} {m m' : Member} {p p' : Pool} {a : PoolAction}

theorem sum_map_set {M : Type*} [AddCommMonoid M] (hi : f.members[i]? = some m) (m' : Member)
    (g : Member → M) : ((f.members.set i m').map g).sum + g m = (f.members.map g).sum + g m' := by
  have hlt := (List.getElem?_eq_some_iff.mp hi).1
  rw [((set_perm_cons_eraseIdx hlt m').map g).sum_eq, ← ((cons_eraseIdx_perm hi).map g).sum_eq,
    map_cons, map_cons, sum_cons, sum_cons]
  ac_rfl

/-- Pool `i` has made a step, and `u` slots are in use. -/
theorem Sound.set (h : f.Sound capacity) (hi : f.members[i]? = some m) {u : ℤ}
    (hm : m'.pool.Sized ∧ ∀ r ∈ m'.remain, 0 ≤ r)
    (hslots : u + m.pool.boots.length = f.inUse + m'.pool.boots.length)
    (hreserved : u + (f.members.map fun m ↦ m.remain.getD 0).sum + m'.remain.getD 0 ≤
      capacity + m.remain.getD 0) : Sound capacity ⟨u, f.members.set i m'⟩ where
  pools := forall_mem_set h.pools hm
  slots := by
    have hsum := sum_map_set hi m' fun m ↦ m.pool.boots.length
    have hold := h.slots
    simp only [running] at hold ⊢
    omega
  reserved := by
    have hsum := sum_map_set hi m' fun m ↦ m.remain.getD 0
    simp only at hsum ⊢
    omega

/-- A pass takes no more than it has found. -/
theorem inflight_reconcile_le (h : p.Sized) (now : ℤ) {r : ℤ} (hr : 0 ≤ r) :
    (p.reconcile now (some r)).inflight ≤ p.inflight + r := by
  rw [Pool.reconcile]
  split
  · omega
  rcases hn : p.plan (some r) with ⟨n, k⟩
  obtain ⟨-, -, -, -, -, hle⟩ := h.plan_eq hn
  have hle := hle r rfl hr
  change p.inflightHot + n + (p.inflightPaused + k) ≤ p.inflightHot + p.inflightPaused + r
  omega

/-- A boot comes back, or nothing happens to the boots. -/
theorem length_boots_of_step (hstep : p.step a = some p')
    (ha : ∀ now remain, a ≠ .reconcile now remain) :
    p'.boots.length + (if a.isRefill then 1 else 0) = p.boots.length := by
  cases a with
  | reconcile => exact absurd rfl (ha _ _)
  | bootOk k id | bootFail k canceled now =>
    obtain ⟨isHot, hk, rfl⟩ := map_eq_some_iff.mp hstep
    have hlt := (List.getElem?_eq_some_iff.mp hk).1
    have hlength : (p.finish k isHot).boots.length + 1 = p.boots.length := by
      rw [Pool.finish, length_eraseIdx_of_lt hlt]
      omega
    simp only [Pool.bootOk, Pool.bootFail]
    split <;> exact hlength
  | _ => exact congrArg (fun x ↦ x.2.2.2.length) (Pool.boots_of_step hstep rfl)

theorem Sound.step {e : FleetAction} (h : f.Sound capacity) (hc : 0 < capacity) (hok : f.Apart e)
    (hstep : f.step capacity e = some f') : f'.Sound capacity := by
  have hreserved := h.reserved
  revert hstep
  fun_cases Fleet.step capacity f e with try rintro ⟨⟩
  | case1 i p hi =>
    have hnone : (f.members.map fun m ↦ m.remain.getD 0).sum = 0 := by
      refine List.sum_eq_zero (forall_mem_map.mpr fun m hm ↦ ?_)
      rw [hok m hm]
      rfl
    have hremaining : f.remaining capacity = capacity - f.inUse := by
      rw [remaining]
      omega
    refine h.set hi ⟨(h.pools _ (mem_of_getElem? hi)).1, ?_⟩ rfl ?_
    · rintro _ ⟨⟩
      omega
    · simp only [getD_some, getD_none]
      omega
  | case3 i now p r hi p' =>
    obtain ⟨hp, hr⟩ : p.Sized ∧ _ := h.pools _ (mem_of_getElem? hi)
    have hp' : p'.Sized := hp.reconcile now (some r)
    have hle : p'.inflight ≤ p.inflight + r := inflight_reconcile_le hp now (hr r rfl)
    refine h.set hi ⟨hp', nofun⟩ ?_ ?_
    · change f.inUse + (p'.inflight - p.inflight) + p.boots.length = f.inUse + p'.boots.length
      rw [hp.inflight, hp'.inflight]
      omega
    · simp only [getD_some, getD_none]
      omega
  | case6 i a hreconcile p hi =>
    intro hstep
    obtain ⟨p', hact, rfl⟩ := map_eq_some_iff.mp hstep
    have hp : p.Sized := (h.pools _ (mem_of_getElem? hi)).1
    have hlength := length_boots_of_step hact hreconcile
    have hsum := sum_map_set hi ⟨p', none⟩ fun m ↦ m.pool.boots.length
    have hslots := h.slots
    simp only [running] at hsum hslots
    refine h.set hi ⟨hp.step hok hact, nofun⟩ ?_ ?_
    · dsimp only
      split_ifs at hlength ⊢ <;> omega
    · dsimp only
      split_ifs <;> omega

variable {cfgs : List Config}

theorem sound_newFleet (hc : 0 < capacity)
    (hcfgs : ∀ cfg ∈ cfgs, cfg.Valid ∧ 0 ≤ cfg.maxHot) : (newFleet cfgs).Sound capacity where
  pools := forall_mem_map.mpr fun cfg hcfg ↦ ⟨.newPool (hcfgs cfg hcfg).1 (hcfgs cfg hcfg).2, nofun⟩
  slots := by simp [newFleet, running, Function.comp_def, Pool.newPool]
  reserved := by simp [newFleet, Function.comp_def, hc.le]

/-- **The budget is a hard cap**, if what a pass has read is still true when it takes its slots. -/
theorem capped_of_apart (hc : 0 < capacity)
    (hcfgs : ∀ cfg ∈ cfgs, cfg.Valid ∧ 0 ≤ cfg.maxHot) {as : List FleetAction}
    (h : Run (step capacity) Apart (newFleet cfgs) as f) : f.Capped capacity := by
  obtain ⟨hpools, hslots, hreserved⟩ : f.Sound capacity :=
    h.invariant (fun _ _ _ hf ↦ hf.step hc) (sound_newFleet hc hcfgs)
  have hnonneg : 0 ≤ (f.members.map fun m ↦ m.remain.getD 0).sum := by
    refine List.sum_nonneg (forall_mem_map.mpr fun m hm ↦ ?_)
    cases hr : m.remain with
    | none => exact le_rfl
    | some r => exact (hpools m hm).2 r hr
  rw [Capped]
  omega

end Fleet

def twoPasses (apart : Bool) : List FleetAction :=
  [.act 0 .start, .act 1 .start] ++
    if apart then [.read 0, .launch 0 0, .act 0 (.bootOk 0 "a"), .read 1, .launch 1 0]
    else [.read 0, .read 1, .launch 0 0, .launch 1 0]

theorem capped_twoPasses :
    ∃ f, Run (Fleet.step 1) Fleet.Apart (.newFleet [smallConfig 2, smallConfig 2])
      (twoPasses true) f ∧ f.Capped 1 ∧ f.inUse = 1 := by
  refine Run.exists_of_exec (·.inUse = 1) (by decide +kernel) fun f hrun hf ↦ ?_
  refine ⟨Fleet.capped_of_apart one_pos ?_ hrun, hf⟩
  simpa using ⟨smallConfig_valid 2, show (0 : ℤ) ≤ 2 by decide⟩

/-- **Two slots of a budget of one** are in use. -/
theorem not_capped_twoPasses :
    ∃ f, Run (Fleet.step 1) anyStep (.newFleet [smallConfig 2, smallConfig 2])
      (twoPasses false) f ∧ ¬ f.Capped 1 := by
  refine Run.exists_of_exec (·.inUse = 2) (by decide +kernel) fun f hrun hf h ↦ ?_
  have := h.1
  omega

end Gocracker.Sandboxes
