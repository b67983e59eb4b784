import Gocracker.Sandboxes.Pool

/-!
# Who has the VMs of a pool

A VM belongs to one entry until it is handed to someone who closes it: for each VM, the entries that
have it and those who close it are one together, and no operation changes this number. `Acquire`
does, if `Resume` or `SetNetwork` fails: the entry is stopped and keeps its VM, which nobody closes.
-/

namespace Gocracker.Sandboxes

open Transition List Option Function

/-! ## What should hold -/

def Caller.lease : Caller → Option String
  | resuming id | holding id => some id
  | _ => none

namespace Store

variable (s : Store)

/-- How many entries that are in service have a VM. -/
def owners (r : ℕ) : ℕ :=
  (range s.made).countP fun i ↦
    s.Filed i ∧ (s.entry i).state ≠ .stopped ∧ (s.entry i).result = some r

/-- How many entries have a VM. -/
def holders (r : ℕ) : ℕ := (range s.made).countP fun i ↦ (s.entry i).result = some r

end Store

/-- `Resume` and `SetNetwork` do not fail. -/
def PoolAction.resumes : PoolAction → Bool
  | resumed _ ok => ok
  | _ => true

namespace Pool

def lease (p : Pool) (c : ℕ) : Option String := p.callers[c]?.bind Caller.lease

/-- **Every VM has one owner, or was handed to one closer**, and no two callers have a lease. -/
structure Owned (p : Pool) : Prop where
  once : ∀ r < p.results, p.owners r + p.closers.count r = 1
  leases : ∀ c c' id, p.lease c = some id → p.lease c' = some id → c = c'

/-- What is not closed is leased. -/
def Drained (p : Pool) : Prop := ∀ r < p.results, r ∉ p.closers →
  ∃ i, p.Filed i ∧ (p.entry i).state = .leased ∧ (p.entry i).result = some r

/-- **What a pass of the reaper should do**, if the VMs of the entries in `dead` have stopped: those
that were available are so no longer and their VMs are closed once, and entries that were stopped
are no longer in the map. -/
structure Reaped (p : Pool) (dead : List ℕ) (p' : Pool) : Prop where
  closed : ∀ i ∈ dead, i ∈ p.availableHot ∨ i ∈ p.availablePaused →
    (i ∉ p'.availableHot ∧ i ∉ p'.availablePaused) ∧
      ∀ r ∈ (p.entry i).result, p'.closers.count r = 1
  removed : ∀ i < p.made, p.Filed i → (p.entry i).state = .stopped → ¬ p'.Filed i

/-- New ids are new, sandboxes come in by boots, and they can be resumed. -/
def Kept (p : Pool) (a : PoolAction) : Prop :=
  (∀ id ∈ a.newId, p.entries id = none) ∧ a.isAddPaused = false ∧ a.resumes = true
deriving Decidable

end Pool

/-! ## The entries -/

open Store

namespace Store

/-- All entries are in the map, those that are stopped have no VM, and each of the first `n` VMs is
with one entry or has been closed once. -/
structure Sound (s : Store) (closed : List ℕ) (n : ℕ) : Prop where
  indexed : s.Indexed
  filed : ∀ i < s.made, s.Filed i
  stopped : ∀ i < s.made, (s.entry i).state = .stopped ↔ (s.entry i).result = none
  vms : ∀ r, s.holders r + closed.count r = if r < n then 1 else 0

variable {s t : Store} {closed : List ℕ} {n i : ℕ} {state : State} {result : Option ℕ}

theorem countP_update {α : Type*} (f : ℕ → α) (P : α → Bool) (hi : i < n) (x : α) :
    (range n).countP (fun j ↦ P (update f i x j)) + (if P (f i) then 1 else 0) =
      (range n).countP (fun j ↦ P (f j)) + if P x then 1 else 0 := by
  have hperm := perm_cons_erase (mem_range.mpr hi)
  have hrest : ((range n).erase i).countP (fun j ↦ P (update f i x j)) =
      ((range n).erase i).countP fun j ↦ P (f j) := by
    refine countP_congr fun j hj ↦ ?_
    rw [update_of_ne (nodup_range.mem_erase_iff.mp hj).1]
  rw [hperm.countP_eq, hperm.countP_eq, countP_cons, countP_cons, update_self]
  omega

theorem count_toList (o : Option ℕ) (r : ℕ) : o.toList.count r = if o = some r then 1 else 0 := by
  cases o <;> simp [count_singleton]

/-- **An entry is taken out of service**, and `out` goes to those who close. -/
theorem Sound.retire (h : s.Sound closed n) (hi : s.Filed i)
    (hstate : state = .leased ∧ result ≠ none ∨ state = .stopped ∧ result = none) {out : List ℕ}
    (hout : (s.entry i).result.toList = out ++ result.toList) :
    (s.retire i state result).Sound (out ++ closed) n := by
  refine ⟨h.indexed.retire hi (by grind) (by grind), fun j hj ↦ ?_, fun j hj ↦ ?_, fun r ↦ ?_⟩
  all_goals rw [Store.retire, h.indexed.dequeueAvailable_eq hi] at *
  · have hfiled := h.filed j hj
    grind [Filed]
  · have hj := h.stopped j hj
    grind
  have hcount := countP_update s.entry (fun e ↦ decide (e.result = some r))
    (h.indexed.ids _ i hi).1 { s.entry i with state := state, result := result }
  have hvms := h.vms r
  have hr := congrArg (count r) hout
  rw [count_append, count_toList, count_toList] at hr
  simp only [holders, decide_eq_true_eq, count_append] at hcount hvms ⊢
  omega

theorem Sound.insert (h : s.Sound closed n) {id : String} (hid : s.entries id = none)
    (hstate : state = .hot ∨ state = .paused) :
    (s.insert id state (some n)).Sound closed (n + 1) := by
  obtain ⟨hmade, hentries, hentry⟩ := s.insert_eq id state (some n)
  have hpos : s.availablePos id = none := by
    refine eq_none_iff_forall_ne_some.mpr fun i hi ↦ ?_
    cases hid.symm.trans ((h.indexed.pos id i).mp hi).1
  have hfiled := h.filed
  have hstopped := h.stopped
  refine ⟨h.indexed.insert hpos hstate, fun j hj ↦ ?_, fun j hj ↦ ?_, fun r ↦ ?_⟩
  · rw [Filed, hentries, hentry]
    grind [Filed]
  · rw [hentry]
    grind
  have hvms := h.vms r
  have hold : (range s.made).countP (fun j ↦
      (update s.entry s.made ⟨id, state, some n⟩ j).result = some r) = s.holders r := by
    refine countP_congr fun j hj ↦ ?_
    rw [update_of_ne (mem_range.mp hj).ne]
  rw [holders, hmade, hentry, range_succ, countP_append]
  simp only [countP_singleton, update_self, some.injEq, decide_eq_true_eq]
  split_ifs at hvms ⊢ <;> omega

variable {doomed : ℕ → Bool}

theorem Sound.sweep (h : s.Sound closed n) (is : List ℕ) :
    (sweep doomed is s).1.Sound ((sweep doomed is s).2 ++ closed) n := by
  induction is generalizing s closed with
  | nil => exact h
  | cons i is ih =>
    rw [sweep]
    split_ifs with hi
    · have hret : (s.retire i .stopped none).Sound ((s.entry i).result.toList ++ closed) n :=
        h.retire hi.1 (.inr ⟨rfl, rfl⟩) (append_nil _).symm
      refine { ih hret with vms := fun r ↦ ?_ }
      have hvms := (ih hret).vms r
      simp only [count_append] at hvms ⊢
      omega
    · exact ih h

/-- Nothing comes into service again. -/
theorem Retires.frame (h : Retires s t) : t.entries = s.entries ∧ t.made = s.made ∧
    ∀ i, (t.entry i).id = (s.entry i).id ∧ ((t.entry i).state = (s.entry i).state ∨
      (t.entry i).state ≠ .hot ∧ (t.entry i).state ≠ .paused) := by
  induction h with
  | refl => exact ⟨rfl, rfl, fun _ ↦ ⟨rfl, .inl rfl⟩⟩
  | @tail t i state result _ _ hhot hpaused ih =>
    obtain ⟨hmade, hentries⟩ := t.retire_eq i state result
    refine ⟨hentries.trans ih.1, hmade.trans ih.2.1, fun j ↦ ?_⟩
    have hj := ih.2.2 j
    simp only [retire]
    grind

theorem entry_sweep (is : List ℕ) (hi : (s.entry i).state ≠ .paused) :
    (sweep doomed is s).1.entry i = s.entry i := by
  induction is generalizing s with
  | nil => rfl
  | cons j is ih =>
    rw [sweep]
    split_ifs with hj
    · have hne : i ≠ j := fun heq ↦ hi (heq ▸ hj.2.1)
      have hentry : (s.retire j .stopped none).entry i = s.entry i := update_of_ne hne _ _
      exact (ih (hentry ▸ hi)).trans hentry
    · exact ih hi

/-- An entry that is taken is stopped, and its VM is closed. -/
theorem stopped_sweep (doomed : ℕ → Bool) {is : List ℕ} (hi : i ∈ is) (hfiled : s.Filed i)
    (hpaused : (s.entry i).state = .paused) (hdoomed : doomed i = true) :
    ((sweep doomed is s).1.entry i).state = .stopped ∧
      ∀ r ∈ (s.entry i).result, r ∈ (sweep doomed is s).2 := by
  induction is generalizing s with
  | nil => cases hi
  | cons j is ih =>
    rw [sweep]
    by_cases heq : i = j
    · subst heq
      rw [if_pos ⟨hfiled, hpaused, hdoomed⟩]
      have hstate : ((s.retire i .stopped none).entry i).state = .stopped := by simp [Store.retire]
      refine ⟨?_, fun r hr ↦ mem_append_left _ (mem_toList.mpr hr)⟩
      rw [entry_sweep is (by simp [hstate]), hstate]
    have hmem := (mem_cons.mp hi).resolve_left heq
    split_ifs with hj
    · have hentry : (s.retire j .stopped none).entry i = s.entry i := update_of_ne heq _ _
      have hentries := (s.retire_eq j .stopped none).2
      obtain ⟨hstate, hclosed⟩ := ih (s := s.retire j .stopped none) hmem
        (by rw [Filed, hentry, hentries, hfiled]) (hentry ▸ hpaused)
      exact ⟨hstate, fun r hr ↦ mem_append_right _ (hclosed r (hentry ▸ hr))⟩
    · exact ih hmem hfiled hpaused

/-- The id is that of an entry that is not available. -/
def Busy (s : Store) (id : String) : Prop :=
  ∃ i, s.entries id = some i ∧ (s.entry i).state ≠ .hot ∧ (s.entry i).state ≠ .paused

theorem Indexed.state_front (h : s.Indexed) (hi : s.front = some i) :
    (s.entry i).state = .hot ∨ (s.entry i).state = .paused := by
  rcases or_eq_some_iff.mp (orElse_eq_or.symm.trans hi) with hi | ⟨-, hi⟩
  · exact .inl ((h.hot i).mp (mem_of_mem_head? hi)).2
  · exact .inr ((h.paused i).mp (mem_of_mem_head? hi)).2

end Store

/-! ## The pool -/

namespace Pool

structure Safe (p : Pool) : Prop where
  store : p.toStore.Sound p.closers p.results
  busy : ∀ c id, p.lease c = some id → p.Busy id
  leases : ∀ c c' id, p.lease c = some id → p.lease c' = some id → c = c'

variable {p p' : Pool} {a : PoolAction}

theorem Safe.store_step (h : p.Safe) (hok : p.Kept a) (hstep : p.step a = some p') :
    p'.toStore.Sound p'.closers p'.results := by
  have hs := h.store
  revert hstep
  fun_cases Pool.step p a with try rintro ⟨⟩
  | case4 now remain =>
    rw [reconcile]
    split <;> exact hs
  | case5 k id =>
    intro hstep
    obtain ⟨isHot, -, rfl⟩ := map_eq_some_iff.mp hstep
    rw [bootOk]
    split
    · refine { hs with vms := fun r ↦ ?_ }
      have hvms := hs.vms r
      change p.holders r + count r (p.results :: p.closers) = if r < p.results + 1 then 1 else 0
      rw [count_cons]
      simp only [beq_iff_eq]
      split_ifs at hvms ⊢ <;> omega
    · exact hs.insert (hok.1 id rfl) (by cases isHot <;> simp)
  | case6 k canceled now =>
    intro hstep
    obtain ⟨isHot, -, rfl⟩ := map_eq_some_iff.mp hstep
    rw [bootFail]
    split <;> exact hs
  | case7 => cases hok.2.1
  | case10 c _ i s hacquire =>
    obtain ⟨j, hj, heq⟩ := map_eq_some_iff.mp hacquire
    obtain ⟨rfl, rfl⟩ := Prod.mk.inj heq
    obtain ⟨hfiled, -⟩ := hs.indexed.front hj
    have hstate := hs.indexed.state_front hj
    have hstopped := hs.stopped j (hs.indexed.ids _ j hfiled).1
    have hsome : (p.entry j).result ≠ none := by grind
    exact hs.retire hfiled (.inl ⟨rfl, hsome⟩) (nil_append _).symm
  | case21 c ok id hc hfalse => exact absurd hok.2.2 hfalse
  | case24 id r s hrelease =>
    obtain ⟨i, hi, -, rfl, rfl⟩ := release_eq_some hrelease
    refine hs.retire ?_ (.inr ⟨rfl, rfl⟩) (append_nil _).symm
    rw [Store.Filed, (hs.indexed.ids id i hi).2, hi]
  | case25 dead | case26 => exact hs.sweep _
  | _ => all_goals exact hs

theorem Safe.lease_of_step (h : p.Safe) (hstep : p.step a = some p') {c : ℕ} {id : String}
    (hc : p'.lease c = some id) : p.lease c = some id ∨
      p'.Busy id ∧ a = .acquire c ∧ ∃ i, p.front = some i ∧ (p.entry i).id = id := by
  revert hstep
  fun_cases Pool.step p a with
  | case10 c' hc' i s hacquire =>
    rintro ⟨⟩
    have hentries := (Store.Retires.of_acquire hacquire).frame.1
    obtain ⟨j, hj, heq⟩ := map_eq_some_iff.mp hacquire
    obtain ⟨rfl, rfl⟩ := Prod.mk.inj heq
    have hfiled := (h.store.indexed.front hj).1
    by_cases hne : c = c'
    · have hid : (p.entry j).id = id := by grind [lease, setCaller, Caller.lease]
      refine .inr ⟨⟨j, ?_, ?_⟩, hne ▸ rfl, j, hj, hid⟩
      · exact (congrFun hentries id).trans (hid ▸ hfiled)
      · simp [setCaller, retire]
    · left
      grind [lease, setCaller]
  | _ =>
    intro hstep
    all_goals grind [lease, setCaller, Caller.lease, reconcile, launch, bootOk, bootFail, finish,
      sweepAll]

theorem Safe.step (h : p.Safe) (hok : p.Kept a) (hstep : p.step a = some p') : p'.Safe := by
  have hbusy (c : ℕ) (id : String) (hc : p.lease c = some id) : p'.Busy id := by
    obtain ⟨i, hi, hstate⟩ := h.busy c id hc
    rcases store_of_step hstep with hret | ⟨id', state, result, -, heq, ha⟩
    · obtain ⟨hentries, -, hframe⟩ := hret.frame
      exact ⟨i, hentries ▸ hi, by grind⟩
    obtain ⟨-, hentries, hentry⟩ := p.insert_eq id' state result
    have hfresh := hok.1 id' ha
    have hlt := (h.store.indexed.ids id i hi).1
    refine ⟨i, ?_, ?_⟩
    · rw [heq, hentries]
      grind
    · rw [heq, hentry, update_of_ne hlt.ne]
      exact hstate
  -- what is available is nobody's
  have hnew {c : ℕ} {id : String} (hc : p.lease c = some id) :
      ¬ ∃ i, p.front = some i ∧ (p.entry i).id = id := by
    rintro ⟨i, hi, rfl⟩
    obtain ⟨j, hj, hstate⟩ := h.busy c _ hc
    obtain rfl : j = i := mem_unique hj (h.store.indexed.front hi).1
    have := h.store.indexed.state_front hi
    grind
  refine ⟨h.store_step hok hstep, fun c id hc ↦ ?_, fun c c' id hc hc' ↦ ?_⟩
  · exact (h.lease_of_step hstep hc).elim (hbusy c id) (·.1)
  rcases h.lease_of_step hstep hc with hold | ⟨-, ha, hfront⟩
  · rcases h.lease_of_step hstep hc' with hold' | ⟨-, -, hfront⟩
    · exact h.leases c c' id hold hold'
    · exact absurd hfront (hnew hold)
  · rcases h.lease_of_step hstep hc' with hold' | ⟨-, ha', -⟩
    · exact absurd hfront (hnew hold')
    · exact PoolAction.acquire.inj (ha.symm.trans ha')

theorem Safe.owned (h : p.Safe) : p.Owned := by
  refine ⟨fun r hr ↦ ?_, h.leases⟩
  have howners : p.owners r = p.holders r := by
    refine countP_congr fun i hi ↦ ?_
    have hfiled := h.store.filed i (mem_range.mp hi)
    have hstopped := h.store.stopped i (mem_range.mp hi)
    grind
  rw [howners, h.store.vms, if_pos hr]

/-- **After `DrainPaused`** nothing is available. -/
theorem Safe.drained (h : p.Safe) (hhot : ∀ i < p.made, (p.entry i).state ≠ .hot)
    (hstep : p.step .drain = some p') : p'.Drained := by
  intro r hr hclosed
  have hs := h.store_step ⟨by simp [PoolAction.newId], rfl, rfl⟩ hstep
  have hret : Store.Retires p.toStore p'.toStore :=
    (store_of_step hstep).resolve_right fun ⟨_, _, _, _, _, ha⟩ ↦ nomatch ha
  obtain ⟨-, hmade, hframe⟩ := hret.frame
  have hvms := hs.vms r
  rw [count_eq_zero.mpr hclosed, if_pos hr] at hvms
  obtain ⟨i, hi, hresult⟩ := countP_pos_iff.mp (Nat.lt_of_sub_eq_succ hvms)
  have hlt := mem_range.mp hi
  have hstopped := hs.stopped i hlt
  have hpaused : (p'.entry i).state ≠ .paused := by
    obtain ⟨⟩ := hstep
    intro hpaused
    have hi'' : (p.entry i).state = .paused := by grind
    have hsome : (p.entry i).result ≠ none := by
      rw [Ne, ← h.store.stopped i (hmade ▸ hlt), hi'']
      nofun
    have hstate := (stopped_sweep (fun i ↦ (p.entry i).result.isSome) (hmade ▸ hi)
      (h.store.filed i (hmade ▸ hlt)) hi'' (isSome_iff_ne_none.mpr hsome)).1
    nomatch hstate.symm.trans hpaused
  refine ⟨i, hs.filed i hlt, ?_, of_decide_eq_true hresult⟩
  cases hcase : (p'.entry i).state <;> grind

section Runs

variable {cfg : Config} {as : List PoolAction} (h : Run step Kept (newPool cfg) as p)
include h

theorem safe_of_kept : p.Safe := by
  refine h.invariant (fun _ _ _ hp ↦ hp.step) ⟨⟨indexed_empty, nofun, nofun, ?_⟩, ?_, ?_⟩
  · exact fun r ↦ rfl
  all_goals simp [lease, newPool]

/-- **Every VM has one owner or one closer**, and is closed or leased after `DrainPaused`. -/
theorem owned_of_kept :
    p.Owned ∧ ((∀ i < p.made, (p.entry i).state ≠ .hot) →
      ∀ q, p.step .drain = some q → q.Drained) :=
  ⟨(safe_of_kept h).owned, fun hhot _ ↦ (safe_of_kept h).drained hhot⟩

/-- **What a pass of the reaper does.** It takes paused entries only and leaves all in the map, so
it does what it should if no entry was stopped and no hot one has lost its VM. -/
theorem reaped_iff {dead : List ℕ} (hstep : p.step (.reap dead) = some p') :
    p.Reaped dead p' ↔ ∀ i < p.made, (p.entry i).state ≠ .stopped ∧
      (i ∈ dead → (p.entry i).state ≠ .hot) := by
  have hp := safe_of_kept h
  have hs := hp.store_step ⟨by simp [PoolAction.newId], rfl, rfl⟩ hstep
  have hret : Store.Retires p.toStore p'.toStore :=
    (store_of_step hstep).resolve_right (by simp [PoolAction.newId])
  obtain ⟨⟩ := hstep
  obtain ⟨hentries, -, hframe⟩ := hret.frame
  constructor
  · refine fun hreaped i hi ↦ ⟨fun hstate ↦ ?_, fun hdead hstate ↦ ?_⟩
    · refine hreaped.removed i hi (hp.store.filed i hi) hstate ?_
      rw [Filed, hentries, (hframe i).1]
      exact hp.store.filed i hi
    · have hhot := (hp.store.indexed.hot i).mpr ⟨hp.store.filed i hi, hstate⟩
      refine (hreaped.closed i hdead (.inl hhot)).1.1 ((hs.indexed.hot i).mpr ⟨?_, ?_⟩)
      · rw [Filed, hentries, (hframe i).1]
        exact hp.store.filed i hi
      · rw [← hstate]
        exact congrArg Entry.state (entry_sweep _ (by simp [hstate]))
  · refine fun hquiet ↦ ⟨fun i hdead hi ↦ ?_, fun i hi _ hstate ↦ absurd hstate (hquiet i hi).1⟩
    have hlt := hp.store.indexed.lt_made hi
    obtain ⟨hfiled, hpaused⟩ : p.Filed i ∧ (p.entry i).state = .paused := by
      have hhot := hp.store.indexed.hot i
      have hpaused := hp.store.indexed.paused i
      grind
    obtain ⟨hstate, hclosed⟩ := stopped_sweep (fun i ↦ i ∈ dead) (mem_range.mpr hlt) hfiled hpaused
      (decide_eq_true hdead)
    refine ⟨⟨fun hmem ↦ ?_, fun hmem ↦ ?_⟩, fun r hr ↦ ?_⟩
    · cases hstate.symm.trans ((hs.indexed.hot i).mp hmem).2
    · cases hstate.symm.trans ((hs.indexed.paused i).mp hmem).2
    · have hvms := hs.vms r
      have hpos := count_pos_iff.mpr (mem_append_left p.closers (hclosed r hr))
      change 0 < count r (p.sweepAll fun i ↦ decide (i ∈ dead)).closers at hpos
      split_ifs at hvms <;> omega

end Runs

end Pool

/-- Two sandboxes, one of which is leased. -/
def leaseOne (resumes : Bool) : List PoolAction :=
  [.start, .reconcile 0 none, .bootOk 0 "a", .bootOk 0 "b", .call, .acquire 0, .resumed 0 resumes,
    .stop, .drain]

theorem owned_leaseOne : ∃ p, Run Pool.step Pool.Kept (.newPool (smallConfig 0)) (leaseOne true) p ∧
      p.Owned ∧ p.callers = [.holding "a"] ∧ p.closers = [1] := by
  exact Run.exists_of_exec _ (by decide +kernel)
    fun p hrun hp ↦ ⟨(Pool.owned_of_kept hrun).1, hp⟩

/-- **A VM is lost** if it cannot be resumed. -/
theorem not_owned_leaseOne :
    ∃ p, Run Pool.step anyStep (.newPool (smallConfig 0)) (leaseOne false) p ∧ ¬ p.Owned := by
  refine Run.exists_of_exec (fun p ↦ p.results = 2 ∧ p.owners 0 = 0 ∧ p.closers = [1])
    (by decide +kernel) fun p hrun hp h ↦ ?_
  have honce := h.once 0
  grind

/-- The VM of the paused sandbox has stopped. -/
theorem reaped_bootBoth :
    ∃ p, Run Pool.step Pool.Kept (.newPool (smallConfig 2)) (bootBoth "a" "b") p ∧
    ∃ p', p.step (.reap [1]) = some p' ∧ p.Reaped [1] p' := by
  refine Run.exists_of_exec (fun p ↦ ∀ i < p.made, (p.entry i).state ≠ .stopped ∧
    (i ∈ [1] → (p.entry i).state ≠ .hot)) (by decide +kernel) fun p hrun hp ↦ ?_
  exact ⟨_, rfl, (Pool.reaped_iff hrun rfl).mpr hp⟩

/-- **The VM of a hot sandbox has stopped**, and `Acquire` still takes it. -/
theorem not_reaped_bootBoth :
    ∃ p, Run Pool.step Pool.Kept (.newPool (smallConfig 2)) (bootBoth "a" "b") p ∧
      ∃ p', p.step (.reap [0]) = some p' ∧ p'.front = some 0 ∧ ¬ p.Reaped [0] p' := by
  refine Run.exists_of_exec (fun p ↦ p.availableHot = [0] ∧
    (p.sweepAll (· ∈ [0])).availableHot = [0]) (by decide +kernel) fun p hrun ⟨hp, hp'⟩ ↦ ?_
  refine ⟨_, rfl, ?_, fun hreaped ↦ ?_⟩
  · rw [Store.front, hp']
    rfl
  · refine (hreaped.closed 0 (by decide) (.inl (by rw [hp]; decide))).1.1 ?_
    rw [hp']
    decide

end Gocracker.Sandboxes
