import Gocracker.Transition.Custody
import Gocracker.Transition.Run

/-!
# The pool of warm workers

A worker is a VM that was restored from a snapshot and waits to be handed out. The pool keeps some
for each key. `Acquire` hands one out and has it replaced, `EnsureRefill` fills up to a target, and
`Prune` and `Close` evict keys together with their workers.

## What may come between

A worker is spawned without the lock. `inflightRefills` counts the calls of the spawner that run for
a key, and a call that returns looks for its key again, by name. If the key was evicted meanwhile,
the worker is closed. But if the key was evicted and then created again, the call is taken for one
that the new state has counted, and `inflightRefills` becomes too small, or negative.

What does not depend on this is that no worker is lost, and that there are never too many: the calls
that were not counted can only lower the count.
-/

namespace Gocracker.Warmpool

open Transition List Option AList

/-! ## The state -/

/-- Workers are numbered in the order in which the spawner returns them. The zero time is `0`. -/
structure KeyState where
  snapshotDir : String
  workers : List ℕ := []
  lastUse : ℤ := 0
  inflightRefills : ℤ := 0
  deriving DecidableEq

structure Spawn where
  key : String
  dir : String
  deriving DecidableEq

/-- The pool, with the goroutines it has started and with what became of the workers. -/
structure Pool where
  pools : AList fun _ : String ↦ KeyState
  /-- The calls of `refillOne` that have not come to the lock. -/
  refills : List String
  /-- The calls of `spawnOne` that have not come to the lock. -/
  spawns : List Spawn
  /-- The key for which each worker was spawned. -/
  born : List String
  handedOut : List ℕ
  /-- Taken out by `Prune` or `Close`, which is going to close them. -/
  closing : List ℕ
  closed : List ℕ

inductive Event where
  | acquire (key dir : String) (now : ℤ)
  | ensureRefill (key dir : String)
  | refillOne (i : ℕ)
  /-- A call of the spawner returns, with a worker or without. -/
  | spawnOne (i : ℕ) (succeeds : Bool)
  | prune (maxAge now : ℤ)
  | close
  | closeWorker (i : ℕ)
  deriving DecidableEq

/-! ## Steps -/

/-- The directory is stored when it is given for the first time. -/
def KeyState.remember (st : KeyState) (dir : String) : KeyState :=
  if dir ≠ "" ∧ st.snapshotDir = "" then { st with snapshotDir := dir } else st

/-- A call of the spawner has come back. -/
def KeyState.reported (st : KeyState) : KeyState :=
  { st with inflightRefills := st.inflightRefills - 1 }

/-- A key without an `Acquire` is treated as stale. -/
def KeyState.stale (st : KeyState) (cutoff : ℤ) : Bool :=
  (if st.lastUse = 0 then cutoff - 1000000000 else st.lastUse) < cutoff

open KeyState

namespace Pool

def init : Pool where
  pools := ∅
  refills := []
  spawns := []
  born := []
  handedOut := []
  closing := []
  closed := []

variable (s : Pool)

def put (key : String) (st : KeyState) : Pool :=
  { s with pools := s.pools.insert key st }

def acquire (key dir : String) (now : ℤ) : Pool :=
  match s.pools.lookup key with
  | none => if dir = "" then s else s.put key { snapshotDir := dir }
  | some st =>
    match st.workers.getLast? with
    | none => if dir = "" then s else s.put key (st.remember dir)
    | some w =>
      { s.put key { st.remember dir with workers := st.workers.dropLast, lastUse := now } with
        handedOut := w :: s.handedOut
        refills := key :: s.refills }

/-- The state of a key, which is created if there is none. -/
def stateFor (key dir : String) : KeyState :=
  match s.pools.lookup key with
  | none => { snapshotDir := dir }
  | some st => st.remember dir

/-- The state of the key counts more calls of the spawner, and they are started. -/
def start (key : String) (st : KeyState) (n : ℕ) : Pool :=
  { s.put key { st with inflightRefills := st.inflightRefills + n } with
    spawns := List.replicate n ⟨key, st.snapshotDir⟩ ++ s.spawns }

variable (target : ℕ) (s : Pool)

def ensureRefill (key dir : String) : Pool :=
  let st := s.stateFor key dir
  let needed : ℤ := target - st.workers.length - st.inflightRefills
  if needed ≤ 0 then s.put key st else s.start key st needed.toNat

def refillOne (key : String) : Pool :=
  match s.pools.lookup key with
  | none => s
  | some st =>
    if st.snapshotDir = "" then s
    else if (target : ℤ) ≤ st.workers.length + st.inflightRefills then s
    else s.start key st 1

/-- `spawnOne` after the spawner has returned. -/
def spawnOne (key : String) (result : Option ℕ) : Pool :=
  match s.pools.lookup key with
  | none => { s with closed := result.toList ++ s.closed }
  | some st =>
    match result with
    | none => s.put key st.reported
    | some w =>
      if target ≤ st.workers.length then { s.put key st.reported with closed := w :: s.closed }
      else s.put key { st.reported with workers := st.workers ++ [w] }

/-- A call of the spawner ends, and with a worker the worker gets the next number. -/
def finish (i : ℕ) (key : String) (succeeds : Bool) : Pool :=
  { s with
    spawns := s.spawns.eraseIdx i
    born := if succeeds then s.born ++ [key] else s.born }

/-- The number of the worker that a call of the spawner returns, if any. -/
def returned (succeeds : Bool) : Option ℕ :=
  if succeeds then some s.born.length else none

/-- The workers of some keys. -/
def workersOf (entries : List (Sigma fun _ : String ↦ KeyState)) : List ℕ :=
  entries.flatMap fun e ↦ e.2.workers

/-- The stale keys are deleted, and their workers are going to be closed. -/
def evict (stale : KeyState → Bool) : Pool :=
  { s with
    pools :=
      ⟨s.pools.entries.filter fun e ↦ !stale e.2, s.pools.nodupKeys.sublist filter_sublist⟩
    closing := workersOf (s.pools.entries.filter fun e ↦ stale e.2) ++ s.closing }

def prune (maxAge now : ℤ) : Pool :=
  if maxAge ≤ 0 then s else s.evict fun st ↦ st.stale (now - maxAge)

def close : Pool := s.evict fun _ ↦ true

def step (target : ℕ) (s : Pool) : Event → Option Pool
  | .acquire key dir now => some (s.acquire key dir now)
  | .ensureRefill key dir => some (s.ensureRefill target key dir)
  | .refillOne i =>
    (s.refills[i]?).map fun key ↦
      ({ s with refills := s.refills.eraseIdx i }).refillOne target key
  | .spawnOne i succeeds =>
    (s.spawns[i]?).map fun spawn ↦
      (s.finish i spawn.key succeeds).spawnOne target spawn.key (s.returned succeeds)
  | .prune maxAge now => some (s.prune maxAge now)
  | .close => some s.close
  | .closeWorker i =>
    (s.closing[i]?).map fun w ↦
      { s with closing := s.closing.eraseIdx i, closed := w :: s.closed }

/-! ## What is counted -/

/-- How many calls of the spawner will report to the key. -/
def running (key : String) : ℕ := s.spawns.countP fun spawn ↦ spawn.key = key

/-- The calls of the spawner are counted correctly. -/
def Counted : Prop :=
  ∀ key st, s.pools.lookup key = some st →
    st.inflightRefills = s.running key ∧ 0 ≤ st.inflightRefills

def Bounded (target : ℕ) (s : Pool) : Prop :=
  ∀ key st, s.pools.lookup key = some st →
    (st.workers.length : ℤ) + st.inflightRefills ≤ target

/-- **Every worker has one owner.** -/
structure Owned (s : Pool) : Prop where
  /-- It is pooled, handed out or closed, or about to be closed, and only once. -/
  once : (workersOf s.pools.entries + s.handedOut + s.closing + s.closed : Multiset ℕ) =
    Multiset.range s.born.length
  home : ∀ key st, s.pools.lookup key = some st → ∀ w ∈ st.workers, s.born[w]? = some key

/-- No key is created while a call of the spawner for it is running. -/
def Orderly : Event → Prop
  | .acquire key dir _ => s.pools.lookup key = none → dir ≠ "" → s.running key = 0
  | .ensureRefill key _ => s.pools.lookup key = none → s.running key = 0
  | _ => True

instance decidableOrderly (s : Pool) : ∀ e : Event, Decidable (s.Orderly e)
  | .acquire key dir _ =>
    inferInstanceAs (Decidable (s.pools.lookup key = none → dir ≠ "" → s.running key = 0))
  | .ensureRefill key _ =>
    inferInstanceAs (Decidable (s.pools.lookup key = none → s.running key = 0))
  | .refillOne _ | .spawnOne _ _ | .prune _ _ | .close | .closeWorker _ => .isTrue trivial

/-! ## What a step can do -/

def heldAt (key : String) : List ℕ := (s.pools.lookup key).elim [] workers

def inflightAt (key : String) : ℤ := (s.pools.lookup key).elim 0 inflightRefills

/-- The steps of the pool, one constructor for each way in which the workers and the calls of the
spawner can change. -/
inductive Step (target : ℕ) (s : Pool) : Event → Pool → Prop
  /-- The workers stay where they are, or one that is closed has been closed. -/
  | idle {e : Event} {s' : Pool} (hpools : s'.pools = s.pools) (hspawns : s'.spawns = s.spawns)
      (hborn : s'.born = s.born)
      (hmoved : (s'.handedOut + s'.closing + s'.closed : Multiset ℕ) =
        s.handedOut + s.closing + s.closed) : Step target s e s'
  /-- A key may be created or get a directory, and calls of the spawner are started for it. -/
  | start {e : Event} {key : String} {st : KeyState} {n : ℕ} (refills : List String)
      (hworkers : st.workers = s.heldAt key) (hinflight : st.inflightRefills = s.inflightAt key)
      (hroom : n ≠ 0 → (st.workers.length : ℤ) + st.inflightRefills + n ≤ target)
      (horderly : s.Orderly e → s.pools.lookup key = none → s.running key = 0) :
      Step target s e { s.start key st n with refills := refills }
  | take {key dir : String} {now : ℤ} {st st' : KeyState} {w : ℕ}
      (hst : s.pools.lookup key = some st) (hw : st.workers.getLast? = some w)
      (hworkers : st'.workers = st.workers.dropLast)
      (hinflight : st'.inflightRefills = st.inflightRefills) :
      Step target s (.acquire key dir now)
        { s.put key st' with handedOut := w :: s.handedOut, refills := key :: s.refills }
  | report {i : ℕ} {spawn : Spawn} {succeeds : Bool} (hi : s.spawns[i]? = some spawn) :
      Step target s (.spawnOne i succeeds) ((s.finish i spawn.key succeeds).spawnOne target
        spawn.key (s.returned succeeds))
  | evict {e : Event} (stale : KeyState → Bool) : Step target s e (s.evict stale)

variable {refills : List String} {i : ℕ}

section Inversion

variable {target : ℕ} {s s' : Pool} {e : Event} {key dir : String} {st : KeyState}

@[simp] theorem remember_workers : (st.remember dir).workers = st.workers := by
  unfold remember
  split_ifs <;> rfl

@[simp] theorem remember_inflightRefills :
    (st.remember dir).inflightRefills = st.inflightRefills := by
  unfold remember
  split_ifs <;> rfl

theorem reported_workers : st.reported.workers = st.workers := rfl

theorem reported_inflightRefills : st.reported.inflightRefills = st.inflightRefills - 1 := rfl

theorem heldAt_of_lookup (h : s.pools.lookup key = some st) : s.heldAt key = st.workers := by
  rw [heldAt, h, elim_some]

theorem inflightAt_of_lookup (h : s.pools.lookup key = some st) :
    s.inflightAt key = st.inflightRefills := by
  rw [inflightAt, h, elim_some]

theorem stateFor_workers : (s.stateFor key dir).workers = s.heldAt key := by
  unfold stateFor heldAt
  cases s.pools.lookup key with
  | none => rfl
  | some st => exact remember_workers

theorem stateFor_inflightRefills : (s.stateFor key dir).inflightRefills = s.inflightAt key := by
  unfold stateFor inflightAt
  cases s.pools.lookup key with
  | none => rfl
  | some st => exact remember_inflightRefills

theorem start_zero : s.start key st 0 = s.put key st := by
  simp [start, put]

theorem Step.refl : Step target s e s := .idle rfl rfl rfl rfl

theorem Step.put (hworkers : st.workers = s.heldAt key)
    (hinflight : st.inflightRefills = s.inflightAt key)
    (horderly : s.Orderly e → s.pools.lookup key = none → s.running key = 0) :
    Step target s e (s.put key st) := by
  rw [← start_zero]
  exact .start s.refills hworkers hinflight (fun h ↦ absurd rfl h) horderly

theorem Step.of_acquire {now : ℤ} :
    Step target s (.acquire key dir now) (s.acquire key dir now) := by
  unfold acquire
  split
  · rename_i hnone
    split_ifs with hdir
    · exact .refl
    · refine .put ?_ ?_ fun horderly _ ↦ horderly hnone hdir
      · rw [heldAt, hnone, elim_none]
      · rw [inflightAt, hnone, elim_none]
  · rename_i st hst
    split
    · split_ifs with hdir
      · exact .refl
      · refine .put ?_ ?_ fun horderly hnone ↦ horderly hnone hdir
        · rw [remember_workers, heldAt_of_lookup hst]
        · rw [remember_inflightRefills, inflightAt_of_lookup hst]
    · rename_i w hw
      exact .take hst hw rfl remember_inflightRefills

theorem Step.of_ensureRefill :
    Step target s (.ensureRefill key dir) (s.ensureRefill target key dir) := by
  unfold ensureRefill
  dsimp only
  split_ifs with hneeded
  · exact .put stateFor_workers stateFor_inflightRefills fun horderly ↦ horderly
  · refine .start s.refills stateFor_workers stateFor_inflightRefills (fun _ ↦ ?_)
      fun horderly ↦ horderly
    omega

theorem Step.of_refillOne :
    Step target s e (({ s with refills := refills }).refillOne target key) := by
  unfold refillOne
  split
  · exact .idle rfl rfl rfl rfl
  rename_i st hst
  split_ifs with hdir hroom
  · exact .idle rfl rfl rfl rfl
  · exact .idle rfl rfl rfl rfl
  · refine .start refills (heldAt_of_lookup hst).symm (inflightAt_of_lookup hst).symm
      (fun _ ↦ by omega) fun _ hnone ↦ ?_
    nomatch hnone.symm.trans hst

theorem Step.of_closeWorker {w : ℕ} (hi : s.closing[i]? = some w) :
    Step target s e { s with closing := s.closing.eraseIdx i, closed := w :: s.closed } := by
  refine .idle rfl rfl rfl ?_
  have hperm : (s.closing : Multiset ℕ) = w ::ₘ (s.closing.eraseIdx i : Multiset ℕ) :=
    (Multiset.coe_eq_coe.mpr (cons_eraseIdx_perm hi)).symm
  rw [hperm, ← Multiset.cons_coe, ← Multiset.singleton_add, ← Multiset.singleton_add]
  abel

/-- **Every step of the pool is one of these.** -/
theorem Step.of_step (h : s.step target e = some s') : Step target s e s' := by
  cases e with
  | acquire key dir now =>
    obtain ⟨⟩ := h
    exact .of_acquire
  | ensureRefill key dir =>
    obtain ⟨⟩ := h
    exact .of_ensureRefill
  | refillOne i =>
    obtain ⟨key, -, rfl⟩ := map_eq_some_iff.mp h
    exact .of_refillOne
  | spawnOne i succeeds =>
    obtain ⟨spawn, hi, rfl⟩ := map_eq_some_iff.mp h
    exact .report hi
  | prune maxAge now =>
    obtain ⟨⟩ := h
    unfold prune
    split_ifs
    · exact .refl
    · exact .evict _
  | close =>
    obtain ⟨⟩ := h
    exact .evict _
  | closeWorker i =>
    obtain ⟨w, hi, rfl⟩ := map_eq_some_iff.mp h
    exact .of_closeWorker hi

end Inversion

/-! ## Changes of one key -/

section Rules

variable {target : ℕ} {s s' : Pool} {e : Event} {key : String} {st : KeyState}

theorem workersOf_erase_add (t : AList fun _ : String ↦ KeyState) (key : String) :
    (workersOf t.entries : Multiset ℕ) =
      ((t.lookup key).elim [] workers : List ℕ) + workersOf (t.erase key).entries := by
  by_cases hkey : key ∈ t
  · obtain ⟨st, front, rest, hfront, hentries, herase⟩ := exists_of_kerase hkey
    have hlookup : t.lookup key = some st :=
      mem_lookup_iff.mpr (hentries ▸ mem_append_right _ mem_cons_self)
    have herase' : (t.erase key).entries = front ++ rest := herase
    rw [hlookup, hentries, herase']
    simp only [workersOf, flatMap_append, flatMap_cons, elim_some, ← Multiset.coe_add]
    abel
  · have herase : t.erase key = t := AList.ext (kerase_of_notMem_keys hkey)
    rw [lookup_eq_none.mpr hkey, herase, elim_none, Multiset.coe_nil, zero_add]

variable {st' : KeyState}

theorem lookup_cases (hpools : s'.pools = s.pools.insert key st) {k : String}
    (h : s'.pools.lookup k = some st') :
    (k = key ∧ st' = st) ∨ (k ≠ key ∧ s.pools.lookup k = some st') := by
  rw [hpools] at h
  by_cases hk : k = key
  · subst hk
    rw [lookup_insert, Option.some.injEq] at h
    exact .inl ⟨rfl, h.symm⟩
  · rw [lookup_insert_ne hk] at h
    exact .inr ⟨hk, h⟩

theorem Bounded.put (h : s.Bounded target) (hpools : s'.pools = s.pools.insert key st)
    (hst : (st.workers.length : ℤ) + st.inflightRefills ≤ target) : s'.Bounded target := by
  intro k st' hst'
  rcases lookup_cases hpools hst' with ⟨-, rfl⟩ | ⟨-, hold⟩
  · exact hst
  · exact h k st' hold

theorem Counted.put (h : s.Counted) (hpools : s'.pools = s.pools.insert key st)
    (hst : st.inflightRefills = s'.running key)
    (hothers : ∀ k, k ≠ key → s'.running k = s.running k) : s'.Counted := by
  intro k st' hst'
  rcases lookup_cases hpools hst' with ⟨rfl, rfl⟩ | ⟨hk, hold⟩
  · exact ⟨hst, hst ▸ Int.natCast_nonneg _⟩
  · rw [hothers k hk]
    exact h k st' hold

/-- The workers of one key change, and what it gives away is found elsewhere. -/
theorem Owned.put (h : s.Owned) (hpools : s'.pools = s.pools.insert key st)
    (hmoved : (st.workers + s'.handedOut + s'.closing + s'.closed + .range s.born.length :
      Multiset ℕ) = s.heldAt key + s.handedOut + s.closing + s.closed + .range s'.born.length)
    (hborn : ∀ (w : ℕ) k, s.born[w]? = some k → s'.born[w]? = some k)
    (hhome : ∀ w ∈ st.workers, s'.born[w]? = some key) : s'.Owned where
  once := by
    ext w
    have hentries : workersOf (s.pools.insert key st).entries =
        st.workers ++ workersOf (s.pools.erase key).entries := rfl
    have hold := congrArg (Multiset.count w) (workersOf_erase_add s.pools key)
    have honce := congrArg (Multiset.count w) h.once
    have hmoved := congrArg (Multiset.count w) hmoved
    rw [hpools, hentries, ← Multiset.coe_add]
    simp only [Multiset.count_add, heldAt] at hold honce hmoved ⊢
    omega
  home := by
    intro k st' hst' w hw
    rcases lookup_cases hpools hst' with ⟨rfl, rfl⟩ | ⟨-, hold⟩
    · exact hhome w hw
    · exact hborn w k (h.home k st' hold w hw)

/-! ## Each step keeps the accounts -/

theorem lookup_of_evict {stale : KeyState → Bool} (h : (s.evict stale).pools.lookup key = some st) :
    s.pools.lookup key = some st := by
  have hmem := mem_lookup_iff.mp h
  exact mem_lookup_iff.mpr (mem_of_mem_filter hmem)

variable {result : Option ℕ} {spawn : Spawn}

/-- How a call of the spawner may report. -/
theorem spawnOne_cases {P : Pool → Prop}
    (hgone : s.pools.lookup key = none → P { s with closed := result.toList ++ s.closed })
    (hfailed : ∀ st, s.pools.lookup key = some st → result = none → P (s.put key st.reported))
    (hfull : ∀ st w, s.pools.lookup key = some st → result = some w →
      P { s.put key st.reported with closed := w :: s.closed })
    (hpooled : ∀ st w, s.pools.lookup key = some st → result = some w →
      P (s.put key { st.reported with workers := st.workers ++ [w] })) :
    P (s.spawnOne target key result) := by
  unfold spawnOne
  cases hlookup : s.pools.lookup key with
  | none => exact hgone hlookup
  | some st =>
    cases hresult : result with
    | none => exact hfailed st hlookup hresult
    | some w =>
      dsimp only
      split_ifs
      · exact hfull st w hlookup hresult
      · exact hpooled st w hlookup hresult

theorem Bounded.heldAt (h : s.Bounded target) (key : String) :
    ((s.heldAt key).length : ℤ) + s.inflightAt key ≤ target := by
  cases hst : s.pools.lookup key with
  | none =>
    rw [Pool.heldAt, inflightAt, hst]
    exact Int.natCast_nonneg target
  | some st =>
    rw [heldAt_of_lookup hst, inflightAt_of_lookup hst]
    exact h key st hst

theorem Bounded.spawnOne (h : s.Bounded target) :
    (s.spawnOne target key result).Bounded target := by
  have hreported {st : KeyState} (hst : s.pools.lookup key = some st) :
      (st.workers.length : ℤ) + 1 + st.reported.inflightRefills ≤ target := by
    have hbound := h key st hst
    rw [reported_inflightRefills]
    omega
  refine spawnOne_cases (fun _ ↦ h) (fun st hst _ ↦ h.put rfl ?_) (fun st w hst _ ↦ h.put rfl ?_)
    fun st w hst _ ↦ h.put rfl ?_
  · have := hreported hst
    rw [reported_workers]
    omega
  · have := hreported hst
    rw [reported_workers]
    omega
  · rw [length_append]
    exact_mod_cast hreported hst

theorem Bounded.step (h : s.Bounded target) (hstep : Step target s e s') : s'.Bounded target := by
  cases hstep with
  | idle hpools => exact fun key st hst ↦ h key st (hpools ▸ hst)
  | start refills hworkers hinflight hroom horderly =>
    rename_i key st n
    have hpools : (s.start key st n).pools = s.pools.insert key _ := rfl
    refine h.put hpools ?_
    rw [← add_assoc]
    by_cases hn : n = 0
    · rw [hn, hworkers, hinflight, Nat.cast_zero, add_zero]
      exact h.heldAt key
    · exact hroom hn
  | take hst hw hworkers hinflight =>
    refine h.put rfl ?_
    have hbound := h _ _ hst
    rw [hworkers, length_dropLast]
    omega
  | report hi => exact Bounded.spawnOne (fun key st hst ↦ h key st hst)
  | evict stale => exact fun key st hst ↦ h key st (lookup_of_evict hst)

/-! ### The count -/

theorem Counted.inflightAt (h : s.Counted) (key : String)
    (hnone : s.pools.lookup key = none → s.running key = 0) : s.inflightAt key = s.running key := by
  cases hst : s.pools.lookup key with
  | none => rw [Pool.inflightAt, hst, elim_none, hnone hst, Nat.cast_zero]
  | some st =>
    rw [inflightAt_of_lookup hst]
    exact (h key st hst).1

variable {succeeds : Bool}

theorem Counted.report (h : s.Counted) (hi : s.spawns[i]? = some spawn) :
    ((s.finish i spawn.key succeeds).spawnOne target spawn.key result).Counted := by
  -- One call of the spawner less is running, for its own key and for no other.
  have hrunning (k : String) : s.running k =
      (s.finish i spawn.key succeeds).running k + if spawn.key = k then 1 else 0 := by
    have hcount := (cons_eraseIdx_perm hi).countP_eq fun spawn : Spawn ↦ decide (spawn.key = k)
    rw [running, ← hcount, countP_cons]
    simp [running, finish]
  have hothers (k : String) (hk : k ≠ spawn.key) :
      (s.finish i spawn.key succeeds).running k = s.running k := by
    rw [hrunning k, if_neg (Ne.symm hk), add_zero]
  have hreported {st : KeyState} (hst : s.pools.lookup spawn.key = some st) :
      st.reported.inflightRefills = (s.finish i spawn.key succeeds).running spawn.key := by
    have hcount := (h _ st hst).1
    rw [hrunning, if_pos rfl] at hcount
    rw [reported_inflightRefills]
    omega
  refine spawnOne_cases (fun hnone k st hst ↦ ?_)
    (fun st hst _ ↦ Counted.put h rfl (hreported hst) hothers)
    (fun st w hst _ ↦ Counted.put h rfl (hreported hst) hothers)
    fun st w hst _ ↦ Counted.put h rfl (hreported hst) hothers
  -- The key is gone, so that no state has counted the call.
  have hk : k ≠ spawn.key := by
    rintro rfl
    nomatch hnone.symm.trans hst
  have hcount := h k st hst
  rw [← hothers k hk] at hcount
  exact hcount

theorem Counted.step (h : s.Counted) (horderly : s.Orderly e) (hstep : Step target s e s') :
    s'.Counted := by
  cases hstep with
  | idle hpools hspawns =>
    intro key st hst
    rw [running, hspawns]
    exact h key st (hpools ▸ hst)
  | start refills hworkers hinflight hroom hcreate =>
    rename_i key st n
    have hrunning (k : String) :
        (s.start key st n).running k = (if key = k then n else 0) + s.running k := by
      rw [running, running, Pool.start, countP_append, countP_replicate]
      simp
    have hpools : (s.start key st n).pools = s.pools.insert key _ := rfl
    refine h.put hpools ?_ fun k hk ↦ ?_
    · have hcount := h.inflightAt key (hcreate horderly)
      refine Eq.trans ?_ (congrArg Nat.cast (hrunning key).symm)
      rw [if_pos rfl, hinflight, hcount, Nat.cast_add, add_comm]
    · refine (hrunning k).trans ?_
      rw [if_neg (Ne.symm hk), zero_add]
  | take hst hw hworkers hinflight => exact h.put rfl (hinflight.trans (h _ _ hst).1) fun _ _ ↦ rfl
  | report hi => exact h.report hi
  | evict stale => exact fun key st hst ↦ h key st (lookup_of_evict hst)

/-! ### The owners -/

theorem Owned.same (h : s.Owned) (hpools : s'.pools = s.pools)
    (hmoved : (s'.handedOut + s'.closing + s'.closed + .range s.born.length : Multiset ℕ) =
      s.handedOut + s.closing + s.closed + .range s'.born.length)
    (hborn : ∀ (w : ℕ) k, s.born[w]? = some k → s'.born[w]? = some k) : s'.Owned where
  once := by
    ext w
    have honce := congrArg (Multiset.count w) h.once
    have hmoved := congrArg (Multiset.count w) hmoved
    simp only [Multiset.count_add, hpools] at honce hmoved ⊢
    omega
  home := fun key st hst w hw ↦ hborn w key (h.home key st (hpools ▸ hst) w hw)

/-- The worker that a call of the spawner returns is new, and no other worker changes. -/
theorem born_finish (s : Pool) (i : ℕ) (key : String) (succeeds : Bool) (w : ℕ) (k : String)
    (h : s.born[w]? = some k) : (s.finish i key succeeds).born[w]? = some k := by
  cases succeeds with
  | false => exact h
  | true =>
    have hlt := (List.getElem?_eq_some_iff.mp h).1
    exact (getElem?_append_left hlt).trans h

theorem range_finish (s : Pool) (i : ℕ) (key : String) (succeeds : Bool) :
    Multiset.range (s.finish i key succeeds).born.length =
      ((s.returned succeeds).toList : Multiset ℕ) + .range s.born.length := by
  cases succeeds with
  | false => exact (zero_add _).symm
  | true =>
    have hborn : (s.finish i key true).born.length = s.born.length + 1 := length_append
    rw [hborn, Multiset.range_succ]
    rfl

theorem Owned.report (h : s.Owned) :
    ((s.finish i spawn.key succeeds).spawnOne target spawn.key (s.returned succeeds)).Owned := by
  have hrange := range_finish s i spawn.key succeeds
  have hborn := born_finish s i spawn.key succeeds
  have hheld {st : KeyState} (hst : s.pools.lookup spawn.key = some st) (w : ℕ)
      (hw : w ∈ st.workers) : (s.finish i spawn.key succeeds).born[w]? = some spawn.key :=
    hborn w _ (h.home _ st hst w hw)
  refine spawnOne_cases (fun hnone ↦ h.same rfl ?_ hborn)
    (fun st hst hnone ↦ Owned.put h rfl ?_ hborn fun w hw ↦ hheld hst w hw)
    (fun st w hst hw ↦ Owned.put h rfl ?_ hborn fun w hw ↦ hheld hst w hw)
    fun st w hst hw ↦ Owned.put h rfl ?_ hborn fun w' hw' ↦ ?_
  · refine Eq.trans ?_ (congrArg _ hrange.symm)
    change (s.handedOut + s.closing + ((s.returned succeeds).toList ++ s.closed : List ℕ) +
      .range s.born.length : Multiset ℕ) = _
    rw [← Multiset.coe_add]
    abel
  · refine Eq.trans ?_ (congrArg _ hrange.symm)
    change (st.workers + s.handedOut + s.closing + s.closed + .range s.born.length : Multiset ℕ) = _
    rw [hnone, heldAt_of_lookup (s := s) hst, toList_none, Multiset.coe_nil, zero_add]
  · refine Eq.trans ?_ (congrArg _ hrange.symm)
    change (st.workers + s.handedOut + s.closing + (w :: s.closed : List ℕ) +
      .range s.born.length : Multiset ℕ) = _
    rw [hw, heldAt_of_lookup (s := s) hst, toList_some, Multiset.coe_singleton,
      ← Multiset.cons_coe, ← Multiset.singleton_add]
    abel
  · refine Eq.trans ?_ (congrArg _ hrange.symm)
    change ((st.workers ++ [w] : List ℕ) + s.handedOut + s.closing + s.closed +
      .range s.born.length : Multiset ℕ) = _
    rw [hw, heldAt_of_lookup (s := s) hst, toList_some, ← Multiset.coe_add]
    abel
  · rcases mem_append.mp hw' with hw' | hw'
    · exact hheld hst w' hw'
    -- It is the new worker, which has the key of the call.
    · obtain rfl := mem_singleton.mp hw'
      cases succeeds with
      | false => nomatch hw
      | true =>
        obtain ⟨⟩ := hw
        exact getElem?_concat_length

theorem Owned.start {n : ℕ} (h : s.Owned) (hworkers : st.workers = s.heldAt key) :
    (s.start key st n).Owned := by
  refine Owned.put h rfl ?_ (fun _ _ hw ↦ hw) fun w hw ↦ ?_
  · change (st.workers + s.handedOut + s.closing + s.closed + .range s.born.length : Multiset ℕ) = _
    rw [hworkers]
    rfl
  · change w ∈ st.workers at hw
    rw [hworkers, heldAt] at hw
    cases hst : s.pools.lookup key with
    | none =>
      rw [hst] at hw
      nomatch hw
    | some st' =>
      rw [hst] at hw
      exact h.home key st' hst w hw

theorem Owned.take {w : ℕ} (h : s.Owned) (hst : s.pools.lookup key = some st)
    (hw : st.workers.getLast? = some w) (hworkers : st'.workers = st.workers.dropLast) :
    Owned { s.put key st' with handedOut := w :: s.handedOut, refills := refills } := by
  obtain ⟨rest, hrest⟩ := getLast?_eq_some_iff.mp hw
  have hdrop : st'.workers = rest := by rw [hworkers, hrest, dropLast_concat]
  refine Owned.put h rfl ?_ (fun _ _ hw ↦ hw) fun w' hw' ↦ ?_
  · change (st'.workers + (w :: s.handedOut : List ℕ) + s.closing + s.closed +
      .range s.born.length : Multiset ℕ) = s.heldAt key + s.handedOut + s.closing + s.closed + _
    rw [hdrop, heldAt_of_lookup hst, hrest, ← Multiset.coe_add, ← Multiset.cons_coe,
      ← Multiset.singleton_add, Multiset.coe_singleton]
    abel
  · rw [hdrop] at hw'
    exact h.home key st hst w' (hrest ▸ mem_append_left _ hw')

theorem Owned.evict (h : s.Owned) (stale : KeyState → Bool) : (s.evict stale).Owned where
  once := by
    have hsplit : (s.pools.entries.filter (fun e ↦ stale e.2) ++
        s.pools.entries.filter fun e ↦ !stale e.2).Perm s.pools.entries :=
      filter_append_perm _ _
    have hworkers : (workersOf (s.pools.entries.filter fun e ↦ stale e.2) +
        workersOf (s.pools.entries.filter fun e ↦ !stale e.2) : Multiset ℕ) =
          workersOf s.pools.entries := by
      rw [Multiset.coe_add, Multiset.coe_eq_coe, workersOf, workersOf, ← flatMap_append]
      exact hsplit.flatMap_right _
    have honce := h.once
    rw [← hworkers] at honce
    have hclosing : ((s.evict stale).closing : Multiset ℕ) =
        workersOf (s.pools.entries.filter fun e ↦ stale e.2) + s.closing :=
      (Multiset.coe_add _ _).symm
    rw [hclosing]
    refine Eq.trans ?_ honce
    change (workersOf (s.pools.entries.filter fun e ↦ !stale e.2) + s.handedOut + _ + s.closed :
      Multiset ℕ) = _
    abel
  home := fun key st hst ↦ h.home key st (lookup_of_evict hst)

theorem Owned.step (h : s.Owned) (hstep : Step target s e s') : s'.Owned := by
  cases hstep with
  | idle hpools hspawns hborn hmoved =>
    refine h.same hpools ?_ fun w k hw ↦ hborn ▸ hw
    rw [hmoved, hborn]
  | start refills hworkers hinflight hroom horderly =>
    rename_i n
    have hstart : (s.start _ _ n).Owned := h.start hworkers
    exact ⟨hstart.once, hstart.home⟩
  | take hst hw hworkers hinflight => exact h.take hst hw hworkers
  | report hi => exact h.report
  | evict stale => exact h.evict stale

end Rules

/-- **The accounts of the pool.** Whatever comes between, no key has more workers and calls of the
spawner than it should, and every worker has one owner. The calls are counted correctly if no key is
created while a call for it is running. -/
theorem accounts (target : ℕ) (events : List Event) (s : Pool)
    (hrun : Run (step target) anyStep init events s) :
    s.Bounded target ∧ s.Owned ∧ (Run (step target) Orderly init events s → s.Counted) := by
  refine ⟨?_, ?_, fun horderly ↦ ?_⟩
  · refine hrun.invariant (I := Bounded target) (fun s e s' h _ hstep ↦ h.step (.of_step hstep)) ?_
    nofun
  · refine hrun.invariant (I := Owned) (fun s e s' h _ hstep ↦ h.step (.of_step hstep)) ?_
    exact ⟨rfl, nofun⟩
  · refine horderly.invariant (I := Counted)
      (fun s e s' h hok hstep ↦ h.step hok (.of_step hstep)) ?_
    nofun

/-- A worker is handed out, and its replacement fails; the key is evicted and, when nothing is
running any more, created again. -/
def orderlyRun : List Event :=
  [.ensureRefill "k" "dir", .spawnOne 0 true, .acquire "k" "dir" 5, .refillOne 0, .prune 2 9,
    .spawnOne 0 false, .acquire "k" "dir" 10, .ensureRefill "k" "dir"]

theorem accounts_orderlyRun : ∃ s, Run (step 1) Orderly init orderlyRun s ∧
    (s.born.length, s.handedOut, s.running "k") = (1, [0], 1) ∧
    s.Bounded 1 ∧ s.Owned ∧ s.Counted := by
  refine Run.exists_of_exec _ (by decide) fun s hrun hs ↦ ⟨hs, ?_⟩
  obtain ⟨hbounded, howned, hcounted⟩ := accounts 1 orderlyRun s (hrun.mono fun _ _ _ ↦ trivial)
  exact ⟨hbounded, howned, hcounted hrun⟩

/-- The key is evicted while the spawner is running for it, and created again. -/
def recreatingRun : List Event :=
  [.ensureRefill "k" "dir", .prune 2 9, .acquire "k" "dir" 10, .spawnOne 0 true]

/-- **A count below zero.** -/
theorem not_counted_recreatingRun : ∃ s, Run (step 1) anyStep init recreatingRun s ∧
    (s.pools.lookup "k").map inflightRefills = some (-1) ∧ ¬ s.Counted := by
  refine Run.exists_of_exec _ (by decide)
    fun s hrun hs ↦ ⟨hs, fun hcounted ↦ ?_⟩
  obtain ⟨st, hst, hneg⟩ := map_eq_some_iff.mp hs
  have hnonneg := (hcounted "k" st hst).2
  omega

end Pool

end Gocracker.Warmpool
