import Gocracker.Transition.Run

/-!
# A pool of sandboxes

The pool of a template keeps sandboxes that are running (hot) or paused. The refiller boots new
ones, `Acquire` leases the oldest, and `Release`, the reaper and `DrainPaused` take entries out of
service. An entry stays in the map after that.

What is available is recorded three times: in the states of the entries, in two lists, and in an
index of the lists by id. They agree as long as no id comes in again while it is available: then the
new entry takes the place of the old one in the map, but not in the lists.
-/

namespace Gocracker.Sandboxes

open Transition List Function Option

/-! ## The entries -/

inductive State where
  | hot
  | paused
  | leased
  | stopped
  deriving DecidableEq

/-- `result` is the number of the VM. -/
structure Entry where
  id : String
  state : State
  result : Option ℕ
  deriving DecidableEq

/-- The map and what is available. Entries are referred to by their numbers, in the order in which
they were made. -/
structure Store where
  entry : ℕ → Entry
  made : ℕ
  entries : String → Option ℕ
  availableHot : List ℕ
  availablePaused : List ℕ
  availablePos : String → Option ℕ

namespace Store

def empty : Store := ⟨fun _ ↦ ⟨"", .stopped, none⟩, 0, fun _ ↦ none, [], [], fun _ ↦ none⟩

variable (s : Store)

/-- The entry is the one that its id leads to. -/
def Filed (i : ℕ) : Prop := s.entries (s.entry i).id = some i
deriving Decidable

/-- An id that is in a queue is not put there again. -/
def enqueueAvailable (i : ℕ) : Store :=
  if (s.availablePos (s.entry i).id).isSome then s
  else
    let pos := update s.availablePos (s.entry i).id (some i)
    match (s.entry i).state with
    | .hot => { s with availableHot := s.availableHot ++ [i], availablePos := pos }
    | .paused => { s with availablePaused := s.availablePaused ++ [i], availablePos := pos }
    | _ => s

def dequeueAvailable (i : ℕ) : Store :=
  match s.availablePos (s.entry i).id with
  | none => s
  | some elem =>
    let pos := update s.availablePos (s.entry i).id none
    match (s.entry i).state with
    | .hot => { s with availableHot := s.availableHot.erase elem, availablePos := pos }
    | .paused => { s with availablePaused := s.availablePaused.erase elem, availablePos := pos }
    | _ =>
      if elem ∈ s.availableHot then
        { s with availableHot := s.availableHot.erase elem, availablePos := pos }
      else { s with availablePaused := s.availablePaused.erase elem, availablePos := pos }

variable (id : String)

/-- A new entry, by `runCreate` or `AddPaused`. -/
def insert (state : State) (result : Option ℕ) : Store :=
  enqueueAvailable
    { s with
      entry := update s.entry s.made ⟨id, state, result⟩
      made := s.made + 1
      entries := update s.entries id (some s.made) } s.made

/-- An entry changes its state to one in which it is not available. -/
def retire (i : ℕ) (state : State) (result : Option ℕ) : Store :=
  { s.dequeueAvailable i with
    entry := update s.entry i { s.entry i with state := state, result := result } }

/-- The entry that `Acquire` takes. -/
def front : Option ℕ := s.availableHot.head? <|> s.availablePaused.head?

/-- The entry in front is leased. -/
def acquire : Option (ℕ × Store) :=
  s.front.map fun i ↦ (i, s.retire i .leased (s.entry i).result)

/-- An unknown id is ignored. -/
def markStopped : Store :=
  match s.entries id with
  | none => s
  | some i => s.retire i .stopped (s.entry i).result

/-- `Release`, with the result that is returned. -/
def release : Option (Option ℕ × Store) :=
  match s.entries id with
  -- ErrNotFound
  | none => none
  | some i =>
    -- ErrNotLeased
    if (s.entry i).state ≠ .leased then none
    else some ((s.entry i).result, s.retire i .stopped none)

/-- The reaper and `DrainPaused` take paused entries, and close their results. -/
def sweep (doomed : ℕ → Bool) : List ℕ → Store → Store × List ℕ
  | [], s => (s, [])
  | i :: is, s =>
    if s.Filed i ∧ (s.entry i).state = .paused ∧ doomed i = true then
      let (s', closed) := sweep doomed is (s.retire i .stopped none)
      (s', (s.entry i).result.toList ++ closed)
    else sweep doomed is s

/-- How many entries are in a state. -/
def countByState (state : State) : ℕ :=
  (range s.made).countP fun i ↦ s.Filed i ∧ (s.entry i).state = state

theorem retire_eq (s : Store) (i : ℕ) (st : State) (result : Option ℕ) :
    (s.retire i st result).made = s.made ∧ (s.retire i st result).entries = s.entries := by
  rw [retire, dequeueAvailable]
  split
  · exact ⟨rfl, rfl⟩
  split
  · exact ⟨rfl, rfl⟩
  · exact ⟨rfl, rfl⟩
  · split <;> exact ⟨rfl, rfl⟩

theorem insert_eq (s : Store) (id : String) (st : State) (result : Option ℕ) :
    (s.insert id st result).made = s.made + 1 ∧
      (s.insert id st result).entries = update s.entries id (some s.made) ∧
      (s.insert id st result).entry = update s.entry s.made ⟨id, st, result⟩ := by
  rw [insert, enqueueAvailable]
  split
  · exact ⟨rfl, rfl, rfl⟩
  · dsimp only
    split <;> exact ⟨rfl, rfl, rfl⟩

/-! ### What happens to entries -/

/-- Some entries, which are in the map or available, are taken out of service. -/
inductive Retires : Store → Store → Prop where
  | refl {s : Store} : Retires s s
  | tail {s t : Store} {i : ℕ} {state : State} {result : Option ℕ} (hst : Retires s t)
      (hi : (∃ id, t.entries id = some i) ∨ t.front = some i) (hhot : state ≠ .hot)
      (hpaused : state ≠ .paused) : Retires s (t.retire i state result)

variable {s} {t : Store} {i : ℕ} {state : State} {result : Option ℕ}

theorem Retires.of_acquire (h : s.acquire = some (i, t)) : Retires s t := by
  obtain ⟨j, hj, heq⟩ := map_eq_some_iff.mp h
  obtain ⟨⟩ := heq
  exact .tail .refl (.inr hj) nofun nofun

theorem Retires.of_markStopped : Retires s (s.markStopped id) := by
  rw [markStopped]
  split
  · exact .refl
  · exact .tail .refl (.inl ⟨id, ‹_›⟩) nofun nofun

variable {id : String} {r : Option ℕ}

theorem release_eq_some (h : s.release id = some (r, t)) :
    ∃ i, s.entries id = some i ∧ (s.entry i).state = .leased ∧ r = (s.entry i).result ∧
      t = s.retire i .stopped none := by
  revert h
  fun_cases release s id with
  | case3 i hi hleased =>
    rintro ⟨⟩
    exact ⟨i, hi, not_not.mp hleased, rfl, rfl⟩
  | _ => nofun

theorem Retires.of_release (h : s.release id = some (r, t)) :
    Retires s t := by
  obtain ⟨i, hi, -, -, rfl⟩ := release_eq_some h
  exact .tail .refl (.inl ⟨id, hi⟩) nofun nofun

theorem Retires.of_sweep {doomed : ℕ → Bool} (is : List ℕ) (h : Retires s t) :
    Retires s (sweep doomed is t).1 := by
  induction is generalizing t with
  | nil => exact h
  | cons i is ih =>
    rw [sweep]
    split_ifs with hi
    · exact ih (.tail h (.inl ⟨_, hi.1⟩) nofun nofun)
    · exact ih h

/-! ### The three records agree -/

/-- Availability follows the states of the entries in the map, and each list is in the order in
which entries came in. -/
structure Indexed (s : Store) : Prop where
  ids : ∀ id i, s.entries id = some i → i < s.made ∧ (s.entry i).id = id
  hot : ∀ i, i ∈ s.availableHot ↔ s.Filed i ∧ (s.entry i).state = .hot
  paused : ∀ i, i ∈ s.availablePaused ↔ s.Filed i ∧ (s.entry i).state = .paused
  pos : ∀ id i, s.availablePos id = some i ↔
    s.entries id = some i ∧ (i ∈ s.availableHot ∨ i ∈ s.availablePaused)
  hotSorted : s.availableHot.Pairwise (· < ·)
  pausedSorted : s.availablePaused.Pairwise (· < ·)

theorem Indexed.dequeueAvailable_eq (h : s.Indexed) (hi : s.Filed i) :
    s.dequeueAvailable i = { s with
      availableHot := s.availableHot.erase i
      availablePaused := s.availablePaused.erase i
      availablePos := update s.availablePos (s.entry i).id none } := by
  have hhot := h.hot i
  have hpaused := h.paused i
  have hpos := h.pos (s.entry i).id
  rw [dequeueAvailable]
  cases hcase : s.availablePos (s.entry i).id with
  | none =>
    have hnot : i ∉ s.availableHot ∧ i ∉ s.availablePaused := by grind [Filed]
    have hself : update s.availablePos (s.entry i).id none = s.availablePos := by
      rw [← hcase, update_eq_self]
    rw [erase_of_not_mem hnot.1, erase_of_not_mem hnot.2, hself]
  | some elem =>
    obtain ⟨hfiled, hmem⟩ := (hpos elem).mp hcase
    obtain rfl : i = elem := mem_unique hi hfiled
    cases hstate : (s.entry i).state with
    | hot =>
      have hnot : i ∉ s.availablePaused := by grind
      simp only [erase_of_not_mem hnot]
    | paused =>
      have hnot : i ∉ s.availableHot := by grind
      simp only [erase_of_not_mem hnot]
    | leased | stopped => grind

theorem Indexed.retire (h : s.Indexed) (hi : s.Filed i) (hhot : state ≠ .hot)
    (hpaused : state ≠ .paused) : (s.retire i state result).Indexed := by
  have hid (j : ℕ) : (update s.entry i
      { s.entry i with state := state, result := result } j).id = (s.entry j).id := by grind
  rw [Store.retire, h.dequeueAvailable_eq hi]
  refine ⟨fun id j hj ↦ ?_, fun j ↦ ?_, fun j ↦ ?_, fun id j ↦ ?_, h.hotSorted.erase i,
    h.pausedSorted.erase i⟩
  · exact (h.ids id j hj).imp_right (hid j).trans
  · have hj := h.hot j
    simp only [h.hotSorted.nodup.mem_erase_iff, Filed] at hj ⊢
    grind
  · have hj := h.paused j
    simp only [h.pausedSorted.nodup.mem_erase_iff, Filed] at hj ⊢
    grind
  have hj := h.pos id j
  have hids := h.ids id
  simp only [h.hotSorted.nodup.mem_erase_iff, h.pausedSorted.nodup.mem_erase_iff]
  grind [Filed]

theorem Indexed.lt_made (h : s.Indexed) (hi : i ∈ s.availableHot ∨ i ∈ s.availablePaused) :
    i < s.made := by
  rcases hi with hi | hi
  · exact (h.ids _ i ((h.hot i).mp hi).1).1
  · exact (h.ids _ i ((h.paused i).mp hi).1).1

theorem Indexed.insert (h : s.Indexed) (hid : s.availablePos id = none)
    (hstate : state = .hot ∨ state = .paused) : (s.insert id state result).Indexed := by
  have hsorted {l : List ℕ} (hl : l.Pairwise (· < ·)) (hmade : ∀ j ∈ l, j < s.made) :
      (l ++ [s.made]).Pairwise (· < ·) :=
    pairwise_append.mpr ⟨hl, pairwise_singleton _ _, by simpa using hmade⟩
  have hids := h.ids
  have hhot := h.hot
  have hpaused := h.paused
  have hpos := h.pos
  rw [Store.insert, enqueueAvailable]
  simp only [update_self, hid, isSome_none, Bool.false_eq_true, if_false]
  rcases hstate with rfl | rfl
  · refine ⟨fun id' j ↦ ?_, fun j ↦ ?_, fun j ↦ ?_, fun id' j ↦ ?_,
      hsorted h.hotSorted fun j hj ↦ h.lt_made (.inl hj), h.pausedSorted⟩
    all_goals grind [Filed]
  · refine ⟨fun id' j ↦ ?_, fun j ↦ ?_, fun j ↦ ?_, fun id' j ↦ ?_, h.hotSorted,
      hsorted h.pausedSorted fun j hj ↦ h.lt_made (.inr hj)⟩
    all_goals grind [Filed]

/-- No hot entry is older, and no paused one if it is itself paused. -/
def Oldest (s : Store) (i : ℕ) : Prop :=
  ∀ j, s.Filed j → ((s.entry j).state = .hot → (s.entry i).state = .hot ∧ i ≤ j) ∧
    ((s.entry j).state = .paused → (s.entry i).state = .hot ∨ i ≤ j)

theorem head_le {l : List ℕ} (hl : l.Pairwise (· < ·)) (hi : l.head? = some i) :
    i ∈ l ∧ ∀ j ∈ l, i ≤ j := by
  cases l with
  | nil => nomatch hi
  | cons k rest =>
    obtain ⟨⟩ := hi
    refine ⟨mem_cons_self, forall_mem_cons.mpr ⟨le_rfl, fun j hj ↦ ?_⟩⟩
    exact ((pairwise_cons.mp hl).1 j hj).le

theorem Indexed.front (h : s.Indexed) (hi : s.front = some i) : s.Filed i ∧ s.Oldest i := by
  have hhot := h.hot
  have hpaused := h.paused
  rw [Store.front] at hi
  cases hhead : s.availableHot.head? with
  | none =>
    rw [hhead] at hi
    obtain ⟨hmem, hle⟩ := head_le h.pausedSorted hi
    have hnil := head?_eq_none_iff.mp hhead
    refine ⟨((hpaused i).mp hmem).1, fun j hj ↦ ⟨fun hstate ↦ ?_, fun hstate ↦ .inr ?_⟩⟩
    · nomatch hnil ▸ (hhot j).mpr ⟨hj, hstate⟩
    · exact hle j ((hpaused j).mpr ⟨hj, hstate⟩)
  | some k =>
    rw [hhead] at hi
    obtain ⟨⟩ := hi
    obtain ⟨hmem, hle⟩ := head_le h.hotSorted hhead
    obtain ⟨hfiled, hstate⟩ := (hhot i).mp hmem
    exact ⟨hfiled, fun j hj ↦ ⟨fun hj' ↦ ⟨hstate, hle j ((hhot j).mpr ⟨hj, hj'⟩)⟩,
      fun _ ↦ .inl hstate⟩⟩

theorem Indexed.retires (h : s.Indexed) (hst : Retires s t) : t.Indexed := by
  induction hst with
  | refl => exact h
  | tail _ hi hhot hpaused ih =>
    refine ih.retire ?_ hhot hpaused
    rcases hi with ⟨id, hid⟩ | hfront
    · rw [Filed, (ih.ids id _ hid).2, hid]
    · exact (ih.front hfront).1

theorem indexed_empty : empty.Indexed :=
  ⟨nofun, fun _ ↦ ⟨nofun, fun h ↦ nomatch h.1⟩, fun _ ↦ ⟨nofun, fun h ↦ nomatch h.1⟩,
    fun _ _ ↦ ⟨nofun, fun h ↦ nomatch h.1⟩, .nil, .nil⟩

end Store

/-! ## The pool -/

structure Config where
  templateID : String
  kernelPath : String
  image : String
  dockerfile : String
  minPaused : ℤ
  maxPaused : ℤ
  replenishParallelism : ℤ
  consecutiveFailureThreshold : ℤ
  cooldown : ℤ
  minHot : ℤ
  maxHot : ℤ

namespace Config

variable (c : Config)

/-- What is zero gets its default. -/
def defaultsApplied : Config :=
  let c := if c.minPaused = 0 ∧ c.maxPaused = 0 then { c with minPaused := 4, maxPaused := 8 }
    else c
  let c := if c.maxPaused = 0 ∧ 0 < c.minPaused then { c with maxPaused := max 8 (2 * c.minPaused) }
    else c
  { c with
    replenishParallelism := if c.replenishParallelism = 0 then 2 else c.replenishParallelism
    consecutiveFailureThreshold :=
      if c.consecutiveFailureThreshold = 0 then 3 else c.consecutiveFailureThreshold
    cooldown := if c.cooldown = 0 then 60000000000 else c.cooldown }

/-- `Validate` has no objection. -/
structure Valid : Prop where
  templateID : c.templateID ≠ ""
  kernelPath : c.kernelPath ≠ ""
  source : c.image ≠ "" ∨ c.dockerfile ≠ ""
  minPaused : 0 ≤ c.defaultsApplied.minPaused
  maxPaused : c.defaultsApplied.minPaused ≤ c.defaultsApplied.maxPaused
  parallelism : 0 < c.defaultsApplied.replenishParallelism

end Config

/-- A call of `AcquireWait`. -/
inductive Caller where
  /-- It is about to call `Acquire`. -/
  | trying
  /-- It has found nothing available. `Acquire` alone gives up here. -/
  | empty
  /-- It waits for a channel to be closed. -/
  | waiting (ch : ℕ)
  /-- It has an entry, and calls `Resume` and `SetNetwork`. -/
  | resuming (id : String)
  | holding (id : String)
  | done
  deriving DecidableEq

/-- The pool, with the boots and calls in progress. Results are numbered, too; `closers` has those
that were handed to someone who closes them. A zero time is `none`. -/
structure Pool extends Store where
  cfg : Config
  started : Bool
  canceled : Bool
  inflightHot : ℤ
  inflightPaused : ℤ
  consecutiveFailures : ℤ
  cooldownUntil : Option ℤ
  /-- The number of the channel. Those with smaller numbers are closed. -/
  warmAvailableCh : ℕ
  /-- For each boot whether it is for a hot entry. -/
  boots : List Bool
  results : ℕ
  closers : List ℕ
  callers : List Caller

/-- What the pool, its boots and its callers do next. -/
inductive PoolAction where
  | start
  | stop
  | reconcile (now : ℤ) (remain : Option ℤ)
  | bootOk (k : ℕ) (id : String)
  | bootFail (k : ℕ) (canceled : Bool) (now : ℤ)
  | addPaused (id : String)
  | call
  | acquire (c : ℕ)
  | capture (c : ℕ)
  | wake (c : ℕ)
  | giveUp (c : ℕ)
  | resumed (c : ℕ) (ok : Bool)
  | release (id : String)
  | reap (dead : List ℕ)
  | drain

/-- The id that an action brings in. -/
def PoolAction.newId : PoolAction → Option String
  | .bootOk _ id | .addPaused id => some id
  | _ => none

/-- The actions of the replenishing goroutine and its boots. -/
def PoolAction.isRefill : PoolAction → Bool
  | .reconcile .. | .bootOk .. | .bootFail .. => true
  | _ => false

def PoolAction.isAddPaused : PoolAction → Bool
  | .addPaused _ => true
  | _ => false

namespace Pool

def newPool (cfg : Config) : Pool :=
  ⟨.empty, cfg.defaultsApplied, false, false, 0, 0, 0, none, 0, [], 0, [], []⟩

variable (p : Pool)

/-- How many boots a pass launches, hot and paused; `remain` is what is left of the global
budget. -/
def plan (remain : Option ℤ) : ℤ × ℤ :=
  let liveHot := p.countByState .hot + p.inflightHot
  let livePaused := p.countByState .paused + p.inflightPaused
  let hotWant := p.cfg.minHot - liveHot
  let hotWant := if hotWant < 0 ∨ p.cfg.maxHot = 0 then 0 else hotWant
  let hotWant := min (p.cfg.maxHot - liveHot) hotWant
  let pausedWant := max (p.cfg.minPaused - livePaused) 0
  let pausedWant := min (p.cfg.maxPaused - livePaused) pausedWant
  let canLaunch := p.cfg.replenishParallelism - (p.inflightHot + p.inflightPaused)
  let canLaunch := match remain with
    | none => canLaunch
    | some r => min r canLaunch
  if canLaunch ≤ 0 then (0, 0)
  else
    let launchHot := min hotWant canLaunch
    (launchHot, min pausedWant (canLaunch - launchHot))

/-- Boots are counted when they are launched. -/
def launch (n : ℤ × ℤ) : Pool :=
  { p with
    inflightHot := p.inflightHot + n.1
    inflightPaused := p.inflightPaused + n.2
    boots := p.boots ++ replicate n.1.toNat true ++ replicate n.2.toNat false }

/-- Nothing is launched in a cooldown. -/
def reconcile (now : ℤ) (remain : Option ℤ) : Pool :=
  if p.started = false ∨ ∃ t ∈ p.cooldownUntil, now < t then p else p.launch (p.plan remain)

/-- A boot has come back. -/
def finish (k : ℕ) (isHot : Bool) : Pool :=
  { p with
    boots := p.boots.eraseIdx k
    inflightHot := p.inflightHot - if isHot then 1 else 0
    inflightPaused := p.inflightPaused - if isHot then 0 else 1 }

/-- A success ends the cooldown. A pool that was stopped closes the VM. -/
def bootOk (isHot : Bool) (id : String) : Pool :=
  if p.canceled then { p with results := p.results + 1, closers := p.results :: p.closers }
  else
    { p with
      toStore := p.insert id (if isHot then .hot else .paused) (some p.results)
      results := p.results + 1
      consecutiveFailures := 0
      cooldownUntil := none
      warmAvailableCh := p.warmAvailableCh + 1 }

/-- Too many failures in a row begin a cooldown. -/
def bootFail (canceled : Bool) (now : ℤ) : Pool :=
  if canceled then p
  else
    { p with
      consecutiveFailures := p.consecutiveFailures + 1
      cooldownUntil := if p.cfg.consecutiveFailureThreshold ≤ p.consecutiveFailures + 1 then
          some (now + p.cfg.cooldown)
        else p.cooldownUntil }

def setCaller (c : ℕ) (caller : Caller) : Pool := { p with callers := p.callers.set c caller }

/-- Paused entries that are doomed are stopped, and their VMs closed. -/
def sweepAll (doomed : ℕ → Bool) : Pool :=
  let (s, closed) := Store.sweep doomed (range p.made) p.toStore
  { p with toStore := s, closers := closed ++ p.closers }

def step : PoolAction → Option Pool
  | .start => if p.started then none else some { p with started := true }
  | .stop => some { p with canceled := p.started }
  | .reconcile now remain => some (p.reconcile now remain)
  | .bootOk k id => p.boots[k]?.map fun isHot ↦ (p.finish k isHot).bootOk isHot id
  | .bootFail k canceled now => p.boots[k]?.map fun isHot ↦ (p.finish k isHot).bootFail canceled now
  | .addPaused id =>
    some { p with toStore := p.insert id .paused (some p.results), results := p.results + 1 }
  | .call => some { p with callers := p.callers ++ [.trying] }
  | .acquire c =>
    if p.callers[c]? = some .trying then
      match p.toStore.acquire with
      | none => some (p.setCaller c .empty)
      | some (i, s) => some (setCaller { p with toStore := s } c (.resuming (p.entry i).id))
    else none
  | .capture c =>
    if p.callers[c]? = some .empty then some (p.setCaller c (.waiting p.warmAvailableCh)) else none
  | .wake c =>
    match p.callers[c]? with
    | some (.waiting ch) => if ch < p.warmAvailableCh then some (p.setCaller c .trying) else none
    | _ => none
  | .giveUp c =>
    match p.callers[c]? with
    | some (.waiting _) | some .empty => some (p.setCaller c .done)
    | _ => none
  | .resumed c ok =>
    match p.callers[c]? with
    | some (.resuming id) =>
      if ok then some (p.setCaller c (.holding id))
      else some (setCaller { p with toStore := p.markStopped id } c .done)
    | _ => none
  | .release id =>
    match p.toStore.release id with
    | none => some p
    | some (r, s) =>
      some { p with
        toStore := s
        closers := r.toList ++ p.closers
        callers := p.callers.map fun c ↦ if c = .holding id then .done else c }
  | .reap dead => some (p.sweepAll fun i ↦ i ∈ dead)
  | .drain => some (p.sweepAll fun i ↦ (p.entry i).result.isSome)

variable {p} {p' : Pool} {a : PoolAction}

/-- **What a step does to the entries.** Some are taken out of service, or one comes in. -/
theorem store_of_step (h : p.step a = some p') :
    Store.Retires p.toStore p'.toStore ∨ ∃ id state result, (state = .hot ∨ state = .paused) ∧
      p'.toStore = p.insert id state result ∧ a.newId = some id := by
  revert h
  fun_cases Pool.step p a with try rintro ⟨⟩
  | case4 now remain =>
    rw [reconcile]
    split <;> exact .inl .refl
  | case5 k id =>
    intro h
    obtain ⟨isHot, -, rfl⟩ := map_eq_some_iff.mp h
    rw [bootOk]
    split_ifs
    · exact .inl .refl
    · exact .inr ⟨id, .hot, _, .inl rfl, rfl, rfl⟩
    · exact .inr ⟨id, .paused, _, .inr rfl, rfl, rfl⟩
  | case6 k canceled now =>
    intro h
    obtain ⟨isHot, -, rfl⟩ := map_eq_some_iff.mp h
    rw [bootFail]
    split <;> exact .inl .refl
  | case7 id => exact .inr ⟨id, .paused, _, .inr rfl, rfl, rfl⟩
  | case10 c _ i s hacquire => exact .inl (.of_acquire hacquire)
  | case21 => exact .inl (.of_markStopped _)
  | case24 id r s hrelease => exact .inl (.of_release hrelease)
  | case25 | case26 => exact .inl (.of_sweep _ .refl)
  | _ => all_goals exact .inl .refl

/-- Nobody but the refiller launches boots or waits for them. -/
theorem boots_of_step (h : p.step a = some p') (ha : a.isRefill = false) :
    (p'.cfg, p'.inflightHot, p'.inflightPaused, p'.boots) =
      (p.cfg, p.inflightHot, p.inflightPaused, p.boots) := by
  revert h
  fun_cases Pool.step p a
  all_goals first
    | exact fun h ↦ some.inj h ▸ rfl
    | (cases ha; done)
    | rintro ⟨⟩

/-- A new id is not one in a queue. -/
def FreshIds (p : Pool) (a : PoolAction) : Prop := ∀ id ∈ a.newId, p.availablePos id = none
deriving Decidable

/-- **The three records of what is available agree**, and `Acquire` takes the oldest hot entry, or
the oldest paused one. -/
theorem indexed_of_freshIds {cfg : Config} {as : List PoolAction}
    (h : Run step FreshIds (newPool cfg) as p) :
    p.Indexed ∧ ∀ i, p.front = some i → p.Filed i ∧ p.Oldest i := by
  have hp : p.Indexed := by
    refine h.invariant (I := fun p ↦ p.toStore.Indexed) (fun p a p' hp hok hstep ↦ ?_)
      Store.indexed_empty
    rcases store_of_step hstep with hret | ⟨id, state, result, hstate, heq, ha⟩
    · exact hp.retires hret
    · rw [heq]
      exact hp.insert (hok id ha) hstate
  exact ⟨hp, fun i ↦ hp.front⟩

end Pool

/-- A pool with both kinds of entries, and two boots of each kind at a time. -/
def smallConfig (maxHot : ℤ) : Config := ⟨"t", "k", "i", "", 2, 2, 4, 0, 0, 2, maxHot⟩

def bootBoth (hot paused : String) : List PoolAction :=
  [.start, .reconcile 0 none, .bootOk 0 hot, .bootOk 1 paused]

theorem indexed_bootBoth :
    ∃ p, Run Pool.step Pool.FreshIds (.newPool (smallConfig 2)) (bootBoth "a" "b") p ∧
      p.Indexed ∧ p.availableHot = [0] ∧ p.availablePaused = [1] := by
  exact Run.exists_of_exec _ (by decide +kernel) fun p hrun hp ↦
    ⟨(Pool.indexed_of_freshIds hrun).1, hp⟩

/-- **An id comes in again.** The entry in the map is paused and not available, and the one that is
available is not in the map. -/
theorem not_indexed_bootBoth :
    ∃ p, Run Pool.step anyStep (.newPool (smallConfig 2)) (bootBoth "a" "a") p ∧ ¬ p.Indexed := by
  refine Run.exists_of_exec
    (fun p ↦ (p.Filed 1 ∧ (p.entry 1).state = .paused) ∧ p.availablePaused = [])
    (by decide +kernel) fun p hrun ⟨hfiled, hpaused⟩ h ↦ ?_
  nomatch hpaused ▸ (h.paused 1).mpr hfiled

end Gocracker.Sandboxes
