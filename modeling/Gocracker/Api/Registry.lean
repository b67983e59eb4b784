import Gocracker.Transition.Run
import Gocracker.Transition.Custody

/-!
# The registry of the API server

The server keeps its VMs in a map, by id. A VM comes into the map when the call that has started it
registers it: an asynchronous run in the background, with an entry that says that the VM is starting
put there by its handler; a run that the client waits for; a clone; and the two ways a migration
ends. It leaves the map when it has stopped and `cleanStopped` comes along.

## What may come between

Each access to the map holds the server's lock, and that is all. An id is the time modulo 100000, so
two calls may draw the same one. The background part of an asynchronous run may be done before the
handler has put its entry into the map. A migration looks whether its id is free, and registers it
later. And the id under which a VM is registered is the one its start function returns: for a VM
restored by a worker that is the id in the snapshot, not the one that was drawn.

As in the sandbox manager the VMs are in the custody of the calls and of the map; here a call also
*claims* the id under which it is going to register, and awaits a certain entry there.
-/

namespace Gocracker

open Transition List Option Function

/-! ## Entries and calls -/

/-- The states of an entry that has no VM yet. -/
inductive PendingState where
  | starting
  /-- It failed before it was registered. -/
  | stopped
  deriving DecidableEq

/-- A `vmEntry`: one without a handle, with the messages of its events, or one with a handle. -/
inductive VMEntry where
  | pending (state : PendingState) (events : List String)
  | live (handle : ℕ)
  deriving DecidableEq

def newPendingVMEntry : VMEntry := .pending .starting ["VM accepted by API", "VM is booting"]

/-- A VM that was returned by a start function: the id its caller was told, and whether it runs. -/
structure ApiHandle where
  caller : String
  stopped : Bool
  deriving DecidableEq

/-- What a VM is created for. -/
inductive ApiKind where
  /-- `handleRun` without waiting. -/
  | async
  /-- `handleRun`, the client waits. -/
  | wait
  | clone
  /-- `handleMigrationFinalize` and `handleMigrationLoad`. -/
  | migration
  deriving DecidableEq

inductive ApiStage where
  /-- The VM is being started. -/
  | booting
  /-- The start function has returned, with this id. -/
  | booted (handle : ℕ) (resultID : String)
  /-- It failed, and this is still to be noted in the entry. -/
  | failed (error : String)
  /-- A migration has found the id to be free. -/
  | checked (handle : ℕ) (resultID : String)
  /-- A clone is registered, and is being adapted to its network. -/
  | registered (handle : ℕ) (resultID : String)
  /-- That has failed: the entry was deleted, the VM is to be stopped. -/
  | dropped (handle : ℕ)
  /-- With the VM that was registered, if any. -/
  | finished (handle : Option ℕ)
  deriving DecidableEq

/-- A call in progress, for an id. -/
structure ApiCall where
  kind : ApiKind
  id : String
  stage : ApiStage
  /-- The handler of an asynchronous run has still to put its entry into the map. -/
  announcing : Bool
  deriving DecidableEq

/-- The table of VMs, the VMs that were made, and the calls in progress. -/
structure Registry where
  vms : String → Option VMEntry
  handles : List ApiHandle
  calls : List ApiCall
  /-- A registration has replaced the entry of another VM that runs. -/
  replaced : Bool

/-- What happens next: to one call, or to one VM. -/
inductive ApiEvent where
  | start (kind : ApiKind) (id : String)
  | announce (i : ℕ)
  | bootOk (i : ℕ) (resultID : String)
  | bootError (i : ℕ) (error : String)
  /-- `attachComposeStackResources` fails, and the VM is stopped. -/
  | attachError (i : ℕ) (error : String)
  | check (i : ℕ)
  | register (i : ℕ)
  | markFailed (i : ℕ)
  | cloneDone (i : ℕ)
  /-- `stopAndUnregisterVM`, which deletes the entry first. -/
  | unregister (i : ℕ)
  | stopDropped (i : ℕ)
  /-- `handleStopVM`. -/
  | stop (id : String)
  /-- A VM ends of its own accord. -/
  | halt (n : ℕ)
  | cleanStopped

namespace Registry

def init : Registry where
  vms := fun _ ↦ none
  handles := []
  calls := []
  replaced := false

variable (r : Registry)

/-- A VM that was made and is not stopped. -/
def running (n : ℕ) : Bool := r.handles[n]?.any (!·.stopped)

def setCall (i : ℕ) (c : ApiCall) : Registry := { r with calls := r.calls.set i c }

/-- To stop a VM twice does nothing. -/
def stopHandle (n : ℕ) : Registry :=
  { r with handles := r.handles.modify n fun h ↦ { h with stopped := true } }

/-- Does the entry belong to a VM that runs, and that is not the one with the given entry? -/
def ownedByOther (entry : VMEntry) : Option VMEntry → Bool
  | some (.live n) => r.running n && entry != .live n
  | _ => false

/-- `registerVMEntry`: whatever is there is replaced. -/
def registerVMEntry (id : String) (entry : VMEntry) : Registry :=
  { r with
    vms := Function.update r.vms id (some entry)
    replaced := r.replaced || r.ownedByOther entry (r.vms id) }

def delete (id : String) : Registry :=
  { r with vms := Function.update r.vms id none }

/-- The entry stays, with the error, for somebody to read. -/
def markPendingVMStartFailed (id error : String) : Registry :=
  match r.vms id with
  | some (.pending _ events) =>
    let entry := VMEntry.pending .stopped (events ++ [error, "VM failed before registration"])
    { r with vms := Function.update r.vms id (some entry) }
  | _ => r

/-- An entry whose VM has stopped is dropped. -/
def unlessStopped : VMEntry → Option VMEntry
  | .live n => if r.running n then some (.live n) else none
  | entry => some entry

/-! ## Steps -/

/-- The start function has returned a VM. A client that waits is told the id it has returned. -/
def bootOk (i : ℕ) (c : ApiCall) (resultID : String) : Registry :=
  { r.setCall i { c with stage := .booted r.handles.length resultID } with
    handles := r.handles ++ [⟨if c.kind = .async then c.id else resultID, false⟩] }

/-- A failure, which is noted in the entry if there is to be one. -/
def fail (i : ℕ) (c : ApiCall) (error : String) : Registry :=
  r.setCall i { c with stage := if c.kind = .async then .failed error else .finished none }

def step : ApiEvent → Option Registry
  | .start kind id => some { r with calls := r.calls ++ [⟨kind, id, .booting, kind = .async⟩] }
  | .announce i =>
    match r.calls[i]? with
    | some c =>
      if c.announcing then
        some ((r.registerVMEntry c.id newPendingVMEntry).setCall i { c with announcing := false })
      else none
    | none => none
  | .bootOk i resultID =>
    match r.calls[i]? with
    | some c => if c.stage = .booting then some (r.bootOk i c resultID) else none
    | none => none
  | .bootError i error =>
    match r.calls[i]? with
    | some c => if c.stage = .booting then some (r.fail i c error) else none
    | none => none
  | .attachError i error =>
    match r.calls[i]? with
    | some ⟨kind, id, .booted n resultID, announcing⟩ =>
      if kind = .migration then none
      else
        some ((r.stopHandle n).fail i ⟨kind, id, .booted n resultID, announcing⟩
          ("attach compose network: " ++ error))
    | _ => none
  | .check i =>
    match r.calls[i]? with
    | some ⟨.migration, id, .booted n resultID, announcing⟩ =>
      match r.vms resultID with
      -- "VM already exists on target"
      | some _ => some ((r.stopHandle n).setCall i ⟨.migration, id, .finished none, announcing⟩)
      | none => some (r.setCall i ⟨.migration, id, .checked n resultID, announcing⟩)
    | _ => none
  | .register i =>
    match r.calls[i]? with
    | some ⟨.clone, id, .booted n resultID, announcing⟩ =>
      some ((r.registerVMEntry resultID (.live n)).setCall i
        ⟨.clone, id, .registered n resultID, announcing⟩)
    | some ⟨.migration, id, .checked n resultID, announcing⟩ =>
      some ((r.registerVMEntry resultID (.live n)).setCall i
        ⟨.migration, id, .finished (some n), announcing⟩)
    | some ⟨kind, id, .booted n resultID, announcing⟩ =>
      if kind = .migration then none
      else
        some ((r.registerVMEntry resultID (.live n)).setCall i
          ⟨kind, id, .finished (some n), announcing⟩)
    | _ => none
  | .markFailed i =>
    match r.calls[i]? with
    | some ⟨kind, id, .failed error, announcing⟩ =>
      some ((r.markPendingVMStartFailed id error).setCall i ⟨kind, id, .finished none, announcing⟩)
    | _ => none
  | .cloneDone i =>
    match r.calls[i]? with
    | some ⟨kind, id, .registered n _, announcing⟩ =>
      some (r.setCall i ⟨kind, id, .finished (some n), announcing⟩)
    | _ => none
  | .unregister i =>
    match r.calls[i]? with
    | some ⟨kind, id, .registered _ resultID, announcing⟩ =>
      match r.vms resultID with
      | some (.live n) => some ((r.delete resultID).setCall i ⟨kind, id, .dropped n, announcing⟩)
      | _ => some ((r.delete resultID).setCall i ⟨kind, id, .finished none, announcing⟩)
    | _ => none
  | .stopDropped i =>
    match r.calls[i]? with
    | some ⟨kind, id, .dropped n, announcing⟩ =>
      some ((r.stopHandle n).setCall i ⟨kind, id, .finished none, announcing⟩)
    | _ => none
  | .stop id =>
    match r.vms id with
    | some (.live n) => some (r.stopHandle n)
    -- "VM not found", or "VM is still starting"
    | _ => some r
  | .halt n => some (r.stopHandle n)
  | .cleanStopped => some { r with vms := fun id ↦ (r.vms id).bind r.unlessStopped }

end Registry

/-! ## Nothing is lost -/

namespace ApiCall

/-- The VM that a call has made and not given away. -/
def hand (c : ApiCall) : Option ℕ :=
  match c.stage with
  | .booted n _ | .checked n _ | .dropped n => some n
  | _ => none

/-- The id at which the call is going to change the map. -/
def claims (c : ApiCall) : Option String :=
  match c.stage with
  | .booting => if c.kind = .migration then none else some c.id
  | .booted _ resultID => some resultID
  | .failed _ => some c.id
  | .checked _ resultID | .registered _ resultID => some resultID
  | .dropped _ | .finished _ => none

/-- An asynchronous run is over, and has no VM. -/
def Failed (c : ApiCall) : Prop :=
  c.kind = .async ∧ c.stage = .finished none ∧ c.announcing = false

end ApiCall

namespace Registry

/-- No VM is lost, and no entry is left behind. -/
structure NothingLost (r : Registry) : Prop where
  /-- A VM that runs, and is not in the hands of a call, is found under the id its caller was
  told. -/
  reachable : ∀ n h, r.handles[n]? = some h → h.stopped = false →
    (∀ c ∈ r.calls, c.hand ≠ some n) → r.vms h.caller = some (.live n)
  kept : r.replaced = false
  /-- What is said to be starting is going to be changed by an asynchronous run. -/
  updated : ∀ id events, r.vms id = some (.pending .starting events) →
    ∃ c ∈ r.calls, c.kind = .async ∧ c.claims = some id
  /-- The entry of an asynchronous run that has failed says so. -/
  failed : ∀ c ∈ r.calls, c.Failed → ∃ events, r.vms c.id = some (.pending .stopped events)

/-- The condition on a step: an id that is drawn is neither in the map nor claimed; a run or a clone
is registered under the id that was drawn, a migration under one that no other call claims; and the
handler of an asynchronous run is done with the map before the background part comes to it. -/
def Orderly (r : Registry) : ApiEvent → Prop
  | .start kind id => kind ≠ .migration → r.vms id = none ∧ ∀ c ∈ r.calls, c.claims ≠ some id
  | .bootOk i resultID => ∀ c ∈ r.calls[i]?,
    if c.kind = .migration then ∀ c' ∈ r.calls, c'.claims ≠ some resultID else resultID = c.id
  | .register i | .markFailed i => ∀ c ∈ r.calls[i]?, c.announcing = false
  | _ => True

instance (r : Registry) (e : ApiEvent) : Decidable (r.Orderly e) := by
  unfold Orderly
  split <;> infer_instance

/-! ## The invariant -/

/-- The VM of an entry that is not pending. -/
def liveHandle : Option VMEntry → Option ℕ
  | some (.live n) => some n
  | _ => none

/-- Where a VM can be. -/
inductive Place where
  | call (i : ℕ)
  | entry (id : String)

/-- Where a VM is: in the table, or in the hands of a call. -/
def At (r : Registry) (n : ℕ) : Place → Prop
  | .call i => r.calls[i]?.bind ApiCall.hand = some n
  | .entry id => liveHandle (r.vms id) = some n

/-- The id that the caller of a VM was told. -/
def caller (r : Registry) (n : ℕ) : Option String := r.handles[n]?.map ApiHandle.caller

end Registry

namespace ApiCall

/-- What a call knows about itself at each stage. -/
def Wf (c : ApiCall) : Prop :=
  match c.stage with
  | .booting => c.announcing = true → c.kind = .async
  | .booted _ resultID =>
    (c.announcing = true → c.kind = .async) ∧ (c.kind ≠ .migration → resultID = c.id)
  | .failed _ => c.kind = .async
  | .checked _ _ => c.kind = .migration ∧ c.announcing = false
  | .registered _ _ | .dropped _ => c.kind = .clone ∧ c.announcing = false
  | .finished _ => c.announcing = false

variable (c : ApiCall) (entry : Option VMEntry)

/-- The entry a call awaits at the id it claims, before it has registered anything. -/
def AwaitsFirst : Prop :=
  match c.kind with
  | .async =>
    if c.announcing then entry = none
    else ∃ events, entry = some (.pending .starting events)
  | .migration => True
  | _ => entry = none

/-- The entry a call awaits at the id it claims. -/
def Awaits : Prop :=
  match c.stage with
  | .checked _ _ => entry = none
  | .registered n _ => entry = none ∨ entry = some (.live n)
  | .dropped _ | .finished _ => True
  | _ => c.AwaitsFirst entry

end ApiCall

/-- **The invariant of the registry.** -/
structure RegistryInv (r : Registry) : Prop where
  custody : Custody r.At (r.running · = true)
  wf : ∀ c ∈ r.calls, c.Wf
  single : ∀ {i j : ℕ} {id}, r.calls[i]?.bind ApiCall.claims = some id →
    r.calls[j]?.bind ApiCall.claims = some id → i = j
  awaits : ∀ c ∈ r.calls, ∀ id ∈ c.claims, c.Awaits (r.vms id)
  /-- A VM in the hands of a call is going to be registered under the id its caller is told. -/
  held : ∀ c ∈ r.calls, ∀ n ∈ c.hand, n < r.handles.length ∧ ∀ id ∈ c.claims, r.caller n = some id
  entries : ∀ {id n}, r.vms id = some (.live n) → r.caller n = some id
  kept : r.replaced = false
  updated : ∀ id events, r.vms id = some (.pending .starting events) →
    ∃ c ∈ r.calls, c.kind = .async ∧ c.claims = some id
  failed : ∀ c ∈ r.calls, c.Failed → ∃ events, r.vms c.id = some (.pending .stopped events)

namespace Registry

theorem liveHandle_eq_some {entry : Option VMEntry} {n : ℕ} :
    liveHandle entry = some n ↔ entry = some (.live n) := by
  unfold liveHandle
  split
  · simp
  rename_i hlive
  constructor
  · intro h
    cases h
  · intro h
    exact absurd h (hlive n)

variable {r : Registry}

theorem running_iff {n : ℕ} :
    r.running n = true ↔ ∃ h, r.handles[n]? = some h ∧ h.stopped = false := by
  simp [running, Option.any_eq_true]

theorem running_stopHandle {m n : ℕ} :
    (r.stopHandle m).running n = true ↔ n ≠ m ∧ r.running n = true := by
  rw [running_iff, running_iff, stopHandle]
  by_cases hnm : n = m
  · subst hnm
    simp [map_eq_some_iff]
  · rw [getElem?_modify_ne _ _ (Ne.symm hnm)]
    simp [hnm]

@[simp] theorem caller_stopHandle (r : Registry) (m n : ℕ) :
    (r.stopHandle m).caller n = r.caller n := by
  rw [caller, caller, stopHandle]
  by_cases hnm : n = m
  · subst hnm
    rw [getElem?_modify_eq]
    cases r.handles[n]? with
    | none | some => rfl
  · rw [getElem?_modify_ne _ _ (Ne.symm hnm)]

/-- `cleanStopped` leaves an entry as it is, or removes it with its VM. -/
theorem bind_unlessStopped (r : Registry) (entry : Option VMEntry) :
    entry.bind r.unlessStopped = entry ∨
      (entry.bind r.unlessStopped = none ∧ ∃ n, entry = some (.live n) ∧ r.running n = false) := by
  match entry with
  | none | some (.pending state events) => exact .inl rfl
  | some (.live n) =>
    rw [bind_some, unlessStopped]
    split_ifs with hstopped
    · exact .inl rfl
    · exact .inr ⟨rfl, n, rfl, by simpa using hstopped⟩

theorem registerVMEntry_of_not_live {id : String} (h : liveHandle (r.vms id) = none)
    (entry : VMEntry) :
    r.registerVMEntry id entry = { r with vms := Function.update r.vms id (some entry) } := by
  have hother : r.ownedByOther entry (r.vms id) = false := by
    match hvms : r.vms id with
    | none | some (.pending state events) => rfl
    | some (.live n) =>
      rw [hvms] at h
      nomatch h
  rw [registerVMEntry, hother, Bool.or_false]

section Places

variable (r : Registry) {i n : ℕ} {c : ApiCall}

theorem at_setCall (hi : r.calls[i]? = some c) (c' : ApiCall) :
    Overwrites r.At (.call i) c'.hand (r.setCall i c').At := by
  intro n p
  cases p with
  | call j =>
    simp only [At, setCall, bind_getElem?_set hi]
    by_cases hij : j = i <;> simp [hij]
  | entry => simp [At, setCall]

theorem at_concat (c : ApiCall) :
    Overwrites r.At (.call r.calls.length) c.hand { r with calls := r.calls ++ [c] }.At := by
  intro n p
  cases p with
  | call j =>
    simp only [At, bind_getElem?_concat]
    by_cases hj : j = r.calls.length <;> simp [hj]
  | entry => simp [At]

theorem at_update (id : String) (entry : Option VMEntry) :
    Overwrites r.At (.entry id) (liveHandle entry)
      { r with vms := Function.update r.vms id entry }.At := by
  intro n p
  cases p with
  | entry id' => by_cases hid : id' = id <;> simp [At, hid]
  | call => simp [At]

variable {r}

theorem at_call_iff (hi : r.calls[i]? = some c) : r.At n (.call i) ↔ c.hand = some n := by
  rw [At, hi, bind_some]

end Places

end Registry

variable {c : ApiCall}

/-- A call whose handler is not done yet is that of an asynchronous run, and has not ended. -/
theorem ApiCall.Wf.of_announcing (h : c.Wf) (hannounces : c.announcing = true) :
    c.kind = .async ∧ c.claims = some c.id ∧ (∀ n, c.stage ≠ .finished n) ∧
      ∀ b entry, { c with announcing := b }.Awaits entry ↔
        { c with announcing := b }.AwaitsFirst entry := by
  obtain ⟨kind, id, stage, announcing⟩ := c
  obtain rfl : announcing = true := hannounces
  cases stage with
  | booting =>
    obtain rfl : kind = .async := h rfl
    exact ⟨rfl, rfl, by simp, fun _ _ ↦ Iff.rfl⟩
  | booted n resultID =>
    obtain rfl : kind = .async := h.1 rfl
    obtain rfl : resultID = id := h.2 (by simp)
    exact ⟨rfl, rfl, by simp, fun _ _ ↦ Iff.rfl⟩
  | failed error =>
    obtain rfl : kind = .async := h
    exact ⟨rfl, rfl, by simp, fun _ _ ↦ Iff.rfl⟩
  | checked | registered | dropped => nomatch h.2
  | finished n => nomatch h

theorem ApiCall.Wf.announced (h : c.Wf) : { c with announcing := false }.Wf := by
  obtain ⟨kind, id, stage, announcing⟩ := c
  cases stage with
  | booting => nofun
  | booted n resultID => exact ⟨nofun, h.2⟩
  | failed error => exact h
  | checked | registered | dropped => exact ⟨h.1, rfl⟩
  | finished n => rfl

theorem ApiCall.AwaitsFirst.none_of_live {n : ℕ}
    (h : c.AwaitsFirst (some (.live n))) : c.AwaitsFirst none := by
  obtain ⟨kind, id, stage, announcing⟩ := c
  cases kind with
  | async => cases announcing <;> simp [ApiCall.AwaitsFirst] at h
  | wait | clone => rfl
  | migration => trivial

/-- A call that has found a VM at its id is content with finding nothing. -/
theorem ApiCall.Awaits.none_of_live {n : ℕ} (h : c.Awaits (some (.live n))) : c.Awaits none := by
  obtain ⟨kind, id, stage, announcing⟩ := c
  cases stage with
  | booting | booted | failed => exact AwaitsFirst.none_of_live h
  | checked n resultID => rfl
  | registered n resultID => exact .inl rfl
  | dropped | finished => trivial

open Registry

namespace RegistryInv

variable {r : Registry} {i : ℕ} {c c' : ApiCall} {id : String}

theorem init : RegistryInv init where
  custody := {
    unique := by
      intro n p q hp
      cases p <;> nomatch hp
    placed := nofun }
  wf := nofun
  single := nofun
  awaits := nofun
  held := nofun
  entries := nofun
  kept := rfl
  updated := nofun
  failed := nofun

/-- **The invariant says that nothing is lost.** -/
theorem nothingLost (h : RegistryInv r) : r.NothingLost := by
  refine ⟨fun n vm hvm hruns hfree ↦ ?_, h.kept, h.updated, h.failed⟩
  obtain ⟨p, hp⟩ := h.custody.placed (running_iff.mpr ⟨vm, hvm, hruns⟩)
  cases p with
  | call i =>
    obtain ⟨c, hc, hhand⟩ := bind_eq_some_iff.mp hp
    exact absurd hhand (hfree c (mem_of_getElem? hc))
  | entry id =>
    have hentry := liveHandle_eq_some.mp hp
    have hcaller := h.entries hentry
    rw [caller, hvm, map_some, Option.some.injEq] at hcaller
    rw [hcaller]
    exact hentry

theorem stopHandle (h : RegistryInv r) (n : ℕ) : RegistryInv (r.stopHandle n) where
  custody := h.custody.congr Iff.rfl fun hx ↦ (running_stopHandle.mp hx).2
  wf := h.wf
  single := h.single
  awaits := h.awaits
  held := by
    intro c hc m hm
    obtain ⟨hlt, hcaller⟩ := h.held c hc m hm
    refine ⟨?_, fun id hid ↦ ?_⟩
    · rw [Registry.stopHandle, length_modify]
      exact hlt
    · rw [caller_stopHandle]
      exact hcaller id hid
  entries := by
    intro id m hm
    rw [caller_stopHandle]
    exact h.entries hm
  kept := h.kept
  updated := h.updated
  failed := h.failed

theorem cleanStopped (h : RegistryInv r) :
    RegistryInv { r with vms := fun id ↦ (r.vms id).bind r.unlessStopped } := by
  have hsub : ∀ {id entry}, (r.vms id).bind r.unlessStopped = some entry →
      r.vms id = some entry := by
    intro id entry hentry
    rcases r.bind_unlessStopped (r.vms id) with hsame | ⟨hnone, -⟩
    · exact hsame.symm.trans hentry
    · rw [hnone] at hentry
      nomatch hentry
  refine ⟨h.custody.mono ?_ ?_ fun hx ↦ hx, h.wf, h.single, ?_, h.held,
    fun hentry ↦ h.entries (hsub hentry), h.kept,
    fun id events hentry ↦ h.updated id events (hsub hentry), fun c hc hfailed ↦ ?_⟩
  · intro n p hp
    cases p with
    | call j => exact hp
    | entry id => exact liveHandle_eq_some.mpr (hsub (liveHandle_eq_some.mp hp))
  · intro n p hruns hp
    cases p with
    | call j => exact hp
    | entry id =>
      have hentry := liveHandle_eq_some.mp hp
      refine liveHandle_eq_some.mpr ?_
      rcases r.bind_unlessStopped (r.vms id) with hsame | ⟨-, m, hm, hstopped⟩
      · exact hsame.trans hentry
      rw [hentry, Option.some.injEq, VMEntry.live.injEq] at hm
      subst hm
      have hruns' : r.running n = true := hruns
      rw [hstopped] at hruns'
      nomatch hruns'
  · intro c hc id hid
    have hawaits := h.awaits c hc id hid
    change c.Awaits ((r.vms id).bind r.unlessStopped)
    rcases r.bind_unlessStopped (r.vms id) with hsame | ⟨hnone, n, hn, -⟩
    · rw [hsame]
      exact hawaits
    · rw [hn] at hawaits
      rw [hnone]
      exact hawaits.none_of_live
  · obtain ⟨events, hold⟩ := h.failed c hc hfailed
    refine ⟨events, ?_⟩
    rcases r.bind_unlessStopped (r.vms c.id) with hsame | ⟨-, n, hn, -⟩
    · exact hsame.trans hold
    · rw [hold] at hn
      nomatch hn

open ApiCall

theorem claims_ne (h : RegistryInv r) (hi : r.calls[i]? = some c)
    (hclaims : ∀ id ∈ c'.claims, c.claims = some id) {j : ℕ} (hj : j ≠ i)
    (hid : r.calls[j]?.bind claims = some id) : c'.claims ≠ some id := by
  intro hid'
  refine hj (h.single hid ?_)
  rw [hi]
  exact hclaims id hid'

/-- **A call goes on** without touching the map. It may let go of a VM that does not run. -/
theorem setCall (h : RegistryInv r) (hi : r.calls[i]? = some c)
    (hhand : ∀ n ∈ c'.hand, c.hand = some n)
    (hdrop : ∀ n ∈ c.hand, r.running n = true → c'.hand = some n)
    (hclaims : ∀ id ∈ c'.claims, c.claims = some id) (hwf : c'.Wf)
    (hawaits : ∀ id ∈ c'.claims, c'.Awaits (r.vms id))
    (hupdated : c.kind = .async → c'.kind = .async ∧ c'.claims = c.claims)
    (hfailed : ¬c'.Failed) : RegistryInv (r.setCall i c') := by
  have hat := r.at_setCall hi c'
  refine ⟨h.custody.mono (fun {n p} hp ↦ ?_) (fun {n p} hruns hp ↦ ?_) fun hx ↦ hx,
    forall_mem_set h.wf hwf, single_set hi h.single (h.claims_ne hi hclaims),
    forall_mem_set h.awaits hawaits, forall_mem_set h.held fun n hn ↦ ?_, h.entries, h.kept,
    fun id events hentry ↦ ?_, forall_mem_set h.failed fun hfailed' ↦ absurd hfailed' hfailed⟩
  · rcases (hat n p).mp hp with ⟨rfl, hn⟩ | ⟨-, hp⟩
    · exact (at_call_iff hi).mpr (hhand n hn)
    · exact hp
  · by_cases hcall : p = .call i
    · subst hcall
      exact (hat n _).mpr (.inl ⟨rfl, hdrop n ((at_call_iff hi).mp hp) hruns⟩)
    · exact (hat n p).mpr (.inr ⟨hcall, hp⟩)
  · obtain ⟨hlt, hcaller⟩ := h.held c (mem_of_getElem? hi) n (hhand n hn)
    exact ⟨hlt, fun id hid ↦ hcaller id (hclaims id hid)⟩
  · refine exists_mem_set hi (fun hc ↦ ?_) (h.updated id events hentry)
    obtain ⟨hasync', hclaims'⟩ := hupdated hc.1
    exact ⟨hasync', hclaims'.trans hc.2⟩

variable {entry : Option VMEntry} {n : ℕ} {kind : ApiKind}

section

variable (h : RegistryInv r)
include h

section

variable (hi : r.calls[i]? = some c)
include hi

theorem custody_setEntry (hhand : c'.hand = c.hand)
    (hlive : liveHandle entry = liveHandle (r.vms id)) : Custody
      { r with vms := Function.update r.vms id entry, calls := r.calls.set i c' : Registry }.At
      (r.running · = true) := by
  have hcall : Custody (r.setCall i c').At (r.running · = true) := by
    refine h.custody.rewrite (r.at_setCall hi c') (fun n ↦ ?_) fun hx ↦ hx
    rw [hhand, at_call_iff hi]
  refine hcall.rewrite ((r.setCall i c').at_update id entry) (fun n ↦ ?_) fun hx ↦ hx
  rw [hlive]
  rfl

theorem custody_register (hhand : c.hand = some n)
    (hhand' : c'.hand = none) (hlive : liveHandle (r.vms id) = none) : Custody
      { r with
        vms := Function.update r.vms id (some (.live n)), calls := r.calls.set i c' : Registry }.At
      (r.running · = true) := by
  refine h.custody.pass (hhand' ▸ r.at_setCall hi c')
    ((r.setCall i c').at_update id (some (.live n)))
    (fun m ↦ ?_) (fun m hm ↦ ?_) fun hx ↦ hx
  · rw [at_call_iff hi, hhand]
    rfl
  · cases hlive.symm.trans hm

theorem custody_unregister (hhand : c.hand = none)
    (hhand' : c'.hand = liveHandle (r.vms id)) : Custody
      { r with vms := Function.update r.vms id none, calls := r.calls.set i c' : Registry }.At
      (r.running · = true) := by
  refine h.custody.pass (r.at_update id none) ((r.delete id).at_setCall hi c')
    (fun m ↦ ?_) (fun m hm ↦ ?_) fun hx ↦ hx
  · rw [hhand']
    rfl
  · cases hhand.symm.trans ((at_call_iff hi).mp hm)

/-- **A call changes the entry at the id it claims.** Who has the VMs then is left open here. -/
theorem setEntry (hid : c.claims = some id)
    (hnot : ∀ events, r.vms id ≠ some (.pending .stopped events)) (hcustody : Custody
      { r with vms := Function.update r.vms id entry, calls := r.calls.set i c' : Registry }.At
      (r.running · = true))
    (hclaims : ∀ id' ∈ c'.claims, id' = id) (hwf : c'.Wf)
    (hawaits : c'.claims ≠ none → c'.Awaits entry)
    (hheld : ∀ n ∈ c'.hand, n < r.handles.length ∧ ∀ id' ∈ c'.claims, r.caller n = some id')
    (hentry : ∀ n, entry = some (.live n) → r.caller n = some id)
    (hupdated : ∀ events, entry = some (.pending .starting events) →
      c'.kind = .async ∧ c'.claims = some id)
    (hfailed : c'.Failed → c'.id = id ∧ ∃ events, entry = some (.pending .stopped events)) :
    RegistryInv { r with vms := Function.update r.vms id entry, calls := r.calls.set i c' } := by
  have hsame : ∀ id' ∈ c'.claims, c.claims = some id' :=
    fun id' hid' ↦ hid.trans (congrArg some (hclaims id' hid').symm)
  refine ⟨hcustody, forall_mem_set h.wf hwf, single_set hi h.single (h.claims_ne hi hsame),
    fun d hd id' hid' ↦ ?_, forall_mem_set h.held hheld, fun {id' n} hn ↦ ?_, h.kept,
    fun id' events hn ↦ ?_, forall_mem_set (fun d hd hdfailed ↦ ?_) fun hdfailed ↦ ?_⟩
  · rcases eq_or_getElem?_of_mem_set hd with rfl | ⟨j, hij, hj⟩
    · obtain rfl := hclaims id' hid'
      simp only [update_self]
      exact hawaits fun hnone ↦ nomatch hnone.symm.trans hid'
    -- No other call claims this id.
    have hne : id' ≠ id := by
      rintro rfl
      refine hij (h.single ?_ (by rw [hi]; exact hid))
      rw [hj]
      exact hid'
    simp only [update_of_ne hne]
    exact h.awaits d (mem_of_getElem? hj) id' hid'
  · rcases update_eq_some_iff.mp hn with ⟨rfl, hnew⟩ | ⟨-, hold⟩
    · exact hentry n hnew
    · exact h.entries hold
  · rcases update_eq_some_iff.mp hn with ⟨rfl, hnew⟩ | ⟨hne, hold⟩
    · exact ⟨c', mem_set_self hi c', hupdated events hnew⟩
    · refine exists_mem_set hi (fun hc ↦ ?_) (h.updated id' events hold)
      exact absurd (mem_unique hc.2 hid) hne
  · obtain ⟨events, hold⟩ := h.failed d hd hdfailed
    refine ⟨events, update_eq_some_iff.mpr (.inr ⟨?_, hold⟩)⟩
    intro heq
    exact hnot events (heq ▸ hold)
  · obtain ⟨rfl, hstopped⟩ := hfailed hdfailed
    simp only [update_self]
    exact hstopped

end

theorem start (hfree : kind ≠ .migration → r.vms id = none ∧ ∀ c ∈ r.calls, c.claims ≠ some id) :
    RegistryInv { r with calls := r.calls ++ [⟨kind, id, .booting, kind = .async⟩] } := by
  -- It claims the id only if that is free.
  have hclaims : ∀ {id'}, (⟨kind, id, .booting, kind = .async⟩ : ApiCall).claims = some id' →
      id' = id ∧ kind ≠ .migration := by
    intro id' hid'
    change (if kind = .migration then none else some id) = some id' at hid'
    split at hid'
    · nomatch hid'
    · rename_i hkind
      exact ⟨(Option.some.inj hid').symm, hkind⟩
  refine ⟨h.custody.rewrite (r.at_concat _) (fun n ↦ ?_) fun hx ↦ hx,
    forall_mem_concat h.wf fun hkind ↦ of_decide_eq_true hkind,
    single_concat h.single fun d hd id' hid' ↦ ?_, forall_mem_concat h.awaits fun id' hid' ↦ ?_,
    forall_mem_concat h.held nofun, h.entries, h.kept, fun id' events hentry ↦ ?_,
    forall_mem_concat h.failed fun hfailed ↦ nomatch hfailed.2.1⟩
  · rw [Registry.At, bind_getElem?_length]
    rfl
  · obtain ⟨rfl, hkind⟩ := hclaims hid'
    exact (hfree hkind).2 d hd
  · obtain ⟨rfl, hkind⟩ := hclaims hid'
    simp only [(hfree hkind).1]
    cases kind with
    | async | wait | clone => rfl
    | migration => trivial
  · obtain ⟨d, hd, hd'⟩ := h.updated id' events hentry
    exact ⟨d, mem_append_left _ hd, hd'⟩

theorem lt_of_at {p : Registry.Place} (hp : r.At n p) : n < r.handles.length := by
  cases p with
  | call j =>
    obtain ⟨d, hd, hn⟩ := bind_eq_some_iff.mp hp
    exact (h.held d (mem_of_getElem? hd) n hn).1
  | entry id =>
    obtain ⟨vm, hvm, -⟩ := map_eq_some_iff.mp (h.entries (liveHandle_eq_some.mp hp))
    exact (List.getElem?_eq_some_iff.mp hvm).1

theorem take (hi : r.calls[i]? = some c) (hhand : c.hand = none) {vm : ApiHandle}
    (hhand' : c'.hand = some r.handles.length) (hclaims : c'.claims = some vm.caller)
    (hapart : ∀ {j : ℕ}, j ≠ i → r.calls[j]?.bind claims ≠ some vm.caller) (hwf : c'.Wf)
    (hawaits : c'.Awaits (r.vms vm.caller))
    (hupdated : c.kind = .async → c'.kind = .async ∧ c'.claims = c.claims) (hfailed : ¬ c'.Failed) :
    RegistryInv { r.setCall i c' with handles := r.handles ++ [vm] } := by
  have hcaller : ∀ {n id'}, r.caller n = some id' →
      (r.handles ++ [vm])[n]?.map ApiHandle.caller = some id' := by
    intro n id' hn
    obtain ⟨vm, hvm, hvmid⟩ := map_eq_some_iff.mp hn
    rw [getElem?_append_left (List.getElem?_eq_some_iff.mp hvm).1, hvm, map_some, hvmid]
  have hlen : (r.handles ++ [vm]).length = r.handles.length + 1 := by
    rw [length_append, length_singleton]
  have hat := r.at_setCall hi c'
  refine ⟨h.custody.move r.handles.length (.call i) ?_ (fun {n p} hp ↦ ?_) (fun {n p} hn _ hp ↦ ?_)
      fun {n} hn hruns ↦ ?_, forall_mem_set h.wf hwf,
    single_set hi h.single fun hj hid hid' ↦ hapart hj (hid.trans (hid'.symm.trans hclaims)),
    forall_mem_set h.awaits fun id' hid' ↦ ?_, forall_mem_set (fun d hd n hn ↦ ?_) fun n hn ↦ ?_,
    fun hentry ↦ hcaller (h.entries hentry), h.kept, fun id' events hentry ↦ ?_,
    forall_mem_set h.failed fun hfailed' ↦ absurd hfailed' hfailed⟩
  · exact (hat _ _).mpr (.inl ⟨rfl, hhand'⟩)
  · rcases (hat n p).mp hp with ⟨rfl, hn⟩ | ⟨-, hp⟩
    · exact .inl ⟨mem_unique hn hhand', rfl⟩
    · exact .inr ⟨Nat.ne_of_lt (h.lt_of_at hp), hp⟩
  · refine (hat n p).mpr (.inr ⟨?_, hp⟩)
    rintro rfl
    cases hhand.symm.trans ((at_call_iff hi).mp hp)
  · obtain ⟨vm', hvm, hvmruns⟩ := running_iff.mp hruns
    refine running_iff.mpr ⟨vm', ?_, hvmruns⟩
    simp only [getElem?_append] at hvm
    split at hvm
    · exact hvm
    · rw [getElem?_singleton, if_neg (by omega)] at hvm
      cases hvm
  · obtain rfl := mem_unique hclaims hid'
    exact hawaits
  · obtain ⟨hlt, hids⟩ := h.held d hd n hn
    exact ⟨hlen ▸ Nat.lt_succ_of_lt hlt, fun id' hid' ↦ hcaller (hids id' hid')⟩
  · obtain rfl := mem_unique hhand' hn
    refine ⟨hlen ▸ Nat.lt_succ_self _, fun id' hid' ↦ ?_⟩
    rw [caller, getElem?_concat_length, map_some, ← hclaims, hid']
  · refine exists_mem_set hi (fun hdone ↦ ?_) (h.updated id' events hentry)
    obtain ⟨hasync, hclaims'⟩ := hupdated hdone.1
    exact ⟨hasync, hclaims'.trans hdone.2⟩

variable {resultID : String}

/-- **A VM is started**, and is in the hands of the call that has started it. -/
theorem bootOk (hi : r.calls[i]? = some c) (hstage : c.stage = .booting)
    (hid : if c.kind = .migration then ∀ d ∈ r.calls, d.claims ≠ some resultID
      else resultID = c.id) : RegistryInv (r.bootOk i c resultID) := by
  have hc := mem_of_getElem? hi
  have hhand : c.hand = none := by rw [hand, hstage]
  have hclaims : c.kind ≠ .migration → c.claims = some resultID := by
    intro hkind
    rw [if_neg hkind] at hid
    rw [claims, hstage, hid]
    exact if_neg hkind
  have hcaller : (if c.kind = .async then c.id else resultID) = resultID := by
    split_ifs with hasync
    · rw [hasync] at hid
      exact hid.symm
    · rfl
  rw [Registry.bootOk, hcaller]
  refine h.take hi hhand rfl rfl ?_ ?_ ?_ ?_ fun hfailed ↦ nomatch hfailed.2.1
  -- No other call claims the id.
  · intro j hij hj
    by_cases hkind : c.kind = .migration
    · rw [if_pos hkind] at hid
      obtain ⟨d, hd, hdid⟩ := bind_eq_some_iff.mp hj
      exact hid d (mem_of_getElem? hd) hdid
    · refine hij (h.single hj ?_)
      rw [hi]
      exact hclaims hkind
  · have hwf := h.wf c hc
    rw [ApiCall.Wf, hstage] at hwf
    refine ⟨hwf, fun hkind ↦ ?_⟩
    rw [if_neg hkind] at hid
    exact hid
  · change c.AwaitsFirst (r.vms resultID)
    by_cases hkind : c.kind = .migration
    · rw [ApiCall.AwaitsFirst, hkind]
      trivial
    · have hawaits := h.awaits c hc resultID (hclaims hkind)
      rw [ApiCall.Awaits, hstage] at hawaits
      exact hawaits
  · exact fun hasync ↦ ⟨hasync, (hclaims (by rw [hasync]; simp)).symm⟩

/-- **The handler of an asynchronous run puts its entry into the map.** -/
theorem announce (hi : r.calls[i]? = some c) (hannounces : c.announcing = true) :
    RegistryInv ((r.registerVMEntry c.id newPendingVMEntry).setCall i
      { c with announcing := false }) := by
  have hc := mem_of_getElem? hi
  obtain ⟨hasync, hid, hgoes, hfirst⟩ := (h.wf c hc).of_announcing hannounces
  have hfree : r.vms c.id = none := by
    have hawaits : c.AwaitsFirst (r.vms c.id) := (hfirst c.announcing _).mp (h.awaits c hc c.id hid)
    rw [ApiCall.AwaitsFirst, hasync] at hawaits
    simpa [hannounces] using hawaits
  rw [registerVMEntry_of_not_live (by rw [hfree]; rfl)]
  refine h.setEntry hi hid ?_ (h.custody_setEntry hi ?_ ?_) ?_ (h.wf c hc).announced ?_
    (h.held c hc) ?_ (fun _ _ ↦ ⟨hasync, hid⟩) ?_
  · intro events hstopped
    rw [hfree] at hstopped
    nomatch hstopped
  · rfl
  · rw [hfree]
    rfl
  · exact fun id' hid' ↦ mem_unique hid' hid
  · intro _
    rw [hfirst]
    simp only [hasync]
    exact ⟨_, rfl⟩
  · nofun
  · exact fun hfailed ↦ absurd hfailed.2.1 (hgoes none)

theorem register (hi : r.calls[i]? = some c) (hhand : c.hand = some n) (hid : c.claims = some id)
    (hold : r.vms id = none ∨ ∃ events, r.vms id = some (.pending .starting events))
    (hhand' : c'.hand = none) (hclaims : ∀ id' ∈ c'.claims, id' = id) (hwf : c'.Wf)
    (hawaits : c'.claims ≠ none → c'.Awaits (some (.live n))) (hfailed : ¬c'.Failed) :
    RegistryInv ((r.registerVMEntry id (.live n)).setCall i c') := by
  have hnotlive : liveHandle (r.vms id) = none := by
    rcases hold with hold | ⟨events, hold⟩ <;> rw [hold] <;> rfl
  obtain ⟨-, hcaller⟩ := h.held c (mem_of_getElem? hi) n hhand
  rw [registerVMEntry_of_not_live hnotlive]
  refine h.setEntry hi hid ?_ (h.custody_register hi hhand hhand' hnotlive) hclaims hwf hawaits
    ?_ ?_ ?_ fun hfailed' ↦ absurd hfailed' hfailed
  · intro events hstopped
    rcases hold with hold | ⟨events', hold⟩ <;> rw [hold] at hstopped <;>
      nomatch hstopped
  · intro m hm
    rw [hhand'] at hm
    nomatch hm
  · intro m hm
    rw [Option.some.injEq, VMEntry.live.injEq] at hm
    exact hm ▸ hcaller id hid
  · nofun

variable {announcing : Bool}

theorem markFailed {error : String}
    (hi : r.calls[i]? = some ⟨kind, id, .failed error, announcing⟩) (hdone : announcing = false) :
    RegistryInv ((r.markPendingVMStartFailed id error).setCall i
      ⟨kind, id, .finished none, announcing⟩) := by
  have hc := mem_of_getElem? hi
  obtain rfl : kind = .async := h.wf _ hc
  subst hdone
  obtain ⟨events, hold⟩ : ∃ events, r.vms id = some (.pending .starting events) :=
    h.awaits _ hc id rfl
  rw [markPendingVMStartFailed, hold]
  refine h.setEntry hi rfl ?_ (h.custody_setEntry hi ?_ ?_) ?_ rfl ?_ ?_ ?_ ?_ ?_
  · intro events' hstopped
    rw [hold] at hstopped
    nomatch hstopped
  · rfl
  · rw [hold]
    rfl
  · nofun
  · exact fun hclaims ↦ absurd rfl hclaims
  · nofun
  · nofun
  · nofun
  · exact fun _ ↦ ⟨rfl, _, rfl⟩

/-- **A clone is taken out of the map**, if it is still there. -/
theorem unregister (hi : r.calls[i]? = some ⟨kind, id, .registered n resultID, announcing⟩)
    (hhand : c'.hand = liveHandle (r.vms resultID)) (hclaims : c'.claims = none)
    (hwf : c'.Wf) (hfailed : ¬c'.Failed) : RegistryInv ((r.delete resultID).setCall i c') := by
  have hc := mem_of_getElem? hi
  have hawaits : r.vms resultID = none ∨ r.vms resultID = some (.live n) :=
    h.awaits _ hc resultID rfl
  refine h.setEntry hi rfl ?_ (h.custody_unregister hi rfl hhand) ?_ hwf ?_ ?_ ?_ ?_
    fun hfailed' ↦ absurd hfailed' hfailed
  · intro events hstopped
    rcases hawaits with hold | hold <;> rw [hold] at hstopped <;> nomatch hstopped
  · intro id' hid'
    rw [hclaims] at hid'
    nomatch hid'
  · exact fun hsome ↦ absurd hclaims hsome
  · intro m hm
    refine ⟨h.lt_of_at (p := .entry resultID) (hhand.symm.trans hm), fun id' hid' ↦ ?_⟩
    nomatch hclaims.symm.trans hid'
  · nofun
  · nofun

theorem fail (hi : r.calls[i]? = some c)
    (hearly : c.stage = .booting ∨ ∃ n resultID, c.stage = .booted n resultID ∧ r.running n = false)
    (error : String) : RegistryInv (r.fail i c error) := by
  have hc := mem_of_getElem? hi
  have hwf := h.wf c hc
  have hstopped : ∀ n ∈ c.hand, r.running n = false := by
    intro n hn
    rcases hearly with hstage | ⟨m, resultID, hstage, hm⟩
    · rw [hand, hstage] at hn
      nomatch hn
    · rw [hand, hstage] at hn
      obtain ⟨⟩ := hn
      exact hm
  have hdrop : ∀ n ∈ c.hand, r.running n = true → none = some n := by
    intro n hn hruns
    rw [hstopped n hn] at hruns
    nomatch hruns
  rw [Registry.fail]
  by_cases hasync : c.kind = .async
  · rw [if_pos hasync]
    have hid : c.claims = some c.id := by
      rcases hearly with hstage | ⟨m, resultID, hstage, -⟩
      · rw [claims, hstage, hasync]
        exact if_neg (by simp)
      · rw [ApiCall.Wf, hstage] at hwf
        rw [claims, hstage, hwf.2 (by rw [hasync]; simp)]
    have hfirst : c.AwaitsFirst (r.vms c.id) := by
      have hawaits := h.awaits c hc c.id hid
      rcases hearly with hstage | ⟨m, resultID, hstage, -⟩ <;>
        rw [ApiCall.Awaits, hstage] at hawaits <;> exact hawaits
    refine h.setCall hi nofun hdrop ?_ hasync ?_
      (fun _ ↦ ⟨hasync, hid.symm⟩) fun hfailed ↦ nomatch hfailed.2.1
    · exact fun id' hid' ↦ hid.trans hid'
    · rintro _ ⟨rfl⟩
      exact hfirst
  · rw [if_neg hasync]
    have hdone : c.announcing = false := by
      by_contra hannounces
      exact hasync (hwf.of_announcing (by simpa using hannounces)).1
    exact h.setCall hi nofun hdrop nofun hdone nofun (fun hasync' ↦ absurd hasync' hasync)
      fun hfailed ↦ hasync hfailed.1

theorem finishStopped (hi : r.calls[i]? = some c)
    (hhand : c.hand = some n) (hkind : c.kind ≠ .async) (hstage : c'.stage = .finished none)
    (hkind' : c'.kind = c.kind) (hdone : c'.announcing = false) :
    RegistryInv ((r.stopHandle n).setCall i c') := by
  have hhand' : c'.hand = none := by rw [hand, hstage]
  have hclaims' : c'.claims = none := by rw [claims, hstage]
  refine (h.stopHandle n).setCall hi ?_ ?_ ?_ ?_ ?_ (fun hasync ↦ absurd hasync hkind) ?_
  · intro m hm
    rw [hhand'] at hm
    nomatch hm
  · intro m hm hruns
    obtain rfl := mem_unique hhand hm
    exact absurd rfl (running_stopHandle.mp hruns).1
  · intro id' hid'
    rw [hclaims'] at hid'
    nomatch hid'
  · rw [ApiCall.Wf, hstage]
    exact hdone
  · intro id' hid'
    rw [hclaims'] at hid'
    nomatch hid'
  · exact fun hfailed ↦ hkind (hkind'.symm.trans hfailed.1)

/-- A migration does not announce its VM. -/
theorem done_of_migration
    (hi : r.calls[i]? = some ⟨.migration, id, .booted n resultID, announcing⟩) :
    announcing = false := by
  by_contra hannounces
  have hwf := h.wf _ (mem_of_getElem? hi)
  exact absurd (hwf.of_announcing (by simpa using hannounces)).1 (by simp)

/-- **Every orderly step keeps the invariant.** -/
theorem step {r' : Registry} {e : ApiEvent} (hok : r.Orderly e)
    (hstep : r.step e = some r') : RegistryInv r' := by
  revert hstep
  fun_cases Registry.step r e with rintro ⟨⟩
  | case1 kind id => exact h.start hok
  | case2 i c hi hannounces => exact h.announce hi hannounces
  | case5 i resultID c hi hstage => exact h.bootOk hi hstage (hok c hi)
  | case8 i error c hi hstage => exact h.fail hi (.inl hstage) error
  | case12 i error kind id n resultID announcing hi hkind =>
    refine (h.stopHandle n).fail hi (.inr ⟨n, resultID, rfl, ?_⟩) _
    by_contra hruns
    exact (running_stopHandle.mp (by simpa using hruns)).1 rfl
  | case14 i id n resultID announcing hi =>
    exact h.finishStopped hi rfl (by simp) rfl rfl (h.done_of_migration hi)
  | case15 i id n resultID announcing hi hfree =>
    refine h.setCall hi (fun m hm ↦ hm) (fun m hm _ ↦ hm) (fun id' hid' ↦ hid')
      ⟨rfl, h.done_of_migration hi⟩ ?_ (nofun) fun hfailed ↦ nomatch hfailed.1
    rintro _ ⟨rfl⟩
    exact hfree
  | case17 i id n resultID announcing hi =>
    have hdone : announcing = false := hok _ hi
    have hfree : r.vms resultID = none := h.awaits _ (mem_of_getElem? hi) resultID rfl
    refine h.register hi rfl rfl (.inl hfree) rfl ?_ ⟨rfl, hdone⟩ (fun _ ↦ .inr rfl)
      fun hfailed ↦ nomatch hfailed.1
    exact fun id' hid' ↦ (Option.some.inj hid').symm
  | case18 i id n resultID announcing hi =>
    have hc := mem_of_getElem? hi
    have hfree : r.vms resultID = none := h.awaits _ hc resultID rfl
    exact h.register hi rfl rfl (.inl hfree) rfl nofun (h.wf _ hc).2
      (fun hclaims ↦ absurd rfl hclaims) fun hfailed ↦ nomatch hfailed.1
  | case20 i kind id n resultID announcing hclone hi hkind =>
    obtain rfl : announcing = false := hok _ hi
    have hawaits : ApiCall.AwaitsFirst ⟨kind, id, .booted n resultID, false⟩ (r.vms resultID) :=
      h.awaits _ (mem_of_getElem? hi) resultID rfl
    have hold : r.vms resultID = none ∨
        ∃ events, r.vms resultID = some (.pending .starting events) := by
      cases kind with
      | async => exact .inr hawaits
      | wait | clone => exact .inl hawaits
      | migration => exact absurd rfl hkind
    exact h.register hi rfl rfl hold rfl nofun rfl (fun hclaims ↦ absurd rfl hclaims)
      fun hfailed ↦ nomatch hfailed.2.1
  | case22 i kind id error announcing hi => exact h.markFailed hi (hok _ hi)
  | case24 i kind id n resultID announcing hi =>
    obtain ⟨rfl, hdone⟩ := h.wf _ (mem_of_getElem? hi)
    exact h.setCall hi (fun m hm ↦ hm) (fun m hm _ ↦ hm) nofun hdone nofun (nofun)
      fun hfailed ↦ nomatch hfailed.1
  | case26 i kind id n resultID announcing hi m hm =>
    obtain ⟨rfl, hdone⟩ := h.wf _ (mem_of_getElem? hi)
    exact h.unregister hi (liveHandle_eq_some.mpr hm).symm rfl ⟨rfl, hdone⟩
      fun hfailed ↦ nomatch hfailed.1
  | case27 i kind id n resultID announcing hi hnone =>
    obtain ⟨rfl, hdone⟩ := h.wf _ (mem_of_getElem? hi)
    refine h.unregister hi (eq_none_iff_forall_ne_some.mpr fun m hm ↦ ?_).symm rfl hdone
      fun hfailed ↦ nomatch hfailed.1
    exact hnone m (liveHandle_eq_some.mp hm)
  | case29 i kind id n announcing hi =>
    obtain ⟨rfl, hdone⟩ := h.wf _ (mem_of_getElem? hi)
    exact h.finishStopped hi rfl (by simp) rfl rfl hdone
  | case31 id n hn | case33 n => exact h.stopHandle n
  | case32 id hnone => exact h
  | case34 => exact h.cleanStopped

end

end RegistryInv

/-- **The registry loses nothing**, in every orderly interleaving of calls. -/
theorem Registry.nothingLost_of_orderly {events : List ApiEvent} {r : Registry}
    (hrun : Run step Registry.Orderly .init events r) : r.NothingLost := by
  have hinv : RegistryInv r := hrun.invariant (fun _ _ _ hinv hok hstep ↦ hinv.step hok hstep) .init
  exact hinv.nothingLost

/-! ## Two interleavings -/

/-- An asynchronous run, a clone that is removed again, a run that fails, and a VM that is stopped
and whose entry is removed. -/
theorem Registry.nothingLost_of_orderly_four : ∃ r, Run step Registry.Orderly .init
        [.start .async "gc-1", .announce 0, .start .clone "gc-2", .bootOk 1 "gc-2",
          .bootOk 0 "gc-1", .register 1, .register 0, .unregister 1, .stopDropped 1,
          .start .async "gc-3", .bootError 2 "no kernel", .announce 2, .markFailed 2,
          .start .migration "", .bootOk 3 "vm", .check 3, .register 3, .stop "vm",
          .cleanStopped] r ∧ r.NothingLost := by
  refine Run.exists_of_exec (·.vms "gc-1" = some (.live 1)) (by decide +kernel) fun r hrun _ ↦ ?_
  exact nothingLost_of_orderly hrun

/-- **The background part of a run is done before its handler.** The entry of the VM is replaced by
one that says that the VM is starting, and nothing will change that. -/
theorem Registry.not_nothingLost_late : ∃ r, Run step anyStep .init
        [.start .async "gc-1", .bootOk 0 "gc-1", .register 0, .announce 0] r ∧
      ¬r.NothingLost := by
  refine Run.exists_of_exec (fun r ↦ r.handles[0]? = some ⟨"gc-1", false⟩ ∧
    (∀ c ∈ r.calls, c.hand ≠ some 0) ∧ r.vms "gc-1" = some newPendingVMEntry)
    (by decide +kernel) fun r hrun ⟨hhandle, hfree, hvms⟩ hnothing ↦ ?_
  -- The VM runs, and is not found.
  have hlive := hnothing.reachable 0 ⟨"gc-1", false⟩ hhandle rfl hfree
  rw [hvms] at hlive
  nomatch hlive

end Gocracker
