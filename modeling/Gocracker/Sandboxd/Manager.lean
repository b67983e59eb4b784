import Gocracker.Transition.Run
import Gocracker.Transition.Custody

/-!
# The sandbox manager

`Manager.Create` adds a record to the store, boots a VM, and puts the result of the boot into the
record. `Manager.Delete` takes the result out of the record, removes the record, and tears the VM
down. Each access to the store holds its lock; between the accesses the calls interleave.

## Who has the VM

A VM that was started is in the hands of the call that booted it, then in a record, then in the
hands of the call that deletes the record, and at last it is gone. That every VM is in exactly one
of these places is the invariant (`Custody`).

It depends on the record being there when the boot is over. The update of a record that has been
removed does nothing, and `Create` does not ask whether it did. So no call may delete a sandbox that
is still booting; and, since an id may be drawn twice, a sandbox may not be created under an id
whose removal is still to come.
-/

namespace Gocracker

open Transition List Option

/-! ## Records and calls -/

inductive SandboxState where
  | creating
  | ready
  | stopping
  | error
  deriving DecidableEq

/-- What `container.Run` returns. The VM is given by its number. -/
structure SandboxRunResult where
  vm : ℕ
  id : String
  guestIP : String
  deriving DecidableEq

structure Sandbox where
  id : String
  state : SandboxState
  image : String
  udsPath : String
  guestIP : String
  runtimeID : String
  error : String
  runResult : Option SandboxRunResult
  deriving DecidableEq

structure CreateSandboxRequest where
  image : String
  jailerOn : Bool

/-- Where a call of `Create` stands. -/
inductive CreateStage where
  /-- The record was added, the VM is being booted. -/
  | running
  /-- The VM runs, the record is still to be updated. -/
  | started (result : SandboxRunResult) (hostUDSPath : String)
  | failed (error : String)
  deriving DecidableEq

/-- Where a call of `Delete` stands, with the teardown it starts. -/
inductive DeleteStage where
  | taken (result : Option SandboxRunResult)
  | removed (result : SandboxRunResult)
  | stopped (result : SandboxRunResult)
  deriving DecidableEq

inductive SandboxCall where
  | create (id : String) (stage : CreateStage)
  | delete (id : String) (stage : DeleteStage)
  | returned
  deriving DecidableEq

namespace SandboxCall

def id? : SandboxCall → Option String
  | .create id _ | .delete id _ => some id
  | .returned => none

def creating : SandboxCall → Option String
  | .create id _ => some id
  | _ => none

/-- The sandbox whose record a call has still to remove. -/
def removing : SandboxCall → Option String
  | .delete id (.taken _) => some id
  | _ => none

/-- The VM in the hands of a call. -/
def vm : SandboxCall → Option ℕ
  | .create _ (.started result _) => some result.vm
  | .delete _ (.taken result) => result.map SandboxRunResult.vm
  | .delete _ (.removed result) | .delete _ (.stopped result) => some result.vm
  | _ => none

/-- How often the VM was stopped by the call that has it. -/
def stops : SandboxCall → ℕ
  | .delete _ (.stopped _) => 1
  | _ => 0

end SandboxCall

/-- The VM a record holds. -/
def Sandbox.vm (sb : Sandbox) : Option ℕ := sb.runResult.map SandboxRunResult.vm

/-- A VM that was started: for which sandbox, and how often it was stopped and closed. -/
structure SandboxVM where
  id : String
  stops : ℕ
  closes : ℕ
  deriving DecidableEq

/-- The records, the calls in progress, and the VMs that were made. -/
structure Manager where
  stateDir : String
  store : String → Option Sandbox
  calls : List SandboxCall
  vms : List SandboxVM

/-- The next step of a call, or a new call. -/
inductive SandboxEvent where
  | create (id : String) (req : CreateSandboxRequest)
  /-- `container.Run` returns a VM, whose socket is at the given path on the host. -/
  | runOk (i : ℕ) (runtimeID guestIP hostUDSPath : String)
  | runError (i : ℕ) (error : String)
  /-- The last update of `Create`. -/
  | createUpdate (i : ℕ)
  /-- The update of `Delete`. -/
  | delete (id : String)
  | deleteRemove (i : ℕ)
  | stopVM (i : ℕ)
  | closeVM (i : ℕ)

open SandboxCall

namespace Manager

def init (stateDir : String) : Manager where
  stateDir := stateDir
  store := fun _ ↦ none
  calls := []
  vms := []

variable (m : Manager)

/-- The path of the socket, in the jail if there is one. -/
def udsPath (id : String) (req : CreateSandboxRequest) : String :=
  if req.jailerOn then "/worker/sb-" ++ (id.drop 3).copy ++ ".sock"
  else m.stateDir ++ "/sandboxes/" ++ id ++ ".sock"

/-! ## The store -/

/-- `Store.Add`, if the id is not taken. -/
def add (sb : Sandbox) : Manager :=
  { m with store := Function.update m.store sb.id (some sb) }

/-- `Store.Update`. -/
def update (id : String) (fn : Sandbox → Sandbox) : Manager :=
  { m with store := Function.update m.store id ((m.store id).map fn) }

/-- `Store.Remove`. -/
def remove (id : String) : Manager :=
  { m with store := Function.update m.store id none }

def setCall (i : ℕ) (c : SandboxCall) : Manager := { m with calls := m.calls.set i c }

def setVM (n : ℕ) (fn : SandboxVM → SandboxVM) : Manager :=
  { m with vms := m.vms.modify n fn }

/-! ## Steps -/

def step : SandboxEvent → Option Manager
  | .create id req =>
    match m.store id with
    -- The id is in use: the call returns an error.
    | some _ => some m
    | none =>
      let sb : Sandbox := {
        id, state := .creating, image := req.image, udsPath := m.udsPath id req, guestIP := "",
        runtimeID := "", error := "", runResult := none }
      some { m.add sb with calls := m.calls ++ [.create id .running] }
  | .runOk i runtimeID guestIP hostUDSPath =>
    match m.calls[i]? with
    | some (.create id .running) =>
      let result : SandboxRunResult := ⟨m.vms.length, runtimeID, guestIP⟩
      some { m.setCall i (.create id (.started result hostUDSPath)) with
        vms := m.vms ++ [⟨id, 0, 0⟩] }
    | _ => none
  | .runError i error =>
    match m.calls[i]? with
    | some (.create id .running) => some (m.setCall i (.create id (.failed error)))
    | _ => none
  | .createUpdate i =>
    match m.calls[i]? with
    | some (.create id (.started result hostUDSPath)) =>
      some ((m.update id fun s ↦ { s with
        state := .ready, runResult := some result, runtimeID := result.id,
        guestIP := result.guestIP, udsPath := hostUDSPath }).setCall i .returned)
    | some (.create id (.failed error)) =>
      some ((m.update id fun s ↦ { s with state := .error, error }).setCall i .returned)
    | _ => none
  | .delete id =>
    match m.store id with
    -- There is no such sandbox: the call returns an error.
    | none => some m
    | some sb =>
      some { m.update id (fun s ↦ { s with runResult := none, state := .stopping }) with
        calls := m.calls ++ [.delete id (.taken sb.runResult)] }
  | .deleteRemove i =>
    match m.calls[i]? with
    | some (.delete id (.taken none)) => some ((m.remove id).setCall i .returned)
    | some (.delete id (.taken (some result))) =>
      some ((m.remove id).setCall i (.delete id (.removed result)))
    | _ => none
  | .stopVM i =>
    match m.calls[i]? with
    | some (.delete id (.removed result)) =>
      some ((m.setVM result.vm fun v ↦ { v with stops := v.stops + 1 }).setCall i
        (.delete id (.stopped result)))
    | _ => none
  | .closeVM i =>
    match m.calls[i]? with
    | some (.delete _ (.stopped result)) =>
      some ((m.setVM result.vm fun v ↦ { v with closes := v.closes + 1 }).setCall i .returned)
    | _ => none

/-! ## No orphans -/

/-- Every VM for whose sandbox no call is in progress is in a record, and runs, or has been stopped
and closed once; and a record that is ready has a result. -/
structure NoOrphan (m : Manager) : Prop where
  vms : ∀ n v, m.vms[n]? = some v → (∀ c ∈ m.calls, c.id? ≠ some v.id) →
    ((∃ sb, m.store v.id = some sb ∧ sb.vm = some n) ∧ v.stops = 0 ∧ v.closes = 0) ∨
      (v.stops = 1 ∧ v.closes = 1)
  ready : ∀ id sb, m.store id = some sb → sb.state = .ready → sb.runResult ≠ none

/-- The condition on a step: no sandbox is deleted while it is being created, and none is created
under an id from which a call is about to remove the record. -/
def Orderly : SandboxEvent → Prop
  | .create id _ => ∀ c ∈ m.calls, c.removing ≠ some id
  | .delete id => ∀ c ∈ m.calls, c.creating ≠ some id
  | _ => True

instance (m : Manager) (e : SandboxEvent) : Decidable (m.Orderly e) := by
  unfold Orderly
  split <;> infer_instance

/-! ## The invariant -/

/-- Where a VM can be. -/
inductive Place where
  | call (i : ℕ)
  | record (id : String)
  /-- It was stopped and closed. -/
  | gone

/-- Where a VM is: in a call, in a record, or gone. -/
def At (n : ℕ) : Place → Prop
  | .call i => m.calls[i]?.bind vm = some n
  | .record id => (m.store id).bind Sandbox.vm = some n
  | .gone => m.vms[n]?.map (fun v ↦ (v.stops, v.closes)) = some (1, 1)

section Places

variable (m : Manager) {c : SandboxCall}

theorem at_setCall {i : ℕ} (hi : m.calls[i]? = some c) (c' : SandboxCall) :
    Overwrites m.At (.call i) c'.vm (m.setCall i c').At := by
  intro n p
  cases p with
  | call j =>
    simp only [At, setCall, bind_getElem?_set hi]
    by_cases hij : j = i <;> simp [hij]
  | record | gone => simp [At, setCall]

theorem at_concat (c : SandboxCall) :
    Overwrites m.At (.call m.calls.length) c.vm { m with calls := m.calls ++ [c] }.At := by
  intro n p
  cases p with
  | call j =>
    simp only [At, bind_getElem?_concat]
    by_cases hj : j = m.calls.length <;> simp [hj]
  | record | gone => simp [At]

theorem at_store (id : String) (x : Option Sandbox) :
    Overwrites m.At (.record id) (x.bind Sandbox.vm)
      { m with store := Function.update m.store id x }.At := by
  intro n p
  cases p with
  | record id' => by_cases hid : id' = id <;> simp [At, hid]
  | call | gone => simp [At]

variable {m}

theorem at_call_iff {n i : ℕ} (hi : m.calls[i]? = some c) :
    m.At n (.call i) ↔ c.vm = some n := by
  rw [At, hi, bind_some]

theorem not_at_length {n : ℕ} : ¬ m.At n (.call m.calls.length) := by
  simp [At]

end Places

end Manager

/-- A sandbox is created by one call, while no call is about to remove its record. -/
structure CallsApart (calls : List SandboxCall) : Prop where
  single : ∀ {i j : ℕ} {id}, calls[i]?.bind creating = some id →
    calls[j]?.bind creating = some id → i = j
  apart : ∀ {i j : ℕ} {id}, calls[i]?.bind creating = some id →
    calls[j]?.bind removing ≠ some id

/-- **The invariant of the manager.** -/
structure ManagerInv (m : Manager) : Prop where
  custody : Custody m.At (· < m.vms.length)
  /-- A VM in the hands of a call belongs to its sandbox, and has been stopped if the call did. -/
  held : ∀ c ∈ m.calls, ∀ n ∈ c.vm, ∃ id, c.id? = some id ∧ m.vms[n]? = some ⟨id, c.stops, 0⟩
  recorded : ∀ id, ∀ sb ∈ m.store id, ∀ n ∈ sb.vm, m.vms[n]? = some ⟨id, 0, 0⟩
  calls : CallsApart m.calls
  /-- A sandbox that is being created has a record without a result. -/
  creating : ∀ c ∈ m.calls, ∀ id ∈ c.creating, ∃ sb, m.store id = some sb ∧ sb.runResult = none
  removing : ∀ c ∈ m.calls, ∀ id ∈ c.removing, ∀ sb ∈ m.store id, sb.runResult = none
  ready : ∀ id, ∀ sb ∈ m.store id, sb.state = .ready → sb.runResult ≠ none

namespace CallsApart

variable {calls : List SandboxCall} {c c' : SandboxCall} {i : ℕ} {id : String}

open SandboxCall

theorem set (h : CallsApart calls) (hi : calls[i]? = some c)
    (hcreating : ∀ id ∈ c'.creating, c.creating = some id)
    (hremoving : ∀ id ∈ c'.removing, c.removing = some id) : CallsApart (calls.set i c') := by
  have hsub : ∀ {j : ℕ} {id}, (calls.set i c')[j]?.bind creating = some id →
      calls[j]?.bind creating = some id := by
    intro j id hj
    rw [bind_getElem?_set hi] at hj
    split_ifs at hj with heq
    · rw [heq, hi]
      exact hcreating id hj
    · exact hj
  refine ⟨fun hj hk ↦ h.single (hsub hj) (hsub hk), fun {j k id} hj hk ↦ ?_⟩
  rw [bind_getElem?_set hi] at hk
  split at hk
  · refine h.apart (hsub hj) (j := i) ?_
    rw [hi]
    exact hremoving id hk
  · exact h.apart (hsub hj) hk

theorem bind_ne {f : SandboxCall → Option String} (h : ∀ c ∈ calls, f c ≠ some id) {j : ℕ} :
    calls[j]?.bind f ≠ some id := by
  intro hj
  obtain ⟨c, hc, hid⟩ := bind_eq_some_iff.mp hj
  exact h c (mem_of_getElem? hc) hid

theorem concat_create (h : CallsApart calls) {stage : CreateStage}
    (hcreating : ∀ c ∈ calls, c.creating ≠ some id)
    (hremoving : ∀ c ∈ calls, c.removing ≠ some id) : CallsApart (calls ++ [.create id stage]) := by
  constructor
  · intro j k id' hj hk
    refine single_concat h.single (fun d hd b hb hdb ↦ ?_) hj hk
    exact hcreating d hd (hdb.trans hb.symm)
  · intro j k id' hj hk
    rw [bind_getElem?_concat] at hj hk
    split at hk
    · nomatch hk
    split at hj
    · obtain ⟨⟩ := hj
      exact bind_ne hremoving hk
    · exact h.apart hj hk

theorem concat_delete (h : CallsApart calls) {result : Option SandboxRunResult}
    (hcreating : ∀ c ∈ calls, c.creating ≠ some id) :
    CallsApart (calls ++ [.delete id (.taken result)]) := by
  have hold : ∀ {j : ℕ} {id'},
      (calls ++ [.delete id (.taken result)])[j]?.bind creating = some id' →
      calls[j]?.bind creating = some id' := by
    intro j id' hj
    rw [bind_getElem?_concat] at hj
    split at hj
    · nomatch hj
    · exact hj
  refine ⟨fun hj hk ↦ h.single (hold hj) (hold hk), fun {j k id'} hj hk ↦ ?_⟩
  rw [bind_getElem?_concat] at hk
  split at hk
  · -- The new call removes `id`, and nothing is creating it.
    obtain ⟨⟩ := hk
    exact bind_ne hcreating (hold hj)
  · exact h.apart (hold hj) hk

theorem creating_ne (h : CallsApart calls) (hc : c ∈ calls) (hc' : c' ∈ calls)
    (hid : c'.removing = some id) : c.creating ≠ some id := by
  intro hcreating
  obtain ⟨i, hi⟩ := getElem?_of_mem hc
  obtain ⟨j, hj⟩ := getElem?_of_mem hc'
  have hbind : calls[i]?.bind creating = some id := by
    rw [hi]
    exact hcreating
  refine h.apart (j := j) hbind ?_
  rw [hj]
  exact hid

end CallsApart

open Manager

namespace ManagerInv

variable {m : Manager} {i n : ℕ} {id : String}

theorem init (stateDir : String) : ManagerInv (init stateDir) where
  custody := {
    unique := by
      intro n p q hp
      cases p <;> nomatch hp
    placed := fun hn ↦ absurd hn (Nat.not_lt_zero _) }
  held := nofun
  recorded := nofun
  calls := ⟨nofun, nofun⟩
  creating := nofun
  removing := nofun
  ready := nofun

/-- **The invariant says that no VM is an orphan.** -/
theorem noOrphan (h : ManagerInv m) : m.NoOrphan := by
  refine ⟨fun n v hv hquiet ↦ ?_, fun id sb hsb ↦ h.ready id sb hsb⟩
  obtain ⟨p, hp⟩ := h.custody.placed (List.getElem?_eq_some_iff.mp hv).1
  cases p with
  | call i =>
    -- A call that has the VM is in progress, for its sandbox.
    obtain ⟨c, hc, hvm⟩ := bind_eq_some_iff.mp hp
    have hmem := mem_of_getElem? hc
    obtain ⟨id, hid, hv'⟩ := h.held c hmem n hvm
    obtain rfl := mem_unique hv hv'
    exact absurd hid (hquiet c hmem)
  | record id =>
    obtain ⟨sb, hsb, hvm⟩ := bind_eq_some_iff.mp hp
    obtain rfl := mem_unique hv (h.recorded id sb hsb n hvm)
    exact .inl ⟨⟨sb, hsb, hvm⟩, rfl, rfl⟩
  | gone =>
    rw [Manager.At, hv, map_some, Option.some.injEq] at hp
    exact .inr (Prod.mk.inj hp)

theorem lt_of_at (h : ManagerInv m) {p : Manager.Place} (hp : m.At n p) : n < m.vms.length := by
  cases p with
  | call i =>
    obtain ⟨c, hc, hvm⟩ := bind_eq_some_iff.mp hp
    obtain ⟨id, -, hv⟩ := h.held c (mem_of_getElem? hc) n hvm
    exact (List.getElem?_eq_some_iff.mp hv).1
  | record id =>
    obtain ⟨sb, hsb, hvm⟩ := bind_eq_some_iff.mp hp
    exact (List.getElem?_eq_some_iff.mp (h.recorded id sb hsb n hvm)).1
  | gone =>
    obtain ⟨v, hv, -⟩ := map_eq_some_iff.mp hp
    exact (List.getElem?_eq_some_iff.mp hv).1

variable {sb : Sandbox} {result : SandboxRunResult} {fn : Sandbox → Sandbox} {c' : SandboxCall}

open SandboxCall

section

variable (h : ManagerInv m)
include h

theorem create (hid : sb.id = id) (hfree : m.store id = none) (hresult : sb.runResult = none)
    (hstate : sb.state ≠ .ready) (hok : ∀ c ∈ m.calls, c.removing ≠ some id) :
    ManagerInv { m.add sb with calls := m.calls ++ [.create id .running] } := by
  subst hid
  have hvm : sb.vm = none := by rw [Sandbox.vm, hresult, map_none]
  -- No call is creating this sandbox, since it would have a record.
  have hnone : ∀ c ∈ m.calls, c.creating ≠ some sb.id := by
    intro c hc hid
    obtain ⟨sb', hsb', -⟩ := h.creating c hc sb.id hid
    cases hfree.symm.trans hsb'
  have hadd : Custody (m.add sb).At (· < m.vms.length) :=
    h.custody.rewrite (m.at_store sb.id (some sb)) (by simp [Manager.At, hfree, hvm]) fun hx ↦ hx
  refine ⟨hadd.rewrite ((m.add sb).at_concat (.create sb.id .running)) ?_ fun hx ↦ hx,
    forall_mem_concat h.held (by simp [SandboxCall.vm]),
    fun id ↦ forall_mem_update ?_ fun _ ↦ h.recorded id,
    h.calls.concat_create hnone hok, forall_mem_concat (fun c hc id hid ↦ ?_) ?_,
    forall_mem_concat (fun c hc id hid ↦ forall_mem_update ?_ fun _ ↦ h.removing c hc id hid)
      (by simp [SandboxCall.removing]), fun id ↦ forall_mem_update ?_ fun _ ↦ h.ready id⟩
  · exact fun n ↦ iff_of_false not_at_length (by simp [SandboxCall.vm])
  · rintro rfl _ ⟨⟩ n hn
    cases hvm.symm.trans hn
  · obtain ⟨sb', hsb', hresult'⟩ := h.creating c hc id hid
    refine ⟨sb', update_eq_some_iff.mpr (.inr ⟨?_, hsb'⟩), hresult'⟩
    rintro rfl
    exact hnone c hc hid
  · rintro _ ⟨⟩
    exact ⟨sb, Function.update_self _ _ _, hresult⟩
  · rintro rfl _ ⟨⟩
    exact hresult
  · rintro rfl _ ⟨⟩ hready
    exact absurd hready hstate

theorem runOk (hi : m.calls[i]? = some (.create id .running))
    (hvm : result.vm = m.vms.length) {hostUDSPath : String} :
    ManagerInv { m.setCall i (.create id (.started result hostUDSPath)) with
      vms := m.vms ++ [⟨id, 0, 0⟩] } := by
  have hold : ∀ {n : ℕ} {v}, m.vms[n]? = some v → (m.vms ++ [⟨id, 0, 0⟩])[n]? = some v := by
    intro n v hv
    rw [getElem?_append_left (List.getElem?_eq_some_iff.mp hv).1]
    exact hv
  -- The new VM has not been stopped.
  have hvms : ∀ n p, { m with vms := m.vms ++ [⟨id, 0, 0⟩] : Manager }.At n p ↔ m.At n p := by
    intro n p
    cases p with
    | call | record => rfl
    | gone =>
      rw [Manager.At, Manager.At, map_eq_bind, map_eq_bind, bind_getElem?_concat]
      split_ifs with heq
      · rw [heq]
        simp
      · rfl
  have hat := at_setCall { m with vms := m.vms ++ [⟨id, 0, 0⟩] } hi
    (.create id (.started result hostUDSPath))
  refine ⟨h.custody.move m.vms.length (.call i) ?_ (fun {n p} hp ↦ ?_) (fun {n p} hn _ hp ↦ ?_) ?_,
    forall_mem_set ?_ ?_, fun id' sb hsb n hn ↦ hold (h.recorded id' sb hsb n hn),
    h.calls.set hi (fun id hid ↦ hid) nofun,
    forall_mem_set h.creating fun _ hid ↦ h.creating _ (mem_of_getElem? hi) _ hid,
    forall_mem_set h.removing nofun,
    h.ready⟩
  · exact (hat _ _).mpr (.inl ⟨rfl, congrArg some hvm⟩)
  · rcases (hat n p).mp hp with ⟨rfl, hn⟩ | ⟨-, hp⟩
    · exact .inl ⟨(Option.some.inj hn).symm.trans hvm, rfl⟩
    · have hp := (hvms n p).mp hp
      exact .inr ⟨Nat.ne_of_lt (h.lt_of_at hp), hp⟩
  · refine (hat n p).mpr (.inr ⟨?_, (hvms n p).mpr hp⟩)
    rintro rfl
    nomatch (at_call_iff hi).mp hp
  · intro n hn hlt
    rw [length_append, length_singleton] at hlt
    omega
  · intro c hc n hn
    obtain ⟨id', hid', hv⟩ := h.held c hc n hn
    exact ⟨id', hid', hold hv⟩
  · rintro n ⟨⟩
    refine ⟨id, rfl, ?_⟩
    rw [hvm, getElem?_concat_length]
    rfl

theorem runError (hi : m.calls[i]? = some (.create id .running))
    {error : String} : ManagerInv (m.setCall i (.create id (.failed error))) where
  custody := h.custody.rewrite (m.at_setCall hi _) (fun _ ↦ (at_call_iff hi).trans .rfl) fun hx ↦ hx
  held := forall_mem_set h.held nofun
  recorded := h.recorded
  calls := h.calls.set hi (fun _ hid ↦ hid) nofun
  creating := forall_mem_set h.creating fun _ hid ↦ h.creating _ (mem_of_getElem? hi) _ hid
  removing := forall_mem_set h.removing nofun
  ready := h.ready

theorem createUpdate {stage : CreateStage} (hi : m.calls[i]? = some (.create id stage))
    (hvm : ∀ sb, sb.runResult = none → (fn sb).vm = (SandboxCall.create id stage).vm)
    (hready : ∀ sb, (fn sb).state = .ready → (fn sb).runResult ≠ none) :
    ManagerInv ((m.update id fn).setCall i .returned) := by
  have hcreate := mem_of_getElem? hi
  obtain ⟨sb, hsb, hnone⟩ := h.creating _ hcreate id rfl
  have hhand : ∀ n, m.At n (.call i) ↔ ((m.store id).map fn).bind Sandbox.vm = some n := by
    intro n
    rw [at_call_iff hi, hsb, map_some, bind_some, hvm sb hnone]
  -- The call is the only one that creates this sandbox, and none removes it.
  have hother : ∀ {c id'}, c ∈ m.calls.set i .returned → c.creating = some id' → id' ≠ id := by
    rintro c id' hc hid' rfl
    rcases eq_or_getElem?_of_mem_set hc with rfl | ⟨j, hne, hj⟩
    · nomatch hid'
    refine hne (@CallsApart.single _ h.calls _ _ id' ?_ ?_)
    · rw [hj]
      exact hid'
    · rw [hi]
      rfl
  refine ⟨h.custody.pass (m.at_setCall hi .returned)
      ((m.setCall i .returned).at_store id ((m.store id).map fn)) hhand ?_ fun hx ↦ hx,
    forall_mem_set h.held nofun, fun id' ↦ forall_mem_update ?_ fun _ ↦ h.recorded id',
    h.calls.set hi nofun nofun, fun c hc id' hid' ↦ ?_, forall_mem_set
      (fun c hc id' hid' ↦ forall_mem_update ?_ fun _ ↦ h.removing c hc id' hid') nofun,
    fun id' ↦ forall_mem_update ?_ fun _ ↦ h.ready id'⟩
  · intro n hn
    rw [Manager.At, hsb, bind_some, Sandbox.vm, hnone] at hn
    nomatch hn
  · rintro rfl _ hsb' n hn
    rw [hsb] at hsb'
    obtain ⟨⟩ := hsb'
    obtain ⟨id, hid, hv⟩ := h.held _ hcreate n ((hvm sb hnone).symm.trans hn)
    obtain ⟨⟩ := hid
    exact hv
  · have hne := hother hc hid'
    obtain hc | rfl := mem_or_eq_of_mem_set hc
    · obtain ⟨sb', hsb', hresult⟩ := h.creating c hc id' hid'
      exact ⟨sb', update_eq_some_iff.mpr (.inr ⟨hne, hsb'⟩), hresult⟩
    · nomatch hid'
  · rintro rfl
    exact absurd rfl (h.calls.creating_ne hcreate hc hid')
  · rintro rfl _ hsb'
    rw [hsb] at hsb'
    obtain ⟨⟩ := hsb'
    exact hready sb

theorem delete (hsb : m.store id = some sb) (hok : ∀ c ∈ m.calls, c.creating ≠ some id)
    (hresult : (fn sb).runResult = none) (hstate : (fn sb).state ≠ .ready) :
    ManagerInv { m.update id fn with calls := m.calls ++ [.delete id (.taken sb.runResult)] } := by
  have hvm : (fn sb).vm = none := by rw [Sandbox.vm, hresult, map_none]
  have hstore : (m.store id).map fn = some (fn sb) := by rw [hsb, map_some]
  have hout := m.at_store id ((m.store id).map fn)
  rw [hstore, bind_some, hvm, ← hstore] at hout
  refine ⟨h.custody.pass hout ((m.update id fn).at_concat (.delete id (.taken sb.runResult))) ?_ ?_
      fun hx ↦ hx,
    forall_mem_concat h.held fun n hn ↦ ⟨id, rfl, h.recorded id sb hsb n hn⟩,
    fun id' ↦ forall_mem_update ?_ fun _ ↦ h.recorded id', h.calls.concat_delete hok,
    forall_mem_concat (fun c hc id' hid' ↦ ?_) (by simp [SandboxCall.creating]),
    forall_mem_concat (fun c hc id' hid' ↦
      forall_mem_update ?_ fun _ ↦ h.removing c hc id' hid') ?_,
    fun id' ↦ forall_mem_update ?_ fun _ ↦ h.ready id'⟩
  · intro n
    rw [Manager.At, hsb]
    rfl
  · exact fun n ↦ not_at_length
  · rintro rfl _ hsb' n hn
    rw [hstore] at hsb'
    obtain ⟨⟩ := hsb'
    cases hvm.symm.trans hn
  · obtain ⟨sb', hsb', hresult'⟩ := h.creating c hc id' hid'
    refine ⟨sb', update_eq_some_iff.mpr (.inr ⟨?_, hsb'⟩), hresult'⟩
    rintro rfl
    exact hok c hc hid'
  · rintro rfl _ hsb'
    rw [hstore] at hsb'
    obtain ⟨⟩ := hsb'
    exact hresult
  · rintro id' ⟨⟩
    refine forall_mem_update (fun _ _ hsb' ↦ ?_) fun hne ↦ absurd rfl hne
    rw [hstore] at hsb'
    obtain ⟨⟩ := hsb'
    exact hresult
  · rintro rfl _ hsb' hready
    rw [hstore] at hsb'
    obtain ⟨⟩ := hsb'
    exact absurd hready hstate

/-- **The removal of the record.** The call keeps what it has taken. -/
theorem deleteRemove {result : Option SandboxRunResult}
    (hi : m.calls[i]? = some (.delete id (.taken result)))
    (hvm : c'.vm = result.map SandboxRunResult.vm) (hid : c'.vm ≠ none → c'.id? = some id)
    (hstops : c'.stops = 0) (hcreating : c'.creating = none) (hremoving : c'.removing = none) :
    ManagerInv ((m.remove id).setCall i c') := by
  have hdelete := mem_of_getElem? hi
  have hremove : Custody (m.remove id).At (· < m.vms.length) := by
    refine h.custody.rewrite (m.at_store id none) (fun n ↦ iff_of_false (fun hn ↦ ?_) nofun)
      fun hx ↦ hx
    -- The record that is removed has no result.
    obtain ⟨sb, hsb, hn⟩ := bind_eq_some_iff.mp hn
    rw [Sandbox.vm, h.removing _ hdelete id rfl sb hsb] at hn
    nomatch hn
  refine ⟨hremove.rewrite ((m.remove id).at_setCall hi c') (fun n ↦ ?_) fun hx ↦ hx,
    forall_mem_set h.held fun n hn ↦ ?_, fun id' ↦ forall_mem_update nofun fun _ ↦ h.recorded id',
    h.calls.set hi (by simp [hcreating]) (by simp [hremoving]),
    forall_mem_set (fun c hc id' hid' ↦ ?_) (by simp [hcreating]),
    forall_mem_set (fun c hc id' hid' ↦ forall_mem_update nofun fun _ ↦ h.removing c hc id' hid')
      (by simp [hremoving]),
    fun id' ↦ forall_mem_update nofun fun _ ↦ h.ready id'⟩
  · rw [hvm]
    exact at_call_iff (m := m.remove id) hi
  · obtain ⟨id', hid', hv⟩ := h.held _ hdelete n (hvm.symm.trans hn)
    obtain ⟨⟩ := hid'
    refine ⟨id, hid (hn ▸ nofun), ?_⟩
    rw [hstops]
    exact hv
  · obtain ⟨sb, hsb, hresult⟩ := h.creating c hc id' hid'
    refine ⟨sb, update_eq_some_iff.mpr (.inr ⟨?_, hsb⟩), hresult⟩
    rintro rfl
    exact h.calls.creating_ne hc hdelete rfl hid'

variable {c : SandboxCall}

/-- A VM that a call has in its hands is in no other place. -/
theorem eq_of_at (hi : m.calls[i]? = some c)
    (hn : c.vm = some n) {p : Manager.Place} (hp : m.At n p) : p = .call i :=
  h.custody.unique hp ((at_call_iff hi).mpr hn)

/-- A call goes on with the VM in its hands. The other calls and the records have other VMs. -/
theorem advance (hi : m.calls[i]? = some c)
    (hn : c.vm = some n) {fn : SandboxVM → SandboxVM}
    (hcustody : Custody ((m.setVM n fn).setCall i c').At (· < (m.setVM n fn).vms.length))
    (hheld : ∀ k ∈ c'.vm, ∃ id, c'.id? = some id ∧ (m.setVM n fn).vms[k]? = some ⟨id, c'.stops, 0⟩)
    (hcreating : c'.creating = none) (hremoving : c'.removing = none) :
    ManagerInv ((m.setVM n fn).setCall i c') := by
  have hother : ∀ {k p}, m.At k p → p ≠ .call i → (m.setVM n fn).vms[k]? = m.vms[k]? := by
    intro k p hp hne
    refine getElem?_modify_ne _ _ ?_
    rintro rfl
    exact hne (h.eq_of_at hi hn hp)
  refine ⟨hcustody, fun d hd k hk ↦ ?_, fun id sb hsb k hk ↦ ?_,
    h.calls.set hi (by simp [hcreating]) (by simp [hremoving]),
    forall_mem_set h.creating (by simp [hcreating]),
    forall_mem_set h.removing (by simp [hremoving]),
    h.ready⟩
  · rcases eq_or_getElem?_of_mem_set hd with rfl | ⟨j, hij, hj⟩
    · exact hheld k hk
    obtain ⟨id, hid, hv⟩ := h.held d (mem_of_getElem? hj) k hk
    have hsame : (m.setVM n fn).vms[k]? = m.vms[k]? :=
      hother ((at_call_iff (m := m) hj).mpr hk) fun heq ↦ hij (Manager.Place.call.inj heq)
    exact ⟨id, hid, hsame.trans hv⟩
  · have hat : m.At k (.record id) := bind_eq_some_iff.mpr ⟨sb, hsb, hk⟩
    exact (hother hat nofun).trans (h.recorded id sb hsb k hk)

theorem stopVM (hi : m.calls[i]? = some (.delete id (.removed result))) :
    ManagerInv ((m.setVM result.vm fun v ↦ { v with stops := v.stops + 1 }).setCall i
      (.delete id (.stopped result))) := by
  obtain ⟨id', hid', hv⟩ := h.held _ (mem_of_getElem? hi) result.vm rfl
  obtain ⟨⟩ := hid'
  have hv' : (m.setVM result.vm fun v ↦ { v with stops := v.stops + 1 }).vms[result.vm]? =
      some ⟨id, 1, 0⟩ := by
    rw [setVM, getElem?_modify_eq, hv]
    rfl
  have hstop : Custody (m.setVM result.vm fun v ↦ { v with stops := v.stops + 1 }).At
      (· < m.vms.length) := by
    refine h.custody.congr (fun {n p} ↦ ?_) fun hx ↦ hx
    cases p with
    | call | record => rfl
    | gone =>
      by_cases hn : n = result.vm
      · subst hn
        rw [Manager.At, Manager.At, hv, hv']
        simp [stops]
      · rw [Manager.At, Manager.At, setVM, getElem?_modify_ne _ _ (Ne.symm hn)]
  refine h.advance hi rfl (hstop.rewrite (at_setCall (m.setVM _ _) hi _)
    (fun n ↦ (at_call_iff (m := m.setVM _ _) hi).trans .rfl) fun hx ↦ ?_) ?_ rfl rfl
  · rwa [setVM, length_modify] at hx
  · rintro k ⟨⟩
    exact ⟨id, rfl, hv'⟩

theorem closeVM (hi : m.calls[i]? = some (.delete id (.stopped result))) :
    ManagerInv ((m.setVM result.vm fun v ↦ { v with closes := v.closes + 1 }).setCall i
      .returned) := by
  obtain ⟨id', hid', hv⟩ := h.held _ (mem_of_getElem? hi) result.vm rfl
  obtain ⟨⟩ := hid'
  have hgone : ∀ {n p}, n ≠ result.vm →
      ((m.setVM result.vm fun v ↦ { v with closes := v.closes + 1 }).At n p ↔ m.At n p) := by
    intro n p hn
    cases p with
    | call | record => rfl
    | gone => rw [Manager.At, Manager.At, setVM, getElem?_modify_ne _ _ (Ne.symm hn)]
  have hat := at_setCall (m.setVM result.vm fun v ↦ { v with closes := v.closes + 1 }) hi .returned
  refine h.advance hi rfl (h.custody.move result.vm .gone ?_ (fun {n p} hp ↦ ?_)
    (fun {n p} hn _ hp ↦ ?_) fun _ hx ↦ ?_) nofun rfl rfl
  · refine (hat _ _).mpr (.inr ⟨nofun, ?_⟩)
    rw [Manager.At, setVM, getElem?_modify_eq, hv]
    rfl
  · obtain ⟨-, hn⟩ | ⟨hne, hp⟩ := (hat n p).mp hp
    · nomatch hn
    by_cases hn : n = result.vm
    · refine .inl ⟨hn, ?_⟩
      cases p with
      | call j => exact absurd (h.eq_of_at hi (congrArg some hn.symm) (p := .call j) hp) hne
      | record id => exact absurd (h.eq_of_at hi (congrArg some hn.symm) (p := .record id) hp) hne
      | gone => rfl
    · exact .inr ⟨hn, (hgone hn).mp hp⟩
  · refine (hat n p).mpr (.inr ⟨?_, (hgone hn).mpr hp⟩)
    rintro rfl
    exact hn (Option.some.inj ((at_call_iff hi).mp hp)).symm
  · rwa [setVM, length_modify] at hx

/-- **Every orderly step keeps the invariant.** -/
theorem step {e : SandboxEvent} {m' : Manager} (hok : m.Orderly e)
    (hstep : m.step e = some m') : ManagerInv m' := by
  revert hstep
  fun_cases Manager.step m e with rintro ⟨⟩
  | case1 | case10 => exact h
  | case2 id req hfree => exact h.create rfl hfree rfl (by simp) hok
  | case3 i runtimeID guestIP hostUDSPath id hi => exact h.runOk hi rfl
  | case5 i error id hi => exact h.runError hi
  | case7 i id result hostUDSPath hi => exact h.createUpdate hi (fun _ _ ↦ rfl) fun _ _ ↦ by simp
  | case8 i id error hi =>
    refine h.createUpdate hi (fun sb hnone ↦ ?_) nofun
    rw [hnone]
    rfl
  | case11 id sb hsb => exact h.delete hsb hok rfl (by simp)
  | case12 i id hi => exact h.deleteRemove hi rfl (fun hne ↦ absurd rfl hne) rfl rfl rfl
  | case13 i id result hi => exact h.deleteRemove hi rfl (fun _ ↦ rfl) rfl rfl rfl
  | case15 i id result hi => exact h.stopVM hi
  | case17 i id result hi => exact h.closeVM hi

end

end ManagerInv

/-- **No VM is an orphan**, in every orderly interleaving of calls. -/
theorem Manager.noOrphan_of_orderly (stateDir : String) {events : List SandboxEvent} {m : Manager}
    (hrun : Run step Manager.Orderly (.init stateDir) events m) : m.NoOrphan := by
  have hinv : ManagerInv m :=
    hrun.invariant (fun _ _ _ hinv hok hstep ↦ hinv.step hok hstep) (.init stateDir)
  exact hinv.noOrphan

/-! ## Two interleavings -/

/-- Two sandboxes. The first is deleted when it is ready; the boot of the second fails. -/
theorem Manager.noOrphan_of_orderly_twice : ∃ m, Run step Manager.Orderly (.init "/var")
        [.create "sb-1" ⟨"alpine", false⟩, .create "sb-2" ⟨"alpine", true⟩,
          .runOk 0 "gc-1" "10.0.0.2" "/var/sandboxes/sb-1.sock", .runError 1 "no kernel",
          .createUpdate 1, .createUpdate 0, .delete "sb-1", .deleteRemove 2, .stopVM 2,
          .closeVM 2] m ∧ m.NoOrphan := by
  refine Run.exists_of_exec (·.vms = [⟨"sb-1", 1, 1⟩]) (by decide +kernel) fun m hrun _ ↦ ?_
  exact noOrphan_of_orderly "/var" hrun

/-- **A sandbox is deleted while it boots.** Its record is gone when the VM has started, and nobody
has the VM. -/
theorem Manager.not_noOrphan_deleted : ∃ m, Run step anyStep (.init "/var")
        [.create "sb-1" ⟨"alpine", false⟩, .delete "sb-1", .deleteRemove 1,
          .runOk 0 "gc-1" "10.0.0.2" "/var/sandboxes/sb-1.sock", .createUpdate 0] m ∧
      ¬m.NoOrphan := by
  refine Run.exists_of_exec (fun m ↦ m.vms[0]? = some ⟨"sb-1", 0, 0⟩ ∧
    (∀ c ∈ m.calls, c.id? ≠ some "sb-1") ∧ m.store "sb-1" = none) (by decide +kernel)
    fun m hrun ⟨hvm, hquiet, hstore⟩ hno ↦ ?_
  rcases hno.vms 0 _ hvm hquiet with ⟨⟨sb, hsb, -⟩, -⟩ | ⟨hstops, -⟩
  · rw [hstore] at hsb
    nomatch hsb
  · nomatch hstops

end Gocracker
