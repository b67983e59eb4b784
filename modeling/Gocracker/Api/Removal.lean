import Gocracker.Transition.Custody
import Gocracker.Transition.Run

/-!
# Taking VMs out of the registry

An entry of the VM map stands for more than its VM. There is a function to be called when it goes, a
record in the state directory if the VM is run by a worker, the id in the list of its compose stack,
and the directory of the bundle that it was restored from.

An entry leaves the map in four ways: `cleanStopped` takes out the VMs that have stopped,
`stopAndUnregisterVM` a clone that could not be completed, `handleMigrateVM` a VM that has moved
away, and a registration under the same id replaces it. Only the first of them gives back
everything. The second calls the function and no more, the others give back nothing.

`cleanStopped` itself goes by the key in the map and by the metadata of the entry, while the VM was
attached to its stack with the id that was drawn and the metadata of the request. And a record is
written after the lock has been released, so that it may be written when the entry is already gone.
-/

namespace Gocracker.Api

open Transition List Option Function

/-! ## The state -/

/-- What is known of a VM when it is registered. -/
structure VM where
  /-- The id under which it is registered. -/
  id : String
  /-- The stack that the metadata of its entry name. -/
  stack : Option String
  /-- The stack it has been attached to, and the id with which. -/
  member : Option (String × String)
  /-- Does it get a record? It is run by a worker, and there is a state directory. -/
  worker : Bool
  hasCleanup : Bool
  bundleDir : Option ℕ
  /-- Only announced: there is no handle. -/
  pending : Bool
  deriving DecidableEq

/-- A `newPendingVMEntry`. -/
def VM.announced (id : String) : VM := ⟨id, none, none, false, false, none, true⟩

/-- All entries ever registered, by number, and the tables of the server, which refer to them. -/
structure Tables where
  entries : List VM
  vms : String → Option ℕ
  vmDirs : String → Option ℕ
  records : String → Option ℕ
  /-- The ids in the list of a stack. -/
  vmIDs : String → List String
  /-- The entries whose cleanup function was called, once for each call. -/
  cleaned : List ℕ
  /-- The entries whose VM has stopped. -/
  stopped : List ℕ
  removedDirs : List ℕ

/-- A call that has read or changed a table and is not done. -/
inductive TableCall where
  | booted (vm : VM)
  | attached (vm : VM)
  /-- It is registered, and its record is to be written. -/
  | persisting (n : ℕ)
  /-- `stopAndUnregisterVM` has taken the entry out of the map. -/
  | unregistering (n : ℕ)
  /-- `handleMigrateVM` is sending the VM away. -/
  | migrating (id : String)
  | finished
  deriving DecidableEq

structure TableServer where
  tables : Tables
  calls : List TableCall

inductive TableCallEvent where
  | attach
  | attachError
  | register
  /-- The record can be written, or not. -/
  | persist (ok : Bool)
  /-- The VM has been stopped, as far as possible. -/
  | finish
  | migrated
  deriving DecidableEq

inductive TableEvent where
  | boot (vm : VM)
  | announce (id : String)
  /-- A VM stops, for whatever reason. -/
  | halt (n : ℕ)
  /-- `cleanStopped`, the part for one id. -/
  | cleanStopped (id : String)
  | stopAndUnregister (id : String)
  | migrate (id : String)
  | act (i : ℕ) (e : TableCallEvent)
  deriving DecidableEq

/-! ## Steps -/

namespace Tables

def init : Tables where
  entries := []
  vms := fun _ ↦ none
  vmDirs := fun _ ↦ none
  records := fun _ ↦ none
  vmIDs := fun _ ↦ []
  cleaned := []
  stopped := []
  removedDirs := []

/-- A VM of a stack counts among its members. -/
def attach (t : Tables) : Option (String × String) → Tables
  | none => t
  | some (stack, id) =>
    { t with vmIDs := Function.update t.vmIDs stack ((t.vmIDs stack).insert id) }

variable (t : Tables) (id : String)

/-- The VM no longer counts among the members of its stack. -/
def releaseComposeStackResources : Option String → Tables
  | none => t
  | some stack =>
    { t with vmIDs := Function.update t.vmIDs stack ((t.vmIDs stack).filter (· ≠ id)) }

/-- `registerVMEntry`: whatever is there is replaced. -/
def registerVMEntry (t : Tables) (vm : VM) : Tables :=
  { t with
    entries := t.entries ++ [vm]
    vms := Function.update t.vms vm.id (some t.entries.length)
    vmDirs := Function.update t.vmDirs vm.id (vm.bundleDir.or (t.vmDirs vm.id)) }

/-- An entry without a worker removes the record of its id. -/
def persistWorkerEntry (t : Tables) (n : ℕ) (vm : VM) (ok : Bool) : Tables :=
  if vm.worker then
    if ok then { t with records := Function.update t.records vm.id (some n) } else t
  else { t with records := Function.update t.records vm.id none }

/-- The cleanup is noted, if the VM has one. -/
def runCleanup (t : Tables) (n : ℕ) (vm : VM) : Tables :=
  if vm.hasCleanup then { t with cleaned := n :: t.cleaned } else t

def delete : Tables :=
  { t with vms := Function.update t.vms id none }

/-- The directory, if there is one, and the record are removed with the entry. -/
def clear : Tables :=
  { t.delete id with
    vmDirs := Function.update t.vmDirs id none
    removedDirs := (t.vmDirs id).toList ++ t.removedDirs
    records := Function.update t.records id none }

/-- The entry that is in the map under an id. -/
def lookup : Option (ℕ × VM) :=
  (t.vms id).bind fun n ↦ (t.entries[n]?).map fun vm ↦ (n, vm)

/-- The VM of an id is taken out once it has stopped. -/
def cleanStopped : Tables :=
  match t.lookup id with
  | none => t
  | some (n, vm) =>
    if vm.pending ∨ n ∉ t.stopped then t
    else ((t.releaseComposeStackResources id vm.stack).runCleanup n vm).clear id

/-- `handleMigrateVM`: the directory is forgotten, not removed. -/
def forget : Tables :=
  { t.delete id with vmDirs := Function.update t.vmDirs id none }

end Tables

/-- A step of a call. Between two steps the lock is free. -/
def advanceCall (t : Tables) (c : TableCall) : TableCallEvent → Option (Tables × TableCall)
  | .attach =>
    match c with
    | .booted vm => some (t.attach vm.member, .attached vm)
    | _ => none
  | .attachError =>
    match c with
    | .booted _ => some (t, .finished)
    | _ => none
  | .register =>
    match c with
    | .attached vm => some (t.registerVMEntry vm, .persisting t.entries.length)
    | _ => none
  | .persist ok =>
    match c with
    | .persisting n => (t.entries[n]?).map fun vm ↦ (t.persistWorkerEntry n vm ok, .finished)
    | _ => none
  | .finish =>
    match c with
    | .unregistering n => (t.entries[n]?).map fun vm ↦ (t.runCleanup n vm, .finished)
    | _ => none
  | .migrated =>
    match c with
    | .migrating id => some (t.forget id, .finished)
    | _ => none

namespace TableServer

def init : TableServer := ⟨.init, []⟩

/-- `stopAndUnregisterVM` leaves an entry alone that has no handle. -/
def stopAndUnregister (s : TableServer) (id : String) : TableServer :=
  match s.tables.lookup id with
  | none => s
  | some (n, vm) =>
    if vm.pending then { s with tables := s.tables.delete id }
    else ⟨s.tables.delete id, s.calls ++ [.unregistering n]⟩

def step (s : TableServer) : TableEvent → Option TableServer
  | .boot vm => if vm.pending then none else some { s with calls := s.calls ++ [.booted vm] }
  | .announce id =>
    some ⟨s.tables.registerVMEntry (.announced id),
      s.calls ++ [.persisting s.tables.entries.length]⟩
  | .halt n => some { s with tables.stopped := n :: s.tables.stopped }
  | .cleanStopped id => some { s with tables := s.tables.cleanStopped id }
  | .stopAndUnregister id => some (s.stopAndUnregister id)
  | .migrate id =>
    match s.tables.lookup id with
    | none => some s
    | some (_, vm) =>
      if vm.pending then none else some { s with calls := s.calls ++ [.migrating id] }
  | .act i e =>
    (s.calls[i]?).bind fun c ↦ (advanceCall s.tables c e).map fun r ↦ ⟨r.1, s.calls.set i r.2⟩

end TableServer

/-! ## What is to be given back -/

/-- The entry that a call has taken out of the map and still has to clean up. -/
def TableCall.inHand : TableCall → Option ℕ
  | .unregistering n => some n
  | _ => none

/-- Is there a VM that is attached to the stack with the id? It is in the map, or about to be
registered. -/
def Tables.Holds (t : Tables) (calls : List TableCall) (m : String × String) : Prop :=
  (∃ vm, .attached vm ∈ calls ∧ vm.member = some m) ∨
    ∃ id n vm, t.lookup id = some (n, vm) ∧ vm.member = some m

/-- Nothing but a cleanup function is to be given back, and that only if there is a handle. -/
def VM.isLight (vm : VM) : Bool :=
  !vm.worker && vm.member.isNone && vm.bundleDir.isNone

/-- Nothing is to be given back. -/
def VM.isBare (vm : VM) : Bool := vm.isLight && !vm.hasCleanup

/-- Is `cleanStopped` going to find the VM in the list of its stack? -/
def VM.Traceable (vm : VM) : Prop :=
  vm.member = none ∨ vm.member = vm.stack.map fun stack ↦ (stack, vm.id)
deriving Decidable

/-- The VM that a call is going to put into the table. -/
def TableCall.registers : TableCall → Option VM
  | .attached vm => some vm
  | _ => none

/-- The VM whose record a call is going to write. -/
def TableCall.persists : TableCall → Option ℕ
  | .persisting n => some n
  | _ => none

/-- The VM that a call is sending away. -/
def TableCall.migrates : TableCall → Option String
  | .migrating id => some id
  | _ => none

/-- Entries are replaced or migrated only if there is nothing to be given back, a VM is registered
with the id and the metadata with which it was attached, and a record is written only while the
entry is in the map. -/
def TableCall.Tidy (t : Tables) (c : TableCall) : TableCallEvent → Prop
  | .attach | .attachError => True
  | .register => ∀ vm ∈ c.registers, (∀ old ∈ t.lookup vm.id, old.2.isBare = true) ∧ vm.Traceable
  | .persist _ => ∀ n ∈ c.persists, ∀ vm ∈ t.entries[n]?, vm.worker = true → t.vms vm.id = some n
  | .finish => True
  | .migrated => ∀ id ∈ c.migrates, ∀ old ∈ t.lookup id, old.2.isBare = true

instance decidableTidyCall (t : Tables) (c : TableCall) :
    ∀ e : TableCallEvent, Decidable (c.Tidy t e)
  | .attach | .attachError => .isTrue trivial
  | .register => inferInstanceAs (Decidable (∀ vm ∈ c.registers, _))
  | .persist _ => inferInstanceAs (Decidable (∀ n ∈ c.persists, _))
  | .finish => .isTrue trivial
  | .migrated => inferInstanceAs (Decidable (∀ id ∈ c.migrates, _))

/-- And what is unregistered has only its cleanup function. -/
def TableServer.Tidy (s : TableServer) : TableEvent → Prop
  | .boot _ => True
  | .announce id => ∀ old ∈ s.tables.lookup id, old.2.isBare = true
  | .halt _ | .cleanStopped _ => True
  | .stopAndUnregister id => ∀ old ∈ s.tables.lookup id, old.2.isLight = true
  | .migrate _ => True
  | .act i e => ∀ c ∈ s.calls[i]?, c.Tidy s.tables e

instance decidableTidy (s : TableServer) : ∀ e : TableEvent, Decidable (s.Tidy e)
  | .boot _ => .isTrue trivial
  | .announce id => inferInstanceAs (Decidable (∀ old ∈ s.tables.lookup id, _))
  | .halt _ | .cleanStopped _ => .isTrue trivial
  | .stopAndUnregister id => inferInstanceAs (Decidable (∀ old ∈ s.tables.lookup id, _))
  | .migrate _ => .isTrue trivial
  | .act i e => inferInstanceAs (Decidable (∀ c ∈ s.calls[i]?, c.Tidy s.tables e))

/-! ## The invariant -/

/-- Where an entry is, and what holds of it there: in the map, in the hands of a call, or gone. -/
structure Tables.Sound (t : Tables) (calls : List TableCall) : Prop where
  placed : ∀ {id n}, t.vms id = some n → ∃ vm, t.entries[n]? = some vm ∧ vm.id = id
  present : ∀ {id n vm}, t.vms id = some n → t.entries[n]? = some vm →
    n ∉ t.cleaned ∧ (∀ d, vm.bundleDir = some d → t.vmDirs id = some d) ∧ vm.Traceable
  inHand : ∀ {n}, n ∈ calls.filterMap TableCall.inHand → (∀ id, t.vms id ≠ some n) ∧
    n ∉ t.cleaned ∧ ∀ vm, t.entries[n]? = some vm → vm.isLight = true
  gone : ∀ {n vm}, t.entries[n]? = some vm → (∀ id, t.vms id ≠ some n) →
    n ∉ calls.filterMap TableCall.inHand →
    (vm.hasCleanup = true → t.cleaned.count n = 1) ∧
      ∀ d, vm.bundleDir = some d → d ∈ t.removedDirs
  once : (calls.filterMap TableCall.inHand).Nodup
  known : ∀ n, n ∈ t.cleaned ∨ n ∈ calls.filterMap TableCall.inHand → n < t.entries.length
  recorded : ∀ {id n}, t.records id = some n →
    t.vms id = some n ∧ ∀ vm, t.entries[n]? = some vm → vm.worker = true
  bare : ∀ vm ∈ t.entries, vm.pending = true → vm.isBare = true
  listed : ∀ {stack id}, id ∈ t.vmIDs stack → t.Holds calls (stack, id)

namespace Tables

variable {t t' : Tables} {calls calls' : List TableCall} {id : String} {n : ℕ} {vm : VM}

theorem lookup_eq_some : t.lookup id = some (n, vm) ↔
    t.vms id = some n ∧ t.entries[n]? = some vm := by
  simp only [lookup, bind_eq_some_iff, map_eq_some_iff, Prod.mk.injEq]
  constructor
  · rintro ⟨n', hn', vm', hvm', rfl, rfl⟩
    exact ⟨hn', hvm'⟩
  · rintro ⟨hn, hvm⟩
    exact ⟨n, hn, vm, hvm, rfl, rfl⟩

theorem sound_init : init.Sound [] where
  placed := nofun
  present := nofun
  inHand := nofun
  gone := nofun
  once := nodup_nil
  known n h := by simp [init] at h
  recorded := nofun
  bare := nofun
  listed := nofun

theorem Sound.perm (hs : t.Sound calls) (hperm : calls.Perm calls') : t.Sound calls' := by
  have hhands := hperm.filterMap TableCall.inHand
  have hmem : ∀ n, n ∈ calls'.filterMap TableCall.inHand ↔
      n ∈ calls.filterMap TableCall.inHand := fun n ↦ hhands.mem_iff.symm
  exact ⟨hs.placed, hs.present, fun h ↦ hs.inHand ((hmem _).mp h),
    fun h hgone hfree ↦ hs.gone h hgone fun hin ↦ hfree ((hmem _).mpr hin),
    hhands.nodup_iff.mp hs.once, fun n h ↦ hs.known n (h.imp_right (hmem n).mp), hs.recorded,
    hs.bare, fun hid ↦ (hs.listed hid).imp_left fun ⟨vm, hvm, hm⟩ ↦ ⟨vm, hperm.mem_iff.mp hvm, hm⟩⟩

/-- Only the calls change, and none comes to have an entry in its hands or drops a membership. -/
theorem Sound.of_calls (hs : t.Sound calls)
    (hhands : calls'.filterMap TableCall.inHand = calls.filterMap TableCall.inHand)
    (hholds : ∀ vm, .attached vm ∈ calls → .attached vm ∈ calls') : t.Sound calls' := by
  refine ⟨hs.placed, hs.present, ?_, ?_, ?_, ?_, hs.recorded, hs.bare,
    fun hid ↦ (hs.listed hid).imp_left fun ⟨vm, hvm, hm⟩ ↦ ⟨vm, hholds vm hvm, hm⟩⟩ <;>
    rw [hhands]
  · exact hs.inHand
  · exact hs.gone
  · exact hs.once
  · exact hs.known

theorem Sound.lt_length (hs : t.Sound calls) (hn : t.vms id = some n) : n < t.entries.length := by
  obtain ⟨vm, hvm, -⟩ := hs.placed hn
  exact (List.getElem?_eq_some_iff.mp hvm).1

variable {id' : String}

theorem Sound.eq_of_vms (hs : t.Sound calls) (hn : t.vms id = some n)
    (hn' : t.vms id' = some n) : id = id' := by
  obtain ⟨vm, hvm, rfl⟩ := hs.placed hn
  obtain ⟨vm', hvm', rfl⟩ := hs.placed hn'
  rw [mem_unique hvm hvm']

theorem isBare_iff : vm.isBare = true ↔ vm.isLight = true ∧ vm.hasCleanup = false := by
  simp [VM.isBare]

theorem isLight_iff : vm.isLight = true ↔
    vm.worker = false ∧ vm.member = none ∧ vm.bundleDir = none := by
  simp [VM.isLight, and_assoc]

theorem delete_vms_eq_some {m : ℕ} :
    (t.delete id).vms id' = some m ↔ id' ≠ id ∧ t.vms id' = some m := by
  rw [delete, update_eq_some_iff]
  simp

/-- **The entry under an id leaves the map**, and everything is given back. -/
theorem Sound.leave (hs : t.Sound calls) (hn : t.vms id = some n) (hvm : t.entries[n]? = some vm)
    (hentries : t'.entries = t.entries) (hvms : t'.vms = (t.delete id).vms)
    (hdirs : ∀ id', id' ≠ id → t'.vmDirs id' = t.vmDirs id')
    (hrecords : ∀ {id' m}, t'.records id' = some m → id' ≠ id ∧ t.records id' = some m)
    (hcleaned : ∀ m, m ≠ n → t'.cleaned.count m = t.cleaned.count m)
    (hremoved : ∀ d ∈ t.removedDirs, d ∈ t'.removedDirs) (hids : ∀ stack id', id' ∈ t'.vmIDs stack →
      id' ∈ t.vmIDs stack ∧ vm.member ≠ some (stack, id'))
    (hgone : (vm.hasCleanup = true → t'.cleaned.count n = 1) ∧
      ∀ d, vm.bundleDir = some d → d ∈ t'.removedDirs) : t'.Sound calls := by
  have hvms_iff : ∀ {id' m}, t'.vms id' = some m ↔ id' ≠ id ∧ t.vms id' = some m := by
    intro id' m
    rw [hvms, delete_vms_eq_some]
  have hother : ∀ {id' m}, t'.vms id' = some m → m ≠ n := by
    rintro id' m hm rfl
    exact (hvms_iff.mp hm).1 (hs.eq_of_vms (hvms_iff.mp hm).2 hn)
  have hmem : ∀ m, m ≠ n → (m ∈ t'.cleaned ↔ m ∈ t.cleaned) := by
    intro m hm
    rw [← count_pos_iff, hcleaned m hm, count_pos_iff]
  refine ⟨fun hm ↦ ?_, fun {id' m vm'} hm hvm' ↦ ?_, fun {m} hm ↦ ?_,
    fun {m vm'} hvm' hm hfree ↦ ?_, hs.once, fun m hm ↦ ?_, fun {id' m} hm ↦ ?_, ?_,
    fun {stack id'} hid ↦ ?_⟩
  · rw [hentries]
    exact hs.placed (hvms_iff.mp hm).2
  · rw [hentries] at hvm'
    have hold := hs.present (hvms_iff.mp hm).2 hvm'
    rw [hmem m (hother hm), hdirs id' (hvms_iff.mp hm).1]
    exact hold
  · obtain ⟨hout, hfresh, hlight⟩ := hs.inHand hm
    rw [hentries]
    have hne : m ≠ n := fun heq ↦ hout id (heq ▸ hn)
    exact ⟨fun id' hid' ↦ hout id' (hvms_iff.mp hid').2, fun h ↦ hfresh ((hmem m hne).mp h), hlight⟩
  · rw [hentries] at hvm'
    by_cases hne : m = n
    · subst hne
      rw [mem_unique hvm' hvm]
      exact hgone
    have hold := hs.gone hvm' (fun id' hid' ↦ ?_) hfree
    · rw [hcleaned m hne]
      exact ⟨hold.1, fun d hd ↦ hremoved d (hold.2 d hd)⟩
    · refine hm id' (hvms_iff.mpr ⟨?_, hid'⟩)
      rintro rfl
      exact hne (mem_unique hid' hn)
  · rw [hentries]
    by_cases hne : m = n
    · exact hne ▸ hs.lt_length hn
    · exact hs.known m (hm.imp_left (hmem m hne).mp)
  · obtain ⟨hne, hm⟩ := hrecords hm
    rw [hvms_iff, hentries]
    exact ⟨⟨hne, (hs.recorded hm).1⟩, (hs.recorded hm).2⟩
  · rw [hentries]
    exact hs.bare
  · obtain ⟨hid, hmember⟩ := hids stack id' hid
    refine (hs.listed hid).imp_right ?_
    rintro ⟨id₀, n₀, vm₀, hlookup, hmember₀⟩
    obtain ⟨hn₀, hvm₀⟩ := lookup_eq_some.mp hlookup
    refine ⟨id₀, n₀, vm₀, lookup_eq_some.mpr ⟨hvms_iff.mpr ⟨?_, hn₀⟩, hentries ▸ hvm₀⟩, hmember₀⟩
    rintro rfl
    -- The holder would be the entry that leaves.
    obtain rfl := mem_unique hn₀ hn
    exact hmember ((mem_unique hvm₀ hvm) ▸ hmember₀)

/-- An entry that has nothing to give back is taken out. -/
theorem Sound.leave_bare (hs : t.Sound calls) (hbare : ∀ old ∈ t.lookup id, old.2.isBare = true)
    {dirs : String → Option ℕ} (hdirs : ∀ id', id' ≠ id → dirs id' = t.vmDirs id') :
    Sound { t.delete id with vmDirs := dirs } calls := by
  cases hn : t.vms id with
  | none =>
    have hsame : t.delete id = t := by rw [delete, ← hn, update_eq_self]
    rw [hsame]
    refine { hs with present := fun {id' m vm'} hm hvm' ↦ ?_ }
    have hne : id' ≠ id := by
      rintro rfl
      cases hn.symm.trans hm
    have hold := hs.present hm hvm'
    rwa [← hdirs id' hne] at hold
  | some n =>
    obtain ⟨vm, hvm, -⟩ := hs.placed hn
    obtain ⟨hlight, hnothing⟩ := isBare_iff.mp (hbare (n, vm) (lookup_eq_some.mpr ⟨hn, hvm⟩))
    obtain ⟨hworker, hmember, hbundle⟩ := isLight_iff.mp hlight
    refine hs.leave hn hvm rfl rfl hdirs (fun {id' m} hm ↦ ⟨?_, hm⟩) (fun m _ ↦ rfl)
      (fun d hd ↦ hd) (fun stack id' hid ↦ ⟨hid, hmember ▸ (Option.some_ne_none _).symm⟩)
      ⟨fun h ↦ ?_, fun d hd ↦ ?_⟩
    · rintro rfl
      obtain ⟨hm', hrecorded⟩ := hs.recorded hm
      rw [mem_unique hm' hn] at hrecorded
      cases hworker.symm.trans (hrecorded vm hvm)
    · cases hnothing.symm.trans h
    · cases hbundle.symm.trans hd

section Register

variable (htraceable : vm.Traceable) (hbare : vm.pending = true → vm.isBare = true)
  (hhands : calls'.filterMap TableCall.inHand = calls.filterMap TableCall.inHand)
  (hholds : ∀ vm', .attached vm' ∈ calls → .attached vm' ∈ calls' ∨ vm' = vm)

include htraceable hbare hhands hholds

/-- **A VM is registered** under an id that is free. -/
theorem Sound.enter (hs : t.Sound calls) (hn : t.vms vm.id = none) :
    (t.registerVMEntry vm).Sound calls' := by
  have hvms_iff : ∀ {id' m}, (t.registerVMEntry vm).vms id' = some m ↔
      (id' = vm.id ∧ m = t.entries.length) ∨ t.vms id' = some m := by
    intro id' m
    rw [registerVMEntry, update_eq_some_iff, Option.some.injEq, eq_comm (a := m)]
    refine or_congr_right (and_iff_right_of_imp ?_)
    rintro hm rfl
    cases hn.symm.trans hm
  have hentries : ∀ {m}, m < t.entries.length →
      (t.registerVMEntry vm).entries[m]? = t.entries[m]? :=
    fun hlt ↦ getElem?_append_left hlt
  have hnew : (t.registerVMEntry vm).entries[t.entries.length]? = some vm :=
    getElem?_concat_length ..
  have hlength : (t.registerVMEntry vm).entries.length = t.entries.length + 1 := length_append
  refine ⟨fun hm ↦ ?_, fun {id' m vm'} hm hvm' ↦ ?_, ?_, ?_, ?_, ?_, fun {id' m} hm ↦ ?_,
    forall_mem_concat hs.bare hbare, fun {stack id'} hid ↦ ?_⟩
  · rcases hvms_iff.mp hm with ⟨rfl, rfl⟩ | hm
    · exact ⟨vm, hnew, rfl⟩
    · rw [hentries (hs.lt_length hm)]
      exact hs.placed hm
  · rcases hvms_iff.mp hm with ⟨rfl, rfl⟩ | hm
    · obtain rfl := mem_unique hnew hvm'
      refine ⟨fun hmem ↦ Nat.lt_irrefl _ (hs.known _ (.inl hmem)), fun d hd ↦ ?_, htraceable⟩
      have hdir : (t.registerVMEntry vm).vmDirs vm.id = vm.bundleDir.or (t.vmDirs vm.id) :=
        update_self ..
      rw [hdir, hd, some_or]
    · rw [hentries (hs.lt_length hm)] at hvm'
      have hne : id' ≠ vm.id := by
        rintro rfl
        cases hn.symm.trans hm
      have hdir : (t.registerVMEntry vm).vmDirs id' = t.vmDirs id' := update_of_ne hne ..
      rw [hdir]
      exact hs.present hm hvm'
  · rw [hhands]
    intro m hm
    obtain ⟨hout, hfresh, hlight⟩ := hs.inHand hm
    have hlt := hs.known m (.inr hm)
    refine ⟨fun id' hid' ↦ ?_, hfresh, fun vm' hvm' ↦ hlight vm' (hentries hlt ▸ hvm')⟩
    rcases hvms_iff.mp hid' with ⟨-, rfl⟩ | hid'
    · exact Nat.lt_irrefl _ hlt
    · exact hout id' hid'
  · rw [hhands]
    intro m vm' hvm' hm hfree
    have hlt : m < t.entries.length := by
      have hlt := (List.getElem?_eq_some_iff.mp hvm').1
      have hne : m ≠ t.entries.length := fun heq ↦ hm vm.id (hvms_iff.mpr (.inl ⟨rfl, heq⟩))
      omega
    exact hs.gone (hentries hlt ▸ hvm') (fun id' hid' ↦ hm id' (hvms_iff.mpr (.inr hid'))) hfree
  · rw [hhands]
    exact hs.once
  · rw [hhands, hlength]
    exact fun m hm ↦ Nat.lt_succ_of_lt (hs.known m hm)
  · obtain ⟨hvms, hworker⟩ := hs.recorded hm
    rw [hvms_iff, hentries (hs.lt_length hvms)]
    exact ⟨.inr hvms, hworker⟩
  · -- The membership of the VM passes from the call to the entry.
    rcases hs.listed hid with ⟨vm', hvm', hmember⟩ | ⟨id₀, n₀, vm₀, hlookup, hmember⟩
    · rcases hholds vm' hvm' with hcall | rfl
      · exact .inl ⟨vm', hcall, hmember⟩
      · exact .inr ⟨_, _, _, lookup_eq_some.mpr ⟨hvms_iff.mpr (.inl ⟨rfl, rfl⟩), hnew⟩, hmember⟩
    obtain ⟨hn₀, hvm₀⟩ := lookup_eq_some.mp hlookup
    refine .inr ⟨id₀, n₀, vm₀, lookup_eq_some.mpr ⟨hvms_iff.mpr (.inr hn₀), ?_⟩, hmember⟩
    rw [hentries (hs.lt_length hn₀)]
    exact hvm₀

theorem Sound.register (hs : t.Sound calls) (hold : ∀ old ∈ t.lookup vm.id, old.2.isBare = true) :
    (t.registerVMEntry vm).Sound calls' := by
  have hfree : (t.delete vm.id).Sound calls := hs.leave_bare hold fun _ _ ↦ rfl
  have heq : (t.delete vm.id).registerVMEntry vm = t.registerVMEntry vm := by
    simp only [registerVMEntry, delete, update_idem]
  exact heq ▸ hfree.enter htraceable hbare hhands hholds (update_self ..)

end Register

variable {others : List TableCall}

theorem Sound.attach (hs : t.Sound (.booted vm :: others)) :
    (t.attach vm.member).Sound (.attached vm :: others) := by
  have hcalls : t.Sound (.attached vm :: others) :=
    hs.of_calls rfl fun vm' hvm' ↦ mem_cons_of_mem _ ((mem_cons.mp hvm').resolve_left nofun)
  cases hmember : vm.member with
  | none => exact hcalls
  | some m =>
    refine { hcalls with listed := fun {stack id} hid ↦ ?_ }
    by_cases hstack : stack = m.1
    · subst hstack
      simp only [Tables.attach, update_self, mem_insert_iff] at hid
      rcases hid with rfl | hid
      · exact .inl ⟨vm, mem_cons_self, hmember⟩
      · exact hcalls.listed hid
    · simp only [Tables.attach, update_of_ne hstack] at hid
      exact hcalls.listed hid

theorem Sound.persist (hs : t.Sound calls) (hvm : t.entries[n]? = some vm) (ok : Bool)
    (hpresent : vm.worker = true → t.vms vm.id = some n) :
    (t.persistWorkerEntry n vm ok).Sound calls := by
  unfold persistWorkerEntry
  split_ifs with hworker hok
  · refine { hs with recorded := fun {id m} hm ↦ ?_ }
    rcases update_eq_some_iff.mp hm with ⟨rfl, heq⟩ | ⟨-, hm⟩
    · obtain ⟨⟩ := heq
      refine ⟨hpresent hworker, fun vm' hvm' ↦ ?_⟩
      rw [mem_unique hvm' hvm]
      exact hworker
    · exact hs.recorded hm
  · exact hs
  · refine { hs with recorded := fun {id m} hm ↦ ?_ }
    rcases update_eq_some_iff.mp hm with ⟨-, heq⟩ | ⟨-, hm⟩
    · cases heq
    · exact hs.recorded hm

theorem count_runCleanup_of_ne {m : ℕ} (hm : m ≠ n) :
    (t.runCleanup n vm).cleaned.count m = t.cleaned.count m := by
  unfold runCleanup
  split_ifs
  · exact count_cons_of_ne hm.symm
  · rfl

theorem count_runCleanup (hfresh : n ∉ t.cleaned) (hcleanup : vm.hasCleanup = true) :
    (t.runCleanup n vm).cleaned.count n = 1 := by
  rw [runCleanup, if_pos hcleanup, count_cons_self, count_eq_zero_of_not_mem hfresh]

/-- A call takes an entry out of the map that has only its cleanup function. -/
theorem Sound.take (hs : t.Sound calls) (hn : t.vms id = some n) (hvm : t.entries[n]? = some vm)
    (hlight : vm.isLight = true) : (t.delete id).Sound (.unregistering n :: calls) := by
  obtain ⟨hworker, hmember, -⟩ := isLight_iff.mp hlight
  have hfree : n ∉ calls.filterMap TableCall.inHand := fun hin ↦ (hs.inHand hin).1 id hn
  have hhands : (TableCall.unregistering n :: calls).filterMap TableCall.inHand =
      n :: calls.filterMap TableCall.inHand := filterMap_cons_some rfl
  refine ⟨fun hm ↦ hs.placed (delete_vms_eq_some.mp hm).2,
    fun hm ↦ hs.present (delete_vms_eq_some.mp hm).2, ?_, ?_, ?_, ?_, fun {id' m} hm ↦ ?_, hs.bare,
    fun {stack id'} hid ↦ ?_⟩
  · intro m hm
    rcases mem_cons.mp hm with rfl | hm
    · refine ⟨fun id' hid' ↦ ?_, (hs.present hn hvm).1, fun vm' hvm' ↦ ?_⟩
      · obtain ⟨hne, hid'⟩ := delete_vms_eq_some.mp hid'
        exact hne (hs.eq_of_vms hid' hn)
      · rw [mem_unique hvm' hvm]
        exact hlight
    · obtain ⟨hout, hrest⟩ := hs.inHand hm
      exact ⟨fun id' hid' ↦ hout id' (delete_vms_eq_some.mp hid').2, hrest⟩
  · intro m vm' hvm' hm hout
    obtain ⟨hne, hout⟩ := not_or.mp (mt mem_cons.mpr hout)
    refine hs.gone hvm' (fun id' hid' ↦ hm id' (delete_vms_eq_some.mpr ⟨?_, hid'⟩)) hout
    rintro rfl
    exact hne (mem_unique hid' hn)
  · exact nodup_cons.mpr ⟨hfree, hs.once⟩
  · rintro m (hm | hm)
    · exact hs.known m (.inl hm)
    · rcases mem_cons.mp hm with rfl | hm
      · exact hs.lt_length hn
      · exact hs.known m (.inr hm)
  · obtain ⟨hm', hrecorded⟩ := hs.recorded hm
    refine ⟨delete_vms_eq_some.mpr ⟨?_, hm'⟩, hrecorded⟩
    rintro rfl
    obtain rfl := mem_unique hm' hn
    nomatch hworker.symm.trans (hrecorded vm hvm)
  · refine (hs.listed hid).imp (fun ⟨vm', hvm', hm⟩ ↦ ⟨vm', mem_cons_of_mem _ hvm', hm⟩) ?_
    rintro ⟨id₀, n₀, vm₀, hlookup, hmember₀⟩
    obtain ⟨hn₀, hvm₀⟩ := lookup_eq_some.mp hlookup
    refine ⟨id₀, n₀, vm₀, lookup_eq_some.mpr ⟨delete_vms_eq_some.mpr ⟨?_, hn₀⟩, hvm₀⟩, hmember₀⟩
    rintro rfl
    obtain rfl := mem_unique hn₀ hn
    obtain rfl := mem_unique hvm₀ hvm
    nomatch hmember.symm.trans hmember₀

theorem runCleanup_eq : t.runCleanup n vm =
    { t with cleaned := if vm.hasCleanup then n :: t.cleaned else t.cleaned } := by
  unfold runCleanup
  split_ifs <;> rfl

theorem Sound.finish (hs : t.Sound (.unregistering n :: others))
    (hvm : t.entries[n]? = some vm) : (t.runCleanup n vm).Sound (.finished :: others) := by
  have hhands : (TableCall.unregistering n :: others).filterMap TableCall.inHand =
      n :: others.filterMap TableCall.inHand := filterMap_cons_some rfl
  have hhands' : (TableCall.finished :: others).filterMap TableCall.inHand =
      others.filterMap TableCall.inHand := filterMap_cons_none rfl
  have hmem : n ∈ (TableCall.unregistering n :: others).filterMap TableCall.inHand := by
    exact mem_cons_self
  obtain ⟨hout, hfresh, hlight⟩ := hs.inHand hmem
  have honce := hs.once
  rw [hhands, nodup_cons] at honce
  have hcleaned : ∀ m, m ≠ n → (m ∈ (t.runCleanup n vm).cleaned ↔ m ∈ t.cleaned) := by
    intro m hm
    rw [← count_pos_iff, count_runCleanup_of_ne hm, count_pos_iff]
  have hcount : vm.hasCleanup = true → (t.runCleanup n vm).cleaned.count n = 1 :=
    count_runCleanup hfresh
  have hrest := @count_runCleanup_of_ne t n vm
  rw [runCleanup_eq] at hcleaned hcount hrest ⊢
  refine ⟨hs.placed, fun {id m vm'} hm hvm' ↦ ?_, ?_, ?_, ?_, ?_, hs.recorded, hs.bare,
    fun hid ↦ (hs.listed hid).imp_left ?_⟩
  · have hne : m ≠ n := fun heq ↦ hout id (heq ▸ hm)
    rw [hcleaned m hne]
    exact hs.present hm hvm'
  · intro m hm
    have hne : m ≠ n := fun heq ↦ honce.1 (heq ▸ hm)
    rw [hcleaned m hne]
    exact hs.inHand (hhands ▸ mem_cons_of_mem _ hm)
  · intro m vm' hvm' hm hfree
    by_cases hne : m = n
    · subst hne
      obtain rfl := mem_unique hvm' hvm
      refine ⟨hcount, fun d hd ↦ ?_⟩
      cases (isLight_iff.mp (hlight vm' hvm)).2.2.symm.trans hd
    · have hfree' : m ∉ (TableCall.unregistering n :: others).filterMap TableCall.inHand := by
        exact mt mem_cons.mp (not_or.mpr ⟨hne, hfree⟩)
      have hold := hs.gone hvm' hm hfree'
      exact ⟨fun hcleanup ↦ (hrest hne).trans (hold.1 hcleanup), hold.2⟩
  · exact honce.2
  · intro m hm
    by_cases hne : m = n
    · exact hne ▸ (List.getElem?_eq_some_iff.mp hvm).1
    · refine hs.known m (hm.imp (hcleaned m hne).mp fun hin ↦ ?_)
      exact mem_cons_of_mem _ hin
  · rintro ⟨vm', hvm', hm⟩
    exact ⟨vm', mem_cons_of_mem _ (mem_of_ne_of_mem (by simp) hvm'), hm⟩

variable {stack : Option String}

theorem releaseComposeStackResources_eq :
    t.releaseComposeStackResources id stack =
      { t with vmIDs := (t.releaseComposeStackResources id stack).vmIDs } := by
  cases stack <;> rfl

theorem mem_vmIDs_release {name : String}
    (h : id' ∈ (t.releaseComposeStackResources id stack).vmIDs name) :
    id' ∈ t.vmIDs name ∧ stack.map (fun stack ↦ (stack, id)) ≠ some (name, id') := by
  cases stack with
  | none => exact ⟨h, nofun⟩
  | some stack =>
    by_cases hname : name = stack
    · subst hname
      simp only [releaseComposeStackResources, update_self, mem_filter] at h
      refine ⟨h.1, fun heq ↦ ?_⟩
      simp only [map_some, Option.some.injEq, Prod.mk.injEq] at heq
      simp [heq] at h
    · simp only [releaseComposeStackResources, update_of_ne hname] at h
      refine ⟨h, fun heq ↦ hname ?_⟩
      exact (congrArg Prod.fst (Option.some.inj heq)).symm

/-- **A VM that has stopped is taken out.** -/
theorem Sound.cleanStopped (hs : t.Sound calls) : (t.cleanStopped id).Sound calls := by
  unfold Tables.cleanStopped
  split
  · exact hs
  rename_i n vm hlookup
  split_ifs
  · exact hs
  obtain ⟨hn, hvm⟩ := lookup_eq_some.mp hlookup
  obtain ⟨hfresh, hdir, htraceable⟩ := hs.present hn hvm
  obtain ⟨vm', hvm', rfl⟩ := hs.placed hn
  obtain rfl := mem_unique hvm' hvm
  have hcount : ∀ {m}, m ≠ n → (t.runCleanup n vm').cleaned.count m = t.cleaned.count m :=
    count_runCleanup_of_ne
  have hcleaned := @count_runCleanup t n vm' hfresh
  rw [runCleanup_eq] at hcount hcleaned
  rw [releaseComposeStackResources_eq, runCleanup_eq]
  refine hs.leave hn hvm rfl rfl (fun id' hne ↦ update_of_ne hne ..)
    (fun {id' m} hm ↦ ?_) (fun m hm ↦ hcount hm) (fun d hd ↦ mem_append_right _ hd)
    (fun stack id' hid ↦ ?_) ⟨hcleaned, fun d hd ↦ ?_⟩
  · rcases update_eq_some_iff.mp hm with ⟨-, hnone⟩ | hother
    · cases hnone
    · exact hother
  · obtain ⟨hid, hreleased⟩ := mem_vmIDs_release hid
    refine ⟨hid, ?_⟩
    rcases htraceable with hnone | hsame
    · simp [hnone]
    · rwa [hsame]
  · refine mem_append_left _ ?_
    simp [hdir d hd]

end Tables

/-! ## Steps of calls -/

/-- What a step of a call can do, one case for each. -/
inductive TableStep (t : Tables) : TableCallEvent → TableCall → Tables → TableCall → Prop
  | attach {vm : VM} : TableStep t .attach (.booted vm) (t.attach vm.member) (.attached vm)
  | attachError {vm : VM} : TableStep t .attachError (.booted vm) t .finished
  | register {vm : VM} :
      TableStep t .register (.attached vm) (t.registerVMEntry vm) (.persisting t.entries.length)
  | persist {ok : Bool} {n : ℕ} {vm : VM} (hvm : t.entries[n]? = some vm) :
      TableStep t (.persist ok) (.persisting n) (t.persistWorkerEntry n vm ok) .finished
  | finish {n : ℕ} {vm : VM} (hvm : t.entries[n]? = some vm) :
      TableStep t .finish (.unregistering n) (t.runCleanup n vm) .finished
  | migrated {id : String} : TableStep t .migrated (.migrating id) (t.forget id) .finished

/-- Is the call about to register an entry without a handle? -/
def TableCall.isPending : TableCall → Bool
  | .booted vm | .attached vm => vm.pending
  | _ => false

section Steps

variable {t t' : Tables} {c c' : TableCall} {others : List TableCall} {e : TableCallEvent}
  {s s' : TableServer}

theorem TableStep.of_advanceCall (h : advanceCall t c e = some (t', c')) :
    TableStep t e c t' c' := by
  revert h
  fun_cases advanceCall t c e with
  | case7 ok n | case9 n =>
    intro h
    obtain ⟨vm, hvm, ⟨⟩⟩ := map_eq_some_iff.mp h
    constructor
    exact hvm
  | _ =>
    rintro ⟨⟩
    all_goals constructor

theorem TableStep.isPending (hstep : TableStep t e c t' c') (hc : c.isPending = false) :
    c'.isPending = false := by
  cases hstep with
  | attach => exact hc
  | _ => rfl

/-- **A step of a call** keeps what has been given back. -/
theorem TableStep.sound (hstep : TableStep t e c t' c') (hs : t.Sound (c :: others))
    (hc : c.isPending = false) (hok : c.Tidy t e) : t'.Sound (c' :: others) := by
  -- A call that neither was attached nor is it now.
  have hothers : ∀ {c c' : TableCall}, c.registers = none → ∀ vm, .attached vm ∈ c :: others →
      .attached vm ∈ c' :: others := by
    intro c c' hc vm hvm
    refine mem_cons_of_mem _ ((mem_cons.mp hvm).resolve_left ?_)
    rintro rfl
    nomatch hc
  cases hstep with
  | attach => exact hs.attach
  | attachError => exact hs.of_calls rfl (hothers rfl)
  | @register vm =>
    obtain ⟨hold, htraceable⟩ := hok vm rfl
    refine hs.register htraceable (fun hpending ↦ nomatch hc.symm.trans hpending) (by rfl)
      (fun vm' hvm' ↦ ?_) hold
    rcases mem_cons.mp hvm' with heq | hvm'
    · exact .inr (TableCall.attached.inj heq)
    · exact .inl (mem_cons_of_mem _ hvm')
  | persist hvm => exact (hs.persist hvm _ (hok _ rfl _ hvm)).of_calls rfl (hothers rfl)
  | finish hvm => exact hs.finish hvm
  | @migrated id =>
    have hforget : (t.forget id).Sound (.migrating id :: others) :=
      hs.leave_bare (hok id rfl) fun id' hne ↦ update_of_ne hne ..
    exact hforget.of_calls rfl (hothers rfl)

end Steps

/-! ## Runs -/

open TableServer

namespace TableServer

variable {s s' : TableServer}

/-- The invariant of the tables and of the calls. -/
structure Sound (s : TableServer) : Prop where
  tables : s.tables.Sound s.calls
  handles : ∀ c ∈ s.calls, c.isPending = false

theorem Sound.begin (hs : s.Sound) {c : TableCall} (hhand : c.inHand = none)
    (hpending : c.isPending = false) : Sound { s with calls := s.calls ++ [c] } where
  tables := by
    refine hs.tables.of_calls ?_ fun vm hvm ↦ mem_append_left _ hvm
    rw [filterMap_append, filterMap_cons_none hhand, filterMap_nil, append_nil]
  handles := forall_mem_concat hs.handles hpending

theorem Sound.stopAndUnregister (hs : s.Sound) {id : String}
    (hok : ∀ old ∈ s.tables.lookup id, old.2.isLight = true) : (s.stopAndUnregister id).Sound := by
  unfold TableServer.stopAndUnregister
  split
  · exact hs
  rename_i n vm hlookup
  obtain ⟨hn, hvm⟩ := Tables.lookup_eq_some.mp hlookup
  split_ifs with hpending
  · refine ⟨hs.tables.leave_bare (fun old hold ↦ ?_) fun _ _ ↦ rfl, hs.handles⟩
    obtain rfl := mem_unique hlookup hold
    exact hs.tables.bare vm (mem_of_getElem? hvm) hpending
  · exact ⟨(hs.tables.take hn hvm (hok _ hlookup)).perm (perm_append_singleton _ _).symm,
      forall_mem_concat hs.handles rfl⟩

theorem Sound.step {e : TableEvent} (hs : s.Sound) (hok : s.Tidy e) (hstep : s.step e = some s') :
    s'.Sound := by
  cases e with
  | boot vm =>
    simp only [TableServer.step] at hstep
    split_ifs at hstep with hpending
    rw [← Option.some.inj hstep]
    exact hs.begin rfl (eq_false_of_ne_true hpending)
  | announce id =>
    rw [← Option.some.inj hstep]
    have hregistered : (s.tables.registerVMEntry (.announced id)).Sound s.calls :=
      hs.tables.register (.inl rfl) (fun _ ↦ rfl) rfl (fun _ ↦ .inl) hok
    have hserver : Sound ⟨s.tables.registerVMEntry (.announced id), s.calls⟩ :=
      ⟨hregistered, hs.handles⟩
    exact hserver.begin rfl rfl
  | halt n =>
    rw [← Option.some.inj hstep]
    exact ⟨{ hs.tables with }, hs.handles⟩
  | cleanStopped id =>
    rw [← Option.some.inj hstep]
    exact ⟨hs.tables.cleanStopped, hs.handles⟩
  | stopAndUnregister id =>
    rw [← Option.some.inj hstep]
    exact hs.stopAndUnregister hok
  | migrate id =>
    simp only [TableServer.step] at hstep
    split at hstep
    · exact Option.some.inj hstep ▸ hs
    · split_ifs at hstep
      rw [← Option.some.inj hstep]
      exact hs.begin rfl rfl
  | act i e =>
    obtain ⟨c, hi, hadvance⟩ := bind_eq_some_iff.mp hstep
    obtain ⟨⟨t', c'⟩, hr, rfl⟩ := map_eq_some_iff.mp hadvance
    have hcall := TableStep.of_advanceCall hr
    have hc := hs.handles c (mem_of_getElem? hi)
    refine ⟨?_, forall_mem_set hs.handles (hcall.isPending hc)⟩
    have hafter := hcall.sound (hs.tables.perm (cons_eraseIdx_perm hi).symm) hc (hok c hi)
    exact hafter.perm (set_perm_cons_eraseIdx (List.getElem?_eq_some_iff.mp hi).1 c').symm

end TableServer

/-! ## Two runs -/

end Gocracker.Api
