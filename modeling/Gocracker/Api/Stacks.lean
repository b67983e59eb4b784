import Gocracker.Transition.Custody
import Gocracker.Transition.Run

/-!
# The networks of compose stacks

The VMs of a compose stack share a network. The server keeps it by the name of the stack, together
with the ids of the VMs that are attached; the first VM creates it, and when the last id is taken
out it is closed.

## What may come between

A VM *obtains* the network and *attaches* to it in two separate accesses to the map, and in between
it is not counted. So the network may be closed meanwhile, by the last VM that is counted, or by the
VM that has created it and fails. The other way round, only the creator gives the network back when
it fails, and not for every failure, so that a network may stay without anybody to close it. `Close`
itself runs after the lock has been released, and removes whatever has the names of the stack, even
if another network was created under them.
-/

namespace Gocracker.Api

open Transition List Option Function

/-! ## The state -/

/-- A `stacknet.Manager`. It is closed when the namespace and the links of its stack are removed. -/
structure Network where
  stack : String
  closed : Bool
  deriving DecidableEq

/-- A stack: its network, and the VMs attached to it. -/
structure ComposeStack where
  network : ℕ
  vmIDs : List String
  deriving DecidableEq

/-- The networks ever created, by number, and `composeStacks`. -/
structure Stacks where
  networks : List Network
  composeStacks : String → Option ComposeStack

/-- How far the creation of a member has come. -/
inductive MemberStage where
  | starting
  | obtained (network : ℕ) (created : Bool)
  | attached (network : ℕ)
  /-- It has taken the network out of the map, and is going to close it. -/
  | closing (network : ℕ)
  | left
  deriving DecidableEq

/-- A VM whose metadata name a stack. -/
structure Member where
  id : String
  stack : String
  stage : MemberStage
  deriving DecidableEq

structure StackServer where
  table : Stacks
  members : List Member

/-- How the creation of a network ends, if it comes to that. -/
inductive Creation where
  | created
  /-- Nothing was done yet: a bad address, or no free subnet. -/
  | rejected
  /-- What had the names of the stack was already removed. -/
  | failed
  deriving DecidableEq

inductive MemberEvent where
  /-- `ensureComposeStackNetwork`. -/
  | ensure (creation : Creation)
  /-- The VM has no tap or no address. -/
  | missing
  /-- The tap cannot be attached, or a port not be forwarded. -/
  | fail
  | attach
  /-- `releaseComposeStackResources` for a VM that has stopped. -/
  | release
  /-- The VM is unregistered or migrated, which does not release anything. -/
  | forget
  | close
  deriving DecidableEq

inductive StackEvent where
  | start (id stack : String)
  | act (i : ℕ) (e : MemberEvent)
  deriving DecidableEq

/-! ## Steps -/

namespace Stacks

def init : Stacks where
  networks := []
  composeStacks := fun _ ↦ none

variable (s : Stacks) (name : String)

/-- Everything with the names of the stack is removed from the host. -/
def close : Stacks :=
  { s with
    networks := s.networks.map fun w ↦ if w.stack = name then { w with closed := true } else w }

/-- The entry of a stack is replaced or removed. -/
def put (stack : Option ComposeStack) : Stacks :=
  { s with composeStacks := Function.update s.composeStacks name stack }

/-- `stacknet.New` removes what has the names of the stack, and the new network has no VMs. -/
def create : Stacks where
  networks := (s.close name).networks ++ [⟨name, false⟩]
  composeStacks := Function.update s.composeStacks name (some ⟨s.networks.length, []⟩)

/-- The first member makes the network, the others share it. -/
def ensureComposeStackNetwork (creation : Creation) :
    Stacks × MemberStage :=
  match s.composeStacks name with
  | some stack => (s, .obtained stack.network false)
  | none =>
    match creation with
    | .created => (s.create name, .obtained s.networks.length true)
    | .rejected => (s, .left)
    | .failed => (s.close name, .left)

/-- The last part of `attachComposeStackResources`. If the stack is gone, it is put there again,
with the network that was obtained. -/
def attach (s : Stacks) (id name : String) (network : ℕ) : Stacks :=
  match s.composeStacks name with
  | some stack => s.put name (some { stack with vmIDs := stack.vmIDs.insert id })
  | none => s.put name (some ⟨network, [id]⟩)

/-- The id is taken out, and the stack with the last one. The caller has to close its network. -/
def releaseComposeStackResources (s : Stacks) (id name : String) : Stacks × MemberStage :=
  match s.composeStacks name with
  | none => (s, .left)
  | some stack =>
    let rest := stack.vmIDs.filter (· ≠ id)
    if rest = [] then (s.put name none, .closing stack.network)
    else (s.put name (some { stack with vmIDs := rest }), .left)

end Stacks

def advance (s : Stacks) (m : Member) : MemberEvent → Option (Stacks × MemberStage)
  | .ensure creation =>
    if m.stage = .starting then some (s.ensureComposeStackNetwork m.stack creation) else none
  | .missing =>
    match m.stage with
    | .obtained _ _ => some (s, .left)
    | _ => none
  | .fail =>
    match m.stage with
    -- Only the creator gives the network back.
    | .obtained _ true => some (s.releaseComposeStackResources m.id m.stack)
    | .obtained _ false => some (s, .left)
    | _ => none
  | .attach =>
    match m.stage with
    | .obtained n _ => some (s.attach m.id m.stack n, .attached n)
    | _ => none
  | .release =>
    match m.stage with
    | .attached _ => some (s.releaseComposeStackResources m.id m.stack)
    | _ => none
  | .forget =>
    match m.stage with
    | .attached _ => some (s, .left)
    | _ => none
  | .close =>
    match m.stage with
    -- The network has the names of the stack it was found under.
    | .closing _ => some (s.close m.stack, .left)
    | _ => none

namespace StackServer

def init : StackServer := ⟨.init, []⟩

def step (s : StackServer) : StackEvent → Option StackServer
  | .start id stack => some { s with members := s.members ++ [⟨id, stack, .starting⟩] }
  | .act i e =>
    (s.members[i]?).bind fun m ↦ (advance s.table m e).map fun r ↦
      ⟨r.1, s.members.set i { m with stage := r.2 }⟩

end StackServer

/-! ## What is counted -/

/-- The network that a VM is attached to, or is going to be. -/
def MemberStage.network : MemberStage → Option ℕ
  | .obtained n _ | .attached n => some n
  | _ => none

/-- The network that a member counts for. -/
def MemberStage.attachedTo : MemberStage → Option ℕ
  | .attached n => some n
  | _ => none

/-- The network that a member is about to close. -/
def MemberStage.closes : MemberStage → Option ℕ
  | .closing n => some n
  | _ => none

/-- **Networks are counted correctly.** -/
structure StackServer.Counted (s : StackServer) : Prop where
  /-- A network is closed only when no VM is attached to it or has obtained it. -/
  used_open : ∀ m ∈ s.members, ∀ n, m.stage.network = some n →
    ∃ w, s.table.networks[n]? = some w ∧ w.closed = false
  /-- When the last of them has left, it is closed, or about to be. -/
  unused_closed : ∀ n w, s.table.networks[n]? = some w → w.closed = false →
    ∃ m ∈ s.members, m.stage.network = some n ∨ m.stage.closes = some n
  /-- What the next VM is given is not closed. -/
  offered_open : ∀ name stack, s.table.composeStacks name = some stack →
    ∃ w, s.table.networks[stack.network]? = some w ∧ w.closed = false

/-! ## The condition -/

variable (others : List Member) (m : Member)

/-- Has one of the other VMs of the stack the network of this one? -/
def Member.Shared : Prop :=
  ∃ m' ∈ others, m'.stage.network = m.stage.network

/-- Is one of the other VMs attached to it? -/
def Member.Kept : Prop :=
  ∃ m' ∈ others, m'.stage.attachedTo = m.stage.network
deriving Decidable

instance decidableShared (others : List Member) (m : Member) : Decidable (m.Shared others) :=
  inferInstanceAs (Decidable (∃ m' ∈ others, _))

/-- Is it the member that has made the network? -/
def MemberStage.hasCreated : MemberStage → Bool
  | .obtained _ created => created
  | _ => false

/-- Whoever takes out the last id is the last one to have the network; whoever fails without giving
it back is not; VMs that are attached are released; and a network is not looked for while one of the
same stack is being closed. -/
def Member.Orderly : MemberEvent → Prop
  | .ensure _ => ∀ m' ∈ others, m'.stage.closes = none
  | .missing => m.Shared others
  | .fail => if m.stage.hasCreated then m.Shared others → m.Kept others else m.Shared others
  | .attach => True
  | .release => m.Shared others → m.Kept others
  | .forget => False
  | .close => True

instance decidableOrderlyMember (others : List Member) (m : Member) :
    ∀ e : MemberEvent, Decidable (m.Orderly others e)
  | .ensure _ => inferInstanceAs (Decidable (∀ m' ∈ others, _))
  | .missing => decidableShared others m
  | .fail => inferInstanceAs (Decidable (if m.stage.hasCreated then _ else _))
  | .attach => .isTrue trivial
  | .release => inferInstanceAs (Decidable (_ → _))
  | .forget => .isFalse id
  | .close => .isTrue trivial

def ofStack (name : String) (members : List Member) : List Member :=
  members.filter fun m ↦ m.stack = name

/-- And of the VMs of a stack that have not left, no two have the same id. -/
def StackServer.Orderly (s : StackServer) : StackEvent → Prop
  | .start id stack => ∀ m ∈ ofStack stack s.members, m.stage ≠ .left → m.id ≠ id
  | .act i e => ∀ m ∈ s.members[i]?, m.Orderly (ofStack m.stack (s.members.eraseIdx i)) e

instance decidableOrderlyStack (s : StackServer) : ∀ e : StackEvent, Decidable (s.Orderly e)
  | .start id stack =>
    inferInstanceAs (Decidable (∀ m ∈ ofStack stack s.members, m.stage ≠ .left → m.id ≠ id))
  | .act i e =>
    inferInstanceAs
      (Decidable (∀ m ∈ s.members[i]?, m.Orderly (ofStack m.stack (s.members.eraseIdx i)) e))

/-! ## What a step can do -/

/-- The events at which an id is taken out, with the network of the VM. -/
def Releases (e : MemberEvent) (stage : MemberStage) (n : ℕ) : Prop :=
  (e = .fail ∧ stage = .obtained n true) ∨ (e = .release ∧ stage = .attached n)

/-- The steps of a VM, one constructor for each way it can go. -/
inductive MemberStep (s : Stacks) (m : Member) : MemberEvent → Stacks → MemberStage → Prop
  | share {creation : Creation} {stack : ComposeStack} (hstage : m.stage = .starting)
      (hstack : s.composeStacks m.stack = some stack) :
      MemberStep s m (.ensure creation) s (.obtained stack.network false)
  | create (hstage : m.stage = .starting) (hstack : s.composeStacks m.stack = none) :
      MemberStep s m (.ensure .created) (s.create m.stack) (.obtained s.networks.length true)
  | reject (hstage : m.stage = .starting) : MemberStep s m (.ensure .rejected) s .left
  | createError (hstage : m.stage = .starting) (hstack : s.composeStacks m.stack = none) :
      MemberStep s m (.ensure .failed) (s.close m.stack) .left
  | missing {n : ℕ} {created : Bool} (hstage : m.stage = .obtained n created) :
      MemberStep s m .missing s .left
  | fail {n : ℕ} (hstage : m.stage = .obtained n false) : MemberStep s m .fail s .left
  | attach {n : ℕ} {created : Bool} (hstage : m.stage = .obtained n created) :
      MemberStep s m .attach (s.attach m.id m.stack n) (.attached n)
  | releaseNone {e : MemberEvent} {n : ℕ} (he : Releases e m.stage n)
      (hstack : s.composeStacks m.stack = none) : MemberStep s m e s .left
  | releaseLast {e : MemberEvent} {n : ℕ} {stack : ComposeStack} (he : Releases e m.stage n)
      (hstack : s.composeStacks m.stack = some stack)
      (hrest : stack.vmIDs.filter (· ≠ m.id) = []) :
      MemberStep s m e (s.put m.stack none) (.closing stack.network)
  | releaseOther {e : MemberEvent} {n : ℕ} {stack : ComposeStack} (he : Releases e m.stage n)
      (hstack : s.composeStacks m.stack = some stack)
      (hrest : stack.vmIDs.filter (· ≠ m.id) ≠ []) :
      MemberStep s m e
        (s.put m.stack (some { stack with vmIDs := stack.vmIDs.filter (· ≠ m.id) })) .left
  | forget {n : ℕ} (hstage : m.stage = .attached n) : MemberStep s m .forget s .left
  | close {n : ℕ} (hstage : m.stage = .closing n) : MemberStep s m .close (s.close m.stack) .left

open Stacks

section Inversion

variable {s s' : Stacks} {m : Member} {e : MemberEvent} {stage : MemberStage} {n : ℕ}

theorem MemberStep.of_release (he : Releases e m.stage n)
    (h : s.releaseComposeStackResources m.id m.stack = (s', stage)) :
    MemberStep s m e s' stage := by
  revert h
  fun_cases releaseComposeStackResources s m.id m.stack with rintro ⟨⟩
  | case1 hstack => exact .releaseNone he hstack
  | case2 stack hstack rest hrest => exact .releaseLast he hstack hrest
  | case3 stack hstack rest hrest => exact .releaseOther he hstack hrest

/-- **Every step of a VM is one of these.** -/
theorem MemberStep.of_advance (h : advance s m e = some (s', stage)) :
    MemberStep s m e s' stage := by
  revert h
  fun_cases advance s m e with try rintro ⟨⟩
  | case1 creation hstage =>
    fun_cases ensureComposeStackNetwork s m.stack creation
    all_goals rintro ⟨⟩
    all_goals constructor <;> assumption
  | case5 n hstage => exact fun h ↦ .of_release (.inl ⟨rfl, hstage⟩) (Option.some.inj h)
  | case10 n hstage => exact fun h ↦ .of_release (.inr ⟨rfl, hstage⟩) (Option.some.inj h)
  | case12 n hstage => exact .forget hstage
  | _ => all_goals constructor <;> assumption

end Inversion

/-! ## One stack

Stacks do not interfere: a step of a VM concerns the open networks of its own stack, the entry of
that stack, and its members. So the invariant is about one stack, and the VM that makes the step
stands in front of the other members. -/

/-- The stack's entry lists the VMs that are attached. Its network is open, and is the one that all
members have; any other network that is open is about to be closed. -/
structure Tally (isOpen : ℕ → Prop) (entry : Option ComposeStack) (members : List Member) :
    Prop where
  opened : ∀ stack ∈ entry, isOpen stack.network
  listed : ∀ stack ∈ entry, ∀ id, id ∈ stack.vmIDs ↔
    ∃ m ∈ members, m.stage.attachedTo = some stack.network ∧ m.id = id
  held : ∀ m ∈ members, ∀ n, m.stage.network = some n → entry.map ComposeStack.network = some n
  needed : ∀ n, isOpen n → ∃ m ∈ members, m.stage.network = some n ∨ m.stage.closes = some n
  closing : ∀ m ∈ members, m.stage.closes ≠ none → entry = none
  distinct : ((members.filter fun m ↦ m.stage ≠ .left).map Member.id).Nodup

theorem MemberStage.network_of_attachedTo {stage : MemberStage} {n : ℕ}
    (h : stage.attachedTo = some n) : stage.network = some n := by
  cases stage <;> first | exact h | nomatch h

open MemberStage

namespace Tally

variable {isOpen isOpen' : ℕ → Prop} {entry entry' : Option ComposeStack} {m : Member}
  {members others : List Member} {stage : MemberStage} {n : ℕ}

theorem perm (h : Tally isOpen entry members) (hperm : members.Perm others) :
    Tally isOpen entry others where
  opened := h.opened
  listed stack hstack id := by
    rw [h.listed stack hstack id]
    simp only [hperm.mem_iff]
  held m hm := h.held m (hperm.mem_iff.mpr hm)
  needed n hn := by
    obtain ⟨m, hm, hneed⟩ := h.needed n hn
    exact ⟨m, hperm.mem_iff.mp hm, hneed⟩
  closing m hm := h.closing m (hperm.mem_iff.mpr hm)
  distinct := ((hperm.filter _).map _).nodup_iff.mp h.distinct

/-- No other member that is still there has the same id. -/
theorem id_ne (h : Tally isOpen entry (m :: others)) (hlive : m.stage ≠ .left) {m' : Member}
    (hm' : m' ∈ others) (hlive' : m'.stage ≠ .left) : m'.id ≠ m.id := by
  have hdistinct := h.distinct
  rw [filter_cons_of_pos (by simpa using hlive), map_cons, nodup_cons] at hdistinct
  rintro heq
  refine hdistinct.1 (heq ▸ List.mem_map_of_mem (mem_filter.mpr ⟨hm', ?_⟩))
  simpa using hlive'

theorem distinct_setStage (h : Tally isOpen entry (m :: others)) (hlive : m.stage ≠ .left)
    (stage : MemberStage) :
    ((({ m with stage := stage } :: others).filter fun m ↦ m.stage ≠ .left).map
      Member.id).Nodup := by
  have hdistinct := h.distinct
  rw [filter_cons_of_pos (by simpa using hlive)] at hdistinct
  rw [filter_cons]
  split_ifs
  · exact hdistinct
  · exact (nodup_cons.mp hdistinct).2

theorem start (h : Tally isOpen entry others) {id : String} {name : String}
    (hfresh : ∀ m ∈ others, m.stage ≠ .left → m.id ≠ id) :
    Tally isOpen entry (⟨id, name, .starting⟩ :: others) where
  opened := h.opened
  listed stack hstack id' := by
    rw [h.listed stack hstack id', exists_mem_cons_iff]
    exact ⟨.inr, fun hor ↦ hor.resolve_left fun hnew ↦ nomatch hnew.1⟩
  held := forall_mem_cons.mpr ⟨nofun, h.held⟩
  needed n hn := by
    obtain ⟨m, hm, hneed⟩ := h.needed n hn
    exact ⟨m, mem_cons_of_mem _ hm, hneed⟩
  closing := forall_mem_cons.mpr ⟨fun hclose ↦ absurd rfl hclose, h.closing⟩
  distinct := by
    rw [filter_cons_of_pos (by simp), map_cons, nodup_cons]
    refine ⟨fun hmem ↦ ?_, h.distinct⟩
    obtain ⟨m, hm, hid⟩ := mem_map.mp hmem
    obtain ⟨hm, hlive⟩ := mem_filter.mp hm
    exact hfresh m hm (by simpa using hlive) hid

theorem pass (h : Tally isOpen entry (m :: others)) (hlive : m.stage ≠ .left)
    (hunlisted : m.stage.attachedTo = none) (hunlisted' : stage.attachedTo = none)
    (hheld : ∀ n, stage.network = some n → entry.map ComposeStack.network = some n)
    (hneeded : ∀ n, m.stage.network = some n ∨ m.stage.closes = some n →
      ∃ m' ∈ others, m'.stage.network = some n ∨ m'.stage.closes = some n)
    (hcloses : stage.closes = none) : Tally isOpen entry ({ m with stage := stage } :: others) where
  opened := h.opened
  listed stack hstack id := by
    rw [h.listed stack hstack id, exists_mem_cons_iff, exists_mem_cons_iff, hunlisted, hunlisted']
  held := forall_mem_cons.mpr ⟨hheld, (forall_mem_cons.mp h.held).2⟩
  needed n hn := by
    obtain ⟨m', hm', hneed⟩ := h.needed n hn
    rcases mem_cons.mp hm' with rfl | hm'
    · obtain ⟨m'', hm'', hneed'⟩ := hneeded n hneed
      exact ⟨m'', mem_cons_of_mem _ hm'', hneed'⟩
    · exact ⟨m', mem_cons_of_mem _ hm', hneed⟩
  closing := forall_mem_cons.mpr
    ⟨fun hclose ↦ absurd hcloses hclose, (forall_mem_cons.mp h.closing).2⟩
  distinct := h.distinct_setStage hlive stage

theorem close (h : Tally isOpen none (m :: others)) (hlive : m.stage ≠ .left)
    (hclosed : ∀ n, ¬isOpen' n) : Tally isOpen' none ({ m with stage := .left } :: others) where
  opened := nofun
  listed := nofun
  held := forall_mem_cons.mpr ⟨nofun, (forall_mem_cons.mp h.held).2⟩
  needed n hn := absurd hn (hclosed n)
  closing _ _ _ := rfl
  distinct := h.distinct_setStage hlive .left

theorem network_eq_none (h : Tally isOpen none members) (hm : m ∈ members) :
    m.stage.network = none := by
  cases hn : m.stage.network with
  | none => rfl
  | some n => nomatch h.held m hm n hn

theorem create (h : Tally isOpen none (m :: others)) (hlive : m.stage ≠ .left)
    (hopen : ∀ k, isOpen' k ↔ k = n) (hidle : ∀ m' ∈ others, m'.stage.closes = none) :
    Tally isOpen' (some ⟨n, []⟩) ({ m with stage := .obtained n true } :: others) where
  opened stack hstack := by
    rw [← Option.some.inj hstack]
    exact (hopen n).mpr rfl
  listed stack hstack id := by
    rw [← Option.some.inj hstack, exists_mem_cons_iff]
    refine ⟨by simp, ?_⟩
    rintro (⟨hnone, -⟩ | ⟨m', hm', hattached, -⟩)
    · cases hnone
    · have hnone := h.network_eq_none (mem_cons_of_mem _ hm')
      cases hnone.symm.trans (network_of_attachedTo hattached)
  held := by
    refine forall_mem_cons.mpr ⟨fun k hk ↦ hk, fun m' hm' k hk ↦ ?_⟩
    cases (h.network_eq_none (mem_cons_of_mem _ hm')).symm.trans hk
  needed k hk := ⟨_, mem_cons_self, .inl (congrArg some ((hopen k).mp hk).symm)⟩
  closing := forall_mem_cons.mpr
    ⟨fun hclose ↦ absurd rfl hclose, fun m' hm' hclose ↦ absurd (hidle m' hm') hclose⟩
  distinct := h.distinct_setStage hlive _

theorem attach {stack : ComposeStack} {created : Bool}
    (h : Tally isOpen (some stack) (m :: others)) (hstage : m.stage = .obtained n created) :
    Tally isOpen (some { stack with vmIDs := stack.vmIDs.insert m.id })
      ({ m with stage := .attached n } :: others) := by
  have hnetwork : stack.network = n :=
    Option.some.inj (h.held m mem_cons_self n (by rw [hstage]; rfl))
  have hlive : m.stage ≠ .left := by
    rw [hstage]
    simp
  refine ⟨fun st hst ↦ ?_, fun st hst id ↦ ?_, ?_, fun k hk ↦ ?_, ?_, h.distinct_setStage hlive _⟩
  · rw [← Option.some.inj hst]
    exact h.opened stack rfl
  · rw [← Option.some.inj hst]
    simp only [mem_insert_iff, h.listed stack rfl id, exists_mem_cons_iff, hstage, hnetwork]
    constructor
    · rintro (rfl | ⟨hnone, -⟩ | hothers)
      · exact .inl ⟨rfl, rfl⟩
      · nomatch hnone
      · exact .inr hothers
    · rintro (⟨-, hid⟩ | hothers)
      · exact .inl hid.symm
      · exact .inr (.inr hothers)
  · refine forall_mem_cons.mpr ⟨fun k hk ↦ ?_, (forall_mem_cons.mp h.held).2⟩
    rw [← hk, ← hnetwork]
    rfl
  · obtain ⟨m', hm', hneed⟩ := h.needed k hk
    rcases mem_cons.mp hm' with rfl | hm'
    · refine ⟨_, mem_cons_self, ?_⟩
      rw [hstage] at hneed
      exact hneed
    · exact ⟨m', mem_cons_of_mem _ hm', hneed⟩
  · exact forall_mem_cons.mpr ⟨fun hclose ↦ absurd rfl hclose, fun m' hm' hclose ↦
      nomatch h.closing m' (mem_cons_of_mem _ hm') hclose⟩

/-! ### Taking out an id -/

variable {stack : ComposeStack}

section

variable (h : Tally isOpen (some stack) (m :: others))
include h

theorem mem_rest_iff (hlive : m.stage ≠ .left)
    {id : String} : id ∈ stack.vmIDs.filter (· ≠ m.id) ↔
      ∃ m' ∈ others, m'.stage.attachedTo = some stack.network ∧ m'.id = id := by
  rw [mem_filter, h.listed stack rfl, exists_mem_cons_iff, decide_eq_true_eq]
  constructor
  · rintro ⟨⟨-, hid⟩ | hothers, hne⟩
    · exact absurd hid.symm hne
    · exact hothers
  rintro ⟨m', hm', hattached, rfl⟩
  refine ⟨.inr ⟨m', hm', hattached, rfl⟩, h.id_ne hlive hm' ?_⟩
  rintro hleft
  rw [hleft] at hattached
  nomatch hattached

/-- The last id is taken out, and no other VM has the network. -/
theorem releaseLast (hnetwork : m.stage.network = some n) (hlive : m.stage ≠ .left)
    (hcloses : m.stage.closes = none)
    (hrest : stack.vmIDs.filter (· ≠ m.id) = []) (hlast : m.Shared others → m.Kept others) :
    Tally isOpen none ({ m with stage := .closing stack.network } :: others) := by
  have hstack : stack.network = n := Option.some.inj (h.held m mem_cons_self n hnetwork)
  have hunshared : ∀ m' ∈ others, m'.stage.network = none := by
    intro m' hm'
    cases hn' : m'.stage.network with
    | none => rfl
    | some n' =>
      have heq : stack.network = n' := Option.some.inj (h.held m' (mem_cons_of_mem _ hm') n' hn')
      -- Another VM has the network, so one is attached, and its id was not the last.
      obtain ⟨m'', hm'', hattached⟩ := hlast ⟨m', hm', by rw [hn', hnetwork, ← heq, hstack]⟩
      have hmem : m''.id ∈ stack.vmIDs.filter (· ≠ m.id) :=
        (h.mem_rest_iff hlive).mpr ⟨m'', hm'', by rw [hattached, hnetwork, hstack], rfl⟩
      rw [hrest] at hmem
      cases hmem
  refine ⟨by simp, by simp, ?_, fun k hk ↦ ?_, fun _ _ _ ↦ rfl, h.distinct_setStage hlive _⟩
  · refine forall_mem_cons.mpr ⟨by simp [MemberStage.network], fun m' hm' k hk ↦ ?_⟩
    cases (hunshared m' hm').symm.trans hk
  obtain ⟨m', hm', hneed⟩ := h.needed k hk
  rcases mem_cons.mp hm' with rfl | hm'
  · refine ⟨_, mem_cons_self, .inr ?_⟩
    rw [hnetwork, hcloses, ← hstack] at hneed
    exact hneed.resolve_right (by simp)
  · exact ⟨m', mem_cons_of_mem _ hm', hneed⟩

theorem releaseOther (hnetwork : m.stage.network = some n) (hlive : m.stage ≠ .left)
    (hcloses : m.stage.closes = none) (hrest : stack.vmIDs.filter (· ≠ m.id) ≠ []) :
    Tally isOpen (some { stack with vmIDs := stack.vmIDs.filter (· ≠ m.id) })
      ({ m with stage := .left } :: others) := by
  have hstack : stack.network = n := Option.some.inj (h.held m mem_cons_self n hnetwork)
  refine ⟨fun st hst ↦ ?_, fun st hst id ↦ ?_, ?_, fun k hk ↦ ?_, ?_, h.distinct_setStage hlive _⟩
  · rw [← Option.some.inj hst]
    exact h.opened stack rfl
  · rw [← Option.some.inj hst, exists_mem_cons_iff]
    refine (h.mem_rest_iff hlive).trans ⟨.inr, fun hor ↦ ?_⟩
    exact hor.resolve_left (by simp [MemberStage.attachedTo])
  · exact forall_mem_cons.mpr ⟨by simp [MemberStage.network], (forall_mem_cons.mp h.held).2⟩
  · obtain ⟨m', hm', hneed⟩ := h.needed k hk
    rcases mem_cons.mp hm' with rfl | hm'
    · obtain ⟨id, hid⟩ := exists_mem_of_ne_nil _ hrest
      obtain ⟨m'', hm'', hattached, -⟩ := (h.mem_rest_iff hlive).mp hid
      rw [hnetwork, hcloses, ← hstack] at hneed
      refine ⟨m'', mem_cons_of_mem _ hm'', .inl ?_⟩
      rw [network_of_attachedTo hattached]
      simpa using hneed
    · exact ⟨m', mem_cons_of_mem _ hm', hneed⟩
  · exact forall_mem_cons.mpr ⟨fun hclose ↦ absurd rfl hclose, fun m' hm' hclose ↦
      absurd (h.closing m' (mem_cons_of_mem _ hm') hclose) (by simp)⟩

end

end Tally

/-! ## All stacks -/

namespace Stacks

/-- The network belongs to the stack and was not closed. -/
def isOpen (s : Stacks) (name : String) (n : ℕ) : Prop := s.networks[n]? = some ⟨name, false⟩

variable {s : Stacks} {name name' : String} {n : ℕ}

@[simp] theorem composeStacks_close : (s.close name).composeStacks = s.composeStacks := rfl

variable {stack : Option ComposeStack}

@[simp] theorem composeStacks_put :
    (s.put name stack).composeStacks name = stack := update_self ..

@[simp] theorem composeStacks_create :
    (s.create name).composeStacks name = some ⟨s.networks.length, []⟩ := update_self ..

theorem not_isOpen_close : ¬(s.close name).isOpen name n := by
  intro h
  rw [isOpen, close, getElem?_map] at h
  obtain ⟨w, -, hw⟩ := map_eq_some_iff.mp h
  split_ifs at hw with hname
  · nomatch congrArg Network.closed hw
  · exact hname (congrArg Network.stack hw)

theorem isOpen_close_of_ne (hne : name' ≠ name) :
    (s.close name).isOpen name' n ↔ s.isOpen name' n := by
  rw [isOpen, isOpen, close, getElem?_map, map_eq_some_iff]
  constructor
  · rintro ⟨w, hw, heq⟩
    split_ifs at heq with hname
    · nomatch congrArg Network.closed heq
    · rw [hw, heq]
  · intro h
    exact ⟨_, h, if_neg hne⟩

theorem isOpen_create : (s.create name).isOpen name n ↔ n = s.networks.length := by
  have hlength : (s.close name).networks.length = s.networks.length := length_map _
  rw [isOpen, create, getElem?_append]
  split_ifs with hlt
  · exact ⟨fun h ↦ absurd h not_isOpen_close, fun h ↦ absurd hlt (by omega)⟩
  rw [getElem?_singleton]
  split_ifs with hzero
  · exact ⟨fun _ ↦ by omega, fun _ ↦ rfl⟩
  · exact ⟨nofun, fun h ↦ absurd h (by omega)⟩

theorem isOpen_create_of_ne (hne : name' ≠ name) :
    (s.create name).isOpen name' n ↔ s.isOpen name' n := by
  refine Iff.trans ?_ (isOpen_close_of_ne hne)
  rw [isOpen, isOpen, create, getElem?_append]
  split_ifs with hlt
  · rfl
  rw [getElem?_eq_none (Nat.le_of_not_lt hlt), getElem?_singleton]
  split_ifs
  · simp [hne.symm]
  · rfl

end Stacks

section Steps

variable {s s' : Stacks} {m : Member} {e : MemberEvent} {stage : MemberStage}
  {others : List Member} {name : String} {n : ℕ}

theorem Releases.network (he : Releases e m.stage n) : m.stage.network = some n := by
  rcases he with ⟨-, hstage⟩ | ⟨-, hstage⟩ <;> rw [hstage] <;> rfl

theorem Releases.closes (he : Releases e m.stage n) : m.stage.closes = none := by
  rcases he with ⟨-, hstage⟩ | ⟨-, hstage⟩ <;> rw [hstage] <;> rfl

theorem Releases.live (he : Releases e m.stage n) : m.stage ≠ .left := by
  intro hleft
  nomatch (congrArg MemberStage.network hleft).symm.trans he.network

/-- Whoever takes out the last id is the last one to have the network. -/
theorem Releases.last (he : Releases e m.stage n) (hok : m.Orderly others e) :
    m.Shared others → m.Kept others := by
  rcases he with ⟨rfl, hstage⟩ | ⟨rfl, -⟩
  · rwa [Member.Orderly, hstage, if_pos (by rfl)] at hok
  · exact hok

/-- **A step of a VM** keeps the tally of its stack. -/
theorem MemberStep.tally (hstep : MemberStep s m e s' stage)
    (h : Tally (s.isOpen m.stack) (s.composeStacks m.stack) (m :: others))
    (hok : m.Orderly others e) :
    Tally (s'.isOpen m.stack) (s'.composeStacks m.stack) ({ m with stage := stage } :: others) := by
  cases hstep with
  | share hstage hstack =>
    refine h.pass (by simp [hstage]) (by rw [hstage]; rfl) rfl (fun n hn ↦ ?_) ?_ rfl
    · rw [hstack]
      exact hn
    · simp [hstage, network, closes]
  | create hstage hstack =>
    rw [hstack] at h
    rw [composeStacks_create]
    exact h.create (by simp [hstage]) (fun k ↦ isOpen_create) hok
  | reject hstage =>
    refine h.pass (by simp [hstage]) (by rw [hstage]; rfl) rfl nofun ?_ rfl
    simp [hstage, network, closes]
  | createError hstage hstack =>
    rw [composeStacks_close, hstack]
    rw [hstack] at h
    exact h.close (by simp [hstage]) fun _ ↦ not_isOpen_close
  | missing hstage =>
    refine h.pass (by simp [hstage]) (by rw [hstage]; rfl) rfl nofun (fun n hn ↦ ?_) rfl
    obtain ⟨m', hm', hshared⟩ := hok
    rw [hstage] at hn hshared
    exact ⟨m', hm', .inl (hshared.trans (hn.resolve_right nofun))⟩
  | fail hstage =>
    refine h.pass (by simp [hstage]) (by rw [hstage]; rfl) rfl nofun (fun n hn ↦ ?_) rfl
    rw [Member.Orderly, hstage] at hok
    obtain ⟨m', hm', hshared⟩ := hok
    rw [hstage] at hn hshared
    exact ⟨m', hm', .inl (hshared.trans (hn.resolve_right nofun))⟩
  | attach hstage =>
    cases hstack : s.composeStacks m.stack with
    | none =>
      rw [hstack] at h
      nomatch h.held m mem_cons_self _ (by rw [hstage]; rfl)
    | some stack =>
      rw [Stacks.attach, hstack, Stacks.composeStacks_put]
      rw [hstack] at h
      exact h.attach hstage
  | releaseNone he hstack =>
    rw [hstack] at h
    nomatch h.held m mem_cons_self _ he.network
  | releaseLast he hstack hrest =>
    rw [composeStacks_put]
    rw [hstack] at h
    exact h.releaseLast he.network he.live he.closes hrest (he.last hok)
  | releaseOther he hstack hrest =>
    rw [composeStacks_put]
    rw [hstack] at h
    exact h.releaseOther he.network he.live he.closes hrest
  | forget _ => exact absurd hok id
  | close hstage =>
    have hnone : s.composeStacks m.stack = none :=
      h.closing m mem_cons_self (by simp [hstage, closes])
    rw [composeStacks_close, hnone]
    rw [hnone] at h
    exact h.close (by simp [hstage]) fun _ ↦ not_isOpen_close

theorem MemberStep.frame (hstep : MemberStep s m e s' stage) (hne : name ≠ m.stack) :
    s'.composeStacks name = s.composeStacks name ∧ s'.isOpen name = s.isOpen name := by
  cases hstep with
  | create _ _ => exact ⟨update_of_ne hne _ _, funext fun n ↦ propext (isOpen_create_of_ne hne)⟩
  | createError _ _ | close _ => exact ⟨rfl, funext fun n ↦ propext (isOpen_close_of_ne hne)⟩
  | attach _ =>
    unfold Stacks.attach
    split <;> exact ⟨update_of_ne hne _ _, rfl⟩
  | releaseLast | releaseOther => exact ⟨update_of_ne hne _ _, rfl⟩
  | _ => exact ⟨rfl, rfl⟩

end Steps

namespace StackServer

def Sound (s : StackServer) : Prop :=
  ∀ name, Tally (s.table.isOpen name) (s.table.composeStacks name) (ofStack name s.members)

variable {s s' : StackServer}

theorem sound_init : init.Sound := fun _ ↦ ⟨nofun, nofun, nofun, nofun, nofun, nodup_nil⟩

theorem Sound.counted (hs : s.Sound) : s.Counted where
  used_open m hm n hn := by
    have hmem : m ∈ ofStack m.stack s.members := mem_filter.mpr ⟨hm, by simp⟩
    obtain ⟨stack, hstack, rfl⟩ := map_eq_some_iff.mp ((hs m.stack).held m hmem n hn)
    exact ⟨_, (hs m.stack).opened stack hstack, rfl⟩
  unused_closed n w hw hopen := by
    have hisOpen : s.table.isOpen w.stack n := by
      rw [Stacks.isOpen, hw, ← hopen]
    obtain ⟨m, hm, hneed⟩ := (hs w.stack).needed n hisOpen
    exact ⟨m, (mem_filter.mp hm).1, hneed⟩
  offered_open name stack hstack := ⟨_, (hs name).opened stack hstack, rfl⟩

theorem Sound.step {e : StackEvent} (hs : s.Sound) (hok : s.Orderly e)
    (hstep : s.step e = some s') : s'.Sound := by
  intro name
  cases e with
  | start id stack =>
    rw [← Option.some.inj hstep]
    have hperm := ((perm_append_singleton (⟨id, stack, .starting⟩ : Member)
      s.members).filter fun m ↦ m.stack = name).symm
    refine Tally.perm ?_ hperm
    by_cases hname : name = stack
    · subst hname
      rw [filter_cons_of_pos (by simp)]
      exact (hs name).start hok
    · rw [filter_cons_of_neg (by simpa using Ne.symm hname)]
      exact hs name
  | act i e =>
    obtain ⟨m, hi, hadvance⟩ := bind_eq_some_iff.mp hstep
    obtain ⟨⟨table, stage⟩, hr, rfl⟩ := map_eq_some_iff.mp hadvance
    have hmember := MemberStep.of_advance hr
    have hlt := (List.getElem?_eq_some_iff.mp hi).1
    have hbefore := (hs name).perm ((cons_eraseIdx_perm hi).symm.filter _)
    have hafter := ((set_perm_cons_eraseIdx hlt { m with stage := stage }).symm).filter
      fun m ↦ m.stack = name
    refine Tally.perm ?_ hafter
    by_cases hname : name = m.stack
    · subst hname
      rw [filter_cons_of_pos (by simp)] at hbefore ⊢
      exact hmember.tally hbefore (hok m hi)
    obtain ⟨hentry, hopen⟩ := hmember.frame hname
    rw [filter_cons_of_neg (by simpa using Ne.symm hname)] at hbefore ⊢
    rw [hentry, hopen]
    exact hbefore

/-- **Networks are counted correctly** in every state of every orderly run. -/
theorem counted_of_orderly {events : List StackEvent}
    (hrun : Run StackServer.step Orderly init events s) : s.Counted :=
  Sound.counted
    (hrun.invariant (I := Sound) (fun _ _ _ hs hok hstep ↦ hs.step hok hstep) sound_init)

end StackServer

/-! ## Two interleavings -/

/-- The second VM obtains the network before the first one is attached, a third one fails, and the
first one leaves. The network is closed with the second one, and a fourth VM creates another. -/
def orderlyRun : List StackEvent :=
  [.start "1" "web", .start "2" "web", .start "3" "web", .act 0 (.ensure .created),
    .act 1 (.ensure .created), .act 0 .attach, .act 2 (.ensure .created), .act 2 .fail,
    .act 1 .attach, .act 0 .release, .act 1 .release, .act 1 .close, .start "1" "web",
    .act 3 (.ensure .created)]

theorem counted_orderlyRun : ∃ s, Run StackServer.step StackServer.Orderly .init orderlyRun s ∧
    s.table.networks = [⟨"web", true⟩, ⟨"web", false⟩] ∧ s.Counted := by
  exact Run.exists_of_exec _ (by decide +kernel) fun s hrun hs ↦
    ⟨hs, StackServer.counted_of_orderly hrun⟩

/-- The second VM has obtained the network that the first one has created. The first one cannot be
attached, and closes it; the second one puts it into the map again, where a third one finds it. -/
def closedRun : List StackEvent :=
  [.start "1" "web", .start "2" "web", .start "3" "web", .act 0 (.ensure .created),
    .act 1 (.ensure .created), .act 0 .fail, .act 0 .close, .act 1 .attach,
    .act 2 (.ensure .created)]

theorem not_counted_closedRun : ∃ s, Run StackServer.step anyStep .init closedRun s ∧
    s.table.networks = [⟨"web", true⟩] ∧
    s.members.map Member.stage = [.left, .attached 0, .obtained 0 false] ∧ ¬s.Counted := by
  refine Run.exists_of_exec (fun s ↦ s.table.networks = [⟨"web", true⟩] ∧
    s.members.map Member.stage = [.left, .attached 0, .obtained 0 false] ∧
    ⟨"2", "web", .attached 0⟩ ∈ s.members) (by decide +kernel)
    fun s hrun ⟨hnetworks, hstages, hmem⟩ ↦ ⟨hnetworks, hstages, fun hcounted ↦ ?_⟩
  obtain ⟨w, hw, hopen⟩ := hcounted.used_open _ hmem 0 rfl
  rw [hnetworks] at hw
  rw [← Option.some.inj hw] at hopen
  nomatch hopen

end Gocracker.Api
