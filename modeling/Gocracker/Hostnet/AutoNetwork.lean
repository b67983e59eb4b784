import Gocracker.Hostnet.Subnets
import Gocracker.Transition.Custody
import Gocracker.Transition.Run

/-!
# Networks of VMs on the host

`NewAuto` chooses a subnet for a VM, `Activate` gives its first address to the VM's tap device and
switches forwarding on, and `Close` takes back what `Activate` has done to the firewall and to
forwarding. The address stays until the device goes.

## What may come between

Nothing is reserved. `NewAuto` looks at the routes and then at the addresses of all links, one link
after the other, and a subnet is seen by others only from the moment at which `Activate` has added
the address. So two networks that are created one after the other and only then activated may have
the same subnet.

A network is *live* from its creation until it is closed. Live networks have disjoint subnets if a
network is created only while all live ones have their addresses on their taps, and no two are
created at the same time.
-/

namespace Gocracker.Hostnet

open Net Transition List

/-! ## The state -/

/-- A `sync.Once`. -/
inductive Once where
  | fresh
  | running
  | finished
  deriving DecidableEq

/-- A tap with its subnet, and what is to be restored. -/
structure AutoNetwork where
  tapName : String
  subnet : IPNet
  prevIPForward : Option ℤ := none
  cleanupOnce : Once := .fresh
  deriving DecidableEq

/-- `firstHostIP`. -/
def AutoNetwork.gateway (n : AutoNetwork) : Addr := n.subnet.ip + 1#32

/-- `gatewayCIDR`. -/
def AutoNetwork.gatewayCIDR (n : AutoNetwork) : IPNet := ⟨n.gateway, n.subnet.ones⟩

/-- What the kernel has. A route without a destination is a default route. -/
structure Kernel where
  routes : List (Option IPNet)
  links : List String
  addrs : String → List IPNet
  ipForward : ℤ

/-- Where a call of `NewAuto` is. -/
inductive Creation where
  | listRoutes (attempt : ℕ)
  | listLinks (attempt : ℕ) (networks : List IPNet)
  /-- The addresses of these links are still to be listed. -/
  | listAddrs (attempt : ℕ) (networks : List IPNet) (links : List String)
  | allocated (subnet : IPNet)
  | returned
  | failed
  deriving DecidableEq

/-- A call that allocates a network. -/
structure NewCall where
  project : Project
  tapName : String
  stage : Creation
  deriving DecidableEq

/-- How far `Close` has come. -/
inductive Closing where
  /-- In front of `cleanupOnce.Do`. -/
  | enter
  | deleteRules
  | restore
  | closed
  deriving DecidableEq

/-- How far `Activate` has come. -/
inductive Activation where
  | flushAddr
  | addAddr
  | linkUp
  | readForward
  | writeForward
  | addRules
  | activated
  | failed
  /-- The rules could not be added, so the network is closed. -/
  | undo (stage : Closing)
  deriving DecidableEq

/-- What is done with a network that was allocated. -/
inductive Work where
  | activate (stage : Activation)
  | close (stage : Closing)
  deriving DecidableEq

/-- A call of `Activate` or `Close` on a network. -/
structure Call where
  network : ℕ
  work : Work
  deriving DecidableEq

/-- The kernel's tables, the networks, and the calls in progress. -/
structure Host where
  kernel : Kernel
  networks : List AutoNetwork
  creations : List NewCall
  calls : List Call

/-- How an operation on the host ends. `netlink.ErrDumpInterrupted` is told from other errors. -/
inductive Ending where
  | done
  | interrupted
  | failed
  deriving DecidableEq

/-- A step of a call, or of somebody else on the host. -/
inductive Event where
  | newAuto (project : Project) (tapName : String)
  | create (i : ℕ) (ending : Ending)
  | activate (network : ℕ)
  | close (network : ℕ)
  | act (i : ℕ) (ok : Bool)
  | other (routes : List (Option IPNet)) (links : List String) (addrs : String → List IPNet)

/-! ## Creating a network -/

/-- A network is listed once. -/
def addUnseen (networks : List IPNet) (n : IPNet) : List IPNet :=
  if n ∈ networks then networks else networks ++ [n]

/-- A default route occupies nothing. -/
def routedNetworks (routes : List (Option IPNet)) : List IPNet :=
  routes.foldl (fun networks route ↦
    match route with
    | none => networks
    | some dst => if dst.ones = 0 then networks else addUnseen networks dst.normalize) []

/-- The networks of addresses are occupied as well. -/
def withAddrs (networks addrs : List IPNet) : List IPNet :=
  addrs.foldl (fun networks addr ↦ addUnseen networks addr.normalize) networks

def maxAttempts : ℕ := 10

/-- A listing that was interrupted is begun again, a few times. -/
def interruptedListing (attempt : ℕ) : Creation :=
  if attempt + 1 < maxAttempts then .listRoutes (attempt + 1) else .failed

/-- The choice of a subnet, for a project that may have no name. -/
def select (project : Project) (occupied : List IPNet) : Creation :=
  match selectAvailableSubnet autoSubnetPoolCIDR
      (if project = [] then "default".toList.map fun c ↦ BitVec.ofNat 8 c.toNat else project)
      occupied with
  | .ok subnet => .allocated subnet
  | .error _ => .failed

/-- A step of `NewAuto`, up to the lookup of the upstream interface and of `iptables`. -/
def advanceCreation (k : Kernel) (c : NewCall) (ending : Ending) : Option Creation :=
  match c.stage, ending with
  | .listRoutes attempt, .done => some (.listLinks attempt (routedNetworks k.routes))
  | .listLinks attempt networks, .done => some (.listAddrs attempt networks k.links)
  | .listAddrs _ networks [], _ => some (select c.project networks)
  | .listAddrs attempt networks (link :: links), .done =>
    some (.listAddrs attempt (withAddrs networks (k.addrs link)) links)
  | .allocated _, .done => some .returned
  | .listRoutes attempt, .interrupted | .listLinks attempt _, .interrupted
  | .listAddrs attempt _ _, .interrupted => some (interruptedListing attempt)
  | .returned, _ | .failed, _ => none
  | _, _ => some .failed

/-! ## Activating and closing -/

variable (k : Kernel) (n : AutoNetwork) (ok : Bool)

/-- The work is done by the first call. Others wait for it. -/
def advanceClosing :
    Closing → Option (Kernel × AutoNetwork × Closing)
  | .enter =>
    match n.cleanupOnce with
    | .fresh => some (k, { n with cleanupOnce := .running }, .deleteRules)
    | .running => none
    | .finished => some (k, n, .closed)
  | .deleteRules => some (k, n, .restore)
  | .restore =>
    let n' := { n with cleanupOnce := .finished }
    match n.prevIPForward with
    | none => some (k, n', .closed)
    | some v =>
      if v ≠ 1 ∧ ok then some ({ k with ipForward := v }, n', .closed) else some (k, n', .closed)
  | .closed => none

/-- A step of `Activate`, which works or fails. -/
def advanceActivation :
    Activation → Option (Kernel × AutoNetwork × Activation)
  | .flushAddr =>
    if ok then some ({ k with addrs := Function.update k.addrs n.tapName [] }, n, .addAddr)
    else some (k, n, .failed)
  | .addAddr =>
    if ok then
      let addrs := k.addrs n.tapName ++ [n.gatewayCIDR]
      some ({ k with addrs := Function.update k.addrs n.tapName addrs }, n, .linkUp)
    else some (k, n, .failed)
  | .linkUp => some (k, n, if ok then .readForward else .failed)
  | .readForward =>
    if ok then
      some (k, { n with prevIPForward := some k.ipForward },
        if k.ipForward = 1 then .addRules else .writeForward)
    else some (k, n, .failed)
  | .writeForward => if ok then some ({ k with ipForward := 1 }, n, .addRules)
    else some (k, n, .failed)
  | .addRules => some (k, n, if ok then .activated else .undo .enter)
  | .undo stage => (advanceClosing k n ok stage).map fun r ↦ (r.1, r.2.1, .undo r.2.2)
  | .activated | .failed => none

def advanceWork :
    Work → Option (Kernel × AutoNetwork × Work)
  | .activate stage => (advanceActivation k n ok stage).map fun r ↦ (r.1, r.2.1, .activate r.2.2)
  | .close stage => (advanceClosing k n ok stage).map fun r ↦ (r.1, r.2.1, .close r.2.2)

namespace Host

/-- A call of `NewAuto` gets to its next stage; if it returns there is a new network. -/
def setCreation (s : Host) (i : ℕ) (c : NewCall) (stage : Creation) : Host :=
  { s with
    creations := s.creations.set i { c with stage := stage }
    networks :=
      match c.stage, stage with
      | .allocated subnet, .returned => s.networks ++ [{ tapName := c.tapName, subnet := subnet }]
      | _, _ => s.networks }

def setWork (s : Host) (i : ℕ) (c : Call) (r : Kernel × AutoNetwork × Work) : Host :=
  { s with
    kernel := r.1
    networks := s.networks.set c.network r.2.1
    calls := s.calls.set i { c with work := r.2.2 } }

def step (s : Host) : Event → Option Host
  | .newAuto project tapName =>
    some { s with creations := s.creations ++ [⟨project, tapName, .listRoutes 0⟩] }
  | .create i ending =>
    s.creations[i]?.bind fun c ↦ (advanceCreation s.kernel c ending).map (s.setCreation i c)
  | .activate network =>
    if network < s.networks.length then
      some { s with calls := s.calls ++ [⟨network, .activate .flushAddr⟩] }
    else none
  | .close network =>
    if network < s.networks.length then
      some { s with calls := s.calls ++ [⟨network, .close .enter⟩] }
    else none
  | .act i ok =>
    s.calls[i]?.bind fun c ↦ s.networks[c.network]?.bind fun n ↦
      (advanceWork s.kernel n ok c.work).map (s.setWork i c)
  | .other routes links addrs =>
    some { s with kernel := { s.kernel with routes := routes, links := links, addrs := addrs } }

/-- No network yet, and nobody at work. -/
def init (kernel : Kernel) : Host := ⟨kernel, [], [], []⟩

end Host

/-! ## What should hold, and when it does -/

/-- A network counts until it is closed. -/
def AutoNetwork.isLive (n : AutoNetwork) : Bool := n.cleanupOnce ≠ .finished

/-- Subnets that are in use, with their taps. -/
def liveSubnets (networks : List AutoNetwork) : List (IPNet × String) :=
  (networks.filter AutoNetwork.isLive).map fun n ↦ (n.subnet, n.tapName)

/-- **The subnets of live networks are disjoint.** -/
def Host.Separated (s : Host) : Prop :=
  (liveSubnets s.networks).Pairwise fun a b ↦ a.1.Apart b.1

/-- The choice of a subnet is correct: what is chosen is free, and it fails only if nothing is. -/
def SelectsFree (cidr : IPNet) (project : Project) (occupied : List IPNet) : Prop :=
  match selectAvailableSubnet cidr project occupied with
  | .ok n => IsBlock cidr.normalize n ∧ ∀ o ∈ occupied, n.Apart o
  | .error _ => ∀ n, IsBlock cidr.normalize n → ∃ o ∈ occupied, ¬ n.Apart o

/-- Between the listing of links and the end of `NewAuto`. -/
def Creation.isChoosing : Creation → Bool
  | .listAddrs _ _ _ | .allocated _ => true
  | _ => false

/-- The state in which a call of `NewAuto` may get on. Links are listed when nobody else is choosing
and all live networks have their devices, and the addresses of a link when the live networks on it
have their addresses. -/
def Host.MayCreate (s : Host) : Creation → Prop
  | .listLinks _ _ => (∀ c ∈ s.creations, c.stage.isChoosing = false) ∧
      ∀ a ∈ liveSubnets s.networks, a.2 ∈ s.kernel.links
  | .listAddrs _ _ (link :: _) => ∀ a ∈ liveSubnets s.networks, a.2 = link →
      (⟨a.1.ip + 1#32, a.1.ones⟩ : IPNet) ∈ s.kernel.addrs link
  | _ => True

instance decidableMayCreate (s : Host) : ∀ stage : Creation, Decidable (s.MayCreate stage)
  | .listLinks _ _ => inferInstanceAs (Decidable (_ ∧ _))
  | .listAddrs _ _ (link :: _) => inferInstanceAs (Decidable (∀ a ∈ liveSubnets s.networks,
      a.2 = link → (⟨a.1.ip + 1#32, a.1.ones⟩ : IPNet) ∈ s.kernel.addrs link))
  | .listAddrs _ _ [] | .listRoutes _ | .allocated _ | .returned | .failed => .isTrue trivial

def Host.Exclusive (s : Host) : Event → Prop
  | .create i .done => ∀ c ∈ s.creations[i]?, s.MayCreate c.stage
  | _ => True

instance decidableExclusive (s : Host) : ∀ e : Event, Decidable (s.Exclusive e)
  | .create i .done => inferInstanceAs (Decidable (∀ c ∈ s.creations[i]?, _))
  | .create _ .interrupted | .create _ .failed | .newAuto _ _ | .activate _ | .close _ | .act _ _
  | .other _ _ _ => .isTrue trivial

/-! ## Lists of networks -/

section Networks

variable {n n' : AutoNetwork} {networks : List AutoNetwork} {k : ℕ}

/-- What becomes of a network in a step. -/
structure AutoNetwork.Same (n n' : AutoNetwork) : Prop where
  subnet : n'.subnet = n.subnet
  tapName : n'.tapName = n.tapName
  live : n'.isLive = true → n.isLive = true

theorem liveSubnets_set (hk : networks[k]? = some n) (h : n.Same n') :
    (liveSubnets (networks.set k n')).Sublist (liveSubnets networks) := by
  induction networks generalizing k with
  | nil => nomatch hk
  | cons m networks ih =>
    cases k with
    | zero =>
      obtain rfl : m = n := Option.some.inj hk
      rw [set_cons_zero, liveSubnets, liveSubnets]
      by_cases hlive : n'.isLive = true
      · rw [filter_cons_of_pos hlive, filter_cons_of_pos (h.live hlive), map_cons,
          map_cons, h.subnet, h.tapName]
      · rw [filter_cons_of_neg hlive]
        exact ((sublist_cons_self m networks).filter _).map _
    | succ k =>
      rw [set_cons_succ, liveSubnets, liveSubnets, filter_cons, filter_cons]
      split_ifs
      · exact (ih hk).cons_cons _
      · exact ih hk

theorem AutoNetwork.Same.refl (n : AutoNetwork) : n.Same n := ⟨rfl, rfl, id⟩

end Networks

/-! ## Steps of a call -/

section Steps

variable {κ κ' : Kernel} {n n' : AutoNetwork} {ok : Bool}

/-- What a step of `Close` does. -/
inductive ClosingStep (κ : Kernel) (n : AutoNetwork) (ok : Bool) :
    Closing → Kernel → AutoNetwork → Closing → Prop
  | enter (honce : n.cleanupOnce = .fresh) :
      ClosingStep κ n ok .enter κ { n with cleanupOnce := .running } .deleteRules
  | again (honce : n.cleanupOnce = .finished) : ClosingStep κ n ok .enter κ n .closed
  | deleteRules : ClosingStep κ n ok .deleteRules κ n .restore
  | keep (hkeep : ∀ v, n.prevIPForward = some v → v ≠ 1 → ok = false) :
      ClosingStep κ n ok .restore κ { n with cleanupOnce := .finished } .closed
  | restore {v : ℤ} (hprev : n.prevIPForward = some v) (hv : v ≠ 1) :
      ClosingStep κ n ok .restore { κ with ipForward := v } { n with cleanupOnce := .finished }
        .closed

theorem ClosingStep.of_advance {stage stage' : Closing}
    (h : advanceClosing κ n ok stage = some (κ', n', stage')) :
    ClosingStep κ n ok stage κ' n' stage' := by
  cases stage with
  | enter =>
    cases honce : n.cleanupOnce with
    | fresh =>
      simp only [advanceClosing, honce] at h
      obtain ⟨⟩ := h
      exact .enter honce
    | running => simp [advanceClosing, honce] at h
    | finished =>
      simp only [advanceClosing, honce] at h
      obtain ⟨⟩ := h
      exact .again honce
  | deleteRules =>
    obtain ⟨⟩ := h
    exact .deleteRules
  | restore =>
    simp only [advanceClosing] at h
    split at h
    · rename_i hprev
      obtain ⟨⟩ := h
      exact .keep fun v hv ↦ nomatch hprev.symm.trans hv
    rename_i v hprev
    split_ifs at h with hv
    · obtain ⟨⟩ := h
      exact .restore hprev hv.1
    obtain ⟨⟩ := h
    refine .keep fun v' hv' hne ↦ ?_
    obtain rfl : v = v' := Option.mem_unique hprev hv'
    simpa [hne] using hv
  | closed => nomatch h

/-- Before forwarding is looked at. -/
def Activation.isEarly : Activation → Bool
  | .flushAddr | .addAddr | .linkUp | .readForward => true
  | _ => false

/-- What a step of `Activate` does. -/
inductive ActivationStep (κ : Kernel) (n : AutoNetwork) (ok : Bool) :
    Activation → Kernel → AutoNetwork → Activation → Prop
  | early {stage stage' : Activation} {addrs : String → List IPNet} (h : stage.isEarly = true)
      (h' : stage'.isEarly = true) :
      ActivationStep κ n ok stage { κ with addrs := addrs } n stage'
  | fail {stage : Activation} (h : stage.isEarly = true ∨ stage = .writeForward) :
      ActivationStep κ n ok stage κ n .failed
  | readOn (hon : κ.ipForward = 1) :
      ActivationStep κ n ok .readForward κ { n with prevIPForward := some κ.ipForward } .addRules
  | readOff (hoff : κ.ipForward ≠ 1) :
      ActivationStep κ n ok .readForward κ { n with prevIPForward := some κ.ipForward }
        .writeForward
  | write : ActivationStep κ n ok .writeForward { κ with ipForward := 1 } n .addRules
  | rules : ActivationStep κ n ok .addRules κ n .activated
  | undo : ActivationStep κ n ok .addRules κ n (.undo .enter)
  | closing {κ' : Kernel} {n' : AutoNetwork} {stage stage' : Closing}
      (h : ClosingStep κ n ok stage κ' n' stage') :
      ActivationStep κ n ok (.undo stage) κ' n' (.undo stage')

theorem ActivationStep.of_advance {stage stage' : Activation}
    (h : advanceActivation κ n ok stage = some (κ', n', stage')) :
    ActivationStep κ n ok stage κ' n' stage' := by
  revert h
  fun_cases advanceActivation κ n ok stage with try rintro ⟨⟩
  | case1 | case3 => exact .early rfl rfl
  | case5 =>
    cases ok with
    | true => exact (.early rfl rfl : ActivationStep κ n true .linkUp { κ with } n .readForward)
    | false => exact .fail (.inl rfl)
  | case6 =>
    split_ifs with hon
    · exact .readOn hon
    · exact .readOff hon
  | case8 => exact .write
  | case2 | case4 | case7 | case9 => exact .fail (by decide)
  | case10 =>
    cases ok with
    | true => exact .rules
    | false => exact .undo
  | case11 stage =>
    intro h
    obtain ⟨_, hclosing, ⟨⟩⟩ := Option.map_eq_some_iff.mp h
    exact .closing (.of_advance hclosing)

inductive WorkStep (κ : Kernel) (n : AutoNetwork) (ok : Bool) :
    Work → Kernel → AutoNetwork → Work → Prop
  | activate {κ' : Kernel} {n' : AutoNetwork} {stage stage' : Activation}
      (h : ActivationStep κ n ok stage κ' n' stage') :
      WorkStep κ n ok (.activate stage) κ' n' (.activate stage')
  | close {κ' : Kernel} {n' : AutoNetwork} {stage stage' : Closing}
      (h : ClosingStep κ n ok stage κ' n' stage') :
      WorkStep κ n ok (.close stage) κ' n' (.close stage')

theorem WorkStep.of_advance {work work' : Work}
    (h : advanceWork κ n ok work = some (κ', n', work')) : WorkStep κ n ok work κ' n' work' := by
  cases work with
  | activate stage =>
    obtain ⟨_, hstage, ⟨⟩⟩ := Option.map_eq_some_iff.mp h
    exact .activate (.of_advance hstage)
  | close stage =>
    obtain ⟨_, hstage, ⟨⟩⟩ := Option.map_eq_some_iff.mp h
    exact .close (.of_advance hstage)

theorem ClosingStep.same {stage stage' : Closing} (h : ClosingStep κ n ok stage κ' n' stage') :
    n.Same n' := by
  cases h with
  | enter honce => exact ⟨rfl, rfl, fun _ ↦ by simp [AutoNetwork.isLive, honce]⟩
  | again | deleteRules => exact .refl n
  | keep | restore => exact ⟨rfl, rfl, fun hlive ↦ by simp [AutoNetwork.isLive] at hlive⟩

theorem ActivationStep.same {stage stage' : Activation}
    (h : ActivationStep κ n ok stage κ' n' stage') : n.Same n' := by
  cases h with
  | early | fail => exact .refl n
  | readOn | readOff => exact ⟨rfl, rfl, id⟩
  | write | rules | undo => exact .refl n
  | closing h => exact h.same

theorem WorkStep.same {work work' : Work} (h : WorkStep κ n ok work κ' n' work') : n.Same n' := by
  cases h with
  | activate h | close h => exact h.same

end Steps

/-! ## Steps of a creation -/

section Creations

variable {k : Kernel} {c : NewCall} {ending : Ending} {stage stage' : Creation}

/-- What a step of `NewAuto` does. -/
inductive CreationStep (k : Kernel) : Creation → Ending → Creation → Prop
  | idle {stage stage' : Creation} {ending : Ending} (hidle : stage'.isChoosing = false)
      (hreturned : stage' ≠ .returned) : CreationStep k stage ending stage'
  | list (attempt : ℕ) (networks : List IPNet) :
      CreationStep k (.listLinks attempt networks) .done (.listAddrs attempt networks k.links)
  | next (attempt : ℕ) (networks : List IPNet) (link : String) (links : List String) :
      CreationStep k (.listAddrs attempt networks (link :: links)) .done
        (.listAddrs attempt (withAddrs networks (k.addrs link)) links)
  | select {attempt : ℕ} {networks : List IPNet} {ending : Ending} {project : Project}
      {subnet : IPNet}
      (hselect : selectAvailableSubnet autoSubnetPoolCIDR project networks = .ok subnet) :
      CreationStep k (.listAddrs attempt networks []) ending (.allocated subnet)
  | finish (subnet : IPNet) : CreationStep k (.allocated subnet) .done .returned

theorem CreationStep.interrupted (attempt : ℕ) :
    CreationStep k stage ending (interruptedListing attempt) := by
  rw [interruptedListing]
  split_ifs
  · exact .idle rfl nofun
  · exact .idle rfl nofun

variable {networks : List IPNet}

theorem CreationStep.of_advance (h : advanceCreation k c ending = some stage') :
    CreationStep k c.stage ending stage' := by
  revert h
  fun_cases advanceCreation k c ending with rintro ⟨⟩
  | case2 attempt networks hstage => exact hstage ▸ .list attempt networks
  | case3 _ _ networks hstage =>
    rw [hstage, Gocracker.Hostnet.select]
    split
    · rename_i subnet hselect
      exact .select hselect
    · exact .idle rfl nofun
  | case4 attempt networks link links hstage => exact hstage ▸ .next attempt networks link links
  | case5 subnet hstage => exact hstage ▸ .finish subnet
  | case6 | case7 | case8 => exact .interrupted _
  | _ => all_goals exact .idle rfl nofun

theorem mem_addUnseen {n m : IPNet} : m ∈ addUnseen networks n ↔ m ∈ networks ∨ m = n := by
  rw [addUnseen]
  split_ifs with hn
  · exact ⟨.inl, fun h ↦ h.elim id fun h ↦ h ▸ hn⟩
  · rw [mem_append, mem_singleton]

/-- The networks of all addresses are listed, besides those that are already. -/
theorem mem_withAddrs {addrs : List IPNet} {m : IPNet} :
    m ∈ withAddrs networks addrs ↔ m ∈ networks ∨ ∃ a ∈ addrs, a.normalize = m := by
  induction addrs generalizing networks with
  | nil => simp [withAddrs]
  | cons a addrs ih =>
    rw [withAddrs, foldl_cons, ← withAddrs, ih, mem_addUnseen, or_assoc]
    simp only [mem_cons, exists_eq_or_imp, @eq_comm _ m]

theorem normalize_gateway {pool subnet : IPNet} (h : IsBlock pool subnet) :
    IPNet.normalize ⟨subnet.ip + 1#32, subnet.ones⟩ = subnet := by
  have hsize : subnet.size = 4 := by rw [IPNet.size, h.ones]; rfl
  obtain ⟨m, hm⟩ := h.aligned
  rw [hsize] at hm
  have hip : (subnet.ip + 1#32).toNat = 4 * m + 1 := by
    rw [BitVec.toNat_add, show (1#32).toNat = 1 from rfl]
    omega
  refine IPNet.ext (BitVec.eq_of_toNat_eq ?_) rfl
  have hgateway : IPNet.size ⟨subnet.ip + 1#32, subnet.ones⟩ = 4 := hsize
  rw [IPNet.toNat_ip_normalize, hgateway, hip]
  omega

end Creations

/-! ## Invariants -/

/-- What a call that is choosing knows of the networks there are. -/
def Creation.Covers (taken : List (IPNet × String)) : Creation → Prop
  | .listAddrs _ networks links => ∀ a ∈ taken, a.1 ∈ networks ∨ a.2 ∈ links
  | .allocated subnet => IsBlock autoSubnetPoolCIDR.normalize subnet ∧
      ∀ a ∈ taken, a.1.Apart subnet
  | _ => True

variable {stage : Creation}

theorem Creation.Covers.mono {taken taken' : List (IPNet × String)}
    (h : stage.Covers taken) (hsub : taken' ⊆ taken) : stage.Covers taken' := by
  cases stage with
  | listAddrs attempt networks links => exact fun a ha ↦ h a (hsub ha)
  | allocated subnet => exact ⟨h.1, fun a ha ↦ h.2 a (hsub ha)⟩
  | listRoutes | listLinks | returned | failed => trivial

theorem Creation.covers_of_not_isChoosing {taken : List (IPNet × String)}
    (h : stage.isChoosing = false) : stage.Covers taken := by
  cases stage with
  | listAddrs | allocated => nomatch h
  | listRoutes | listLinks | returned | failed => trivial

namespace Host

structure Sound (s : Host) : Prop where
  separated : s.Separated
  blocks : ∀ a ∈ liveSubnets s.networks, IsBlock autoSubnetPoolCIDR.normalize a.1
  covers : ∀ c ∈ s.creations, c.stage.Covers (liveSubnets s.networks)
  alone : ∀ (i j : ℕ) (c d : NewCall), s.creations[i]? = some c → s.creations[j]? = some d →
    c.stage.isChoosing = true → d.stage.isChoosing = true → i = j

variable {s s' : Host} {i : ℕ} {c : NewCall} {stage : Creation}

theorem Sound.of_sublist (hs : s.Sound) (hcreations : s'.creations = s.creations)
    (hsub : (liveSubnets s'.networks).Sublist (liveSubnets s.networks)) : s'.Sound where
  separated := hs.separated.sublist hsub
  blocks a ha := hs.blocks a (hsub.subset ha)
  covers c hc := (hs.covers c (hcreations ▸ hc)).mono hsub.subset
  alone := hcreations ▸ hs.alone

theorem Sound.setStage (hs : s.Sound) (hi : s.creations[i]? = some c)
    (hnetworks : s'.networks = s.networks)
    (hcreations : s'.creations = s.creations.set i { c with stage := stage })
    (hcovers : stage.Covers (liveSubnets s.networks))
    (halone : stage.isChoosing = true → c.stage.isChoosing = true ∨
      ∀ d ∈ s.creations, d.stage.isChoosing = false) : s'.Sound where
  separated := by
    rw [Separated, hnetworks]
    exact hs.separated
  blocks := hnetworks ▸ hs.blocks
  covers d hd := by
    rw [hnetworks]
    rw [hcreations] at hd
    rcases eq_or_getElem?_of_mem_set hd with rfl | ⟨j, -, hj⟩
    · exact hcovers
    · exact hs.covers d (mem_of_getElem? hj)
  alone := by
    have hself : ∀ j d, j ≠ i → s.creations[j]? = some d → d.stage.isChoosing = true →
        stage.isChoosing = false := by
      intro j d hne hj hd
      by_contra hstage
      rcases halone (Bool.eq_true_of_not_eq_false hstage) with hold | hnone
      · exact hne (hs.alone j i d c hj hi hd hold)
      · nomatch hd.symm.trans (hnone d (mem_of_getElem? hj))
    rw [hcreations]
    intro j j' d d' hj hj' hd hd'
    rcases getElem?_set_cases hj with ⟨rfl, rfl⟩ | ⟨hji, hold⟩
    · rcases getElem?_set_cases hj' with ⟨rfl, -⟩ | ⟨hji', hj'⟩
      · rfl
      · nomatch hd.symm.trans (hself j' d' hji' hj' hd')
    · rcases getElem?_set_cases hj' with ⟨rfl, rfl⟩ | ⟨-, hj'⟩
      · nomatch hd'.symm.trans (hself j d hji hold hd)
      · exact hs.alone j j' d d' hold hj' hd hd'

theorem Sound.finish {subnet : IPNet} (hs : s.Sound) (hi : s.creations[i]? = some c)
    (hc : c.stage = .allocated subnet) : (s.setCreation i c .returned).Sound := by
  have hnew : liveSubnets (s.setCreation i c .returned).networks =
      liveSubnets s.networks ++ [(subnet, c.tapName)] := by
    simp only [setCreation, hc, liveSubnets, filter_append, map_append]
    rfl
  obtain ⟨hblock, hapart⟩ : Creation.Covers (liveSubnets s.networks) (.allocated subnet) :=
    hc ▸ hs.covers c (mem_of_getElem? hi)
  -- Whoever is choosing is the one that has finished.
  have hquiet (j : ℕ) (d : NewCall) (hj : (s.setCreation i c .returned).creations[j]? = some d) :
      d.stage.isChoosing = false := by
    rcases getElem?_set_cases hj with ⟨-, rfl⟩ | ⟨hji, hj⟩
    · rfl
    · by_contra hd
      exact hji (hs.alone j i d c hj hi (by simpa using hd) (by rw [hc]; rfl))
  refine ⟨?_, ?_, ?_, ?_⟩
  · rw [Separated, hnew, pairwise_append]
    refine ⟨hs.separated, pairwise_singleton _ _, fun a ha b hb ↦ ?_⟩
    rw [mem_singleton.mp hb]
    exact hapart a ha
  · intro a ha
    rw [hnew, mem_append, mem_singleton] at ha
    rcases ha with hold | rfl
    · exact hs.blocks a hold
    · exact hblock
  · intro d hd
    obtain ⟨j, hj⟩ := mem_iff_getElem?.mp hd
    exact Creation.covers_of_not_isChoosing (hquiet j d hj)
  · intro j j' d d' hj _ hd _
    exact absurd (hquiet j d hj) (by simp [hd])

theorem Sound.create {ending : Ending} (hs : s.Sound) (hi : s.creations[i]? = some c)
    (hok : s.Exclusive (.create i ending)) (hstep : CreationStep s.kernel c.stage ending stage) :
    (s.setCreation i c stage).Sound := by
  have hcovers := hs.covers c (mem_of_getElem? hi)
  generalize hc : c.stage = before at hstep hcovers
  cases hstep with
  | idle hidle hreturned =>
    refine hs.setStage hi ?_ rfl (Creation.covers_of_not_isChoosing hidle)
      fun h ↦ absurd hidle (by simp [h])
    simp only [setCreation]
    split
    · exact absurd rfl hreturned
    · rfl
  | list attempt networks =>
    have hmay : s.MayCreate (.listLinks attempt networks) := hc ▸ hok c hi
    refine hs.setStage hi (by simp only [setCreation, hc]) rfl (fun a ha ↦ ?_) fun _ ↦ .inr hmay.1
    exact .inr (hmay.2 a ha)
  | next attempt networks link links =>
    have hmay : s.MayCreate (.listAddrs attempt networks (link :: links)) := hc ▸ hok c hi
    refine hs.setStage hi (by simp only [setCreation, hc]) rfl (fun a ha ↦ ?_)
      fun _ ↦ .inl (by rw [hc]; rfl)
    rcases hcovers a ha with hlisted | hlink
    · exact .inl (mem_withAddrs.mpr (.inl hlisted))
    rcases mem_cons.mp hlink with hself | hrest
    · exact .inl (mem_withAddrs.mpr (.inr ⟨_, hmay a ha hself, normalize_gateway (hs.blocks a ha)⟩))
    · exact .inr hrest
  | select hselect =>
    obtain ⟨hblock, hfree⟩ := isBlock_of_selectAvailableSubnet hselect
    refine hs.setStage hi (by simp only [setCreation, hc]) rfl ⟨hblock, fun a ha ↦ ?_⟩
      fun _ ↦ .inl (by rw [hc]; rfl)
    exact (hfree a.1 ((hcovers a ha).resolve_right not_mem_nil)).symm
  | finish subnet => exact hs.finish hi hc

theorem Sound.newAuto (hs : s.Sound) (hc : c.stage.isChoosing = false) :
    Sound { s with creations := s.creations ++ [c] } := by
  have hold (j : ℕ) (d : NewCall) (hj : (s.creations ++ [c])[j]? = some d)
      (hd : d.stage.isChoosing = true) : s.creations[j]? = some d := by
    rcases getElem?_concat_cases hj with hj | ⟨-, rfl⟩
    · exact hj
    · nomatch hc.symm.trans hd
  refine ⟨hs.separated, hs.blocks, fun d hd ↦ ?_, fun j j' d d' hj hj' hd hd' ↦ ?_⟩
  · rcases mem_append.mp hd with hmem | hnew
    · exact hs.covers d hmem
    · rw [mem_singleton.mp hnew]
      exact Creation.covers_of_not_isChoosing hc
  · exact hs.alone j j' d d' (hold j d hj hd) (hold j' d' hj' hd') hd hd'

theorem sound_init (kernel : Kernel) : (init kernel).Sound where
  separated := List.Pairwise.nil
  blocks := nofun
  covers := nofun
  alone := nofun

theorem Sound.step {e : Event} (hs : s.Sound) (hok : s.Exclusive e) (hstep : s.step e = some s') :
    s'.Sound := by
  cases e with
  | newAuto project tapName =>
    obtain ⟨⟩ := hstep
    exact hs.newAuto rfl
  | create i ending =>
    obtain ⟨c, hi, hcreate⟩ := Option.bind_eq_some_iff.mp hstep
    obtain ⟨stage, hstage, rfl⟩ := Option.map_eq_some_iff.mp hcreate
    exact hs.create hi hok (.of_advance hstage)
  | activate network | close network =>
    obtain ⟨-, ⟨⟩⟩ := Option.ite_none_right_eq_some.mp hstep
    exact hs.of_sublist rfl (List.Sublist.refl _)
  | act i ok =>
    obtain ⟨c, hi, hcall⟩ := Option.bind_eq_some_iff.mp hstep
    obtain ⟨n, hn, hwork⟩ := Option.bind_eq_some_iff.mp hcall
    obtain ⟨⟨κ', n', work'⟩, hadvance, rfl⟩ := Option.map_eq_some_iff.mp hwork
    exact hs.of_sublist rfl (liveSubnets_set hn (WorkStep.of_advance hadvance).same)
  | other routes links addrs =>
    obtain ⟨⟩ := hstep
    exact hs.of_sublist rfl (List.Sublist.refl _)

end Host

/-- **Subnets do not collide**: the choice is correct for every pool of several blocks, and live
networks have disjoint subnets in every state of every run in which they are created one by one. -/
theorem separated_of_exclusive {cidr : IPNet} (hcidr : cidr.ones.val < autoSubnetPrefix.val) :
    (∀ project occupied, SelectsFree cidr project occupied) ∧
    ∀ kernel events s, Run Host.step Host.Exclusive (.init kernel) events s → s.Separated := by
  refine ⟨fun project occupied ↦ ?_, fun kernel events s hrun ↦ ?_⟩
  · rw [SelectsFree]
    split
    · rename_i n hselect
      exact isBlock_of_selectAvailableSubnet hselect
    · rename_i e hselect
      exact fun n hn ↦ overlap_of_selectAvailableSubnet hcidr hselect hn
  exact Host.Sound.separated
    (hrun.invariant (I := Host.Sound) (fun _ _ _ hs hok hstep ↦ hs.step hok hstep)
      (Host.sound_init kernel))

/-! ## Two runs -/

/-- One other network, on a link of its own. -/
def sampleKernel : Kernel where
  routes := [none, some ⟨0x0A000000#32, 8⟩]
  links := ["eth0", "tap0", "tap1"]
  addrs := fun link ↦ if link = "eth0" then [⟨0x0A000002#32, 8⟩] else []
  ipForward := 0

/-- `NewAuto` from its beginning to its end. -/
def createSteps (i : ℕ) : List Event := List.replicate 7 (.create i .done)

def workSteps (i steps : ℕ) : List Event := List.replicate steps (.act i true)

/-- A network is created when the one before it was activated. -/
def oneByOne : List Event :=
  [.newAuto [] "tap0"] ++ createSteps 0 ++ [.activate 0] ++ workSteps 0 6 ++
    [.newAuto [] "tap1"] ++ createSteps 1 ++ [.activate 1] ++ workSteps 1 5

def Host.subnets (s : Host) : List IPNet := s.networks.map AutoNetwork.subnet

theorem separated_oneByOne : ∃ s, Run Host.step Host.Exclusive (.init sampleKernel) oneByOne s ∧
    s.subnets = [⟨0xC6136F78#32, 30⟩, ⟨0xC6136F7C#32, 30⟩] ∧ s.Separated := by
  have hpool : autoSubnetPoolCIDR.ones.val < autoSubnetPrefix.val := by decide
  refine Run.exists_of_exec _ (by decide +kernel)
    fun s hrun hsubnets ↦ ⟨hsubnets, (separated_of_exclusive hpool).2 _ _ s hrun⟩

/-- Both networks are created before one of them is activated. -/
def bothAtOnce : List Event :=
  [.newAuto [] "tap0"] ++ createSteps 0 ++ [.newAuto [] "tap1"] ++ createSteps 1

/-- They get the same subnet. -/
theorem not_separated_bothAtOnce : ∃ s, Run Host.step anyStep (.init sampleKernel) bothAtOnce s ∧
    s.subnets = [⟨0xC6136F78#32, 30⟩, ⟨0xC6136F78#32, 30⟩] ∧ ¬ s.Separated := by
  refine Run.exists_of_exec (fun s ↦ s.subnets = [⟨0xC6136F78#32, 30⟩, ⟨0xC6136F78#32, 30⟩] ∧
    (liveSubnets s.networks).map Prod.fst = [⟨0xC6136F78#32, 30⟩, ⟨0xC6136F78#32, 30⟩])
    (by decide +kernel) fun s hrun ⟨hsubnets, hlive⟩ ↦ ⟨hsubnets, fun hseparated ↦ ?_⟩
  have hapart : ((liveSubnets s.networks).map Prod.fst).Pairwise IPNet.Apart :=
    pairwise_map.mpr hseparated
  rw [hlive, pairwise_pair] at hapart
  exact hapart 0xC6136F78#32 ⟨by decide, by decide⟩

end Gocracker.Hostnet
