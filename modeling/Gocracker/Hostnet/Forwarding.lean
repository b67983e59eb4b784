import Gocracker.Hostnet.AutoNetwork

/-!
# Forwarding

`net.ipv4.ip_forward` is one setting for the whole host. `Activate` remembers what it finds there
and sets it to 1; `Close` writes back what was remembered, unless that was 1.

## Whoever comes first has to be the last

A network that is activated while another one is finds a 1, and relies on the other one's setting
without being known to it. If that one is closed first, forwarding is switched off under the network
that is still there. And a network that is activated twice forgets what it has found at first.

So the condition is: a network is activated once, it is not closed while it is being activated, and
the setting is written back only when no other network has looked at it and is still open. The
last part asks for nothing if forwarding is on from the beginning.
-/

namespace Gocracker.Hostnet

open Transition List Option

/-! ## What should hold, and when it does -/

/-- The call has come back. -/
def Work.hasReturned : Work → Bool
  | .activate .activated | .activate .failed | .activate (.undo .closed) | .close .closed => true
  | _ => false

/-- The network was activated, and its `Close` has not begun. -/
def Host.IsOpen (s : Host) (i : ℕ) : Prop :=
  (∃ c ∈ s.calls, c.network = i ∧ c.work = .activate .activated) ∧
    ∃ n, s.networks[i]? = some n ∧ n.cleanupOnce = .fresh

/-- Nobody is at work, and every network that was activated is closed. -/
def Host.AllClosed (s : Host) : Prop :=
  ∀ c ∈ s.calls, c.work.hasReturned = true ∧ (c.work = .activate .activated →
    ∃ n, s.networks[c.network]? = some n ∧ n.cleanupOnce = .finished)

/-- **Forwarding is on while it is needed, and as before afterwards.** -/
structure Host.Forwards (initial : ℤ) (s : Host) : Prop where
  held : ∀ i, s.IsOpen i → s.kernel.ipForward = 1
  restored : s.AllClosed → s.kernel.ipForward = initial

/-- The setting is about to be written back. -/
def Work.isRestoring : Work → Bool
  | .activate (.undo .restore) | .close .restore => true
  | _ => false

/-- Other networks that have looked at the setting are not open any more, and writing succeeds. -/
def Host.MayRestore (s : Host) (network : ℕ) (ok : Bool) : Prop :=
  ∀ n ∈ s.networks[network]?, n.prevIPForward = none ∨ n.prevIPForward = some 1 ∨ ok = true ∧
    ∀ j < s.networks.length, j ≠ network → ∀ m ∈ s.networks[j]?,
      m.prevIPForward = none ∨ m.cleanupOnce ≠ .fresh

def Host.LastOut (s : Host) : Event → Prop
  | .activate network => ∀ c ∈ s.calls, c.network ≠ network
  | .close network => ∀ c ∈ s.calls, c.network = network → c.work.hasReturned = true
  | .act i ok => ∀ c ∈ s.calls[i]?, c.work.isRestoring = true → s.MayRestore c.network ok
  | _ => True

instance decidableMayRestore (s : Host) (network : ℕ) (ok : Bool) :
    Decidable (s.MayRestore network ok) :=
  inferInstanceAs (Decidable (∀ n ∈ s.networks[network]?, _))

instance decidableLastOut (s : Host) : ∀ e : Event, Decidable (s.LastOut e)
  | .activate network => inferInstanceAs (Decidable (∀ c ∈ s.calls, c.network ≠ network))
  | .close network => inferInstanceAs (Decidable
      (∀ c ∈ s.calls, c.network = network → c.work.hasReturned = true))
  | .act i ok => inferInstanceAs (Decidable
      (∀ c ∈ s.calls[i]?, c.work.isRestoring = true → s.MayRestore c.network ok))
  | .newAuto _ _ | .create _ _ | .other _ _ _ => .isTrue trivial

/-! ## Invariants -/

/-- A call of `Activate` that has not come back. -/
def Work.isActivating (w : Work) : Bool :=
  match w with
  | .activate _ => !w.hasReturned
  | .close _ => false

variable {w : Work} {initial : ℤ} {n : AutoNetwork}

theorem Work.not_isActivating (h : w.hasReturned = true) : w.isActivating = false := by
  cases w with
  | activate stage => simp [Work.isActivating, h]
  | close stage => rfl

def Work.Fits (initial ipForward : ℤ) (n : AutoNetwork) : Work → Prop
  | .activate .writeForward => n.cleanupOnce = .fresh ∧ n.prevIPForward = some initial
  | .activate .addRules => n.cleanupOnce = .fresh ∧ n.prevIPForward ≠ none ∧ ipForward = 1
  | .activate .activated => n.prevIPForward ≠ none ∧ (n.cleanupOnce = .fresh → ipForward = 1)
  | .activate .failed => True
  | .activate (.undo .enter) => n.cleanupOnce = .fresh
  | .activate (.undo _) => True
  | .activate _ => n.cleanupOnce = .fresh
  | .close _ => True

/-- The call will see to it that the setting is written back. -/
def Work.Holds (n : AutoNetwork) : Work → Prop
  | .activate .addRules | .activate .activated | .activate (.undo .enter)
  | .close .enter => n.cleanupOnce = .fresh
  | .activate (.undo .deleteRules) | .activate (.undo .restore) | .close .deleteRules
  | .close .restore => True
  | _ => False

/-- A call that is not activating a network only relies on it while the network is open. -/
theorem Work.Fits.of_not_isActivating {ip ip' : ℤ} {n' : AutoNetwork} (h : w.Fits initial ip n)
    (hw : w.isActivating = false) (hprev : n'.prevIPForward = n.prevIPForward)
    (hfresh : n'.cleanupOnce = .fresh → n.cleanupOnce = .fresh ∧ ip' = ip) :
    w.Fits initial ip' n' := by
  match w with
  | .activate .activated =>
    refine ⟨hprev ▸ h.1, fun hn' ↦ ?_⟩
    obtain ⟨hn, hip⟩ := hfresh hn'
    exact hip.trans (h.2 hn)
  | .activate .failed | .activate (.undo .closed) | .close _ => trivial

/-- Nobody minds forwarding being switched on. -/
theorem Work.Fits.one {ip : ℤ} (h : w.Fits initial ip n) : w.Fits initial 1 n := by
  cases w with
  | activate stage =>
    cases stage with
    | addRules => exact ⟨h.1, h.2.1, rfl⟩
    | activated => exact ⟨h.1, fun _ ↦ rfl⟩
    | undo stage => cases stage <;> exact h
    | _ => exact h
  | close stage => trivial

/-- Nor what it is set to, if the network has not looked at it or is not open. -/
theorem Work.Fits.of_idle {ip ip' : ℤ}
    (h : w.Fits initial ip n) (hidle : n.prevIPForward = none ∨ n.cleanupOnce ≠ .fresh) :
    w.Fits initial ip' n := by
  cases w with
  | activate stage =>
    cases stage with
    | addRules => exact absurd hidle (not_or.mpr ⟨h.2.1, not_not_intro h.1⟩)
    | activated => exact ⟨h.1, fun hfresh ↦ absurd hfresh (hidle.resolve_left h.1)⟩
    | undo stage => cases stage <;> exact h
    | _ => exact h
  | close stage => trivial

namespace Host

def At (s : Host) (i : ℕ) (c : Call) (n : AutoNetwork) : Prop :=
  s.calls[i]? = some c ∧ s.networks[c.network]? = some n

structure Keeps (initial : ℤ) (s : Host) : Prop where
  value : s.kernel.ipForward = initial ∨ s.kernel.ipForward = 1
  prev : ∀ (j : ℕ) (n : AutoNetwork), s.networks[j]? = some n →
    ∀ v ∈ n.prevIPForward, v = initial ∨ v = 1
  known : ∀ (i : ℕ) (c : Call), s.calls[i]? = some c → ∃ n, s.networks[c.network]? = some n
  fits : ∀ i c n, s.At i c n → c.work.Fits initial s.kernel.ipForward n
  untouched : ∀ (j : ℕ) (n : AutoNetwork), s.networks[j]? = some n →
    (∀ c ∈ s.calls, c.network ≠ j) → n.cleanupOnce = .fresh
  /-- While a network is being activated there is no other call on it. -/
  solo : ∀ (i j : ℕ) (c d : Call), s.calls[i]? = some c → s.calls[j]? = some d →
    c.network = d.network → c.work.isActivating = true → i = j
  holder : s.kernel.ipForward = initial ∨
    ∃ i c n, s.At i c n ∧ n.prevIPForward = some initial ∧ c.work.Holds n

variable {initial : ℤ} {s s' : Host} {i j : ℕ} {c d : Call} {n n' m : AutoNetwork} {κ' : Kernel}
  {work' : Work} {ok : Bool}

theorem at_setWork (hat : s.At i c n) (h : (s.setWork i c (κ', n', work')).At j d m) :
    j = i ∧ d = { c with work := work' } ∧ m = n' ∨
      j ≠ i ∧ s.At j d n ∧ d.network = c.network ∧ m = n' ∨
      j ≠ i ∧ s.At j d m ∧ d.network ≠ c.network := by
  obtain ⟨hj, hm⟩ := h
  have hnetwork : (s.networks.set c.network n')[c.network]? = some n' :=
    getElem?_set_self (List.getElem?_eq_some_iff.mp hat.2).1
  rcases getElem?_set_cases hj with ⟨rfl, rfl⟩ | ⟨hji, hold⟩
  · exact .inl ⟨rfl, rfl, mem_unique hm hnetwork⟩
  · rcases getElem?_set_cases hm with ⟨hsame, rfl⟩ | ⟨hsame, hm⟩
    · exact .inr (.inl ⟨hji, ⟨hold, hsame ▸ hat.2⟩, hsame, rfl⟩)
    · exact .inr (.inr ⟨hji, ⟨hold, hm⟩, hsame⟩)

/-- A call is where it was, if another call has made a step elsewhere. -/
theorem At.setWork (h : s.At j d m) (hji : j ≠ i) (hnetwork : d.network ≠ c.network) :
    (s.setWork i c (κ', n', work')).At j d m :=
  ⟨(getElem?_set_ne hji.symm).trans h.1, (getElem?_set_ne hnetwork.symm).trans h.2⟩

theorem At.setWork_self (h : s.At i c n) :
    (s.setWork i c (κ', n', work')).At i { c with work := work' } n' :=
  ⟨getElem?_set_self (List.getElem?_eq_some_iff.mp h.1).1,
    getElem?_set_self (List.getElem?_eq_some_iff.mp h.2).1⟩

theorem At.setWork_same (h : s.At j d n) (hat : s.At i c n) (hji : j ≠ i)
    (hnetwork : d.network = c.network) : (s.setWork i c (κ', n', work')).At j d n' := by
  refine ⟨(getElem?_set_ne hji.symm).trans h.1, ?_⟩
  rw [hnetwork]
  exact getElem?_set_self (List.getElem?_eq_some_iff.mp hat.2).1

section

variable (hs : s.Keeps initial)
include hs

section

variable (hat : s.At i c n)
include hat

/-- **A step of a call.** Other calls on its network are not activating it. -/
theorem Keeps.setWork (hvalue : κ'.ipForward = initial ∨ κ'.ipForward = 1)
    (hprev : ∀ v ∈ n'.prevIPForward, v = initial ∨ v = 1)
    (hfits : work'.Fits initial κ'.ipForward n')
    (hactive : work'.isActivating = true → c.work.isActivating = true)
    (hsame : c.work.isActivating = true ∨ ∀ w : Work, w.isActivating = false →
      w.Fits initial s.kernel.ipForward n → w.Fits initial κ'.ipForward n')
    (hother : ∀ j d m, s.At j d m → d.network ≠ c.network → d.work.Fits initial κ'.ipForward m)
    (hholder : κ'.ipForward = initial ∨ ∃ j d m, (s.setWork i c (κ', n', work')).At j d m ∧
      m.prevIPForward = some initial ∧ d.work.Holds m) :
    (s.setWork i c (κ', n', work')).Keeps initial := by
  refine ⟨hvalue, fun j m hj ↦ ?_, fun j d hj ↦ ?_, fun j d m hd ↦ ?_, fun j m hj hnone ↦ ?_,
    fun j j' d d' hj hj' hnetwork hd ↦ ?_, hholder⟩
  · rcases getElem?_set_cases hj with ⟨-, rfl⟩ | ⟨-, hj⟩
    · exact hprev
    · exact hs.prev j m hj
  · have hknown (d : Call) (hd : ∃ m, s.networks[d.network]? = some m) :
        ∃ m, (s.networks.set c.network n')[d.network]? = some m := by
      obtain ⟨m, hm⟩ := hd
      have hlt : d.network < (s.networks.set c.network n').length := by
        rw [length_set]
        exact (List.getElem?_eq_some_iff.mp hm).1
      exact ⟨_, getElem?_eq_getElem hlt⟩
    rcases getElem?_set_cases hj with ⟨-, rfl⟩ | ⟨-, hold⟩
    · exact hknown _ ⟨n, hat.2⟩
    · exact hknown d (hs.known j d hold)
  · rcases at_setWork hat hd with ⟨-, rfl, rfl⟩ | ⟨hji, hold, hnetwork, rfl⟩ | ⟨-, hold, hnetwork⟩
    · exact hfits
    · rcases hsame with hactivating | hsame
      · exact absurd (hs.solo i j c d hat.1 hold.1 hnetwork.symm hactivating).symm hji
      · refine hsame d.work ?_ (hs.fits j d n hold)
        by_contra hactivating
        exact hji (hs.solo j i d c hold.1 hat.1 hnetwork (by simpa using hactivating))
    · exact hother j d m hold hnetwork
  · have hjc : j ≠ c.network := by
      rintro rfl
      exact hnone _ (mem_of_getElem? (At.setWork_self hat).1) rfl
    rw [Host.setWork, getElem?_set_ne hjc.symm] at hj
    refine hs.untouched j m hj fun d hd hdj ↦ ?_
    obtain ⟨k, hk⟩ := mem_iff_getElem?.mp hd
    have hki : k ≠ i := by
      rintro rfl
      exact hjc (hdj ▸ congrArg Call.network (mem_unique hk hat.1))
    exact hnone d (mem_of_getElem? ((getElem?_set_ne hki.symm).trans hk)) hdj
  · rcases getElem?_set_cases hj with ⟨rfl, rfl⟩ | ⟨hji, hold⟩
    · rcases getElem?_set_cases hj' with ⟨rfl, -⟩ | ⟨-, hold'⟩
      · rfl
      · exact hs.solo j j' c d' hat.1 hold' hnetwork (hactive hd)
    · rcases getElem?_set_cases hj' with ⟨rfl, rfl⟩ | ⟨-, hold'⟩
      · exact hs.solo j j' d c hold hat.1 hnetwork hd
      · exact hs.solo j j' d d' hold hold' hnetwork hd

/-- Who sees to the setting, after a step that leaves it alone. -/
theorem Keeps.holder_setWork (hip : κ'.ipForward = s.kernel.ipForward)
    (hself : s.kernel.ipForward ≠ initial → n.prevIPForward = some initial →
      (c.work.Holds n → n'.prevIPForward = some initial ∧ work'.Holds n') ∧
      (c.work.isActivating = true ∨ n' = n ∨ n'.prevIPForward = some initial ∧ work'.Holds n')) :
    κ'.ipForward = initial ∨ ∃ j d m, (s.setWork i c (κ', n', work')).At j d m ∧
      m.prevIPForward = some initial ∧ d.work.Holds m := by
  rw [hip]
  by_cases hinitial : s.kernel.ipForward = initial
  · exact .inl hinitial
  right
  obtain ⟨j, d, m, hd, hprev, hholds⟩ := hs.holder.resolve_left hinitial
  by_cases hji : j = i
  · subst hji
    obtain rfl : d = c := mem_unique hd.1 hat.1
    obtain rfl : m = n := mem_unique hd.2 hat.2
    exact ⟨j, _, n', At.setWork_self hat, (hself hinitial hprev).1 hholds⟩
  · by_cases hnetwork : d.network = c.network
    · obtain rfl : m = n := mem_unique hd.2 (hnetwork ▸ hat.2)
      -- the call `d` holds the setting by a network on which `c` makes a step
      rcases (hself hinitial hprev).2 with hactivating | rfl | hnew
      · exact absurd (hs.solo i j c d hat.1 hd.1 hnetwork.symm hactivating).symm hji
      · exact ⟨j, d, n', At.setWork_same hd hat hji hnetwork, hprev, hholds⟩
      · exact ⟨i, _, n', At.setWork_self hat, hnew⟩
    · exact ⟨j, d, m, At.setWork hd hji hnetwork, hprev, hholds⟩

/-- **A step that leaves the setting alone**, and what was found there. -/
theorem Keeps.quiet
    (hip : κ'.ipForward = s.kernel.ipForward) (hprev : n'.prevIPForward = n.prevIPForward)
    (hfresh : n'.cleanupOnce = .fresh → n.cleanupOnce = .fresh)
    (hfits : work'.Fits initial s.kernel.ipForward n')
    (hactive : work'.isActivating = true → c.work.isActivating = true)
    (hholds : s.kernel.ipForward ≠ initial → n.prevIPForward = some initial →
      (c.work.Holds n → work'.Holds n') ∧ (n' = n ∨ work'.Holds n')) :
    (s.setWork i c (κ', n', work')).Keeps initial := by
  refine hs.setWork hat (hip.symm ▸ hs.value) ?_ (hip.symm ▸ hfits) hactive (.inr ?_) ?_ ?_
  · exact hprev.symm ▸ hs.prev c.network n hat.2
  · intro w hw hfit
    exact hfit.of_not_isActivating hw hprev fun hn' ↦ ⟨hfresh hn', hip⟩
  · intro j d m hd _
    exact hip.symm ▸ hs.fits j d m hd
  refine hs.holder_setWork hat hip fun hinitial hn ↦ ?_
  have hn' : n'.prevIPForward = some initial := hprev.trans hn
  obtain ⟨hself, hother⟩ := hholds hinitial hn
  exact ⟨fun h ↦ ⟨hn', hself h⟩, .inr (hother.imp_right fun h ↦ ⟨hn', h⟩)⟩

theorem Keeps.closing {stage stage' : Closing} {f : Closing → Work}
    (hf : f = .close ∨ f = fun stage ↦ .activate (.undo stage)) (hc : c.work = f stage)
    (hok : s.LastOut (.act i ok)) (hstep : ClosingStep s.kernel n ok stage κ' n' stage') :
    (s.setWork i c (κ', n', f stage')).Keeps initial := by
  have hactive (hstage : stage ≠ .closed) :
      (f stage').isActivating = true → c.work.isActivating = true := by
    rw [hc]
    rcases hf with rfl | rfl
    · nofun
    · cases stage with
      | closed => exact absurd rfl hstage
      | _ => exact fun _ ↦ rfl
  have hmay (hstage : stage = .restore) : s.MayRestore c.network ok := by
    refine hok c hat.1 ?_
    subst hstage
    rw [hc]
    rcases hf with rfl | rfl <;> rfl
  cases hstep with
  | enter honce =>
    refine hs.quiet hat rfl rfl nofun ?_ (hactive nofun) fun _ _ ↦ ?_
    · rcases hf with rfl | rfl <;> trivial
    · rcases hf with rfl | rfl <;> exact ⟨fun _ ↦ trivial, .inr trivial⟩
  | again honce =>
    refine hs.quiet hat rfl rfl id ?_ (hactive nofun) fun _ _ ↦ ⟨fun hholds ↦ ?_, .inl rfl⟩
    · rcases hf with rfl | rfl <;> trivial
    have hfresh : n.cleanupOnce = .fresh := by
      rw [hc] at hholds
      rcases hf with rfl | rfl <;> exact hholds
    nomatch hfresh.symm.trans honce
  | deleteRules =>
    refine hs.quiet hat rfl rfl id ?_ (hactive nofun) fun _ _ ↦ ⟨fun _ ↦ ?_, .inl rfl⟩
    · rcases hf with rfl | rfl <;> trivial
    · rcases hf with rfl | rfl <;> trivial
  | keep hkeep =>
    refine hs.quiet hat rfl rfl nofun ?_ (hactive nofun) fun hinitial hprev ↦ ?_
    · rcases hf with rfl | rfl <;> trivial
    -- what was found would have been written back
    have hone : initial ≠ 1 := fun h ↦ hinitial (hs.value.elim id fun h1 ↦ h1.trans h.symm)
    rcases hmay rfl n hat.2 with hnone | hsome | ⟨htrue, -⟩
    · nomatch hnone.symm.trans hprev
    · exact absurd (mem_unique hprev hsome) hone
    · nomatch htrue.symm.trans (hkeep initial hprev hone)
  | restore hprev hv =>
    rename_i v
    obtain rfl : v = initial := (hs.prev c.network n hat.2 v hprev).resolve_right hv
    refine hs.setWork hat (.inl rfl) (hs.prev c.network n hat.2) ?_ (hactive nofun) (.inr ?_)
      ?_ (.inl rfl)
    · rcases hf with rfl | rfl <;> trivial
    · intro w hw hfit
      exact hfit.of_not_isActivating hw rfl nofun
    intro j d m hd hnetwork
    refine (hs.fits j d m hd).of_idle ?_
    rcases hmay rfl n hat.2 with hnone | hsome | ⟨-, hothers⟩
    · nomatch hnone.symm.trans hprev
    · exact absurd (mem_unique hprev hsome) hv
    · exact hothers d.network (List.getElem?_eq_some_iff.mp hd.2).1 hnetwork m hd.2

theorem Keeps.activation {stage stage' : Activation}
    (hc : c.work = .activate stage) (hok : s.LastOut (.act i ok))
    (hstep : ActivationStep s.kernel n ok stage κ' n' stage') :
    (s.setWork i c (κ', n', .activate stage')).Keeps initial := by
  have hfits : (Work.activate stage).Fits initial s.kernel.ipForward n := hc ▸ hs.fits i c n hat
  cases hstep with
  | early h h' =>
    have hfresh : n.cleanupOnce = .fresh := by
      cases stage with
      | flushAddr | addAddr | linkUp | readForward => exact hfits
      | _ => nomatch h
    have hactivating : c.work.isActivating = true := by
      rw [hc]
      cases stage with
      | flushAddr | addAddr | linkUp | readForward => rfl
      | _ => nomatch h
    refine hs.quiet hat rfl rfl id ?_ (fun _ ↦ hactivating) fun _ _ ↦ ⟨fun hholds ↦ ?_, .inl rfl⟩
    · cases stage' with
      | flushAddr | addAddr | linkUp | readForward => exact hfresh
      | _ => nomatch h'
    rw [hc] at hholds
    cases stage with
    | flushAddr | addAddr | linkUp | readForward => nomatch hholds
    | _ => nomatch h
  | fail h =>
    refine hs.quiet hat rfl rfl id trivial nofun fun _ _ ↦ ⟨fun hholds ↦ ?_, .inl rfl⟩
    rw [hc] at hholds
    cases stage with
    | flushAddr | addAddr | linkUp | readForward | writeForward => nomatch hholds
    | _ => nomatch h
  | readOn hon =>
    have hactivating : c.work.isActivating = true := by rw [hc]; rfl
    refine hs.setWork hat hs.value ?_ ⟨hfits, nofun, hon⟩ (fun _ ↦ hactivating)
      (.inl hactivating) (fun j d m hd _ ↦ hs.fits j d m hd) ?_
    · exact fun v hv ↦ .inr ((Option.some.inj hv).symm.trans hon)
    · refine hs.holder_setWork hat rfl fun _ _ ↦ ⟨fun hholds ↦ ?_, .inl hactivating⟩
      rw [hc] at hholds
      nomatch hholds
  | readOff hoff =>
    have hactivating : c.work.isActivating = true := by rw [hc]; rfl
    have hip : s.kernel.ipForward = initial := hs.value.resolve_right hoff
    refine hs.setWork hat hs.value ?_ ⟨hfits, congrArg some hip⟩ (fun _ ↦ hactivating)
      (.inl hactivating) (fun j d m hd _ ↦ hs.fits j d m hd) (.inl hip)
    exact fun v hv ↦ .inl ((Option.some.inj hv).symm.trans hip)
  | write =>
    have hactivating : c.work.isActivating = true := by rw [hc]; rfl
    obtain ⟨hfresh, hprev⟩ := hfits
    refine hs.setWork hat (.inr rfl) (hs.prev c.network n hat.2)
      ⟨hfresh, hprev ▸ nofun, rfl⟩ (fun _ ↦ hactivating)
      (.inl hactivating) (fun j d m hd _ ↦ (hs.fits j d m hd).one) (.inr ?_)
    exact ⟨i, _, n, At.setWork_self hat, hprev, hfresh⟩
  | rules =>
    refine hs.quiet hat rfl rfl id ⟨hfits.2.1, fun _ ↦ hfits.2.2⟩ nofun fun _ _ ↦
      ⟨fun _ ↦ hfits.1, .inl rfl⟩
  | undo =>
    refine hs.quiet hat rfl rfl id hfits.1 (fun _ ↦ by rw [hc]; rfl) fun _ _ ↦
      ⟨fun _ ↦ hfits.1, .inl rfl⟩
  | closing h => exact hs.closing hat (f := fun stage ↦ .activate (.undo stage)) (.inr rfl) hc hok h

theorem Keeps.act (hok : s.LastOut (.act i ok))
    (hstep : WorkStep s.kernel n ok c.work κ' n' work') :
    (s.setWork i c (κ', n', work')).Keeps initial := by
  generalize hc : c.work = before at hstep
  cases hstep with
  | activate h => exact hs.activation hat hc hok h
  | close h => exact hs.closing hat (f := .close) (.inl rfl) hc hok h

end

/-- **A call begins**: `Activate` on a network on which there was none, or `Close` on one on which
all calls have come back. -/
theorem Keeps.begin {network : ℕ} {work : Work} (hlt : network < s.networks.length)
    (hfits : ∀ n, s.networks[network]? = some n → work.Fits initial s.kernel.ipForward n)
    (hothers : ∀ c ∈ s.calls, c.network = network →
      work.isActivating = false ∧ c.work.isActivating = false) :
    Keeps initial { s with calls := s.calls ++ [⟨network, work⟩] } := by
  have hold (j : ℕ) (d : Call) (hj : s.calls[j]? = some d) :
      (s.calls ++ [⟨network, work⟩])[j]? = some d :=
    (getElem?_append_left (List.getElem?_eq_some_iff.mp hj).1).trans hj
  refine ⟨hs.value, hs.prev, fun j d hj ↦ ?_, fun j d m hd ↦ ?_, fun j m hj hnone ↦ ?_,
    fun j j' d d' hj hj' hnetwork hd ↦ ?_, ?_⟩
  · rcases getElem?_concat_cases hj with hj | ⟨-, rfl⟩
    · exact hs.known j d hj
    · exact ⟨_, getElem?_eq_getElem hlt⟩
  · rcases getElem?_concat_cases hd.1 with hj | ⟨-, rfl⟩
    · exact hs.fits j d m ⟨hj, hd.2⟩
    · exact hfits m hd.2
  · exact hs.untouched j m hj fun d hd ↦ hnone d (mem_append_left _ hd)
  · rcases getElem?_concat_cases hj with hj | ⟨rfl, rfl⟩
    · rcases getElem?_concat_cases hj' with hj' | ⟨rfl, rfl⟩
      · exact hs.solo j j' d d' hj hj' hnetwork hd
      · nomatch hd.symm.trans (hothers d (mem_of_getElem? hj) hnetwork).2
    · rcases getElem?_concat_cases hj' with hj' | ⟨rfl, rfl⟩
      · nomatch hd.symm.trans (hothers d' (mem_of_getElem? hj') hnetwork.symm).1
      · rfl
  · refine hs.holder.imp_right fun ⟨j, d, m, hd, hholds⟩ ↦ ?_
    exact ⟨j, d, m, ⟨hold j d hd.1, hd.2⟩, hholds⟩

/-- A network that has just been created is nobody's yet. -/
theorem Keeps.setCreation {k : ℕ} {creation : NewCall} {stage : Creation} :
    (s.setCreation k creation stage).Keeps initial := by
  have hnetworks : ∃ new : List AutoNetwork, (s.setCreation k creation stage).networks =
      s.networks ++ new ∧ ∀ n ∈ new, n.prevIPForward = none ∧ n.cleanupOnce = .fresh := by
    simp only [Host.setCreation]
    split
    · exact ⟨_, rfl, fun n hn ↦ by rw [mem_singleton.mp hn]; exact ⟨rfl, rfl⟩⟩
    · exact ⟨[], (append_nil _).symm, by simp⟩
  obtain ⟨new, hnew, hfresh⟩ := hnetworks
  have hcases (j : ℕ) (n : AutoNetwork)
      (hj : (s.setCreation k creation stage).networks[j]? = some n) :
      s.networks[j]? = some n ∨ n.prevIPForward = none ∧ n.cleanupOnce = .fresh := by
    rw [hnew, getElem?_append] at hj
    split_ifs at hj
    · exact .inl hj
    · exact .inr (hfresh n (mem_of_getElem? hj))
  have hold (j : ℕ) (n : AutoNetwork) (hj : s.networks[j]? = some n) :
      (s.setCreation k creation stage).networks[j]? = some n := by
    rw [hnew, getElem?_append_left (List.getElem?_eq_some_iff.mp hj).1, hj]
  refine ⟨hs.value, fun j n hj ↦ ?_, fun j d hj ↦ ?_, fun j d m hd ↦ ?_, fun j m hj hnone ↦ ?_,
    hs.solo, ?_⟩
  · rcases hcases j n hj with hj | ⟨hn, -⟩
    · exact hs.prev j n hj
    · simp [hn]
  · obtain ⟨n, hn⟩ := hs.known j d hj
    exact ⟨n, hold _ n hn⟩
  · -- the network of a call was there before
    obtain ⟨n, hn⟩ := hs.known j d hd.1
    obtain rfl : n = m := mem_unique (hold _ n hn) hd.2
    exact hs.fits j d n ⟨hd.1, hn⟩
  · rcases hcases j m hj with hj | ⟨-, hm⟩
    · exact hs.untouched j m hj hnone
    · exact hm
  · refine hs.holder.imp_right ?_
    rintro ⟨j, d, m, hd, hholds⟩
    exact ⟨j, d, m, ⟨hd.1, hold _ m hd.2⟩, hholds⟩

end

theorem keeps_init (kernel : Kernel) : (init kernel).Keeps kernel.ipForward where
  value := .inl rfl
  prev := nofun
  known := nofun
  fits _ _ _ h := nomatch h.1
  untouched := nofun
  solo := nofun
  holder := .inl rfl

theorem Keeps.step {e : Event} (hs : s.Keeps initial) (hok : s.LastOut e)
    (hstep : s.step e = some s') : s'.Keeps initial := by
  cases e with
  | newAuto project tapName | other routes links addrs =>
    obtain ⟨⟩ := hstep
    exact { hs with }
  | create i ending =>
    obtain ⟨c, hi, hcreate⟩ := bind_eq_some_iff.mp hstep
    obtain ⟨stage, hstage, rfl⟩ := map_eq_some_iff.mp hcreate
    exact hs.setCreation
  | activate network =>
    obtain ⟨hlt, ⟨⟩⟩ := ite_none_right_eq_some.mp hstep
    refine hs.begin hlt (fun n hn ↦ ?_) fun c hc hnetwork ↦ absurd hnetwork (hok c hc)
    exact hs.untouched network n hn hok
  | close network =>
    obtain ⟨hlt, ⟨⟩⟩ := ite_none_right_eq_some.mp hstep
    refine hs.begin hlt (fun n hn ↦ trivial) fun c hc hnetwork ↦ ⟨rfl, ?_⟩
    exact Work.not_isActivating (hok c hc hnetwork)
  | act i ok =>
    obtain ⟨c, hi, hcall⟩ := bind_eq_some_iff.mp hstep
    obtain ⟨n, hn, hwork⟩ := bind_eq_some_iff.mp hcall
    obtain ⟨⟨κ', n', work'⟩, hadvance, rfl⟩ := map_eq_some_iff.mp hwork
    exact hs.act ⟨hi, hn⟩ hok (.of_advance hadvance)

theorem Keeps.forwards (hs : s.Keeps initial) : s.Forwards initial where
  held i hopen := by
    obtain ⟨⟨c, hc, rfl, hwork⟩, n, hn, hfresh⟩ := hopen
    obtain ⟨j, hj⟩ := mem_iff_getElem?.mp hc
    have hfits := hs.fits j c n ⟨hj, hn⟩
    rw [hwork] at hfits
    exact hfits.2 hfresh
  restored hclosed := by
    rcases hs.holder with hinitial | ⟨j, c, n, hc, hprev, hholds⟩
    · exact hinitial
    -- a call that holds the setting has not come back, or its network is open
    obtain ⟨hreturned, hfinished⟩ := hclosed c (mem_of_getElem? hc.1)
    generalize c.work = w at hreturned hfinished hholds
    match w with
    | .activate .activated =>
      obtain ⟨m, hm, honce⟩ := hfinished rfl
      obtain rfl : m = n := mem_unique hm hc.2
      nomatch honce.symm.trans hholds
    | .activate .failed | .activate (.undo .closed) | .close .closed => nomatch hholds

end Host

/-- **Forwarding is held and restored**: in every state of every run in which whoever has found
another value than 1 is the last to be closed, from every initial value. -/
theorem forwards_of_lastOut {kernel : Kernel} {events : List Event} {s : Host}
    (hrun : Run Host.step Host.LastOut (.init kernel) events s) : s.Forwards kernel.ipForward :=
  Host.Keeps.forwards (hrun.invariant (I := Host.Keeps kernel.ipForward)
      (fun _ _ _ hs hok hstep ↦ hs.step hok hstep) (Host.keeps_init kernel))

/-! ## Two runs -/

/-- `Close` from its beginning to its end. -/
def closeSteps (i network : ℕ) : List Event := [.close network] ++ workSteps i 3

theorem forwards_lastFirst : ∃ s,
    Run Host.step Host.LastOut (.init sampleKernel)
      (oneByOne ++ closeSteps 2 1 ++ closeSteps 3 0) s ∧
    (s.kernel.ipForward, s.calls.map fun c ↦ c.work.hasReturned) = (0, [true, true, true, true]) ∧
    s.Forwards 0 := by
  refine Run.exists_of_exec _ (by decide +kernel) fun s hrun hreturned ↦
    ⟨hreturned, forwards_of_lastOut hrun⟩

/-- The first network is closed first: the second one is open, and forwarding is off. -/
theorem not_forwards_firstFirst : ∃ s,
    Run Host.step anyStep (.init sampleKernel) (oneByOne ++ closeSteps 2 0) s ∧
    s.kernel.ipForward = 0 ∧ s.IsOpen 1 ∧ ¬ s.Forwards 0 := by
  refine Run.exists_of_exec (fun s ↦ s.kernel.ipForward = 0 ∧
    s.calls[1]? = some ⟨1, .activate .activated⟩ ∧
    s.networks[1]?.map AutoNetwork.cleanupOnce = some .fresh) (by decide +kernel)
    fun s hrun ⟨hip, hcall, hnetwork⟩ ↦ ?_
  obtain ⟨n, hn, hfresh⟩ := map_eq_some_iff.mp hnetwork
  have hopen : s.IsOpen 1 := ⟨⟨_, mem_of_getElem? hcall, rfl, rfl⟩, n, hn, hfresh⟩
  exact ⟨hip, hopen, fun h ↦ nomatch hip.symm.trans (h.held 1 hopen)⟩

end Gocracker.Hostnet
