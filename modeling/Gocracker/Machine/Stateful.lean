import Mathlib

/-!
# Stateful computations that may fail

A program that changes a state and may fail half-way is an `EStateM`: what it did before the failure
stays done. `Triple P c Q E` says that from a state with `P` the program `c` either returns a result
`a` in a state with `Q a`, or fails in a state with `E`. A safety property that a failure must not
break either is then put into `E`.

The rules follow the constructs of the `do` notation, one for each, so that a proof about a program
has the shape of the program.
-/

namespace Machine

open List

universe u

variable {ε σ : Type u} {α β : Type u}

/-- From `P`, the program returns in `Q` or fails in `E`. -/
def Triple (P : σ → Prop) (c : EStateM ε σ α) (Q : α → σ → Prop) (E : σ → Prop) : Prop :=
  ∀ s, P s →
    match c s with
    | .ok a s' => Q a s'
    | .error _ s' => E s'

/-- From `P`, the program ends in `Q`, with an error or without. -/
abbrev Leads (P : σ → Prop) (c : EStateM ε σ α) (Q : σ → Prop) : Prop := Triple P c (fun _ ↦ Q) Q

/-- An invariant, which a failure must not break either. -/
abbrev Keeps (I : σ → Prop) (c : EStateM ε σ α) : Prop := Leads I c I

/-- From `P`, the program returns in `Q` or fails in `E`, which depends on what went wrong. -/
def Contract (P : σ → Prop) (c : EStateM ε σ α) (Q : α → σ → Prop) (E : ε → σ → Prop) : Prop :=
  ∀ s, P s →
    match c s with
    | .ok a s' => Q a s'
    | .error e s' => E e s'

/-- Run a program and ignore its failure. -/
def attempt (c : EStateM ε σ PUnit) : EStateM ε σ PUnit := fun s ↦
  match c s with
  | .ok _ s' | .error _ s' => .ok ⟨⟩ s'

/-- The state in which a program ends, with an error or without. -/
def endState : EStateM.Result ε σ α → σ
  | .ok _ s | .error _ s => s

def isError : EStateM.Result ε σ α → Bool
  | .ok _ _ => false
  | .error _ _ => true

variable {s s' : σ} {a : α} {e : ε} {c : EStateM ε σ α} {f : α → EStateM ε σ β}

namespace Contract

variable {P : σ → Prop} {E : ε → σ → Prop} {Q : α → σ → Prop} {R : β → σ → Prop}

theorem pure (h : ∀ s, P s → Q a s) : Contract P (Pure.pure a : EStateM ε σ α) Q E := h

theorem throw (h : ∀ s, P s → E e s) : Contract P (MonadExcept.throw e : EStateM ε σ α) Q E := h

/-- A sequence: the intermediate condition is what the first part ensures. -/
theorem bind (hc : Contract P c Q E) (hf : ∀ a, Contract (Q a) (f a) R E) :
    Contract P (c >>= f) R E := by
  intro s hs
  have hmid := hc s hs
  revert hmid
  change _ → match EStateM.bind c f s with | .ok a s' => R a s' | .error e s' => E e s'
  rw [EStateM.bind]
  cases c s with
  | ok a s' => exact hf a s'
  | error e s' => exact id

theorem modify {g : σ → σ} {Q : PUnit → σ → Prop} (h : ∀ s, P s → Q ⟨⟩ (g s)) :
    Contract P (modifyGet fun s ↦ (⟨⟩, g s) : EStateM ε σ PUnit) Q E := h

theorem of_error (h : Contract P c Q E) (hs : P s) (hrun : c s = .error e s') : E e s' := by
  have hend := h s hs
  rwa [hrun] at hend

end Contract

namespace Triple

variable {P P' E E' : σ → Prop} {Q Q' : α → σ → Prop} {R : β → σ → Prop}

theorem pure (h : ∀ s, P s → Q a s) : Triple P (Pure.pure a : EStateM ε σ α) Q E := h

theorem throw (h : ∀ s, P s → E s) : Triple P (MonadExcept.throw e : EStateM ε σ α) Q E := h

theorem skip : Triple P (Pure.pure a : EStateM ε σ α) (fun _ ↦ P) E := pure fun _ h ↦ h

theorem raise : Triple P (MonadExcept.throw e : EStateM ε σ α) Q P := throw fun _ h ↦ h

theorem bind (hc : Triple P c Q E) (hf : ∀ a, Triple (Q a) (f a) R E) : Triple P (c >>= f) R E :=
  Contract.bind hc hf

theorem get_bind {f : σ → EStateM ε σ β} (h : ∀ s, P s → Triple (· = s) (f s) R E) :
    Triple P (MonadState.get >>= f) R E :=
  fun s hs ↦ h s hs s rfl

theorem set {Q : PUnit → σ → Prop} (h : ∀ s, P s → Q ⟨⟩ s') :
    Triple P (MonadStateOf.set s' : EStateM ε σ PUnit) Q E := h

theorem weaken (hc : Triple P c Q E) (hP : ∀ s, P' s → P s) (hQ : ∀ a s, Q a s → Q' a s)
    (hE : ∀ s, E s → E' s) : Triple P' c Q' E' := by
  intro s hs
  have hmid := hc s (hP s hs)
  revert hmid
  cases c s with
  | ok a s' => exact hQ a s'
  | error e s' => exact hE s'

theorem weaken_post (hc : Triple P c Q E) (hQ : ∀ a s, Q a s → Q' a s) (hE : ∀ s, E s → E' s) :
    Triple P c Q' E' :=
  hc.weaken (fun _ h ↦ h) hQ hE

theorem weaken_pre (hc : Triple P c Q E) (hP : ∀ s, P' s → P s) : Triple P' c Q E :=
  hc.weaken hP (fun _ _ h ↦ h) fun _ h ↦ h

theorem weaken_leads {Q Q' : σ → Prop} (hc : Leads P c Q) (h : ∀ s, Q s → Q' s) : Leads P c Q' :=
  hc.weaken_post (fun _ ↦ h) h

theorem weaken_error (hc : Triple P c Q E) (hE : ∀ s, E s → E' s) : Triple P c Q E' :=
  hc.weaken_post (fun _ _ h ↦ h) hE

theorem at_state (hc : Triple P c Q E) (hs : P s) : Triple (· = s) c Q E :=
  hc.weaken_pre fun _ h ↦ h ▸ hs

/-- Two things that a program ensures, each from a condition of its own. -/
theorem and {P₂ E₂ : σ → Prop} {Q₂ : α → σ → Prop} (h : Triple P c Q E) (h₂ : Triple P₂ c Q₂ E₂) :
    Triple (fun s ↦ P s ∧ P₂ s) c (fun a s ↦ Q a s ∧ Q₂ a s) fun s ↦ E s ∧ E₂ s := by
  intro s hs
  have hboth := And.intro (h s hs.1) (h₂ s hs.2)
  revert hboth
  cases c s with
  | ok | error => exact id

/-- A precondition may be read off the state it holds in. -/
theorem of_forall (h : ∀ s, P s → Triple (· = s) c Q E) : Triple P c Q E := fun s hs ↦ h s hs s rfl

/-- A precondition that is not about the state. -/
theorem fact {φ : Prop} (h : φ → Triple P c Q E) : Triple (fun s ↦ P s ∧ φ) c Q E :=
  fun s hs ↦ h hs.2 s hs.1

/-- From a known state, the result is the one that the program has there. -/
theorem result {s₁ : σ} (h : Triple (· = s₁) c Q E) :
    Triple (· = s₁) c (fun a s ↦ Q a s ∧ c s₁ = .ok a s) E := by
  rintro s rfl
  have hend := h s rfl
  revert hend
  cases c s with
  | ok a s' => exact fun hend ↦ ⟨hend, rfl⟩
  | error e s' => exact id

theorem exists_ok (h : Triple P c Q fun _ ↦ False) (hs : P s) :
    ∃ a s', c s = .ok a s' ∧ Q a s' := by
  have hend := h s hs
  revert hend
  cases c s with
  | ok a s' => exact fun hend ↦ ⟨a, s', rfl, hend⟩
  | error e s' => exact False.elim

theorem endState {Q : σ → Prop} (h : Leads P c Q) (hs : P s) : Q (Machine.endState (c s)) := by
  have hend := h s hs
  revert hend
  cases c s with
  | ok | error => exact id

theorem adaptExcept {ε' : Type u} {g : ε → ε'} (hc : Triple P c Q E) :
    Triple P (EStateM.adaptExcept g c) Q E := by
  intro s hs
  have hmid := hc s hs
  revert hmid
  rw [EStateM.adaptExcept]
  cases c s with
  | ok | error => exact id

/-- A failure is ignored: what holds after it has to be what holds after a success. -/
theorem attempt {c : EStateM ε σ PUnit} {Q : σ → Prop} (hc : Leads P c Q) :
    Triple P (Machine.attempt c) (fun _ ↦ Q) E := by
  intro s hs
  have hmid := hc s hs
  revert hmid
  rw [Machine.attempt]
  cases c s with
  | ok | error => exact id

variable {γ : Type u}

/-- A loop whose invariant speaks about what is left of the list. -/
theorem forM_rest {I : List γ → σ → Prop} {g : γ → EStateM ε σ PUnit} (xs : List γ)
    (h : ∀ x rest, x :: rest <:+ xs → Triple (I (x :: rest)) (g x) (fun _ ↦ I rest) E) :
    Triple (I xs) (xs.forM g) (fun _ ↦ I []) E := by
  induction xs with
  | nil => exact pure fun s hs ↦ hs
  | cons x xs ih =>
    refine bind (h x xs (suffix_refl _)) fun _ ↦ ih fun y rest hsuffix ↦ ?_
    exact h y rest (hsuffix.trans (suffix_cons x xs))

/-- A loop over a list keeps an invariant that every iteration keeps. -/
theorem forM {I : σ → Prop} {g : γ → EStateM ε σ PUnit} (xs : List γ)
    (h : ∀ x ∈ xs, Triple I (g x) (fun _ ↦ I) E) : Triple I (xs.forM g) (fun _ ↦ I) E :=
  forM_rest (I := fun _ ↦ I) xs fun x _ hsuffix ↦ h x (hsuffix.subset mem_cons_self)

end Triple

end Machine
