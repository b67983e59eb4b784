import Mathlib

/-!
# Computations that leave a trace

A `Logged` computation changes a state and may fail. What it has done is in its trace, and a failure
does not take that back. The trace is written and never read: from the same state a computation
leaves the same trace, whatever happened before.

`Ensures Good P c Q` says that from a state with `P` every entry of the trace is good, given
everything in front of it, and that the result is as `Q` says. `P` and `Q` also see the trace so
far. Its rules follow the constructs of the `do` notation.
-/

namespace Machine

open List

universe u

/-- The trace, and a result in a new state or an error. -/
def Logged (ω ε σ α : Type u) : Type u := σ → List ω × Except ε (α × σ)

namespace Logged

variable {ω ω' ε ε' σ τ α β γ : Type u}

def sequence (l : List ω) : List ω × Except ε (α × σ) → List ω × Except ε (α × σ)
  | (l', r) => (l ++ l', r)

instance : Monad (Logged ω ε σ) where
  pure a := fun s ↦ ([], .ok (a, s))
  bind c f := fun s ↦
    match c s with
    | (l, .ok (a, s')) => sequence l (f a s')
    | (l, .error e) => (l, .error e)

def tell (w : ω) : Logged ω ε σ PUnit := fun s ↦ ([w], .ok (⟨⟩, s))

def fail (e : ε) : Logged ω ε σ α := fun _ ↦ ([], .error e)

def read : Logged ω ε σ σ := fun s ↦ ([], .ok (s, s))

def modify (f : σ → σ) : Logged ω ε σ PUnit := fun s ↦ ([], .ok (⟨⟩, f s))

/-- An error that is already there. -/
def ofExcept : Except ε α → Logged ω ε σ α
  | .ok a => Pure.pure a
  | .error e => fail e

/-- A loop over a list. -/
def forEach (g : γ → Logged ω ε σ PUnit) : List γ → Logged ω ε σ PUnit
  | [] => Pure.pure ⟨⟩
  | x :: xs => do
    g x
    forEach g xs

/-- On a part of a larger state, with other entries and errors. -/
def adapt (entry : ω → ω') (err : ε → ε') (get : τ → σ) (put : σ → τ → τ) (c : Logged ω ε σ α) :
    Logged ω' ε' τ α := fun t ↦
  match c (get t) with
  | (l, .ok (a, s)) => (l.map entry, .ok (a, put s t))
  | (l, .error e) => (l.map entry, .error (err e))

theorem bind_apply (c : Logged ω ε σ α) (f : α → Logged ω ε σ β) (s : σ) :
    (c >>= f) s = match c s with
      | (l, .ok (a, s')) => sequence l (f a s') | (l, .error e) => (l, .error e) := rfl

variable {c : Logged ω ε σ α} {f : α → Logged ω ε σ β} {l before : List ω}
  {Good : List ω → ω → Prop} {s t : σ} {a : α} {e : ε} {w : ω}

theorem bind_of_ok (h : c s = (l, .ok (a, t))) :
    (c >>= f) s = (l ++ (f a t).1, (f a t).2) := by
  rw [bind_apply, h]
  rfl

theorem bind_of_error (h : c s = (l, .error e)) : (c >>= f) s = (l, .error e) := by
  rw [bind_apply, h]

instance : LawfulMonad (Logged ω ε σ) := .mk' _
  (by
    intro α c
    funext s
    change (c >>= fun a ↦ Pure.pure (id a)) s = c s
    rcases hrun : c s with ⟨l, e | ⟨a, t⟩⟩
    · rw [bind_of_error hrun]
    · rw [bind_of_ok hrun]
      exact congrArg (·, _) (append_nil l))
  (fun _ _ ↦ rfl)
  (by
    intro α β γ c f g
    funext s
    rcases hrun : c s with ⟨l, e | ⟨a, t⟩⟩
    · rw [bind_of_error hrun, bind_of_error (bind_of_error hrun)]
    rw [bind_of_ok hrun]
    rcases hrun' : f a t with ⟨l', e | ⟨b, u⟩⟩
    · rw [bind_of_error hrun', bind_of_error ((bind_of_ok hrun).trans (by rw [hrun']))]
    · rw [bind_of_ok hrun', bind_of_ok ((bind_of_ok hrun).trans (by rw [hrun'])),
        append_assoc])

theorem forEach_append (g : γ → Logged ω ε σ PUnit) (xs ys : List γ) :
    forEach g (xs ++ ys) = forEach g xs >>= fun _ ↦ forEach g ys := by
  induction xs with
  | nil => exact (pure_bind _ _).symm
  | cons x xs ih =>
    rw [cons_append, forEach, ih]
    exact (bind_assoc _ _ _).symm

/-- A loop in a loop. -/
theorem forEach_flatMap {δ : Type u} (g : γ → Logged ω ε σ PUnit) (f : δ → List γ) (xs : List δ) :
    forEach g (xs.flatMap f) = forEach (fun x ↦ forEach g (f x)) xs := by
  induction xs with
  | nil => rfl
  | cons x xs ih => rw [flatMap_cons, forEach_append, ih, forEach]

theorem forEach_map {δ : Type u} (g : γ → Logged ω ε σ PUnit) (f : δ → γ) (xs : List δ) :
    forEach g (xs.map f) = forEach (fun x ↦ g (f x)) xs := by
  induction xs with
  | nil => rfl
  | cons x xs ih => rw [map_cons, forEach, forEach, ih]

/-! ## Rules -/

/-- Every entry is good, given those in front of it. -/
def Sound (Good : List ω → ω → Prop) (before l : List ω) : Prop :=
  ∀ a w b, l = a ++ w :: b → Good (before ++ a) w

theorem sound_nil : Sound Good before [] := by
  intro a w b h
  exact absurd h.symm (append_ne_nil_of_right_ne_nil _ (cons_ne_nil w b))

theorem sound_singleton (h : Good before w) : Sound Good before [w] := by
  intro a v b heq
  cases a with
  | nil =>
    rw [append_nil, ← (List.cons.inj heq).1]
    exact h
  | cons c a =>
    exact absurd (List.cons.inj heq).2.symm (append_ne_nil_of_right_ne_nil _ (cons_ne_nil v b))

theorem Sound.append {l' : List ω} (h : Sound Good before l)
    (h' : Sound Good (before ++ l) l') : Sound Good before (l ++ l') := by
  intro a w b heq
  rcases append_eq_append_iff.mp heq with ⟨c, ha, hc⟩ | ⟨c, hl, hc⟩
  · rw [ha, ← append_assoc]
    exact h' c w b hc
  cases c with
  | nil =>
    rw [append_nil] at hl
    rw [← hl, ← append_nil (before ++ l)]
    exact h' [] w b hc.symm
  | cons v c =>
    obtain ⟨rfl, -⟩ := List.cons.inj hc
    exact h a w c hl

/-- From `P`, the trace is good and the result is as `Q` says. -/
def Ensures (Good : List ω → ω → Prop) (P : List ω → σ → Prop) (c : Logged ω ε σ α)
    (Q : α → List ω → σ → Prop) : Prop :=
  ∀ before s, P before s → Sound Good before (c s).1 ∧
    ∀ a s', (c s).2 = .ok (a, s') → Q a (before ++ (c s).1) s'

variable {get : σ → τ} {put : τ → σ → σ}

namespace Ensures

variable {P P' : List ω → σ → Prop} {Q Q' : α → List ω → σ → Prop} {R : β → List ω → σ → Prop}

/-- A computation that leaves no trace. -/
theorem of_nil {g : σ → σ} (hc : ∀ s, c s = ([], .ok (a, g s)))
    (h : ∀ before s, P before s → Q a before (g s)) : Ensures Good P c Q := by
  intro before s hs
  rw [hc, append_nil]
  refine ⟨sound_nil, ?_⟩
  rintro _ _ ⟨⟩
  exact h before s hs

theorem pure (h : ∀ before s, P before s → Q a before s) :
    Ensures Good P (Pure.pure a : Logged ω ε σ α) Q := of_nil (fun _ ↦ rfl) h

/-- A sequence: the intermediate condition is what the first part ensures. -/
theorem bind (hc : Ensures Good P c Q) (hf : ∀ a, Ensures Good (Q a) (f a) R) :
    Ensures Good P (c >>= f) R := by
  intro before s hs
  obtain ⟨hsound, hok⟩ := hc before s hs
  rw [bind_apply]
  generalize c s = run at hsound hok
  obtain ⟨l, e | ⟨a, s'⟩⟩ := run
  · exact ⟨hsound, nofun⟩
  obtain ⟨hsound', hok'⟩ := hf a (before ++ l) s' (hok a s' rfl)
  refine ⟨hsound.append hsound', fun b t hb ↦ ?_⟩
  have hres := hok' b t hb
  rw [append_assoc] at hres
  exact hres

theorem tell {Q : PUnit → List ω → σ → Prop}
    (h : ∀ before s, P before s → Good before w ∧ Q ⟨⟩ (before ++ [w]) s) :
    Ensures Good P (Logged.tell w : Logged ω ε σ PUnit) Q := by
  intro before s hs
  obtain ⟨hgood, hq⟩ := h before s hs
  refine ⟨sound_singleton hgood, ?_⟩
  rintro _ _ ⟨⟩
  exact hq

theorem fail : Ensures Good P (Logged.fail e : Logged ω ε σ α) Q :=
  fun _ _ _ ↦ ⟨sound_nil, nofun⟩

/-- Reading the state: the rest is proved for the state that was read. -/
theorem read_bind {f : σ → Logged ω ε σ β}
    (h : ∀ s, Ensures Good (fun before t ↦ P before t ∧ t = s) (f s) R) :
    Ensures Good P (Logged.read >>= f) R :=
  fun before s hs ↦ h s before s ⟨hs, rfl⟩

theorem modify {g : σ → σ} {Q : PUnit → List ω → σ → Prop}
    (h : ∀ before s, P before s → Q ⟨⟩ before (g s)) :
    Ensures Good P (Logged.modify g : Logged ω ε σ PUnit) Q := of_nil (fun _ ↦ rfl) h

theorem weaken (hc : Ensures Good P c Q) (hP : ∀ before s, P' before s → P before s)
    (hQ : ∀ a before s, Q a before s → Q' a before s) : Ensures Good P' c Q' := by
  intro before s hs
  obtain ⟨hsound, hok⟩ := hc before s (hP before s hs)
  exact ⟨hsound, fun a s' heq ↦ hQ a _ s' (hok a s' heq)⟩

theorem of_forall (h : ∀ s, (∃ before, P before s) →
    Ensures Good (fun before t ↦ P before t ∧ t = s) c Q) : Ensures Good P c Q :=
  fun before s hs ↦ h s ⟨before, hs⟩ before s ⟨hs, rfl⟩

theorem of_true : Ensures (fun _ _ ↦ True) P c fun _ _ _ ↦ True :=
  fun _ _ _ ↦ ⟨fun _ _ _ _ ↦ trivial, fun _ _ _ ↦ trivial⟩

theorem ofExcept {r : Except ε α} (h : ∀ a, r = .ok a → ∀ before s, P before s → Q a before s) :
    Ensures Good P (Logged.ofExcept r) Q := by
  cases r with
  | error e => exact fail
  | ok a => exact pure (h a rfl)

/-- A loop whose invariant speaks about what is done of the list. -/
theorem forEach_done {g : γ → Logged ω ε σ PUnit} {I : List γ → List ω → σ → Prop} {xs : List γ}
    (h : ∀ done x rest, xs = done ++ x :: rest →
      Ensures Good (I done) (g x) fun _ ↦ I (done ++ [x])) :
    Ensures Good (I []) (Logged.forEach g xs) fun _ ↦ I xs := by
  have hrest (done rest : List γ) (hxs : xs = done ++ rest) :
      Ensures Good (I done) (Logged.forEach g rest) fun _ ↦ I xs := by
    induction rest generalizing done with
    | nil =>
      rw [hxs, append_nil]
      exact pure fun _ _ hI ↦ hI
    | cons x rest ih =>
      exact bind (h done x rest hxs) fun _ ↦ ih (done ++ [x]) (hxs.trans (append_cons done x rest))
  exact hrest [] xs rfl

theorem forEach {g : γ → Logged ω ε σ PUnit} {I : List ω → σ → Prop} {xs : List γ}
    (h : ∀ x ∈ xs, Ensures Good I (g x) fun _ ↦ I) :
    Ensures Good I (Logged.forEach g xs) fun _ ↦ I :=
  forEach_done (I := fun _ ↦ I) fun _ x _ hxs ↦ h x (hxs ▸ mem_append_right _ mem_cons_self)

/-- On a part of a larger state. The entries of the part are good on their own, and stay so behind
anything that comes in between. -/
theorem adapt {entry : ω' → ω} {err : ε' → ε}
    {c : Logged ω' ε' τ α} {L : ω' → Prop} {I : τ → Prop} {J : α → List ω' → τ → Prop}
    (hc : Ensures (fun _ ↦ L) (fun _ ↦ I) c J) (hI : ∀ before s, P before s → I (get s))
    (hgood : ∀ before s l w, P before s → L w → Good (before ++ l) (entry w))
    (hQ : ∀ before s a l t, P before s → J a l t → Q a (before ++ l.map entry) (put t s)) :
    Ensures Good P (Logged.adapt entry err get put c) Q := by
  intro before s hs
  obtain ⟨hsound, hok⟩ := hc [] (get s) (hI before s hs)
  have hentries {l : List ω'} (hl : Sound (fun _ ↦ L) [] l) : Sound Good before (l.map entry) := by
    intro a w b heq
    obtain ⟨a', b', rfl, -, hb⟩ := map_eq_append_iff.mp heq
    obtain ⟨w', b'', rfl, rfl, -⟩ := map_eq_cons_iff.mp hb
    exact hgood before s a w' hs (hl a' w' b'' rfl)
  rw [Logged.adapt]
  generalize c (get s) = run at hsound hok
  obtain ⟨l, e | ⟨a, t⟩⟩ := run
  · exact ⟨hentries hsound, nofun⟩
  refine ⟨hentries hsound, ?_⟩
  rintro _ _ ⟨⟩
  exact hQ before s a l t hs (hok a t rfl)

end Ensures

end Logged

end Machine
