import Mathlib

/-!
# Runs of a guarded transition function

A system is a partial function `step : σ → α → Option σ`: an action that is not enabled in a state
gives `none`. A *run* is a finite list of actions, each enabled where it is taken, and each meeting
a side condition `ok` in the state it is taken from. Taking `ok` to be trivially true gives every
run of the system; a stronger `ok` singles out the runs in which an environment behaves.

Everything about runs goes through `Run.invariant`: what one permitted step preserves holds at the
end of every permitted run, hence in every state such a run passes through.

## Evaluating a run

`exec` runs a list of actions and checks the side condition on the way, so that a concrete run is
established by evaluation (`Run.of_exec`) and never by writing out its derivation.
-/

namespace Transition

open Option

variable {σ α : Type*}

/-- `Run step ok s as t`: the actions `as`, taken from `s`, lead to `t`, each of them enabled and
permitted by `ok` in the state where it is taken. -/
inductive Run (step : σ → α → Option σ) (ok : σ → α → Prop) : σ → List α → σ → Prop
  | nil (s : σ) : Run step ok s [] s
  | cons {s s' t : σ} {a : α} {as : List α} (hok : ok s a) (hstep : step s a = some s')
      (hrun : Run step ok s' as t) : Run step ok s (a :: as) t

/-- The side condition every action meets. -/
def anyStep (_ : σ) (_ : α) : Prop := True
deriving Decidable

/-- Take the actions one after the other, stopping at the first that is not permitted or not
enabled. -/
def exec (step : σ → α → Option σ) (ok : σ → α → Prop) [∀ s a, Decidable (ok s a)] :
    σ → List α → Option σ
  | s, [] => some s
  | s, a :: as => if ok s a then (step s a).bind fun s' ↦ exec step ok s' as else none

variable {step : σ → α → Option σ} {ok : σ → α → Prop} {s t : σ} {as : List α}

theorem Run.of_exec [∀ s a, Decidable (ok s a)] :
    ∀ {as : List α} {s : σ}, exec step ok s as = some t → Run step ok s as t := by
  intro as
  induction as with
  | nil =>
    intro s h
    rw [exec, Option.some.injEq] at h
    exact h ▸ Run.nil s
  | cons a as ih =>
    intro s h
    obtain ⟨hok, h⟩ := ite_none_right_eq_some.mp h
    obtain ⟨s', hs', hrest⟩ := bind_eq_some_iff.mp h
    exact Run.cons hok hs' (ih hrest)

/-- A concrete run, of whose end something follows from what is observed of it. -/
theorem Run.exists_of_exec [∀ s a, Decidable (ok s a)] {P : σ → Prop} (Q : σ → Prop)
    [DecidablePred Q] (h : (exec step ok s as).any (Q ·) = true)
    (hP : ∀ t, Run step ok s as t → Q t → P t) : ∃ t, Run step ok s as t ∧ P t := by
  obtain ⟨t, ht, hQ⟩ := (any_eq_true _ _).mp h
  exact ⟨t, .of_exec ht, hP t (.of_exec ht) (of_decide_eq_true hQ)⟩

/-- A run that is permitted is also a run under a weaker condition. -/
theorem Run.mono {ok' : σ → α → Prop} (hok : ∀ s a, ok s a → ok' s a) (h : Run step ok s as t) :
    Run step ok' s as t := by
  induction h with
  | nil s => exact .nil s
  | cons hok' hstep _ ih => exact .cons (hok _ _ hok') hstep ih

variable {I : σ → Prop}

/-- **The invariant rule.** What every permitted step preserves holds at the end of every permitted
run. -/
theorem Run.invariant (hstep : ∀ s a s', I s → ok s a → step s a = some s' → I s')
    (h : Run step ok s as t) (hs : I s) : I t := by
  induction h with
  | nil _ => exact hs
  | cons hok hs' _ ih => exact ih (hstep _ _ _ hs hok hs')

/-- **The progress rule.** If every action is enabled wherever the invariant holds, and keeps it,
then any actions can be taken one after the other. -/
theorem Run.exists_of_progress
    (hstep : ∀ s a, I s → ∃ s', step s a = some s' ∧ I s') :
    ∀ (as : List α) (s : σ), I s → ∃ t, Run step anyStep s as t ∧ I t := by
  intro as
  induction as with
  | nil => exact fun s hs ↦ ⟨s, .nil s, hs⟩
  | cons a as ih =>
    intro s hs
    obtain ⟨s', hs', hI⟩ := hstep s a hs
    obtain ⟨t, hrun, ht⟩ := ih s' hI
    exact ⟨t, .cons trivial hs' hrun, ht⟩

end Transition
