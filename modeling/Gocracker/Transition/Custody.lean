import Mathlib

/-!
# Custody

Things that must not get lost are passed from one place to another: from a call in progress to a
table, from the table to another call. `At x p` says that `x` is in place `p`. That nothing is lost
or held twice means that everything in some domain is in exactly one place.

A step of a system moves one thing, or lets things leave the domain. `Custody.move` and
`Custody.mono` are the two rules, and they ask only for what the step does to `At`.

## Calls in progress

The calls themselves are kept in a list, by index. What one looks for in a call is a partial
function of it, the thing it holds or the name it is about; `bind_getElem?_set` and
`bind_getElem?_concat` say what is found after a call has made a step, or another has begun.
-/

namespace Transition

open List Option

variable {ι π : Type*}

/-- Everything in `dom` is in one place, and nothing is in two. -/
structure Custody (At : ι → π → Prop) (dom : ι → Prop) : Prop where
  unique : ∀ {x p q}, At x p → At x q → p = q
  placed : ∀ {x}, dom x → ∃ p, At x p

variable {At At' : ι → π → Prop} {dom dom' : ι → Prop}

/-- Nothing moves. Only what has left the domain may be dropped. -/
theorem Custody.mono (h : Custody At dom) (hsub : ∀ {x p}, At' x p → At x p)
    (hkeep : ∀ {x p}, dom' x → At x p → At' x p) (hdom : ∀ {x}, dom' x → dom x) :
    Custody At' dom' where
  unique hp hq := h.unique (hsub hp) (hsub hq)
  placed hx := by
    obtain ⟨p, hp⟩ := h.placed (hdom hx)
    exact ⟨p, hkeep hx hp⟩

theorem Custody.congr (h : Custody At dom) (hat : ∀ {x p}, At' x p ↔ At x p)
    (hdom : ∀ {x}, dom' x → dom x) : Custody At' dom' :=
  h.mono hat.mp (fun _ ↦ hat.mpr) hdom

/-- One thing moves to a new place, or enters the domain there. -/
theorem Custody.move (h : Custody At dom) (x₀ : ι) (p₀ : π) (hnew : At' x₀ p₀)
    (hsub : ∀ {x p}, At' x p → (x = x₀ ∧ p = p₀) ∨ (x ≠ x₀ ∧ At x p))
    (hkeep : ∀ {x p}, x ≠ x₀ → dom' x → At x p → At' x p)
    (hdom : ∀ {x}, x ≠ x₀ → dom' x → dom x) : Custody At' dom' where
  unique := by
    intro x p q hp hq
    rcases hsub hp with ⟨rfl, rfl⟩ | ⟨hne, hp⟩
    · rcases hsub hq with ⟨-, rfl⟩ | ⟨hne, -⟩
      · rfl
      · exact absurd rfl hne
    · rcases hsub hq with ⟨rfl, -⟩ | ⟨-, hq⟩
      · exact absurd rfl hne
      · exact h.unique hp hq
  placed := by
    intro x hx
    by_cases heq : x = x₀
    · exact ⟨p₀, heq ▸ hnew⟩
    · obtain ⟨p, hp⟩ := h.placed (hdom heq hx)
      exact ⟨p, hkeep heq hx hp⟩

/-- Place `p₀` has now what is in `hand`, and the other places have what they had. -/
def Overwrites (At : ι → π → Prop) (p₀ : π) (hand : Option ι) (At' : ι → π → Prop) : Prop :=
  ∀ x p, At' x p ↔ (p = p₀ ∧ hand = some x) ∨ (p ≠ p₀ ∧ At x p)

section Overwrites

variable {At₁ : ι → π → Prop} {p₁ p₀ : π} {hand : Option ι}

/-- A place is given what it has. -/
theorem Custody.rewrite (h : Custody At dom) (hat : Overwrites At p₀ hand At')
    (hhand : ∀ x, At x p₀ ↔ hand = some x) (hdom : ∀ {x}, dom' x → dom x) : Custody At' dom' := by
  refine h.congr (fun {x p} ↦ ?_) hdom
  rw [hat x p, ← hhand x]
  constructor
  · rintro (⟨rfl, hx⟩ | ⟨-, hx⟩) <;> exact hx
  · exact fun hx ↦ (eq_or_ne p p₀).imp (fun hp ↦ ⟨hp, hp ▸ hx⟩) fun hp ↦ ⟨hp, hx⟩

/-- What a place has goes to one that was empty. -/
theorem Custody.pass (h : Custody At dom) (hout : Overwrites At p₁ none At₁)
    (hin : Overwrites At₁ p₀ hand At') (hhand : ∀ x, At x p₁ ↔ hand = some x)
    (hfree : ∀ x, ¬ At x p₀) (hdom : ∀ {x}, dom' x → dom x) : Custody At' dom' := by
  have hsub {x : ι} {p : π} (hp : At' x p) : (p = p₀ ∧ hand = some x) ∨ (p ≠ p₁ ∧ At x p) :=
    ((hin x p).mp hp).imp_right fun hp ↦ ((hout x p).mp hp.2).resolve_left fun h ↦ nomatch h.2
  have hkeep {x : ι} {p : π} (hx : hand ≠ some x) (hp : At x p) : At' x p := by
    refine (hin x p).mpr (.inr ⟨?_, (hout x p).mpr (.inr ⟨?_, hp⟩)⟩)
    · rintro rfl
      exact hfree x hp
    · rintro rfl
      exact hx ((hhand x).mp hp)
  cases hand with
  | none =>
    refine h.mono (fun {x p} hp ↦ ?_) (fun _ hp ↦ hkeep (by simp) hp) hdom
    rcases hsub hp with ⟨-, hnone⟩ | ⟨-, hp⟩
    · nomatch hnone
    · exact hp
  | some x₀ =>
    refine h.move x₀ p₀ ((hin x₀ p₀).mpr (.inl ⟨rfl, rfl⟩)) (fun {x p} hp ↦ ?_)
      (fun {x p} hx _ ↦ hkeep fun heq ↦ hx (Option.some.inj heq).symm) fun _ ↦ hdom
    rcases hsub hp with ⟨rfl, hx⟩ | ⟨hne, hp⟩
    · exact .inl ⟨(Option.some.inj hx).symm, rfl⟩
    · refine .inr ⟨?_, hp⟩
      rintro rfl
      exact hne (h.unique hp ((hhand x).mpr rfl))

end Overwrites

/-! ## Lists of calls, and tables -/

section Calls

variable {α β : Type*} {calls : List α} {c : α} {i : ℕ}

/-- What is seen of the calls after call `i` has become `a`. -/
theorem bind_getElem?_set (hi : calls[i]? = some c) (a : α) (f : α → Option β) (j : ℕ) :
    (calls.set i a)[j]?.bind f = if j = i then f a else calls[j]?.bind f := by
  by_cases hij : j = i
  · subst hij
    rw [getElem?_set_self (List.getElem?_eq_some_iff.mp hi).1, if_pos rfl, bind_some]
  · rw [getElem?_set_ne (Ne.symm hij), if_neg hij]

variable {a b : α} {j : ℕ}

/-- A call after call `i` has become `a`: this one, or one that was there. -/
theorem getElem?_set_cases (h : (calls.set i a)[j]? = some b) :
    j = i ∧ b = a ∨ j ≠ i ∧ calls[j]? = some b := by
  rw [List.getElem?_set] at h
  split_ifs at h with hij hlt
  · exact .inl ⟨hij.symm, (Option.some.inj h).symm⟩
  · exact .inr ⟨Ne.symm hij, h⟩

/-- After call `i` has become `a`, every other call stands at another index. -/
theorem eq_or_getElem?_of_mem_set (h : b ∈ calls.set i a) :
    b = a ∨ ∃ j, j ≠ i ∧ calls[j]? = some b := by
  obtain ⟨j, hj⟩ := getElem?_of_mem h
  exact (getElem?_set_cases hj).imp And.right fun hj ↦ ⟨j, hj⟩

theorem getElem?_concat_cases (h : (calls ++ [a])[j]? = some b) :
    calls[j]? = some b ∨ j = calls.length ∧ b = a := by
  rw [getElem?_append] at h
  split_ifs at h with hlt
  · exact .inl h
  · have hj : j - calls.length = 0 := Nat.lt_one_iff.mp (List.getElem?_eq_some_iff.mp h).1
    exact .inr ⟨by omega, mem_singleton.mp (mem_of_getElem? h)⟩

theorem mem_set_self (hi : calls[i]? = some c) (a : α) : a ∈ calls.set i a :=
  mem_of_getElem? (getElem?_set_self (List.getElem?_eq_some_iff.mp hi).1)

theorem eq_or_mem_set {d : α} (hi : calls[i]? = some c) (a : α) (hd : d ∈ calls) :
    d = c ∨ d ∈ calls.set i a := by
  obtain ⟨j, hj⟩ := getElem?_of_mem hd
  by_cases hij : j = i
  · subst hij
    exact .inl (mem_unique hj hi)
  · refine .inr (mem_of_getElem? (i := j) ?_)
    rw [getElem?_set_ne (Ne.symm hij), hj]

variable {P : α → Prop}

/-- A call of some sort is there after call `i` has become `a`, if `a` is of this sort as well. -/
theorem exists_mem_set (hi : calls[i]? = some c) (ha : P c → P a)
    (h : ∃ d ∈ calls, P d) : ∃ d ∈ calls.set i a, P d := by
  obtain ⟨d, hd, hP⟩ := h
  rcases eq_or_mem_set hi a hd with rfl | hd
  · exact ⟨a, mem_set_self hi a, ha hP⟩
  · exact ⟨d, hd, hP⟩

theorem forall_mem_set (h : ∀ d ∈ calls, P d) (ha : P a) : ∀ d ∈ calls.set i a, P d :=
  fun d hd ↦ (mem_or_eq_of_mem_set hd).elim (h d) fun heq ↦ heq ▸ ha

theorem forall_mem_concat (h : ∀ d ∈ calls, P d) (ha : P a) : ∀ d ∈ calls ++ [a], P d :=
  forall_mem_append.mpr ⟨h, forall_mem_singleton.mpr ha⟩

theorem bind_getElem?_concat (calls : List α) (a : α) (f : α → Option β) (j : ℕ) :
    (calls ++ [a])[j]?.bind f = if j = calls.length then f a else calls[j]?.bind f := by
  by_cases hj : j = calls.length
  · subst hj
    rw [getElem?_concat_length, if_pos rfl, bind_some]
  rw [if_neg hj]
  rcases Nat.lt_or_ge j calls.length with hlt | hge
  · rw [getElem?_append_left hlt]
  have hlt : (calls ++ [a]).length ≤ j := by
    rw [length_append, length_singleton]
    omega
  rw [getElem?_eq_none hlt, getElem?_eq_none hge]

variable {f : α → Option β} {b : β}

/-- What call `i` has become shows nothing that another call shows. -/
theorem single_set (hi : calls[i]? = some c)
    (h : ∀ {j k : ℕ} {b}, calls[j]?.bind f = some b → calls[k]?.bind f = some b → j = k)
    (ha : ∀ {j : ℕ} {b}, j ≠ i → calls[j]?.bind f = some b → f a ≠ some b) {k : ℕ}
    (hj : (calls.set i a)[j]?.bind f = some b) (hk : (calls.set i a)[k]?.bind f = some b) :
    j = k := by
  rw [bind_getElem?_set hi] at hj hk
  split at hj
  · split at hk
    · omega
    · exact absurd hj (ha ‹_› hk)
  · split at hk
    · exact absurd hk (ha ‹_› hj)
    · exact h hj hk

theorem single_concat
    (h : ∀ {j k : ℕ} {b}, calls[j]?.bind f = some b → calls[k]?.bind f = some b → j = k)
    (ha : ∀ d ∈ calls, ∀ b ∈ f a, f d ≠ some b) {k : ℕ}
    (hj : (calls ++ [a])[j]?.bind f = some b) (hk : (calls ++ [a])[k]?.bind f = some b) :
    j = k := by
  have hnew : ∀ {l : ℕ}, calls[l]?.bind f = some b → f a ≠ some b := by
    intro l hl hb
    obtain ⟨d, hd, hdb⟩ := bind_eq_some_iff.mp hl
    exact ha d (mem_of_getElem? hd) b hb hdb
  rw [bind_getElem?_concat] at hj hk
  split at hj
  · split at hk
    · omega
    · exact absurd hj (hnew hk)
  · split at hk
    · exact absurd hk (hnew hj)
    · exact h hj hk

theorem bind_getElem?_length (calls : List α) (f : α → Option β) :
    calls[calls.length]?.bind f = none := by
  rw [getElem?_eq_none (Nat.le_refl _), bind_none]

theorem cons_eraseIdx_perm (hi : calls[i]? = some c) : (c :: calls.eraseIdx i).Perm calls := by
  obtain ⟨hlt, rfl⟩ := List.getElem?_eq_some_iff.mp hi
  exact getElem_cons_eraseIdx_perm hlt

variable {table : α → Option β} {x : Option β}

theorem update_eq_some_iff [DecidableEq α] {a' : α} : Function.update table a x a' = some b ↔
      (a' = a ∧ x = some b) ∨ (a' ≠ a ∧ table a' = some b) := by
  by_cases ha : a' = a
  · subst ha
    simp [Function.update_self]
  · simp [ha]

theorem forall_mem_update [DecidableEq α] {a' : α}
    {P : β → Prop} (hx : a' = a → ∀ b ∈ x, P b) (h : a' ≠ a → ∀ b ∈ table a', P b) :
    ∀ b ∈ Function.update table a x a', P b := by
  intro b hb
  rcases update_eq_some_iff.mp hb with ⟨ha, hb⟩ | ⟨ha, hb⟩
  · exact hx ha b hb
  · exact h ha b hb

end Calls

end Transition
