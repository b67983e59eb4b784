import Mathlib

/-!
# Paths

An absolute path is the list of its components. A text is split at its slashes and *cleaned*: empty
components and dots disappear, and a double dot takes the component before it away. Cleaning is
lexical: it never looks at a filesystem, so it agrees with how a kernel walks the path only where no
component is a symbolic link.
-/

namespace Posix

open List

abbrev Text := List Char

/-- An absolute path, from the root directory on. -/
abbrev Path := List Text

def dot : Text := ['.']

def dotdot : Text := ['.', '.']

/-- A component that names an entry of a directory. -/
def IsName (c : Text) : Prop := c ≠ [] ∧ c ≠ dot ∧ c ≠ dotdot
deriving Decidable

def Clean (p : Path) : Prop := ∀ c ∈ p, IsName c
deriving Decidable

/-- Split a text at its slashes. -/
def components : Text → List Text
  | [] => [[]]
  | c :: cs =>
    match components cs with
    | [] => [[c]]
    | w :: ws => if c = '/' then [] :: w :: ws else (c :: w) :: ws

def isAbs (t : Text) : Bool := t.head? = some '/'

def cleanStep (acc : Path) (c : Text) : Path :=
  if c = [] ∨ c = dot then acc else if c = dotdot then acc.dropLast else acc ++ [c]

/-- Clean the components of an absolute path: a double dot at the root stays there. -/
def cleanRooted (cs : List Text) : Path := cs.foldl cleanStep []

/-- Clean the components of a relative path: double dots that nothing precedes stay. -/
def cleanRelative (cs : List Text) : List Text :=
  cs.foldl (fun acc c ↦
    if c = [] ∨ c = dot then acc
    else if c = dotdot then
      if acc = [] ∨ acc.getLast? = some dotdot then acc ++ [c] else acc.dropLast
    else acc ++ [c]) []

/-- Clean a text, which may be an absolute path or a relative one. -/
def cleanComponents (t : Text) : List Text :=
  if isAbs t then cleanRooted (components t) else cleanRelative (components t)

def join (p : Path) (cs : List Text) : Path := cleanRooted (p ++ cs)

variable {p q : Path} {c : Text}

theorem Clean.append (hp : Clean p) (hq : Clean q) : Clean (p ++ q) := by
  intro c hc
  exact (mem_append.mp hc).elim (hp c) (hq c)

theorem Clean.left (h : Clean (p ++ q)) : Clean p := fun c hc ↦ h c (mem_append_left q hc)

theorem Clean.dropLast (h : Clean p) : Clean p.dropLast := fun c hc ↦ h c (dropLast_subset p hc)

theorem clean_singleton : Clean [c] ↔ IsName c := by
  simp [Clean]

theorem Clean.cleanStep (h : Clean p) (c : Text) : Clean (cleanStep p c) := by
  rw [Posix.cleanStep]
  split
  · exact h
  split
  · exact h.dropLast
  · rename_i hskip hdotdot
    rw [not_or] at hskip
    exact h.append (clean_singleton.mpr ⟨hskip.1, hskip.2, hdotdot⟩)

theorem clean_foldl_cleanStep (cs : List Text) (h : Clean p) : Clean (cs.foldl cleanStep p) := by
  induction cs generalizing p with
  | nil => exact h
  | cons c cs ih => exact ih (h.cleanStep c)

theorem clean_cleanRooted (cs : List Text) : Clean (cleanRooted cs) :=
  clean_foldl_cleanStep cs nofun

theorem cleanStep_of_isName (h : IsName c) : cleanStep p c = p ++ [c] := by
  rw [cleanStep, if_neg (not_or.mpr ⟨h.1, h.2.1⟩), if_neg h.2.2]

theorem foldl_cleanStep_of_clean (h : Clean q) : q.foldl cleanStep p = p ++ q := by
  induction q generalizing p with
  | nil => exact (append_nil p).symm
  | cons c q ih =>
    rw [foldl_cons, cleanStep_of_isName (h c mem_cons_self),
      ih fun d hd ↦ h d (mem_cons_of_mem c hd), append_assoc, singleton_append]

theorem cleanRooted_of_clean (h : Clean p) : cleanRooted p = p := by
  rw [cleanRooted, foldl_cleanStep_of_clean h, nil_append]

theorem join_of_clean (hp : Clean p) (hq : Clean q) : join p q = p ++ q := by
  rw [join, cleanRooted_of_clean (hp.append hq)]

theorem clean_join (p cs : List Text) : Clean (join p cs) := clean_cleanRooted _

/-- `p` lies below `d`: it is not `d` itself. -/
def Below (d p : Path) : Prop := d <+: p ∧ p ≠ d
deriving Decidable

theorem not_snoc_isPrefix : ¬ p ++ [c] <+: p := by
  intro h
  have hle := h.length_le
  rw [length_append, length_singleton] at hle
  omega

theorem below_append (d : Path) (h : q ≠ []) : Below d (d ++ q) :=
  ⟨prefix_append d q, fun heq ↦ h (self_eq_append_right.mp heq.symm)⟩

theorem Below.trans_isPrefix {d : Path} (h : Below d p) (hpq : p <+: q) : Below d q := by
  refine ⟨h.1.trans hpq, ?_⟩
  rintro rfl
  exact h.2 (IsPrefix.eq_of_length_le hpq h.1.length_le)

/-! ## Cleaned texts -/

/-- A path as a text, after it was cleaned. -/
def cleanText (t : Text) : Text :=
  if isAbs t then '/' :: intercalate ['/'] (cleanComponents t)
  else if cleanComponents t = [] then dot else intercalate ['/'] (cleanComponents t)

/-- The place that a text names for a process at the root, if no link is on the way. -/
def namedPlace (t : Text) : Path := cleanRooted (components t)

variable {s t : Text}

theorem exists_components (t : Text) : ∃ w ws, components t = w :: ws := by
  cases t with
  | nil => exact ⟨[], [], rfl⟩
  | cons c t =>
    rw [components]
    split
    · exact ⟨_, _, rfl⟩
    · split_ifs
      · exact ⟨_, _, rfl⟩
      · exact ⟨_, _, rfl⟩

theorem components_slash (t : Text) : components ('/' :: t) = [] :: components t := by
  obtain ⟨w, ws, h⟩ := exists_components t
  rw [components, h]
  rfl

theorem components_append_slash (s t : Text) :
    components (s ++ '/' :: t) = components s ++ components t := by
  induction s with
  | nil => exact components_slash t
  | cons c s ih =>
    obtain ⟨w, ws, h⟩ := exists_components s
    rw [cons_append, components, components, ih, h]
    dsimp only [cons_append]
    split_ifs <;> rfl

theorem components_of_not_mem (hs : '/' ∉ s) : components s = [s] := by
  induction s with
  | nil => rfl
  | cons c s ih =>
    rw [mem_cons, not_or] at hs
    rw [components, ih hs.2]
    exact if_neg (Ne.symm hs.1)

theorem slash_not_mem (h : c ∈ components t) : '/' ∉ c := by
  induction t generalizing c with
  | nil =>
    rw [components, mem_singleton] at h
    simp [h]
  | cons d t ih =>
    obtain ⟨w, ws, hws⟩ := exists_components t
    rw [hws] at ih
    rw [components, hws] at h
    dsimp only at h
    split_ifs at h with hd
    · rcases mem_cons.mp h with rfl | h
      · exact not_mem_nil
      · exact ih h
    · rcases mem_cons.mp h with rfl | h
      · rw [mem_cons, not_or]
        exact ⟨Ne.symm hd, ih mem_cons_self⟩
      · exact ih (mem_cons_of_mem w h)

theorem components_intercalate (hp : p ≠ []) (h : ∀ c ∈ p, '/' ∉ c) :
    components (intercalate ['/'] p) = p := by
  induction p with
  | nil => exact absurd rfl hp
  | cons c p ih =>
    obtain ⟨hc, h⟩ := forall_mem_cons.mp h
    cases p with
    | nil => simpa using components_of_not_mem hc
    | cons d p =>
      rw [intercalate_cons_cons, append_assoc, singleton_append, components_append_slash,
        components_of_not_mem hc, ih (cons_ne_nil d p) h, singleton_append]

theorem namedPlace_rooted (h : ∀ c ∈ p, IsName c ∧ '/' ∉ c) :
    namedPlace ('/' :: intercalate ['/'] p) = p := by
  by_cases hp : p = []
  · rw [hp]
    rfl
  · rw [namedPlace, components_slash, components_intercalate hp fun c hc ↦ (h c hc).2]
    exact cleanRooted_of_clean fun c hc ↦ (h c hc).1

theorem mem_of_mem_cleanRooted {cs : List Text} (h : c ∈ cleanRooted cs) : c ∈ cs := by
  have hsub : cleanRooted cs ⊆ cs := by
    refine foldlRecOn (motive := fun acc ↦ acc ⊆ cs) cs cleanStep (nil_subset cs)
      fun acc hacc d hd ↦ ?_
    rw [cleanStep]
    split_ifs
    · exact hacc
    · exact fun d hd ↦ hacc (dropLast_subset acc hd)
    · exact append_subset.mpr ⟨hacc, by simpa using hd⟩
  exact hsub h

/-- A relative path is cleaned as an absolute one is, up to double dots in front. -/
theorem exists_cleanRelative (cs : List Text) :
    ∃ k, cleanRelative cs = replicate k dotdot ++ cleanRooted cs := by
  induction cs using reverseRecOn with
  | nil => exact ⟨0, rfl⟩
  | append_singleton cs c ih =>
    obtain ⟨k, hk⟩ := ih
    have hclean := clean_cleanRooted cs
    rw [cleanRelative] at hk
    rw [cleanRelative, cleanRooted, foldl_concat, foldl_concat, hk, ← cleanRooted, cleanStep]
    split_ifs with hskip hdotdot hfront
    · exact ⟨k, rfl⟩
    · refine ⟨k + 1, ?_⟩
      rcases eq_nil_or_concat' (cleanRooted cs) with hnil | ⟨q, d, hq⟩
      · rw [hnil, hdotdot, append_nil, dropLast_nil, append_nil, replicate_succ']
      · rw [hq] at hfront hclean
        have hd := hclean d (by simp)
        simp [hd.2.2] at hfront
    · refine ⟨k, ?_⟩
      rcases eq_nil_or_concat' (cleanRooted cs) with hnil | ⟨q, d, hq⟩
      · rw [hnil, append_nil] at hfront
        cases k with
        | zero => simp at hfront
        | succ k => simp [replicate_succ'] at hfront
      · rw [hq, ← append_assoc, dropLast_concat, dropLast_concat]
    · exact ⟨k, append_assoc _ _ _⟩

theorem mem_cleanComponents (h : c ∈ cleanComponents t) : '/' ∉ c ∧ c ≠ [] := by
  have hrooted : c ∈ cleanRooted (components t) → '/' ∉ c ∧ c ≠ [] :=
    fun hc ↦ ⟨slash_not_mem (mem_of_mem_cleanRooted hc), (clean_cleanRooted _ c hc).1⟩
  rw [cleanComponents] at h
  split_ifs at h
  · exact hrooted h
  · obtain ⟨k, hk⟩ := exists_cleanRelative (components t)
    rw [hk, mem_append] at h
    rcases h with h | h
    · rw [eq_of_mem_replicate h]
      decide
    · exact hrooted h

theorem foldl_components_cleanText (t : Text) (p : Path) :
    (components (cleanText t)).foldl cleanStep p = (cleanComponents t).foldl cleanStep p := by
  have hslash : ∀ c ∈ cleanComponents t, '/' ∉ c := fun c hc ↦ (mem_cleanComponents hc).1
  rw [cleanText]
  by_cases hnil : cleanComponents t = []
  · rw [hnil]
    split_ifs <;> rfl
  · split_ifs
    · rw [components_slash, components_intercalate hnil hslash]
      rfl
    · rw [components_intercalate hnil hslash]

theorem isAbs_cleanText (t : Text) : isAbs (cleanText t) = isAbs t := by
  rw [cleanText]
  split_ifs with habs hnil
  · exact habs.symm
  · rw [Bool.not_eq_true] at habs
    exact habs.symm
  · rw [Bool.not_eq_true] at habs
    rw [habs]
    obtain ⟨c, p, hp⟩ := exists_cons_of_ne_nil hnil
    obtain ⟨hslash, hne⟩ := mem_cleanComponents (c := c) (t := t) (by simp [hp])
    obtain ⟨d, c, rfl⟩ := exists_cons_of_ne_nil hne
    have hd : d ≠ '/' := fun heq ↦ hslash (heq ▸ mem_cons_self)
    rw [hp, isAbs]
    cases p <;> simpa using hd

section

variable (h : isAbs t = true)
include h

theorem cleanComponents_of_isAbs : cleanComponents t = namedPlace t := by
  rw [cleanComponents, if_pos h, namedPlace]

theorem cleanText_of_isAbs : cleanText t = '/' :: intercalate ['/'] (namedPlace t) := by
  rw [cleanText, if_pos h, cleanComponents_of_isAbs h]

theorem namedPlace_cleanText : namedPlace (cleanText t) = namedPlace t := by
  rw [namedPlace, cleanRooted, foldl_components_cleanText, cleanComponents_of_isAbs h,
    ← cleanRooted]
  exact cleanRooted_of_clean (clean_cleanRooted _)

end

end Posix
