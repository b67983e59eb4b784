import Gocracker.Posix.Path

/-!
# Trees as scenes, and layers over them

A *scene* says what is at each path. A layer is a list of entries: an entry puts something at a
path, or it hides what is at or below a path (a *whiteout*), or what is below a directory.

There are two readings of a layer. Step by step, each entry acts on the scene that those before it
have left (`Scene.step`). All at once, whatever is hidden by any entry is taken away first, and then
the things that the layer has itself are put over the rest (`Scene.applied`): what hides something
hides it in the lower layers only, wherever it stands.

The readings agree on a layer in which nothing is hidden after it was put there or made use of
(`Entry.Spares`). The reason is one commutation, `Scene.hide_add`.
-/

namespace Posix

open List

abbrev Scene (ν : Type*) := Path → Option ν

namespace Scene

variable {ν : Type*} (T : Scene ν)

/-- Without the places in `S`. -/
def hide (S : Path → Bool) : Scene ν := fun q ↦ if S q then none else T q

/-- Without what is at a path or below. -/
abbrev cut (p : Path) : Scene ν := T.hide fun q ↦ p <+: q

/-- With directories at a path and all places above it. -/
def dirs (dir : ν) (p : Path) : Scene ν := fun q ↦ if q <+: p then some dir else T q

def set (p : Path) (x : ν) : Scene ν := fun q ↦
  if q = p then some x else if p <+: q then none else T q

/-- With `o` at `p`. What is below `p` may be kept, and above `p` there are directories. -/
def place (dir : ν) (p : Path) (o : Option ν) (keep : Bool) : Scene ν := fun q ↦
  if q = p then o
  else if p <+: q then if keep then T q else none
  else if q <+: p then some dir
  else T q

end Scene

section Scene

variable {ν : Type*} {T : Scene ν} {dir x : ν} {d p : Path} {c : Text}

theorem isPrefix_snoc_iff {q : Path} : q <+: d ++ [c] ↔ q <+: d ∨ q = d ++ [c] := by
  rw [prefix_concat_iff, or_comm]

namespace Scene

theorem hide_hide {S S' : Path → Bool} : (T.hide S).hide S' = T.hide fun q ↦ S q || S' q := by
  funext q
  cases hS : S q <;> cases hS' : S' q <;> simp [hide, hS]

theorem set_hide : (T.cut p).set p x = T.set p x := by
  funext q
  by_cases hpre : p <+: q
  · simp [set, hpre]
  · simp [hide, set, hpre]

theorem dirs_nil (hroot : T [] = some dir) : T.dirs dir [] = T := by
  funext q
  simp only [dirs, prefix_nil]
  split_ifs with hq
  · rw [hq, hroot]
  · rfl

theorem set_dirs : (T.dirs dir d).set (d ++ [c]) x = T.place dir (d ++ [c]) (some x) false := by
  funext q
  by_cases hq : q = d ++ [c]
  · simp [set, place, hq]
  by_cases hpre : d ++ [c] <+: q
  · simp [set, place, hpre]
  · simp [set, place, dirs, hq, isPrefix_snoc_iff]

theorem dirs_set : (T.set (d ++ [c]) x).dirs dir d = (T.dirs dir d).set (d ++ [c]) x := by
  funext q
  by_cases hd : q <+: d
  · have hpre : ¬ d ++ [c] <+: q := fun h ↦ not_snoc_isPrefix (h.trans hd)
    have hne : q ≠ d ++ [c] := by
      rintro rfl
      exact not_snoc_isPrefix hd
    simp [dirs, set, hpre, hne]
  · simp [dirs, set, hd]

theorem dirs_dirs :
    (T.dirs dir d).dirs dir (d ++ [c]) = T.place dir (d ++ [c]) (some dir) true := by
  funext q
  by_cases hq : q = d ++ [c]
  · simp [dirs, place, hq]
  by_cases hd : q <+: d
  · have hpre : ¬ d ++ [c] <+: q := fun h ↦ not_snoc_isPrefix (h.trans hd)
    simp [dirs, place, hd, hpre, isPrefix_snoc_iff]
  · simp [dirs, place, hq, hd, isPrefix_snoc_iff]

theorem dirs_hide_dirs : ((T.dirs dir d).cut (d ++ [c])).dirs dir (d ++ [c]) =
    T.place dir (d ++ [c]) (some dir) false := by
  funext q
  by_cases hq : q = d ++ [c]
  · simp [dirs, place, hq]
  by_cases hd : q <+: d
  · have hpre : ¬ d ++ [c] <+: q := fun h ↦ not_snoc_isPrefix (h.trans hd)
    simp [dirs, place, hd, hpre, isPrefix_snoc_iff]
  · by_cases hpre : d ++ [c] <+: q
    · simp [dirs, hide, place, hq, hd, isPrefix_snoc_iff]
    · simp [dirs, hide, place, hq, hd, hpre]

end Scene

end Scene

/-! ## Layers -/

/-- What a scene may have at a path, where the content of a file is in `β`. -/
inductive Node (β : Type*) where
  | dir
  | file (content : β)
  | symlink (target : Text)
  | special
  deriving DecidableEq

def Node.isDir {β : Type*} : Node β → Bool
  | dir => true
  | _ => false

/-- What an entry puts somewhere: a second name for what is at `source`, or something new. -/
inductive Item (β : Type*) where
  | dir
  | leaf (node : Node β)
  | link (source : Path)

def Item.isDir {β : Type*} : Item β → Bool
  | dir => true
  | _ => false

inductive Entry (β : Type*) where
  | whiteout (p : Path)
  /-- Hide what is below the directory. -/
  | clear (d : Path)
  | item (p : Path) (x : Item β)

variable {β : Type*}

namespace Entry

def hides : Entry β → Path → Bool
  | whiteout p, q => p <+: q
  | clear d, q => Below d q
  | item _ _, _ => false

/-- The places that an entry needs to find as it left them. -/
def uses : Entry β → List Path
  | item p (.link source) => [p, source]
  | item p _ => [p]
  | whiteout _ | clear _ => []

/-- What an entry puts somewhere, if it does. -/
def item? : Entry β → Option (Path × Item β)
  | item p x => some (p, x)
  | whiteout _ | clear _ => none

/-- The directory that an entry makes, if it does. -/
def dir? : Entry β → Option Path
  | item p .dir => some p
  | _ => none

/-- Something that is not a directory is put at the path, or above it. -/
def replaces : Entry β → Path → Bool
  | item p x, q => !x.isDir && p <+: q
  | whiteout _, _ | clear _, _ => false

/-- The later entry `e'` hides nothing that `e` needs, and leaves a directory of `e` one. -/
def Spares (e e' : Entry β) : Prop :=
  (∀ q ∈ e.uses, e'.hides q = false) ∧ ∀ q ∈ e.dir?, e'.replaces q = false
deriving Decidable

theorem mem_uses_of_dir? {e : Entry β} {p : Path} (h : e.dir? = some p) : p ∈ e.uses := by
  cases e with
  | whiteout | clear => nomatch h
  | item r x =>
    cases x with
    | dir => exact mem_singleton.mpr (Option.some.inj h).symm
    | leaf node | link source => nomatch h

end Entry

open Entry

namespace Scene

variable (T : Scene (Node β))

def add (p : Path) : Item β → Scene (Node β)
  | .dir => T.place .dir p (some .dir) ((T p).any Node.isDir)
  | .leaf node => T.place .dir p (some node) false
  | .link source => T.place .dir p (T source) false

/-- **One entry after the other.** -/
def step : Entry β → Scene (Node β)
  | .item p x => T.add p x
  | .whiteout p => T.hide (whiteout p : Entry β).hides
  | .clear d => T.hide (clear d : Entry β).hides

def hidden (L : List (Entry β)) (q : Path) : Bool := L.any fun e ↦ e.hides q

/-- **The whole layer at once**: the scene without all that is hidden, overlaid with what the layer
has itself. -/
def applied (L : List (Entry β)) : Scene (Node β) :=
  (L.filterMap item?).foldl (fun T x ↦ T.add x.1 x.2) (T.hide (hidden L))

end Scene

/-! ## The two readings -/

section Readings

variable {T : Scene (Node β)} {S : Path → Bool} {L : List (Entry β)} {p q : Path}

variable {e : Entry β}

theorem Entry.hides_of_isPrefix (h : e.hides p = true) (hpq : p <+: q) : e.hides q = true := by
  cases e with
  | whiteout r => exact decide_eq_true ((of_decide_eq_true h).trans hpq)
  | clear d => exact decide_eq_true ((of_decide_eq_true h).trans_isPrefix hpq)
  | item r x => nomatch h

theorem Scene.hidden_of_isPrefix (h : hidden L p = true) (hpq : p <+: q) : hidden L q = true := by
  rw [hidden, any_eq_true] at h ⊢
  obtain ⟨e, he, hides⟩ := h
  exact ⟨e, he, hides_of_isPrefix hides hpq⟩

/-- **Hiding commutes with putting something elsewhere.** -/
theorem Scene.hide_add {x : Item β} (hS : ∀ {q r}, S q = true → q <+: r → S r = true)
    (huses : ∀ q ∈ (item p x).uses, S q = false) :
    (T.add p x).hide S = (T.hide S).add p x := by
  have hp : S p = false := huses p (by cases x <;> simp [uses])
  have habove : ∀ {q}, q <+: p → S q = false := by
    intro q hq
    by_contra hne
    simp [hS (eq_true_of_ne_false hne) hq] at hp
  have hplace : ∀ {o o' : Option (Node β)} {keep keep' : Bool}, o = o' → keep = keep' →
      (T.place .dir p o keep).hide S = (T.hide S).place .dir p o' keep' := by
    rintro o _ keep _ rfl rfl
    funext q
    simp only [hide, place]
    by_cases hqp : q = p
    · simp [hqp, hp]
    by_cases hbelow : p <+: q
    · cases keep <;> simp [hqp, hbelow]
    by_cases hq : q <+: p
    · simp [habove hq]
    · simp [hqp, hbelow, hq]
  cases x with
  | dir => exact hplace rfl (by simp [hide, hp])
  | leaf node => exact hplace rfl rfl
  | link source =>
    have hsource : S source = false := huses source (by simp [uses])
    exact hplace (by simp [hide, hsource]) rfl

theorem Scene.step_eq_hide (h : e.item? = none) : T.step e = T.hide e.hides := by
  cases e with
  | whiteout p | clear d => rfl
  | item p x => nomatch h

/-- **The two readings agree** where nothing is hidden after it was put there. -/
theorem Scene.foldl_step_eq_applied (h : L.Pairwise Entry.Spares) :
    L.foldl step T = T.applied L := by
  induction L generalizing T with
  | nil =>
    funext q
    simp [applied, hide, hidden]
  | cons e L ih =>
    obtain ⟨hspares, hrest⟩ := pairwise_cons.mp h
    rw [foldl_cons, ih hrest]
    cases e with
    | whiteout p | clear d => exact congrArg (List.foldl _ · _) hide_hide
    | item p x =>
      have huses : ∀ q ∈ (item p x).uses, hidden L q = false := by
        intro q hq
        rw [hidden, any_eq_false]
        intro e' he'
        simp [(hspares e' he').1 q hq]
      exact congrArg (List.foldl _ · _) (hide_add hidden_of_isPrefix huses)

/-- A directory below directories stays one, unless it is hidden or replaced. -/
theorem Scene.step_eq_dir (hT : ∀ q, q <+: p → T q = some .dir)
    (hhides : e.hides p = false) (hreplaces : e.replaces p = false) : T.step e p = some .dir := by
  have hp := hT p (prefix_refl p)
  cases e with
  | whiteout | clear => simp only [step, hide, hhides, hp, Bool.false_eq_true, if_false]
  | item r x =>
    by_cases hr : r <+: p
    · cases x with
      | dir =>
        simp only [step, add, place, hT r hr, hp, hr]
        split_ifs with heq hdir
        · rfl
        · rfl
        · exact absurd rfl hdir
      | leaf | link => simp [replaces, Item.isDir, hr] at hreplaces
    · have hne : p ≠ r := by
        rintro rfl
        exact hr (prefix_refl p)
      cases x <;> simp [step, add, place, hne, hr, hp]

theorem Scene.step_self_of_dir? (h : e.dir? = some p) : T.step e p = some .dir := by
  cases e with
  | whiteout | clear => nomatch h
  | item r x =>
    cases x with
    | dir =>
      rw [← Option.some.inj h]
      exact if_pos rfl
    | leaf | link => nomatch h

end Readings

end Posix
