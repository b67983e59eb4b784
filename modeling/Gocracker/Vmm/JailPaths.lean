import Gocracker.Posix.Path

/-!
# Paths of a jailed VMM, seen from the host

A jailed VMM names its files from the root of its jail, where `/worker` is its run directory. The
path on the host is found lexically: the name is cleaned and joined to one of the two directories. A
name that is not absolute is not rooted before it is cleaned, so that its double dots stay, and is
not compared with `/worker`. These are the only names that go wrong (`translated_iff`).
-/

namespace Gocracker.Vmm

open Posix List

/-- The directories of a worker; an empty text is no directory. -/
structure WorkerMetadata where
  jailRoot : Text
  runDir : Text

def workerJailBindMount : Text := "/worker".toList

/-- `filepath.Join` of two texts, the first of which is not empty. -/
def joinText (dir path : Text) : Text := cleanText (dir ++ '/' :: path)

/-- A path without the slashes in front. -/
def trimLeft (path : Text) : Text := path.dropWhile (· = '/')

def resolveHostSidePath (jailRoot guestPath : Text) : Text :=
  if guestPath = [] then []
  else if jailRoot = [] then cleanText guestPath
  else joinText jailRoot (trimLeft (cleanText guestPath))

def resolveWorkerHostSidePath (m : WorkerMetadata) (guestPath : Text) : Text :=
  if guestPath = [] then []
  else
    let clean := cleanText guestPath
    if m.jailRoot = [] then clean
    else if m.runDir ≠ [] ∧ (workerJailBindMount ++ ['/']) <+: clean then
      joinText m.runDir (clean.drop workerJailBindMount.length)
    else if m.runDir ≠ [] ∧ clean = workerJailBindMount then m.runDir
    else joinText m.jailRoot (trimLeft clean)

/-- The name of the run directory in the jail. -/
def workerName : Text := "worker".toList

/-- The path of the host for a place in the jail. -/
def hostPlace (root dir p : Path) : Path :=
  if [workerName] <+: p then dir ++ p.tail else root ++ p

/-- **The host's path is the one of the file that the jailed process names.** -/
structure Translated (root dir guestPath : Text) : Prop where
  worker : isAbs (resolveWorkerHostSidePath ⟨root, dir⟩ guestPath) = true ∧
    namedPlace (resolveWorkerHostSidePath ⟨root, dir⟩ guestPath) =
      hostPlace (namedPlace root) (namedPlace dir) (namedPlace guestPath)
  jail : isAbs (resolveHostSidePath root guestPath) = true ∧
    namedPlace (resolveHostSidePath root guestPath) = namedPlace root ++ namedPlace guestPath

variable {root dir guestPath path : Text}

theorem ne_nil_of_isAbs (h : isAbs path = true) : path ≠ [] := by
  rintro rfl
  cases h

theorem isAbs_joinText (h : isAbs dir = true) : isAbs (joinText dir path) = true := by
  obtain ⟨c, dir, rfl⟩ := exists_cons_of_ne_nil (ne_nil_of_isAbs h)
  rw [joinText, isAbs_cleanText]
  exact h

theorem place_joinText (h : isAbs dir = true) :
    namedPlace (joinText dir path) = (components path).foldl cleanStep (namedPlace dir) := by
  obtain ⟨c, dir, rfl⟩ := exists_cons_of_ne_nil (ne_nil_of_isAbs h)
  have habs : isAbs (c :: dir ++ '/' :: path) = true := h
  rw [joinText, namedPlace_cleanText habs, namedPlace, components_append_slash, cleanRooted,
    foldl_append]
  rfl

theorem foldl_components_trimLeft (p : Path) :
    (components (trimLeft path)).foldl cleanStep p = (components path).foldl cleanStep p := by
  rw [trimLeft]
  induction path with
  | nil => rfl
  | cons c path ih =>
    by_cases hc : c = '/'
    · rw [dropWhile_cons_of_pos (by simpa using hc), ih, hc, components_slash]
      rfl
    · rw [dropWhile_cons_of_neg (by simpa using hc)]

theorem place_joinText_trimLeft (h : isAbs root = true) :
    namedPlace (joinText root (trimLeft (cleanText guestPath))) =
      (cleanComponents guestPath).foldl cleanStep (namedPlace root) := by
  rw [place_joinText h, foldl_components_trimLeft, foldl_components_cleanText]

/-- An absolute path is cleaned, and its names are what is between the slashes. -/
theorem components_cleanText (h : isAbs guestPath = true) (hne : namedPlace guestPath ≠ []) :
    components (cleanText guestPath) = [] :: namedPlace guestPath := by
  have hslash : ∀ c ∈ namedPlace guestPath, '/' ∉ c :=
    fun c hc ↦ (mem_cleanComponents (cleanComponents_of_isAbs h ▸ hc)).1
  rw [cleanText_of_isAbs h, components_slash, components_intercalate hne hslash]

/-- The two tests on the cleaned text: both find places at or below `/worker` only. -/
theorem worker_isPrefix (h : isAbs guestPath = true)
    (ht : workerJailBindMount ++ ['/'] <+: cleanText guestPath ∨
      cleanText guestPath = workerJailBindMount) : [workerName] <+: namedPlace guestPath := by
  rcases ht with ⟨t, ht⟩ | ht
  · have hne : namedPlace guestPath ≠ [] := by
      intro hnil
      rw [cleanText_of_isAbs h, hnil] at ht
      cases ht
    have hnames := components_cleanText h hne
    rw [← ht, append_assoc, singleton_append, components_append_slash] at hnames
    exact ⟨components t, (cons.inj hnames).2⟩
  · rw [← namedPlace_cleanText h, ht]
    decide

section

variable (hroot : isAbs root = true) (hdir : isAbs dir = true)
include hroot hdir

/-- **An absolute path leads to the file that the jailed process names**: below the run directory if
it lies at or below `/worker`, and else below the root of the jail. -/
theorem resolveWorkerHostSidePath_of_isAbs (h : isAbs guestPath = true) :
    isAbs (resolveWorkerHostSidePath ⟨root, dir⟩ guestPath) = true ∧
      namedPlace (resolveWorkerHostSidePath ⟨root, dir⟩ guestPath) =
        hostPlace (namedPlace root) (namedPlace dir) (namedPlace guestPath) := by
  have hclean : Clean (namedPlace guestPath) := clean_cleanRooted _
  have hne := ne_nil_of_isAbs hdir
  rw [resolveWorkerHostSidePath, if_neg (ne_nil_of_isAbs h), hostPlace]
  dsimp only
  rw [if_neg (ne_nil_of_isAbs hroot)]
  by_cases hworker : [workerName] <+: namedPlace guestPath
  · obtain ⟨p, hp⟩ := hworker
    have htext := cleanText_of_isAbs h
    rw [← hp] at htext hclean ⊢
    cases p with
    | nil =>
      have hat : cleanText guestPath = workerJailBindMount := htext
      rw [hat, if_neg (not_and_of_not_right _ (by decide)), if_pos ⟨hne, rfl⟩]
      exact ⟨hdir, (append_nil _).symm⟩
    | cons c p =>
      have hbelow : cleanText guestPath =
          workerJailBindMount ++ '/' :: intercalate ['/'] (c :: p) := htext
      have hslash : ∀ d ∈ c :: p, '/' ∉ d := fun d hd ↦
        (mem_cleanComponents (cleanComponents_of_isAbs h ▸ hp ▸ mem_append_right _ hd)).1
      rw [hbelow, if_pos ⟨hne, by simp⟩, drop_left, if_pos (prefix_append _ _)]
      refine ⟨isAbs_joinText hdir, ?_⟩
      rw [place_joinText hdir, components_slash, components_intercalate (cons_ne_nil c p) hslash]
      exact foldl_cleanStep_of_clean fun d hd ↦ hclean d (mem_append_right _ hd)
  · have hnone := mt (worker_isPrefix h) hworker
    rw [not_or] at hnone
    rw [if_neg (not_and_of_not_right _ hnone.1), if_neg (not_and_of_not_right _ hnone.2),
      if_neg hworker, place_joinText_trimLeft hroot, cleanComponents_of_isAbs h]
    exact ⟨isAbs_joinText hroot, foldl_cleanStep_of_clean hclean⟩

omit hdir in
/-- A relative path is put below the root of the jail as it is. -/
theorem resolveWorkerHostSidePath_of_not_isAbs (hne : guestPath ≠ [])
    (h : isAbs guestPath = false) :
    resolveWorkerHostSidePath ⟨root, dir⟩ guestPath = resolveHostSidePath root guestPath := by
  have htext : ∀ t, cleanText guestPath ≠ workerJailBindMount ++ t := by
    intro t ht
    rw [← isAbs_cleanText, ht] at h
    cases h
  rw [resolveWorkerHostSidePath, resolveHostSidePath, if_neg hne, if_neg hne]
  dsimp only
  rw [if_neg (ne_nil_of_isAbs hroot), if_neg (ne_nil_of_isAbs hroot), if_neg, if_neg]
  · exact fun hat ↦ htext [] (hat.2.trans (append_nil _).symm)
  · rintro ⟨-, t, ht⟩
    exact htext ('/' :: t) (by rw [← ht, append_assoc, singleton_append])

omit hdir in
theorem place_resolveHostSidePath (hne : guestPath ≠ []) :
    isAbs (resolveHostSidePath root guestPath) = true ∧
      namedPlace (resolveHostSidePath root guestPath) =
        (cleanComponents guestPath).foldl cleanStep (namedPlace root) := by
  rw [resolveHostSidePath, if_neg hne, if_neg (ne_nil_of_isAbs hroot)]
  exact ⟨isAbs_joinText hroot, place_joinText_trimLeft hroot⟩

end

theorem foldl_replicate_dotdot (k : ℕ) : (replicate k dotdot).foldl cleanStep [] = [] := by
  induction k with
  | zero => rfl
  | succ k ih => exact ih

theorem foldl_namedPlace (p : Path) :
    (namedPlace guestPath).foldl cleanStep p = p ++ namedPlace guestPath :=
  foldl_cleanStep_of_clean (clean_cleanRooted _)

theorem translated_of_isAbs (habs : isAbs guestPath = true) (hroot : isAbs root = true)
    (hdir : isAbs dir = true) : Translated root dir guestPath := by
  have hplace := place_resolveHostSidePath hroot (ne_nil_of_isAbs habs)
  rw [cleanComponents_of_isAbs habs, foldl_namedPlace] at hplace
  exact ⟨resolveWorkerHostSidePath_of_isAbs hroot hdir habs, hplace⟩

section Relative

variable (hne : guestPath ≠ []) (habs : isAbs guestPath = false)
include habs

/-- A relative path goes up first, and then along its names. -/
theorem exists_cleanComponents :
    ∃ k, cleanComponents guestPath = replicate k dotdot ++ namedPlace guestPath := by
  rw [cleanComponents, if_neg (by simp [habs])]
  exact exists_cleanRelative _

include hne

theorem translated_of_head (hroot : isAbs root = true)
    (hdots : (cleanComponents guestPath).head? ≠ some dotdot)
    (hname : (cleanComponents guestPath).head? ≠ some workerName) :
    Translated root dir guestPath := by
  obtain ⟨k, hk⟩ := exists_cleanComponents habs
  obtain rfl : k = 0 := by
    cases k with
    | zero => rfl
    | succ k =>
      rw [hk] at hdots
      exact absurd rfl hdots
  rw [replicate_zero, nil_append] at hk
  have hplace := place_resolveHostSidePath hroot hne
  rw [hk, foldl_namedPlace] at hplace
  have hother : ¬ [workerName] <+: namedPlace guestPath := by
    rintro ⟨p, hp⟩
    rw [hk, ← hp] at hname
    exact hname rfl
  refine ⟨?_, hplace⟩
  rwa [resolveWorkerHostSidePath_of_not_isAbs hroot hne habs, hostPlace, if_neg hother]

theorem head_of_translated (h : Translated "/j".toList "/r".toList guestPath) :
    (cleanComponents guestPath).head? ≠ some dotdot ∧
      (cleanComponents guestPath).head? ≠ some workerName := by
  have hclean : Clean (namedPlace guestPath) := clean_cleanRooted _
  obtain ⟨k, hk⟩ := exists_cleanComponents habs
  obtain ⟨⟨-, hfile⟩, -, hjail⟩ := h
  rw [resolveWorkerHostSidePath_of_not_isAbs (by decide) hne habs,
    (place_resolveHostSidePath (by decide) hne).2] at hfile
  rw [(place_resolveHostSidePath (by decide) hne).2, hk] at hjail
  cases k with
  | succ k =>
    -- the first double dot takes the root of the jail away
    have hout : namedPlace guestPath = [['j']] ++ namedPlace guestPath := by
      rwa [foldl_append, replicate_succ, foldl_cons, show cleanStep _ dotdot = [] by decide,
        foldl_replicate_dotdot, foldl_namedPlace] at hjail
    simp at hout
  | zero =>
    rw [hk, replicate_zero, nil_append] at hfile ⊢
    rw [foldl_namedPlace] at hfile
    cases hp : namedPlace guestPath with
    | nil => simp
    | cons c p =>
      rw [hp] at hfile hclean
      refine ⟨by simpa using (hclean c mem_cons_self).2.2, ?_⟩
      rintro ⟨⟩
      rw [hostPlace, if_pos ⟨p, rfl⟩, show namedPlace "/j".toList = [['j']] by decide] at hfile
      have hlength := congrArg length hfile
      rw [show namedPlace "/r".toList = [['r']] by decide] at hlength
      simp at hlength

end Relative

/-- **Which paths are translated as they should be**, whatever the directories are: those that are
absolute, and the relative ones that begin, once cleaned, neither with double dots nor with
`worker`. -/
theorem translated_iff (hne : guestPath ≠ []) :
    (∀ root dir, isAbs root = true → isAbs dir = true → Translated root dir guestPath) ↔
      isAbs guestPath = true ∨
        ((cleanComponents guestPath).head? ≠ some dotdot ∧
          (cleanComponents guestPath).head? ≠ some workerName) := by
  cases habs : isAbs guestPath with
  | true => exact ⟨fun _ ↦ .inl rfl, fun _ _ _ hroot hdir ↦ translated_of_isAbs habs hroot hdir⟩
  | false =>
    refine ⟨fun h ↦ .inr ?_, fun h root dir hroot _ ↦ ?_⟩
    · exact head_of_translated hne habs (h "/j".toList "/r".toList (by decide) (by decide))
    · obtain ⟨hdots, hname⟩ := h.resolve_left Bool.false_ne_true
      exact translated_of_head hne habs hroot hdots hname

/-- A relative path, with the root of the jail and the run directory as they may be written. -/
theorem translated_socket : Translated "//j/.".toList "/r/".toList "a/..//s".toList :=
  (translated_iff (by decide)).mpr (.inr ⟨by decide, by decide⟩) _ _ (by decide) (by decide)

/-- **A relative path leaves the jail**, and one below `worker` misses the run directory. -/
theorem resolveWorkerHostSidePath_relative :
    resolveWorkerHostSidePath ⟨"/j/k".toList, "/r".toList⟩ "../e".toList = "/j/e".toList ∧
      ¬ Translated "/j/k".toList "/r".toList "../e".toList ∧
      resolveWorkerHostSidePath ⟨"/j".toList, "/r".toList⟩ "worker/s".toList =
        "/j/worker/s".toList ∧
      ¬ Translated "/j".toList "/r".toList "worker/s".toList := by
  refine ⟨by decide, fun h ↦ absurd h.worker.2 (by decide), by decide, fun h ↦
    absurd h.worker.2 (by decide)⟩

end Gocracker.Vmm
