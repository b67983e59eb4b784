import Gocracker.Templates.Identity

/-!
# Deleting what is still needed

A directory is used by the templates that are ready and have it, and by the builds that have found
it, or have stored it, and are going to register it. It is torn down by a deletion that has found no
ready template with it, and by a `Store` that has found it incomplete. Between that finding and the
removal the directory may come into use, and then it is removed from under its users.

The condition says that this does not happen: a deletion does not look at a directory that a build
has in its hands, and no build comes to use a directory that another call is tearing down. These are
what one lock for each directory would ensure, taken by builds and deletions alike.
-/

namespace Gocracker.Templates

open Machine Posix Container Warmcache Transition List Function

/-! ## Use and removal -/

variable (host : Host)

/-- The directory that a call relies on. What a run has stored is looked up again, so only a probed
build relies on it. -/
def Call.holds : Call → Option Text
  | .build _ spec stage =>
    match stage with
    | .found dir | .hit dir => some dir
    | .stored => if spec.probed then dirOf host spec else none
    | .returning dir => some dir
    | _ => none
  | .delete _ _ | .save .. => none

/-- The directory that a call is going to remove. -/
def Call.tears : Call → Option Text
  | .build _ spec stage =>
    match stage with
    | .clearing _ | .renaming _ => dirOf host spec
    | _ => none
  | .delete dir stage =>
    match stage with
    | .removing => some dir
    | _ => none
  | .save dir _ stage =>
    match stage with
    | .clearing | .renaming => some dir
    | _ => none

theorem Call.holds_eq_none_of_tears {host : Host} {c : Call} {dir : Text}
    (h : c.tears host = some dir) : c.holds host = none := by
  cases c with
  | build id spec stage => cases stage <;> first | rfl | nomatch h
  | delete dir stage | save dir spec stage => rfl

def Action.gives : Action → Option Text
  | .add t => if t.state = .ready then t.snapshotDir else none
  | .ready _ dir => some dir
  | _ => none

variable (b : Builder)

/-- The condition on a step of a call. -/
def Call.Exclusive (i : ℕ) (e : CallEvent) : Call → Prop
  | .build _ spec _ => (e = .storeCheck ∨ e = .rename ∨ e = .conclude) →
    ∀ dir ∈ dirOf host spec, ∀ c ∈ b.calls.eraseIdx i, c.tears host ≠ some dir
  | .delete dir _ => e = .scan → ∀ c ∈ b.calls, c.holds host ≠ some dir
  | .save .. => True

instance decidableExclusiveCall (host : Host) (b : Builder) (i : ℕ) (e : CallEvent) :
    ∀ c : Call, Decidable (c.Exclusive host b i e)
  | .build _ spec _ =>
    inferInstanceAs (Decidable ((e = .storeCheck ∨ e = .rename ∨ e = .conclude) →
      ∀ dir ∈ dirOf host spec, ∀ c ∈ b.calls.eraseIdx i, c.tears host ≠ some dir))
  | .delete dir _ =>
    inferInstanceAs (Decidable (e = .scan → ∀ c ∈ b.calls, c.holds host ≠ some dir))
  | .save .. => .isTrue trivial

open Call

namespace Builder

/-- Is the directory needed by a template, or by a build? -/
def Uses (dir : Text) : Prop :=
  b.inUse dir = true ∨ ∃ c ∈ b.calls, c.holds host = some dir

/-- Every template that is ready has a directory, and in it a complete snapshot. -/
def Stocked : Prop :=
  ∀ t ∈ b.templates, t.state = .ready →
    ∃ dir, t.snapshotDir = some dir ∧ b.isComplete dir = true

def Exclusive : Event → Prop
  | .beginBuild _ _ | .beginDelete _ | .beginSave _ => True
  | .act i e => ∀ c ∈ b.calls[i]?, c.Exclusive host b i e

instance decidableExclusive (host : Host) (b : Builder) :
    ∀ e : Event, Decidable (b.Exclusive host e)
  | .beginBuild _ _ | .beginDelete _ | .beginSave _ => .isTrue trivial
  | .act i e => inferInstanceAs (Decidable (∀ c ∈ b.calls[i]?, c.Exclusive host b i e))

/-- What is used is complete, and nobody tears it down. -/
structure Intact (host : Host) (b : Builder) : Prop where
  named : ∀ t ∈ b.templates, t.state = .ready → ∃ dir, t.snapshotDir = some dir
  complete : ∀ dir, b.Uses host dir → b.isComplete dir = true
  apart : ∀ c ∈ b.calls, ∀ dir, c.tears host = some dir → ¬b.Uses host dir

variable {host : Host} {b b' : Builder} {dir d : Text} {i : ℕ} {c c' : Call} {a : Action}

theorem inUse_iff : b.inUse dir = true ↔
    ∃ t ∈ b.templates, t.state = .ready ∧ t.snapshotDir = some dir := by
  simp only [inUse, any_eq_true, Bool.and_eq_true, decide_eq_true_eq]
  constructor
  · rintro ⟨t, ht, hdir, hready⟩
    exact ⟨t, ht, hready, hdir⟩
  · rintro ⟨t, ht, hready, hdir⟩
    exact ⟨t, ht, hdir, hready⟩

theorem Uses.of_template {t : Template} (ht : t ∈ b.templates) (hready : t.state = .ready)
    (hdir : t.snapshotDir = some dir) : b.Uses host dir :=
  .inl (inUse_iff.mpr ⟨t, ht, hready, hdir⟩)

theorem Uses.of_call (hc : c ∈ b.calls) (hholds : c.holds host = some dir) : b.Uses host dir :=
  .inr ⟨c, hc, hholds⟩

theorem Intact.stocked (hb : b.Intact host) : b.Stocked := by
  intro t ht hready
  obtain ⟨dir, hdir⟩ := hb.named t ht hready
  exact ⟨dir, hdir, hb.complete dir (.of_template ht hready hdir)⟩

theorem intact_init : (init).Intact host where
  named t ht := absurd ht not_mem_nil
  complete dir huse := by
    rcases huse with huse | ⟨c, hc, -⟩
    · nomatch huse
    · exact absurd hc not_mem_nil
  apart c hc := absurd hc not_mem_nil

/-! ## What actions do -/

theorem calls_perform : (b.perform a).calls = b.calls := by
  cases a <;> rfl

/-- A template that is ready was there before, or is added, or has got its directory. -/
theorem mem_of_perform {t : Template} (ht : t ∈ (b.perform a).templates)
    (hready : t.state = .ready) :
    t ∈ b.templates ∨ a = .add t ∨ ∃ id dir, a = .ready id dir ∧ t.snapshotDir = some dir := by
  cases a with
  | nothing | put dir content => exact .inl ht
  | add t₀ => exact (mem_append.mp ht).imp_right fun hnew ↦ .inl (by rw [mem_singleton.mp hnew])
  | ready id dir =>
    obtain ⟨t₀, ht₀, rfl⟩ := mem_map.mp ht
    split_ifs
    · exact .inr (.inr ⟨id, dir, rfl, rfl⟩)
    · exact .inl ht₀
  | error id message =>
    obtain ⟨t₀, ht₀, rfl⟩ := mem_map.mp ht
    by_cases hid : t₀.id = id
    · rw [if_pos hid] at hready
      nomatch hready
    · exact .inl ((if_neg hid).symm ▸ ht₀)

theorem named_perform (hb : ∀ t ∈ b.templates, t.state = .ready → ∃ dir, t.snapshotDir = some dir)
    (ha : ∀ t, a = .add t → t.state = .ready → ∃ dir, t.snapshotDir = some dir) :
    ∀ t ∈ (b.perform a).templates, t.state = .ready → ∃ dir, t.snapshotDir = some dir := by
  intro t ht hready
  rcases mem_of_perform ht hready with hold | hadd | ⟨_, dir, -, hdir⟩
  · exact hb t hold hready
  · exact ha t hadd hready
  · exact ⟨dir, hdir⟩

theorem inUse_of_perform (h : (b.perform a).inUse dir = true) :
    b.inUse dir = true ∨ a.gives = some dir := by
  obtain ⟨t, ht, hready, hdir⟩ := inUse_iff.mp h
  rcases mem_of_perform ht hready with hold | rfl | ⟨_, _, rfl, hdir'⟩
  · exact .inl (inUse_iff.mpr ⟨t, hold, hready, hdir⟩)
  · exact .inr ((if_pos hready).trans hdir)
  · exact .inr (hdir'.symm.trans hdir)

/-- Who uses a directory after a step: a template, the call itself, or another one. -/
theorem uses_of_setCall (h : ((b.perform a).setCall i c').Uses host dir) :
    b.inUse dir = true ∨ a.gives = some dir ∨ c'.holds host = some dir ∨
      ∃ j c, j ≠ i ∧ b.calls[j]? = some c ∧ c.holds host = some dir := by
  rcases h with huse | ⟨c, hc, hholds⟩
  · rcases inUse_of_perform huse with hold | hgives
    · exact .inl hold
    · exact .inr (.inl hgives)
  rw [setCall, calls_perform] at hc
  rcases eq_or_getElem?_of_mem_set hc with rfl | ⟨j, hj, hc⟩
  · exact .inr (.inr (.inl hholds))
  · exact .inr (.inr (.inr ⟨j, c, hj, hc, hholds⟩))

/-- **The rule for a step of a call.** What is given to a template or held by the call was used
before, or is complete now and torn down by no other call; what the call tears down nobody uses; and
only what nobody uses is changed. -/
theorem Intact.act (hb : b.Intact host)
    (hnamed : ∀ t, a = .add t → t.state = .ready → ∃ dir, t.snapshotDir = some dir)
    (hgives : ∀ d, a.gives = some d → b.Uses host d)
    (hholds : ∀ d, c'.holds host = some d → b.Uses host d ∨
      ((b.perform a).isComplete d = true ∧ ∀ c₁ ∈ b.calls.eraseIdx i, c₁.tears host ≠ some d))
    (htears : ∀ d, c'.tears host = some d → ¬b.Uses host d)
    (hdirs : ∀ d, b.Uses host d → (b.perform a).dirs d = b.dirs d) :
    ((b.perform a).setCall i c').Intact host := by
  have hcases : ∀ d, ((b.perform a).setCall i c').Uses host d → b.Uses host d ∨
      ((b.perform a).isComplete d = true ∧ c'.holds host = some d ∧
        ∀ c₁ ∈ b.calls.eraseIdx i, c₁.tears host ≠ some d) := by
    intro d huse
    rcases uses_of_setCall huse with huse | hgive | hhold | ⟨j, c₁, -, hj, hhold⟩
    · exact .inl (.inl huse)
    · exact .inl (hgives d hgive)
    · exact (hholds d hhold).imp_right fun h ↦ ⟨h.1, hhold, h.2⟩
    · exact .inl (.of_call (mem_of_getElem? hj) hhold)
  refine ⟨named_perform hb.named hnamed, fun d huse ↦ ?_, fun c₁ hc₁ d htear huse ↦ ?_⟩
  · rcases hcases d huse with hold | ⟨hcomplete, -⟩
    · have hsame : (b.perform a).isComplete d = b.isComplete d := by
        simp only [isComplete, hdirs d hold]
      exact hsame.trans (hb.complete d hold)
    · exact hcomplete
  · rw [setCall, calls_perform] at hc₁
    rcases eq_or_getElem?_of_mem_set hc₁ with rfl | ⟨j, hj, hc₁⟩
    · rcases hcases d huse with hold | ⟨-, hhold, -⟩
      · exact htears d htear hold
      · nomatch (holds_eq_none_of_tears htear).symm.trans hhold
    · rcases hcases d huse with hold | ⟨-, -, hothers⟩
      · exact hb.apart c₁ (mem_of_getElem? hc₁) d htear hold
      · exact hothers c₁ (mem_eraseIdx_iff_getElem?.mpr ⟨j, hj, hc₁⟩) htear

/-- A step that changes no directory. -/
theorem Intact.rely (hb : b.Intact host)
    (hholds : ∀ d, c'.holds host = some d → b.Uses host d ∨
      (b.isComplete d = true ∧ ∀ c₁ ∈ b.calls.eraseIdx i, c₁.tears host ≠ some d))
    (htears : ∀ d, c'.tears host = some d → ¬b.Uses host d) : (b.setCall i c').Intact host :=
  hb.act (a := .nothing) (fun _ h ↦ nomatch h) nofun hholds htears fun _ _ ↦ rfl

theorem Intact.pass (hb : b.Intact host) (hholds : ∀ d, c'.holds host = some d → b.Uses host d)
    (htears : ∀ d, c'.tears host = some d → ¬b.Uses host d) : (b.setCall i c').Intact host :=
  hb.rely (fun d h ↦ .inl (hholds d h)) htears

/-- What a call tears down nobody uses, so it may write to it. -/
theorem Intact.dirs_put (hb : b.Intact host) (hc : c ∈ b.calls) (htear : c.tears host = some dir)
    {x : Option Snapshot} : ∀ d, b.Uses host d → (b.perform (.put dir x)).dirs d = b.dirs d := by
  intro d huse
  refine update_of_ne ?_ _ _
  rintro rfl
  exact hb.apart c hc d htear huse

end Builder

/-! ## Steps -/

open Builder

section Steps

variable {host : Host} {b b' : Builder} {id : String} {spec : Spec} {st st' : BuildStage}
  {dst dst' : DeleteStage} {a : Action} {e : CallEvent} {dir : Text} {i : ℕ}

theorem holds_afterStoreError (error : String) :
    (build id spec (spec.afterStoreError error)).holds host = none := by
  unfold Spec.afterStoreError
  split_ifs with hprobed
  · rfl
  · exact if_neg hprobed

theorem tears_afterStoreError (error : String) :
    (build id spec (spec.afterStoreError error)).tears host = none := by
  unfold Spec.afterStoreError
  split_ifs <;> rfl

/-- **A step of a build** keeps what is used. -/
theorem BuildStep.intact (hstep : BuildStep host b id spec e st st' a) (hb : b.Intact host)
    (hi : b.calls[i]? = some (.build id spec st))
    (hex : (build id spec st).Exclusive host b i e) :
    ((b.perform a).setCall i (.build id spec st')).Intact host := by
  have hc := mem_of_getElem? hi
  have hunused := hb.apart _ hc
  cases hstep with
  | found ht _ hready hdir =>
    refine hb.pass (fun d hd ↦ ?_) nofun
    exact .of_template ht hready (hdir.trans hd)
  | hit => exact hb.pass (fun d hd ↦ .of_call hc hd) nofun
  | addHit =>
    refine hb.act (fun t ht _ ↦ ?_) (fun d hd ↦ .of_call hc hd) nofun nofun fun _ _ ↦ rfl
    exact ⟨_, congrArg Template.snapshotDir (Action.add.inj ht).symm⟩
  | addBuilding =>
    refine hb.act (fun t ht hready ↦ ?_) nofun nofun nofun fun _ _ ↦ rfl
    nomatch (congrArg Template.state (Action.add.inj ht)).trans hready
  | skip hprobed =>
    refine hb.pass (fun d hd ↦ ?_) nofun
    nomatch (if_neg (Bool.eq_false_iff.mp hprobed)).symm.trans hd
  | storeError _ =>
    exact hb.pass (fun d hd ↦ nomatch (holds_afterStoreError _).symm.trans hd)
      fun d hd ↦ nomatch (tears_afterStoreError _).symm.trans hd
  | clearError => exact hb.pass nofun hunused
  | storeComplete hkey hcomplete =>
    refine hb.rely (fun d hd ↦ ?_) nofun
    -- A probed build is going to rely on the snapshot that was there before.
    simp only [holds] at hd
    split_ifs at hd
    rw [← Option.mem_unique hkey hd]
    exact .inr ⟨hcomplete, hex (.inl rfl) _ hkey⟩
  | storeIncomplete hkey hincomplete =>
    refine hb.pass nofun fun d hd huse ↦ ?_
    rw [← Option.mem_unique hkey hd] at huse
    nomatch hincomplete.symm.trans (hb.complete _ huse)
  | clear hkey => exact hb.act (fun _ h ↦ nomatch h) nofun nofun hunused (hb.dirs_put hc hkey)
  | rename hkey =>
    refine hb.act (fun _ h ↦ nomatch h) nofun (fun d hd ↦ ?_)
      nofun (hb.dirs_put hc hkey)
    simp only [holds] at hd
    split_ifs at hd
    rw [← Option.mem_unique hkey hd]
    refine .inr ⟨?_, hex (.inr (.inl rfl)) _ hkey⟩
    simp only [isComplete, perform, update_self]
  | conclude hkey hcomplete =>
    refine hb.rely (fun d hd ↦ ?_) nofun
    rw [← Option.some.inj hd]
    rcases hcomplete with hprobed | hcomplete
    · exact .inl (.of_call hc ((if_pos hprobed).trans hkey))
    · exact .inr ⟨hcomplete, hex (.inr (.inr rfl)) _ hkey⟩
  | update =>
    exact hb.act (fun _ h ↦ nomatch h) (fun d hd ↦ .of_call hc hd) nofun
      nofun fun _ _ ↦ rfl
  | updateError =>
    exact hb.act (fun _ h ↦ nomatch h) (fun _ h ↦ nomatch h) (fun _ h ↦ nomatch h)
      nofun fun _ _ ↦ rfl
  | _ => exact hb.pass nofun nofun

/-- **A step of a deletion** keeps what is used. -/
theorem DeleteStep.intact (hstep : DeleteStep b dir e dst dst' a) (hb : b.Intact host)
    (hi : b.calls[i]? = some (.delete dir dst)) (hex : (delete dir dst).Exclusive host b i e) :
    ((b.perform a).setCall i (.delete dir dst')).Intact host := by
  have hc := mem_of_getElem? hi
  have hunused := hb.apart _ hc
  cases hstep with
  | inUse | giveUp => exact hb.pass nofun nofun
  | scan hfree =>
    refine hb.pass nofun fun d hd huse ↦ ?_
    rw [← Option.some.inj hd] at huse
    rcases huse with huse | ⟨c, hc, hholds⟩
    · nomatch hfree.symm.trans huse
    · exact hex rfl c hc hholds
  | removeSome => exact hb.act (fun _ h ↦ nomatch h) nofun nofun hunused (hb.dirs_put hc rfl)
  | removeRest =>
    exact hb.act (fun _ h ↦ nomatch h) nofun nofun
      nofun (hb.dirs_put hc rfl)

/-- **A run that stores its snapshot** keeps what is used: it replaces only what is not complete. -/
theorem SaveStep.intact {sst sst' : SaveStage} (hstep : SaveStep b dir spec sst sst' a)
    (hb : b.Intact host) (hi : b.calls[i]? = some (.save dir spec sst)) :
    ((b.perform a).setCall i (.save dir spec sst')).Intact host := by
  have hc := mem_of_getElem? hi
  have hunused := hb.apart _ hc
  cases hstep with
  | finish _ => exact hb.pass nofun nofun
  | check hincomplete =>
    refine hb.pass nofun fun d hd huse ↦ ?_
    rw [← Option.some.inj hd] at huse
    nomatch hincomplete.symm.trans (hb.complete _ huse)
  | clear => exact hb.act (fun _ h ↦ nomatch h) nofun nofun hunused (hb.dirs_put hc rfl)
  | clearError => exact hb.pass nofun hunused
  | rename => exact hb.act (fun _ h ↦ nomatch h) nofun nofun nofun (hb.dirs_put hc rfl)

namespace Builder

theorem Intact.begin (hb : b.Intact host) {c : Call} (hholds : c.holds host = none)
    (htears : c.tears host = none) : Intact host { b with calls := b.calls ++ [c] } := by
  have huses : ∀ d, Uses host { b with calls := b.calls ++ [c] } d → b.Uses host d := by
    rintro d (huse | ⟨c', hc', hhold⟩)
    · exact .inl huse
    rcases mem_append.mp hc' with hold | hnew
    · exact .of_call hold hhold
    · rw [mem_singleton.mp hnew, hholds] at hhold
      nomatch hhold
  refine ⟨hb.named, fun d huse ↦ hb.complete d (huses d huse), fun c' hc' d htear huse ↦ ?_⟩
  rcases mem_append.mp hc' with hold | hnew
  · exact hb.apart c' hold d htear (huses d huse)
  · rw [mem_singleton.mp hnew, htears] at htear
    nomatch htear

theorem Intact.forget (hb : b.Intact host) {templates : List Template}
    (hsub : ∀ t ∈ templates, t ∈ b.templates) : Intact host { b with templates := templates } := by
  have huses : ∀ d, Uses host { b with templates := templates } d → b.Uses host d := by
    rintro d (huse | hcall)
    · obtain ⟨t, ht, hready, hdir⟩ := inUse_iff.mp huse
      exact .of_template (hsub t ht) hready hdir
    · exact .inr hcall
  exact ⟨fun t ht ↦ hb.named t (hsub t ht), fun d huse ↦ hb.complete d (huses d huse),
    fun c hc d htear huse ↦ hb.apart c hc d htear (huses d huse)⟩

theorem Intact.beginDelete (hb : b.Intact host) (id : String) : (b.beginDelete id).Intact host := by
  unfold Builder.beginDelete
  split
  · exact hb
  have hrest : Intact host { b with templates := b.templates.filter fun t ↦ t.id ≠ id } :=
    hb.forget fun t ht ↦ (mem_filter.mp ht).1
  split
  · exact hrest
  · exact hrest.begin rfl rfl

theorem Intact.step {ev : Event} (hb : b.Intact host) (hex : b.Exclusive host ev)
    (hstep : b.step host ev = some b') : b'.Intact host := by
  cases ev with
  | beginBuild id spec =>
    simp only [Builder.step] at hstep
    split_ifs at hstep <;> rw [← Option.some.inj hstep]
    · exact hb.begin rfl rfl
    · exact hb
  | beginDelete id =>
    rw [← Option.some.inj hstep]
    exact hb.beginDelete id
  | beginSave i =>
    obtain ⟨-, -, -, -, -, rfl⟩ := step_beginSave hstep
    exact hb.begin rfl rfl
  | act i e =>
    rcases step_act hstep with ⟨id, spec, st, st', a, hi, hbuild, rfl⟩ |
      ⟨d, st, st', a, hi, hdelete, rfl⟩ | ⟨d, spec, st, st', a, hi, hsave, rfl⟩
    · exact hbuild.intact hb hi (hex _ hi)
    · exact hdelete.intact hb hi (hex _ hi)
    · exact hsave.intact hb hi

/-- **A template that is ready has its snapshot**, in every state of every run in which deletions
and builds keep off each other's directories. -/
theorem stocked_of_exclusive {events : List Event}
    (hrun : Run (step host) (Exclusive host) init events b) : b.Stocked :=
  Intact.stocked
    (hrun.invariant (I := Intact host) (fun _ _ _ hb hex hstep ↦ hb.step hex hstep) intact_init)

end Builder

end Steps

/-! ## Two interleavings -/

/-- The second build waits for its lock while the first one is booting, and shares its snapshot. The
first template is deleted meanwhile; the directory stays, and a third build shares it, too. -/
def exclusiveRun : List Event :=
  [.beginBuild "a" (sampleSpec "A=1"), .beginBuild "b" (sampleSpec "A=1")] ++ coldBuild 0 ++
    acts 1 [.acquire, .find (some "a"), .check] ++ [.beginDelete "a"] ++ acts 1 [.addHit] ++
    acts 2 [.scan] ++ [.beginBuild "c" (sampleSpec "A=1")] ++
    acts 3 [.acquire, .find (some "b"), .check, .addHit]

theorem stocked_exclusiveRun : ∃ b,
    Run (step sampleHost) (Builder.Exclusive sampleHost) .init exclusiveRun b ∧
    b.templates.map Template.id = ["b", "c"] ∧ b.Stocked := by
  refine Run.exists_of_exec _ (by decide +kernel)
    fun b hrun hb ↦ ⟨hb, stocked_of_exclusive hrun⟩

def Call.isFinished : Call → Bool
  | .build _ _ stage | .delete _ stage | .save _ _ stage => stage = .finished

/-- No call is in progress, and there is a template that is ready and has no snapshot. -/
def Builder.robbed (b : Builder) : Bool :=
  b.calls.all isFinished &&
    b.templates.any fun t ↦ t.state = .ready && !(t.snapshotDir.any b.isComplete)

/-- The second build has found the first template's directory, but has not registered it when the
deletion looks for other users. -/
def robbedRun : List Event :=
  .beginBuild "a" (sampleSpec "A=1") :: coldBuild 0 ++
    .beginBuild "b" (sampleSpec "A=1") :: acts 1 [.acquire, .find (some "a"), .check] ++
    .beginDelete "a" :: acts 2 [.scan] ++ acts 1 [.addHit] ++ acts 2 [.removeSome, .removeRest]

theorem Builder.not_stocked_of_robbed {b : Builder} (h : b.robbed = true) : ¬b.Stocked := by
  intro hb
  obtain ⟨t, ht, hrobbed⟩ := any_eq_true.mp (Bool.and_eq_true_iff.mp h).2
  rw [Bool.and_eq_true, decide_eq_true_eq] at hrobbed
  obtain ⟨dir, hdir, hcomplete⟩ := hb t ht hrobbed.1
  rw [hdir, Option.any_some, hcomplete] at hrobbed
  nomatch hrobbed.2

theorem not_stocked_robbedRun : ∃ b, Run (step sampleHost) anyStep .init robbedRun b ∧
    b.calls.all isFinished = true ∧ ¬b.Stocked := by
  refine Run.exists_of_exec (·.robbed = true) (by decide +kernel) fun b hrun hb ↦ ?_
  exact ⟨(Bool.and_eq_true_iff.mp hb).1, not_stocked_of_robbed hb⟩

end Gocracker.Templates
