import Gocracker.Templates.Builder

/-!
# Whose snapshot a template has

A directory is referred to by the templates that have it, by the snapshot in it, and by the builds
that are going to use it. Each of these comes with a hash. If all of them agree, for every
directory, then a template has a snapshot of its own specification.

No step makes a new reference but for two: a build that begins refers to the directory of its key,
and to that of its run if this uses the cache; and one that is done writes its directory into
whatever template has its id. Every other step passes references on. So the condition is about these
two only: specifications that share a directory share their hash, and an id is not used again while
a build for it is in progress.
-/

namespace Gocracker.Templates

open Machine Posix Container Warmcache Transition List Option

/-! ## References -/

/-- The directory that a build has in its hands. -/
def BuildStage.dir : BuildStage → Option Text
  | .found dir | .hit dir | .returning dir => some dir
  | _ => none

/-- The specification that its snapshot was captured from, until it is stored. -/
def BuildStage.origin : BuildStage → Option Spec
  | .captured origin | .clearing origin | .renaming origin => some origin
  | _ => none

variable (host : Host)

/-- The directories that a build may come to use. -/
def dirsOf (spec : Spec) : List Text := (dirOf host spec).toList ++ (runDirOf host spec).toList

/-- The specifications with which a call refers to the directory. -/
def Call.specsUsing (dir : Text) : Call → List Spec
  | .build _ spec stage =>
    let mayUse := dirOf host spec = some dir ∨ runDirOf host spec = some dir
    (if (stage ≠ .finished ∧ mayUse) ∨ stage.dir = some dir then [spec] else []) ++
      if dirOf host spec = some dir then stage.origin.toList else []
  | .delete _ _ => []
  | .save dir' spec stage => if stage ≠ .finished ∧ dir' = dir then [spec] else []

open Call

namespace Builder

variable (b : Builder)

/-- The hashes of all that refers to the directory. -/
def references (dir : Text) : List Text :=
  (b.templates.filter fun t ↦ t.snapshotDir = some dir).map Template.specHash ++
    ((b.capturedIn dir).toList ++ b.calls.flatMap (specsUsing host dir)).map (specHash host)

/-- Every directory belongs to one hash. -/
def Owned : Prop :=
  ∀ dir, ∀ h ∈ b.references host dir, ∀ h' ∈ b.references host dir, h = h'

/-- The snapshot of a template that is ready was captured from a specification with its hash. -/
def Identified : Prop :=
  ∀ t ∈ b.templates, t.state = .ready → ∀ dir, t.snapshotDir = some dir →
    ∀ spec, b.dirs dir = some (.complete spec) → specHash host spec = t.specHash

end Builder

def Call.OwnsTemplate (b : Builder) : Call → Prop
  | .build id spec _ => ∀ t ∈ b.templates, t.id = id → t.specHash = specHash host spec
  | .delete _ _ | .save .. => True

instance (host : Host) (b : Builder) : ∀ c : Call, Decidable (c.OwnsTemplate host b)
  | .build id spec _ =>
    inferInstanceAs (Decidable (∀ t ∈ b.templates, t.id = id → t.specHash = specHash host spec))
  | .delete _ _ | .save .. => .isTrue trivial

namespace Builder

/-- The condition on a step. -/
def Separate (b : Builder) : Event → Prop
  | .beginBuild _ spec =>
    ∀ dir ∈ dirsOf host spec, ∀ h ∈ b.references host dir, h = specHash host spec
  | .beginDelete _ | .beginSave _ => True
  | .act i e => e = .update → ∀ c ∈ b.calls[i]?, c.OwnsTemplate host b

instance decidableSeparate (host : Host) (b : Builder) : ∀ e : Event, Decidable (b.Separate host e)
  | .beginBuild _ spec => inferInstanceAs (Decidable (∀ dir ∈ dirsOf host spec, _))
  | .beginDelete _ | .beginSave _ => .isTrue trivial
  | .act i e => inferInstanceAs (Decidable (e = .update → ∀ c ∈ b.calls[i]?, c.OwnsTemplate host b))

variable {host : Host} {b : Builder} {dir h : Text}

theorem mem_references : h ∈ b.references host dir ↔
    (∃ t ∈ b.templates, t.snapshotDir = some dir ∧ t.specHash = h) ∨
    (∃ spec, b.capturedIn dir = some spec ∧ specHash host spec = h) ∨
    ∃ c ∈ b.calls, ∃ spec ∈ c.specsUsing host dir, specHash host spec = h := by
  simp only [references, mem_append, List.mem_map, mem_filter, decide_eq_true_eq,
    mem_flatMap, mem_toList, and_assoc, or_and_right, exists_or]
  refine or_congr_right (or_congr_right ?_)
  constructor
  · rintro ⟨spec, ⟨c, hc, hspec⟩, hh⟩
    exact ⟨c, hc, spec, hspec, hh⟩
  · rintro ⟨c, hc, spec, hspec, hh⟩
    exact ⟨spec, ⟨c, hc, hspec⟩, hh⟩

theorem mem_references_of_template {t : Template} (ht : t ∈ b.templates)
    (hdir : t.snapshotDir = some dir) : t.specHash ∈ b.references host dir :=
  mem_references.mpr (.inl ⟨t, ht, hdir, rfl⟩)

theorem mem_references_of_call {c : Call} (hc : c ∈ b.calls) {spec : Spec}
    (hspec : spec ∈ c.specsUsing host dir) : specHash host spec ∈ b.references host dir :=
  mem_references.mpr (.inr (.inr ⟨c, hc, spec, hspec, rfl⟩))

theorem capturedIn_eq_some_iff {spec : Spec} :
    b.capturedIn dir = some spec ↔ b.dirs dir = some (.complete spec) := by
  unfold capturedIn
  split <;> simp_all

theorem mem_references_of_captured {spec : Spec} (h : b.capturedIn dir = some spec) :
    specHash host spec ∈ b.references host dir :=
  mem_references.mpr (.inr (.inl ⟨spec, h, rfl⟩))

/-- **A directory with one hash has a template's own snapshot.** -/
theorem Owned.identified (hb : b.Owned host) : b.Identified host := by
  intro t ht _ dir hdir spec hspec
  refine hb dir _ (mem_references_of_captured ?_) _ (mem_references_of_template ht hdir)
  exact capturedIn_eq_some_iff.mpr hspec

/-! ## Effects of a step -/

/-- What the action refers to is referred to already. -/
def Passes (host : Host) (b : Builder) : Action → Prop
  | .nothing => True
  | .add t => ∀ dir ∈ t.snapshotDir, t.specHash ∈ b.references host dir
  | .ready id dir => ∀ t ∈ b.templates, t.id = id → t.specHash ∈ b.references host dir
  | .error _ _ => True
  | .put dir content =>
    ∀ spec, content = some (.complete spec) → specHash host spec ∈ b.references host dir

theorem mem_references_of_update {id : String} {f : Template → Template}
    (hhash : ∀ t, (f t).specHash = t.specHash)
    (hdir : ∀ t ∈ b.templates, t.id = id → ∀ dir, (f t).snapshotDir = some dir →
      t.specHash ∈ b.references host dir)
    (hmem : h ∈ (b.update id f).references host dir) : h ∈ b.references host dir := by
  rcases mem_references.mp hmem with ⟨t', ht', hdir', rfl⟩ | hrest
  · obtain ⟨t, ht, rfl⟩ := mem_map.mp ht'
    by_cases hid : t.id = id
    · rw [if_pos hid] at hdir' ⊢
      rw [hhash]
      exact hdir t ht hid dir hdir'
    · rw [if_neg hid] at hdir' ⊢
      exact mem_references_of_template ht hdir'
  · exact mem_references.mpr (.inr hrest)

/-- **An action that passes references on makes no new ones.** -/
theorem mem_references_of_perform {a : Action} (ha : b.Passes host a)
    (hmem : h ∈ (b.perform a).references host dir) : h ∈ b.references host dir := by
  cases a with
  | nothing => exact hmem
  | add t =>
    rcases mem_references.mp hmem with ⟨t', ht', hdir', rfl⟩ | hrest
    · rcases mem_append.mp ht' with hold | hnew
      · exact mem_references_of_template hold hdir'
      · rw [mem_singleton.mp hnew] at hdir' ⊢
        exact ha dir hdir'
    · exact mem_references.mpr (.inr hrest)
  | ready id dir' =>
    refine mem_references_of_update ?_ ?_ hmem
    · exact fun _ ↦ rfl
    · intro t ht hid d hd
      rw [← Option.some.inj hd]
      exact ha t ht hid
  | error id message =>
    refine mem_references_of_update ?_ ?_ hmem
    · exact fun _ ↦ rfl
    · exact fun t ht _ d hd ↦ mem_references_of_template ht hd
  | put dir' content =>
    rcases mem_references.mp hmem with htemplate | ⟨spec, hspec, rfl⟩ | hcall
    · exact mem_references.mpr (.inl htemplate)
    · rw [capturedIn_eq_some_iff] at hspec
      rcases update_eq_some_iff.mp hspec with ⟨rfl, hnew⟩ | ⟨-, hold⟩
      · exact ha spec hnew
      · exact mem_references_of_captured (capturedIn_eq_some_iff.mpr hold)
    · exact mem_references.mpr (.inr (.inr hcall))

theorem mem_references_of_setCall {i : ℕ} {c : Call}
    (hmem : h ∈ (b.setCall i c).references host dir) : h ∈ b.references host dir ∨
      ∃ spec ∈ c.specsUsing host dir, specHash host spec = h := by
  rcases mem_references.mp hmem with htemplate | hcaptured | ⟨c', hc', spec, hspec, rfl⟩
  · exact .inl (mem_references.mpr (.inl htemplate))
  · exact .inl (mem_references.mpr (.inr (.inl hcaptured)))
  · rcases eq_or_getElem?_of_mem_set hc' with rfl | ⟨j, -, hj⟩
    · exact .inr ⟨spec, hspec, rfl⟩
    · exact .inl (mem_references_of_call (mem_of_getElem? hj) hspec)

end Builder

/-! ## Steps of a call -/

section Steps

variable {host : Host} {b b' : Builder} {id : String} {spec : Spec} {st st' : BuildStage}
  {a : Action} {e : CallEvent} {dir h : Text} {i : ℕ}

theorem mem_dirsOf :
    dir ∈ dirsOf host spec ↔ dirOf host spec = some dir ∨ runDirOf host spec = some dir := by
  rw [dirsOf, mem_append, mem_toList, mem_toList]

theorem Call.mem_specsUsing_of_dir (hdir : st.dir = some dir) :
    spec ∈ (build id spec st).specsUsing host dir :=
  mem_append_left _ (by rw [if_pos (.inr hdir)]; exact mem_cons_self)

theorem Call.mem_specsUsing (hst : st ≠ .finished) (hdir : dir ∈ dirsOf host spec) :
    spec ∈ (build id spec st).specsUsing host dir :=
  mem_append_left _ (by rw [if_pos (.inl ⟨hst, mem_dirsOf.mp hdir⟩)]; exact mem_cons_self)

theorem Call.mem_specsUsing_of_origin {origin : Spec} (horigin : st.origin = some origin)
    (hkey : dirOf host spec = some dir) : origin ∈ (build id spec st).specsUsing host dir :=
  mem_append_right _ (by rw [if_pos hkey]; exact mem_toList.mpr horigin)

theorem afterStoreError_dir (error : String) :
    (spec.afterStoreError error).dir = none ∧ (spec.afterStoreError error).origin = none := by
  unfold Spec.afterStoreError
  split <;> exact ⟨rfl, rfl⟩

namespace BuildStep

section

variable (hstep : BuildStep host b id spec e st st' a)
include hstep

theorem ne_finished : st ≠ .finished := by
  cases hstep with
  | fail hst | storeError hst => rcases hst with rfl | rfl <;> exact BuildStage.noConfusion
  | noKey hst => rcases hst with rfl | ⟨_, rfl⟩ <;> exact BuildStage.noConfusion
  | _ => exact BuildStage.noConfusion

section

variable (hc : build id spec st ∈ b.calls)
include hc

/-- A build gets a directory from a template with its hash, or it is the one of its key. -/
theorem mem_references_of_dir (hdir : st'.dir = some dir) :
    specHash host spec ∈ b.references host dir := by
  have hne := hstep.ne_finished
  cases hstep with
  | found ht hhash _ hsnapshot =>
    rw [← hhash]
    exact b.mem_references_of_template ht (hsnapshot.trans hdir)
  | hit => exact b.mem_references_of_call hc (mem_specsUsing_of_dir hdir)
  | conclude hkey _ =>
    exact b.mem_references_of_call hc (mem_specsUsing hne (mem_dirsOf.mpr (.inl (hkey.trans hdir))))
  | storeError _ => nomatch (afterStoreError_dir _).1.symm.trans hdir
  | _ => nomatch hdir

/-- A snapshot is captured from its own specification, or was found by a run that refers to its
directory, too. -/
theorem mem_references_of_origin (hb : b.Owned host) {origin : Spec}
    (horigin : st'.origin = some origin) (hkey : dirOf host spec = some dir) :
    specHash host origin ∈ b.references host dir := by
  have hown : specHash host spec ∈ b.references host dir :=
    b.mem_references_of_call hc (mem_specsUsing hstep.ne_finished (mem_dirsOf.mpr (.inl hkey)))
  cases hstep with
  | capture =>
    obtain ⟨⟩ := horigin
    exact hown
  | @restore runDir _ hrun hcaptured =>
    obtain ⟨⟩ := horigin
    have hmem : runDir ∈ dirsOf host spec := mem_dirsOf.mpr (.inr hrun)
    rw [hb runDir _ (b.mem_references_of_captured hcaptured) _
      (b.mem_references_of_call hc (mem_specsUsing BuildStage.noConfusion hmem))]
    exact hown
  | clearError | storeIncomplete | clear =>
    exact b.mem_references_of_call hc (mem_specsUsing_of_origin horigin hkey)
  | storeError _ => nomatch (afterStoreError_dir _).2.symm.trans horigin
  | _ => nomatch horigin

/-- **A build refers to nothing new**, -/
theorem mem_references_of_specsUsing (hb : b.Owned host) {spec' : Spec}
    (huse : spec' ∈ (build id spec st').specsUsing host dir) :
    specHash host spec' ∈ b.references host dir := by
  rcases mem_append.mp huse with huse | huse
  · split_ifs at huse with hcases
    · rw [mem_singleton.mp huse]
      rcases hcases with ⟨-, hdir⟩ | hdir
      · exact b.mem_references_of_call hc (mem_specsUsing hstep.ne_finished (mem_dirsOf.mpr hdir))
      · exact hstep.mem_references_of_dir hc hdir
    · nomatch huse
  · split_ifs at huse with hkey
    · exact hstep.mem_references_of_origin hc hb (mem_toList.mp huse) hkey
    · nomatch huse

/-- and it leaves no reference but its own behind. -/
theorem passes
    (howns : e = .update → (build id spec st).OwnsTemplate host b) : b.Passes host a := by
  cases hstep with
  | addHit => exact fun d hd ↦ b.mem_references_of_call hc (mem_specsUsing_of_dir hd)
  | addBuilding | clear => nofun
  | rename hkey =>
    intro spec' hspec
    rw [← Snapshot.complete.inj (Option.some.inj hspec)]
    exact b.mem_references_of_call hc (mem_specsUsing_of_origin rfl hkey)
  | update =>
    intro t ht hid
    rw [howns rfl t ht hid]
    exact b.mem_references_of_call hc (mem_specsUsing_of_dir rfl)
  | _ => trivial

end

end

end BuildStep

section Save

variable {sst sst' : SaveStage}

theorem SaveStep.ne_finished (hstep : SaveStep b dir spec sst sst' a) : sst ≠ .finished := by
  cases hstep with
  | finish hst => rcases hst with rfl | rfl <;> exact SaveStage.noConfusion
  | _ => exact SaveStage.noConfusion

theorem Call.mem_specsUsing_save (hst : sst ≠ .finished) :
    spec ∈ (save dir spec sst).specsUsing host dir := by
  rw [specsUsing, if_pos ⟨hst, rfl⟩]
  exact mem_cons_self

theorem SaveStep.passes (hstep : SaveStep b dir spec sst sst' a)
    (hc : save dir spec sst ∈ b.calls) : b.Passes host a := by
  have hown : specHash host spec ∈ b.references host dir :=
    b.mem_references_of_call hc (mem_specsUsing_save hstep.ne_finished)
  cases hstep with
  | clear => nofun
  | rename =>
    intro spec' hspec
    rwa [← Snapshot.complete.inj (Option.some.inj hspec)]
  | _ => trivial

end Save

theorem DeleteStep.passes {dst dst' : DeleteStage} (hstep : DeleteStep b dir e dst dst' a) :
    b.Passes host a := by
  cases hstep with
  | removeSome | removeRest => nofun
  | _ => trivial

namespace Builder

/-- **A step of a call makes no new references.** -/
theorem mem_references_of_act (hb : b.Owned host) (hstep : b.step host (.act i e) = some b')
    (hsep : b.Separate host (.act i e)) (hmem : h ∈ b'.references host dir) :
    h ∈ b.references host dir := by
  rcases step_act hstep with ⟨id, spec, st, st', a, hi, hbuild, rfl⟩ |
    ⟨d, st, st', a, hi, hdelete, rfl⟩ | ⟨d, spec, st, st', a, hi, hsave, rfl⟩
  · have hc := mem_of_getElem? hi
    rcases mem_references_of_setCall hmem with hold | ⟨spec', huse, rfl⟩
    · exact mem_references_of_perform (hbuild.passes hc fun he ↦ hsep he _ hi) hold
    · exact hbuild.mem_references_of_specsUsing hc hb huse
  · rcases mem_references_of_setCall hmem with hold | ⟨spec', huse, -⟩
    · exact mem_references_of_perform hdelete.passes hold
    · nomatch huse
  · have hc := mem_of_getElem? hi
    rcases mem_references_of_setCall hmem with hold | ⟨spec', huse, rfl⟩
    · exact mem_references_of_perform (hsave.passes hc) hold
    · rw [specsUsing] at huse
      split_ifs at huse with hdir
      · rw [mem_singleton.mp huse, ← hdir.2]
        exact b.mem_references_of_call hc (mem_specsUsing_save hsave.ne_finished)
      · nomatch huse

theorem mem_references_of_beginDelete (hmem : h ∈ (b.beginDelete id).references host dir) :
    h ∈ b.references host dir := by
  have hsub : ∀ t ∈ (b.beginDelete id).templates, t ∈ b.templates := by
    intro t ht
    unfold beginDelete at ht
    split at ht
    · exact ht
    · split at ht <;> exact (mem_filter.mp ht).1
  have hdirs : (b.beginDelete id).capturedIn = b.capturedIn := by
    unfold beginDelete
    split
    · rfl
    · split <;> rfl
  have hcalls : ∀ c ∈ (b.beginDelete id).calls, c ∈ b.calls ∨ ∃ d st, c = .delete d st := by
    intro c hc
    unfold beginDelete at hc
    split at hc
    · exact .inl hc
    split at hc
    · exact .inl hc
    · rcases mem_append.mp hc with hold | hnew
      · exact .inl hold
      · exact .inr ⟨_, _, mem_singleton.mp hnew⟩
  rcases mem_references.mp hmem with ⟨t, ht, hdir, rfl⟩ | hcaptured | ⟨c, hc, spec, huse, rfl⟩
  · exact mem_references_of_template (hsub t ht) hdir
  · rw [hdirs] at hcaptured
    exact mem_references.mpr (.inr (.inl hcaptured))
  · rcases hcalls c hc with hold | ⟨d, st, rfl⟩
    · exact mem_references_of_call hold huse
    · nomatch huse

/-- **The rule for a call that begins.** In a directory that it refers to, everything has its
hash. -/
theorem Owned.begin (hb : b.Owned host) {c : Call}
    (hc : ∀ d, ∀ spec' ∈ c.specsUsing host d, ∀ h ∈ b.references host d, h = specHash host spec')
    (hsame : ∀ d, ∀ s ∈ c.specsUsing host d, ∀ s' ∈ c.specsUsing host d,
      specHash host s = specHash host s') :
    Owned host { b with calls := b.calls ++ [c] } := by
  have hcases : ∀ d h, h ∈ references host { b with calls := b.calls ++ [c] } d →
      h ∈ b.references host d ∨ ∃ spec' ∈ c.specsUsing host d, specHash host spec' = h := by
    intro d h hmem
    rcases mem_references.mp hmem with htemplate | hcaptured | ⟨c', hc', spec', huse, rfl⟩
    · exact .inl (mem_references.mpr (.inl htemplate))
    · exact .inl (mem_references.mpr (.inr (.inl hcaptured)))
    rcases mem_append.mp hc' with hold | hnew
    · exact .inl (mem_references_of_call hold huse)
    · rw [mem_singleton.mp hnew] at huse
      exact .inr ⟨spec', huse, rfl⟩
  intro d h hh h' hh'
  rcases hcases d h hh with hold | ⟨s, hs, rfl⟩
  · rcases hcases d h' hh' with hold' | ⟨s', hs', rfl⟩
    · exact hb d h hold h' hold'
    · exact hc d s' hs' h hold
  · rcases hcases d h' hh' with hold' | ⟨s', hs', rfl⟩
    · exact (hc d s hs h' hold').symm
    · exact hsame d s hs s' hs'

theorem Owned.beginBuild (hb : b.Owned host)
    (hsep : ∀ d ∈ dirsOf host spec, ∀ h ∈ b.references host d, h = specHash host spec) :
    Owned host { b with calls := b.calls ++ [.build id spec .waiting] } := by
  have hspec : ∀ d, ∀ s ∈ (build id spec .waiting).specsUsing host d,
      s = spec ∧ d ∈ dirsOf host spec := by
    intro d s hs
    rcases mem_append.mp hs with hs | hs
    · split_ifs at hs with hcases
      · exact ⟨mem_singleton.mp hs, hcases.elim (fun h ↦ mem_dirsOf.mpr h.2) nofun⟩
      · nomatch hs
    · split_ifs at hs <;> nomatch hs
  refine hb.begin (fun d s hs h hh ↦ ?_) fun d s hs s' hs' ↦ ?_
  · rw [(hspec d s hs).1]
    exact hsep d (hspec d s hs).2 h hh
  · rw [(hspec d s hs).1, (hspec d s' hs').1]

/-- A run that stores a snapshot has the directory and the hash from its build. -/
theorem Owned.beginSave (hb : b.Owned host) (hc : build id spec .building ∈ b.calls)
    (hrun : runDirOf host spec = some dir) :
    Owned host { b with calls := b.calls ++ [.save dir spec .captured] } := by
  have hmem : dir ∈ dirsOf host spec := mem_dirsOf.mpr (.inr hrun)
  have hspec : ∀ d, ∀ s ∈ (save dir spec .captured).specsUsing host d, s = spec ∧ d = dir := by
    intro d s hs
    rw [specsUsing] at hs
    split_ifs at hs with hcases
    · exact ⟨mem_singleton.mp hs, hcases.2.symm⟩
    · nomatch hs
  refine hb.begin (fun d s hs h hh ↦ ?_) fun d s hs s' hs' ↦ ?_
  · obtain ⟨rfl, rfl⟩ := hspec d s hs
    exact hb d h hh _ (mem_references_of_call hc (mem_specsUsing BuildStage.noConfusion hmem))
  · rw [(hspec d s hs).1, (hspec d s' hs').1]

theorem owned_init : (init).Owned host := by
  intro d h hh
  nomatch hh

theorem Owned.step {ev : Event} (hb : b.Owned host) (hsep : b.Separate host ev)
    (hstep : b.step host ev = some b') : b'.Owned host := by
  cases ev with
  | beginBuild id spec =>
    simp only [Builder.step] at hstep
    split_ifs at hstep <;> rw [← Option.some.inj hstep]
    · exact hb.beginBuild hsep
    · exact hb
  | beginDelete id =>
    rw [← Option.some.inj hstep]
    exact fun d h hh h' hh' ↦
      hb d h (mem_references_of_beginDelete hh) h' (mem_references_of_beginDelete hh')
  | beginSave i =>
    obtain ⟨id, spec, dir, hi, hrun, rfl⟩ := step_beginSave hstep
    exact hb.beginSave (mem_of_getElem? hi) hrun
  | act i e =>
    exact fun d h hh h' hh' ↦
      hb d h (mem_references_of_act hb hstep hsep hh) h' (mem_references_of_act hb hstep hsep hh')

/-- **A template that is ready has a snapshot of its own specification**, if specifications that
share a directory share their hash. -/
theorem identified_of_separate {events : List Event}
    (hrun : Run (Builder.step host) (Separate host) init events b) : b.Identified host :=
  Owned.identified
    (hrun.invariant (I := Owned host) (fun _ _ _ hb hsep hstep ↦ hb.step hsep hstep) owned_init)

end Builder

end Steps

/-! ## Two runs -/

def sampleHost : Host where
  sha256 := .verbatim
  files _ := some []
  goarch := "amd64"

def sampleSpec (setting : String) : Spec where
  image := "alpine"
  kernelPath := "/vmlinux"
  env := [setting]

/-- The steps of a call, one after the other. -/
def acts (i : ℕ) (es : List CallEvent) : List Event := es.map (.act i)

/-- A build that boots a VM and stores its snapshot. -/
def coldBuild (i : ℕ) : List Event :=
  acts i [.acquire, .find none, .addBuilding, .capture, .storeCheck, .clear, .rename, .conclude,
    .update]

/-- Two templates with one specification, of which the first is deleted. -/
def sharedRun : List Event :=
  .beginBuild "a" (sampleSpec "A=1") :: coldBuild 0 ++
    .beginBuild "b" (sampleSpec "A=1") :: acts 1 [.acquire, .find (some "a"), .check, .addHit] ++
    .beginDelete "a" :: acts 2 [.scan]

theorem identified_sharedRun : ∃ b,
    Run (Builder.step sampleHost) (Builder.Separate sampleHost) .init sharedRun b ∧
    b.templates.map Template.id = ["b"] ∧ b.Identified sampleHost := by
  refine Run.exists_of_exec _ (by decide +kernel)
    fun b hrun hb ↦ ⟨hb, Builder.identified_of_separate hrun⟩

/-- Is there a template that is ready, with a snapshot of another specification? -/
def Builder.mistaken (host : Host) (b : Builder) : Bool :=
  b.templates.any fun t ↦ t.state = .ready &&
    (t.snapshotDir.bind b.capturedIn).any fun spec ↦ specHash host spec ≠ t.specHash

theorem Builder.not_identified_of_mistaken {host : Host} {b : Builder}
    (h : b.mistaken host = true) : ¬b.Identified host := by
  intro hb
  obtain ⟨t, ht, hmistaken⟩ := any_eq_true.mp h
  rw [Bool.and_eq_true, decide_eq_true_eq, any_eq_true_iff_get] at hmistaken
  obtain ⟨hready, hsome, hne⟩ := hmistaken
  obtain ⟨spec, hspec⟩ := isSome_iff_exists.mp hsome
  obtain ⟨dir, hdir, hcaptured⟩ := bind_eq_some_iff.mp hspec
  have hsame := hb t ht hready dir hdir spec (capturedIn_eq_some_iff.mp hcaptured)
  simp only [hspec, decide_not, Bool.not_eq_true', decide_eq_false_iff_not] at hne
  exact hne hsame

/-- The environment has no part in the key. The second build boots from the first one's snapshot,
which its run finds in the cache, and its template is ready with it. -/
def mistakenRun : List Event :=
  .beginBuild "a" (sampleSpec "A=1") :: coldBuild 0 ++
    .beginBuild "b" (sampleSpec "A=2") ::
      acts 1 [.acquire, .find none, .addBuilding, .skip, .conclude, .update]

theorem not_identified_mistakenRun : ∃ b,
    Run (Builder.step sampleHost) anyStep .init mistakenRun b ∧ ¬b.Identified sampleHost := by
  exact Run.exists_of_exec (·.mistaken sampleHost = true) (by decide +kernel)
    fun b hrun hb ↦ Builder.not_identified_of_mistaken hb

end Gocracker.Templates
