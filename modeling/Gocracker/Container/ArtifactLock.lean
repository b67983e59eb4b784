import Gocracker.Container.Artifacts
import Gocracker.Transition.Custody
import Gocracker.Transition.Run

/-!
# Runs that share a directory

Several runs may work in one directory at the same time, in this process or through a worker: those
with the same key, and any others that are told to. A mutex covers the part in which the artifacts
are looked at and built. The disk is copied and the ramdisk is read after it has been given back.

## What the mutex does not cover

The removal of the staging directory is deferred before the mutex is taken, and deferred calls run
in the opposite order. So it is always made without the mutex, while another run may be extracting
into that directory, and the disk which that run builds may lack files.

What is read after the mutex was given back is still what was built if every later run finds
everything in order. A run with mounts that are copied into the disk never does: it builds the disk
anew, in place.

Midway through a build, others see the files as they would be left behind had the build broken off
there. That is how the steps of a build are told apart here: by what it can leave behind.
-/

namespace Gocracker.Container

open Machine Transition List

/-! ## The state -/

/-- Where a call is: at the lock, inside, or behind it. -/
inductive DirStage where
  | waiting
  /-- Between `lockArtifactDir` and `unlockArtifact`. Has another call removed something of the
  staging directory? -/
  | inside (spoiled : Bool)
  /-- The lock has been given back, and the disk is to be copied. -/
  | copying
  /-- The ramdisk is to be read. -/
  | booting
  /-- The deferred removal of the staging directory is left. -/
  | returning
  | gone
  deriving DecidableEq

/-- A call that prepares artifacts, with the files that it has read. -/
structure DirCall where
  opts : RunOptions
  stage : DirStage := .waiting
  disk : Option (File Disk) := none
  /-- The ramdisk that it has read. -/
  initrd : Option (File Initrd) := none

def DirCall.isInside (c : DirCall) : Bool := c.stage = .inside false || c.stage = .inside true

/-- One directory of artifacts, and the calls that use it. -/
structure ArtifactDir where
  /-- The mutex. -/
  locked : Bool := false
  artifacts : Artifacts := { }
  /-- What was there when the lock was last given back. -/
  committed : Artifacts := { }
  calls : List DirCall := []
  /-- A call that has changed something, with another that was inside at that time. -/
  intrusions : List (ℕ × ℕ) := []

inductive DirCallEvent where
  | lock
  /-- A build has got to some point. -/
  | work (faults : Faults)
  /-- A build comes to its end, and the lock is given back. -/
  | finish (faults : Faults) (damaged : Bool)
  | copyDisk
  | readInitrd
  /-- An error after the lock was given back. -/
  | fail
  /-- A removal of the staging directory makes progress, or comes to its end. -/
  | removeRootfs (last : Bool)

inductive DirEvent where
  | start (opts : RunOptions)
  | act (i : ℕ) (e : DirCallEvent)

/-! ## Steps -/

/-- Is a staging directory filled? -/
def rebuildsDisk (opts : RunOptions) (s : Artifacts) : Bool :=
  hasMaterializedMounts opts.mounts || (inspectCachedRunArtifacts s).isNone

/-- Files of a staging directory are gone. -/
def spoil (calls : List DirCall) : List DirCall :=
  calls.map fun c ↦ if c.isInside then { c with stage := .inside true } else c

open DirCall

namespace ArtifactDir

variable (s : ArtifactDir) (i : ℕ)

/-- The calls other than `i` that are inside. -/
def holders : List ℕ :=
  (List.range s.calls.length).filter fun j ↦ j ≠ i && s.calls[j]?.any isInside

/-- Call `i` changes something in the directory. -/
def touch : List (ℕ × ℕ) :=
  (s.holders i).map (i, ·) ++ s.intrusions

def setCall (c : DirCall) : ArtifactDir :=
  { s with calls := s.calls.set i c }

/-- The lock is given back, with these artifacts. -/
def release (c : DirCall) (a : Artifacts) : ArtifactDir where
  locked := false
  artifacts := a
  committed := a
  calls := s.calls.set i c
  intrusions := s.touch i

end ArtifactDir

variable (out : Outside)

/-- One step of a call. A disk that was built from what was left of the staging directory is not
whole. -/
def advanceDir (s : ArtifactDir) (i : ℕ) (c : DirCall) : DirCallEvent → Option ArtifactDir
  | .lock =>
    if c.stage = .waiting ∧ s.locked = false then
      some { s with locked := true, calls := s.calls.set i { c with stage := .inside false } }
    else none
  | .work faults =>
    if c.isInside then
      some { s with
        artifacts := endState (prepareArtifacts out faults c.opts s.committed)
        intrusions := s.touch i }
    else none
  | .finish faults damaged =>
    if c.isInside ∧ (damaged → c.stage = .inside true ∧ rebuildsDisk c.opts s.committed) then
      match prepareArtifacts out faults c.opts s.committed with
      | .ok _ a =>
        some (s.release i { c with stage := .copying } (if damaged then putDisk .broken a else a))
      | .error _ a => some (s.release i { c with stage := .returning } a)
    else none
  | .copyDisk =>
    if c.stage = .copying ∧ s.artifacts.disk ≠ .missing then
      some (s.setCall i { c with stage := .booting, disk := some s.artifacts.disk })
    else none
  | .readInitrd =>
    if c.stage = .booting ∧ s.artifacts.initrd ≠ .missing then
      some (s.setCall i { c with stage := .returning, initrd := some s.artifacts.initrd })
    else none
  | .fail =>
    if c.stage = .copying ∨ c.stage = .booting then
      some (s.setCall i { c with stage := .returning })
    else none
  | .removeRootfs last =>
    if c.stage = .returning then
      some { s with
        calls := (spoil s.calls).set i { c with stage := if last then .gone else .returning }
        intrusions := s.touch i }
    else none

/-- A call whose repository is not found does not get as far as the directory. -/
def ArtifactDir.step (s : ArtifactDir) : DirEvent → Option ArtifactDir
  | .start opts =>
    match resolveSource out opts with
    | .ok _ => some { s with calls := s.calls ++ [{ opts := opts }] }
    | .error _ => none
  | .act i e => s.calls[i]?.bind fun c ↦ advanceDir out s i c e

/-! ## What should hold -/

/-- What a run makes in an empty directory, if nothing fails. -/
def artifactsFor (opts : RunOptions) : Artifacts :=
  endState (prepareArtifacts out (fun _ ↦ .done) opts { })

/-- What a call has opened is complete, and was built for its options. -/
structure DirCall.OwnFiles (c : DirCall) : Prop where
  disk : ∀ f ∈ c.disk, ∃ d, f = .whole d ∧ (artifactsFor out c.opts).disk = .whole d
  initrd : ∀ f ∈ c.initrd, ∃ i, f = .whole i ∧ (artifactsFor out c.opts).initrd = .whole i

/-- **A real critical section**: nobody else changes anything while a call is inside, and each call
boots from its own files. -/
structure ArtifactDir.Critical (s : ArtifactDir) : Prop where
  alone : s.intrusions = []
  own : ∀ c ∈ s.calls, c.OwnFiles out

/-- All calls have the same options as far as they matter, none of their mounts is copied into the
disk, no ramdisk breaks off, and a staging directory is removed only while nobody is inside. -/
def ArtifactDir.Orderly (o : RunOptions) (s : ArtifactDir) : DirEvent → Prop
  | .start opts => opts.relevant = o.relevant ∧ hasMaterializedMounts opts.mounts = false
  | .act _ (.finish faults _) => faults .initrd ≠ .cutShort
  | .act i (.removeRootfs _) => s.holders i = []
  | _ => True

instance decidableOrderlyDir (o : RunOptions) (s : ArtifactDir) :
    ∀ e : DirEvent, Decidable (s.Orderly o e)
  | .start opts => inferInstanceAs (Decidable
      (opts.relevant = o.relevant ∧ hasMaterializedMounts opts.mounts = false))
  | .act _ (.finish faults _) => inferInstanceAs (Decidable (faults .initrd ≠ .cutShort))
  | .act i (.removeRootfs _) => inferInstanceAs (Decidable (s.holders i = []))
  | .act _ .lock | .act _ (.work _) | .act _ .copyDisk | .act _ .readInitrd
  | .act _ .fail => .isTrue trivial

/-! ## When everything is in order -/

variable {out}

section Complete

variable {faults : Faults} {r o : RunOptions} {imgConfig : ImageConfig} {s : Artifacts}

/-- All files are there, and they are found to be in order. -/
structure Complete (out : Outside) (r : RunOptions) (imgConfig : ImageConfig) (s : Artifacts) :
    Prop extends Built out r imgConfig s where
  config : s.config = .whole imgConfig
  initrd : s.initrd = .whole (initrdFor out r imgConfig)
  spec : cachedGuestSpecMatches out s (specFor r imgConfig) = true

theorem rebuildDisk_config : Triple (fun _ ↦ True) (rebuildDisk out faults r)
    (fun imgConfig s ↦ s.config = .whole imgConfig) fun _ ↦ True := by
  unfold rebuildDisk
  cases rootfsSource r with
  | error e => exact .throw fun _ _ ↦ trivial
  | ok source =>
    refine .bind (check_triple fun _ _ ↦ trivial) fun _ ↦ ?_
    have hdisk : Triple (fun _ ↦ True)
        (write (faults .disk) .ext4 putDisk (diskFor r source (out.config source)))
        (fun _ _ ↦ True) fun _ ↦ True :=
      write_triple (fun _ _ ↦ trivial) (fun _ _ ↦ trivial) fun _ _ _ ↦ trivial
    refine .bind hdisk fun _ ↦ ?_
    have hconfig : Triple (fun _ ↦ True)
        (write (faults .config) .writeImageConfig putConfig (out.config source))
        (fun _ s ↦ s.config = .whole (out.config source)) fun _ ↦ True :=
      write_triple (fun _ _ ↦ rfl) (fun _ _ ↦ trivial) fun _ _ _ ↦ trivial
    refine .bind hconfig fun _ ↦ ?_
    have hspec : Triple (fun s ↦ s.config = .whole (out.config source))
        (writeGuestSpecCache out (faults .spec) (specFor r (out.config source)))
        (fun _ s ↦ s.config = .whole (out.config source)) fun _ ↦ True :=
      write_triple (fun _ hs ↦ hs) (fun _ _ ↦ trivial) fun _ _ _ ↦ trivial
    exact .bind hspec fun _ ↦ .pure fun _ hs ↦ hs

theorem prepareDisk_config : Triple (fun _ ↦ True) (prepareDisk out faults r)
    (fun prepared s ↦ s.config = .whole prepared.1) fun _ ↦ True := by
  unfold prepareDisk
  split_ifs
  · exact .bind rebuildDisk_config fun _ ↦ .pure fun _ hs ↦ hs
  refine .bind (check_triple fun _ _ ↦ trivial) fun _ ↦ .get_bind fun s _ ↦ ?_
  cases hinspect : inspectCachedRunArtifacts s with
  | some imgConfig =>
    rintro _ rfl
    exact (of_inspectCachedRunArtifacts hinspect).2
  | none =>
    have hremove : Triple (· = s) (removeCachedRunArtifacts faults) (fun _ _ ↦ True)
        fun _ ↦ True := by
      intro s' _
      split <;> trivial
    exact .bind hremove fun _ ↦ .bind rebuildDisk_config fun _ ↦ .pure fun _ hs ↦ hs

theorem prepareInitrd_spec (hdigest : out.initDigest ≠ "") {rebuilt : Bool} :
    Triple (fun s ↦ s.config = .whole imgConfig) (prepareInitrd out faults r imgConfig rebuilt)
      (fun _ s ↦ s.config = .whole imgConfig ∧
        cachedGuestSpecMatches out s (specFor r imgConfig) = true) fun _ ↦ True := by
  have hreuse : Triple (fun s : Artifacts ↦ s.config = .whole imgConfig)
      (shouldReuseCachedInitrd out faults (specFor r imgConfig))
      (fun reuse s ↦ s.config = .whole imgConfig ∧
        (reuse = true → cachedGuestSpecMatches out s (specFor r imgConfig) = true))
      fun _ ↦ True := by
    unfold shouldReuseCachedInitrd
    refine .bind (check_triple fun _ _ ↦ trivial) fun _ ↦ .get_bind fun s hs ↦ ?_
    split_ifs with hmissing hmatch
    · refine .pure ?_
      rintro _ rfl
      exact ⟨hs, nofun⟩
    · refine .pure ?_
      rintro _ rfl
      exact ⟨hs, fun _ ↦ hmatch⟩
    have hremove : Triple (· = s)
        (atomically (faults .removeStaleInitrd) .inspectInitrd (putInitrd .missing))
        (fun _ s' ↦ s'.config = .whole imgConfig) fun _ ↦ True := by
      refine atomically_triple ?_ fun _ _ ↦ trivial
      rintro _ rfl
      exact hs
    exact .bind hremove fun _ ↦ .pure fun _ hs' ↦ ⟨hs', nofun⟩
  unfold prepareInitrd
  refine .bind hreuse fun reuse ↦ ?_
  split_ifs with huse
  · rw [Bool.and_eq_true] at huse
    exact .pure fun _ hs ↦ ⟨hs.1, hs.2 huse.1⟩
  have hwrite : Triple (fun s ↦ s.config = .whole imgConfig ∧
        (reuse = true → cachedGuestSpecMatches out s (specFor r imgConfig) = true))
      (write (faults .initrd) .initrd putInitrd (initrdFor out r imgConfig))
      (fun _ s ↦ s.config = .whole imgConfig) fun _ ↦ True :=
    write_triple (fun _ hs ↦ hs.1) (fun _ _ ↦ trivial) fun _ _ _ ↦ trivial
  refine .bind hwrite fun _ ↦ ?_
  refine write_triple (fun _ hs ↦ ⟨hs, ?_⟩) (fun _ _ ↦ trivial) fun _ _ _ ↦ trivial
  simp [cachedGuestSpecMatches, putSpec, File.read, hdigest]

/-- **Where everything is in order, a run changes nothing**, whatever fails. -/
theorem Complete.endState_eq (hs : Complete out r imgConfig s)
    (hresolve : resolveSource out o = .ok r) (hmounts : hasMaterializedMounts r.mounts = false) :
    endState (prepareArtifacts out faults o s) = s := by
  obtain ⟨source, -, -, hdisk⟩ := hs.exists_source
  have hinspect : inspectCachedRunArtifacts s = some imgConfig := by
    simp [inspectCachedRunArtifacts, hdisk, hs.config, File.read]
  have hkeep : ∀ {outcome : Outcome} {e : RunError},
      Triple (· = s) (atomically outcome e id) (fun _ ↦ (· = s)) (· = s) :=
    check_triple fun _ h ↦ h
  have hprepare : Triple (· = s) (prepareArtifacts out faults o) (fun _ ↦ (· = s)) (· = s) := by
    have hcached : Triple (· = s) (prepareDisk out faults r)
        (fun prepared s' ↦ prepared = (imgConfig, false) ∧ s' = s) (· = s) := by
      simp only [prepareDisk, hmounts]
      refine .bind hkeep fun _ ↦ .get_bind ?_
      rintro _ rfl
      rw [hinspect]
      exact .pure fun _ h ↦ ⟨rfl, h⟩
    have hreuse : Triple (· = s) (shouldReuseCachedInitrd out faults (specFor r imgConfig))
        (fun reuse s' ↦ reuse = true ∧ s' = s) (· = s) := by
      refine .bind hkeep fun _ ↦ .get_bind ?_
      rintro _ rfl
      rw [if_neg (by simp [hs.initrd]), if_pos hs.spec]
      exact .pure fun _ h ↦ ⟨rfl, h⟩
    simp only [prepareArtifacts, hresolve]
    refine .bind hcached fun prepared ↦ .of_forall ?_
    rintro _ ⟨rfl, rfl⟩
    refine .bind hreuse fun reuse ↦ .of_forall ?_
    rintro _ ⟨rfl, rfl⟩
    exact .pure fun _ hs ↦ hs
  exact hprepare.endState rfl

end Complete

/-! ### In terms of the options -/

section Settled

variable {faults : Faults} {o : RunOptions} {a a' : Artifacts}

/-- What may be reused is in order. -/
def Trusted (out : Outside) (o : RunOptions) (a : Artifacts) : Prop :=
  ∀ r, resolveSource out o = .ok r → Genuine out r a

/-- Everything is in order. -/
def Settled (out : Outside) (o : RunOptions) (a : Artifacts) : Prop :=
  ∃ r imgConfig, resolveSource out o = .ok r ∧ Complete out r imgConfig a

theorem mounts_of_resolveSource {r : RunOptions} (h : resolveSource out o = .ok r) :
    r.mounts = o.mounts := by
  unfold resolveSource at h
  split_ifs at h
  · rw [Except.ok.inj h]
  simp only [resolveRepo] at h
  split at h
  · cases h
  · split at h
    · cases h
    · rw [← Except.ok.inj h]

theorem Trusted.endState (ha : Trusted out o a) (hcut : faults .initrd ≠ .cutShort) :
    Trusted out o (endState (prepareArtifacts out faults o a)) :=
  fun r hresolve ↦ genuine_endState hresolve hcut (ha r hresolve)

/-- **A run that succeeds leaves everything in order.** -/
theorem settled_of_ok (hdigest : out.initDigest ≠ "") (ha : Trusted out o a)
    (h : prepareArtifacts out faults o a = .ok ⟨⟩ a') : Settled out o a' := by
  obtain ⟨r, hresolve⟩ := exists_resolveSource_of_ok h
  have hfull : Triple (Genuine out r) (prepareArtifacts out faults o)
      (fun _ s ↦ ∃ imgConfig, Complete out r imgConfig s) fun _ ↦ True := by
    simp only [prepareArtifacts, hresolve]
    have hdisk : Triple (Genuine out r) (prepareDisk out faults r)
        (fun prepared s ↦ (Genuine out r s ∧ Built out r prepared.1 s) ∧
          s.config = .whole prepared.1) fun _ ↦ True :=
      (prepareDisk_triple.and prepareDisk_config).weaken (fun _ hs ↦ ⟨hs, trivial⟩)
        (fun _ _ hs ↦ hs) fun _ _ ↦ trivial
    refine .bind hdisk fun prepared ↦ ?_
    refine (prepareInitrd_triple.and (prepareInitrd_spec hdigest)).weaken_post
      (fun _ s hs ↦ ⟨prepared.1, ?_⟩) fun _ _ ↦ trivial
    exact ⟨hs.1.2.1, hs.2.1, hs.1.2.2, hs.2.2⟩
  have hend := hfull a (ha r hresolve)
  rw [h] at hend
  obtain ⟨imgConfig, hcomplete⟩ := hend
  exact ⟨r, imgConfig, hresolve, hcomplete⟩

theorem Settled.endState_eq (ha : Settled out o a)
    (hmounts : hasMaterializedMounts o.mounts = false) :
    endState (prepareArtifacts out faults o a) = a := by
  obtain ⟨r, imgConfig, hresolve, hcomplete⟩ := ha
  rw [← mounts_of_resolveSource hresolve] at hmounts
  exact hcomplete.endState_eq hresolve hmounts

theorem Settled.files (ha : Settled out o a) :
    (∃ d, a.disk = .whole d ∧ (artifactsFor out o).disk = .whole d) ∧
      ∃ i, a.initrd = .whole i ∧ (artifactsFor out o).initrd = .whole i := by
  obtain ⟨r, imgConfig, hresolve, hcomplete⟩ := ha
  obtain ⟨source, hsource, rfl, hdisk⟩ := hcomplete.exists_source
  obtain ⟨fresh, hfresh, hfreshDisk, hfreshInitrd⟩ := prepareArtifacts_empty hresolve hsource
  have hfor : artifactsFor out o = fresh := by rw [artifactsFor, hfresh]; rfl
  rw [hfor]
  exact ⟨⟨_, hdisk, hfreshDisk⟩, ⟨_, hcomplete.initrd, hfreshInitrd⟩⟩

end Settled

/-! ## The invariant -/

/-- The mutex is locked if a call is inside, and then there is only one. Every call that has yet to
open its files has left everything in order. -/
structure ArtifactDir.Sound (out : Outside) (o : RunOptions) (s : ArtifactDir) : Prop
    extends s.Critical out where
  count : s.calls.countP isInside = s.locked.toNat
  agrees : ∀ c ∈ s.calls, c.opts.relevant = o.relevant ∧ hasMaterializedMounts o.mounts = false
  unspoiled : ∀ c ∈ s.calls, c.stage ≠ .inside true
  trusted : Trusted out o s.committed
  stable : Settled out o s.committed → s.artifacts = s.committed
  pending : ∀ c ∈ s.calls, c.stage = .copying ∨ c.stage = .booting → Settled out o s.committed

open ArtifactDir

section Sound

variable {o : RunOptions} {s s' : ArtifactDir} {i : ℕ} {c c' : DirCall} {faults : Faults}

theorem ArtifactDir.holders_eq_nil (h : ∀ d ∈ s.calls.eraseIdx i, d.isInside = false) :
    s.holders i = [] := by
  rw [holders, filter_eq_nil_iff]
  intro j _ hj
  rw [Bool.and_eq_true, decide_eq_true_iff, Option.any_eq_true] at hj
  obtain ⟨hji, d, hd, hinside⟩ := hj
  have hmem : d ∈ s.calls.eraseIdx i := mem_eraseIdx_iff_getElem?.mpr ⟨j, hji, hd⟩
  exact absurd hinside (by simp [h d hmem])

theorem ArtifactDir.touch_eq_nil (halone : s.intrusions = []) (h : s.holders i = []) :
    s.touch i = [] := by
  rw [touch, h, halone]
  rfl

namespace ArtifactDir.Sound

section

variable (hs : s.Sound out o) (hi : s.calls[i]? = some c)
include hs hi

theorem holders_eq_nil (hinside : c.isInside = true) : s.holders i = [] := by
  have hle : s.calls.countP isInside ≤ 1 := hs.count ▸ Bool.toNat_le s.locked
  rw [← (cons_eraseIdx_perm hi).countP_eq, countP_cons_of_pos hinside] at hle
  have hzero : (s.calls.eraseIdx i).countP isInside = 0 := by omega
  refine ArtifactDir.holders_eq_nil fun d hd ↦ ?_
  exact eq_false_of_ne_true (countP_eq_zero.mp hzero d hd)

/-- **The rule for a step of a call.** -/
theorem act (hcalls : s'.calls = s.calls.set i c') (hopts : c'.opts = c.opts)
    (halone : s'.intrusions = []) (hown : c'.OwnFiles out)
    (hcount : c'.isInside.toNat + s.locked.toNat = c.isInside.toNat + s'.locked.toNat)
    (hunspoiled : c'.stage ≠ .inside true) (htrusted : Trusted out o s'.committed)
    (hstable : Settled out o s'.committed → s'.artifacts = s'.committed)
    (hkept : Settled out o s.committed → Settled out o s'.committed)
    (hpending : c'.stage = .copying ∨ c'.stage = .booting → Settled out o s'.committed) :
    s'.Sound out o := by
  have hc := mem_of_getElem? hi
  refine ⟨⟨halone, hcalls ▸ forall_mem_set hs.own hown⟩, ?_,
    hcalls ▸ forall_mem_set hs.agrees (hopts ▸ hs.agrees c hc),
    hcalls ▸ forall_mem_set hs.unspoiled hunspoiled, htrusted, hstable, hcalls ▸
      forall_mem_set (fun d hd hstage ↦ hkept (hs.pending d hd hstage)) hpending⟩
  have hlt := (List.getElem?_eq_some_iff.mp hi).1
  have hbefore := (cons_eraseIdx_perm hi).countP_eq isInside
  have hafter := (set_perm_cons_eraseIdx hlt c').countP_eq isInside
  have hone : ∀ b : Bool, (if b = true then 1 else 0) = b.toNat := by decide
  rw [countP_cons, hs.count, hone] at hbefore
  rw [hcalls, hafter, countP_cons, hone]
  omega

theorem setCall (hopts : c'.opts = c.opts)
    (hown : c'.OwnFiles out) (hinside : c.isInside = false) (hinside' : c'.isInside = false)
    (hpending : c'.stage = .copying ∨ c'.stage = .booting →
      c.stage = .copying ∨ c.stage = .booting) : (s.setCall i c').Sound out o := by
  refine hs.act hi rfl hopts hs.alone hown ?_ ?_ hs.trusted hs.stable id fun h ↦ ?_
  · rw [hinside, hinside']
    rfl
  · intro hstage
    simp [isInside, hstage] at hinside'
  · exact hs.pending c (mem_of_getElem? hi) (hpending h)

theorem lock (hstage : c.stage = .waiting) (hfree : s.locked = false) : Sound out o { s with
      locked := true
      calls := s.calls.set i { c with stage := .inside false } } := by
  have hown := hs.own c (mem_of_getElem? hi)
  refine hs.act hi rfl rfl hs.alone ⟨hown.disk, hown.initrd⟩ ?_ (by simp) hs.trusted hs.stable id
    (by simp)
  simp [isInside, hstage, hfree]

theorem work (hinside : c.isInside = true) : Sound out o { s with
      artifacts := endState (prepareArtifacts out faults c.opts s.committed)
      intrusions := s.touch i } := by
  have hc := mem_of_getElem? hi
  have hcalls : s.calls = s.calls.set i c := by
    obtain ⟨hlt, rfl⟩ := List.getElem?_eq_some_iff.mp hi
    exact (set_getElem_self hlt).symm
  refine hs.act hi hcalls rfl (touch_eq_nil hs.alone (hs.holders_eq_nil hi hinside)) (hs.own c hc)
    rfl (hs.unspoiled c hc) hs.trusted (fun hsettled ↦ ?_) id (hs.pending c hc)
  obtain ⟨hrelevant, hmounts⟩ := hs.agrees c hc
  rw [prepareArtifacts_eq_of_relevant hrelevant]
  exact hsettled.endState_eq hmounts

theorem release (hinside : c.isInside = true) {a : Artifacts} {stage : DirStage}
    (hlocked : s.locked = true) (hinside' : stage ≠ .inside false ∧ stage ≠ .inside true)
    (htrusted : Trusted out o a) (hkept : Settled out o s.committed → Settled out o a)
    (hpending : stage = .copying ∨ stage = .booting → Settled out o a) :
    (s.release i { c with stage := stage } a).Sound out o := by
  have hown := hs.own c (mem_of_getElem? hi)
  refine hs.act hi rfl rfl (touch_eq_nil hs.alone (hs.holders_eq_nil hi hinside))
    ⟨hown.disk, hown.initrd⟩ ?_ hinside'.2 htrusted (fun _ ↦ rfl) hkept hpending
  rw [hinside, hlocked]
  simp [isInside, hinside', ArtifactDir.release]

theorem locked_of_isInside (hinside : c.isInside = true) : s.locked = true := by
  have hpos : 0 < s.calls.countP isInside :=
    countP_pos_iff.mpr ⟨c, mem_of_getElem? hi, hinside⟩
  rw [hs.count] at hpos
  by_contra hfree
  rw [eq_false_of_ne_true hfree] at hpos
  exact Nat.lt_irrefl 0 hpos

end

theorem finish (hdigest : out.initDigest ≠ "") (hs : s.Sound out o) (hi : s.calls[i]? = some c)
    {damaged : Bool} (hcut : faults .initrd ≠ .cutShort)
    (hguard : c.isInside ∧ (damaged → c.stage = .inside true ∧ rebuildsDisk c.opts s.committed)) :
    (∀ u a, prepareArtifacts out faults c.opts s.committed = .ok u a →
      (s.release i { c with stage := .copying } (if damaged then putDisk .broken a else a)).Sound
        out o) ∧
    ∀ e a, prepareArtifacts out faults c.opts s.committed = .error e a →
      (s.release i { c with stage := .returning } a).Sound out o := by
  have hc := mem_of_getElem? hi
  obtain ⟨hrelevant, hmounts⟩ := hs.agrees c hc
  obtain ⟨hinside, hdamaged⟩ := hguard
  have hlocked := hs.locked_of_isInside hi hinside
  have htrusted : Trusted out o (endState (prepareArtifacts out faults o s.committed)) :=
    hs.trusted.endState hcut
  have hkept : Settled out o s.committed →
      Settled out o (endState (prepareArtifacts out faults o s.committed)) := by
    intro hsettled
    rwa [hsettled.endState_eq hmounts]
  rw [prepareArtifacts_eq_of_relevant hrelevant]
  refine ⟨fun u a hrun ↦ ?_, fun e a hrun ↦ ?_⟩
  · have hwhole : damaged = false := by
      by_contra hne
      exact hs.unspoiled c hc (hdamaged (eq_true_of_ne_false hne)).1
    have hsettled : Settled out o a := settled_of_ok hdigest hs.trusted hrun
    rw [hrun] at htrusted hkept
    rw [hwhole]
    exact hs.release hi hinside hlocked (by simp) htrusted hkept fun _ ↦ hsettled
  · rw [hrun] at htrusted hkept
    exact hs.release hi hinside hlocked (by simp) htrusted hkept (by simp)

theorem files (hs : s.Sound out o) (hc : c ∈ s.calls)
    (hstage : c.stage = .copying ∨ c.stage = .booting) :
    (∃ d, s.artifacts.disk = .whole d ∧ (artifactsFor out c.opts).disk = .whole d) ∧
      ∃ i, s.artifacts.initrd = .whole i ∧ (artifactsFor out c.opts).initrd = .whole i := by
  have hsettled := hs.pending c hc hstage
  have hfor : artifactsFor out c.opts = artifactsFor out o := by
    rw [artifactsFor, artifactsFor, prepareArtifacts_eq_of_relevant (hs.agrees c hc).1]
  rw [hfor, hs.stable hsettled]
  exact hsettled.files

theorem removeRootfs (hs : s.Sound out o) (hi : s.calls[i]? = some c)
    (hstage : c.stage = .returning) (hholders : s.holders i = []) {stage : DirStage}
    (hstage' : stage = .gone ∨ stage = .returning) : Sound out o { s with
      calls := (spoil s.calls).set i { c with stage := stage }
      intrusions := s.touch i } := by
  have hspoil : spoil s.calls = s.calls := by
    refine (map_congr_left fun d hd ↦ if_neg fun hinside ↦ ?_).trans (List.map_id _)
    obtain ⟨j, hj⟩ := getElem?_of_mem hd
    have hji : j ≠ i := by
      rintro rfl
      rw [Option.mem_unique hi hj] at hstage
      simp [isInside, hstage] at hinside
    have hmem : j ∈ s.holders i := by
      rw [holders, mem_filter]
      refine ⟨mem_range.mpr (List.getElem?_eq_some_iff.mp hj).1, ?_⟩
      simp [hji, hj, hinside]
    rw [hholders] at hmem
    nomatch hmem
  have hown := hs.own c (mem_of_getElem? hi)
  have hcalls : (spoil s.calls).set i { c with stage := stage } =
      s.calls.set i { c with stage := stage } := by rw [hspoil]
  refine hs.act hi hcalls rfl (touch_eq_nil hs.alone hholders) ⟨hown.disk, hown.initrd⟩ ?_ ?_
    hs.trusted hs.stable id ?_
  · rcases hstage' with rfl | rfl <;> simp [isInside, hstage]
  · rcases hstage' with rfl | rfl <;> simp
  · rcases hstage' with rfl | rfl <;> simp

theorem advance (hdigest : out.initDigest ≠ "") (hs : s.Sound out o) (hi : s.calls[i]? = some c)
    {e : DirCallEvent} (hok : s.Orderly o (.act i e)) (hstep : advanceDir out s i c e = some s') :
    s'.Sound out o := by
  have hc := mem_of_getElem? hi
  have hown := hs.own c hc
  revert hstep
  fun_cases advanceDir out s i c e with rintro ⟨⟩
  | case1 hguard => exact hs.lock hi hguard.1 hguard.2
  | case3 faults hinside => exact hs.work hi hinside
  | case5 faults damaged hguard u a hrun => exact (hs.finish hdigest hi hok hguard).1 u a hrun
  | case6 faults damaged hguard e a hrun => exact (hs.finish hdigest hi hok hguard).2 e a hrun
  | case8 hguard =>
    refine hs.setCall hi rfl ⟨?_, hown.initrd⟩ (by simp [isInside, hguard.1]) rfl
      fun _ ↦ .inl hguard.1
    rintro _ ⟨⟩
    exact (hs.files hc (.inl hguard.1)).1
  | case10 hguard =>
    refine hs.setCall hi rfl ⟨hown.disk, ?_⟩ (by simp [isInside, hguard.1]) rfl
      fun _ ↦ .inr hguard.1
    rintro _ ⟨⟩
    exact (hs.files hc (.inr hguard.1)).2
  | case12 hguard =>
    refine hs.setCall hi rfl ⟨hown.disk, hown.initrd⟩ ?_ rfl fun _ ↦ hguard
    rcases hguard with hstage | hstage <;> simp [isInside, hstage]
  | case14 last hstage => exact hs.removeRootfs hi hstage hok (by cases last <;> simp)

theorem start (hs : s.Sound out o) {opts : RunOptions} (hrelevant : opts.relevant = o.relevant)
    (hmounts : hasMaterializedMounts opts.mounts = false) :
    Sound out o { s with calls := s.calls ++ [{ opts := opts }] } := by
  have hsame : opts.relevant.mounts = o.relevant.mounts := by rw [hrelevant]
  have hmounts' : hasMaterializedMounts o.mounts = false := by
    change hasMaterializedMounts o.relevant.mounts = false
    rw [← hsame]
    exact hmounts
  refine ⟨⟨hs.alone, ?_⟩, ?_, ?_, ?_, hs.trusted, hs.stable, ?_⟩
  · exact forall_mem_append.mpr ⟨hs.own, forall_mem_singleton.mpr ⟨nofun, nofun⟩⟩
  · rw [countP_append, hs.count]
    rfl
  · exact forall_mem_append.mpr ⟨hs.agrees, forall_mem_singleton.mpr ⟨hrelevant, hmounts'⟩⟩
  · exact forall_mem_append.mpr ⟨hs.unspoiled, forall_mem_singleton.mpr nofun⟩
  · exact forall_mem_append.mpr ⟨hs.pending, forall_mem_singleton.mpr (by simp)⟩

theorem step (hdigest : out.initDigest ≠ "") {e : DirEvent} (hs : s.Sound out o)
    (hok : s.Orderly o e) (hstep : s.step out e = some s') : s'.Sound out o := by
  cases e with
  | start opts =>
    simp only [ArtifactDir.step] at hstep
    split at hstep
    · rw [← Option.some.inj hstep]
      exact hs.start hok.1 hok.2
    · nomatch hstep
  | act i e =>
    obtain ⟨c, hi, hadvance⟩ := Option.bind_eq_some_iff.mp hstep
    exact hs.advance hdigest hi hok hadvance

end ArtifactDir.Sound

theorem ArtifactDir.sound_init : ArtifactDir.Sound out o { } where
  alone := rfl
  own _ hc := nomatch hc
  count := rfl
  agrees _ hc := nomatch hc
  unspoiled _ hc := nomatch hc
  trusted _ _ := genuine_empty
  stable _ := rfl
  pending _ hc := nomatch hc

/-- **The directory is a real critical section** in every run in which all calls have the same
options as far as they matter, nothing is copied into the disk, no ramdisk breaks off, and nobody is
inside when a staging directory is removed. -/
theorem ArtifactDir.critical_of_orderly (hdigest : out.initDigest ≠ "") {events : List DirEvent}
    (hrun : Run (step out) (Orderly o) { } events s) : s.Critical out :=
  (hrun.invariant (I := Sound out o) (fun _ _ _ hs hok hstep ↦ hs.step hdigest hok hstep)
    sound_init).toCritical

end Sound

/-! ## Two interleavings -/

def sampleHost : Outside where
  files :=
    { stat := fun _ ↦ none
      abs := fun _ ↦ []
      clone := fun _ _ ↦ none
      findDockerfile := fun _ ↦ none }
  config _ := { cmd := ["sh"] }
  virtioFSModulePath := ""
  initDigest := "d"

def imageRun (memMB : ℕ) : RunOptions where
  image := "alpine"
  memMB := memMB
  diskSizeMB := 2048

def noFaults : Faults := fun _ ↦ .done

def failingAt (step : Step) (outcome : Outcome) : Faults := fun s ↦
  if s = step then outcome else .done

/-- A first build fails. A second one succeeds, and a third call finds everything in order while the
second one is still opening its files. -/
def sharedDirRun : List DirEvent :=
  [.start (imageRun 256), .start (imageRun 512), .start (imageRun 256),
    .act 0 .lock, .act 0 (.work (failingAt .disk .cutShort)),
    .act 0 (.finish (failingAt .disk .cutShort) false), .act 0 (.removeRootfs true),
    .act 1 .lock, .act 1 (.work (failingAt .initrd .cutShort)), .act 1 (.finish noFaults false),
    .act 2 .lock, .act 1 .copyDisk, .act 2 (.work noFaults), .act 1 .readInitrd,
    .act 2 (.finish noFaults false), .act 1 (.removeRootfs true),
    .act 2 .copyDisk, .act 2 .readInitrd]

theorem critical_sharedDirRun : ∃ s,
    Run (step sampleHost) (ArtifactDir.Orderly (imageRun 256)) { } sharedDirRun s ∧
    s.calls.map stage = [.gone, .gone, .returning] ∧ s.Critical sampleHost := by
  refine Run.exists_of_exec _ (by decide +kernel)
    fun s hrun hs ↦ ⟨hs, critical_of_orderly (by decide) hrun⟩

/-- A first build fails. While a second one is extracting, the first call removes the staging
directory. -/
def spoiledDirRun : List DirEvent :=
  [.start (imageRun 256), .start (imageRun 256),
    .act 0 .lock, .act 0 (.finish (failingAt .rootfs .refused) false),
    .act 1 .lock, .act 1 (.work (failingAt .rootfs .cutShort)), .act 0 (.removeRootfs true),
    .act 1 (.finish noFaults true), .act 1 .copyDisk, .act 1 .readInitrd]

theorem not_critical_spoiledDirRun : ∃ s,
    Run (step sampleHost) anyStep { } spoiledDirRun s ∧
    s.intrusions = [(0, 1)] ∧ (∃ c ∈ s.calls, c.disk = some .broken) ∧ ¬s.Critical sampleHost := by
  refine Run.exists_of_exec (fun s ↦ s.intrusions = [(0, 1)] ∧ ∃ c ∈ s.calls, c.disk = some .broken)
    (by decide +kernel) fun s hrun ⟨hintrusions, hdisk⟩ ↦ ⟨hintrusions, hdisk, fun hcritical ↦ ?_⟩
  have halone := hcritical.alone
  rw [hintrusions] at halone
  nomatch halone

end Gocracker.Container
