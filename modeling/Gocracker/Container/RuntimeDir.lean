import Gocracker.Oci.Layer
import Gocracker.Transition.Custody
import Gocracker.Transition.Run

/-!
# Runtime directories

Each VM boots from a disk of its own, in a directory of its own below the work directory. The name
of the directory is made from the id of the VM. If it is already there it is removed, in the belief
that it was left behind; and when the VM is cleaned up, another process is started that removes it
after a minute.

## Two VMs, one directory

The name is made by replacing all unusual characters by an underscore, so different ids may have the
same directory. A single and a double dot however are not unusual: with them it is the directory of
all runs, or the work directory itself. And an id may be used again within the minute, after which
the removal finds the directory of the new VM.

Removing a directory takes a while, during which others go on. So it is a sequence of steps, each of
which removes what is there.
-/

namespace Gocracker.Container

open Posix Transition List

/-! ## Names -/

/-- Dots are allowed, also alone. -/
def isPathRune (c : Char) : Bool :=
  ('a' ≤ c && c ≤ 'z') || ('A' ≤ c && c ≤ 'Z') || ('0' ≤ c && c ≤ '9') ||
    (c = '-' || c = '_' || c = '.')

/-- The name of a directory for an id; different ids may share it. -/
def sanitizeRuntimePathComponent (value : Text) : Text :=
  if trimSpace value = [] then ['v', 'm']
  else (trimSpace value).map fun c ↦ if isPathRune c then c else '_'

def runs : Text := ['r', 'u', 'n', 's']

/-- `workDir/runs`. -/
def runsDir (workDir : Path) : Path := join workDir [runs]

def runtimeDir (workDir : Path) (id : Text) : Path :=
  join workDir [runs, sanitizeRuntimePathComponent id]

/-- One of the two lies in the other, or they are the same. -/
def Meets (p q : Path) : Prop := p <+: q ∨ q <+: p
deriving Decidable

theorem Meets.symm {p q : Path} (h : Meets p q) : Meets q p := Or.symm h

/-! ## The state -/

/-- How far the disk of a VM has come. -/
inductive DiskStage where
  | started
  /-- The directory was found, and is being removed. -/
  | clearing
  /-- The disk is to be copied. -/
  | copying
  /-- The disk is there, and the VM boots from it or runs. -/
  | live
  /-- The VM was cleaned up, and the directory is going to be removed. -/
  | removing
  | gone
  deriving DecidableEq

structure RuntimeVM where
  workDir : Path
  id : Text
  stage : DiskStage
  /-- Is its directory there, as the VM has left it? -/
  disk : Bool
  deriving DecidableEq

def RuntimeVM.dir (v : RuntimeVM) : Path := runtimeDir v.workDir v.id

structure RuntimeHost where
  vms : List RuntimeVM
  /-- Every directory that was removed, with the work directory of its VM. -/
  removed : List (Path × Path)

/-- What is done to the directory of a VM. -/
inductive RuntimeVMEvent where
  /-- What `Stat` says. -/
  | stat (found : Bool)
  /-- A removal makes progress, or comes to its end. -/
  | clear (last : Bool)
  | copy (ok : Bool)
  /-- The run ends with an error: the disk cannot be prepared, or the VM not be booted from it. What
  is in the directory stays there. -/
  | fail
  /-- The function that `prepareBootDisk` has returned is called. -/
  | cleanup
  | reap (last : Bool)
  deriving DecidableEq

inductive RuntimeEvent where
  | start (workDir : Path) (id : Text)
  | act (i : ℕ) (e : RuntimeVMEvent)
  deriving DecidableEq

/-! ## Steps -/

/-- The disks in the directories that are hit are lost. -/
def strike (hit : Path → Bool) (vms : List RuntimeVM) : List RuntimeVM :=
  vms.map fun v ↦ if hit v.dir then { v with disk := false } else v

namespace RuntimeHost

def init : RuntimeHost := ⟨[], []⟩

variable (s : RuntimeHost) (i : ℕ) (v : RuntimeVM)

def setStage (stage : DiskStage) : RuntimeHost :=
  { s with vms := s.vms.set i { v with stage := stage } }

/-- A directory that lies in the one that is removed is lost, and one that it lies in loses a
part. -/
def remove (stage : DiskStage) : RuntimeHost where
  vms := (strike (fun p ↦ Meets v.dir p) s.vms).set i { v with stage := stage, disk := false }
  removed := (v.workDir, v.dir) :: s.removed

/-- A disk is put into the directory, complete or not. -/
def copy (ok : Bool) : RuntimeHost :=
  { s with
    vms := (strike (fun p ↦ v.dir = p) s.vms).set i
      { v with stage := if ok then .live else .gone, disk := ok } }

/-- Is it known that something is there? -/
def isThere (s : RuntimeHost) (p : Path) : Bool := s.vms.any fun v ↦ v.disk && p <+: v.dir

end RuntimeHost

variable (s : RuntimeHost)

/-- A step of a VM. Removals hit every directory that meets its own. -/
def advanceDisk (i : ℕ) (v : RuntimeVM) : RuntimeVMEvent → Option RuntimeHost
  | .stat found =>
    if v.stage = .started then
      if found then some (s.setStage i v .clearing)
      else if s.isThere v.dir then none
      else some (s.setStage i v .copying)
    else none
  | .clear last =>
    if v.stage = .clearing then some (s.remove i v (if last then .copying else .clearing)) else none
  | .copy ok => if v.stage = .copying then some (s.copy i v ok) else none
  | .fail =>
    if v.stage ≠ .removing ∧ v.stage ≠ .gone then some (s.setStage i v .gone) else none
  | .cleanup => if v.stage = .live then some (s.setStage i v .removing) else none
  | .reap last =>
    if v.stage = .removing then some (s.remove i v (if last then .gone else .removing)) else none

def RuntimeHost.step : RuntimeEvent → Option RuntimeHost
  | .start workDir id => some { s with vms := s.vms ++ [⟨workDir, id, .started, false⟩] }
  | .act i e => (s.vms[i]?).bind fun v ↦ advanceDisk s i v e

/-! ## What should hold -/

/-- **A live VM keeps its disk**, and only what lies below the runs is removed. -/
structure RuntimeHost.Safe (s : RuntimeHost) : Prop where
  kept : ∀ v ∈ s.vms, v.stage = .live → v.disk = true
  below : ∀ r ∈ s.removed, Below (runsDir r.1) r.2

/-- Does the VM make use of its directory, or is it going to be removed? -/
def RuntimeVM.holds (v : RuntimeVM) : Bool := v.stage ≠ .started && v.stage ≠ .gone

/-- A VM turns to its directory only if it has a name, and does not meet the directory of another VM
that is prepared, that runs, or that is still to be removed. -/
def RuntimeVM.Separate (others : List RuntimeVM) (v : RuntimeVM) : Prop :=
  IsName (sanitizeRuntimePathComponent v.id) ∧
    ∀ w ∈ others, w.holds = true → ¬Meets v.dir w.dir
deriving Decidable

/-- The condition is asked for when a VM turns to its directory. -/
def RuntimeHost.Separate : RuntimeEvent → Prop
  | .act i (.stat _) => ∀ v ∈ s.vms[i]?, v.Separate (s.vms.eraseIdx i)
  | _ => True

instance decidableSeparate (s : RuntimeHost) : ∀ e : RuntimeEvent, Decidable (s.Separate e)
  | .act i (.stat _) => inferInstanceAs (Decidable (∀ v ∈ s.vms[i]?, _))
  | .start _ _ | .act _ (.clear _) | .act _ (.copy _) | .act _ .fail | .act _ .cleanup
  | .act _ (.reap _) => .isTrue trivial

/-! ## What a step can do -/

/-- What a step of a VM can do. -/
inductive DiskStep (s : RuntimeHost) (i : ℕ) (v : RuntimeVM) :
    RuntimeVMEvent → RuntimeHost → Prop
  | enter {found : Bool} {stage : DiskStage} (hstage : stage = .clearing ∨ stage = .copying) :
      DiskStep s i v (.stat found) (s.setStage i v stage)
  | remove {e : RuntimeVMEvent} {stage : DiskStage} (hholds : v.holds = true)
      (hstage : stage ≠ .live) : DiskStep s i v e (s.remove i v stage)
  | copy {ok : Bool} (hholds : v.holds = true) : DiskStep s i v (.copy ok) (s.copy i v ok)
  | leave : DiskStep s i v .fail (s.setStage i v .gone)
  | cleanup (hholds : v.holds = true) : DiskStep s i v .cleanup (s.setStage i v .removing)

open RuntimeVM

/-- **Every step of a VM is one of these.** -/
theorem DiskStep.of_advanceDisk {s s' : RuntimeHost} {i : ℕ} {v : RuntimeVM} {e : RuntimeVMEvent}
    (h : advanceDisk s i v e = some s') : DiskStep s i v e s' := by
  revert h
  fun_cases advanceDisk s i v e with rintro ⟨⟩
  | case1 | case3 => exact .enter (by simp)
  | case5 last hstage | case13 last hstage =>
    exact .remove (by simp [holds, hstage]) (by cases last <;> simp)
  | case7 ok hstage => exact .copy (by simp [holds, hstage])
  | case9 => exact .leave
  | case11 hstage => exact .cleanup (by simp [holds, hstage])

/-! ## The invariant -/

/-- Two VMs that hold their directories do not meet. -/
structure RuntimeHost.Sound (s : RuntimeHost) : Prop extends s.Safe where
  apart : ∀ {i j : ℕ} {v w : RuntimeVM}, i ≠ j → s.vms[i]? = some v → s.vms[j]? = some w →
    v.holds = true → w.holds = true → ¬Meets v.dir w.dir
  named : ∀ v ∈ s.vms, v.holds = true → IsName (sanitizeRuntimePathComponent v.id)

section Sound

variable {s s' : RuntimeHost} {i j : ℕ} {v v' w : RuntimeVM} {hit : Path → Bool}
  {vms : List RuntimeVM}

theorem RuntimeVM.below_dir (h : IsName (sanitizeRuntimePathComponent v.id)) :
    Below (runsDir v.workDir) v.dir := by
  have hdir : v.dir = runsDir v.workDir ++ [sanitizeRuntimePathComponent v.id] := by
    rw [dir, runtimeDir, runsDir, join, join, cleanRooted, cleanRooted,
      ← singleton_append, ← append_assoc, foldl_append, foldl_cons,
      foldl_nil, cleanStep_of_isName h]
  rw [hdir]
  exact below_append _ (cons_ne_nil _ _)

/-- A VM after a step of VM `i`: that one, or another, which may have lost its disk. -/
theorem getElem?_strike_set (h : ((strike hit vms).set i v')[j]? = some w) :
    (j = i ∧ w = v') ∨ (j ≠ i ∧ ∃ u, vms[j]? = some u ∧
      (w = u ∨ (hit u.dir = true ∧ w = { u with disk := false }))) := by
  rcases getElem?_set_cases h with hnew | ⟨hij, h⟩
  · exact .inl hnew
  · rw [strike, getElem?_map] at h
    obtain ⟨u, hu, rfl⟩ := Option.map_eq_some_iff.mp h
    refine .inr ⟨hij, u, hu, ?_⟩
    split_ifs with hhit
    · exact .inr ⟨hhit, rfl⟩
    · exact .inl rfl

/-- **The rule for a step of a VM.** It strikes only what meets its directory, and only if it holds
that; and it comes to hold it only if it meets no other that is held. -/
theorem RuntimeHost.Sound.act (hs : s.Sound) (hi : s.vms[i]? = some v)
    (hvms : s'.vms = (strike hit s.vms).set i v') (hdir : v'.dir = v.dir) (hid : v'.id = v.id)
    (hholds : v'.holds = true → v.holds = true ∨ v.Separate (s.vms.eraseIdx i))
    (hhit : ∀ p, hit p = true → Meets v.dir p ∧ v.holds = true)
    (hlive : v'.stage = .live → v'.disk = true)
    (hremoved : ∀ r ∈ s'.removed, r ∈ s.removed ∨ (v.holds = true ∧ r = (v.workDir, v.dir))) :
    s'.Sound := by
  have hother : ∀ {j w}, j ≠ i → s.vms[j]? = some w → v'.holds = true → w.holds = true →
      ¬Meets v.dir w.dir := by
    intro j w hj hw hv' hwholds
    rcases hholds hv' with hv | hseparate
    · exact hs.apart hj.symm hi hw hv hwholds
    · exact hseparate.2 w (mem_eraseIdx_iff_getElem?.mpr ⟨j, hj, hw⟩) hwholds
  have hnamed : v'.holds = true → IsName (sanitizeRuntimePathComponent v.id) := by
    intro hv'
    rcases hholds hv' with hv | hseparate
    · exact hs.named v (mem_of_getElem? hi) hv
    · exact hseparate.1
  refine ⟨⟨fun w hw hwlive ↦ ?_, fun r hr ↦ ?_⟩, fun {j k w x} hjk hw hx hwholds hxholds ↦ ?_,
    fun w hw hwholds ↦ ?_⟩
  · rw [hvms] at hw
    obtain ⟨j, hj⟩ := getElem?_of_mem hw
    rcases getElem?_strike_set hj with ⟨-, rfl⟩ | ⟨hji, u, hu, rfl | ⟨hstruck, rfl⟩⟩
    · exact hlive hwlive
    · exact hs.kept w (mem_of_getElem? hu) hwlive
    · obtain ⟨hmeets, hv⟩ := hhit u.dir hstruck
      have huholds : u.holds = true := by simp [holds, show u.stage = .live from hwlive]
      exact absurd hmeets (hs.apart hji.symm hi hu hv huholds)
  · rcases hremoved r hr with hold | ⟨hv, rfl⟩
    · exact hs.below r hold
    · exact below_dir (hs.named v (mem_of_getElem? hi) hv)
  · rw [hvms] at hw hx
    have hsame : ∀ {u w : RuntimeVM} {b : Prop}, (w = u ∨ (b ∧ w = { u with disk := false })) →
        w.dir = u.dir ∧ w.holds = u.holds := by
      rintro u w b (rfl | ⟨-, rfl⟩) <;> exact ⟨rfl, rfl⟩
    rcases getElem?_strike_set hw with ⟨rfl, rfl⟩ | ⟨hji, u, hu, hw'⟩
    · rcases getElem?_strike_set hx with ⟨rfl, -⟩ | ⟨hki, u, hu, hx'⟩
      · exact absurd rfl hjk
      · rw [(hsame hx').2] at hxholds
        rw [hdir, (hsame hx').1]
        exact hother hki hu hwholds hxholds
    · rw [(hsame hw').2] at hwholds
      rw [(hsame hw').1]
      rcases getElem?_strike_set hx with ⟨rfl, rfl⟩ | ⟨hki, u', hu', hx'⟩
      · rw [hdir]
        exact fun hmeets ↦ hother hji hu hxholds hwholds hmeets.symm
      · rw [(hsame hx').2] at hxholds
        rw [(hsame hx').1]
        exact hs.apart hjk hu hu' hwholds hxholds
  · rw [hvms] at hw
    obtain ⟨j, hj⟩ := getElem?_of_mem hw
    rcases getElem?_strike_set hj with ⟨-, rfl⟩ | ⟨-, u, hu, rfl | ⟨-, rfl⟩⟩
    · rw [hid]
      exact hnamed hwholds
    · exact hs.named w (mem_of_getElem? hu) hwholds
    · exact hs.named u (mem_of_getElem? hu) hwholds

theorem strike_nothing : strike (fun _ ↦ false) vms = vms := by
  simp [strike]

theorem RuntimeHost.Sound.setStage (hs : s.Sound) (hi : s.vms[i]? = some v) {stage : DiskStage}
    (hholds : stage = .gone ∨ v.holds = true ∨ v.Separate (s.vms.eraseIdx i))
    (hlive : stage ≠ .live) : (s.setStage i v stage).Sound := by
  have hvms : (s.setStage i v stage).vms =
      (strike (fun _ ↦ false) s.vms).set i { v with stage := stage } := by
    rw [strike_nothing]
    rfl
  refine hs.act hi hvms rfl rfl (fun hv' ↦ ?_) nofun (fun h ↦ absurd h hlive) fun r hr ↦ .inl hr
  rcases hholds with rfl | hholds
  · nomatch hv'
  · exact hholds

theorem DiskStep.sound {e : RuntimeVMEvent} (hstep : DiskStep s i v e s') (hs : s.Sound)
    (hi : s.vms[i]? = some v) (hok : s.Separate (.act i e)) : s'.Sound := by
  cases hstep with
  | enter hstage =>
    refine hs.setStage hi (.inr (.inr (hok v hi))) ?_
    rintro rfl
    simp at hstage
  | remove hholds hstage =>
    refine hs.act hi rfl rfl rfl (fun _ ↦ .inl hholds) (fun p hp ↦ ?_)
      (fun h ↦ absurd h hstage) fun r hr ↦ ?_
    · exact ⟨of_decide_eq_true hp, hholds⟩
    · rcases mem_cons.mp hr with rfl | hr
      · exact .inr ⟨hholds, rfl⟩
      · exact .inl hr
  | @copy ok hholds =>
    refine hs.act hi rfl rfl rfl (fun _ ↦ .inl hholds) (fun p hp ↦ ?_) (fun h ↦ ?_)
      fun r hr ↦ .inl hr
    · rw [← of_decide_eq_true hp]
      exact ⟨.inl (prefix_refl _), hholds⟩
    · cases ok with
      | true => rfl
      | false => nomatch h
  | leave => exact hs.setStage hi (.inl rfl) (by simp)
  | cleanup hholds => exact hs.setStage hi (.inr (.inl hholds)) (by simp)

namespace RuntimeHost

theorem sound_init : init.Sound where
  kept := nofun
  below := nofun
  apart := nofun
  named := nofun

theorem Sound.start (hs : s.Sound) (workDir : Path) (id : Text) :
    Sound { s with vms := s.vms ++ [⟨workDir, id, .started, false⟩] } := by
  have hold : ∀ {j : ℕ} {w : RuntimeVM}, (s.vms ++ [⟨workDir, id, .started, false⟩])[j]? = some w →
      w.stage ≠ .started → s.vms[j]? = some w := by
    intro j w hw hstage
    rcases getElem?_concat_cases hw with hw | ⟨-, rfl⟩
    · exact hw
    · exact absurd rfl hstage
  have hstage : ∀ {w : RuntimeVM}, w.holds = true → w.stage ≠ .started := by
    intro w hw hstarted
    simp [holds, hstarted] at hw
  refine ⟨⟨fun w hw hlive ↦ ?_, hs.below⟩, fun hij hv hw hvholds hwholds ↦ ?_, fun w hw hholds ↦ ?_⟩
  · obtain ⟨j, hj⟩ := getElem?_of_mem hw
    exact hs.kept w (mem_of_getElem? (hold hj (by simp [hlive]))) hlive
  · exact hs.apart hij (hold hv (hstage hvholds)) (hold hw (hstage hwholds)) hvholds hwholds
  · obtain ⟨j, hj⟩ := getElem?_of_mem hw
    exact hs.named w (mem_of_getElem? (hold hj (hstage hholds))) hholds

theorem Sound.step {e : RuntimeEvent} (hs : s.Sound) (hok : s.Separate e)
    (hstep : s.step e = some s') : s'.Sound := by
  cases e with
  | start workDir id =>
    rw [← Option.some.inj hstep]
    exact hs.start workDir id
  | act i e =>
    obtain ⟨v, hi, hadvance⟩ := Option.bind_eq_some_iff.mp hstep
    exact (DiskStep.of_advanceDisk hadvance).sound hs hi hok

/-- **A live VM keeps its disk** in every state of every run in which VMs keep to their own
directories. -/
theorem safe_of_separate {events : List RuntimeEvent}
    (hrun : Run RuntimeHost.step Separate init events s) : s.Safe :=
  (hrun.invariant (I := Sound) (fun _ _ _ hs hok hstep ↦ hs.step hok hstep) sound_init).toSafe

end RuntimeHost

end Sound

/-! ## Two interleavings -/

def sampleWorkDir : Path := [['w']]

/-- The steps of a VM that finds no directory. -/
def prepare (i : ℕ) : List RuntimeEvent := [.act i (.stat false), .act i (.copy true)]

/-- Two VMs run at the same time, and an id is used again after the removal. -/
def separateRun : List RuntimeEvent :=
  [.start sampleWorkDir "a/b".toList, .start sampleWorkDir "c".toList] ++ prepare 0 ++ prepare 1 ++
    [.act 0 .cleanup, .act 0 (.reap false), .act 0 (.reap true),
      .start sampleWorkDir "a_b".toList, .act 2 (.stat true), .act 2 (.clear true),
      .act 2 (.copy true)]

theorem safe_separateRun : ∃ s, Run RuntimeHost.step RuntimeHost.Separate .init separateRun s ∧
    s.vms.map stage = [.gone, .live, .live] ∧ s.Safe := by
  exact Run.exists_of_exec _ (by decide +kernel) fun s hrun hs ↦
    ⟨hs, RuntimeHost.safe_of_separate hrun⟩

/-- A VM runs with the id `a/b` when another one is started with the id `a_b`, and a third one,
whose id is a double dot. -/
def collidingRun : List RuntimeEvent :=
  .start sampleWorkDir "a/b".toList :: prepare 0 ++
    [.start sampleWorkDir "a_b".toList, .act 1 (.stat true), .act 1 (.clear true),
      .start sampleWorkDir "..".toList, .act 2 (.stat true), .act 2 (.clear true)]

theorem not_safe_collidingRun : ∃ s, Run RuntimeHost.step anyStep .init collidingRun s ∧
    (∃ v ∈ s.vms, v.stage = .live ∧ v.disk = false) ∧
    (sampleWorkDir, sampleWorkDir) ∈ s.removed ∧ ¬s.Safe := by
  refine Run.exists_of_exec (fun s ↦ (∃ v ∈ s.vms, v.stage = .live ∧ v.disk = false) ∧
    (sampleWorkDir, sampleWorkDir) ∈ s.removed) (by decide +kernel)
    fun s hrun ⟨hlost, hremoved⟩ ↦ ⟨hlost, hremoved, fun hsafe ↦ ?_⟩
  obtain ⟨v, hv, hlive, hdisk⟩ := hlost
  nomatch hdisk.symm.trans (hsafe.kept v hv hlive)

end Gocracker.Container
