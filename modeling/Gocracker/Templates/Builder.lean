import Gocracker.Container.WarmKey
import Gocracker.Transition.Custody
import Gocracker.Transition.Run

/-!
# Building and deleting templates

A template is a specification of a VM together with a directory that holds a snapshot of it. The
registry knows a template by its id and recognises equal specifications by their hash; the directory
however is the one of the warm cache, named by the warm cache's key, which is much coarser.

`Build` first looks for a template with the same hash that is ready, and shares its directory. If
there is none it boots a VM and has its snapshot stored: by the run itself, which looks into the
cache before it boots, or by the builder, after a probe has succeeded. `Delete` takes a template out
of the registry, looks whether another one that is ready has the same directory, and removes it
otherwise.

If `GOCRACKER_WARM_CACHE` is set, the run of a build with a probe uses the cache as well, under a
key with the command line: it may restore what is there, and it stores a snapshot of its own.

## What may come between

Builds with the same hash exclude each other. Nothing else does: the registry has a lock for each
access, and the operations on directories have none. So a call is a sequence of steps, each an
access to the registry or to a directory, and the steps of different calls interleave.
-/

namespace Gocracker.Templates

open Machine Posix Container Warmcache Transition Option Json

/-! ## Specifications -/

/-- Durations are in nanoseconds. -/
structure ReadinessProbe where
  httpPort : ℕ
  httpPath : String
  timeout : ℤ
  interval : ℤ
  deriving DecidableEq

/-- A language runtime that is waited for before the snapshot. -/
structure RuntimeSpec where
  name : String
  timeout : ℤ
  interval : ℤ
  deriving DecidableEq

/-- What a template is made from. -/
structure Spec where
  image : String := ""
  dockerfile : String := ""
  context : String := ""
  kernelPath : String := ""
  memMB : ℕ := 0
  cpus : ℤ := 0
  cmd : List String := []
  env : List String := []
  workDir : String := ""
  readiness : Option ReadinessProbe := none
  runtime : Option RuntimeSpec := none
  deriving DecidableEq

/-- Fields with their zero value are left out, as `omitempty` says. -/
def ReadinessProbe.json (p : ReadinessProbe) : Json :=
  .record [("http_port", some (.nat p.httpPort)),
    ("http_path", omitEmpty "" .str p.httpPath),
    ("timeout", omitEmpty 0 .num p.timeout),
    ("interval", omitEmpty 0 .num p.interval)]

def RuntimeSpec.json (r : RuntimeSpec) : Json :=
  .record [("name", some (.str r.name)),
    ("timeout", omitEmpty 0 .num r.timeout),
    ("interval", omitEmpty 0 .num r.interval)]

def Spec.json (s : Spec) : Json :=
  .record [("image", omitEmpty "" .str s.image),
    ("dockerfile", omitEmpty "" .str s.dockerfile),
    ("context", omitEmpty "" .str s.context),
    ("kernel_path", some (.str s.kernelPath)),
    ("mem_mb", omitEmpty 0 .nat s.memMB),
    ("cpus", omitEmpty 0 .num s.cpus),
    ("cmd", omitEmpty [] (.list .str) s.cmd),
    ("env", omitEmpty [] (.list .str) s.env),
    ("workdir", omitEmpty "" .str s.workDir),
    ("readiness", s.readiness.map ReadinessProbe.json),
    ("runtime", s.runtime.map RuntimeSpec.json)]

/-- Hashed with every specification. -/
def cacheFormatVersion : ℤ := 2

/-- What the hashes and keys depend on: the digest, the files, and the architecture; and whether all
runs use the warm cache. -/
structure Host where
  sha256 : Digest
  files : String → Option Text
  goarch : String
  warmCache : Bool := false

/-- The hash that templates are found by. -/
def specHash (host : Host) (s : Spec) : Text :=
  let canonical := record [("v", some (.num cacheFormatVersion)), ("spec", some s.json)]
  host.sha256.hexSum canonical.render

/-- `Validate`: a kernel, and something to build from. -/
def Spec.valid (s : Spec) : Bool := s.kernelPath ≠ "" && (s.image ≠ "" || s.dockerfile ≠ "")

/-- The run that makes a template. -/
def Spec.asRunOptions (s : Spec) : RunOptions where
  image := s.image
  dockerfile := s.dockerfile
  context := s.context
  kernelPath := s.kernelPath
  memMB := s.memMB
  cpus := s.cpus
  cmd := s.cmd
  env := s.env
  workDir := s.workDir
  execEnabled := true
  warmCapture := true
  interactiveExec := true

/-- The defaults of a run, which have to be repeated for the key to be the same. -/
def lookupOpts (goarch : String) (opts : RunOptions) : RunOptions :=
  { opts with
    arch := if opts.arch = "" then goarch else opts.arch
    memMB := if opts.memMB = 0 then 256 else opts.memMB }

/-- The directory of a specification, if its kernel can be read. The same for all three ways of
capturing a snapshot. -/
def dirOf (host : Host) (s : Spec) : Option Text :=
  computeWarmCacheKey host.sha256 host.files (lookupOpts host.goarch s.asRunOptions)

/-- Is it the builder that takes the snapshot, after a probe? -/
def Spec.probed (s : Spec) : Bool := s.readiness.isSome || s.runtime.isSome

/-- The directory of the run itself, if a probe keeps it from capturing but it uses the cache. -/
def runDirOf (host : Host) (s : Spec) : Option Text :=
  if host.warmCache && s.probed && warmCacheInputsReady s.asRunOptions then
    computeWarmCacheKey host.sha256 host.files
      (lookupOpts host.goarch { s.asRunOptions with warmCapture := false })
  else none

/-! ## The state -/

inductive State where
  | building
  | ready
  | error
  deriving DecidableEq

/-- An entry of the registry. Several may share a directory. -/
structure Template where
  id : String
  specHash : Text
  spec : Spec
  state : State
  snapshotDir : Option Text := none
  lastError : String := ""
  deriving DecidableEq

/-- A directory that exists: with the specification that its snapshot was captured from, if it is
complete. -/
inductive Snapshot where
  | incomplete
  | complete (spec : Spec)
  deriving DecidableEq

/-- How far a build has come. -/
inductive BuildStage where
  /-- For the lock of the hash. -/
  | waiting
  | locked
  /-- A template with the same hash was found, with this directory. -/
  | found (dir : Text)
  /-- And the directory exists. -/
  | hit (dir : Text)
  | missed
  /-- The template is registered, a VM is being started. -/
  | building
  /-- There is a snapshot, in a temporary directory. Its VM may have been restored from the snapshot
  of another specification. -/
  | captured (origin : Spec)
  /-- `Store` has found no complete snapshot in its place, -/
  | clearing (origin : Spec)
  /-- and has removed what was there. -/
  | renaming (origin : Spec)
  | stored
  | returning (dir : Text)
  | failing (error : String)
  | finished
  deriving DecidableEq

/-- How far a deletion has come. -/
inductive DeleteStage where
  /-- The template is out of the registry. -/
  | removed
  /-- No other one refers to the directory. -/
  | removing
  | finished
  deriving DecidableEq

/-- How far the storing of a snapshot has come. -/
inductive SaveStage where
  | captured
  | clearing
  | renaming
  | finished
  deriving DecidableEq

inductive Call where
  | build (id : String) (spec : Spec) (stage : BuildStage)
  | delete (dir : Text) (stage : DeleteStage)
  /-- `captureWarmSnapshot`, next to the build that waits for its probe. -/
  | save (dir : Text) (spec : Spec) (stage : SaveStage)
  deriving DecidableEq

/-- The registry, the directories of snapshots, and the calls in progress. -/
structure Builder where
  templates : List Template
  dirs : Text → Option Snapshot
  calls : List Call

inductive CallEvent where
  | acquire
  /-- `FindBySpecHash`, with the template it returns. -/
  | find (id : Option String)
  | check
  | addHit
  | addBuilding
  /-- A VM was booted, and a snapshot taken. -/
  | capture
  /-- A VM was restored from the cache, and a snapshot taken. -/
  | restore
  /-- A run that found its snapshot in the cache, or could not take one. -/
  | skip
  | fail (error : String)
  | storeCheck
  | clear
  | rename
  | conclude
  | update
  | updateError
  | scan
  /-- A removal is not done at once. -/
  | removeSome
  | removeRest
  | giveUp
  deriving DecidableEq

/-- A call begins or goes on. -/
inductive Event where
  | beginBuild (id : String) (spec : Spec)
  | beginDelete (id : String)
  /-- The run of a build has booted its VM, and is going to store a snapshot of its own. -/
  | beginSave (i : ℕ)
  | act (i : ℕ) (e : CallEvent)
  deriving DecidableEq

/-- What a step of a call does to the registry or to a directory. -/
inductive Action where
  | nothing
  | add (t : Template)
  | ready (id : String) (dir : Text)
  | error (id : String) (message : String)
  | put (dir : Text) (content : Option Snapshot)

/-! ## Steps -/

namespace Builder

def init : Builder where
  templates := []
  dirs := fun _ ↦ none
  calls := []

variable (b : Builder)

/-- A template that is gone is not updated. -/
def update (id : String) (f : Template → Template) : Builder :=
  { b with templates := b.templates.map fun t ↦ if t.id = id then f t else t }

/-- The effect of a step on the registry or on a directory. -/
def perform : Action → Builder
  | .nothing => b
  | .add t => { b with templates := b.templates ++ [t] }
  | .ready id dir => b.update id fun t ↦ { t with state := .ready, snapshotDir := some dir }
  | .error id message => b.update id fun t ↦ { t with state := .error, lastError := message }
  | .put dir content => { b with dirs := Function.update b.dirs dir content }

def idTaken (id : String) : Bool := b.templates.any fun t ↦ t.id = id

/-- Is there a template to be found by this hash? -/
def isReady (hash : Text) : Bool :=
  b.templates.any fun t ↦ t.specHash = hash && t.state = .ready

/-- Does another ready template have the directory? -/
def inUse (dir : Text) : Bool :=
  b.templates.any fun t ↦ t.snapshotDir = some dir && t.state = .ready

/-- The specification that the snapshot in the directory was captured from. -/
def capturedIn (dir : Text) : Option Spec :=
  match b.dirs dir with
  | some (.complete spec) => some spec
  | some .incomplete | none => none

/-- Can the directory be restored from? -/
def isComplete (dir : Text) : Bool :=
  match b.dirs dir with
  | some (.complete _) => true
  | some .incomplete | none => false

end Builder

/-- From the moment it has the lock to its end, a build holds it. -/
def Call.locks (host : Host) (hash : Text) : Call → Bool
  | .build _ spec stage => specHash host spec = hash && stage ≠ .waiting && stage ≠ .finished
  | .delete _ _ | .save .. => false

/-- Whatever goes wrong in `Store` is an error for the builder, but only noted by a run. -/
def Spec.afterStoreError (spec : Spec) (error : String) : BuildStage :=
  if spec.probed then .failing error else .stored

variable (host : Host) (b : Builder)

/-- Any template that is ready and has the hash may be chosen. -/
def findTemplate (spec : Spec) : Option String → Option BuildStage
  | none => if b.isReady (specHash host spec) then none else some .missed
  | some id =>
    (b.templates.find? fun t ↦
        t.id = id && (t.specHash = specHash host spec && t.state = .ready)).map fun t ↦
      match t.snapshotDir with
      | some dir => .found dir
      | none => .missed

def advanceBuild (id : String) (spec : Spec) (stage : BuildStage) :
    CallEvent → Option (BuildStage × Action)
  | .acquire =>
    if stage = .waiting ∧ !b.calls.any (Call.locks host (specHash host spec)) then
      some (.locked, .nothing)
    else none
  | .find chosen =>
    if stage = .locked then (findTemplate host b spec chosen).map fun st ↦ (st, .nothing) else none
  | .check =>
    match stage with
    | .found dir => some (if (b.dirs dir).isSome then .hit dir else .missed, .nothing)
    | _ => none
  | .addHit =>
    match stage with
    | .hit dir =>
      if b.idTaken id then some (.finished, .nothing)
      else some (.finished, .add ⟨id, specHash host spec, spec, .ready, some dir, ""⟩)
    | _ => none
  | .addBuilding =>
    if stage = .missed then
      if b.idTaken id then some (.finished, .nothing)
      else some (.building, .add ⟨id, specHash host spec, spec, .building, none, ""⟩)
    else none
  | .capture =>
    if stage = .building ∧ (spec.probed || warmCacheInputsReady spec.asRunOptions) then
      some (.captured spec, .nothing)
    else none
  | .restore =>
    if stage = .building then
      ((runDirOf host spec).bind b.capturedIn).map fun origin ↦ (.captured origin, .nothing)
    else none
  | .skip => if stage = .building ∧ !spec.probed then some (.stored, .nothing) else none
  | .fail error =>
    match stage with
    | .building | .stored => some (.failing error, .nothing)
    | .captured _ | .renaming _ => some (spec.afterStoreError error, .nothing)
    -- A removal that fails is not noticed.
    | .clearing origin => some (.renaming origin, .nothing)
    | _ => none
  | .storeCheck =>
    match stage with
    | .captured origin =>
      match dirOf host spec with
      | none => some (.failing "templates: warmcache key not derivable from spec", .nothing)
      | some dir => some (if b.isComplete dir then .stored else .clearing origin, .nothing)
    | _ => none
  | .clear =>
    match stage with
    | .clearing origin => (dirOf host spec).map fun dir ↦ (.renaming origin, .put dir none)
    | _ => none
  | .rename =>
    match stage with
    | .renaming origin =>
      -- It also fails if there is something in its way, but a directory may be empty.
      (dirOf host spec).map fun dir ↦
        if b.isComplete dir then (spec.afterStoreError "warmcache: rename", .nothing)
        else (.stored, .put dir (some (.complete origin)))
    | _ => none
  | .conclude =>
    if stage = .stored then
      match dirOf host spec with
      | none => some (.failing "templates: warmcache key not derivable from spec", .nothing)
      | some dir =>
        -- The builder trusts its own `Store`, and looks a run's snapshot up.
        if spec.probed || b.isComplete dir then some (.returning dir, .nothing)
        else some (.failing "templates: warm-cache lookup miss after capture", .nothing)
    else none
  | .update =>
    match stage with
    | .returning dir => some (.finished, .ready id dir)
    | _ => none
  | .updateError =>
    match stage with
    | .failing error => some (.finished, .error id error)
    | _ => none
  | .scan | .removeSome | .removeRest | .giveUp => none

/-- A step of a deletion. It does not take the lock of the hash. -/
def advanceDelete (b : Builder) (dir : Text) (stage : DeleteStage) :
    CallEvent → Option (DeleteStage × Action)
  | .scan =>
    if stage = .removed then
      some (if b.inUse dir then .finished else .removing, .nothing)
    else none
  | .removeSome =>
    if stage = .removing ∧ (b.dirs dir).isSome then some (.removing, .put dir (some .incomplete))
    else none
  | .removeRest => if stage = .removing then some (.finished, .put dir none) else none
  | .giveUp => if stage = .removing then some (.finished, .nothing) else none
  | _ => none

/-- The same `Store`, whose errors are only noted. -/
def advanceSave (b : Builder) (dir : Text) (spec : Spec) (stage : SaveStage) :
    CallEvent → Option (SaveStage × Action)
  | .storeCheck =>
    if stage = .captured then
      some (if b.isComplete dir then .finished else .clearing, .nothing)
    else none
  | .clear => if stage = .clearing then some (.renaming, .put dir none) else none
  | .rename =>
    if stage = .renaming then
      some (.finished, if b.isComplete dir then .nothing else .put dir (some (.complete spec)))
    else none
  | .fail _ =>
    match stage with
    | .captured | .renaming => some (.finished, .nothing)
    | .clearing => some (.renaming, .nothing)
    | .finished => none
  | _ => none

def advance : Call → CallEvent → Option (Call × Action)
  | .build id spec stage, e =>
    (advanceBuild host b id spec stage e).map fun r ↦ (.build id spec r.1, r.2)
  | .delete dir stage, e => (advanceDelete b dir stage e).map fun r ↦ (.delete dir r.1, r.2)
  | .save dir spec stage, e =>
    (advanceSave b dir spec stage e).map fun r ↦ (.save dir spec r.1, r.2)

namespace Builder

def setCall (b : Builder) (i : ℕ) (c : Call) : Builder := { b with calls := b.calls.set i c }

/-- `Delete` begins with the removal from the registry. -/
def beginDelete (b : Builder) (id : String) : Builder :=
  match b.templates.find? fun t ↦ t.id = id with
  -- "templates: template not found"
  | none => b
  | some t =>
    let rest := b.templates.filter fun t ↦ t.id ≠ id
    match t.snapshotDir with
    | none => { b with templates := rest }
    | some dir => { b with templates := rest, calls := b.calls ++ [.delete dir .removed] }

/-- A run that is to store a snapshot of its own, if a build has come so far. -/
def runOf : Call → Option (Text × Spec)
  | .build _ spec .building => (runDirOf host spec).map fun dir ↦ (dir, spec)
  | _ => none

def step : Event → Option Builder
  | .beginBuild id spec =>
    if spec.valid then some { b with calls := b.calls ++ [.build id spec .waiting] } else some b
  | .beginDelete id => some (b.beginDelete id)
  | .beginSave i =>
    ((b.calls[i]?).bind (runOf host)).map fun run ↦
      { b with calls := b.calls ++ [.save run.1 run.2 .captured] }
  | .act i e =>
    (b.calls[i]?).bind fun c ↦ (advance host b c e).map fun r ↦ (b.perform r.2).setCall i r.1

end Builder

/-! ## What a step can do -/

inductive BuildStep (host : Host) (b : Builder) (id : String) (spec : Spec) :
    CallEvent → BuildStage → BuildStage → Action → Prop
  | acquire : BuildStep host b id spec .acquire .waiting .locked .nothing
  | found {chosen : Option String} {t : Template} {dir : Text} (ht : t ∈ b.templates)
      (hhash : t.specHash = specHash host spec) (hready : t.state = .ready)
      (hdir : t.snapshotDir = some dir) :
      BuildStep host b id spec (.find chosen) .locked (.found dir) .nothing
  | notFound {chosen : Option String} :
      BuildStep host b id spec (.find chosen) .locked .missed .nothing
  | hit {dir : Text} : BuildStep host b id spec .check (.found dir) (.hit dir) .nothing
  | gone {dir : Text} : BuildStep host b id spec .check (.found dir) .missed .nothing
  | addHit {dir : Text} : BuildStep host b id spec .addHit (.hit dir) .finished
      (.add ⟨id, specHash host spec, spec, .ready, some dir, ""⟩)
  | addHitTaken {dir : Text} : BuildStep host b id spec .addHit (.hit dir) .finished .nothing
  | addBuilding : BuildStep host b id spec .addBuilding .missed .building
      (.add ⟨id, specHash host spec, spec, .building, none, ""⟩)
  | addBuildingTaken : BuildStep host b id spec .addBuilding .missed .finished .nothing
  | capture : BuildStep host b id spec .capture .building (.captured spec) .nothing
  | restore {dir : Text} {origin : Spec} (hdir : runDirOf host spec = some dir)
      (horigin : b.capturedIn dir = some origin) :
      BuildStep host b id spec .restore .building (.captured origin) .nothing
  | skip (hprobed : spec.probed = false) : BuildStep host b id spec .skip .building .stored .nothing
  | fail {error : String} {st : BuildStage} (hst : st = .building ∨ st = .stored) :
      BuildStep host b id spec (.fail error) st (.failing error) .nothing
  | storeError {e : CallEvent} {error : String} {st : BuildStage} {origin : Spec}
      (hst : st = .captured origin ∨ st = .renaming origin) :
      BuildStep host b id spec e st (spec.afterStoreError error) .nothing
  | clearError {error : String} {origin : Spec} :
      BuildStep host b id spec (.fail error) (.clearing origin) (.renaming origin) .nothing
  | noKey {e : CallEvent} {error : String} {st : BuildStage}
      (hst : st = .stored ∨ ∃ origin, st = .captured origin) :
      BuildStep host b id spec e st (.failing error) .nothing
  | storeComplete {dir : Text} {origin : Spec} (hkey : dirOf host spec = some dir)
      (hcomplete : b.isComplete dir = true) :
      BuildStep host b id spec .storeCheck (.captured origin) .stored .nothing
  | storeIncomplete {dir : Text} {origin : Spec} (hkey : dirOf host spec = some dir)
      (hincomplete : b.isComplete dir = false) :
      BuildStep host b id spec .storeCheck (.captured origin) (.clearing origin) .nothing
  | clear {dir : Text} {origin : Spec} (hkey : dirOf host spec = some dir) :
      BuildStep host b id spec .clear (.clearing origin) (.renaming origin) (.put dir none)
  | rename {dir : Text} {origin : Spec} (hkey : dirOf host spec = some dir) :
      BuildStep host b id spec .rename (.renaming origin) .stored
        (.put dir (some (.complete origin)))
  | conclude {dir : Text} (hkey : dirOf host spec = some dir)
      (hcomplete : spec.probed = true ∨ b.isComplete dir = true) :
      BuildStep host b id spec .conclude .stored (.returning dir) .nothing
  | update {dir : Text} :
      BuildStep host b id spec .update (.returning dir) .finished (.ready id dir)
  | updateError {error : String} :
      BuildStep host b id spec .updateError (.failing error) .finished (.error id error)

inductive DeleteStep (b : Builder) (dir : Text) :
    CallEvent → DeleteStage → DeleteStage → Action → Prop
  | inUse : DeleteStep b dir .scan .removed .finished .nothing
  | scan (hfree : b.inUse dir = false) : DeleteStep b dir .scan .removed .removing .nothing
  | removeSome : DeleteStep b dir .removeSome .removing .removing (.put dir (some .incomplete))
  | removeRest : DeleteStep b dir .removeRest .removing .finished (.put dir none)
  | giveUp : DeleteStep b dir .giveUp .removing .finished .nothing

/-- What a step of storing a snapshot can do. -/
inductive SaveStep (b : Builder) (dir : Text) (spec : Spec) :
    SaveStage → SaveStage → Action → Prop
  | finish {st : SaveStage} (hst : st = .captured ∨ st = .renaming) :
      SaveStep b dir spec st .finished .nothing
  | check (hincomplete : b.isComplete dir = false) :
      SaveStep b dir spec .captured .clearing .nothing
  | clear : SaveStep b dir spec .clearing .renaming (.put dir none)
  | clearError : SaveStep b dir spec .clearing .renaming .nothing
  | rename : SaveStep b dir spec .renaming .finished (.put dir (some (.complete spec)))

section Inversion

variable {host : Host} {b : Builder} {id : String} {spec : Spec} {st st' : BuildStage}
  {dst dst' : DeleteStage} {a : Action} {e : CallEvent} {dir : Text}

theorem BuildStep.of_findTemplate {chosen : Option String}
    (h : findTemplate host b spec chosen = some st) :
    BuildStep host b id spec (.find chosen) .locked st .nothing := by
  cases chosen with
  | none =>
    simp only [findTemplate] at h
    split_ifs at h
    rw [← Option.some.inj h]
    exact .notFound
  | some tid =>
    obtain ⟨t, ht, rfl⟩ := map_eq_some_iff.mp h
    have hprops := List.find?_some ht
    simp only [Bool.and_eq_true, decide_eq_true_eq] at hprops
    cases hsnapshot : t.snapshotDir with
    | none => exact .notFound
    | some d => exact .found (List.mem_of_find?_eq_some ht) hprops.2.1 hprops.2.2 hsnapshot

/-- **Every step of a build is one of these.** -/
theorem BuildStep.of_advanceBuild (h : advanceBuild host b id spec st e = some (st', a)) :
    BuildStep host b id spec e st st' a := by
  revert h
  fun_cases advanceBuild host b id spec st e with try rintro ⟨⟩
  | case1 _ hst | case13 _ hst | case17 _ hst =>
    obtain ⟨rfl, hprobed⟩ := hst
    constructor <;> simpa using hprobed
  | case3 chosen =>
    intro h
    obtain ⟨_, hfind, ⟨⟩⟩ := map_eq_some_iff.mp h
    exact .of_findTemplate hfind
  | case5 dir =>
    split
    · exact .hit
    · exact .gone
  | case15 =>
    intro h
    obtain ⟨origin, hrun, ⟨⟩⟩ := map_eq_some_iff.mp h
    obtain ⟨dir, hdir, horigin⟩ := bind_eq_some_iff.mp hrun
    exact .restore hdir horigin
  | case19 => exact .fail (.inl rfl)
  | case20 => exact .fail (.inr rfl)
  | case21 => exact .storeError (.inl rfl)
  | case22 => exact .storeError (.inr rfl)
  | case25 => exact .noKey (.inr ⟨_, rfl⟩)
  | case26 _ dir hkey =>
    split_ifs with hcomplete
    · exact .storeComplete hkey hcomplete
    · exact .storeIncomplete hkey (eq_false_of_ne_true hcomplete)
  | case28 =>
    intro h
    obtain ⟨d, hkey, ⟨⟩⟩ := map_eq_some_iff.mp h
    exact .clear hkey
  | case30 =>
    intro h
    obtain ⟨d, hkey, heq⟩ := map_eq_some_iff.mp h
    split_ifs at heq <;> obtain ⟨⟩ := heq
    · exact .storeError (.inr rfl)
    · exact .rename hkey
  | case33 dir hkey hcomplete => exact .conclude hkey (Bool.or_eq_true_iff.mp hcomplete)
  | case32 | case34 => exact .noKey (.inl rfl)
  | _ => all_goals constructor

theorem DeleteStep.of_advanceDelete (h : advanceDelete b dir dst e = some (dst', a)) :
    DeleteStep b dir e dst dst' a := by
  revert h
  fun_cases advanceDelete b dir dst e with rintro ⟨⟩
  | case1 hst =>
    subst hst
    split_ifs with huse
    · exact .inUse
    · exact .scan (eq_false_of_ne_true huse)
  | case3 hst =>
    obtain ⟨rfl, -⟩ := hst
    exact .removeSome
  | case5 hst | case7 hst =>
    subst hst
    constructor

theorem SaveStep.of_advanceSave {sst sst' : SaveStage}
    (h : advanceSave b dir spec sst e = some (sst', a)) : SaveStep b dir spec sst sst' a := by
  revert h
  fun_cases advanceSave b dir spec sst e with rintro ⟨⟩
  | case1 =>
    split_ifs with hcomplete
    · exact .finish (.inl rfl)
    · exact .check (eq_false_of_ne_true hcomplete)
  | case3 => exact .clear
  | case5 =>
    split_ifs
    · exact .finish (.inr rfl)
    · exact .rename
  | case7 => exact .finish (.inl rfl)
  | case8 => exact .finish (.inr rfl)
  | case9 => exact .clearError

/-- **Every step of a call** is a step of a build, of a deletion, or of a run that stores its
snapshot. -/
theorem Builder.step_act {i : ℕ} {b' : Builder} (h : b.step host (.act i e) = some b') :
    (∃ id spec st st' a, b.calls[i]? = some (.build id spec st) ∧
      BuildStep host b id spec e st st' a ∧
      b' = (b.perform a).setCall i (.build id spec st')) ∨
    (∃ dir st st' a, b.calls[i]? = some (.delete dir st) ∧ DeleteStep b dir e st st' a ∧
      b' = (b.perform a).setCall i (.delete dir st')) ∨
    ∃ dir spec st st' a, b.calls[i]? = some (.save dir spec st) ∧ SaveStep b dir spec st st' a ∧
      b' = (b.perform a).setCall i (.save dir spec st') := by
  obtain ⟨c, hc, hadvance⟩ := bind_eq_some_iff.mp h
  obtain ⟨r, hr, rfl⟩ := map_eq_some_iff.mp hadvance
  cases c with
  | build id spec st =>
    obtain ⟨⟨st', a⟩, hstep, rfl⟩ := map_eq_some_iff.mp hr
    exact .inl ⟨id, spec, st, st', a, hc, .of_advanceBuild hstep, rfl⟩
  | delete dir st =>
    obtain ⟨⟨st', a⟩, hstep, rfl⟩ := map_eq_some_iff.mp hr
    exact .inr (.inl ⟨dir, st, st', a, hc, .of_advanceDelete hstep, rfl⟩)
  | save dir spec st =>
    obtain ⟨⟨st', a⟩, hstep, rfl⟩ := map_eq_some_iff.mp hr
    exact .inr (.inr ⟨dir, spec, st, st', a, hc, .of_advanceSave hstep, rfl⟩)

/-- A run that stores a snapshot belongs to a build. -/
theorem Builder.step_beginSave {i : ℕ} {b' : Builder} (h : b.step host (.beginSave i) = some b') :
    ∃ id spec dir, b.calls[i]? = some (.build id spec .building) ∧ runDirOf host spec = some dir ∧
      b' = { b with calls := b.calls ++ [.save dir spec .captured] } := by
  obtain ⟨run, hrun, rfl⟩ := map_eq_some_iff.mp h
  obtain ⟨c, hc, hrun⟩ := bind_eq_some_iff.mp hrun
  revert hrun
  fun_cases runOf host c with intro hrun
  | case1 id spec =>
    obtain ⟨dir, hdir, rfl⟩ := map_eq_some_iff.mp hrun
    exact ⟨id, spec, dir, hc, hdir, rfl⟩
  | case2 => nomatch hrun

end Inversion

end Gocracker.Templates
