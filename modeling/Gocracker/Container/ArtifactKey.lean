import Gocracker.Container.Options

/-!
# Keys of the artifact cache

What a run boots from, a disk image and an initial ramdisk, is kept in a directory named by a hash
of the options. The hash is of a Json text, so it tells every option that has a member in the
object: two runs that share a directory agree on those (`runArtifactCacheKey_inj`).

The options that have no member are reset by `RunOptions.keyed`. Among them are two that have an
influence on what is built: the path of the Dockerfile in a repository, and whether there is a
console.
-/

namespace Gocracker.Container

open Machine Posix Json

/-! ## Json of the parts -/

/-- `normalizedStringMap`: no map, if it has no entries. -/
def StringMap.json (m : StringMap) : Json :=
  if m.entries = [] then .null else .obj (m.entries.map fun e ↦ (e.1, .str e.2))

def KernelModule.json (m : KernelModule) : Json :=
  .record [("Name", some (.str m.name)), ("HostPath", some (.str m.hostPath))]

def Mount.json (m : Mount) : Json :=
  .record [("source", some (.str m.source)),
    ("target", some (.str m.target)),
    ("read_only", some (.bool m.readOnly)),
    ("populate", some (.bool m.populate)),
    ("backend", some (.str m.backend))]

def TokenBucketConfig.json (c : TokenBucketConfig) : Json :=
  .record [("size", omitEmpty 0 .nat c.size),
    ("one_time_burst", omitEmpty 0 .nat c.oneTimeBurst),
    ("refill_time_ms", omitEmpty 0 .nat c.refillTimeMs)]

/-- A structure is never left out, not even an empty one. -/
def RateLimiterConfig.json (c : RateLimiterConfig) : Json :=
  .record [("bandwidth", some c.bandwidth.json), ("ops", some c.ops.json)]

def DriveConfig.json (c : DriveConfig) : Json :=
  .record [("id", omitEmpty "" .str c.id),
    ("path", omitEmpty "" .str c.path),
    ("root", omitEmpty false .bool c.root),
    ("read_only", omitEmpty false .bool c.readOnly),
    ("rate_limiter", c.rateLimiter.map RateLimiterConfig.json)]

def BalloonConfig.json (c : BalloonConfig) : Json :=
  .record [("amount_mib", omitEmpty 0 .nat c.amountMiB),
    ("deflate_on_oom", omitEmpty false .bool c.deflateOnOOM),
    ("stats_polling_interval_s", omitEmpty 0 .num c.statsPollingIntervalS),
    ("free_page_hinting", omitEmpty false .bool c.freePageHinting),
    ("free_page_reporting", omitEmpty false .bool c.freePageReporting),
    ("auto", omitEmpty "" .str c.auto),
    ("snapshot_pages", omitEmpty [] (.list .nat) c.snapshotPages)]

def MemoryHotplugConfig.json (c : MemoryHotplugConfig) : Json :=
  .record [("total_size_mib", omitEmpty 0 .nat c.totalSizeMiB),
    ("slot_size_mib", omitEmpty 0 .nat c.slotSizeMiB),
    ("block_size_mib", omitEmpty 0 .nat c.blockSizeMiB)]

/-! ## The key -/

def runArtifactCacheVersion : ℤ := 2

/-- The payload is a map, whose keys are written in their order. -/
def runArtifactCachePayload (opts : RunOptions) : Json :=
  .obj [("arch", .str opts.arch),
    ("artifact_cache_version", .num runArtifactCacheVersion),
    ("balloon", .pointer BalloonConfig.json opts.balloon),
    ("build_args", opts.buildArgs.json),
    ("cmd", .slice .str opts.cmd),
    ("context", .str opts.context),
    ("disk_size_mb", .num opts.diskSizeMB),
    ("dockerfile", .str opts.dockerfile),
    ("drives", .slice DriveConfig.json opts.drives),
    ("entrypoint", .slice .str opts.entrypoint),
    ("env", .slice .str opts.env),
    ("exec_enabled", .bool opts.execEnabled),
    ("hosts", .slice .str opts.hosts),
    ("image", .str opts.image),
    ("interactive_exec", .bool opts.interactiveExec),
    ("kernelModules", .slice KernelModule.json opts.kernelModules),
    ("memory_hotplug", .pointer MemoryHotplugConfig.json opts.memoryHotplug),
    ("metadata", opts.metadata.json),
    ("mounts", .slice Mount.json opts.mounts),
    ("pid1_mode", .str opts.pid1Mode),
    ("repo_ref", .str opts.repoRef),
    ("repo_subdir", .str opts.repoSubdir),
    ("repo_url", .str opts.repoURL),
    ("workdir", .str opts.workDir)]

/-- The name of a directory of artifacts. -/
def stableHashKey (sha256 : Digest) (payload : Json) : Text := sha256.hexSum payload.render

/-- The key of a run, from the options in its payload. -/
def runArtifactCacheKey (sha256 : Digest) (opts : RunOptions) : Text :=
  stableHashKey sha256 (runArtifactCachePayload opts)

/-- The options that have a part in the key, and no others. -/
def RunOptions.keyed (opts : RunOptions) : RunOptions where
  image := opts.image
  dockerfile := opts.dockerfile
  context := opts.context
  repoURL := opts.repoURL
  repoRef := opts.repoRef
  repoSubdir := opts.repoSubdir
  arch := opts.arch
  cmd := opts.cmd
  entrypoint := opts.entrypoint
  env := opts.env
  hosts := opts.hosts
  workDir := opts.workDir
  pid1Mode := opts.pid1Mode
  mounts := opts.mounts
  kernelModules := opts.kernelModules
  diskSizeMB := opts.diskSizeMB
  buildArgs := opts.buildArgs
  metadata := opts.metadata
  execEnabled := opts.execEnabled
  interactiveExec := opts.interactiveExec
  drives := opts.drives
  balloon := opts.balloon
  memoryHotplug := opts.memoryHotplug

/-! ## What a key tells -/

theorem StringMap.json_injective : Function.Injective StringMap.json := by
  rintro ⟨as, ha⟩ ⟨bs, hb⟩ h
  have hentry : Function.Injective fun e : String × String ↦ (e.1, str e.2) := by
    rintro ⟨k, v⟩ ⟨l, w⟩ he
    rw [Prod.mk.injEq, str.injEq] at he
    exact Prod.ext he.1 he.2
  unfold StringMap.json at h
  split_ifs at h with has hbs hbs
  · simp only [StringMap.mk.injEq]
    exact has.trans hbs.symm
  · simp only [StringMap.mk.injEq]
    exact List.map_injective_iff.mpr hentry (obj.inj h)

theorem KernelModule.json_injective : Function.Injective KernelModule.json := by
  rintro ⟨_, _⟩ ⟨_, _⟩ h
  have hfields := record_inj (by rfl) (by simp) h
  simpa using hfields

theorem Mount.json_injective : Function.Injective Mount.json := by
  rintro ⟨_, _, _, _, _⟩ ⟨_, _, _, _, _⟩ h
  have hfields := record_inj (by rfl) (by simp) h
  simpa using hfields

theorem TokenBucketConfig.json_injective : Function.Injective TokenBucketConfig.json := by
  rintro ⟨_, _, _⟩ ⟨_, _, _⟩ h
  have hfields := record_inj (by rfl) (by simp) h
  simpa [(omitEmpty_injective nat_injective).eq_iff] using hfields

theorem RateLimiterConfig.json_injective : Function.Injective RateLimiterConfig.json := by
  rintro ⟨_, _⟩ ⟨_, _⟩ h
  have hfields := record_inj (by rfl) (by simp) h
  simpa [TokenBucketConfig.json_injective.eq_iff] using hfields

theorem DriveConfig.json_injective : Function.Injective DriveConfig.json := by
  rintro ⟨_, _, _, _, _⟩ ⟨_, _, _, _, _⟩ h
  have hfields := record_inj (by rfl) (by simp) h
  simpa [(omitEmpty_injective str_injective).eq_iff,
    (omitEmpty_injective bool_injective).eq_iff,
    (Option.map_injective RateLimiterConfig.json_injective).eq_iff] using hfields

theorem BalloonConfig.json_injective : Function.Injective BalloonConfig.json := by
  rintro ⟨_, _, _, _, _, _, _⟩ ⟨_, _, _, _, _, _, _⟩ h
  have hfields := record_inj (by rfl) (by simp) h
  simpa [(omitEmpty_injective nat_injective).eq_iff,
    (omitEmpty_injective bool_injective).eq_iff,
    (omitEmpty_injective num_injective).eq_iff,
    (omitEmpty_injective str_injective).eq_iff,
    (omitEmpty_injective (list_injective nat_injective)).eq_iff] using hfields

theorem MemoryHotplugConfig.json_injective : Function.Injective MemoryHotplugConfig.json := by
  rintro ⟨_, _, _⟩ ⟨_, _, _⟩ h
  have hfields := record_inj (by rfl) (by simp) h
  simpa [(omitEmpty_injective nat_injective).eq_iff] using hfields

variable {sha256 : Digest} {o₁ o₂ : RunOptions}

/-- **A key tells the options that have a part in it.** -/
theorem runArtifactCacheKey_inj
    (h : runArtifactCacheKey sha256 o₁ = runArtifactCacheKey sha256 o₂) : o₁.keyed = o₂.keyed := by
  have hpayload := obj.inj (render_injective (sha256.hexSum_injective h))
  have hballoon := pointer_injective BalloonConfig.json_injective fun _ ↦ Json.noConfusion
  have hhotplug :=
    pointer_injective MemoryHotplugConfig.json_injective fun _ ↦ Json.noConfusion
  simp only [List.cons.injEq, Prod.mk.injEq, str.injEq, num.injEq,
    bool.injEq, StringMap.json_injective.eq_iff,
    (slice_injective str_injective).eq_iff,
    (slice_injective DriveConfig.json_injective).eq_iff,
    (slice_injective KernelModule.json_injective).eq_iff,
    (slice_injective Mount.json_injective).eq_iff,
    hballoon.eq_iff, hhotplug.eq_iff, true_and, and_true] at hpayload
  obtain ⟨harch, hball, hargs, hcmd, hcontext, hsize, hdockerfile, hdrives, hentry, henv, hexec,
    hhosts, himage, hinteractive, hmodules, hhot, hmeta, hmounts, hpid1, href, hsubdir, hurl,
    hworkdir⟩ := hpayload
  simp only [RunOptions.keyed, harch, hball, hargs, hcmd, hcontext, hsize, hdockerfile, hdrives,
    hentry, henv, hexec, hhosts, himage, hinteractive, hmodules, hhot, hmeta, hmounts, hpid1, href,
    hsubdir, hurl, hworkdir]

end Gocracker.Container
