import Gocracker.Container.Options
import Gocracker.Oci.Layer

/-!
# Keys of the warm cache

A run that may use the warm cache looks for a snapshot under a key, and restores it instead of
booting. Whatever the snapshot has frozen and the restoration does not override is then that of the
run which took the snapshot. The key is a hash of labelled parts: the image, the kernel, the command
line, the size of the machine, its architecture and its network. The parts are sorted and joined by
a character that is in none of them, so the key tells its parts (`key_inj`).

## What it does not tell

The parts are not all that is frozen. The environment, the working directory and much else have no
part in the key, and the command line has one only in the form of words joined by blanks, in which
nobody can tell where a word ends, nor where the entry point does. If the run is to capture a
snapshot, the command line is left out altogether. `Unkeyed` is what remains: two runs with one key
freeze the same if and only if they agree on it.
-/

namespace Gocracker

open Machine Posix List

namespace Warmcache

/-! ## The key -/

/-- `strings.Fields`. -/
def fields (t : Text) : List Text := (t.splitOnP isSpace).filter fun w ↦ w ≠ []

/-- Words with one blank between them. -/
def canonicalCmdline (s : Text) : Text := [' '].intercalate (fields s)

/-- What the key of a snapshot is made from. -/
structure KeyInput where
  imageDigest : Text
  kernelHash : Text
  cmdline : Text
  memMB : ℕ
  vcpus : ℤ
  arch : Text
  networkMode : Text
  toolboxVersion : Text

def KeyInput.parts (input : KeyInput) : List Text :=
  ["image=".toList ++ input.imageDigest,
    "kernel=".toList ++ input.kernelHash,
    "cmdline=".toList ++ canonicalCmdline input.cmdline,
    "mem=".toList ++ input.memMB.repr.toList,
    "vcpus=".toList ++ input.vcpus.repr.toList,
    "arch=".toList ++ input.arch,
    "net=".toList ++ input.networkMode,
    "toolbox=".toList ++ input.toolboxVersion]

def nul : Char := '\x00'

/-- The parts are sorted before they are hashed. -/
def key (sha256 : Digest) (input : KeyInput) : Text :=
  sha256.hexSum ([nul].intercalate (input.parts.insertionSort (· ≤ ·)))

/-! ## What a key tells -/

def labels : List Text :=
  ["image=".toList, "kernel=".toList, "cmdline=".toList, "mem=".toList, "vcpus=".toList,
    "arch=".toList, "net=".toList, "toolbox=".toList]

/-- The parts without their labels. -/
def KeyInput.values (input : KeyInput) : List Text :=
  [input.imageDigest, input.kernelHash, canonicalCmdline input.cmdline, input.memMB.repr.toList,
    input.vcpus.repr.toList, input.arch, input.networkMode, input.toolboxVersion]

theorem nul_notMem_parts {input : KeyInput} (h : ∀ v ∈ input.values, nul ∉ v) :
    ∀ p ∈ input.parts, nul ∉ p := by
  intro p hp hnul
  change p ∈ List.zipWith (· ++ ·) labels input.values at hp
  obtain ⟨i, hi, rfl⟩ := mem_iff_getElem.mp hp
  rw [getElem_zipWith, mem_append] at hnul
  rcases hnul with hlabel | hvalue
  · exact (by decide : ∀ l ∈ labels, nul ∉ l) _ (getElem_mem _) hlabel
  · exact h _ (getElem_mem _) hvalue

/-- **A key tells its parts.** -/
theorem key_inj {sha256 : Digest} {a b : KeyInput} (ha : ∀ v ∈ a.values, nul ∉ v)
    (hb : ∀ v ∈ b.values, nul ∉ v) (h : key sha256 a = key sha256 b) : a.values = b.values := by
  have hne : ∀ input : KeyInput, input.parts.insertionSort (· ≤ ·) ≠ [] := by
    intro input hnil
    have hlength := congrArg List.length hnil
    nomatch hlength
  have hfree : ∀ {input : KeyInput}, (∀ v ∈ input.values, nul ∉ v) →
      ∀ p ∈ input.parts.insertionSort (· ≤ ·), nul ∉ p := fun hinput p hp ↦
    nul_notMem_parts hinput p ((mem_insertionSort _).mp hp)
  have hsorted := intercalate_inj (hne a) (hne b) (hfree ha) (hfree hb) (sha256.hexSum_injective h)
  have hperm : a.parts.Perm b.parts :=
    ((perm_insertionSort _ _).symm.trans (Perm.of_eq hsorted)).trans (perm_insertionSort _ _)
  exact eq_of_perm_labelled (by decide : Unmistakable labels) rfl rfl hperm

end Warmcache

namespace Container

open Warmcache

/-! ## Runs -/

variable (opts : RunOptions)

/-- An image, a kernel, and no further disks. -/
def warmCacheInputsReady : Bool :=
  trimSpace opts.image.toList ≠ [] ∧ trimSpace opts.kernelPath.toList ≠ [] ∧ opts.drives = []

def toolboxVersion : String := "0.2.0"

/-- The words of the command, joined. A snapshot that is going to be captured is meant for all
commands. -/
def warmCmdline : Text :=
  if opts.warmCapture then []
  else [' '].intercalate ((opts.entrypoint ++ opts.cmd).map String.toList)

/-- The part of the options that the key looks at. -/
def warmKeyInput (kernelHash : Text) (opts : RunOptions) : KeyInput where
  imageDigest := opts.image.toList
  kernelHash := kernelHash
  cmdline := warmCmdline opts
  memMB := opts.memMB
  vcpus := opts.cpus
  arch := opts.arch.toList
  networkMode := opts.networkMode.toList
  toolboxVersion := toolboxVersion.toList

/-- There is a key if the kernel can be read. -/
def computeWarmCacheKey (sha256 : Digest) (files : String → Option Text) (opts : RunOptions) :
    Option Text :=
  (files opts.kernelPath).map fun kernel ↦ key sha256 (warmKeyInput (sha256.hexSum kernel) opts)

/-- What a snapshot freezes and a restoration leaves as it is. No process: the guest is idle and
waits for commands. -/
@[ext]
structure Frozen where
  process : Option (List String × List String)
  env : List String
  workDir : String
  hosts : List String
  mountTargets : List String
  memMB : ℕ
  cpus : ℤ
  arch : String
  networkMode : String
  diskSizeMB : ℤ
  balloon : Option BalloonConfig
  memoryHotplug : Option MemoryHotplugConfig
  execEnabled : Bool
  warmRuntime : String
  deriving DecidableEq

/-- What the snapshot of a run freezes. -/
def RunOptions.frozen : Frozen where
  process := if opts.interactiveExec then none else some (opts.entrypoint, opts.cmd)
  env := opts.env
  workDir := opts.workDir
  hosts := opts.hosts
  mountTargets := opts.mounts.map Mount.target
  memMB := opts.memMB
  cpus := opts.cpus
  arch := opts.arch
  networkMode := opts.networkMode
  diskSizeMB := opts.diskSizeMB
  balloon := opts.balloon
  memoryHotplug := opts.memoryHotplug
  execEnabled := opts.execEnabled
  warmRuntime := opts.warmRuntime

/-- No string that has a part in the key contains the separator. -/
structure RunOptions.NulFree (opts : RunOptions) : Prop where
  image : nul ∉ opts.image.toList
  words : ∀ w ∈ opts.entrypoint ++ opts.cmd, nul ∉ w.toList
  arch : nul ∉ opts.arch.toList
  networkMode : nul ∉ opts.networkMode.toList

/-- Characters of a word that the key has, if it has the command line: all but the blanks. -/
def RunOptions.told (opts : RunOptions) (c : Char) : Bool := !opts.warmCapture && !isSpace c

/-- What is frozen and not told by the key. Of the words of the command, this is their number and
length and the blanks in them; the other characters stand in the key, in their order, unless the
command line is left out. -/
@[ext]
structure Unkeyed where
  process : Option (List (List (Option Char)) × List (List (Option Char)))
  env : List String
  workDir : String
  hosts : List String
  mountTargets : List String
  diskSizeMB : ℤ
  balloon : Option BalloonConfig
  memoryHotplug : Option MemoryHotplugConfig
  execEnabled : Bool
  warmRuntime : String
  deriving DecidableEq

/-- Words, without the characters that the key tells. -/
def RunOptions.masked (opts : RunOptions) (words : List String) : List (List (Option Char)) :=
  words.map fun w ↦ w.toList.map (mask opts.told)

/-- What the key of a run leaves open. -/
def RunOptions.unkeyed (opts : RunOptions) : Unkeyed where
  process :=
    if opts.interactiveExec then none
    else some (opts.masked opts.entrypoint, opts.masked opts.cmd)
  env := opts.env
  workDir := opts.workDir
  hosts := opts.hosts
  mountTargets := opts.mounts.map Mount.target
  diskSizeMB := opts.diskSizeMB
  balloon := opts.balloon
  memoryHotplug := opts.memoryHotplug
  execEnabled := opts.execEnabled
  warmRuntime := opts.warmRuntime

/-! ## What a line tells -/

/-- A command line in its canonical form has all characters but the blanks. -/
theorem filter_canonicalCmdline (t : Text) :
    (canonicalCmdline t).filter (fun c ↦ !isSpace c) = t.filter fun c ↦ !isSpace c := by
  have hword : ∀ w ∈ fields t, w.filter (fun c ↦ !isSpace c) = w := by
    intro w hw
    refine filter_eq_self.mpr fun c hc ↦ ?_
    rw [(of_mem_splitOnP (mem_filter.mp hw).1 c hc).2]
    rfl
  rw [canonicalCmdline, filter_intercalate (by decide), flatMap_congr hword, ← flatten_splitOnP,
    ← flatten_filter_ne_nil]
  exact flatMap_id

variable {opts : RunOptions}

theorem filter_told :
    (canonicalCmdline (warmCmdline opts)).filter (fun c ↦ !isSpace c) =
      ((opts.entrypoint ++ opts.cmd).map String.toList).flatMap (List.filter opts.told) := by
  rw [filter_canonicalCmdline, warmCmdline]
  cases hcapture : opts.warmCapture with
  | true =>
    have hnone : List.filter opts.told = fun _ ↦ [] := by
      funext w
      exact filter_eq_nil_iff.mpr fun c _ ↦ by simp [RunOptions.told, hcapture]
    rw [if_pos rfl, hnone]
    simp
  | false =>
    have htold : opts.told = fun c ↦ !isSpace c := by
      funext c
      simp [RunOptions.told, hcapture]
    rw [if_neg Bool.false_ne_true, filter_intercalate (by decide), htold]

/-! ## No separator in a part -/

theorem nul_notMem_hexSum (sha256 : Digest) (t : Text) : nul ∉ sha256.hexSum t := by
  intro h
  obtain ⟨n, hn⟩ := exists_hexDigit_of_mem h
  revert n
  decide

theorem nul_notMem_canonicalCmdline {t : Text} (h : nul ∉ t) : nul ∉ canonicalCmdline t := by
  intro hmem
  rcases mem_intercalate hmem with hblank | ⟨w, hw, hnul⟩
  · exact absurd hblank (by decide)
  · exact h (mem_of_mem_splitOnP (mem_filter.mp hw).1 hnul)

theorem RunOptions.NulFree.warmCmdline (h : opts.NulFree) :
    nul ∉ warmCmdline opts := by
  rw [Container.warmCmdline]
  split
  · exact not_mem_nil
  intro hmem
  rcases mem_intercalate hmem with hblank | ⟨t, ht, hnul⟩
  · exact absurd hblank (by decide)
  · obtain ⟨w, hw, rfl⟩ := mem_map.mp ht
    exact h.words w hw hnul

theorem RunOptions.NulFree.values (h : opts.NulFree) {kernelHash : Text}
    (hkernel : nul ∉ kernelHash) : ∀ v ∈ (warmKeyInput kernelHash opts).values, nul ∉ v := by
  have hnumeric : ¬IsNumeric nul := by
    unfold IsNumeric
    decide
  simp only [KeyInput.values, warmKeyInput, forall_mem_cons]
  exact ⟨h.image, hkernel, nul_notMem_canonicalCmdline h.warmCmdline,
    fun hmem ↦ hnumeric (isNumeric_of_mem_repr hmem),
    fun hmem ↦ hnumeric (isNumeric_of_mem_int_repr hmem), h.arch, h.networkMode, by decide⟩

/-! ## The result -/

variable {sha256 : Digest} {files : String → Option Text} {o₁ o₂ : RunOptions} {k : Text}

theorem masked_eq_map (words : List String) :
    opts.masked words = (words.map String.toList).map (List.map (mask opts.told)) := by
  rw [RunOptions.masked, List.map_map]
  rfl

/-- Two runs with one command line in the key run the same command, if the rest is the same too. -/
theorem process_eq_iff (hcmdline : canonicalCmdline (Container.warmCmdline o₁) =
      canonicalCmdline (Container.warmCmdline o₂)) :
    o₁.frozen.process = o₂.frozen.process ↔ o₁.unkeyed.process = o₂.unkeyed.process := by
  have htold := congrArg (List.filter fun c ↦ !isSpace c) hcmdline
  rw [filter_told, filter_told] at htold
  simp only [RunOptions.frozen, RunOptions.unkeyed, masked_eq_map]
  split_ifs with hidle₁ hidle₂
  · exact iff_of_true rfl rfl
  · exact iff_of_false nofun nofun
  · exact iff_of_false nofun nofun
  · rw [Option.some_inj, Option.some_inj, Prod.mk.injEq, Prod.mk.injEq]
    constructor
    · rintro ⟨hentry, hcmd⟩
      rw [hentry, hcmd] at htold ⊢
      have hmask := map_map_mask_congr htold
      rw [map_append, map_append, map_append] at hmask
      exact append_inj hmask (by simp only [length_map])
    · rintro ⟨hentry, hcmd⟩
      -- the words of the entry point come first among the characters that the key has
      rw [map_append, map_append, flatMap_append, flatMap_append] at htold
      obtain ⟨hentry', hrest⟩ := eq_of_map_map_mask hentry htold
      have hcmd' := eq_of_map_map_mask hcmd (congrArg (· ++ ([] : Text)) hrest)
      exact ⟨map_injective_iff.mpr (fun _ _ ↦ String.toList_inj.mp) hentry',
        map_injective_iff.mpr (fun _ _ ↦ String.toList_inj.mp) hcmd'.1⟩

/-- **A key of the warm cache stands for what its snapshot freezes**, for exactly those runs that
agree on what the key does not tell. -/
theorem frozen_eq_iff_unkeyed (h₁ : o₁.NulFree) (h₂ : o₂.NulFree)
    (hk₁ : computeWarmCacheKey sha256 files o₁ = some k)
    (hk₂ : computeWarmCacheKey sha256 files o₂ = some k) :
    o₁.frozen = o₂.frozen ↔ o₁.unkeyed = o₂.unkeyed := by
  obtain ⟨kernel₁, -, hkey₁⟩ := Option.map_eq_some_iff.mp hk₁
  obtain ⟨kernel₂, -, hkey₂⟩ := Option.map_eq_some_iff.mp hk₂
  have hvalues := key_inj (h₁.values (nul_notMem_hexSum sha256 kernel₁))
    (h₂.values (nul_notMem_hexSum sha256 kernel₂)) (hkey₁.trans hkey₂.symm)
  simp only [KeyInput.values, List.cons.injEq] at hvalues
  obtain ⟨-, -, hcmdline, hmem, hcpus, harch, hnetwork, -⟩ := hvalues
  have hprocess := process_eq_iff hcmdline
  have hmem : o₁.memMB = o₂.memMB := nat_eq_of_toList_repr hmem
  have hcpus : o₁.cpus = o₂.cpus := int_eq_of_toList_repr hcpus
  have harch : o₁.arch = o₂.arch := String.toList_inj.mp harch
  have hnetwork : o₁.networkMode = o₂.networkMode := String.toList_inj.mp hnetwork
  rw [Frozen.ext_iff, Unkeyed.ext_iff, hprocess]
  simp only [RunOptions.frozen, RunOptions.unkeyed, hmem, hcpus, harch, hnetwork, true_and]

def shellRun (tapName : String) : RunOptions where
  image := "alpine"
  kernelPath := "/boot/vmlinux"
  memMB := 256
  cpus := 1
  entrypoint := ["/bin/sh"]
  cmd := ["-c", "echo hi"]
  tapName := tapName

theorem frozen_shellRun : ∃ k,
    computeWarmCacheKey .verbatim (fun _ ↦ some ['k']) (shellRun "tap0") = some k ∧
    computeWarmCacheKey .verbatim (fun _ ↦ some ['k']) (shellRun "tap1") = some k ∧
    (shellRun "tap0").frozen = (shellRun "tap1").frozen := by
  have hkey (tap : String) : computeWarmCacheKey .verbatim (fun _ ↦ some ['k']) (shellRun tap) =
        some (key .verbatim (warmKeyInput (Digest.verbatim.hexSum ['k']) (shellRun "tap0"))) := rfl
  have hfree : (shellRun "tap0").NulFree := ⟨by decide, by decide, by decide, by decide⟩
  have hfree' : (shellRun "tap1").NulFree := ⟨by decide, by decide, by decide, by decide⟩
  exact ⟨_, hkey "tap0", hkey "tap1",
    (frozen_eq_iff_unkeyed hfree hfree' (hkey "tap0") (hkey "tap1")).mpr rfl⟩

/-- A run of the same program with a variable of its environment. -/
def tokenRun (token : String) : RunOptions where
  image := "alpine"
  kernelPath := "/boot/vmlinux"
  memMB := 256
  cpus := 1
  entrypoint := ["/bin/server"]
  env := ["TOKEN=" ++ token]

/-- The environment has no part in the key: whoever comes second gets the token of the first. -/
theorem frozen_ne_of_env :
    warmCacheInputsReady (tokenRun "a") = true ∧ warmCacheInputsReady (tokenRun "b") = true ∧
    (tokenRun "a").NulFree ∧ (tokenRun "b").NulFree ∧
    (∀ sha256 : Digest, ∃ k,
      computeWarmCacheKey sha256 (fun _ ↦ some ['k']) (tokenRun "a") = some k ∧
      computeWarmCacheKey sha256 (fun _ ↦ some ['k']) (tokenRun "b") = some k) ∧
    (tokenRun "a").frozen ≠ (tokenRun "b").frozen := by
  refine ⟨by decide, by decide, ?_, ?_, fun _ ↦ ⟨_, rfl, rfl⟩, by decide⟩
  · exact ⟨by decide, by decide, by decide, by decide⟩
  · exact ⟨by decide, by decide, by decide, by decide⟩

end Container

end Gocracker
