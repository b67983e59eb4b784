import Gocracker.Oci.Layer
import Gocracker.Posix.Area
import Gocracker.Transition.Run

/-!
# Migration bundles

The target of a migration receives two bundles, compressed tar archives, and unpacks both into the
directory of the session: a base bundle when the migration is prepared, and a second one, with the
patches, when it is finalized. A bundle that cannot be unpacked to its end leaves behind what was
unpacked; the second one may then be sent again. At the end the patches are applied: the list of
patches names files, relative to the directory, which are opened and written to.

## Names and places

`extractTarGz` looks at the name of an entry only, after cleaning it: it has to stay in the
directory. The links that entries make are not looked at, neither when they are made nor when a
later entry goes through one. The names in the list of patches are not looked at at all.
-/

namespace Gocracker

open Machine Posix Transition List Option

/-! ## Unpacking -/

/-- The part of a header that decides where something is done. `readable`: the contents can be read
to their end. -/
structure BundleHeader where
  name : Text
  typeflag : TypeFlag
  linkname : Text
  readable : Bool

/-- The patches for one file. `complete`: they can all be read and written. -/
structure MigrationFilePatch where
  path : Text
  complete : Bool

/-- Why a bundle is refused, or that the file system has failed. -/
inductive BundleError where
  | os (e : Errno)
  | invalidPath (name : Text)
  | unsupported (typeflag : TypeFlag)
  | read
  /-- The list of patches cannot be decoded. -/
  | decode
  deriving DecidableEq

abbrev BundleM := EStateM BundleError World

namespace Bundle

def run {α : Type} (c : EStateM Errno World α) : BundleM α := EStateM.adaptExcept .os c

variable (dir : Path)

/-- A relative name may lead out of the directory, which the caller checks. -/
def entryTarget (name : Text) : Path := join dir (cleanComponents name)

/-- The check of the name: the target is the directory, or its text goes on after a slash. -/
def InDir (dir target : Path) : Prop := (dir ≠ [] ∧ Below dir target) ∨ target = dir
deriving Decidable

/-- The part of an entry's path at which a link would be followed. -/
def followed (hdr : BundleHeader) : Path :=
  match hdr.typeflag with
  | .dir | .reg => entryTarget dir hdr.name
  | .symlink => (entryTarget dir hdr.name).dropLast
  | _ => []

def extractTarGz (hdr : BundleHeader) : BundleM PUnit := do
  let target := entryTarget dir hdr.name
  if InDir dir target then
    match hdr.typeflag with
    | .dir => run (mkdirAll target.reverse)
    | .reg =>
      run (mkdirAll target.dropLast.reverse)
      run (sys (·.openTrunc target))
      if hdr.readable = false then throw .read
    | .symlink =>
      run (mkdirAll target.dropLast.reverse)
      run (sys (·.symlink hdr.linkname target))
    | typeflag => throw (.unsupported typeflag)
  else throw (.invalidPath hdr.name)

/-! ## Patches -/

def migrationPatchMeta : Text := "patches.json".toList

def migrationPatchData : Text := "patches.bin".toList

/-- A double dot in the path may lead out of the directory. -/
def patchTarget (path : Text) : Path := join dir (components path)

/-- The file is opened for writing, through a link if there is one. -/
def applyFilePatch (patch : MigrationFilePatch) : BundleM PUnit := do
  run (sys (·.openWrite (patchTarget dir patch.path)))
  if patch.complete = false then throw .read

/-- `ApplyMigrationPatches`, as far as it opens files, with what the list of patches is decoded
to. -/
def applyMigrationPatches (patchSet : Option (List MigrationFilePatch)) :
    BundleM PUnit := do
  let w ← get
  match w.stat (join dir [migrationPatchMeta]) with
  | .error .enoent => pure ⟨⟩
  | .error e => throw (.os e)
  | .ok .dir => throw (.os .eisdir)
  | .ok _ =>
    match patchSet with
    | none => throw .decode
    | some [] => pure ⟨⟩
    | some patches =>
      match w.stat (join dir [migrationPatchData]) with
      | .error e => throw (.os e)
      | .ok _ => patches.forM (applyFilePatch dir)

end Bundle

/-! ## A session -/

/-- Where the destination of a migration is. -/
inductive SessionStage where
  /-- The base bundle is being received. -/
  | preparing
  | prepared
  /-- The second bundle is being received. -/
  | finalizing
  | finalized
  | closed
  deriving DecidableEq

/-- A session: the host's files, and how far it has come. -/
structure MigrationSession where
  world : World
  stage : SessionStage

/-- What an upload brings: entries of an archive, its end, or patches. -/
inductive BundleEvent where
  | entry (hdr : BundleHeader)
  /-- The archive could not be read further. -/
  | readError
  | endOfUpload
  /-- A second bundle comes. -/
  | finalize
  | applyPatches (patchSet : Option (List MigrationFilePatch))

/-- What an upload that fails leaves: no session, or one that waits for another upload. -/
def SessionStage.onError : SessionStage → SessionStage
  | .preparing => .closed
  | .finalizing => .prepared
  | stage => stage

def SessionStage.receives : SessionStage → Bool
  | .preparing | .finalizing => true
  | _ => false

open Gocracker.Bundle

namespace MigrationSession

def init (w : World) : MigrationSession := ⟨{ w with touched := [] }, .preparing⟩

variable (dir : Path) (s : MigrationSession)

def step : BundleEvent → Option MigrationSession
  | .entry hdr =>
    if s.stage.receives then
      match extractTarGz dir hdr s.world with
      | .ok _ w => some { s with world := w }
      | .error _ w => some ⟨w, s.stage.onError⟩
    else none
  | .readError => if s.stage.receives then some { s with stage := s.stage.onError } else none
  | .endOfUpload =>
    match s.stage with
    | .preparing => some { s with stage := .prepared }
    | .finalizing => some { s with stage := .finalized }
    | _ => none
  | .finalize => if s.stage = .prepared then some { s with stage := .finalizing } else none
  | .applyPatches patchSet =>
    if s.stage = .finalized then
      match applyMigrationPatches dir patchSet s.world with
      | .ok _ w | .error _ w => some ⟨w, .closed⟩
    else none

/-- The condition on a step: no link is on the way to an entry, nor in the place of a directory or
file; and a patch is for a file in the directory, with no link on the way. -/
def Unlinks : BundleEvent → Prop
  | .entry hdr => Unlinked s.world.linkAt [] (followed dir hdr)
  | .applyPatches (some patches) => ∀ patch ∈ patches,
    Below dir (patchTarget dir patch.path) ∧
      Unlinked s.world.linkAt [] (patchTarget dir patch.path)
  | _ => True

instance (dir : Path) (s : MigrationSession) (e : BundleEvent) : Decidable (s.Unlinks dir e) := by
  unfold Unlinks
  split <;> infer_instance

end MigrationSession

/-! ## Staying in the directory -/

namespace Bundle

variable {dir : Path} {w₀ : World} {L : Set Path} {hdr : BundleHeader}

theorem InDir.eq_append {target : Path} (h : InDir dir target) : ∃ cs, target = dir ++ cs := by
  rcases h with ⟨-, ⟨cs, rfl⟩, -⟩ | rfl
  · exact ⟨cs, rfl⟩
  · exact ⟨[], (append_nil _).symm⟩

theorem run_mkdirAll_triple (hdir : Rooted dir w₀) {target : Path} (hclean : Clean target)
    (hpre : ∃ cs, target <+: dir ++ cs) (hway : way target ⊆ L) :
    Triple (Safe (.below dir) w₀ L) (run (mkdirAll target.reverse))
      (fun _ ↦ Safe (.below dir) w₀ L) (Within (.below dir) w₀) := by
  obtain ⟨cs, hpre⟩ := hpre
  refine .adaptExcept (.weaken (mkdirAll_safe hclean hway fun q hq ↦ ?_)
    (fun _ h ↦ h) (fun _ _ h ↦ h) fun _ h ↦ h.within)
  exact hdir.mem_below_or (hq.trans hpre)

/-- **One entry** of a bundle, to which the way is clear. -/
theorem extractTarGz_triple (hdir : Rooted dir w₀) (hway : way (followed dir hdr) ⊆ L) :
    Leads (Safe (.below dir) w₀ L) (extractTarGz dir hdr) (Within (.below dir) w₀) := by
  rw [extractTarGz]
  rw [followed] at hway
  generalize htarget : entryTarget dir hdr.name = target at hway
  have hclean : Clean target := htarget ▸ clean_join _ _
  split
  · rename_i hin
    obtain ⟨cs, rfl⟩ := hin.eq_append
    have hparent : ∃ cs', (dir ++ cs).dropLast <+: dir ++ cs' := ⟨cs, dropLast_prefix _⟩
    split
    · rename_i hflag
      rw [hflag] at hway
      exact (run_mkdirAll_triple hdir hclean ⟨cs, prefix_refl _⟩ hway).weaken_post
        (fun _ _ h ↦ h.within) fun _ h ↦ h
    · rename_i hflag
      rw [hflag] at hway
      have hdirectory : dir ++ cs ∈ Area.below dir ∨ w₀.kindAt (dir ++ cs) = some .dir := by
        by_cases hnil : cs = []
        · rw [hnil, append_nil]
          exact .inr hdir.isDir
        · exact .inl (below_append dir hnil)
      refine .bind (run_mkdirAll_triple hdir hclean.dropLast hparent
        ((way_dropLast_subset _).trans hway)) fun _ ↦ ?_
      refine .bind (R := fun _ ↦ Within (.below dir) w₀)
        (.adaptExcept ((sys_openTrunc_triple hclean hway hdirectory).weaken_error fun _ h ↦
          h.within)) fun _ ↦ ?_
      split
      · exact .throw fun w hw ↦ hw.within
      · exact .pure fun w hw ↦ hw.within
    · rename_i hflag
      rw [hflag] at hway
      have hexists : dir ++ cs ∈ Area.below dir ∨ w₀.kindAt (dir ++ cs) ≠ none :=
        hdir.mem_below_or (prefix_refl _)
      refine .bind (run_mkdirAll_triple hdir hclean.dropLast hparent hway) fun _ ↦ ?_
      exact .adaptExcept ((sys_symlink_triple hclean hway hexists _).weaken_post
        (fun _ _ h ↦ h.within) fun _ h ↦ h.within)
    · exact .throw fun w hw ↦ hw.within
  · exact .throw fun w hw ↦ hw.within

/-- **The patches**, for files to which the way is clear. -/
theorem applyMigrationPatches_triple {patchSet : Option (List MigrationFilePatch)}
    (hpatches : ∀ patches ∈ patchSet, ∀ patch ∈ patches, Below dir (patchTarget dir patch.path) ∧
      way (patchTarget dir patch.path) ⊆ L) :
    Leads (Safe (.below dir) w₀ L) (applyMigrationPatches dir patchSet)
      (Within (.below dir) w₀) := by
  rw [applyMigrationPatches]
  apply Triple.get_bind
  intro w hw
  have hdone : ∀ w', w' = w → Within (.below dir) w₀ w' := fun _ h ↦ h ▸ hw.within
  split
  · exact .pure hdone
  · exact .throw hdone
  · exact .throw hdone
  split
  · exact .throw hdone
  · exact .pure hdone
  rename_i patches _
  split
  · exact .throw hdone
  refine .weaken (.forM patches fun patch hpatch ↦ ?_) (fun _ h ↦ h ▸ hw)
    (fun _ _ h ↦ h.within) fun _ h ↦ h
  obtain ⟨hbelow, hway⟩ := hpatches patches rfl patch hpatch
  rw [applyFilePatch]
  refine .bind (R := fun _ ↦ Safe (.below dir) w₀ L)
    (.adaptExcept ((sys_openWrite_triple (clean_join _ _) hway hbelow).weaken_error fun _ h ↦
      h.within)) fun _ ↦ ?_
  split
  · exact .throw fun w hw ↦ hw.within
  · exact .skip

end Bundle

/-! ## Sessions -/

namespace MigrationSession

variable {dir : Path} {w₀ : World} {s s' : MigrationSession} {e : BundleEvent}

theorem within_step (hdir : Rooted dir w₀) (h : Within (.below dir) w₀ s.world)
    (hok : s.Unlinks dir e) (hstep : s.step dir e = some s') : Within (.below dir) w₀ s'.world := by
  have hsafe : Safe (.below dir) w₀ s.world.clear s.world := ⟨h, fun _ hq ↦ hq⟩
  cases e with
  | entry hdr =>
    obtain ⟨-, hstep⟩ := ite_none_right_eq_some.mp hstep
    have htriple := extractTarGz_triple hdir (way_subset_clear hok) s.world hsafe
    split at hstep
    all_goals
      rename_i hrun
      obtain ⟨⟩ := hstep
      rw [hrun] at htriple
      exact htriple
  | readError | finalize =>
    obtain ⟨-, ⟨⟩⟩ := ite_none_right_eq_some.mp hstep
    exact h
  | endOfUpload =>
    rw [step] at hstep
    split at hstep
    · obtain ⟨⟩ := hstep
      exact h
    · obtain ⟨⟩ := hstep
      exact h
    · nomatch hstep
  | applyPatches patchSet =>
    obtain ⟨-, hstep⟩ := ite_none_right_eq_some.mp hstep
    have hpatches : ∀ patches ∈ patchSet, ∀ patch ∈ patches,
        Below dir (patchTarget dir patch.path) ∧
          way (patchTarget dir patch.path) ⊆ s.world.clear := by
      rintro patches ⟨rfl⟩ patch hpatch
      exact ⟨(hok patch hpatch).1, way_subset_clear (hok patch hpatch).2⟩
    have htriple := applyMigrationPatches_triple hpatches s.world hsafe
    split at hstep
    all_goals
      rename_i hrun
      obtain ⟨⟩ := hstep
      rw [hrun] at htriple
      exact htriple

/-- **Bundles are confined to the directory of their session**, in every run of uploads whose steps
meet no links, into any filesystem in which the directory is there. -/
theorem confined_of_unlinks (hdir : Rooted dir w₀) {events : List BundleEvent}
    (hrun : Run (step dir) (Unlinks dir) (init w₀) events s) : Confined dir w₀ s.world := by
  have hdir' : Rooted dir (init w₀).world := ⟨hdir.clean, hdir.unlinked, hdir.isDir⟩
  have hwithin : Within (.below dir) (init w₀).world s.world :=
    hrun.invariant (I := fun s ↦ Within (.below dir) (init w₀).world s.world)
      (fun _ _ _ h hok hstep ↦ within_step hdir' h hok hstep) (Within.refl _ _)
  have hconfined := hwithin.confined rfl
  exact ⟨hconfined.touched, hconfined.outside⟩

end MigrationSession

/-! ## Two sessions -/

/-- A host with the directory of a session, `/d`, and another directory, `/e`. -/
def sessionHost : World := ⟨some (.dir [(['d'], .dir []), (['e'], .dir [])]), 0, []⟩

def bundleLink (name linkname : Text) : BundleEvent := .entry ⟨name, .symlink, linkname, true⟩

def bundleFile (name : Text) : BundleEvent := .entry ⟨name, .reg, [], true⟩

open MigrationSession

/-- A base bundle with a file, then a bundle with a link and the patch of the file. -/
theorem confined_of_unlinks_patched :
    ∃ s, Run (step [['d']]) (MigrationSession.Unlinks [['d']]) (.init sessionHost)
        [bundleFile "m/x".toList, .endOfUpload, .finalize, bundleLink "l".toList "/e".toList,
          bundleFile "patches.json".toList, bundleFile "patches.bin".toList, .endOfUpload,
          .applyPatches (some [⟨"m/x".toList, true⟩])] s ∧
      Confined [['d']] sessionHost s.world := by
  refine Run.exists_of_exec (·.stage = .closed) (by decide +kernel) fun s hrun _ ↦ ?_
  exact confined_of_unlinks ⟨by decide, by decide, by decide⟩ hrun

/-- **A file behind a link.** The base bundle makes a link `a` to `/e`, and then a file `a/x`: it is
made in `/e`. -/
theorem not_confined_linkedBundle : ∃ s, Run (step [['d']]) anyStep (.init sessionHost)
        [bundleLink "a".toList "/e".toList, bundleFile "a/x".toList] s ∧
      ¬Confined [['d']] sessionHost s.world := by
  refine Run.exists_of_exec ([['e'], ['x']] ∈ ·.world.touched) (by decide +kernel)
    fun s hrun htouched hconfined ↦ ?_
  exact absurd (hconfined.touched _ htouched) (by decide)

end Gocracker
