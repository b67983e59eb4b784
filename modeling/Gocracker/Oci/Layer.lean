import Gocracker.Posix.FileSystem

/-!
# Applying an image layer

`applyTar` unpacks a tar archive into a directory. Names of entries are cleaned first, so that they
cannot leave the directory by double dots. Links in the way are a different matter: the container's
links are meant for the container's root, so the host must not follow them. `resolveLayerParentDir`
therefore walks the parent directories of an entry itself, and replaces a link it meets by the
place its target names inside the container.

## One hop

The target of a link is cleaned lexically and joined to the root, and the walk goes on from there:
the components of the target are not looked at. Should one of them be a link again, the path handed
to the kernel still contains it, and the kernel follows it on the host.

## One step

A step of the model is one iteration of the loop over the archive's entries, or the pass over the
directories at the end of an archive. An error ends the extraction, with what was done before it.
-/

namespace Gocracker

open Posix

inductive TypeFlag where
  | dir
  | reg
  | symlink
  | link
  | other
  deriving DecidableEq

/-- The part of a tar header that decides where something is done. `readable`: the contents can be
read to their end. `hasTimes`: one of the two times is set. -/
structure Header where
  name : Text
  typeflag : TypeFlag
  linkname : Text
  hasTimes : Bool
  readable : Bool

inductive ExtractError where
  | os (e : Errno)
  | escapes (target root : Path)
  | read
  deriving DecidableEq

abbrev ExtractM := EStateM ExtractError World

/-- Run operations of the filesystem. -/
def run {α : Type} (c : EStateM Errno World α) : ExtractM α := EStateM.adaptExcept .os c

/-- Ask something of the filesystem. -/
def query {α : Type} (f : World → Except ExtractError α) : ExtractM α := do
  let w ← get
  match f w with
  | .ok a => pure a
  | .error e => throw e

/-! ## Names -/

/-- White space, as Unicode has it. -/
def isSpace (c : Char) : Bool :=
  c.toNat ∈ [9, 10, 11, 12, 13, 0x20, 0x85, 0xA0, 0x1680, 0x2028, 0x2029, 0x202F, 0x205F, 0x3000] ||
    (0x2000 ≤ c.toNat && c.toNat ≤ 0x200A)

def trimSpace (t : Text) : Text := ((t.dropWhile isSpace).reverse.dropWhile isSpace).reverse

def cleanLayerEntryName (name : Text) : List Text := cleanRooted (components (trimSpace name))

/-! ## Resolving an entry's path -/

def ensurePathWithinRoot (root target : Path) : Except ExtractError Unit :=
  if root <+: target then .ok () else .error (.escapes target root)

/-- Where a link of the container, met in the directory `cursor`, leads inside the container. -/
def containerTarget (cursor : Path) (target : Text) : Path :=
  if isAbs target then cleanRooted (components target) else join cursor (components target)

def lstatLink (w : World) (path : Path) : Except ExtractError (Option Text) :=
  match w.lstat path with
  | .ok (.symlink target) => .ok (some target)
  | .ok _ | .error .enoent => .ok none
  | .error e => .error (.os e)

/-- The loop of `resolveLayerParentDir`: the directory on the host and the one in the container that
have been reached. -/
def resolveParts (w : World) (root : Path) : Path → Path → List Text → Except ExtractError Path
  | hostDir, _, [] => .ok hostDir
  | hostDir, cursor, part :: parts =>
    if part = [] ∨ part = dot then resolveParts w root hostDir cursor parts
    else do
      let nextLiteral := join hostDir [part]
      match ← lstatLink w nextLiteral with
      | some target =>
        let containerDir := containerTarget cursor target
        let hostDir := join root containerDir
        let _ ← ensurePathWithinRoot root hostDir
        resolveParts w root hostDir containerDir parts
      | none =>
        let _ ← ensurePathWithinRoot root nextLiteral
        resolveParts w root nextLiteral (join cursor [part]) parts

variable (w : World) (root : Path)

def resolveLayerParentDir (containerDir : List Text) :
    Except ExtractError Path :=
  resolveParts w root root [] (cleanRooted containerDir)

/-- The path on the host of the object with cleaned components `rel`. -/
def resolveLayerEntryPath (rel : List Text) : Except ExtractError Path :=
  match rel.getLast? with
  | none => .ok root
  | some base => do
    let parentHost ← resolveLayerParentDir w root rel.dropLast
    let target := join parentHost [base]
    let _ ← ensurePathWithinRoot root target
    return target

/-- The path on the host of what a hard link is to be made to: relative to the root if that exists,
and otherwise relative to the entry. -/
def resolveLayerLinkPath (entryRel : List Text) (linkname : Text) :
    Except ExtractError Path :=
  if isAbs linkname then resolveLayerEntryPath w root (cleanRooted (components linkname))
  else do
    let cleanLink := cleanRelative (components linkname)
    let rootRelative ← resolveLayerEntryPath w root cleanLink
    match w.lstat rootRelative with
    | .ok _ => return rootRelative
    | .error .enoent => resolveLayerEntryPath w root (join entryRel.dropLast cleanLink)
    | .error e => throw (.os e)

/-! ## Applying an entry -/

def whiteoutPrefix : Text := ['.', 'w', 'h', '.']

def opaqueWhiteout : Text := ['.', 'w', 'h', '.', '.', 'w', 'h', '.', '.', 'o', 'p', 'q']

/-- `RemoveAll` whose error is ignored. -/
def removeAllQuietly (path : Path) : ExtractM PUnit := do
  let w ← get
  match w.removeAll path with
  | .ok w' => set w'
  | .error _ => pure ⟨⟩

/-- Remove what a whiteout in the directory `parentDir` stands for. -/
def applyWhiteout (parentDir : Path) (base : Text) : ExtractM PUnit :=
  if base = opaqueWhiteout then do
    let w ← get
    match w.readDir parentDir with
    | .ok names => names.forM fun name ↦ removeAllQuietly (join parentDir [name])
    | .error _ => pure ⟨⟩
  else removeAllQuietly (join parentDir [base.drop whiteoutPrefix.length])

/-- Make room for a directory or a file. -/
def prepareTarEntryTarget (target : Path) (typeflag : TypeFlag) : ExtractM PUnit := do
  let w ← get
  match w.lstat target, typeflag with
  | .error .enoent, _ => pure ⟨⟩
  | .error e, _ => throw (.os e)
  | .ok .dir, .dir | .ok (.file _), .reg => pure ⟨⟩
  | .ok _, _ => run (sys (·.removeAll target))

/-- Remove what stands in the place of a link. -/
def removeTarget (target : Path) : ExtractM PUnit := do
  let w ← get
  match w.remove target with
  | .ok w' => set w'
  | .error .enoent => pure ⟨⟩
  | .error e => throw (.os e)

/-- Owner, then mode and times. Only the owner of a link is the link's. -/
def applyTarEntryMetadata (path : Path) (hdr : Header) : ExtractM PUnit := do
  run (sys (·.setAttr false path))
  if hdr.typeflag ≠ .symlink then
    run (sys (·.setAttr true path))
    if hdr.hasTimes then run (sys (·.setAttr true path))

/-- What an entry with the given target puts there, and the directories whose metadata is to be
applied at the end. -/
def applyTarEntryTarget (root : Path) (rel : List Text) (target : Path) (hdr : Header) :
    ExtractM (List (Path × Header)) := do
  match hdr.typeflag with
  | .dir =>
    prepareTarEntryTarget target .dir
    run (mkdirAll target.reverse)
    return [(target, hdr)]
  | .reg =>
    prepareTarEntryTarget target .reg
    run (sys (·.openTrunc target))
    if hdr.readable = false then throw .read
    applyTarEntryMetadata target hdr
    return []
  | .symlink =>
    removeTarget target
    run (sys (·.symlink hdr.linkname target))
    applyTarEntryMetadata target hdr
    return []
  | .link =>
    removeTarget target
    let linkTarget ← query (resolveLayerLinkPath · root rel hdr.linkname)
    run (sys (·.link linkTarget target))
    applyTarEntryMetadata target hdr
    return []
  | .other => return []

/-- One iteration of the loop of `applyTar`. -/
def applyTarEntry (root : Path) (hdr : Header) : ExtractM (List (Path × Header)) := do
  let rel := cleanLayerEntryName hdr.name
  match rel.getLast? with
  | none => return []
  | some base =>
    let target ← query (resolveLayerEntryPath · root rel)
    let parentDir := target.dropLast
    if whiteoutPrefix <+: base then
      applyWhiteout parentDir base
      return []
    else
      run (mkdirAll parentDir.reverse)
      applyTarEntryTarget root rel target hdr

/-- The metadata of the directories, the last one first. -/
def applyDirMetadata (dirs : List (Path × Header)) : ExtractM PUnit :=
  dirs.reverse.forM fun d ↦ applyTarEntryMetadata d.1 d.2

/-! ## An extraction -/

/-- The filesystem, the directories of the current layer, and whether an error has ended it all. -/
structure Extraction where
  world : World
  dirs : List (Path × Header)
  failed : Bool

inductive ExtractEvent where
  | entry (hdr : Header)
  /-- The archive could not be read further. -/
  | readError
  /-- The archive is at its end; the next one begins. -/
  | endOfLayer

namespace Extraction

/-- Before the first layer. -/
def init (w : World) : Extraction := ⟨{ w with touched := [] }, [], false⟩

def step (root : Path) (s : Extraction) : ExtractEvent → Extraction
  | .entry hdr =>
    if s.failed then s
    else
      match applyTarEntry root hdr s.world with
      | .ok dirs w => { s with world := w, dirs := s.dirs ++ dirs }
      | .error _ w => { s with world := w, failed := true }
  | .readError => { s with failed := true }
  | .endOfLayer =>
    if s.failed then s
    else
      match applyDirMetadata s.dirs s.world with
      | .ok _ w => ⟨w, [], false⟩
      | .error _ w => ⟨w, [], true⟩

end Extraction

end Gocracker
