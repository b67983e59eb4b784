import Gocracker.Posix.Path

/-!
# Finding the Dockerfile of a repository

A run can name a repository instead of an image. `resolve` takes a local directory as it is and has
anything else cloned, and then looks for the Dockerfile: one that the caller names, one that the
subdirectory itself turns out to be, or one of a few usual names.

What is on the disk is a parameter. A clone gets a temporary directory, whose name is new each time;
since nothing depends on the name, it is taken to be a function of the repository and the revision.
-/

namespace Gocracker.Repo

open Posix

/-- What the resolver asks of the system. -/
structure Files where
  /-- Is there something at the path, and is it a directory? -/
  stat : Path → Option Bool
  /-- `filepath.Abs`. -/
  abs : String → Path
  /-- The directory into which a repository was cloned, at a revision. -/
  clone : String → String → Option Path
  /-- `discovery.FindDockerfile`: a search below a directory. -/
  findDockerfile : Path → Option Path

structure Source where
  url : String
  ref : String
  subdir : String
  dockerfile : String
  deriving DecidableEq

/-- No path of a Dockerfile, if none was found. -/
structure CloneResult where
  contextDir : Path
  dockerfilePath : Option Path := none
  deriving DecidableEq

inductive ResolveError where
  | localPath (abs : Path)
  | clone (url : String)
  | explicitMissing (explicit : String)
  | explicitIsDirectory (explicit : String)
  | noDockerfile (contextDir : Path)
  deriving DecidableEq

def isLocalPath (url : String) : Bool :=
  "/".toList.isPrefixOf url.toList || "./".toList.isPrefixOf url.toList ||
    "../".toList.isPrefixOf url.toList || url = "."

def isExplicitSubdir (s : String) : Bool := s ≠ "" && s ≠ "." && s ≠ "./"

/-- Upper and lower case are the same, and so is the sign for Kelvin, which folds to a letter of the
names looked for. -/
def foldCase (t : Text) : Text := t.map fun c ↦ if c = '\u212A' then 'k' else c.toLower

/-- `filepath.Base`, of an absolute path. -/
def base (p : Path) : Text := p.getLast?.getD ['/']

def isComposeName (name : Text) : Bool :=
  ".yml".toList.isSuffixOf name || ".yaml".toList.isSuffixOf name ||
    "compose.".toList.isPrefixOf name || "docker-compose.".toList.isPrefixOf name

variable (files : Files)

variable (contextDir : Path)

/-- The Dockerfile that the caller names. A file for Compose is not one. -/
def applyExplicitDockerfile (explicit : String) :
    Except ResolveError CloneResult :=
  let candidate := join contextDir (components explicit.toList)
  match files.stat candidate with
  | none => .error (.explicitMissing explicit)
  | some true => .error (.explicitIsDirectory explicit)
  | some false =>
    if isComposeName (foldCase (base candidate)) then .ok { contextDir }
    else .ok { contextDir, dockerfilePath := some candidate }

def locateFilesExact : CloneResult where
  contextDir := contextDir
  dockerfilePath :=
    (["Dockerfile", "dockerfile", "Dockerfile.prod", "Dockerfile.production"].map fun name ↦
      join contextDir [name.toList]).find? fun p ↦ (files.stat p).isSome

def locateFiles (exactOnly : Bool) : CloneResult :=
  if exactOnly then locateFilesExact files contextDir
  else { contextDir, dockerfilePath := files.findDockerfile contextDir }

def subdirPointsToDockerfile (p : Path) : Bool :=
  files.stat p = some false &&
    (base p = "Dockerfile".toList || "Dockerfile.".toList.isPrefixOf (base p) ||
      foldCase (base p) = "dockerfile".toList)

variable (src : Source)

/-- The end that both kinds of repositories have in common. -/
def locate (contextDir : Path) : Except ResolveError CloneResult :=
  if src.dockerfile ≠ "" then applyExplicitDockerfile files contextDir src.dockerfile
  else .ok (locateFiles files contextDir (isExplicitSubdir src.subdir))

def resolveLocal : Except ResolveError CloneResult :=
  let abs := files.abs src.url
  if files.stat abs = none then .error (.localPath abs)
  else locate files src (join abs (components src.subdir.toList))

def cloneRemote : Except ResolveError CloneResult :=
  match files.clone src.url src.ref with
  | none => .error (.clone src.url)
  | some tmp =>
    let sub := join tmp (components src.subdir.toList)
    -- The subdirectory may be a Dockerfile, which then stands in its context.
    if src.subdir ≠ "" ∧ subdirPointsToDockerfile files sub then
      .ok { contextDir := sub.dropLast, dockerfilePath := some sub }
    else locate files src sub

def resolve : Except ResolveError CloneResult :=
  if isLocalPath src.url then resolveLocal files src else cloneRemote files src

end Gocracker.Repo
