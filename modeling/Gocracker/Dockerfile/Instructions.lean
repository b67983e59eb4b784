import Gocracker.Machine.Ascii
import Gocracker.Machine.Logged
import Gocracker.Posix.Path

/-!
# What an instruction expands

The words of an instruction may use variables: build arguments, which `ARG` declares, and the
environment of the image, which `ENV` and the base image set. This module has the instructions as
the builder carries them out, as far as they look at variables, change them, or refer to other
stages. What they do to files is elsewhere.

The lexer is any function of the word and of the values of the variables that are used in the word.

An instruction leaves in its trace what it has expanded, the environments of the commands that it
has run, and the stages that it has found. It may also stop because of the files, or because of a
malformed `HEALTHCHECK`, `SHELL` or `STOPSIGNAL`: the trace is then the first part of the one here.
-/

namespace Gocracker.Dockerfile

open Machine Machine.Logged Posix List

/-! ## Variables -/

/-- Variables and their values, in the order in which they were set first. -/
abbrev Vars := List (Text × Text)

/-- Set a variable, in its old place if it has one. -/
def assign (k v : Text) : Vars → Vars
  | [] => [(k, v)]
  | (k', v') :: vars => if k' = k then (k, v) :: vars else (k', v') :: assign k v vars

/-- Set a variable unless it is set. -/
def addDefault (k v : Text) (vars : Vars) : Vars :=
  if (vars.lookup k).isSome then vars else vars ++ [(k, v)]

/-- The environment that an image is configured with. -/
def envMap (env : List Text) : Vars :=
  env.foldl (fun vars entry ↦
    match cutAt '=' entry with
    | (_, none) => vars
    | (k, some v) => assign k v vars) []

theorem lookup_cons_eq_ite (k v : Text) (vars : Vars) (k' : Text) :
    ((k, v) :: vars).lookup k' = if k' = k then some v else vars.lookup k' := by
  rw [lookup_cons]
  by_cases h : k' = k
  · rw [h, beq_self_eq_true, if_pos rfl]
  · rw [beq_false_of_ne h, if_neg h]

theorem lookup_assign (k v : Text) (vars : Vars) (k' : Text) :
    (assign k v vars).lookup k' = if k' = k then some v else vars.lookup k' := by
  induction vars with
  | nil => exact lookup_cons_eq_ite k v [] k'
  | cons e vars ih =>
    rw [assign]
    split_ifs with hkey hk hk
    · rw [lookup_cons_eq_ite, if_pos hk]
    · rw [lookup_cons_eq_ite, lookup_cons_eq_ite, if_neg hk, hkey, if_neg hk]
    · rw [lookup_cons_eq_ite, ih, if_pos hk, hk, if_neg (Ne.symm hkey)]
    · rw [lookup_cons_eq_ite, lookup_cons_eq_ite, ih, if_neg hk]

/-- Word expansion: the result, and the variables that have no value. It depends on the variables in
the word only. -/
structure Lexer where
  process : (Text → Option Text) → Text → Except Text (Text × List Text)
  uses : Text → List Text
  process_congr : ∀ {e e' : Text → Option Text} {word : Text},
    (∀ k ∈ uses word, e k = e' k) → process e word = process e' word

/-! ### A lexer

It expands names behind a dollar sign. A word with quotes, backslashes or braces it leaves alone. -/

/-- The names and the other characters of a word. A name that has begun is given. -/
def wordParts : Option Text → Text → List (Char ⊕ Text)
  | none, [] => []
  | some name, [] => [.inr name]
  | none, c :: word => if c = '$' then wordParts (some []) word else .inl c :: wordParts none word
  | some name, c :: word =>
    if c.isAlphanum || c = '_' then wordParts (some (name ++ [c])) word
    else if c = '$' then .inr name :: wordParts (some []) word
    else .inr name :: .inl c :: wordParts none word

def partNames (parts : List (Char ⊕ Text)) : List Text := parts.filterMap Sum.getRight?

def partValue (env : Text → Option Text) : Char ⊕ Text → Text
  | .inl c => [c]
  | .inr name => (env name).getD []

/-- A lexer for builds on fixed inputs. -/
def plainLexer : Lexer where
  process env word :=
    if ['\\', '\'', '"', '\x7b', '\x7d'].any (· ∈ word) then .error "special character".toList
    else
      .ok ((wordParts none word).flatMap (partValue env),
        (partNames (wordParts none word)).filter fun name ↦ (env name).isNone)
  uses word := partNames (wordParts none word)
  process_congr := by
    intro e e' word h
    have hvalue : (wordParts none word).flatMap (partValue e) =
        (wordParts none word).flatMap (partValue e') := by
      refine flatMap_congr fun part hpart ↦ ?_
      cases part with
      | inl c => rfl
      | inr name =>
        have hname : name ∈ partNames (wordParts none word) :=
          mem_filterMap.mpr ⟨.inr name, hpart, rfl⟩
        rw [partValue, partValue, h name hname]
    have hnone : (partNames (wordParts none word)).filter (fun name ↦ (e name).isNone) =
        (partNames (wordParts none word)).filter fun name ↦ (e' name).isNone :=
      filter_congr fun name hname ↦ by rw [h name hname]
    rw [hvalue, hnone]

/-! ## Instructions -/

inductive MountType where
  | bind
  | cache (id : Text)
  | tmpfs
  | secret (id : Text)
  | ssh
  deriving DecidableEq

structure RunMount where
  type : MountType
  fromRef : Text
  source : Text
  target : Text
  required : Bool
  deriving DecidableEq

/-- An instruction, with its words as the parser leaves them. -/
inductive Instruction where
  | fromImage (args : List Text) (platform : Text)
  | run (args : List Text) (mounts : List RunMount)
  | copy (args : List Text)
  | add (args : List Text)
  | env (args : List Text)
  | arg (args : List Text)
  | workdir (args : List Text)
  | user (args : List Text)
  | expose (args : List Text)
  | label (args : List Text)
  | volume (args : List Text)
  /-- `CMD`, `ENTRYPOINT`, `HEALTHCHECK`, `SHELL`, `STOPSIGNAL` and what is ignored: nothing is
  expanded. -/
  | other (cmd : Text)
  deriving DecidableEq

def Instruction.cmd : Instruction → Text
  | fromImage _ _ => "FROM".toList
  | run _ _ => "RUN".toList
  | copy _ => "COPY".toList
  | add _ => "ADD".toList
  | env _ => "ENV".toList
  | arg _ => "ARG".toList
  | workdir _ => "WORKDIR".toList
  | user _ => "USER".toList
  | expose _ => "EXPOSE".toList
  | label _ => "LABEL".toList
  | volume _ => "VOLUME".toList
  | other cmd => cmd

def Instruction.isFrom : Instruction → Bool
  | fromImage _ _ => true
  | _ => false

/-- Errors of the builder. Those of the lexer carry its text. -/
inductive BuildError where
  | lexical (text : Text)
  | unresolved (names : List Text)
  | fromNeedsArgument
  | unsupportedFrom (args : List Text)
  | emptyImage
  | platform (value : Text)
  | pull (ref : Text)
  | invalidEnv (part : Text)
  | invalidLabel (part : Text)
  | userNeedsArgument
  | unsupportedFlag (arg : Text)
  | copyNeedsSourceAndDest
  | unknownStage (ref : Text)
  | mountNeedsTarget
  | mountNeedsRoot
  | sshRequired
  | noActiveStage (cmd : Text)
  | noFrom
  deriving DecidableEq

/-! ## The scope of a stage -/

/-- The arguments that a build has without being given any. -/
def defaultBuildArgs (osName arch : Text) : Vars :=
  [("BUILDOS".toList, osName), ("BUILDARCH".toList, arch),
    ("BUILDPLATFORM".toList, osName ++ '/' :: arch), ("TARGETOS".toList, osName),
    ("TARGETARCH".toList, arch), ("TARGETPLATFORM".toList, osName ++ '/' :: arch),
    ("TARGETVARIANT".toList, []), ("BUILDVARIANT".toList, [])]

/-- `args`, `argExport` and `env` of the builder. -/
structure Scope where
  args : Vars
  argExport : List Text
  env : Vars
  deriving DecidableEq

/-- `expansionEnvSlice`: the environment comes later, so it wins. -/
def Scope.variables (s : Scope) (k : Text) : Option Text := (s.env.lookup k).or (s.args.lookup k)

/-- A stage that is built: what later stages get to see of it. -/
structure BuiltStage where
  index : ℕ
  name : Text
  env : Vars
  deriving DecidableEq

inductive Event where
  | expanded (word : Text) (result : Except Text (Text × List Text))
  /-- A command was started with this environment. -/
  | ran (env : Vars)
  | resolved (word : Text) (stage : ℕ)
  /-- The instruction is done. -/
  | finished
  deriving DecidableEq

abbrev ScopeM := Logged Event BuildError Scope

/-- What a build has to do with: the lexer, the images that can be pulled and their environments,
the platforms that can be built, and whether it has the rights to mount. An image is pulled for
`TARGETOS` and `TARGETARCH`, which have values from the beginning and keep them. -/
structure Tools where
  lex : Lexer
  image : Text → Option (List Text)
  platformOk : Text → Bool
  root : Bool

section Handlers

variable (tools : Tools) (find : Text → Option BuiltStage)

/-- A word is expanded, and that is noted. -/
def lexed (word : Text) : ScopeM (Except Text (Text × List Text)) := do
  let s ← read
  tell (.expanded word (tools.lex.process s.variables word))
  return tools.lex.process s.variables word

/-- A word that cannot be expanded stays as it is. -/
def expand (word : Text) : ScopeM Text := do
  let result ← lexed tools word
  match result with
  | .error _ => return word
  | .ok (value, _) => return value

/-- A word, and the names in it that have no value. -/
def expandValue (word : Text) : ScopeM (Text × List Text) := do
  let result ← lexed tools word
  match result with
  | .error e => fail (.lexical e)
  | .ok r => return r

/-- A name without a value is an error. -/
def expandStrict (word : Text) : ScopeM Text := do
  let (value, unmatched) ← expandValue tools word
  if unmatched = [] then return value else fail (.unresolved unmatched)

/-- The values of `ENV` and of `LABEL`: one key with the rest of the line, or several with an equals
sign each. -/
def assignments (invalid : Text → BuildError) (store : Text → Text → Scope → Scope) :
    List Text → ScopeM PUnit
  | [] => return ⟨⟩
  | first :: rest =>
    if rest ≠ [] ∧ '=' ∉ first then do
      let (value, _) ← expandValue tools ([' '].intercalate rest)
      modify (store first value)
    else
      forEach (fun part ↦
        match cutAt '=' part with
        | (_, none) => fail (invalid part)
        | (k, some raw) => do
          let (value, _) ← expandValue tools raw
          modify (store k value)) (first :: rest)

def Scope.setEnv (k v : Text) (s : Scope) : Scope := { s with env := assign k v s.env }

def handleENV (args : List Text) : ScopeM PUnit := assignments tools .invalidEnv Scope.setEnv args

/-- The labels themselves are not looked at again. -/
def handleLABEL (args : List Text) : ScopeM PUnit :=
  assignments tools .invalidLabel (fun _ _ s ↦ s) args

/-- The argument is also marked for export. -/
def Scope.setArg (k v : Text) (s : Scope) : Scope :=
  { s with args := assign k v s.args, argExport := k :: s.argExport }

/-- One name of `ARG`. A name that has a value already, from wherever, keeps it. -/
def declareArg (decl : Text) : ScopeM PUnit := do
  let s ← read
  match cutAt '=' decl with
  | (k, default) =>
    if (s.args.lookup k).isSome then return ⟨⟩
    else
      match default with
      | none => modify (Scope.setArg k [])
      | some raw => do
        let (value, _) ← expandValue tools raw
        modify (Scope.setArg k value)

def handleARG (args : List Text) : ScopeM PUnit := forEach (declareArg tools) args

/-- Only the first word counts. -/
def handleWORKDIR : List Text → ScopeM PUnit
  | [] => return ⟨⟩
  | dir :: _ => do
    let _ ← expandValue tools dir

/-- `EXPOSE` and `VOLUME`. -/
def expandNonempty (args : List Text) : ScopeM PUnit :=
  forEach (fun word ↦ do
    let _ ← expand tools word) (args.filter (· ≠ []))

def handleUSER : List Text → ScopeM PUnit
  | [] => fail .userNeedsArgument
  | name :: _ => do
    let _ ← expand tools name

/-! ### Commands -/

/-- `runEnvSlice`: the environment, the exported arguments that it does not have, and some
defaults. -/
def runEnvSlice (s : Scope) : Vars :=
  let keys := ((s.args.map Prod.fst).filter (· ∈ s.argExport)).insertionSort fun a b ↦ ¬ b < a
  let env := keys.foldl (fun env k ↦ addDefault k ((s.args.lookup k).getD []) env) s.env
  addDefault "GIT_CONFIG_GLOBAL".toList "/tmp/gocracker-gitconfig".toList <|
    addDefault "TMPDIR".toList "/tmp".toList <|
    addDefault "HOME".toList "/root".toList <|
    addDefault "PATH".toList
      "/usr/local/sbin:/usr/local/bin:/usr/sbin:/usr/bin:/sbin:/bin".toList env

/-- `resolveBindRunMountSource`: the reference is looked up as it is written. -/
def bindMountSource (mount : RunMount) : ScopeM PUnit :=
  if mount.fromRef = [] then return ⟨⟩
  else
    match find mount.fromRef with
    | some stage => tell (.resolved mount.fromRef stage.index)
    | none => fail (.unknownStage mount.fromRef)

/-- `resolveIsolatedRunMounts`, for one mount. -/
def resolveMount (mount : RunMount) : ScopeM PUnit := do
  let _ ← expand tools mount.target
  match mount.type with
  | .bind =>
    if mount.target = [] then
      let _ ← expand tools (if mount.source = [] then ['/'] else mount.source)
      bindMountSource find mount
    else bindMountSource find mount
  | .cache id =>
    if mount.target = [] then fail .mountNeedsTarget
    else if id = [] then
      let _ ← expand tools mount.target
    else return ⟨⟩
  | .tmpfs => if mount.target = [] then fail .mountNeedsTarget else return ⟨⟩
  | .secret id =>
    if mount.target = [] then
      -- the last component of an empty path is a dot
      let _ ← expand tools ("/run/secrets/".toList ++ if id = [] then ['.'] else id)
    else return ⟨⟩
  | .ssh =>
    if mount.required then fail .sshRequired
    else if mount.target = [] then
      let _ ← expand tools "/run/buildkit/ssh_agent.0".toList
    else return ⟨⟩

/-- A command starts when its mounts are resolved. Only root can mount. -/
def handleRUN (args : List Text) (mounts : List RunMount) : ScopeM PUnit :=
  if args = [] then return ⟨⟩
  else do
    let s ← read
    if tools.root then
      forEach (resolveMount tools find) mounts
      tell (.ran (runEnvSlice s))
    else if mounts = [] then tell (.ran (runEnvSlice s))
    else fail .mountNeedsRoot

/-! ### Transfers -/

def fromFlag : Text := "--from=".toList

def valueFlags : List Text :=
  ["--chown=".toList, "--chmod=".toList, "--exclude=".toList, "--keep-git-dir=".toList,
    "--checksum=".toList, "--unpack=".toList]

/-- The value of the first flag that the word begins with. -/
def flagValue (flags : List Text) (arg : Text) : Option Text :=
  flags.findSome? fun flag ↦ if flag <+: arg then some (arg.drop flag.length) else none

def isFlag (arg : Text) : Bool := ['-', '-'] <+: arg

/-- `parseTransferSpec`, for one argument. A reference that is no stage is an image. -/
def transferArg (allowFrom : Bool) (arg : Text) : ScopeM PUnit :=
  if fromFlag <+: arg then
    if allowFrom then do
      let ref ← expandStrict tools (arg.drop fromFlag.length)
      match find ref with
      | some stage => tell (.resolved (arg.drop fromFlag.length) stage.index)
      | none => if (tools.image ref).isSome then return ⟨⟩ else fail (.pull ref)
    else fail (.unsupportedFlag arg)
  else
    match flagValue valueFlags arg with
    | some value => do
      let _ ← expand tools value
    | none =>
      if arg = "--parents".toList ∨ arg = "--link".toList ∨ isFlag arg = false then return ⟨⟩
      else fail (.unsupportedFlag arg)

/-- `COPY` and `ADD`: flags first, then the destination and the sources. -/
def handleTransfer (allowFrom : Bool) (args : List Text) : ScopeM PUnit := do
  forEach (transferArg tools find allowFrom) args
  let filtered := args.filter fun arg ↦ !isFlag arg
  if filtered.length < 2 then fail .copyNeedsSourceAndDest
  else
    forEach (fun word ↦ do
      let _ ← expand tools word) ((filtered.getLast?).toList ++ filtered.dropLast)

/-- An instruction of a stage that has begun. -/
def handle : Instruction → ScopeM PUnit
  | .run args mounts => handleRUN tools find args mounts
  | .copy args => handleTransfer tools find true args
  | .add args => handleTransfer tools find false args
  | .env args => handleENV tools args
  | .arg args => handleARG tools args
  | .workdir args => handleWORKDIR tools args
  | .user args => handleUSER tools args
  | .expose args => expandNonempty tools args
  | .label args => handleLABEL tools args
  | .volume args => expandNonempty tools args
  | .fromImage _ _ | .other _ => return ⟨⟩

end Handlers

/-! ## What an instruction can do

One rule for all instructions: an invariant of the scope that the settings of the instruction keep,
and a property of the events. -/

/-- The reference in a `--from` flag. -/
def fromWord (arg : Text) : Option Text :=
  if fromFlag <+: arg then some (arg.drop fromFlag.length) else none

/-- The references that are expanded, as they are written. -/
def Instruction.expandedRefs : Instruction → List Text
  | fromImage args _ => args.head?.toList
  | copy args | add args => args.filterMap fromWord
  | _ => []

/-- The references that the executor takes as they are written. -/
def Instruction.mountRefs : Instruction → List Text
  | run _ mounts => (mounts.map RunMount.fromRef).filter (· ≠ [])
  | _ => []

/-- The declarations of an `ARG`. -/
def Instruction.decls : Instruction → List Text
  | arg decls => decls
  | _ => []

/-- The variables that an assignment sets. -/
def assignedNames : List Text → List Text
  | [] => []
  | first :: rest =>
    if rest ≠ [] ∧ '=' ∉ first then [first] else (first :: rest).map fun part ↦ (cutAt '=' part).1

/-- The names that an `ENV` sets. -/
def Instruction.envNames : Instruction → List Text
  | env args => assignedNames args
  | _ => []

section Rules

variable {tools : Tools} {find : Text → Option BuiltStage} {L : Event → Prop} {I : Scope → Prop}
  (hL : ∀ s, I s → ∀ word, L (.expanded word (tools.lex.process s.variables word)))

include hL

variable (word : Text)

variable {args : List Text}

end Rules

end Gocracker.Dockerfile
