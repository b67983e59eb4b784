import Gocracker.Dockerfile.Instructions
import Gocracker.Machine.Worklist

/-!
# Stages

A build goes through its instructions twice. The planner splits them into stages, expands the
references to other stages and finds out which stages are needed for the last one. The executor then
carries out the stages that are needed, one after the other, and expands and looks up the references
again.

The two do not see the same variables. The planner knows the build arguments and the defaults of all
`ARG` instructions, those of stages that are not needed among them. The executor knows the arguments
of the instructions that it has carried out, and the environment of the stage. Of a `FROM` this is
the environment of the stage in front of it.
-/

namespace Gocracker.Dockerfile

open Machine Machine.Logged Posix

/-! ## The planner -/

structure PlannedInstruction where
  position : ℕ
  instr : Instruction
  deriving DecidableEq

/-- A stage, with the references that it has. -/
structure PlannedStage where
  index : ℕ
  name : Text
  fromRef : Text
  deps : List Text
  instrs : List PlannedInstruction
  deriving DecidableEq

def itoa (n : ℕ) : Text := Nat.toDigits 10 n

/-- `AS` in any case. -/
def isAs : Text → Bool
  | [a, s] => (a = 'a' || a = 'A') && (s = 's' || s = 'S' || s = 'ſ')
  | _ => false

/-- The image, and the name behind `AS`. -/
def parseFromArgs : List Text → Except BuildError (Text × Text)
  | [] => .error .fromNeedsArgument
  | [image] => .ok (image, [])
  | [image, word, name] =>
    if isAs word then .ok (image, name) else .error (.unsupportedFrom [word, name])
  | _ :: rest => .error (.unsupportedFrom rest)

section Plan

variable (lex : Lexer)

variable (args : Vars)

/-- The planner expands with the arguments only, not with an environment. -/
def expandBuildArgValue (raw : Text) : Except BuildError Text :=
  match lex.process (fun k ↦ args.lookup k) raw with
  | .error e => .error (.lexical e)
  | .ok (value, unmatched) => if unmatched = [] then .ok value else .error (.unresolved unmatched)

/-- `applyArgDefaults`, for one name. A default that cannot be expanded is taken as it is. -/
def applyArgDefault (decl : Text) : Vars :=
  match cutAt '=' decl with
  | (k, default) =>
    if (args.lookup k).isSome then args
    else
      match default with
      | none => assign k [] args
      | some raw =>
        match expandBuildArgValue lex args raw with
        | .error _ => assign k raw args
        | .ok value => assign k value args

/-- What the planner knows after some instructions. -/
def planArgs (instrs : List Instruction) : Vars :=
  (instrs.flatMap Instruction.decls).foldl (applyArgDefault lex) args

/-- The words that may refer to a stage. -/
def stageRefs : Instruction → List Text
  | .copy args | .add args => args.filterMap fromWord
  | .run _ mounts => (mounts.map RunMount.fromRef).filter (· ≠ [])
  | _ => []

/-- They are expanded when the plan is made. -/
def extractInstructionStageRefs (instr : Instruction) :
    Except BuildError (List Text) :=
  (stageRefs instr).mapM (expandBuildArgValue lex args)

/-- `buildStagePlan`, inside a stage. -/
def planStages (position : ℕ) (args : Vars) (current : PlannedStage) :
    List Instruction → Except BuildError (List PlannedStage)
  | [] => .ok [current]
  | .fromImage fromArgs platform :: rest => do
    let (image, name) ← parseFromArgs fromArgs
    let ref ← expandBuildArgValue lex args image
    let stages ← planStages (position + 1) args
      ⟨current.index + 1, name, ref, [], [⟨position, .fromImage fromArgs platform⟩]⟩ rest
    return current :: stages
  | instr :: rest => do
    let args := planArgs lex args [instr]
    let refs ← extractInstructionStageRefs lex args instr
    planStages (position + 1) args
      { current with
        deps := current.deps ++ refs
        instrs := current.instrs ++ [⟨position, instr⟩] } rest

/-- `buildStagePlan`, in front of the first stage. -/
def planPreamble (position : ℕ) (args : Vars) :
    List Instruction → Except BuildError (List PlannedInstruction × List PlannedStage)
  | [] => .ok ([], [])
  | .fromImage fromArgs platform :: rest => do
    let (image, name) ← parseFromArgs fromArgs
    let ref ← expandBuildArgValue lex args image
    let stages ← planStages lex (position + 1) args
      ⟨0, name, ref, [], [⟨position, .fromImage fromArgs platform⟩]⟩ rest
    return ([], stages)
  | instr :: rest => do
    let (preamble, stages) ← planPreamble (position + 1) (planArgs lex args [instr]) rest
    return (⟨position, instr⟩ :: preamble, stages)

/-- The instructions in front of the first stage, and the stages. -/
def buildStagePlan (seed : Vars) (instrs : List Instruction) :
    Except BuildError (List PlannedInstruction × List PlannedStage) :=
  planPreamble lex 1 seed instrs

end Plan

/-! ### What is needed -/

/-- A reference is the number of a stage or its name. -/
def answersTo (index : ℕ) (name ref : Text) : Bool := ref = itoa index || (name ≠ [] && ref = name)

/-- The last stage in front of a position that a reference fits. -/
def resolvePlannedStageRef (stages : List PlannedStage) : ℕ → Text → Option ℕ
  | 0, _ => none
  | i + 1, ref =>
    match stages[i]? with
    | some stage =>
      if answersTo stage.index stage.name ref then some i
      else resolvePlannedStageRef stages i ref
    | none => resolvePlannedStageRef stages i ref

/-- The stages that a stage needs. -/
def plannedTargets (stages : List PlannedStage) (i : ℕ) : List ℕ :=
  match stages[i]? with
  | some stage => (stage.fromRef :: stage.deps).filterMap (resolvePlannedStageRef stages i)
  | none => []

/-- The stages that are needed for the last one. The search takes a step for each of them and for
each reference, so it does not end before it is done. -/
def markReachableStages (stages : List PlannedStage) : List ℕ :=
  match stages.length with
  | 0 => []
  | last + 1 =>
    search (plannedTargets stages)
      (1 + ((List.range (last + 1)).map fun i ↦ (plannedTargets stages i).length).sum) [] [last]

/-! ## The executor -/

/-- The state of a build: variables, the current stage, and those that are built. -/
structure Builder where
  scope : Scope
  /-- The number and the name of the stage that is being built. -/
  current : Option (ℕ × Text)
  /-- Newer entries come first. -/
  stageByName : List (Text × BuiltStage)
  deriving DecidableEq

def Builder.init (seed : Vars) : Builder := ⟨⟨seed, seed.map Prod.fst, []⟩, none, []⟩

abbrev BuilderM := Logged Event BuildError Builder

/-- A stage is found by its number and by its name. -/
def BuiltStage.entries (stage : BuiltStage) : List (Text × BuiltStage) :=
  (if stage.name = [] then [] else [(stage.name, stage)]) ++ [(itoa stage.index, stage)]

namespace Builder

def lookupStage (b : Builder) (ref : Text) : Option BuiltStage := b.stageByName.lookup ref

/-- A stage can be found once the next one begins. -/
def commitCurrentStage (b : Builder) : Builder :=
  match b.current with
  | none => b
  | some (index, name) =>
    { b with stageByName := BuiltStage.entries ⟨index, name, b.scope.env⟩ ++ b.stageByName }

def setEnv (env : Vars) (b : Builder) : Builder := { b with scope := { b.scope with env := env } }

def startStage (index : ℕ) (name : Text) (b : Builder) : Builder :=
  { b.setEnv [] with current := some (index, name) }

end Builder

open Builder

def inScope {α : Type} (c : ScopeM α) : BuilderM α :=
  adapt id id scope (fun s b ↦ { b with scope := s }) c

section Execute

variable (tools : Tools)

/-- A platform is only checked if one is named. -/
def checkPlatform (platform : Text) : BuilderM PUnit :=
  if platform = [] then return ⟨⟩
  else do
    let value ← inScope (expandStrict tools platform)
    if tools.platformOk value then return ⟨⟩ else fail (.platform value)

/-- Where a stage begins: with nothing, as another stage, or as an image. -/
def beginFrom (image ref : Text) : BuilderM PUnit :=
  if ref = "scratch".toList then return ⟨⟩
  else do
    let b ← read
    match b.lookupStage ref with
    | some stage => do
      tell (.resolved image stage.index)
      modify (setEnv stage.env)
    | none =>
      match tools.image ref with
      | some env => modify (setEnv (envMap env))
      | none => fail (.pull ref)

/-- The base is a stage, an image, or nothing. -/
def handleFROM (index : ℕ) (args : List Text) (platform : Text) : BuilderM PUnit := do
  let (image, name) ← ofExcept (parseFromArgs args)
  let ref ← inScope (expandStrict tools image)
  if ref = [] then fail .emptyImage
  else do
    checkPlatform tools platform
    modify commitCurrentStage
    modify (startStage index name)
    beginFrom tools image ref

/-- An instruction in a stage, or in front of the first one. -/
def step (index : ℕ) (instr : Instruction) : BuilderM PUnit :=
  match instr with
  | .fromImage args platform => handleFROM tools index args platform
  | .arg args => inScope (handleARG tools args)
  | instr => do
    let b ← read
    if b.current = none then fail (.noActiveStage instr.cmd)
    else inScope (handle tools b.lookupStage instr)

/-- An entry of the trace, with the stage and the instruction that it is about. -/
structure Entry where
  stage : Option ℕ
  position : ℕ
  event : Event
  deriving DecidableEq

inductive ExecuteError where
  | plan (error : BuildError)
  | step (position : ℕ) (cmd : Text) (error : BuildError)
  | noFrom
  deriving DecidableEq

abbrev ExecuteM := Logged Entry ExecuteError Builder

/-- An instruction of the plan, and the note that it is done. -/
def runPlanned (stage : Option ℕ) (planned : PlannedInstruction) : ExecuteM PUnit :=
  adapt (fun event ↦ ⟨stage, planned.position, event⟩)
    (ExecuteError.step planned.position planned.instr.cmd) id (fun b _ ↦ b) do
      step tools (stage.getD 0) planned.instr
      tell .finished

/-- The instructions of a stage, in their order. -/
def runStage (stage : PlannedStage) : ExecuteM PUnit :=
  forEach (runPlanned tools (some stage.index)) stage.instrs

/-- `execute`, behind the last stage. -/
def finishBuild : ExecuteM PUnit := do
  modify commitCurrentStage
  let b ← read
  if b.current = none then fail .noFrom else return ⟨⟩

/-- Only what the plan needs is carried out. -/
def execute (instrs : List Instruction) : ExecuteM PUnit := do
  let b ← read
  match buildStagePlan tools.lex b.scope.args instrs with
  | .error e => fail (.plan e)
  | .ok (preamble, stages) => do
    forEach (runPlanned tools none) preamble
    forEach (runStage tools) (stages.filter fun stage ↦ stage.index ∈ markReachableStages stages)
    finishBuild

end Execute

/-! ## What a step can do -/

/-- A builder inside a stage: an invariant of the scope, the stage, and the stages that it finds. -/
structure Builder.At (I : Scope → Prop) (current : Option (ℕ × Text))
    (found : List (Text × BuiltStage)) (b : Builder) : Prop where
  scope : I b.scope
  current_eq : b.current = current
  found_eq : b.stageByName = found

section Rules

variable {tools : Tools} {L : Event → Prop} {I : Scope → Prop} {current : Option (ℕ × Text)}
  {found : List (Text × BuiltStage)}

variable {args : List Text}

end Rules

theorem ensures_finishBuild {Good : List Entry → Entry → Prop} {P : List Entry → Builder → Prop}
    {Q : List Entry → Prop} (h : ∀ before b, P before b → Q before) :
    Ensures Good P finishBuild fun _ before _ ↦ Q before := by
  refine .bind (Q := fun _ before _ ↦ Q before) (.modify h) fun _ ↦ .read_bind fun b ↦ ?_
  split_ifs
  · exact .fail
  · exact .pure fun _ _ hb ↦ hb.1

theorem execute_init (tools : Tools) (seed : Vars) (instrs : List Instruction) :
    execute tools instrs (init seed) =
      (match buildStagePlan tools.lex seed instrs with
        | .error e => fail (.plan e)
        | .ok (preamble, stages) => forEach (runPlanned tools none) preamble >>= fun _ ↦
          forEach (runStage tools)
            (stages.filter fun stage ↦ stage.index ∈ markReachableStages stages) >>= fun _ ↦
          finishBuild : ExecuteM PUnit) (init seed) := rfl

end Gocracker.Dockerfile
